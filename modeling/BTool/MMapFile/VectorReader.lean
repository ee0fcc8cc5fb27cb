import BTool.MMapFile.ChunkReaders
import BTool.MMapFile.VectorWriter

/-! `VectorBuffer::Reader`: the data of a file are mapped chunk by chunk, or are returned item by item
out of the mapping of the current chunk. -/

namespace BTool.MMapFile.Vector

open BTool.Foundation BTool.Foundation.Image

/-- A `size_t` as an `int`. -/
def intSize (size : Nat) : Int := (size + 2 ^ 31) % 2 ^ 32 - 2 ^ 31

structure Reader where
  itemSize : Int
  /-- `m_meta.write_len_`. -/
  writeLen : Nat
  curChunkOffset : Nat
  curFileOffset : Nat
  paOffset : Nat
  chunkSize : Nat
  numChunks : Nat
  curChunkIndex : Nat
  /-- `none` is `MAP_FAILED`. -/
  curReadAddr : Option Mapping
  curReadBufLength : Nat
  curReadChunkLength : Nat
deriving DecidableEq

namespace Reader

def construct : Reader :=
  { itemSize := 1, writeLen := 0, curChunkOffset := 0, curFileOffset := 0, paOffset := 0, chunkSize := 0,
    numChunks := 0, curChunkIndex := 0, curReadAddr := none, curReadBufLength := 0,
    curReadChunkLength := 0 }

/-- `init` of a file that is there. -/
def init (reader : Reader) (image : List UInt8) : Reader :=
  { reader with writeLen := Vector.writeLen image, itemSize := intSize (word image 0) }

def openImpl (reader : Reader) (chunkSize : Nat) : Reader :=
  let dataSize := reader.writeLen
  let wanted := mulSize chunkSize (offSize reader.itemSize)
  let chunkSize := if dataSize < wanted then dataSize else wanted
  { reader with
    chunkSize,
    numChunks := if 0 < chunkSize then subSize (addSize dataSize chunkSize) 1 / chunkSize
      else reader.numChunks }

/-- The header is mapped for a moment. -/
def openFile (reader : Reader) (mmap : Bool) (image : List UInt8) (chunkSize : Nat) : ErrorT × Reader :=
  if mmap then (.ok, (reader.init image).openImpl chunkSize) else (.mmapFail, reader)

def cleanMmap (reader : Reader) (succeeds : Bool) : ErrorT × Reader :=
  match reader.curReadAddr with
  | none => (.ok, reader)
  | some _ => (if succeeds then .ok else .munmapFail, { reader with curReadAddr := none })

def calcCurrent (page : PageSize) (reader : Reader) : Reader :=
  let curFileOffset := addSize metaSize (mulSize reader.curChunkIndex reader.chunkSize)
  let curReadBufLength :=
    if reader.curChunkIndex < subSize reader.numChunks 1 then reader.chunkSize
    else subSize reader.writeLen (mulSize reader.curChunkIndex reader.chunkSize)
  let paOffset := page.alignDown curFileOffset
  { reader with
    curChunkOffset := 0, curFileOffset, curReadBufLength, paOffset,
    curReadChunkLength := subSize (addSize curReadBufLength curFileOffset) paOffset }

def read (page : PageSize) (calls : Calls) (reader : Reader) : ErrorT × View × Reader :=
  let (error, reader) := reader.cleanMmap calls.munmap
  if error ≠ .ok then (error, .empty, reader)
  else if reader.writeLen ≤ addSize reader.curFileOffset reader.curReadBufLength then (.ok, .empty, reader)
  else
    let reader := reader.calcCurrent page
    match mmap page calls.mmap reader.curReadChunkLength reader.paOffset with
    | none => (.mmapFail, .empty, reader)
    | some mapping =>
      (.ok, ⟨mapping, subSize reader.curFileOffset reader.paOffset, reader.curReadBufLength⟩,
        { reader with curReadAddr := some mapping, curChunkIndex := addSize reader.curChunkIndex 1 })

/-- `read_next` of a type of this size, which is not 0. It returns what the pointer points to. -/
def readNext (page : PageSize) (calls : Calls) (size : Nat) (reader : Reader) :
    ErrorT × Option View × Reader :=
  if reader.curReadBufLength < addSize reader.curChunkOffset size then
    let (error, view, reader) := reader.read page calls
    if error ≠ .ok ∨ view.length / size = 0 then (error, none, reader)
    else
      (error, some ⟨view.mapping, view.start, size⟩,
        { reader with curChunkOffset := addSize reader.curChunkOffset size })
  else
    (.ok, reader.curReadAddr.map fun mapping => ⟨mapping, reader.curChunkOffset, size⟩,
      { reader with curChunkOffset := addSize reader.curChunkOffset size })

/-- The chunks that a reader returns before its first empty one, within so many calls. -/
def readChunks (page : PageSize) (calls : Calls) : Nat → Reader → Option (List View)
  | 0, _ => none
  | rounds + 1, reader =>
    match reader.read page calls with
    | (.ok, view, next) =>
      if view.length = 0 then some [] else (readChunks page calls rounds next).map (view :: ·)
    | _ => none

/-- The reader after so many calls of `read_next`. -/
def afterNext (page : PageSize) (calls : Calls) (size : Nat) : Nat → Reader → Reader
  | 0, reader => reader
  | count + 1, reader => ((afterNext page calls size count reader).readNext page calls size).2.2

end Reader

end BTool.MMapFile.Vector
