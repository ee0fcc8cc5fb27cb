import BTool.MMapFile.Mapping

/-! `MMapFile::Reader` and `MMapFile::ReverseReader`: a file is mapped chunk by chunk, from its front and
from its end. Sizes and offsets are numbers modulo 2^64. -/

namespace BTool.MMapFile

open BTool.Foundation

/-- The fields of either reader, but for the file descriptor. -/
structure ChunkReader where
  itemSize : Int
  fileSize : Nat
  curOffset : Nat
  paOffset : Nat
  chunkSize : Nat
  numChunks : Nat
  curChunkIndex : Nat
  /-- `none` is `MAP_FAILED`. -/
  curReadAddr : Option Mapping
  curReadLength : Nat
deriving DecidableEq

/-- What the system says of `munmap` and `mmap` during a call. -/
structure Calls where
  munmap : Bool
  mmap : Bool

namespace ChunkReader

/-- A reader that has been constructed with an item size. -/
def construct (itemSize : Int) : ChunkReader :=
  { itemSize, fileSize := 0, curOffset := 0, paOffset := 0, chunkSize := 0, numChunks := 0,
    curChunkIndex := 0, curReadAddr := none, curReadLength := 0 }

/-- The part of `open` that the readers have in common. `file` is `none` where `open` or `fstat` fails. -/
def openSizes (reader : ChunkReader) (file : Option (List UInt8)) (itemSize : Int) (chunkSize : Nat) :
    ErrorT × ChunkReader :=
  match file with
  | none => (.openFail, { reader with itemSize })
  | some content =>
    let wanted := mulSize chunkSize (itemSize % 2 ^ 64).toNat
    let chunkSize := if content.length < wanted then content.length else wanted
    (.ok, { reader with
      itemSize, fileSize := content.length, chunkSize,
      numChunks := if 0 < chunkSize then subSize (addSize content.length chunkSize) 1 / chunkSize
        else reader.numChunks })

def cleanMmap (reader : ChunkReader) (succeeds : Bool) : ErrorT × ChunkReader :=
  match reader.curReadAddr with
  | none => (.ok, reader)
  | some _ => (if succeeds then .ok else .munmapFail, { reader with curReadAddr := none })

def calcCurrent (page : PageSize) (reader : ChunkReader) : ChunkReader :=
  let curOffset := mulSize reader.curChunkIndex reader.chunkSize
  { reader with
    curOffset, paOffset := page.alignDown curOffset,
    curReadLength := if reader.curChunkIndex < subSize reader.numChunks 1 then reader.chunkSize
      else subSize reader.fileSize curOffset }

/-- The `mmap` of the current chunk. -/
def mapCurrent (page : PageSize) (reader : ChunkReader) (succeeds : Bool) : Option Mapping :=
  mmap page succeeds (subSize (addSize reader.curReadLength reader.curOffset) reader.paOffset)
    reader.paOffset

/-- The view of the current chunk in its mapping. -/
def currentView (reader : ChunkReader) (mapping : Mapping) : View :=
  ⟨mapping, subSize reader.curOffset reader.paOffset, reader.curReadLength⟩

/-- Maps the current chunk and returns the view of it. -/
def showCurrent (page : PageSize) (succeeds : Bool) (reader : ChunkReader) : ErrorT × View × ChunkReader :=
  match reader.mapCurrent page succeeds with
  | none => (.mmapFail, .empty, reader)
  | some mapping => (.ok, reader.currentView mapping, { reader with curReadAddr := some mapping })

def nextChunk (reader : ChunkReader) : ChunkReader :=
  { reader with curChunkIndex := addSize reader.curChunkIndex 1 }

end ChunkReader

open ChunkReader

namespace Reader

def openFile (reader : ChunkReader) (file : Option (List UInt8)) (itemSize : Int) (chunkSize : Nat) :
    ErrorT × ChunkReader :=
  reader.openSizes file itemSize chunkSize

def read (page : PageSize) (calls : Calls) (reader : ChunkReader) : ErrorT × View × ChunkReader :=
  let (error, reader) := reader.cleanMmap calls.munmap
  if error ≠ .ok then (error, .empty, reader)
  else if reader.fileSize ≤ addSize reader.curOffset reader.curReadLength then (.ok, .empty, reader)
  else
    let (error, view, reader) := (reader.calcCurrent page).showCurrent page calls.mmap
    (error, view, if error = .ok then reader.nextChunk else reader)

end Reader

namespace ReverseReader

def openFile (reader : ChunkReader) (file : Option (List UInt8)) (itemSize : Int) (chunkSize : Nat) :
    ErrorT × ChunkReader :=
  match reader.openSizes file itemSize chunkSize with
  | (.ok, reader) => (.ok, { reader with curChunkIndex := reader.numChunks })
  | (error, reader) => (error, reader)

/-- Steps back by one chunk before it computes its place. -/
def calcCurrent (page : PageSize) (reader : ChunkReader) : ChunkReader :=
  { reader with curChunkIndex := subSize reader.curChunkIndex 1 }.calcCurrent page

def read (page : PageSize) (calls : Calls) (reader : ChunkReader) : ErrorT × View × ChunkReader :=
  let (error, reader) := reader.cleanMmap calls.munmap
  if error ≠ .ok then (error, .empty, reader)
  else if reader.curChunkIndex = 0 then (.ok, .empty, reader)
  else (calcCurrent page reader).showCurrent page calls.mmap

end ReverseReader

/-- The views that a reader returns before its first empty one, within so many calls. -/
def readAll (read : ChunkReader → ErrorT × View × ChunkReader) : Nat → ChunkReader → Option (List View)
  | 0, _ => none
  | rounds + 1, reader =>
    match read reader with
    | (.ok, view, next) =>
      if view.length = 0 then some [] else (readAll read rounds next).map (view :: ·)
    | _ => none

end BTool.MMapFile
