import BTool.Foundation.Growth
import BTool.Foundation.Image
import BTool.MMapFile.Mapping

/-! `VectorBuffer::Writer`: items one behind the other in a file that is mapped as a whole and grows by
steps. In front of them lies a `MetaSt`. -/

namespace BTool.MMapFile

open BTool.Foundation BTool.Foundation.Image

/-- An `off_t` as a `size_t`. -/
def offSize (offset : Int) : Nat := (offset % 2 ^ 64).toNat

/-- What becomes of a call: it may never return, or go on outside of the memory it has. -/
inductive Course (Result : Type) where
  | hangs
  | strays
  | returns (result : Result)
deriving DecidableEq

namespace Vector

/-- The size of a `MetaSt`. Its fields lie at the offsets 0, 8 and 16. -/
def metaSize : Nat := 24

def writeLen (image : List UInt8) : Nat := word image 8

def fileLen (image : List UInt8) : Nat := word image 16

def setItemSize (image : List UInt8) (itemSize : Nat) : List UInt8 := setWord image 0 itemSize

def setWriteLen (image : List UInt8) (length : Nat) : List UInt8 := setWord image 8 length

def setFileLen (image : List UInt8) (length : Nat) : List UInt8 := setWord image 16 length

/-- What the system says of the calls of an operation. -/
structure SystemCalls where
  openFile : Bool
  munmap : Bool
  ftruncate : Bool
  mmap : Bool
deriving DecidableEq

@[ext] structure Writer where
  /-- `m_fd` is not -1. -/
  isOpen : Bool
  bufStep : Nat
  /-- How much of the file is mapped, where `m_p_meta` is not null. -/
  mapped : Option Nat
deriving DecidableEq

def Writer.construct : Writer := ⟨false, 0, none⟩

/-- `ftruncate` takes the length as an `off_t`. -/
def truncates (calls : SystemCalls) (writer : Writer) (length : Nat) : Prop :=
  writer.isOpen = true ∧ calls.ftruncate = true ∧ length < 2 ^ 63

instance (calls : SystemCalls) (writer : Writer) (length : Nat) : Decidable (truncates calls writer length) := by
  unfold truncates
  infer_instance

variable (page : PageSize)

/-- The end of `check_add_length`, with nothing mapped. -/
def grown (calls : SystemCalls) (writer : Writer) (image : List UInt8) (writeLen fileLen len : Nat) :
    Course (ErrorT × Writer × List UInt8) :=
  match grow writer.bufStep (addSize (addSize writeLen metaSize) len) fileLen with
  | none => .hangs
  | some reached =>
    let length := page.alignDown reached
    if truncates calls writer length then
      let image := truncate 0 image length
      match mmap page calls.mmap length 0 with
      | none => .returns (.mmapFail, writer, image)
      | some mapping =>
        if mapping.length < metaSize then .strays
        else .returns (.ok, { writer with mapped := some mapping.length }, setFileLen image length)
    else .returns (.ftruncateFail, writer, image)

def checkAddLength (calls : SystemCalls) (writer : Writer) (image : List UInt8) (len : Nat) :
    Course (ErrorT × Writer × List UInt8) :=
  match writer.mapped with
  | some _ =>
    if addSize (writeLen image) len ≤ fileLen image then .returns (.ok, writer, image)
    else if calls.munmap then
      grown page calls { writer with mapped := none } image (writeLen image) (fileLen image) len
    else .returns (.munmapFail, writer, image)
  | none => grown page calls writer image 0 0 len

/-- The `memcpy` and what follows it. -/
def append (writer : Writer) (image data : List UInt8) : Option (List UInt8) :=
  let start := metaSize + writeLen image
  if start + data.length ≤ writer.mapped.getD 0 then
    let image := overwrite image start data
    some (setWriteLen image (addSize (writeLen image) data.length))
  else none

def close (calls : SystemCalls) (writer : Writer) (image : List UInt8) : Writer × List UInt8 :=
  match writer.mapped with
  | some _ =>
    let length := addSize (writeLen image) metaSize
    let image := setFileLen image length
    let image := if truncates calls writer length then truncate 0 image length else image
    ({ writer with isOpen := false, mapped := none }, image)
  | none => ({ writer with isOpen := false }, image)

inductive Fate where
  | running
  /-- The loop of `check_add_length` does not end. -/
  | hung
  /-- Something outside of the mapping has been written to. -/
  | strayed
deriving DecidableEq

/-- A file and a writer, and what has come of the calls so far. -/
@[ext] structure World where
  /-- The file is there. -/
  created : Bool
  image : List UInt8
  writer : Writer
  fate : Fate
  /-- There was room for the header and the data whenever `check_add_length` succeeded. -/
  checked : Bool
  /-- The data since the file was last begun anew. -/
  written : List UInt8
deriving DecidableEq

inductive Action where
  | openFile (calls : SystemCalls) (itemSize : Nat) (isAppend : Bool) (initBufLength bufStep : Int)
  | write (calls : SystemCalls) (data : List UInt8)
  | close (calls : SystemCalls)
deriving DecidableEq

namespace World

/-- A writer that has just been constructed, for a file that is there already or is not. -/
def start (created : Bool) (image : List UInt8) : World := ⟨created, image, .construct, .running, true, []⟩

/-- What follows a call of `check_add_length`. -/
def resume (world : World) (len : Int) (course : Course (ErrorT × Writer × List UInt8))
    (succeeds : World → World) : World :=
  match course with
  | .hangs => { world with fate := .hung }
  | .strays => { world with fate := .strayed }
  | .returns (.ok, writer, image) =>
    let room := decide ((metaSize + writeLen image : Nat) + len ≤ (fileLen image : Int))
    succeeds { world with writer, image, checked := world.checked && room }
  | .returns (_, writer, image) => { world with writer, image }

def beginAnew (world : World) (itemSize : Nat) : World :=
  { world with image := setItemSize (setWriteLen world.image 0) itemSize, written := [] }

def copyData (world : World) (data : List UInt8) : World :=
  match append world.writer world.image data with
  | none => { world with fate := .strayed }
  | some image => { world with image, written := world.written ++ data }

def next (page : PageSize) (world : World) (action : Action) : Option World :=
  if world.fate = .running then
    match action with
    | .openFile calls itemSize isAppend initBufLength bufStep =>
      if calls.openFile then
        let writer := { world.writer with isOpen := true, bufStep := offSize bufStep }
        let course := checkAddLength page calls writer world.image (offSize initBufLength)
        some ({ world with created := true, writer }.resume initBufLength course fun opened =>
          if !world.created || !isAppend then opened.beginAnew itemSize else opened)
      else some { world with writer := { world.writer with isOpen := false } }
    | .write calls data =>
      if data = [] then some world
      else if data.length < 2 ^ 64 then
        let course := checkAddLength page calls world.writer world.image data.length
        some (world.resume data.length course fun ready => ready.copyData data)
      else none
    | .close calls =>
      let (writer, image) := close calls world.writer world.image
      some { world with writer, image }
  else none

end World

end Vector

end BTool.MMapFile
