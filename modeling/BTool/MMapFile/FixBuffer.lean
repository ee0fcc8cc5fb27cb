import BTool.Foundation.Regions
import BTool.MMapFile.Mapping

/-! `FixBuffer::Writer`: data one behind the other in a file of a fixed size that is mapped as a
whole. In front of it lies a `MetaSt`. -/

namespace BTool.MMapFile

open BTool.Foundation BTool.Foundation.Image

namespace Fix

/-- The size of a `MetaSt`, which is packed: its fields lie at the offsets 0, 1 and 9. -/
def metaSize : Nat := 17

def hasFinished (image : List UInt8) : Bool := piece image 0 1 != [0]

def writeLen (image : List UInt8) : Nat := word image 1

def fileSize (image : List UInt8) : Nat := word image 9

def setHasFinished (image : List UInt8) (finished : Bool) : List UInt8 :=
  overwrite image 0 [if finished then 1 else 0]

def setWriteLen (image : List UInt8) (length : Nat) : List UInt8 := setWord image 1 length

def setFileSize (image : List UInt8) (size : Nat) : List UInt8 := setWord image 9 size

/-- What the system says of the calls of an operation. -/
structure SystemCalls where
  openFile : Bool
  fstat : Bool
  ftruncate : Bool
  mmap : Bool
deriving DecidableEq

/-- The files, a writer, and what it has handed out. -/
structure World (File : Type) where
  files : File → Option (List UInt8)
  /-- The file behind `m_meta`, and how much of it is mapped. -/
  mapped : Option (File × Nat)
  /-- `m_file_path`, and whether it is one of shared memory. -/
  path : Option File
  /-- Something outside of the mapping has been written to. -/
  strayed : Bool
  /-- The regions of a file since it was begun anew. -/
  regions : File → List (Region UInt8)
  /-- A file that was new had room for its buffer, and the free space grew by what was added. -/
  fitted : Bool

inductive Action (File : Type) where
  | openFile (calls : SystemCalls) (file : File) (bufferSize : Nat) (isAppend : Bool)
  | write (msg : List UInt8)
  | getData (len : Nat)
  /-- The caller writes to a region. -/
  | fill (front : List (Region UInt8)) (region : Region UInt8) (back : List (Region UInt8))
      (bytes : List UInt8)
  | addFileLen (calls : SystemCalls) (len : Nat)
  | close

variable {File : Type} [DecidableEq File] (page : PageSize)

/-- `open_impl` before it looks at the file. -/
def realFileSize (bufferSize : Nat) : Nat :=
  page.alignDown (max (addSize metaSize bufferSize) page.size)

namespace World

def start : World File := ⟨fun _ => none, none, none, false, fun _ => [], true⟩

def setImage (world : World File) (file : File) (image : List UInt8) : World File :=
  { world with files := Function.update world.files file (some image) }

/-- The size to which a file is brought when it is opened. -/
def reached (world : World File) (file : File) (bufferSize : Nat) : Nat :=
  match world.files file with
  | none => realFileSize page bufferSize
  | some image => max image.length (realFileSize page bufferSize)

/-- What `open_impl` does to the header in a file that is mapped. -/
def setUp (image : List UInt8) (size : Nat) (anew : Bool) : List UInt8 :=
  let image :=
    if anew then setFileSize (setWriteLen (setHasFinished image false) 0) size else setFileSize image size
  setHasFinished image false

/-- A file is mapped, and the header of a new one, or of one that is not appended to, is set. -/
def mapFile (world : World File) (file : File) (image : List UInt8) (size : Nat) (anew : Bool) :
    World File :=
  if size < metaSize then { world.setImage file image with strayed := true }
  else
    { world.setImage file (setUp image size anew) with
      mapped := some (file, size)
      regions := if anew then Function.update world.regions file [] else world.regions }

/-- `open_impl`, for a file that was not there or has some contents. -/
def openImpl (calls : SystemCalls) (world : World File) (file : File) (found : Option (List UInt8))
    (bufferSize : Nat) (isAppend : Bool) : ErrorT × World File :=
  let size := world.reached page file bufferSize
  let world := world.setImage file (found.getD [])
  if found.isSome && !calls.fstat then (.statFail, { world with mapped := none })
  else if calls.ftruncate = true ∧ size < 2 ^ 63 then
    let image := truncate 0 (found.getD []) size
    match mmap page calls.mmap size 0 with
    | none => (.mmapFail, world.setImage file image)
    | some mapping => (.ok, world.mapFile file image mapping.length (found.isNone || !isAppend))
  else (.ftruncateFail, world)

/-- `open` and `shm_open`. -/
def openFile (calls : SystemCalls) (world : World File) (file : File) (bufferSize : Nat) (isAppend : Bool) :
    ErrorT × World File :=
  let world := { world with path := some file }
  if calls.openFile then openImpl page calls world file (world.files file) bufferSize isAppend
  else (.openFail, world)

/-- `file_size_ - sizeof(MetaSt) - write_len_`. -/
def free (image : List UInt8) : Nat :=
  subSize (subSize (fileSize image) metaSize) (writeLen image)

/-- The space that is free in the file behind `m_meta`. -/
def freeSpace (world : World File) : Option Nat := do
  let (file, _) ← world.mapped
  return free (← world.files file)

def write (world : World File) (file : File) (length : Nat) (image msg : List UInt8) : World File :=
  if msg.length ≤ free image then
    let place := metaSize + writeLen image
    if place + msg.length ≤ length then
      let image := setWriteLen (overwrite image place msg) (addSize (writeLen image) msg.length)
      { world.setImage file image with
        regions := Function.update world.regions file (world.regions file ++ [⟨place, msg⟩]) }
    else { world with strayed := true }
  else world

def getData (world : World File) (file : File) (image : List UInt8) (len : Nat) : World File :=
  if hasFinished image = true ∨ ¬len ≤ free image then world
  else
    let place := metaSize + writeLen image
    { world.setImage file (setWriteLen image (addSize (writeLen image) len)) with
      regions := Function.update world.regions file
        (world.regions file ++ [⟨place, piece image place len⟩]) }

/-- An operation fails, or leaves so much space. -/
def leaves (result : ErrorT × World File) (needed : Nat) : Bool :=
  result.1 != .ok || result.2.freeSpace.any (needed ≤ ·)

def settle (world : World File) (result : ErrorT × World File) (fits : Bool) : World File :=
  { result.2 with fitted := world.fitted && fits }

/-- Where nothing is mapped, `write`, `get_data` and `add_file_len` read a null pointer. -/
def next (page : PageSize) (world : World File) (action : Action File) : Option (World File) :=
  if world.strayed then none
  else
    match action with
    | .openFile calls file bufferSize isAppend =>
      if bufferSize < 2 ^ 64 then
        let result := openFile page calls world file bufferSize isAppend
        some (world.settle result ((world.files file).isSome || leaves result bufferSize))
      else none
    | .write msg => do
      let (file, length) ← world.mapped
      let image ← world.files file
      if msg.length < 2 ^ 64 then some (world.write file length image msg) else none
    | .getData len => do
      let (file, _) ← world.mapped
      let image ← world.files file
      if len < 2 ^ 64 then some (world.getData file image len) else none
    | .fill front region back bytes => do
      let (file, _) ← world.mapped
      let image ← world.files file
      if world.regions file = front ++ region :: back ∧ bytes.length = region.cells.length then
        some { world.setImage file (overwrite image region.start bytes) with
          regions := Function.update world.regions file (front ++ { region with cells := bytes } :: back) }
      else none
    | .addFileLen calls len => do
      let (file, _) ← world.mapped
      let image ← world.files file
      let path ← world.path
      if len < 2 ^ 64 then
        let bufferSize := subSize (addSize (fileSize image) len) metaSize
        let result := openFile page calls { world with mapped := none } path bufferSize true
        some (world.settle result (leaves result (free image + len)))
      else none
    | .close => some { world with mapped := none }

end World

end Fix

end BTool.MMapFile
