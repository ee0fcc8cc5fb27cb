import BTool.Foundation.MemorySizes

/-! The mappings of a file and what the system says of the calls that make and undo them. -/

namespace BTool.MMapFile

open BTool.Foundation

/-- The codes of `MMapFile::error`. -/
inductive ErrorT where
  | ok
  | unknow
  | openFail
  | statFail
  | closeFail
  | freeSpaceFail
  | mmapFail
  | munmapFail
  | ftruncateFail
deriving DecidableEq

/-- A part of the file that is mapped. -/
structure Mapping where
  offset : Nat
  length : Nat
deriving DecidableEq

/-- `mmap` fails where the system says so, for no bytes, and at an offset within a page. -/
def mmap (page : PageSize) (succeeds : Bool) (length offset : Nat) : Option Mapping :=
  if succeeds = true ∧ length ≠ 0 ∧ page.size ∣ offset then some ⟨offset, length⟩ else none

/-- A `std::string_view` of the bytes of a mapping. -/
structure View where
  mapping : Mapping
  start : Nat
  length : Nat
deriving DecidableEq

namespace View

/-- `std::string_view{}`. -/
def empty : View :=
  ⟨⟨0, 0⟩, 0, 0⟩

/-- The bytes of the file that one reads through the view. -/
def bytes (view : View) (file : List UInt8) : List UInt8 :=
  (((file.drop view.mapping.offset).take view.mapping.length).drop view.start).take view.length

/-- The view lies within its mapping, and that begins at a page and lies within the file. -/
structure Covered (page : PageSize) (file : List UInt8) (view : View) : Prop where
  aligned : page.size ∣ view.mapping.offset
  covers : view.start + view.length ≤ view.mapping.length
  inFile : view.mapping.offset + view.mapping.length ≤ file.length

/-- Through a view within its mapping one reads the bytes at its place in the file. -/
theorem bytes_eq {view : View} (covers : view.start + view.length ≤ view.mapping.length) (file : List UInt8) :
    view.bytes file = (file.drop (view.mapping.offset + view.start)).take view.length := by
  rw [bytes, List.drop_take, List.drop_drop, List.take_take, Nat.min_eq_left (by omega)]

end View

end BTool.MMapFile
