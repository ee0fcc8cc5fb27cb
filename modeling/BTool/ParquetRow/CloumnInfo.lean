import BTool.Foundation.Placement

/-! The columns of a row, as `ParquetRow` keeps them for its `Reader` and its `Writer`. -/

namespace BTool.ParquetRow

open BTool.Foundation

/-- The types of Arrow that are named here, and any other one. -/
inductive ArrowType where
  | na | bool | uint8 | int8 | uint16 | int16 | uint32 | int32 | uint64 | int64
  | halfFloat | float | double
  | string | binary | fixedSizeBinary
  | date32 | date64 | timestamp | time32 | time64
  | intervalMonths | intervalDayTime
  | decimal128 | decimal256
  | list | struct | sparseUnion | denseUnion | dictionary | map | extension
  | fixedSizeList | duration
  | largeString | largeBinary | largeList
  | intervalMonthDayNano | runEndEncoded
  | other (id : Nat)
deriving DecidableEq

structure CloumnInfo where
  name : String
  fixLength : Int
  rowOffset : Int
  dataType : ArrowType
deriving DecidableEq

namespace CloumnInfo

/-- What `resize` makes. -/
def blank : CloumnInfo := ⟨"", 0, 0, .na⟩

/-- The lengths of some columns together. -/
abbrev width (infos : List CloumnInfo) : Int := extent CloumnInfo.fixLength infos

theorem width_append (front back : List CloumnInfo) : width (front ++ back) = width front + width back :=
  extent_append

/-- Columns of the same lengths are as wide together. -/
theorem width_congr {infos others : List CloumnInfo}
    (lengths : infos.map CloumnInfo.fixLength = others.map CloumnInfo.fixLength) : width infos = width others :=
  congrArg List.sum lengths

theorem sum_zeros (count : Nat) : (List.replicate count (0 : Int)).sum = 0 := by
  rw [List.sum_replicate]
  exact Int.mul_zero _

theorem width_blanks (count : Nat) : width (List.replicate count blank) = 0 := by
  rw [width, extent, List.map_replicate]
  exact sum_zeros count

/-- The offset of every column is the sum of the lengths of the columns before. -/
abbrev InRow (infos : List CloumnInfo) : Prop := Placed CloumnInfo.fixLength CloumnInfo.rowOffset 0 infos

/-- Columns one behind the other from an offset on. -/
def laid (curOff : Int) : List CloumnInfo → List CloumnInfo
  | [] => []
  | item :: rest => { item with rowOffset := curOff } :: laid (curOff + item.fixLength) rest

theorem lengths_laid (curOff : Int) (infos : List CloumnInfo) :
    (laid curOff infos).map CloumnInfo.fixLength = infos.map CloumnInfo.fixLength := by
  induction infos generalizing curOff with
  | nil => rfl
  | cons item rest ih => rw [laid, List.map_cons, List.map_cons, ih]

theorem placed_laid (curOff : Int) (infos : List CloumnInfo) :
    Placed CloumnInfo.fixLength CloumnInfo.rowOffset curOff (laid curOff infos) := by
  induction infos generalizing curOff with
  | nil => exact .nil
  | cons item rest ih => exact Placed.cons_iff.mpr ⟨rfl, ih _⟩

end CloumnInfo

/-- A conversion of a signed number to a size. -/
def toSize (value : Int) : Nat := (value % 2 ^ 64).toNat

theorem toSize_eq_iff {value : Int} (fits : FitsInt value) : (toSize value : Int) = value ↔ 0 ≤ value := by
  unfold toSize
  unfold FitsInt at fits
  omega

end BTool.ParquetRow
