import Mathlib.Data.List.Basic
import Mathlib.Order.Bounds.Defs

namespace BTool.Foundation

/-! Lists cut into chunks of one size, of which the last may be shorter. -/

variable {Item : Type} {list : List Item} {size length count index : Nat}

/-- The chunk with this number. -/
def chunk (size : Nat) (list : List Item) (index : Nat) : List Item :=
  (list.drop (index * size)).take size

/-- How many chunks it takes, rounded up. -/
def chunkCount (length size : Nat) : Nat :=
  (length + size - 1) / size

theorem take_eq_chunks : list.take (count * size) = (List.range count).flatMap (chunk size list) := by
  induction count with
  | zero => rw [Nat.zero_mul, List.take_zero, List.range_zero, List.flatMap_nil]
  | succ count ih =>
    rw [Nat.succ_mul, List.take_add, ih, List.range_succ, List.flatMap_append, List.flatMap_singleton]
    rfl

/-- The chunks one behind the other are the list, as soon as there are enough of them. -/
theorem chunks_eq (enough : list.length ≤ count * size) :
    (List.range count).flatMap (chunk size list) = list := by
  rw [← take_eq_chunks, List.take_of_length_le enough]

theorem le_chunkCount_mul (positive : 0 < size) : length ≤ chunkCount length size * size := by
  have ceil := Nat.lt_mul_div_succ (length + size - 1) positive
  rw [Nat.mul_succ, Nat.mul_comm] at ceil
  unfold chunkCount
  omega

theorem mul_lt_of_lt_chunkCount (positive : 0 < size) (early : index < chunkCount length size) :
    index * size < length := by
  have enough := (Nat.le_div_iff_mul_le positive).mp (Nat.succ_le_of_lt early)
  rw [Nat.succ_mul] at enough
  omega

theorem lt_chunkCount_of_mul_lt (positive : 0 < size) (early : index * size < length) :
    index < chunkCount length size := by
  refine (Nat.le_div_iff_mul_le positive).mpr ?_
  rw [Nat.succ_mul]
  omega

theorem chunkCount_le : chunkCount length size ≤ length := by
  unfold chunkCount
  obtain _ | size := size
  · rw [Nat.div_zero]
    exact Nat.zero_le _
  obtain _ | length := length
  · exact Nat.le_of_eq (Nat.div_eq_of_lt (by omega))
  · refine Nat.div_le_of_le_mul ?_
    have larger : size ≤ size * (length + 1) := Nat.le_mul_of_pos_right size (Nat.succ_pos length)
    rw [Nat.succ_mul]
    omega

/-- A chunk but for the last is full, and the last takes the rest. -/
theorem min_chunk (positive : 0 < size) (early : index < chunkCount length size) :
    min size (length - index * size) =
      if index < chunkCount length size - 1 then size else length - index * size := by
  by_cases notLast : index < chunkCount length size - 1
  · have next : (index + 1) * size < length := mul_lt_of_lt_chunkCount positive (by omega)
    rw [Nat.succ_mul] at next
    rw [if_pos notLast, Nat.min_eq_left (by omega)]
  · have enough : length ≤ chunkCount length size * size := le_chunkCount_mul positive
    have last : chunkCount length size = index + 1 := by omega
    rw [last, Nat.succ_mul] at enough
    rw [if_neg notLast, Nat.min_eq_right (by omega)]

/-- As many full chunks as it takes make the least multiple of their size that is not shorter. -/
theorem isLeast_chunkCount_mul (positive : 0 < size) :
    IsLeast {multiple | size ∣ multiple ∧ length ≤ multiple} (chunkCount length size * size) := by
  refine ⟨⟨Nat.dvd_mul_left _ _, le_chunkCount_mul positive⟩, ?_⟩
  rintro _ ⟨⟨count, rfl⟩, enough⟩
  by_contra fewer
  rw [Nat.mul_comm size, Nat.not_le, Nat.mul_lt_mul_right positive] at fewer
  have short := mul_lt_of_lt_chunkCount positive fewer
  rw [Nat.mul_comm] at short
  exact Nat.not_le_of_lt short enough

end BTool.Foundation
