import Mathlib.Data.Nat.Bitwise

namespace BTool.Foundation

/-! Sizes and offsets in 64 bits: sums and differences that wrap round, and offsets rounded down to
memory pages with a bit mask. -/

/-- A sum of two sizes. -/
def addSize (size size' : Nat) : Nat :=
  (size + size') % 2 ^ 64

/-- A difference of two sizes. -/
def subSize (size size' : Nat) : Nat :=
  (2 ^ 64 + size - size' % 2 ^ 64) % 2 ^ 64

/-- A product of two sizes. -/
def mulSize (size size' : Nat) : Nat :=
  size * size' % 2 ^ 64

section

variable {size size' : Nat}

theorem addSize_eq (small : size + size' < 2 ^ 64) : addSize size size' = size + size' :=
  Nat.mod_eq_of_lt small

theorem subSize_eq (within : size' ≤ size) (small : size < 2 ^ 64) : subSize size size' = size - size' := by
  unfold subSize
  omega

theorem mulSize_eq (small : size * size' < 2 ^ 64) : mulSize size size' = size * size' :=
  Nat.mod_eq_of_lt small

end

/-- The size of a memory page: a power of two that a signed number of 64 bits can hold. -/
structure PageSize where
  size : Nat
  power : ∃ bits < 63, size = 2 ^ bits

namespace PageSize

variable (page : PageSize) {offset : Nat}

/-- Clears the bits of an offset below the page size. -/
def alignDown (offset : Nat) : Nat :=
  offset &&& (2 ^ 64 - 1 - (page.size - 1))

theorem size_pos : 0 < page.size := by
  obtain ⟨size, bits, small, rfl⟩ := page
  exact Nat.two_pow_pos bits

theorem size_lt : page.size < 2 ^ 63 := by
  obtain ⟨size, bits, small, rfl⟩ := page
  exact Nat.pow_lt_pow_right (by omega) small

private theorem land_high {bits : Nat} (within : bits ≤ 64) (small : offset < 2 ^ 64) :
    offset &&& (2 ^ 64 - 1 - (2 ^ bits - 1)) = offset / 2 ^ bits * 2 ^ bits := by
  have one : 1 ≤ 2 ^ bits := Nat.one_le_two_pow
  have fits : 2 ^ bits - 1 < 2 ^ 64 :=
    Nat.lt_of_lt_of_le (Nat.sub_lt one Nat.one_pos) (Nat.pow_le_pow_right (by omega) within)
  apply Nat.eq_of_testBit_eq
  intro place
  rw [Nat.sub_sub, Nat.add_comm 1, Nat.testBit_and, Nat.testBit_two_pow_sub_succ fits,
    Nat.testBit_two_pow_sub_one, Nat.testBit_mul_two_pow, Nat.testBit_div_two_pow]
  by_cases high : bits ≤ place
  · have back : place - bits + bits = place := Nat.sub_add_cancel high
    by_cases top : place < 64
    · simp [high, top, Nat.not_lt.mpr high, back]
    · have clear : offset.testBit place = false :=
        Nat.testBit_lt_two_pow (Nat.lt_of_lt_of_le small (Nat.pow_le_pow_right (by omega) (by omega)))
      simp [back, clear]
  · simp [high, Nat.lt_of_not_le high]

/-- The mask rounds down to the page that the offset is in. -/
theorem alignDown_eq (small : offset < 2 ^ 64) :
    page.alignDown offset = offset / page.size * page.size := by
  obtain ⟨size, bits, low, rfl⟩ := page
  exact land_high (by omega) small

theorem alignDown_le (offset : Nat) : page.alignDown offset ≤ offset :=
  Nat.and_le_left

theorem dvd_alignDown (small : offset < 2 ^ 64) : page.size ∣ page.alignDown offset := by
  rw [page.alignDown_eq small]
  exact Nat.dvd_mul_left _ _

/-- What reaches so far also when it is rounded down. -/
theorem le_alignDown_iff {needed : Nat} (small : offset < 2 ^ 64) : needed ≤ page.alignDown offset ↔
    ∃ pages, needed ≤ pages * page.size ∧ pages * page.size ≤ offset := by
  rw [page.alignDown_eq small]
  constructor
  · exact fun reaches => ⟨offset / page.size, reaches, Nat.div_mul_le_self ..⟩
  · rintro ⟨pages, reaches, within⟩
    have below : pages ≤ offset / page.size := (Nat.le_div_iff_mul_le page.size_pos).mpr within
    exact Nat.le_trans reaches (Nat.mul_le_mul_right _ below)

end PageSize

end BTool.Foundation
