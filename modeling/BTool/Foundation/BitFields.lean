import Mathlib.Algebra.Group.Nat.Defs
import Mathlib.Data.Nat.Basic

/-! Two numbers in one, the lower of a fixed number of bits. -/

namespace BTool.Foundation

/-- A number above the bits of another. -/
def pack (width high low : Nat) : Nat := high <<< width ||| low

variable {width high low high' low' : Nat}

theorem pack_eq (fits : low < 2 ^ width) : pack width high low = high * 2 ^ width + low := by
  rw [pack, ← Nat.shiftLeft_add_eq_or_of_lt fits, Nat.shiftLeft_eq]

theorem pack_div (fits : low < 2 ^ width) : pack width high low / 2 ^ width = high := by
  rw [pack_eq fits, Nat.add_comm, Nat.add_mul_div_right _ _ (Nat.two_pow_pos width),
    Nat.div_eq_of_lt fits, Nat.zero_add]

theorem pack_mod (fits : low < 2 ^ width) : pack width high low % 2 ^ width = low := by
  rw [pack_eq fits, Nat.add_comm, Nat.add_mul_mod_self_right, Nat.mod_eq_of_lt fits]

/-- The lower number does not reach the next value of the higher. -/
theorem pack_lt (fits : low < 2 ^ width) {bound : Nat} (less : high < bound) :
    pack width high low < bound * 2 ^ width := by
  rw [pack_eq fits]
  calc high * 2 ^ width + low < (high + 1) * 2 ^ width := by
        rw [Nat.add_mul, Nat.one_mul]
        omega
    _ ≤ bound * 2 ^ width := Nat.mul_le_mul_right _ less

/-- Packed numbers are ordered by the higher one first. -/
theorem pack_lt_pack_of_high (fits : low < 2 ^ width) (fits' : low' < 2 ^ width) (less : high < high') :
    pack width high low < pack width high' low' := by
  have below := pack_lt fits less
  rw [pack_eq fits']
  omega

theorem pack_lt_pack_of_low (fits : low < 2 ^ width) (fits' : low' < 2 ^ width) (less : low < low') :
    pack width high low < pack width high low' := by
  rw [pack_eq fits, pack_eq fits']
  omega

end BTool.Foundation
