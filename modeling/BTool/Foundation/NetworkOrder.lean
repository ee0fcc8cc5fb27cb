import Mathlib.Data.List.Induction
import Mathlib.Data.Nat.ModEq

/-! Numbers in network order: bytes with the highest first. -/

namespace BTool.Foundation

/-- The low bytes of a number, the highest of them first. -/
def networkBytes : Nat → Nat → List UInt8
  | 0, _ => []
  | width + 1, number => networkBytes width (number / 256) ++ [UInt8.ofNat number]

/-- The number that bytes in network order stand for. -/
def networkNumber (bytes : List UInt8) : Nat :=
  bytes.foldl (fun number byte => number * 256 + byte.toNat) 0

@[simp] theorem length_networkBytes (width number : Nat) : (networkBytes width number).length = width := by
  induction width generalizing number with
  | zero => rfl
  | succ width ih => rw [networkBytes, List.length_append, ih, List.length_singleton]

theorem networkNumber_snoc (bytes : List UInt8) (byte : UInt8) :
    networkNumber (bytes ++ [byte]) = networkNumber bytes * 256 + byte.toNat := by
  unfold networkNumber
  rw [List.foldl_append, List.foldl_cons, List.foldl_nil]

/-- As many bytes as there are hold a number up to the rest. -/
theorem networkNumber_networkBytes (width number : Nat) :
    networkNumber (networkBytes width number) = number % 256 ^ width := by
  induction width generalizing number with
  | zero =>
    rw [Nat.pow_zero, Nat.mod_one]
    rfl
  | succ width ih =>
    have low : (UInt8.ofNat number).toNat = number % 256 := UInt8.toNat_ofNat'
    rw [networkBytes, networkNumber_snoc, ih, low, Nat.pow_succ', Nat.mod_mul, Nat.mul_comm,
      Nat.add_comm]

theorem networkNumber_of_lt {width number : Nat} (small : number < 256 ^ width) :
    networkNumber (networkBytes width number) = number := by
  rw [networkNumber_networkBytes, Nat.mod_eq_of_lt small]

theorem networkNumber_lt (bytes : List UInt8) : networkNumber bytes < 256 ^ bytes.length := by
  induction bytes using List.reverseRecOn with
  | nil => decide
  | append_singleton bytes byte ih =>
    have digit := byte.toNat_lt
    rw [networkNumber_snoc, List.length_append, List.length_singleton, Nat.pow_succ]
    omega

end BTool.Foundation
