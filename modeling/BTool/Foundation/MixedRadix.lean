import Mathlib.Algebra.BigOperators.Group.List.Basic
import Mathlib.Algebra.Order.Ring.Int
import Mathlib.Data.List.Lex

/-! Numbers made of digits, each with a base of its own, the most significant one first. -/

namespace BTool.Foundation

def mixedNumber : List Int → List Int → Int
  | _ :: bases, digit :: digits => digit * bases.prod + mixedNumber bases digits
  | _, _ => 0

/-- One digit for each base, below it. -/
abbrev Digits (bases digits : List Int) : Prop :=
  List.Forall₂ (fun base digit => 0 ≤ digit ∧ digit < base) bases digits

variable {bases digits digits' : List Int} {base digit digit' rest rest' : Int}

theorem mixedNumber_bounds (within : Digits bases digits) :
    0 ≤ mixedNumber bases digits ∧ mixedNumber bases digits < bases.prod := by
  induction within with
  | nil => exact ⟨Int.le_refl 0, by decide⟩
  | @cons base digit bases digits bounds _ ih =>
    have least : 0 ≤ digit * bases.prod := Int.mul_nonneg bounds.1 (by omega)
    have most : (digit + 1) * bases.prod ≤ base * bases.prod :=
      Int.mul_le_mul_of_nonneg_right bounds.2 (by omega)
    rw [Int.add_mul, Int.one_mul] at most
    rw [mixedNumber, List.prod_cons]
    omega

/-- The most significant digit decides, and the rest where it is the same. -/
theorem carry_lt_iff (bounds : 0 ≤ rest ∧ rest < base) (bounds' : 0 ≤ rest' ∧ rest' < base) :
    digit * base + rest < digit' * base + rest' ↔ digit < digit' ∨ digit = digit' ∧ rest < rest' := by
  obtain less | rfl | greater := Int.lt_trichotomy digit digit'
  · have above : (digit + 1) * base ≤ digit' * base := Int.mul_le_mul_of_nonneg_right less (by omega)
    rw [Int.add_mul, Int.one_mul] at above
    exact iff_of_true (by omega) (.inl less)
  · omega
  · have above : (digit' + 1) * base ≤ digit * base := Int.mul_le_mul_of_nonneg_right greater (by omega)
    rw [Int.add_mul, Int.one_mul] at above
    omega

/-- Numbers are compared as the lists of their digits. -/
theorem mixedNumber_lt_iff (within : Digits bases digits) (within' : Digits bases digits') :
    mixedNumber bases digits < mixedNumber bases digits' ↔ digits < digits' := by
  induction within generalizing digits' with
  | nil =>
    cases within'
    exact iff_of_false (Int.lt_irrefl _) (List.lt_irrefl _)
  | cons _ tail ih =>
    obtain _ | ⟨_, tail'⟩ := within'
    rw [mixedNumber, mixedNumber, List.cons_lt_cons_iff,
      carry_lt_iff (mixedNumber_bounds tail) (mixedNumber_bounds tail'), ih tail']

theorem mixedNumber_inj (within : Digits bases digits) (within' : Digits bases digits') :
    mixedNumber bases digits = mixedNumber bases digits' ↔ digits = digits' := by
  refine ⟨fun same => ?_, fun same => congrArg _ same⟩
  have notLess : ¬digits < digits' := fun less => ((mixedNumber_lt_iff within within').mpr less).ne same
  have notGreater : ¬digits' < digits := fun greater =>
    ((mixedNumber_lt_iff within' within).mpr greater).ne' same
  exact le_antisymm (not_lt.mp notGreater) (not_lt.mp notLess)

end BTool.Foundation
