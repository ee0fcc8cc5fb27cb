import Mathlib.Algebra.Group.Int.Defs
import Mathlib.Algebra.Group.Nat.Defs
import Mathlib.Data.Int.Basic

/-! Integers of 32 and of 64 bits with a sign: results that have to fit, and conversions that wrap
round. -/

namespace BTool.Foundation

def FitsInt (value : Int) : Prop := -2 ^ 31 ≤ value ∧ value < 2 ^ 31

instance (value : Int) : Decidable (FitsInt value) := inferInstanceAs (Decidable (_ ∧ _))

/-- The result of an operation, undefined where it does not fit. -/
def checkInt (value : Int) : Option Int :=
  if FitsInt value then some value else none

def FitsLong (value : Int) : Prop := -2 ^ 63 ≤ value ∧ value < 2 ^ 63

instance (value : Int) : Decidable (FitsLong value) := inferInstanceAs (Decidable (_ ∧ _))

def checkLong (value : Int) : Option Int :=
  if FitsLong value then some value else none

/-- Terms added from left to right to what there is, with a check of each sum. -/
def sumFrom (check : Int → Option Int) (sum : Int) : List Int → Option Int
  | [] => some sum
  | term :: terms => (check (sum + term)).bind fun sum => sumFrom check sum terms

/-- What a conversion keeps of a wider integer. -/
def narrowInt (value : Int) : Int :=
  value.bmod (2 ^ 32)

variable {value sum term result : Int} {terms : List Int}

theorem checkInt_eq (fits : FitsInt value) : checkInt value = some value :=
  if_pos fits

theorem checkLong_eq (fits : FitsLong value) : checkLong value = some value :=
  if_pos fits

@[simp]
theorem checkInt_eq_some : checkInt value = some result ↔ FitsInt value ∧ value = result := by
  simp [checkInt]

@[simp]
theorem sumFrom_nil {check : Int → Option Int} : sumFrom check sum [] = some result ↔ sum = result := by
  simp [sumFrom]

@[simp]
theorem sumFrom_checkInt_cons : sumFrom checkInt sum (term :: terms) = some result ↔
    FitsInt (sum + term) ∧ sumFrom checkInt (sum + term) terms = some result := by
  simp [sumFrom, Option.bind_eq_some_iff, and_assoc]

theorem sumFrom_cons {check : Int → Option Int} (checked : check (sum + term) = some (sum + term)) :
    sumFrom check sum (term :: terms) = sumFrom check (sum + term) terms := by
  rw [sumFrom, checked, Option.bind_some]

theorem narrowInt_eq (fits : FitsInt value) : narrowInt value = value :=
  Int.bmod_eq_of_le fits.1 fits.2

theorem narrowInt_fits (value : Int) : FitsInt (narrowInt value) := by
  have lower : -(((2 ^ 32 : Nat) : Int) / 2) ≤ narrowInt value := Int.le_bmod (by decide)
  have upper : narrowInt value < (((2 ^ 32 : Nat) : Int) + 1) / 2 := Int.bmod_lt (by decide)
  exact ⟨lower, upper⟩

theorem exists_narrowInt (value : Int) : ∃ rounds : Int, value = narrowInt value + rounds * 2 ^ 32 := by
  refine ⟨(value - narrowInt value) / 2 ^ 32, ?_⟩
  unfold narrowInt
  simp only [Int.bmod_def]
  omega

/-- A quotient is rounded towards zero. -/
theorem tdiv_cases (value divisor : Int) :
    0 ≤ value ∧ value.tdiv divisor = value / divisor ∨
      value < 0 ∧ value.tdiv divisor = -(-value / divisor) := by
  obtain negative | nonneg := Int.lt_or_le value 0
  · refine .inr ⟨negative, ?_⟩
    rw [← Int.tdiv_eq_ediv_of_nonneg (by omega), Int.neg_tdiv, Int.neg_neg]
  · exact .inl ⟨nonneg, Int.tdiv_eq_ediv_of_nonneg nonneg⟩

end BTool.Foundation
