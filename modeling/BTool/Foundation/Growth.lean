import Mathlib.Data.Int.GCD
import Mathlib.Data.Nat.Find
import Mathlib.Data.Nat.ModEq
import BTool.Foundation.MemorySizes

/-! A size in 64 bits that grows by steps until it is enough. It wraps round, so the loop may never
come to an end. -/

namespace BTool.Foundation

variable {step need size reached rounds : Nat}

/-- The loop, for so many rounds. -/
def growLoop (step need : Nat) : Nat → Nat → Option Nat
  | 0, _ => none
  | rounds + 1, size => if size < need then growLoop step need rounds (addSize size step) else some size

/-- Sizes come round within `2 ^ 64` steps, so a loop that goes on for longer has no end. -/
def grow (step need size : Nat) : Option Nat := growLoop step need (2 ^ 64) size

/-- The size after so many steps. -/
def sizeAfter (step size count : Nat) : Nat := (size + count * step) % 2 ^ 64

/-- The first size that is enough. -/
def FirstReach (step need size reached : Nat) : Prop :=
  ∃ count, reached = sizeAfter step size count ∧ need ≤ reached ∧
    ∀ fewer < count, sizeAfter step size fewer < need

theorem sizeAfter_succ (step size count : Nat) :
    sizeAfter step (addSize size step) count = sizeAfter step size (count + 1) := by
  rw [sizeAfter, sizeAfter, addSize, Nat.mod_add_mod, Nat.succ_mul, Nat.add_assoc, Nat.add_comm step]

private theorem addSize_lt (size step : Nat) : addSize size step < 2 ^ 64 :=
  Nat.mod_lt _ (Nat.two_pow_pos 64)

theorem sizeAfter_zero (small : size < 2 ^ 64) : sizeAfter step size 0 = size := by
  rw [sizeAfter, Nat.zero_mul, Nat.add_zero, Nat.mod_eq_of_lt small]

theorem growLoop_eq_some_iff (small : size < 2 ^ 64) : growLoop step need rounds size = some reached ↔
    ∃ count < rounds, reached = sizeAfter step size count ∧ need ≤ reached ∧
      ∀ fewer < count, sizeAfter step size fewer < need := by
  induction rounds generalizing size with
  | zero => simp [growLoop]
  | succ rounds ih =>
    rw [growLoop]
    split
    · rename_i less
      rw [ih (addSize_lt size step)]
      constructor
      · rintro ⟨count, early, same, enough, before⟩
        refine ⟨count + 1, by omega, by rw [same, sizeAfter_succ], enough, ?_⟩
        rintro (_ | fewer) earlier
        · rwa [sizeAfter_zero small]
        · rw [← sizeAfter_succ]
          exact before fewer (by omega)
      · rintro ⟨_ | count, early, same, enough, before⟩
        · rw [sizeAfter_zero small] at same
          omega
        · refine ⟨count, by omega, by rw [same, sizeAfter_succ], enough, fun fewer earlier => ?_⟩
          rw [sizeAfter_succ]
          exact before (fewer + 1) (by omega)
    · rename_i notLess
      constructor
      · rintro ⟨⟩
        exact ⟨0, by omega, (sizeAfter_zero small).symm, by omega, by simp⟩
      · rintro ⟨_ | count, _, same, _, before⟩
        · rw [same, sizeAfter_zero small]
        · have first := before 0 (by omega)
          rw [sizeAfter_zero small] at first
          omega

/-- The loop ends with the first size that is enough. -/
theorem grow_eq_some_iff (small : size < 2 ^ 64) :
    grow step need size = some reached ↔ FirstReach step need size reached := by
  rw [grow, growLoop_eq_some_iff small]
  constructor
  · rintro ⟨count, _, first⟩
    exact ⟨count, first⟩
  · rintro ⟨count, same, enough, before⟩
    refine ⟨count, ?_, same, enough, before⟩
    by_contra late
    have round : sizeAfter step size (count - 2 ^ 64) = sizeAfter step size count := by
      obtain ⟨rest, rfl⟩ := Nat.exists_eq_add_of_le (Nat.not_lt.mp late)
      rw [Nat.add_sub_cancel_left, sizeAfter, sizeAfter, Nat.add_mul, Nat.add_left_comm,
        Nat.add_comm (2 ^ 64 * step), Nat.add_mul_mod_self_left]
    have earlier := before (count - 2 ^ 64) (by omega)
    omega

theorem FirstReach.unique {other : Nat} (small : size < 2 ^ 64) (first : FirstReach step need size reached)
    (second : FirstReach step need size other) : other = reached :=
  Option.some.inj (((grow_eq_some_iff small).mpr second).symm.trans ((grow_eq_some_iff small).mpr first))

/-- The largest size that the steps come to. -/
def highest (step size : Nat) : Nat := 2 ^ 64 - Nat.gcd step (2 ^ 64) + size % Nat.gcd step (2 ^ 64)

private theorem gcd_le (step : Nat) : Nat.gcd step (2 ^ 64) ≤ 2 ^ 64 :=
  Nat.gcd_le_right step (Nat.two_pow_pos 64)

theorem sizeAfter_le_highest (step size count : Nat) : sizeAfter step size count ≤ highest step size := by
  have positive : 0 < Nat.gcd step (2 ^ 64) := Nat.gcd_pos_of_pos_right step (Nat.two_pow_pos 64)
  have bound : sizeAfter step size count < 2 ^ 64 := Nat.mod_lt _ (Nat.two_pow_pos 64)
  have residue : sizeAfter step size count % Nat.gcd step (2 ^ 64) = size % Nat.gcd step (2 ^ 64) := by
    obtain ⟨times, multiple⟩ : Nat.gcd step (2 ^ 64) ∣ count * step :=
      Nat.dvd_mul_left_of_dvd (Nat.gcd_dvd_left step (2 ^ 64)) count
    rw [sizeAfter, Nat.mod_mod_of_dvd _ (Nat.gcd_dvd_right step (2 ^ 64)), multiple,
      Nat.add_mul_mod_self_left]
  obtain ⟨whole, total⟩ := Nat.gcd_dvd_right step (2 ^ 64)
  unfold highest
  rw [← residue]
  generalize sizeAfter step size count = value at bound ⊢
  generalize Nat.gcd step (2 ^ 64) = unit at positive total ⊢
  have split := Nat.div_add_mod value unit
  have few : value / unit < whole := Nat.div_lt_of_lt_mul (total ▸ bound)
  have most : unit * (value / unit + 1) ≤ unit * whole := Nat.mul_le_mul_left unit few
  rw [Nat.mul_succ] at most
  omega

private theorem highest_sub (step : Nat) (small : size < 2 ^ 64) :
    ∃ count, highest step size = size + Nat.gcd step (2 ^ 64) * count := by
  have high := sizeAfter_le_highest step size 0
  obtain ⟨whole, total⟩ := Nat.gcd_dvd_right step (2 ^ 64)
  rw [sizeAfter_zero small] at high
  refine ⟨whole - 1 - size / Nat.gcd step (2 ^ 64), ?_⟩
  have split := Nat.div_add_mod size (Nat.gcd step (2 ^ 64))
  have few : size / Nat.gcd step (2 ^ 64) < whole := Nat.div_lt_of_lt_mul (by rwa [← total])
  have top : Nat.gcd step (2 ^ 64) * (whole - 1) = 2 ^ 64 - Nat.gcd step (2 ^ 64) := by
    rw [Nat.mul_sub_one, ← total]
  have more : Nat.gcd step (2 ^ 64) * (size / Nat.gcd step (2 ^ 64)) ≤
      Nat.gcd step (2 ^ 64) * (whole - 1) := Nat.mul_le_mul_left _ (by omega)
  rw [highest, Nat.mul_sub, top]
  omega

theorem exists_sizeAfter_eq_highest (step : Nat) (small : size < 2 ^ 64) :
    ∃ count, sizeAfter step size count = highest step size := by
  obtain ⟨count, gap⟩ := highest_sub step small
  have less := Nat.mod_lt size (Nat.gcd_pos_of_pos_right step (Nat.two_pow_pos 64))
  have within := gcd_le step
  have top : highest step size < 2 ^ 64 := by
    unfold highest
    omega
  obtain alone | divides := Nat.eq_or_lt_of_le within
  · refine ⟨0, ?_⟩
    rw [sizeAfter_zero small, highest, alone, Nat.sub_self, Nat.zero_add, Nat.mod_eq_of_lt small]
  · obtain ⟨times, _, unit⟩ := Nat.exists_mul_mod_eq_gcd divides
    refine ⟨times * count, ?_⟩
    have same : step * times ≡ Nat.gcd step (2 ^ 64) [MOD 2 ^ 64] := by
      rw [Nat.ModEq, unit, Nat.mod_eq_of_lt divides]
    have reached : size + times * count * step ≡ highest step size [MOD 2 ^ 64] := by
      rw [gap, Nat.mul_comm, ← Nat.mul_assoc]
      exact (same.mul_right count).add_left size
    rw [sizeAfter, reached, Nat.mod_eq_of_lt top]

/-- The loop ends if and only if the steps come to a size that is enough. -/
theorem exists_firstReach_iff (small : size < 2 ^ 64) :
    (∃ reached, FirstReach step need size reached) ↔ need ≤ highest step size := by
  constructor
  · rintro ⟨reached, count, rfl, enough, _⟩
    exact Nat.le_trans enough (sizeAfter_le_highest step size count)
  · intro within
    obtain ⟨count, same⟩ := exists_sizeAfter_eq_highest step small
    have exists_enough : ∃ count, need ≤ sizeAfter step size count := ⟨count, same ▸ within⟩
    refine ⟨_, Nat.find exists_enough, rfl, Nat.find_spec exists_enough, fun fewer earlier => ?_⟩
    exact Nat.lt_of_not_le (Nat.find_min exists_enough earlier)

theorem grow_eq_none_iff (small : size < 2 ^ 64) : grow step need size = none ↔ highest step size < need := by
  rw [← Nat.not_le, ← exists_firstReach_iff small, Option.eq_none_iff_forall_ne_some, not_exists]
  exact forall_congr' fun reached => not_congr (grow_eq_some_iff small)

end BTool.Foundation
