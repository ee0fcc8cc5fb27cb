import Mathlib.Logic.Function.Iterate
import BTool.ScrollWindow.ScrollWindowArray

/-! The other ways into a `ScrollWindowArray`: `at` and `latest` compute a place in the array on their
own. They agree with `begin` and `operator++` where the window is full, and `latest` also for fewer
values than there are. -/

namespace BTool.ScrollWindow

open BTool.Foundation

universe u

variable {Data : Type u} {fixLength : Nat}

namespace ScrollWindowArray

/-- `at`. -/
def elementAt (window : ScrollWindowArray Data fixLength) (startIndex : Nat) : Iterator :=
  let index := addSize (addSize window.curIndex startIndex) 1 % fixLength
  ⟨some index, index⟩

/-- The iterator that `latest` returns, and its `real_size`. -/
def latest (window : ScrollWindowArray Data fixLength) (needSize : Nat) : Iterator × Nat :=
  if window.curLength ≤ needSize then
    let index := addSize window.curIndex 1 % fixLength
    (⟨some index, index⟩, window.curLength)
  else if subSize needSize 1 ≤ window.curIndex then
    let index := addSize (subSize window.curIndex needSize) 1
    (⟨some index, index⟩, needSize)
  else
    let index := addSize (subSize (addSize window.curIndex window.curLength) needSize) 1 % fixLength
    (⟨some index, index⟩, needSize)

variable {window : ScrollWindowArray Data fixLength} {values : List Data}

/-- From `begin`, so many steps lead to the value that was pushed so many values later. -/
theorem Shows.iterate_at (shows : window.Shows values) (positive : 1 ≤ fixLength)
    (small : fixLength < 2 ^ 64) (count : Nat)
    (within : values.length - fixLength + count ≤ values.length) :
    At fixLength values (values.length - fixLength + count) (window.advance^[count] window.first) := by
  induction count with
  | zero => exact shows.first_at positive small
  | succ count ih =>
    have early : values.length - fixLength + count < values.length := by omega
    have late : values.length ≤ values.length - fixLength + count + fixLength := by omega
    rw [Function.iterate_succ_apply']
    exact shows.advance_at positive small early late (ih (by omega))

/-- A place counted from behind the newest value is that of the value which is so many pushes behind
it. -/
theorem place_eq {length number offset : Nat} (some : 1 ≤ number) :
    ((number - 1) % length + offset + 1) % length = (number + offset) % length := by
  rw [Nat.add_assoc, Nat.mod_add_mod]
  congr 1
  omega

theorem mod_of_double {place length : Nat} (double : place < 2 * length) :
    place % length = if place < length then place else place - length := by
  split
  · rename_i once
    exact Nat.mod_eq_of_lt once
  · rename_i twice
    rw [Nat.mod_eq_sub_mod (by omega), Nat.mod_eq_of_lt (by omega)]

theorem Shows.elementAt_eq {index : Nat} (shows : window.Shows values) (small : fixLength < 2 ^ 63)
    (within : index < window.curLength) :
    window.elementAt index =
      ⟨some ((values.length + index) % fixLength), (values.length + index) % fixLength⟩ := by
  have length := shows.length
  have some : 1 ≤ values.length := by omega
  have inside : (values.length - 1) % fixLength < fixLength := Nat.mod_lt _ (by omega)
  have sum : addSize ((values.length - 1) % fixLength) index = (values.length - 1) % fixLength + index :=
    addSize_eq (by omega)
  rw [elementAt, shows.newest (List.length_pos_iff.mp some), sum, addSize_eq (by omega), place_eq some]

/-- `at` counts from `begin` just if the window is full. -/
theorem Shows.elementAt_iff {index : Nat} (shows : window.Shows values) (positive : 1 ≤ fixLength)
    (small : fixLength < 2 ^ 63) (within : index < window.curLength) :
    window.elementAt index = window.advance^[index] window.first ↔ window.curLength = fixLength := by
  have length := shows.length
  have here := (shows.iterate_at positive (by omega) index (by omega)).within (by omega)
  rw [here, shows.elementAt_eq small within, Iterator.mk.injEq, Option.some.injEq, and_self, length]
  by_cases full : fixLength ≤ values.length
  · refine iff_of_true ?_ (by omega)
    rw [← Nat.sub_add_comm full, ← Nat.mod_eq_sub_mod (by omega)]
  · refine iff_of_false ?_ (by omega)
    rw [Nat.sub_eq_zero_of_le (by omega), Nat.zero_add, Nat.mod_eq_of_lt (by omega : index < fixLength),
      mod_of_double (by omega)]
    split <;> omega

/-- Where a loop starts behind the newest value of a window that is not full, it first visits the rest of
the array. -/
theorem Shows.visit_stale {left place rounds : Nat} (shows : window.Shows values)
    (positive : 1 ≤ fixLength) (small : fixLength < 2 ^ 64) (nonempty : values ≠ [])
    (sum : place + left = fixLength) (more : 0 < left)
    (behind : values.length ≤ place) (enough : left + values.length < rounds) :
    window.visit rounds ⟨some place, place⟩ = some (window.datas.toList.drop place ++ values) := by
  induction left generalizing place rounds with
  | zero => exact absurd more (Nat.lt_irrefl 0)
  | succ left ih =>
    obtain _ | rounds := rounds
    · exact absurd enough (Nat.not_lt_zero _)
    have inside : place < fixLength := by omega
    have isValue : window.value ⟨some place, place⟩ = some window.datas[place] := by
      rw [value, Option.bind_some, Vector.getElem?_eq_getElem inside]
    have notEnd : place ≠ (emptyIterator fixLength).curIndex := Nat.ne_of_lt inside
    have some' := List.length_pos_iff.mpr nonempty
    have isNewest : addSize window.curIndex 1 = values.length := by
      rw [shows.newest nonempty, Nat.mod_eq_of_lt (by omega), addSize_eq (by omega),
        Nat.sub_add_cancel some']
    have isMoved : addSize place 1 = place + 1 := addSize_eq (by omega)
    have rest : window.visit rounds (window.advance ⟨some place, place⟩) =
        some (window.datas.toList.drop (place + 1) ++ values) := by
      by_cases last : place + 1 = fixLength
      · have here : At fixLength values 0 ⟨some 0, 0⟩ :=
          ⟨fun _ => by rw [Nat.zero_mod], fun isEmpty => absurd isEmpty (by omega)⟩
        have wraps : place + 1 = fixLength ∧ values.length < fixLength := ⟨last, by omega⟩
        have notNewest : ¬ 0 = values.length := by omega
        simp only [advance, isNewest, isMoved, if_pos wraps, if_neg notNewest]
        have noMore : window.datas.toList.drop (place + 1) = [] :=
          List.drop_of_length_le (by rw [Vector.length_toList]; omega)
        rw [shows.visit_at positive small (Nat.zero_add _) (by omega) (by omega) here, List.drop_zero,
          noMore, List.nil_append]
      · have notLast : ¬ (place + 1 = fixLength ∧ values.length < fixLength) := fun wraps => last wraps.1
        have notNewest : ¬ place + 1 = values.length := by omega
        simp only [advance, isNewest, isMoved, if_neg notLast, if_neg notNewest]
        exact ih (by omega) (by omega) (by omega) (by omega)
    have within : place < window.datas.toList.length := by rwa [Vector.length_toList]
    rw [visit, if_neg notEnd, isValue, rest, List.drop_eq_getElem_cons within]
    rfl

/-- A loop from a place in the array visits at least one value. -/
theorem visit_ne_nil {place rounds : Nat} (inside : place < fixLength) :
    window.visit rounds ⟨some place, place⟩ ≠ some [] := by
  cases rounds with
  | zero => exact fun absurdly => absurd absurdly (by simp [visit])
  | succ rounds =>
    have notEnd : place ≠ (emptyIterator fixLength).curIndex := Nat.ne_of_lt inside
    rw [visit, if_neg notEnd]
    intro none
    obtain ⟨data, _, rest⟩ := Option.bind_eq_some_iff.mp none
    obtain ⟨list, _, absurdly⟩ := Option.bind_eq_some_iff.mp rest
    cases absurdly

theorem latest_real (window : ScrollWindowArray Data fixLength) (needSize : Nat) :
    (window.latest needSize).2 = min needSize window.curLength := by
  unfold latest
  split
  · exact (Nat.min_eq_right (by assumption)).symm
  · have fewer : needSize ≤ window.curLength := by omega
    split <;> exact (Nat.min_eq_left fewer).symm

/-- The place of a value that is some pushes back, seen from the newest place. -/
theorem back_mod {number length back : Nat} (some : 1 ≤ back) (within : back ≤ number + 1)
    (near : back ≤ length) :
    (number + 1 - back) % length =
      if back ≤ number % length + 1 then number % length + 1 - back
      else number % length + 1 + length - back := by
  have division := Nat.div_add_mod number length
  have inside : number % length < length := Nat.mod_lt _ (by omega)
  split
  · have isPlace : number + 1 - back = number % length + 1 - back + length * (number / length) := by omega
    rw [isPlace, Nat.add_mul_mod_self_left, Nat.mod_eq_of_lt (by omega)]
  · obtain none | ⟨rounds, isRounds⟩ : number / length = 0 ∨ ∃ rounds, number / length = rounds + 1 :=
      (Nat.eq_zero_or_eq_succ_pred _).imp_right fun isRounds => ⟨_, isRounds⟩
    · rw [none, Nat.mul_zero] at division
      omega
    · rw [isRounds, Nat.mul_succ] at division
      have isPlace : number + 1 - back = number % length + 1 + length - back + length * rounds := by omega
      rw [isPlace, Nat.add_mul_mod_self_left, Nat.mod_eq_of_lt (by omega)]

/-- Fewer values than there are, but at least one, are found from the newest on, round the end of the
array or not. -/
theorem Shows.latest_fewer {needSize : Nat} (shows : window.Shows values) (small : fixLength < 2 ^ 63)
    (positive : 0 < needSize) (fewer : needSize < window.curLength) :
    window.latest needSize = (⟨some ((values.length - needSize) % fixLength),
      (values.length - needSize) % fixLength⟩, needSize) := by
  have length := shows.length
  have nonempty : values ≠ [] := List.length_pos_iff.mp (by omega)
  have inside : (values.length - 1) % fixLength < fixLength := Nat.mod_lt _ (by omega)
  have isPlace : (values.length - needSize) % fixLength =
      if needSize ≤ (values.length - 1) % fixLength + 1 then (values.length - 1) % fixLength + 1 - needSize
      else (values.length - 1) % fixLength + 1 + fixLength - needSize := by
    rw [← back_mod positive (by omega) (by omega)]
    congr 1
    omega
  have notAll : ¬ window.curLength ≤ needSize := by omega
  rw [latest, if_neg notAll, subSize_eq positive (by omega), shows.newest nonempty, isPlace]
  by_cases inFront : needSize ≤ (values.length - 1) % fixLength + 1
  · have isIndex : addSize (subSize ((values.length - 1) % fixLength) needSize) 1 =
        (values.length - 1) % fixLength + 1 - needSize := by
      unfold addSize subSize
      omega
    rw [if_pos (by omega), if_pos inFront, isIndex]
  · have full : window.curLength = fixLength := by
      by_contra notFull
      have once : (values.length - 1) % fixLength = values.length - 1 := Nat.mod_eq_of_lt (by omega)
      omega
    have isIndex :
        addSize (subSize (addSize ((values.length - 1) % fixLength) window.curLength) needSize) 1 =
          (values.length - 1) % fixLength + 1 + fixLength - needSize := by
      unfold addSize subSize
      omega
    rw [if_neg (by omega), if_neg inFront, isIndex, Nat.mod_eq_of_lt (by omega)]

/-- All values, or more than there are, are looked for behind the newest one. -/
theorem Shows.latest_all {needSize : Nat} (shows : window.Shows values) (positive : 1 ≤ fixLength)
    (small : fixLength < 2 ^ 63) (all : window.curLength ≤ needSize) :
    window.latest needSize =
      (⟨some (values.length % fixLength), values.length % fixLength⟩, window.curLength) := by
  rw [latest, if_pos all]
  by_cases isEmpty : values = []
  · rw [shows.fresh isEmpty, isEmpty]
    rfl
  · have some' := List.length_pos_iff.mpr isEmpty
    have inside : (values.length - 1) % fixLength < fixLength := Nat.mod_lt _ positive
    rw [shows.newest isEmpty, addSize_eq (by omega), Nat.mod_add_mod, Nat.sub_add_cancel some']

/-- A loop from where `latest` leads to the end visits the last values. -/
def Visits (window : ScrollWindowArray Data fixLength) (values : List Data) (needSize : Nat) : Prop :=
  ∀ rounds, (window.latest needSize).2 < rounds →
    window.visit rounds (window.latest needSize).1 = some (values.rtake (window.latest needSize).2)

theorem Shows.latest_none (shows : window.Shows values) (small : fixLength < 2 ^ 63)
    (nonempty : values ≠ []) (positive : 1 ≤ fixLength) :
    ∃ place, place < fixLength ∧ window.latest 0 = (⟨some place, place⟩, 0) := by
  have length := shows.length
  have some' := List.length_pos_iff.mpr nonempty
  have inside : (values.length - 1) % fixLength < fixLength := Nat.mod_lt _ positive
  have notAll : ¬ window.curLength ≤ 0 := by omega
  have wrapped : ¬ subSize 0 1 ≤ window.curIndex := by
    rw [shows.newest nonempty]
    unfold subSize
    omega
  exact ⟨_, Nat.mod_lt _ positive, by rw [latest, if_neg notAll, if_neg wrapped]⟩

/-- `latest` leads to the last values just if at least one is asked for, and there are more or the
window is full. -/
theorem Shows.latest_iff (shows : window.Shows values) (positive : 1 ≤ fixLength)
    (small : fixLength < 2 ^ 63) (needSize : Nat) :
    Visits window values needSize ↔
      0 < needSize ∧ (needSize < window.curLength ∨ window.curLength = fixLength) := by
  have length := shows.length
  by_cases fewer : needSize < window.curLength
  · have nonempty : values ≠ [] := List.length_pos_iff.mp (by omega)
    obtain none | some' := Nat.eq_zero_or_pos needSize
    · refine iff_of_false (fun visits => ?_) (by omega)
      obtain ⟨place, inside, isLatest⟩ := shows.latest_none small nonempty positive
      have one := visits 1 (by rw [none, isLatest]; exact Nat.one_pos)
      rw [none, isLatest] at one
      exact visit_ne_nil inside (one.trans (by simp [List.rtake]))
    · refine iff_of_true (fun rounds enough => ?_) ⟨some', .inl fewer⟩
      rw [shows.latest_fewer small some' fewer] at enough ⊢
      have here : At fixLength values (values.length - needSize)
          ⟨some ((values.length - needSize) % fixLength), (values.length - needSize) % fixLength⟩ :=
        ⟨fun _ => rfl, fun atEnd => by omega⟩
      exact shows.visit_at positive (by omega) (by omega) (by omega) enough here
  · have isLatest := shows.latest_all positive small (Nat.le_of_not_lt fewer)
    by_cases full : window.curLength = fixLength
    · refine iff_of_true (fun rounds enough => ?_) ⟨by omega, .inr full⟩
      rw [isLatest, full] at enough ⊢
      have here : At fixLength values (values.length - fixLength)
          ⟨some (values.length % fixLength), values.length % fixLength⟩ :=
        ⟨fun _ => by rw [← Nat.mod_eq_sub_mod (by omega)], fun atEnd => by omega⟩
      exact shows.visit_at positive (by omega) (by omega) (by omega) enough here
    · refine iff_of_false (fun visits => ?_) (by omega)
      by_cases isEmpty : values = []
      · have one := visits 1 (by rw [isLatest, length, isEmpty]; exact Nat.one_pos)
        rw [isLatest, length, isEmpty] at one
        exact visit_ne_nil (Nat.mod_lt _ positive) (one.trans (by simp))
      · have early : values.length < fixLength := by omega
        have all := visits (2 * fixLength) (by rw [isLatest]; omega)
        have isReal : window.curLength = values.length := by omega
        rw [isLatest, isReal, Nat.mod_eq_of_lt early, shows.visit_stale positive (by omega) isEmpty
          (Nat.add_sub_cancel' (Nat.le_of_lt early)) (by omega) (Nat.le_refl _) (by omega)] at all
        have sizes := congrArg List.length (Option.some.inj all)
        rw [List.rtake, Nat.sub_self, List.drop_zero, List.length_append, List.length_drop,
          Vector.length_toList] at sizes
        omega

/-- After any calls: `at` is the element that `begin` leads to in so many steps just if the window is
full. `latest` tells how many values there are, and a loop from where it leads visits them just if at
least one value is asked for, and there are more or the window is full. -/
theorem access_paths_iff (positive : 1 ≤ fixLength) (small : fixLength < 2 ^ 63)
    (datas : Vector Data fixLength) (calls : List (Call Data)) :
    let window := calls.foldl call (construct datas)
    let values := calls.foldl pushed []
    (∀ index, index < window.curLength →
      (window.elementAt index = window.advance^[index] window.first ↔ window.curLength = fixLength)) ∧
    ∀ needSize, (window.latest needSize).2 = min needSize window.curLength ∧
      (Visits window values needSize ↔
        0 < needSize ∧ (needSize < window.curLength ∨ window.curLength = fixLength)) := by
  intro window values
  have shows : window.Shows values :=
    shows_foldl (shows_nil rfl rfl) positive (by omega) calls
  exact ⟨fun index within => shows.elementAt_iff positive small within,
    fun needSize => ⟨latest_real window needSize, shows.latest_iff positive small needSize⟩⟩

/-- A window of three with three values: the second one, and the last two. -/
theorem access_paths_iff_full :
    let window := [Call.emplaceBack 1, .emplaceBack 2, .emplaceBack 3].foldl call
      (construct (Vector.replicate 3 0))
    window.elementAt 1 = window.advance^[1] window.first ∧ Visits window [1, 2, 3] 2 :=
  have both := access_paths_iff (by decide) (by decide) (Vector.replicate 3 0)
    [Call.emplaceBack 1, .emplaceBack 2, .emplaceBack 3]
  ⟨(both.1 1 (by decide)).mpr (by decide), (both.2 2).2.mpr (by decide)⟩

/-- A window of three with two values: `at` begins with the third place, and all three are visited for
the last two. -/
theorem half_full_window_strays :
    let window := [Call.emplaceBack 1, .emplaceBack 2].foldl call (construct (Vector.replicate 3 0))
    window.elementAt 0 ≠ window.advance^[0] window.first ∧
      window.visit 4 (window.latest 2).1 = some [0, 1, 2] := by
  intro window
  exact ⟨fun same => absurd (congrArg Iterator.curIndex same) (by decide +kernel), by decide +kernel⟩

end ScrollWindowArray

end BTool.ScrollWindow
