import BTool.Foundation.MemorySizes
import Mathlib.Data.List.DropRight

/-! `StringConvert::Trim`: spaces and tabs are taken off both ends of a text. -/

namespace BTool.StringConvert

open BTool.Foundation

/-- The bytes of a `std::string`. -/
abbrev Text := List UInt8

/-- A space or a tab. -/
def blank (chr : UInt8) : Bool := chr = 32 || chr = 9

/-- `str[pos]`, which is a null character behind the last one, and not defined further on. -/
def charAt (str : Text) (pos : Nat) : Option UInt8 :=
  if pos = str.length then some 0 else str[pos]?

theorem charAt_of_lt {str : Text} {pos : Nat} (inside : pos < str.length) : charAt str pos = some str[pos] := by
  rw [charAt, if_neg (Nat.ne_of_lt inside), List.getElem?_eq_getElem inside]

theorem le_length_of_charAt {str : Text} {pos : Nat} {chr : UInt8} (there : charAt str pos = some chr) :
    pos ≤ str.length := by
  unfold charAt at there
  split at there
  · omega
  · obtain ⟨inside, _⟩ := List.getElem?_eq_some_iff.mp there
    omega

/-- The first loop. -/
def skipFront (str : Text) (last start : Nat) : Option Nat :=
  if start ≤ last then
    match there : charAt str start with
    | none => none
    | some chr => if blank chr then skipFront str last (start + 1) else some start
  else some start
termination_by str.length + 1 - start
decreasing_by
  have := le_length_of_charAt there
  omega

/-- The second loop. Where `end` is 0 it wraps round, and what is there is not in the text. -/
def skipBack (str : Text) (start last : Nat) : Option Nat :=
  if start ≤ last then
    match charAt str last with
    | none => none
    | some chr =>
      if blank chr then if last = 0 then none else skipBack str start (last - 1)
      else some last
  else some last
termination_by last

/-- `none` where its behaviour is not defined. -/
def trim (str : Text) : Option Text := do
  let last := subSize str.length 1
  let start ← skipFront str last 0
  let last ← skipBack str start last
  return if start ≤ last then (str.drop start).take (last - start + 1) else []

/-- A text without the blanks at both ends. -/
def stripped (str : Text) : Text := (str.dropWhile blank).rdropWhile blank

/-- Behind the first loop, `start` is behind the blanks in front. -/
theorem skipFront_eq {str : Text} (nonempty : str ≠ []) {start : Nat} (within : start ≤ str.length) :
    skipFront str (str.length - 1) start = some (start + ((str.drop start).takeWhile blank).length) := by
  have positive := List.length_pos_iff.mpr nonempty
  induction left : str.length - start generalizing start with
  | zero =>
    have atEnd : start = str.length := by omega
    rw [skipFront, if_neg (by omega), atEnd, List.drop_length]
    rfl
  | succ left ih =>
    have inside : start < str.length := by omega
    rw [skipFront, if_pos (by omega), charAt_of_lt inside, List.drop_eq_getElem_cons inside,
      List.takeWhile_cons]
    dsimp only
    split
    · rw [ih (by omega) (by omega), List.length_cons]
      congr 1
      omega
    · rfl

/-- Behind the second loop, `end` is in front of the blanks at the end, if there is something else. -/
theorem skipBack_eq (front back : Text) {text : Text} (kept : text.rdropWhile blank ≠ []) :
    skipBack (front ++ text ++ back) front.length (front.length + text.length - 1) =
      some (front.length + (text.rdropWhile blank).length - 1) := by
  induction text using List.reverseRecOn generalizing back with
  | nil => exact absurd (List.rdropWhile_nil ..) kept
  | append_singleton text chr ih =>
    have place : front.length + (text ++ [chr]).length - 1 = front.length + text.length := by simp
    have inside : front.length + text.length < (front ++ (text ++ [chr]) ++ back).length := by
      simp only [List.length_append, List.length_singleton]
      omega
    have there : charAt (front ++ (text ++ [chr]) ++ back) (front.length + text.length) = some chr := by
      rw [charAt_of_lt inside, Option.some.injEq]
      simp
    rw [place, skipBack, if_pos (by omega), there]
    dsimp only
    by_cases isBlank : blank chr
    · rw [List.rdropWhile_concat_pos _ _ _ isBlank] at kept ⊢
      have nonempty : text ≠ [] := by
        rintro rfl
        exact kept (List.rdropWhile_nil ..)
      have positive := List.length_pos_iff.mpr nonempty
      rw [if_pos isBlank, if_neg (by omega), ← ih _ kept, List.append_assoc,
        List.append_assoc, List.singleton_append, List.append_assoc]
    · rw [if_neg isBlank, List.rdropWhile_concat_neg _ _ _ isBlank]
      simp

/-- A text that is not empty is stripped. -/
theorem trim_eq {str : Text} (nonempty : str ≠ []) (small : str.length < 2 ^ 63) : trim str = some (stripped str) := by
  have positive := List.length_pos_iff.mpr nonempty
  have last : subSize str.length 1 = str.length - 1 := subSize_eq positive (by omega)
  have front := skipFront_eq nonempty (Nat.zero_le _)
  rw [List.drop_zero, Nat.zero_add] at front
  have split : str.takeWhile blank ++ str.dropWhile blank = str := List.takeWhile_append_dropWhile
  have lengths : (str.takeWhile blank).length + (str.dropWhile blank).length = str.length := by
    rw [← List.length_append, split]
  rw [trim, last, front, Option.bind_eq_bind, Option.bind_some]
  by_cases all : str.dropWhile blank = []
  · rw [all, List.length_nil, Nat.add_zero] at lengths
    rw [skipBack, if_neg (by omega), stripped, all]
    simp only [Option.bind_some, Option.pure_def]
    rw [if_neg (by omega)]
    rfl
  · have kept : (str.dropWhile blank).rdropWhile blank ≠ [] := by
      intro nothing
      have first := List.head_dropWhile_not blank all
      rw [List.rdropWhile_eq_nil_iff.mp nothing _ (List.head_mem all)] at first
      cases first
    have long := List.length_pos_iff.mpr kept
    have back := skipBack_eq (str.takeWhile blank) [] kept
    rw [List.append_nil, split, lengths] at back
    have whole : str.drop (str.takeWhile blank).length = str.dropWhile blank := by
      have behind : (str.takeWhile blank ++ str.dropWhile blank).drop (str.takeWhile blank).length =
          str.dropWhile blank := List.drop_left
      rwa [split] at behind
    rw [back, Option.bind_some, Option.pure_def, if_pos (by omega), whole]
    have size : (str.takeWhile blank).length + (stripped str).length - 1 - (str.takeWhile blank).length + 1 =
        (stripped str).length := by
      have long : 0 < (stripped str).length := long
      omega
    change some (List.take _ _) = _
    rw [show (str.dropWhile blank).rdropWhile blank = stripped str from rfl, size]
    exact congrArg some (List.prefix_iff_eq_take.mp (List.rdropWhile_prefix ..)).symm

/-- In an empty text `end` wraps round and is behind it. -/
theorem trim_nil : trim [] = none := by
  have front : skipFront [] (subSize 0 1) 0 = some 0 := by
    rw [skipFront, if_pos (Nat.zero_le _)]
    rfl
  have outside : charAt [] (subSize 0 1) = none := rfl
  rw [trim, List.length_nil, front, Option.bind_eq_bind, Option.bind_some, skipBack, if_pos (Nat.zero_le _), outside]
  rfl

end BTool.StringConvert
