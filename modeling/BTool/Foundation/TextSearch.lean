import Mathlib.Data.List.Basic
import Mathlib.Data.List.Infix

/-! Searching a text for a word, from the front and from the back. -/

namespace BTool.Foundation

universe u

variable {Symbol : Type u} [DecidableEq Symbol]

/-- The first place at which the word stands. -/
def firstPlace (word : List Symbol) : List Symbol → Option Nat
  | [] => if word = [] then some 0 else none
  | symbol :: rest =>
    if word <+: symbol :: rest then some 0 else (firstPlace word rest).map (· + 1)

/-- The first place from `pos` on. -/
def find (text word : List Symbol) (pos : Nat) : Option Nat :=
  if pos ≤ text.length then (firstPlace word (text.drop pos)).map (pos + ·) else none

/-- The last place up to `bound`. -/
def lastPlace (text word : List Symbol) : Nat → Option Nat
  | 0 => if word <+: text then some 0 else none
  | bound + 1 =>
    if word <+: text.drop (bound + 1) then some (bound + 1) else lastPlace text word bound

/-- The last place up to `pos`, or the last of all. -/
def rfind (text word : List Symbol) (pos : Option Nat) : Option Nat :=
  lastPlace text word (min (pos.getD text.length) text.length)

section

variable {word front back text : List Symbol} {mark : Symbol}

theorem firstPlace_of_prefix (stands : word <+: text) : firstPlace word text = some 0 := by
  cases text with
  | nil => exact if_pos (List.prefix_nil.mp stands)
  | cons symbol rest => exact if_pos stands

/-- A word that stands nowhere has no place. -/
theorem firstPlace_eq_none (nonempty : word ≠ []) (absent : ¬ word <:+: text) :
    firstPlace word text = none := by
  induction text with
  | nil => exact if_neg nonempty
  | cons symbol rest ih =>
    have notHere : ¬ word <+: symbol :: rest := fun stands => absent stands.isInfix
    have notLater : ¬ word <:+: rest := fun stands =>
      absent (stands.trans (List.suffix_cons symbol rest).isInfix)
    rw [firstPlace, if_neg notHere, ih notLater, Option.map_none]

omit [DecidableEq Symbol] in
/-- A word does not reach over a symbol that it does not have. -/
theorem prefix_of_prefix_append_cons (foreign : mark ∉ word) (stands : word <+: front ++ mark :: back) :
    word <+: front := by
  rcases Nat.lt_or_ge front.length word.length with longer | within
  · have reaches : front ++ [mark] <+: word :=
      List.prefix_of_prefix_length_le ⟨back, by rw [List.append_assoc, List.singleton_append]⟩ stands
        (by rwa [List.length_append, List.length_singleton])
    exact absurd (reaches.subset (by simp)) foreign
  · exact List.prefix_of_prefix_length_le stands (List.prefix_append ..) within

theorem firstPlace_cons (nonempty : word ≠ []) (foreign : mark ∉ word) :
    firstPlace word (mark :: back) = (firstPlace word back).map (· + 1) := by
  have notHere : ¬ word <+: mark :: back := by
    intro stands
    have inside : word <+: [] := prefix_of_prefix_append_cons foreign stands
    exact nonempty (List.prefix_nil.mp inside)
  rw [firstPlace, if_neg notHere]

/-- Where the word does not stand in front of a symbol that it does not have, it is looked for behind. -/
theorem firstPlace_append_cons (nonempty : word ≠ []) (foreign : mark ∉ word)
    (absent : ¬ word <:+: front) :
    firstPlace word (front ++ mark :: back) =
      (firstPlace word back).map (front.length + 1 + ·) := by
  induction front with
  | nil =>
    rw [List.nil_append, firstPlace_cons nonempty foreign, List.length_nil, Nat.zero_add]
    simp only [Nat.add_comm]
  | cons symbol front ih =>
    have notHere : ¬ word <+: symbol :: (front ++ mark :: back) := by
      intro stands
      have inside : word <+: symbol :: front := prefix_of_prefix_append_cons foreign stands
      exact absent inside.isInfix
    have notLater : ¬ word <:+: front := fun stands =>
      absent (stands.trans (List.suffix_cons symbol front).isInfix)
    rw [List.cons_append, firstPlace, if_neg notHere, ih notLater, Option.map_map, List.length_cons]
    congr 1
    funext place
    simp only [Function.comp_apply]
    omega

/-- A word that stands in a text is found there, whatever follows. -/
theorem firstPlace_append (back : List Symbol) (stands : word <:+: front) : ∃ place,
    firstPlace word (front ++ back) = some place ∧ place + word.length ≤ front.length := by
  induction front with
  | nil =>
    obtain rfl := List.infix_nil.mp stands
    exact ⟨0, firstPlace_of_prefix List.nil_prefix, Nat.le_refl _⟩
  | cons symbol front ih =>
    by_cases here : word <+: symbol :: front ++ back
    · rcases List.infix_cons_iff.mp stands with first | later
      · exact ⟨0, firstPlace_of_prefix here, by simpa using first.length_le⟩
      · refine ⟨0, firstPlace_of_prefix here, ?_⟩
        have := later.length_le
        rw [List.length_cons]
        omega
    · rcases List.infix_cons_iff.mp stands with first | later
      · exact absurd (first.trans (List.prefix_append ..)) here
      · obtain ⟨place, found, within⟩ := ih later
        refine ⟨place + 1, ?_, ?_⟩
        · rw [List.cons_append] at here ⊢
          rw [firstPlace, if_neg here, found, Option.map_some]
        · rw [List.length_cons]
          omega

/-- The first place is the one before which the word does not stand. -/
theorem firstPlace_eq_some_iff {place : Nat} : firstPlace word text = some place ↔
    place ≤ text.length ∧ word <+: text.drop place ∧ ∀ earlier < place, ¬ word <+: text.drop earlier := by
  induction text generalizing place with
  | nil =>
    unfold firstPlace
    split
    · rename_i empty
      subst empty
      constructor
      · intro found
        obtain rfl := Option.some.inj found
        exact ⟨Nat.le_refl _, List.nil_prefix, fun earlier early => absurd early (Nat.not_lt_zero _)⟩
      · rintro ⟨inside, _, _⟩
        rw [Nat.le_zero.mp inside]
    · rename_i some
      refine iff_of_false nofun fun ⟨_, stands, _⟩ => some ?_
      rw [List.drop_nil] at stands
      exact List.prefix_nil.mp stands
  | cons symbol rest ih =>
    unfold firstPlace
    split
    · rename_i here
      constructor
      · intro found
        obtain rfl := Option.some.inj found
        exact ⟨Nat.zero_le _, here, fun earlier early => absurd early (Nat.not_lt_zero _)⟩
      · rintro ⟨_, _, first⟩
        by_contra different
        exact first 0 (Nat.pos_of_ne_zero fun zero => different (zero ▸ rfl)) here
    · rename_i notHere
      rw [Option.map_eq_some_iff]
      constructor
      · rintro ⟨earlier, found, rfl⟩
        obtain ⟨inside, stands, first⟩ := ih.mp found
        refine ⟨Nat.succ_le_succ inside, stands, fun other early => ?_⟩
        cases other with
        | zero => exact notHere
        | succ other => exact first other (Nat.lt_of_succ_lt_succ early)
      · rintro ⟨inside, stands, first⟩
        cases place with
        | zero => exact absurd stands notHere
        | succ place =>
          refine ⟨place, ih.mpr ⟨Nat.le_of_succ_le_succ inside, stands, fun other early => ?_⟩, rfl⟩
          exact first (other + 1) (Nat.succ_lt_succ early)

/-- The word is found somewhere if it stands in the text. -/
theorem exists_firstPlace_iff : (∃ place, firstPlace word text = some place) ↔ word <:+: text := by
  constructor
  · rintro ⟨place, found⟩
    obtain ⟨_, stands, _⟩ := firstPlace_eq_some_iff.mp found
    exact stands.isInfix.trans (List.drop_suffix ..).isInfix
  · intro stands
    obtain ⟨place, found, _⟩ := firstPlace_append [] stands
    rw [List.append_nil] at found
    exact ⟨place, found⟩

theorem firstPlace_eq_none_iff : firstPlace word text = none ↔ ¬ word <:+: text := by
  rw [← exists_firstPlace_iff, Option.eq_none_iff_forall_ne_some, not_exists]

theorem find_eq {pos : Nat} (within : pos ≤ text.length) :
    find text word pos = (firstPlace word (text.drop pos)).map (pos + ·) := if_pos within

theorem find_of_nonempty (nonempty : word ≠ []) (pos : Nat) :
    find text word pos = (firstPlace word (text.drop pos)).map (pos + ·) := by
  by_cases within : pos ≤ text.length
  · exact find_eq within
  · have nothing : firstPlace word ([] : List Symbol) = none :=
      firstPlace_eq_none_iff.mpr fun stands => nonempty (List.infix_nil.mp stands)
    rw [find, if_neg within, List.drop_eq_nil_of_le (by omega), nothing]
    rfl

/-- The text around the place where the word is found. -/
theorem find_split {pos place : Nat} (found : find text word pos = some place) :
    pos ≤ place ∧ place + word.length ≤ text.length ∧
      text = text.take place ++ word ++ text.drop (place + word.length) := by
  have within : pos ≤ text.length := by
    by_contra outside
    rw [find, if_neg outside] at found
    cases found
  rw [find_eq within] at found
  obtain ⟨offset, isOffset, rfl⟩ := Option.map_eq_some_iff.mp found
  obtain ⟨_, stands, _⟩ := firstPlace_eq_some_iff.mp isOffset
  rw [List.drop_drop] at stands
  obtain ⟨rest, isRest⟩ := stands
  have behind : text.drop (pos + offset + word.length) = rest := by
    rw [← List.drop_drop, ← isRest, List.drop_left]
  have long := congrArg List.length isRest
  rw [List.length_append, List.length_drop] at long
  refine ⟨Nat.le_add_right .., ?_, ?_⟩
  · obtain ⟨inside, _⟩ := firstPlace_eq_some_iff.mp isOffset
    rw [List.length_drop] at inside
    omega
  · rw [behind, List.append_assoc, isRest, List.take_append_drop]

theorem lastPlace_eq_some {bound place : Nat} (found : lastPlace text word bound = some place) :
    place ≤ bound ∧ word <+: text.drop place := by
  induction bound with
  | zero =>
    unfold lastPlace at found
    split at found
    · rename_i here
      cases found
      exact ⟨Nat.le_refl 0, here⟩
    · cases found
  | succ bound ih =>
    unfold lastPlace at found
    split at found
    · rename_i here
      cases found
      exact ⟨Nat.le_refl _, here⟩
    · exact ⟨Nat.le_succ_of_le (ih found).1, (ih found).2⟩

/-- The last of a mark that has none behind it. -/
theorem lastPlace_append_cons {more : Nat} (absent : mark ∉ back.take more) :
    lastPlace (front ++ mark :: back) [mark] (front.length + more) = some front.length := by
  have here : [mark] <+: (front ++ mark :: back).drop front.length := by
    rw [List.drop_left]
    exact ⟨back, rfl⟩
  induction more with
  | zero =>
    rw [Nat.add_zero]
    cases size : front.length with
    | zero => exact if_pos (by rwa [size] at here)
    | succ size' => exact if_pos (by rwa [size] at here)
  | succ more ih =>
    have notHere : ¬ [mark] <+: (front ++ mark :: back).drop (front.length + more + 1) := by
      rintro ⟨rest, isRest⟩
      have place : (front ++ mark :: back).drop (front.length + more + 1) = back.drop more := by
        rw [Nat.add_assoc, List.drop_append, List.drop_eq_nil_of_le (by omega), List.nil_append]
        rw [show front.length + (more + 1) - front.length = more + 1 by omega, List.drop_succ_cons]
      rw [place] at isRest
      apply absent
      rw [List.take_add, ← isRest]
      simp
    rw [← Nat.add_assoc, lastPlace, if_neg notHere]
    refine ih fun member => absent ?_
    exact (List.take_prefix_take_left (Nat.le_succ more)).subset member

end

end BTool.Foundation
