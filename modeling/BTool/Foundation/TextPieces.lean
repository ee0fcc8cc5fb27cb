import BTool.Foundation.TextSearch
import Mathlib.Data.List.Basic

/-! Texts that are cut at the separators that are found in them, one after the other from the front. -/

namespace BTool.Foundation

universe u

variable {Symbol : Type u}

/-- A search for the first separator of a text. -/
structure Search (Symbol : Type u) where
  first : List Symbol → Option Nat
  /-- The length of a separator. -/
  width : Nat
  positive : 0 < width
  inside : ∀ text place, first text = some place → place + width ≤ text.length

namespace Search

variable (search : Search Symbol)

/-- The pieces of a text up to so many separators, and the rest. -/
def piecesIn : Nat → List Symbol → List (List Symbol)
  | 0, text => [text]
  | rounds + 1, text =>
    match search.first text with
    | none => [text]
    | some place => text.take place :: piecesIn rounds (text.drop (place + search.width))

/-- The pieces of a text, with one more than there are separators. -/
def pieces (text : List Symbol) : List (List Symbol) := search.piecesIn text.length text

/-- The places of the separators that are found one behind the other. -/
inductive FoundAt : List Symbol → Nat → Prop where
  | first {text : List Symbol} {place : Nat} (found : search.first text = some place) : FoundAt text place
  | later {text : List Symbol} {place next : Nat} (found : search.first text = some place)
      (behind : FoundAt (text.drop (place + search.width)) next) :
      FoundAt text (place + search.width + next)

/-- A separator is found at the start, or directly behind another one. -/
def Crowded (text : List Symbol) : Prop :=
  search.FoundAt text 0 ∨ ∃ place, search.FoundAt text place ∧ search.FoundAt text (place + search.width)

variable {search} {text : List Symbol} {place : Nat}

theorem length_rest (found : search.first text = some place) :
    (text.drop (place + search.width)).length < text.length := by
  have inside := search.inside text place found
  have positive := search.positive
  rw [List.length_drop]
  omega

theorem piecesIn_eq {rounds : Nat} (enough : text.length ≤ rounds) :
    search.piecesIn rounds text = search.pieces text := by
  unfold pieces
  induction rounds using Nat.strongRecOn generalizing text with
  | ind rounds ih =>
    cases rounds with
    | zero => rw [Nat.le_zero.mp enough]
    | succ rounds =>
      cases size : text.length with
      | zero =>
        have nothing : search.first text = none := by
          refine Option.eq_none_iff_forall_ne_some.mpr fun place found => ?_
          have := length_rest found
          omega
        rw [piecesIn, piecesIn]
        simp only [nothing]
      | succ length =>
        cases found : search.first text with
        | none => rw [piecesIn, piecesIn, found]
        | some place =>
          have shorter := length_rest found
          rw [piecesIn, piecesIn, found]
          refine congrArg (text.take place :: ·) ?_
          exact (ih rounds (Nat.lt_succ_self _) (by omega)).trans (ih length (by omega) (by omega)).symm

theorem pieces_of_none (nothing : search.first text = none) : search.pieces text = [text] := by
  unfold pieces
  cases text.length with
  | zero => rfl
  | succ length => rw [piecesIn, nothing]

theorem pieces_of_some (found : search.first text = some place) :
    search.pieces text = text.take place :: search.pieces (text.drop (place + search.width)) := by
  have shorter := length_rest found
  rw [pieces]
  cases size : text.length with
  | zero => omega
  | succ length =>
    rw [piecesIn, found]
    exact congrArg (text.take place :: ·) (piecesIn_eq (by omega))

/-- What is true of texts without a separator, and of a text whenever it is true of what is behind its first
separator, is true of every text. -/
theorem induction (search : Search Symbol) {motive : List Symbol → Prop}
    (none : ∀ text, search.first text = none → motive text)
    (some : ∀ text place, search.first text = some place → motive (text.drop (place + search.width)) →
      motive text) (text : List Symbol) : motive text := by
  induction size : text.length using Nat.strongRecOn generalizing text with
  | ind size ih =>
    cases found : search.first text with
    | none => exact none text found
    | some place => exact some text place found (ih _ (size ▸ length_rest found) _ rfl)

theorem pieces_ne_nil (text : List Symbol) : search.pieces text ≠ [] := by
  cases found : search.first text with
  | none => simp [pieces_of_none found]
  | some place => simp [pieces_of_some found]

theorem not_foundAt (nothing : search.first text = none) : ¬ search.FoundAt text place := by
  intro there
  cases there with
  | first found => cases nothing.symm.trans found
  | later found _ => cases nothing.symm.trans found

theorem foundAt_iff {other : Nat} (found : search.first text = some place) : search.FoundAt text other ↔
    other = place ∨
      ∃ next, search.FoundAt (text.drop (place + search.width)) next ∧ other = place + search.width + next := by
  constructor
  · intro there
    cases there with
    | first found' => exact .inl (Option.some.inj (found'.symm.trans found))
    | later found' behind =>
      obtain rfl := Option.some.inj (found.symm.trans found')
      exact .inr ⟨_, behind, rfl⟩
  · rintro (rfl | ⟨next, behind, rfl⟩)
    · exact .first found
    · exact .later found behind

theorem not_crowded (nothing : search.first text = none) : ¬ search.Crowded text := by
  rintro (there | ⟨_, there, _⟩)
  · exact not_foundAt nothing there
  · exact not_foundAt nothing there

theorem crowded_iff (found : search.first text = some place) :
    search.Crowded text ↔ place = 0 ∨ search.Crowded (text.drop (place + search.width)) := by
  have positive := search.positive
  constructor
  · rintro (start | ⟨other, there, next⟩)
    · rcases (foundAt_iff found).mp start with isPlace | ⟨next, _, isNext⟩
      · exact .inl isPlace.symm
      · omega
    · rcases (foundAt_iff found).mp next with isPlace | ⟨later, behind, isLater⟩
      · rcases (foundAt_iff found).mp there with isFirst | ⟨before, _, isBefore⟩
        · omega
        · omega
      · rcases (foundAt_iff found).mp there with rfl | ⟨before, behind', rfl⟩
        · obtain rfl : later = 0 := by omega
          exact .inr (.inl behind)
        · obtain rfl : later = before + search.width := by omega
          exact .inr (.inr ⟨before, behind', behind⟩)
  · rintro (rfl | start | ⟨other, there, next⟩)
    · exact .inl (.first found)
    · exact .inr ⟨place, .first found, .later found start⟩
    · refine .inr ⟨place + search.width + other, .later found there, ?_⟩
      rw [Nat.add_assoc]
      exact .later found next

theorem length_le_of_mem_pieces (text : List Symbol) : ∀ piece ∈ search.pieces text, piece.length ≤ text.length := by
  induction text using Search.induction search with
  | none text nothing =>
    rw [pieces_of_none nothing]
    intro piece member
    rw [List.mem_singleton.mp member]
  | some text place found ih =>
    rw [pieces_of_some found]
    have shorter := length_rest found
    exact List.forall_mem_cons.mpr ⟨List.length_take_le' .., fun piece member => (ih piece member).trans shorter.le⟩

end Search

section Word

variable [DecidableEq Symbol] {word text : List Symbol} {place : Nat}

/-- The search for a word. -/
def wordSearch (word : List Symbol) (nonempty : word ≠ []) : Search Symbol where
  first := firstPlace word
  width := word.length
  positive := List.length_pos_iff.mpr nonempty
  inside text place found := by
    obtain ⟨inside, stands, _⟩ := firstPlace_eq_some_iff.mp found
    have := stands.length_le
    rw [List.length_drop] at this
    omega

/-- The pieces of a text between the places of a word that are found one behind the other. -/
def cuts (word text : List Symbol) : List (List Symbol) :=
  if nonempty : word ≠ [] then (wordSearch word nonempty).pieces text else [text]

theorem cuts_eq (nonempty : word ≠ []) : cuts word text = (wordSearch word nonempty).pieces text :=
  dif_pos nonempty

theorem cuts_of_none (nonempty : word ≠ []) (nothing : firstPlace word text = none) : cuts word text = [text] := by
  rw [cuts_eq nonempty]
  exact Search.pieces_of_none nothing

theorem cuts_of_some (nonempty : word ≠ []) (found : firstPlace word text = some place) :
    cuts word text = text.take place :: cuts word (text.drop (place + word.length)) := by
  rw [cuts_eq nonempty, cuts_eq nonempty]
  exact Search.pieces_of_some found

theorem cuts_ne_nil (nonempty : word ≠ []) (text : List Symbol) : cuts word text ≠ [] := by
  rw [cuts_eq nonempty]
  exact Search.pieces_ne_nil text

/-- The text in front of the first place of a word, and the text behind it. -/
theorem take_word_drop (found : firstPlace word text = some place) :
    text = text.take place ++ word ++ text.drop (place + word.length) := by
  obtain ⟨_, stands, _⟩ := firstPlace_eq_some_iff.mp found
  obtain ⟨rest, isRest⟩ := stands
  have behind : text.drop (place + word.length) = rest := by
    rw [← List.drop_drop, ← isRest, List.drop_left]
  rw [behind, List.append_assoc, isRest, List.take_append_drop]

/-- The word does not stand before its first place, not even in part in front of it. -/
theorem not_infix_dropLast (nonempty : word ≠ []) (found : firstPlace word text = some place) :
    ¬ word <:+: (text.take place ++ word).dropLast := by
  intro stands
  have front : (text.take place ++ word).dropLast <+: text := by
    have split := take_word_drop found
    exact (List.dropLast_prefix _).trans ⟨text.drop (place + word.length), split.symm⟩
  obtain ⟨back, isText⟩ := front
  obtain ⟨earlier, again, early⟩ := firstPlace_append back stands
  rw [isText, found] at again
  obtain rfl := Option.some.inj again
  have positive := List.length_pos_iff.mpr nonempty
  have inside := (firstPlace_eq_some_iff.mp found).1
  rw [List.length_dropLast, List.length_append, List.length_take] at early
  omega

/-- Where the word does not stand before, not even in part in front of it, is its first place. -/
theorem firstPlace_append_word {before rest : List Symbol} (absent : ¬ word <:+: (before ++ word).dropLast) :
    firstPlace word (before ++ word ++ rest) = some before.length := by
  have stands : word <:+: before ++ word := (List.suffix_append ..).isInfix
  obtain ⟨place, found, early⟩ := firstPlace_append rest stands
  rw [found]
  rw [List.length_append] at early
  by_contra different
  have less : place + word.length ≤ before.length + word.length - 1 := by
    have : place ≠ before.length := fun same => different (congrArg some same)
    omega
  have prefixes : (before ++ word ++ rest).take (place + word.length) <+: (before ++ word).dropLast := by
    rw [List.dropLast_eq_take, List.length_append]
    refine (List.take_prefix_take_left less).trans ?_
    rw [List.take_append_of_le_length (by rw [List.length_append]; omega)]
  refine absent (List.IsInfix.trans ?_ prefixes.isInfix)
  obtain ⟨behind, isBehind⟩ := (firstPlace_eq_some_iff.mp found).2.1
  rw [List.take_add, ← isBehind, List.take_left]
  exact (List.suffix_append ..).isInfix

/-- The pieces with the word between them are the text. -/
theorem intercalate_cuts (nonempty : word ≠ []) (text : List Symbol) :
    word.intercalate (cuts word text) = text := by
  induction text using Search.induction (wordSearch word nonempty) with
  | none text nothing => rw [cuts_of_none nonempty nothing, List.intercalate_singleton]
  | some text place found ih =>
    rw [cuts_of_some nonempty found, List.intercalate_cons_of_ne_nil (cuts_ne_nil nonempty _)]
    exact (congrArg (text.take place ++ word ++ ·) ih).trans (take_word_drop found).symm

/-- In no piece the word stands. -/
theorem not_infix_of_mem_cuts (nonempty : word ≠ []) (text : List Symbol) :
    ∀ piece ∈ cuts word text, ¬ word <:+: piece := by
  induction text using Search.induction (wordSearch word nonempty) with
  | none text nothing =>
    rw [cuts_of_none nonempty nothing]
    intro piece member
    rw [List.mem_singleton.mp member]
    exact firstPlace_eq_none_iff.mp nothing
  | some text place found ih =>
    rw [cuts_of_some nonempty found]
    intro piece member
    rcases List.mem_cons.mp member with rfl | later
    · refine fun stands => not_infix_dropLast nonempty found (stands.trans ?_)
      rw [List.dropLast_append_of_ne_nil nonempty]
      exact (List.prefix_append ..).isInfix
    · exact ih piece later

end Word

end BTool.Foundation
