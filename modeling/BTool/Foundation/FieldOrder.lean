import Mathlib.Data.List.Lex
import Mathlib.Order.Lattice

/-! Items that are compared field by field, the first field that differs deciding. The comparisons are those
of the lists of their fields in lexicographic order. -/

namespace BTool.Foundation

universe u v

variable {Item : Type u} {Key : Type v} [LinearOrder Key]

def sameBy : List (Item → Key) → Item → Item → Bool
  | [], _, _ => true
  | field :: fields, item, other =>
    if field other ≠ field item then false else sameBy fields item other

def lessBy : List (Item → Key) → Item → Item → Bool
  | [], _, _ => false
  | field :: fields, item, other =>
    if field other < field item then false
    else if field item < field other then true
    else lessBy fields item other

def greaterBy : List (Item → Key) → Item → Item → Bool
  | [], _, _ => false
  | field :: fields, item, other =>
    if field item < field other then false
    else if field other < field item then true
    else greaterBy fields item other

/-- The fields of an item, one behind the other. -/
def keys (fields : List (Item → Key)) (item : Item) : List Key :=
  fields.map (· item)

variable {fields : List (Item → Key)} {item other : Item}

theorem sameBy_iff : sameBy fields item other = true ↔ keys fields item = keys fields other := by
  induction fields with
  | nil => exact iff_of_true rfl rfl
  | cons field fields ih =>
    rw [sameBy, keys, keys, List.map_cons, List.map_cons, List.cons.injEq]
    split
    · rename_i differ
      exact iff_of_false Bool.false_ne_true fun same => differ same.1.symm
    · rename_i equal
      rw [ih, and_iff_right (not_not.mp equal).symm]
      rfl

theorem lessBy_iff : lessBy fields item other = true ↔ keys fields item < keys fields other := by
  induction fields with
  | nil => exact iff_of_false Bool.false_ne_true (List.not_lt_nil [])
  | cons field fields ih =>
    rw [lessBy, keys, keys, List.map_cons, List.map_cons, List.cons_lt_cons_iff]
    obtain less | equal | greater := lt_trichotomy (field item) (field other)
    · rw [if_neg less.asymm, if_pos less]
      exact iff_of_true rfl (.inl less)
    · rw [if_neg equal.not_gt, if_neg equal.not_lt, ih]
      exact ⟨fun rest => .inr ⟨equal, rest⟩, fun step => (step.resolve_left equal.not_lt).2⟩
    · rw [if_pos greater]
      refine iff_of_false Bool.false_ne_true ?_
      rintro (less | ⟨equal, _⟩)
      · exact less.asymm greater
      · exact equal.not_gt greater

theorem greaterBy_eq : greaterBy fields item other = lessBy fields other item := by
  induction fields with
  | nil => rfl
  | cons field fields ih => rw [greaterBy, lessBy, ih]

end BTool.Foundation
