import Mathlib.Algebra.BigOperators.Group.List.Basic
import Mathlib.Algebra.Group.Int.Defs
import Mathlib.Algebra.Ring.Int.Defs
import BTool.Foundation.SignedArithmetic

/-! Columns that are placed in a row, one behind the other. -/

namespace BTool.Foundation

universe u

variable {Column : Type u} {length offset : Column → Int} {start : Int} {column : Column}
  {front back columns : List Column} {index : Nat}

/-- The length of some columns together. -/
def extent (length : Column → Int) (columns : List Column) : Int := (columns.map length).sum

theorem extent_nil : extent length [] = 0 := rfl

theorem extent_cons : extent length (column :: columns) = length column + extent length columns := rfl

theorem extent_append : extent length (front ++ back) = extent length front + extent length back := by
  rw [extent, List.map_append, List.sum_append]
  rfl

theorem extent_singleton : extent length [column] = length column := by
  rw [extent_cons, extent_nil, Int.add_zero]

/-- Every column begins where the ones before it end. -/
def Placed (length offset : Column → Int) (start : Int) (columns : List Column) : Prop :=
  ∀ index column, columns[index]? = some column → offset column = start + extent length (columns.take index)

namespace Placed

theorem nil : Placed length offset start [] := nofun

theorem cons_iff : Placed length offset start (column :: columns) ↔
    offset column = start ∧ Placed length offset (start + length column) columns := by
  constructor
  · intro placed
    refine ⟨?_, fun index other there => ?_⟩
    · rw [placed 0 column rfl, List.take_zero, extent_nil, Int.add_zero]
    · rw [placed (index + 1) other there, List.take_succ_cons, extent_cons, Int.add_assoc]
  · rintro ⟨first, later⟩ index other there
    cases index with
    | zero =>
      obtain rfl := Option.some.inj there
      rw [first, List.take_zero, extent_nil, Int.add_zero]
    | succ index =>
      rw [later index other there, List.take_succ_cons, extent_cons, Int.add_assoc]

theorem append_iff : Placed length offset start (front ++ back) ↔
    Placed length offset start front ∧ Placed length offset (start + extent length front) back := by
  induction front generalizing start with
  | nil =>
    rw [List.nil_append, extent_nil, Int.add_zero]
    exact (and_iff_right nil).symm
  | cons column front ih => rw [List.cons_append, cons_iff, cons_iff, ih, extent_cons, and_assoc, Int.add_assoc]

theorem take (placed : Placed length offset start columns) (count : Nat) :
    Placed length offset start (columns.take count) := by
  rw [← List.take_append_drop count columns] at placed
  exact (append_iff.mp placed).1

/-- A column that is not there yet begins at the end. -/
theorem snoc_iff : Placed length offset start (front ++ [column]) ↔
    Placed length offset start front ∧ offset column = start + extent length front := by
  rw [append_iff, cons_iff, and_iff_left nil]

/-- The last column ends where all of them do. -/
theorem stop_eq (placed : Placed length offset start columns) (last : columns.getLast? = some column) :
    offset column + length column = start + extent length columns := by
  obtain ⟨front, rfl⟩ := List.getLast?_eq_some_iff.mp last
  rw [(snoc_iff.mp placed).2, extent_append, extent_singleton, Int.add_assoc]

end Placed

section Cells

variable {other : Column} {later : Nat}

theorem extent_nonneg (nonneg : ∀ column ∈ columns, 0 ≤ length column) : 0 ≤ extent length columns := by
  induction columns with
  | nil => exact Int.le_refl _
  | cons column columns ih =>
    obtain ⟨first, rest⟩ := List.forall_mem_cons.mp nonneg
    have sum := ih rest
    rw [extent_cons]
    omega

/-- More columns do not take less. -/
theorem extent_take_le (nonneg : ∀ column ∈ columns, 0 ≤ length column) (before : index ≤ later) :
    extent length (columns.take index) ≤ extent length (columns.take later) := by
  obtain ⟨more, rfl⟩ := Nat.exists_eq_add_of_le before
  have rest : 0 ≤ extent length ((columns.drop index).take more) :=
    extent_nonneg fun column member => nonneg column (List.mem_of_mem_drop (List.mem_of_mem_take member))
  rw [List.take_add, extent_append]
  omega

theorem extent_take_succ (there : columns[index]? = some column) :
    extent length (columns.take (index + 1)) = extent length (columns.take index) + length column := by
  rw [List.take_add_one, there, extent_append]
  exact congrArg _ extent_singleton

variable (placed : Placed length offset start columns) (nonneg : ∀ column ∈ columns, 0 ≤ length column)

include placed nonneg

/-- No column begins before the start or ends behind the end. -/
theorem Placed.within (there : columns[index]? = some column) :
    start ≤ offset column ∧ offset column + length column ≤ start + extent length columns := by
  have begins := placed index column there
  have before := extent_take_le nonneg (Nat.zero_le index)
  obtain ⟨inside, _⟩ := List.getElem?_eq_some_iff.mp there
  have behind := extent_take_le nonneg (Nat.succ_le_of_lt inside)
  rw [List.take_zero, extent_nil] at before
  rw [List.take_length, extent_take_succ there] at behind
  omega

/-- A column ends before a later one begins. -/
theorem Placed.stop_le (there : columns[index]? = some column) (follows : columns[later]? = some other)
    (before : index < later) : offset column + length column ≤ offset other := by
  have begins := placed index column there
  have next := placed later other follows
  have behind := extent_take_le nonneg (Nat.succ_le_of_lt before)
  rw [extent_take_succ there] at behind
  omega

/-- Whatever lies in two columns lies in one. -/
theorem Placed.eq_of_mem {position : Int} (there : columns[index]? = some column)
    (also : columns[later]? = some other) (first : offset column ≤ position ∧ position < offset column + length column)
    (second : offset other ≤ position ∧ position < offset other + length other) : index = later := by
  rcases Nat.lt_trichotomy index later with before | same | behind
  · have stop := placed.stop_le nonneg there also before
    omega
  · exact same
  · have stop := placed.stop_le nonneg also there behind
    omega

end Cells

/-- Lengths that add up, one after the other, without leaving an `int`. -/
def SumsFit (start : Int) (lengths : List Int) : Prop :=
  ∀ count ≤ lengths.length, FitsInt (start + (lengths.take count).sum)

namespace SumsFit

variable {term : Int} {terms later : List Int}

theorem nil_iff : SumsFit start [] ↔ FitsInt start := by
  constructor
  · intro fits
    simpa using fits 0 (Nat.le_refl _)
  · intro fits count _
    simpa using fits

theorem cons_iff : SumsFit start (term :: terms) ↔ FitsInt start ∧ SumsFit (start + term) terms := by
  constructor
  · intro fits
    refine ⟨by simpa using fits 0 (Nat.zero_le _), fun count within => ?_⟩
    have next := fits (count + 1) (Nat.succ_le_succ within)
    rwa [List.take_succ_cons, List.sum_cons, ← Int.add_assoc] at next
  · rintro ⟨now, next⟩ count within
    cases count with
    | zero => simpa using now
    | succ count =>
      rw [List.take_succ_cons, List.sum_cons, ← Int.add_assoc]
      exact next count (Nat.le_of_succ_le_succ within)

theorem first (fits : SumsFit start terms) : FitsInt start := by
  simpa using fits 0 (Nat.zero_le _)

/-- All of them together fit. -/
theorem total (fits : SumsFit start terms) : FitsInt (start + terms.sum) := by
  simpa using fits terms.length (Nat.le_refl _)

theorem append_iff : SumsFit start (terms ++ later) ↔ SumsFit start terms ∧ SumsFit (start + terms.sum) later := by
  induction terms generalizing start with
  | nil =>
    rw [List.nil_append, List.sum_nil, Int.add_zero, nil_iff]
    exact ⟨fun fits => ⟨fits.first, fits⟩, fun both => both.2⟩
  | cons term terms ih => rw [List.cons_append, cons_iff, cons_iff, ih, List.sum_cons, and_assoc, Int.add_assoc]

theorem take (fits : SumsFit start terms) (count : Nat) : SumsFit start (terms.take count) := by
  rw [← List.take_append_drop count terms] at fits
  exact (append_iff.mp fits).1

end SumsFit

end BTool.Foundation
