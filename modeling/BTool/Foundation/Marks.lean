import Mathlib.Data.Finset.Erase
import Mathlib.Data.Finset.Insert
import Mathlib.Logic.Function.Basic

/-! Resources marked as in use, and the workers that use them. -/

namespace BTool.Foundation

variable {Resource Worker : Type} [DecidableEq Resource] [DecidableEq Worker]

structure Marks (Resource Worker : Type) where
  marked : Finset Resource
  busy : Worker → Option Resource

namespace Marks

/-- The marks are exactly the resources in use. -/
def Exact (marks : Marks Resource Worker) : Prop :=
  ∀ resource, resource ∈ marks.marked ↔ ∃ worker, marks.busy worker = some resource

/-- No resource is used twice. -/
def Exclusive (marks : Marks Resource Worker) : Prop :=
  ∀ first second resource, marks.busy first = some resource →
    marks.busy second = some resource → first = second

/-- How one step may change the marks; the flag tells the steps that mark a resource for
nobody from all others. -/
inductive Change : Marks Resource Worker → Bool → Marks Resource Worker → Prop where
  | same (marks : Marks Resource Worker) : Change marks true marks
  | acquire (marks : Marks Resource Worker) (worker : Worker) (resource : Resource)
      (free : marks.busy worker = none) (unmarked : resource ∉ marks.marked) :
      Change marks true ⟨insert resource marks.marked,
        Function.update marks.busy worker (some resource)⟩
  | leak (marks : Marks Resource Worker) (resource : Resource) (unmarked : resource ∉ marks.marked) :
      Change marks false ⟨insert resource marks.marked, marks.busy⟩
  | release (marks : Marks Resource Worker) (worker : Worker) (resource : Resource)
      (used : marks.busy worker = some resource) :
      Change marks true ⟨marks.marked.erase resource, Function.update marks.busy worker none⟩

omit [DecidableEq Resource] in
/-- Who uses what, read off a table of the workers, follows the updates of the table. -/
theorem busy_update {Entry : Type} (resource : Entry → Resource) (table : Worker → Option Entry)
    (worker : Worker) (entry : Option Entry) :
    (fun other => (Function.update table worker entry other).map resource) =
      Function.update (fun other => (table other).map resource) worker (entry.map resource) :=
  Function.comp_update (Option.map resource) table worker entry

variable {marks after : Marks Resource Worker} {fine : Bool}

/-- A worker marks a resource and uses it only if it found something there. -/
theorem Change.take {Found : Type} (marks : Marks Resource Worker) (worker : Worker)
    (resource : Resource) (found : Option Found) (free : marks.busy worker = none)
    (unmarked : resource ∉ marks.marked) :
    Change marks found.isSome ⟨insert resource marks.marked,
      Function.update marks.busy worker (found.map fun _ => resource)⟩ := by
  cases found with
  | none =>
    have same : Function.update marks.busy worker none = marks.busy := by
      rw [← free, Function.update_eq_self]
    simpa [same] using leak marks resource unmarked
  | some item => exact acquire marks worker resource free unmarked

/-- From exact marks a step leads to exact ones unless it leaks. -/
theorem Change.exact_iff (change : Change marks fine after) (tight : marks.Exact)
    (exclusive : marks.Exclusive) :
    (after.Exact ↔ fine = true) ∧ (fine = true → after.Exclusive) := by
  cases change with
  | same => exact ⟨by simp [tight], fun _ => exclusive⟩
  | acquire worker resource free unmarked =>
    have idle (other : Worker) : marks.busy other ≠ some resource := fun used =>
      unmarked ((tight resource).mpr ⟨other, used⟩)
    refine ⟨iff_of_true ?_ rfl, fun _ => ?_⟩
    · intro other
      rw [Finset.mem_insert, tight]
      constructor
      · rintro (rfl | ⟨user, used⟩)
        · exact ⟨worker, Function.update_self ..⟩
        · have apart : user ≠ worker := by
            rintro rfl
            simp [free] at used
          exact ⟨user, (Function.update_of_ne apart ..).trans used⟩
      · rintro ⟨user, used⟩
        by_cases here : user = worker
        · subst here
          simp only [Function.update_self, Option.some.injEq] at used
          exact .inl used.symm
        · exact .inr ⟨user, (Function.update_of_ne here ..).symm.trans used⟩
    · intro one two other first second
      by_cases oneHere : one = worker <;> by_cases twoHere : two = worker
      · rw [oneHere, twoHere]
      · simp only [oneHere, Function.update_self, Option.some.injEq] at first
        simp only [Function.update_of_ne twoHere, ← first] at second
        exact absurd second (idle two)
      · simp only [twoHere, Function.update_self, Option.some.injEq] at second
        simp only [Function.update_of_ne oneHere, ← second] at first
        exact absurd first (idle one)
      · simp only [Function.update_of_ne oneHere] at first
        simp only [Function.update_of_ne twoHere] at second
        exact exclusive one two other first second
  | leak resource unmarked =>
    refine ⟨iff_of_false ?_ (by simp), by simp⟩
    intro still
    obtain ⟨user, used⟩ := (still resource).mp (Finset.mem_insert_self ..)
    exact unmarked ((tight resource).mpr ⟨user, used⟩)
  | release worker resource used =>
    refine ⟨iff_of_true ?_ rfl, fun _ => ?_⟩
    · intro other
      rw [Finset.mem_erase, tight]
      constructor
      · rintro ⟨different, user, uses⟩
        have apart : user ≠ worker := by
          rintro rfl
          rw [used] at uses
          exact different (Option.some.inj uses).symm
        exact ⟨user, (Function.update_of_ne apart ..).trans uses⟩
      · rintro ⟨user, uses⟩
        by_cases here : user = worker
        · simp [here] at uses
        · dsimp only at uses
          rw [Function.update_of_ne here] at uses
          refine ⟨?_, user, uses⟩
          rintro rfl
          exact here (exclusive user worker _ uses used)
    · intro one two other first second
      by_cases oneHere : one = worker
      · simp [oneHere] at first
      · by_cases twoHere : two = worker
        · simp [twoHere] at second
        · dsimp only at first second
          rw [Function.update_of_ne oneHere] at first
          rw [Function.update_of_ne twoHere] at second
          exact exclusive one two other first second

end Marks

end BTool.Foundation
