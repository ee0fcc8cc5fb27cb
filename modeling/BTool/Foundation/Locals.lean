import Mathlib.Logic.Function.Basic

/-! The places of any number of threads in their programs, of which one moves at a time. -/

namespace BTool.Foundation

variable {Thread Pc : Type} [DecidableEq Thread] {places : Thread → Pc} {thread other : Thread}
  {pc : Pc} {holds : Pc → Prop}

/-- Some thread is at such a place. -/
def Somewhere (holds : Pc → Prop) (places : Thread → Pc) : Prop := ∃ thread, holds (places thread)

/-- Every thread is at such a place. -/
def Everywhere (holds : Pc → Prop) (places : Thread → Pc) : Prop := ∀ thread, holds (places thread)

theorem Somewhere.here (now : holds pc) : Somewhere holds (Function.update places thread pc) :=
  ⟨thread, by rwa [Function.update_self]⟩

/-- Another thread stays where it is. -/
theorem Somewhere.elsewhere (there : holds (places other)) (apart : other ≠ thread) :
    Somewhere holds (Function.update places thread pc) :=
  ⟨other, by rwa [Function.update_of_ne apart]⟩

theorem Somewhere.move (found : Somewhere holds places) (keep : holds (places thread) → holds pc) :
    Somewhere holds (Function.update places thread pc) := by
  obtain ⟨other, there⟩ := found
  by_cases same : other = thread
  · subst same
    exact .here (keep there)
  · exact ⟨other, by rwa [Function.update_of_ne same]⟩

theorem Somewhere.back (found : Somewhere holds (Function.update places thread pc))
    (keep : holds pc → holds (places thread)) : Somewhere holds places := by
  obtain ⟨other, there⟩ := found
  by_cases same : other = thread
  · subst same
    exact ⟨other, keep (by rwa [Function.update_self] at there)⟩
  · exact ⟨other, by rwa [Function.update_of_ne same] at there⟩

theorem Everywhere.move (always : Everywhere holds places) (now : holds pc) :
    Everywhere holds (Function.update places thread pc) := by
  intro other
  by_cases same : other = thread
  · subst same
    rwa [Function.update_self]
  · rw [Function.update_of_ne same]
    exact always other

/-- What a thread has keeps when it moves and has the same. -/
theorem view_move {View : Type} (view : Pc → View) (same : view pc = view (places thread)) (other : Thread) :
    view (Function.update places thread pc other) = view (places other) := by
  by_cases here : other = thread
  · subst here
    rw [Function.update_self, same]
  · rw [Function.update_of_ne here]

/-- Who is not the thread that moves has what it had. -/
theorem view_elsewhere {View : Type} (view : Pc → View) (apart : other ≠ thread) :
    view (Function.update places thread pc other) = view (places other) := by
  rw [Function.update_of_ne apart]

/-- Who has something after the move of a thread that has nothing any more is another thread, and
had it before. -/
theorem view_other {View : Type} {view : Pc → Option View} {held : View} (nothing : view pc = none)
    (has : view (Function.update places thread pc other) = some held) :
    other ≠ thread ∧ view (places other) = some held := by
  by_cases here : other = thread
  · subst here
    rw [Function.update_self, nothing] at has
    cases has
  · rw [Function.update_of_ne here] at has
    exact ⟨here, has⟩

/-- At most one thread is at such a place. -/
def Alone (holds : Pc → Prop) (places : Thread → Pc) : Prop :=
  ∀ first second, holds (places first) → holds (places second) → first = second

theorem Alone.move (alone : Alone holds places) (keep : holds pc → holds (places thread)) :
    Alone holds (Function.update places thread pc) := by
  have back {other : Thread} (there : holds (Function.update places thread pc other)) :
      holds (places other) := by
    by_cases same : other = thread
    · subst same
      exact keep (by rwa [Function.update_self] at there)
    · rwa [Function.update_of_ne same] at there
  intro first second firstHolds secondHolds
  exact alone first second (back firstHolds) (back secondHolds)

/-- The only one moves away. -/
theorem Alone.gone (alone : Alone holds places) (was : holds (places thread)) (left : ¬ holds pc) :
    ¬ Somewhere holds (Function.update places thread pc) := by
  rintro ⟨other, there⟩
  by_cases same : other = thread
  · subst same
    exact left (by rwa [Function.update_self] at there)
  · rw [Function.update_of_ne same] at there
    exact same (alone other thread there was)

/-- With nobody there, one may enter. -/
theorem Alone.enter (nobody : ¬ Somewhere holds places) :
    Alone holds (Function.update places thread pc) := by
  have only {other : Thread} (there : holds (Function.update places thread pc other)) :
      other = thread := by
    by_contra apart
    rw [Function.update_of_ne apart] at there
    exact nobody ⟨other, there⟩
  intro first second firstHolds secondHolds
  rw [only firstHolds, only secondHolds]

end BTool.Foundation
