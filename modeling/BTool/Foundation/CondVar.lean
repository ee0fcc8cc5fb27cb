import Mathlib.Data.Finset.Erase
import Mathlib.Data.Finset.Insert

/-! A condition variable, as the set of the threads asleep on it. -/

namespace BTool.Foundation

variable {Thread : Type} [DecidableEq Thread]

structure CondVar (Thread : Type) where
  waiters : Finset Thread

namespace CondVar

def empty : CondVar Thread := ⟨∅⟩

/-- Release the lock and fall asleep. -/
def wait (cond : CondVar Thread) (thread : Thread) : CondVar Thread :=
  ⟨insert thread cond.waiters⟩

/-- Wake one sleeper, whichever; with none asleep the notification is lost. -/
def notifyOne (cond : CondVar Thread) : Option Thread → Option (CondVar Thread)
  | none => if cond.waiters = ∅ then some cond else none
  | some woken => if woken ∈ cond.waiters then some ⟨cond.waiters.erase woken⟩ else none

/-- A sleeper wakes up though it has not been notified. -/
def wake (cond : CondVar Thread) (thread : Thread) : Option (CondVar Thread) := cond.notifyOne (some thread)

variable {cond after : CondVar Thread} {thread other : Thread} {woken : Option Thread}

@[simp] theorem waiters_wait : other ∈ (cond.wait thread).waiters ↔
    other = thread ∨ other ∈ cond.waiters := Finset.mem_insert

/-- A notification either finds nobody asleep or takes one sleeper off. -/
theorem notifyOne_cases (notified : cond.notifyOne woken = some after) :
    (woken = none ∧ cond.waiters = ∅ ∧ after = cond) ∨
      ∃ sleeper, woken = some sleeper ∧ sleeper ∈ cond.waiters ∧
        after.waiters = cond.waiters.erase sleeper := by
  cases woken with
  | none =>
    simp only [notifyOne] at notified
    split at notified
    · rename_i nobody
      left
      exact ⟨rfl, nobody, (Option.some.inj notified).symm⟩
    · cases notified
  | some sleeper =>
    simp only [notifyOne] at notified
    split at notified
    · rename_i asleep
      right
      exact ⟨sleeper, rfl, asleep, congrArg waiters (Option.some.inj notified).symm⟩
    · cases notified

/-- Whoever is asleep, a notification can be given. -/
theorem exists_notifyOne (cond : CondVar Thread) : ∃ woken after, cond.notifyOne woken = some after := by
  by_cases nobody : cond.waiters = ∅
  · exact ⟨none, cond, by simp [notifyOne, nobody]⟩
  · obtain ⟨sleeper, asleep⟩ := Finset.nonempty_iff_ne_empty.mpr nobody
    exact ⟨some sleeper, ⟨cond.waiters.erase sleeper⟩, by simp [notifyOne, asleep]⟩

theorem notifyOne_subset (notified : cond.notifyOne woken = some after) :
    after.waiters ⊆ cond.waiters := by
  rcases notifyOne_cases notified with ⟨_, _, rfl⟩ | ⟨sleeper, _, _, same⟩
  · exact Finset.Subset.refl _
  · rw [same]
    exact Finset.erase_subset _ _

end CondVar

end BTool.Foundation
