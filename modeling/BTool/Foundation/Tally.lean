import Mathlib.Data.Finset.Card
import Mathlib.Logic.Function.Basic

/-! How many threads are at places of some kind, of any number of threads, of which one moves at a
time. -/

namespace BTool.Foundation

variable {Thread Pc : Type} [DecidableEq Thread] {places : Thread → Pc} {thread : Thread} {pc : Pc}
  {holds : Pc → Bool} {count : Nat}

/-- So many threads are at such a place. -/
def Tally (holds : Pc → Bool) (places : Thread → Pc) (count : Nat) : Prop :=
  ∃ threads : Finset Thread, (∀ thread, thread ∈ threads ↔ holds (places thread) = true) ∧ threads.card = count

namespace Tally

omit [DecidableEq Thread] in
theorem none (nobody : ∀ thread, holds (places thread) = false) : Tally holds places 0 :=
  ⟨∅, by simp [nobody], rfl⟩

omit [DecidableEq Thread] in
theorem pos (tally : Tally holds places count) (there : holds (places thread) = true) : 0 < count := by
  obtain ⟨threads, exactly, rfl⟩ := tally
  exact Finset.card_pos.mpr ⟨thread, (exactly thread).mpr there⟩

theorem keep (tally : Tally holds places count) (same : holds pc = holds (places thread)) :
    Tally holds (Function.update places thread pc) count := by
  obtain ⟨threads, exactly, counted⟩ := tally
  refine ⟨threads, fun other => ?_, counted⟩
  by_cases here : other = thread
  · rw [here, Function.update_self, same, exactly]
  · rw [Function.update_of_ne here, exactly]

theorem enter (tally : Tally holds places count) (outside : holds (places thread) = false)
    (inside : holds pc = true) : Tally holds (Function.update places thread pc) (count + 1) := by
  obtain ⟨threads, exactly, rfl⟩ := tally
  have fresh : thread ∉ threads := by simp [exactly, outside]
  refine ⟨insert thread threads, fun other => ?_, Finset.card_insert_of_notMem fresh⟩
  by_cases here : other = thread
  · simp [here, inside]
  · simp [here, exactly]

theorem leave (tally : Tally holds places (count + 1)) (inside : holds (places thread) = true)
    (outside : holds pc = false) : Tally holds (Function.update places thread pc) count := by
  obtain ⟨threads, exactly, counted⟩ := tally
  have member : thread ∈ threads := (exactly thread).mpr inside
  refine ⟨threads.erase thread, fun other => ?_, ?_⟩
  · by_cases here : other = thread
    · simp [here, outside]
    · simp [here, exactly]
  · rw [Finset.card_erase_of_mem member, counted, Nat.add_sub_cancel]

/-- One thread moves: it is counted where it goes and not where it was. -/
theorem move (tally : Tally holds places count) (thread : Thread) (pc : Pc) :
    ∃ after, Tally holds (Function.update places thread pc) after ∧
      after + (holds (places thread)).toNat = count + (holds pc).toNat := by
  cases was : holds (places thread) with
  | false =>
    cases now : holds pc with
    | false => exact ⟨count, tally.keep (now.trans was.symm), rfl⟩
    | true => exact ⟨count + 1, tally.enter was now, rfl⟩
  | true =>
    cases now : holds pc with
    | false =>
      obtain ⟨before, rfl⟩ := Nat.exists_eq_succ_of_ne_zero (Nat.ne_of_gt (tally.pos was))
      exact ⟨before, tally.leave was now, rfl⟩
    | true => exact ⟨count, tally.keep (now.trans was.symm), rfl⟩

omit [DecidableEq Thread] in
theorem eq_zero (tally : Tally holds places count) (nobody : ∀ thread, holds (places thread) = false) :
    count = 0 := by
  obtain ⟨threads, exactly, rfl⟩ := tally
  refine Finset.card_eq_zero.mpr (Finset.eq_empty_of_forall_notMem fun thread member => ?_)
  exact Bool.false_ne_true ((nobody thread).symm.trans ((exactly thread).mp member))

omit [DecidableEq Thread] in
/-- Where one is counted at most, there are no two threads. -/
theorem alone (tally : Tally holds places count) (le : count ≤ 1) {other : Thread}
    (first : holds (places thread) = true) (second : holds (places other) = true) : thread = other := by
  obtain ⟨threads, exactly, rfl⟩ := tally
  exact Finset.card_le_one.mp le thread ((exactly thread).mpr first) other ((exactly other).mpr second)

end Tally

/-- What is done and what the threads at such places have still to do is so much in all. -/
def Accounts (holds : Pc → Bool) (places : Thread → Pc) (done total : Nat) : Prop :=
  ∃ count, Tally holds places count ∧ done + count = total

namespace Accounts

variable {done total : Nat}

omit [DecidableEq Thread] in
theorem zero (nobody : ∀ thread, holds (places thread) = false) : Accounts holds places total total :=
  ⟨0, .none nobody, rfl⟩

omit [DecidableEq Thread] in
theorem le (accounts : Accounts holds places done total) : done ≤ total := by
  obtain ⟨count, _, rfl⟩ := accounts
  exact Nat.le_add_right ..

omit [DecidableEq Thread] in
theorem lt (accounts : Accounts holds places done total) (there : holds (places thread) = true) :
    done < total := by
  obtain ⟨count, tally, rfl⟩ := accounts
  exact Nat.lt_add_of_pos_right (tally.pos there)

omit [DecidableEq Thread] in
theorem eq (accounts : Accounts holds places done total) (nobody : ∀ thread, holds (places thread) = false) :
    done = total := by
  obtain ⟨count, tally, rfl⟩ := accounts
  rw [tally.eq_zero nobody, Nat.add_zero]

omit [DecidableEq Thread] in
theorem alone (accounts : Accounts holds places done total) (le : total ≤ done + 1) {other : Thread}
    (first : holds (places thread) = true) (second : holds (places other) = true) : thread = other := by
  obtain ⟨count, tally, rfl⟩ := accounts
  exact tally.alone (by omega) first second

omit [DecidableEq Thread] in
/-- Where there are no two threads, one at most has still to do something. -/
theorem le_succ (accounts : Accounts holds places done total)
    (alone : ∀ thread other, holds (places thread) = true → holds (places other) = true → thread = other) :
    total ≤ done + 1 := by
  obtain ⟨count, ⟨threads, exactly, rfl⟩, rfl⟩ := accounts
  refine Nat.add_le_add_left (Finset.card_le_one.mpr fun thread here other there => ?_) _
  exact alone thread other ((exactly thread).mp here) ((exactly other).mp there)

/-- A thread moves, and what it has no more is done or was not to be done. -/
theorem move (accounts : Accounts holds places done total) {doneAfter totalAfter : Nat} (thread : Thread) (pc : Pc)
    (same : doneAfter + (holds pc).toNat + total = done + (holds (places thread)).toNat + totalAfter) :
    Accounts holds (Function.update places thread pc) doneAfter totalAfter := by
  obtain ⟨count, tally, rfl⟩ := accounts
  obtain ⟨after, counted, moved⟩ := tally.move thread pc
  exact ⟨after, counted, by omega⟩

end Accounts

/-- What is done and what the threads at such places have still to do is at most so much. -/
def AtMost (holds : Pc → Bool) (places : Thread → Pc) (done bound : Nat) : Prop :=
  ∃ count, Tally holds places count ∧ done + count ≤ bound

namespace AtMost

variable {done bound : Nat}

omit [DecidableEq Thread] in
theorem zero (nobody : ∀ thread, holds (places thread) = false) (le : done ≤ bound) :
    AtMost holds places done bound :=
  ⟨0, .none nobody, le⟩

omit [DecidableEq Thread] in
theorem le (most : AtMost holds places done bound) : done ≤ bound := by
  obtain ⟨count, _, le⟩ := most
  omega

omit [DecidableEq Thread] in
theorem lt (most : AtMost holds places done bound) (there : holds (places thread) = true) : done < bound := by
  obtain ⟨count, tally, le⟩ := most
  have := tally.pos there
  omega

omit [DecidableEq Thread] in
theorem alone (most : AtMost holds places done bound) (le : bound ≤ done + 1) {other : Thread}
    (first : holds (places thread) = true) (second : holds (places other) = true) : thread = other := by
  obtain ⟨count, tally, counted⟩ := most
  exact tally.alone (by omega) first second

theorem move (most : AtMost holds places done bound) {doneAfter boundAfter : Nat} (thread : Thread) (pc : Pc)
    (le : doneAfter + (holds pc).toNat + bound ≤ done + (holds (places thread)).toNat + boundAfter) :
    AtMost holds (Function.update places thread pc) doneAfter boundAfter := by
  obtain ⟨count, tally, counted⟩ := most
  obtain ⟨after, tallyAfter, moved⟩ := tally.move thread pc
  exact ⟨after, tallyAfter, by omega⟩

end AtMost

end BTool.Foundation
