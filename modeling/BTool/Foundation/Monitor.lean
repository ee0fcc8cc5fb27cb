import Mathlib.Algebra.BigOperators.Group.Finset.Basic
import BTool.Foundation.CondVar

/-! A lock that one thread has at a time, and sleepers that are woken one by one.

A notification is given behind the lock, so what is there for the sleepers is compared with the
notifications that are still to be given and the threads that are already up. -/

namespace BTool.Foundation

/-- Who is inside has the lock. -/
def Exclusive {Thread : Type} (inside : Thread → Bool) (mtx : Option Thread) : Prop :=
  ∀ thread, inside thread = true → mtx = some thread

namespace Exclusive

variable {Thread : Type} {inside : Thread → Bool} {mtx : Option Thread} {thread other : Thread}
  {within : Bool}

theorem alone (exclusive : Exclusive inside mtx) (first : inside thread = true)
    (second : inside other = true) : other = thread :=
  Option.some.inj ((exclusive other second).symm.trans (exclusive thread first))

variable [DecidableEq Thread]

/-- The lock is taken when nobody has it. -/
theorem lock (exclusive : Exclusive inside none) :
    Exclusive (Function.update inside thread within) (some thread) := by
  intro other there
  by_cases same : other = thread
  · rw [same]
  · rw [Function.update_of_ne same] at there
    cases exclusive other there

/-- A thread moves with the lock, or without it. -/
theorem keep (exclusive : Exclusive inside mtx) (had : within = true → inside thread = true) :
    Exclusive (Function.update inside thread within) mtx := by
  intro other there
  by_cases same : other = thread
  · subst same
    rw [Function.update_self] at there
    exact exclusive other (had there)
  · rw [Function.update_of_ne same] at there
    exact exclusive other there

theorem release (exclusive : Exclusive inside mtx) (had : inside thread = true) :
    Exclusive (Function.update inside thread false) none := by
  intro other there
  by_cases same : other = thread
  · subst same
    rw [Function.update_self] at there
    cases there
  · rw [Function.update_of_ne same] at there
    exact absurd (exclusive.alone had there) same

end Exclusive

/-- The sleepers of a condition variable are the threads that are at a place where one sleeps. -/
def Seated {Thread Pc : Type} (cond : CondVar Thread) (asleep : Pc → Bool) (places : Thread → Pc) : Prop :=
  ∀ thread, thread ∈ cond.waiters ↔ asleep (places thread) = true

namespace Seated

variable {Thread Pc : Type} [DecidableEq Thread] {cond after : CondVar Thread} {asleep : Pc → Bool}
  {places : Thread → Pc} {thread : Thread} {pc : Pc}

/-- A thread that is up stays up. -/
theorem keep (seated : Seated cond asleep places) (was : asleep (places thread) = false)
    (now : asleep pc = false) : Seated cond asleep (Function.update places thread pc) := by
  intro other
  by_cases same : other = thread
  · rw [same, Function.update_self, now, seated thread, was]
  · rw [Function.update_of_ne same]
    exact seated other

theorem wait (seated : Seated cond asleep places) (now : asleep pc = true) :
    Seated (cond.wait thread) asleep (Function.update places thread pc) := by
  intro other
  rw [CondVar.waiters_wait]
  by_cases same : other = thread
  · rw [same, Function.update_self, now]
    exact iff_of_true (.inl rfl) rfl
  · rw [Function.update_of_ne same, seated other]
    exact or_iff_right same

theorem wake (seated : Seated cond asleep places) (woken : after.waiters = cond.waiters.erase thread)
    (now : asleep pc = false) : Seated after asleep (Function.update places thread pc) := by
  intro other
  rw [woken, Finset.mem_erase, seated other]
  by_cases same : other = thread
  · rw [same, Function.update_self, now]
    exact iff_of_false (fun both => both.1 rfl) Bool.false_ne_true
  · rw [Function.update_of_ne same]
    exact and_iff_right same

end Seated

section Total

variable {Thread Pc Share : Type} [AddCommMonoid Share] {share : Pc → Share} {places : Thread → Pc}
  {total : Share}

/-- What the threads have makes up so much in all. -/
def Total (share : Pc → Share) (places : Thread → Pc) (total : Share) : Prop :=
  ∃ threads : Finset Thread, (∀ thread, thread ∉ threads → share (places thread) = 0) ∧
    ∑ thread ∈ threads, share (places thread) = total

namespace Total

theorem zero (nothing : ∀ thread, share (places thread) = 0) : Total share places 0 :=
  ⟨∅, fun thread _ => nothing thread, Finset.sum_empty⟩

theorem eq_zero (has : Total share places total) (nothing : ∀ thread, share (places thread) = 0) :
    total = 0 := by
  obtain ⟨threads, _, rfl⟩ := has
  exact Finset.sum_eq_zero fun thread _ => nothing thread

variable [DecidableEq Thread]

/-- One thread moves: what it had is taken off, and what it has now is added. -/
theorem move (has : Total share places total) (thread : Thread) (pc : Pc) :
    ∃ after, Total share (Function.update places thread pc) after ∧
      after + share (places thread) = total + share pc := by
  obtain ⟨threads, outside, rfl⟩ := has
  have others : ∑ other ∈ threads.erase thread, share (Function.update places thread pc other) =
      ∑ other ∈ threads.erase thread, share (places other) := by
    refine Finset.sum_congr rfl fun other member => ?_
    rw [Function.update_of_ne (Finset.ne_of_mem_erase member)]
  have before : ∑ other ∈ threads, share (places other) =
      ∑ other ∈ threads.erase thread, share (places other) + share (places thread) := by
    by_cases member : thread ∈ threads
    · exact (Finset.sum_erase_add threads _ member).symm
    · rw [Finset.erase_eq_of_notMem member, outside thread member, add_zero]
  refine ⟨_, ⟨insert thread threads, fun other absent => ?_, rfl⟩, ?_⟩
  · have apart : other ≠ thread := fun same => absent (same ▸ Finset.mem_insert_self ..)
    rw [Function.update_of_ne apart]
    exact outside other fun member => absent (Finset.mem_insert_of_mem member)
  · rw [← Finset.sum_erase_add _ _ (Finset.mem_insert_self thread threads), Finset.erase_insert_eq_erase,
      Function.update_self, others, before, add_right_comm]

end Total

end Total

section Matched

variable {Waiter Sender WaiterPc SenderPc : Type} {asleep after : Finset Waiter}
  {available left : Nat} {up : WaiterPc → Nat} {waiters : Waiter → WaiterPc} {owes : SenderPc → Nat}
  {senders : Sender → SenderPc}

/-- With anyone asleep, there is no more for the sleepers than threads that are up and notifications
that are still to be given. -/
def Matched (asleep : Finset Waiter) (available : Nat) (up : WaiterPc → Nat)
    (waiters : Waiter → WaiterPc) (owes : SenderPc → Nat) (senders : Sender → SenderPc) : Prop :=
  ∃ awake pending, Total up waiters awake ∧ Total owes senders pending ∧
    (asleep = ∅ ∨ available ≤ awake + pending)

namespace Matched

theorem start (nobody : ∀ waiter, up (waiters waiter) = 0) (silent : ∀ sender, owes (senders sender) = 0) :
    Matched ∅ available up waiters owes senders :=
  ⟨0, 0, .zero nobody, .zero silent, .inl rfl⟩

/-- With nobody up and no notification to come, there is nothing for a sleeper. -/
theorem eq_zero (matched : Matched asleep available up waiters owes senders)
    (nobody : ∀ waiter, up (waiters waiter) = 0) (silent : ∀ sender, owes (senders sender) = 0)
    {sleeper : Waiter} (sleeps : sleeper ∈ asleep) : available = 0 := by
  obtain ⟨awake, pending, isAwake, isPending, rfl | enough⟩ := matched
  · cases sleeps
  · rw [isAwake.eq_zero nobody, isPending.eq_zero silent] at enough
    exact Nat.le_zero.mp enough

/-- What there is for the sleepers changes with a thread that is up, or with a sleeper that is none. -/
theorem waiter [DecidableEq Waiter] (matched : Matched asleep available up waiters owes senders)
    {thread : Waiter} {pc : WaiterPc}
    (enough : (asleep = ∅ → after = ∅) ∧ left + up (waiters thread) ≤ available + up pc ∨ left = 0) :
    Matched after left up (Function.update waiters thread pc) owes senders := by
  obtain ⟨awake, pending, isAwake, isPending, covers⟩ := matched
  obtain ⟨awake', isAwake', moved⟩ := isAwake.move thread pc
  refine ⟨awake', pending, isAwake', isPending, ?_⟩
  obtain ⟨fewer, less⟩ | nothing := enough
  · obtain nobody | covered := covers
    · exact .inl (fewer nobody)
    · exact .inr (by omega)
  · exact .inr (by omega)

/-- What there is for the sleepers grows with a notification that is to come. -/
theorem sender [DecidableEq Sender] (matched : Matched asleep available up waiters owes senders)
    {thread : Sender} {pc : SenderPc} (less : left + owes (senders thread) ≤ available + owes pc) :
    Matched asleep left up waiters owes (Function.update senders thread pc) := by
  obtain ⟨awake, pending, isAwake, isPending, covers⟩ := matched
  obtain ⟨pending', isPending', moved⟩ := isPending.move thread pc
  exact ⟨awake, pending', isAwake, isPending', covers.imp_right fun covered => by omega⟩

/-- A notification finds nobody asleep. -/
theorem notifyNone [DecidableEq Sender] (matched : Matched asleep available up waiters owes senders)
    {thread : Sender} {pc : SenderPc} (nobody : asleep = ∅) :
    Matched asleep available up waiters owes (Function.update senders thread pc) := by
  obtain ⟨awake, pending, isAwake, isPending, _⟩ := matched
  obtain ⟨pending', isPending', _⟩ := isPending.move thread pc
  exact ⟨awake, pending', isAwake, isPending', .inl nobody⟩

/-- A notification gets a sleeper up. -/
theorem notifySome [DecidableEq Waiter] [DecidableEq Sender]
    (matched : Matched asleep available up waiters owes senders) {thread : Sender} {pc : SenderPc}
    {sleeper : Waiter} {seat : WaiterPc} (sleeps : sleeper ∈ asleep)
    (moved : owes (senders thread) + up (waiters sleeper) ≤ owes pc + up seat) :
    Matched after available up (Function.update waiters sleeper seat) owes
      (Function.update senders thread pc) := by
  obtain ⟨awake, pending, isAwake, isPending, rfl | covered⟩ := matched
  · cases sleeps
  · obtain ⟨awake', isAwake', gained⟩ := isAwake.move sleeper seat
    obtain ⟨pending', isPending', given⟩ := isPending.move thread pc
    exact ⟨awake', pending', isAwake', isPending', .inr (by omega)⟩

end Matched

end Matched

end BTool.Foundation
