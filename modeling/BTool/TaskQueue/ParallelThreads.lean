import BTool.Foundation.CondVar
import BTool.TaskQueue.ParallelTaskQueue

/-! Producers and workers around a `ParallelTaskQueue`, with `m_mtx` and the condition
variables.

`wait(lock, predicate)` tests the predicate under the lock and, where it fails, releases
the lock and falls asleep in one go. The test and the falling asleep are two steps: a
notification is given without the lock and may come between them. Nobody wakes up unless
notified. A lock is released with the last thing that is done under it. -/

namespace BTool.TaskQueue.ParallelTaskQueue

open BTool.Foundation

/-- Where a thread is in a wait. -/
inductive WaitPc where
  | lock
  /-- At the predicate, with the lock. -/
  | test
  /-- About to fall asleep, with the lock. -/
  | sleep
  /-- Asleep, or woken and at the lock again. -/
  | asleep
deriving DecidableEq

structure Threads (F Q W : Type) where
  sections : State F Q W
  mtx : Option (Q ⊕ W)
  place : Q ⊕ W → WaitPc
  notFull : CondVar Q
  notEmpty : CondVar W

inductive ThreadAction (F Q W : Type) where
  | callAdd (producer : Q) (func : TaskItem F)
  | callPop (worker : W)
  /-- A step outside of the wait and the notification. -/
  | step (thread : Q ⊕ W)
  | wait (thread : Q ⊕ W)
  | notifyNotEmpty (producer : Q) (woken : Option W)
  | notifyNotFull (worker : W) (woken : Option Q)

variable {F Q W : Type} [DecidableEq Q] [DecidableEq W]

namespace State

/-- The step of a thread. -/
def go (state : State F Q W) : Q ⊕ W → Option (State F Q W)
  | .inl producer => state.next (.add producer)
  | .inr worker => state.next (.pop worker)

/-- What each thread is up to. -/
def phase (state : State F Q W) : Q ⊕ W → Phase :=
  Sum.elim (fun producer => (state.adding producer).phase) (fun worker => (state.popping worker).phase)

/-- What the predicate of a thread's wait says of a queue that has not been stopped. -/
def ready (state : State F Q W) : Q ⊕ W → Bool
  | .inl _ => state.tasks.notFull
  | .inr _ => state.tasks.notEmpty

end State

namespace Threads

def init (maxTaskCount : UInt64) : Threads F Q W :=
  { sections := .init maxTaskCount, mtx := none, place := fun _ => .lock, notFull := .empty,
    notEmpty := .empty }

abbrev tasks (threads : Threads F Q W) : ParallelTaskQueue F := threads.sections.tasks

def Asleep (threads : Threads F Q W) : Q ⊕ W → Prop
  | .inl producer => producer ∈ threads.notFull.waiters
  | .inr worker => worker ∈ threads.notEmpty.waiters

instance (threads : Threads F Q W) (thread : Q ⊕ W) : Decidable (threads.Asleep thread) := by
  cases thread <;> unfold Asleep <;> infer_instance

def fallAsleep (threads : Threads F Q W) : Q ⊕ W → Threads F Q W
  | .inl producer => { threads with notFull := threads.notFull.wait producer }
  | .inr worker => { threads with notEmpty := threads.notEmpty.wait worker }

def moveTo (threads : Threads F Q W) (thread : Q ⊕ W) (pc : WaitPc) : Threads F Q W :=
  { threads with place := Function.update threads.place thread pc }

/-- Take the lock, or wait until it is free. -/
def lock (threads : Threads F Q W) (thread : Q ⊕ W) : Option (Threads F Q W) :=
  match threads.mtx with
  | none => some ({ threads with mtx := some thread }.moveTo thread .test)
  | some _ => none

/-- Who has the lock once the thread has given it back. -/
def released (threads : Threads F Q W) (thread : Q ⊕ W) : Option (Q ⊕ W) :=
  if threads.mtx = some thread then none else threads.mtx

def unlock (threads : Threads F Q W) (thread : Q ⊕ W) : Threads F Q W :=
  { threads with mtx := threads.released thread }

/-- What a thread does next in its wait. -/
def wait (keepsLock : Bool) (threads : Threads F Q W) (thread : Q ⊕ W) : Option (Threads F Q W) :=
  match threads.place thread with
  | .lock => threads.lock thread
  | .test =>
    match threads.sections.go thread with
    | some sections =>
      let mtx := if keepsLock && thread.isLeft then threads.mtx else threads.released thread
      some ({ threads with sections, mtx }.moveTo thread .lock)
    | none => some (threads.moveTo thread .sleep)
  | .sleep => some (((threads.unlock thread).moveTo thread .asleep).fallAsleep thread)
  | .asleep => if threads.Asleep thread then none else threads.lock thread

/-- One step. `add_task` of `SingleThreadParallelTaskQueue` keeps the lock until it returns,
that of `ParallelTaskQueue` gives it back after its wait. -/
def next (keepsLock : Bool) (threads : Threads F Q W) :
    ThreadAction F Q W → Option (Threads F Q W)
  | .callAdd producer func =>
    (threads.sections.next (.callAdd producer func)).map fun sections => { threads with sections }
  | .callPop worker =>
    (threads.sections.next (.callPop worker)).map fun sections => { threads with sections }
  | .step thread =>
    if threads.sections.phase thread = .waiting ∨ threads.sections.phase thread = .notifying then none
    else (threads.sections.go thread).map fun sections =>
      if sections.phase thread = .outside then { threads with sections }.unlock thread
      else { threads with sections }
  | .wait thread =>
    if threads.sections.phase thread = .waiting then threads.wait keepsLock thread else none
  | .notifyNotEmpty producer woken =>
    if threads.sections.phase (.inl producer) = .notifying then do
      let notEmpty ← threads.notEmpty.notifyOne woken
      let sections ← threads.sections.next (.add producer)
      return { threads with sections, notEmpty }.unlock (.inl producer)
    else none
  | .notifyNotFull worker woken =>
    if threads.sections.phase (.inr worker) = .notifying then do
      let notFull ← threads.notFull.notifyOne woken
      let sections ← threads.sections.next (.pop worker)
      return { threads with sections, notFull }
    else none

end Threads

/-- The move of a thread, by its side. -/
inductive Move (queue : ParallelTaskQueue F) :
    Q ⊕ W → Phase → ParallelTaskQueue F → Phase → Prop where
  | add {producer : Q} {first second : Phase} {after : ParallelTaskQueue F}
      (move : AddMove queue first after second) : Move queue (.inl producer) first after second
  | pop {worker : W} {first second : Phase} {after : ParallelTaskQueue F}
      (move : PopMove queue first after second) : Move queue (.inr worker) first after second

omit [DecidableEq Q] [DecidableEq W] in
theorem Move.of_waiting {queue after : ParallelTaskQueue F} {thread : Q ⊕ W} {phase : Phase}
    (move : Move queue thread .waiting after phase) : after = queue ∧ phase = .acting := by
  rcases move with move | move <;> cases move <;> exact ⟨rfl, rfl⟩

omit [DecidableEq Q] [DecidableEq W] in
theorem Move.of_notifying {queue after : ParallelTaskQueue F} {thread : Q ⊕ W} {phase : Phase}
    (move : Move queue thread .notifying after phase) :
    after = queue ∧ (phase = .outside ∨ (thread.isRight = true ∧ phase = .executing)) := by
  rcases move with move | move <;> cases move <;> simp

omit [DecidableEq Q] [DecidableEq W] in
/-- A producer that has not enqueued has left the queue as it was. -/
theorem Move.eq_of_add {queue after : ParallelTaskQueue F} {producer : Q} {first second : Phase}
    (move : Move queue (.inl producer : Q ⊕ W) first after second) (silent : second ≠ .notifying) :
    after = queue := by
  rcases move with move | _
  cases move <;> first | rfl | exact absurd rfl silent

omit [DecidableEq Q] [DecidableEq W] in
theorem Move.bstop_eq {queue after : ParallelTaskQueue F} {thread : Q ⊕ W}
    {first second : Phase} (move : Move queue thread first after second) : after.bstop = queue.bstop := by
  rcases move with move | move
  · exact move.bstop_eq
  · exact move.bstop_eq

omit [DecidableEq Q] [DecidableEq W] in
/-- Only a thread that acts comes to act or to notify. -/
theorem Move.acting_of {queue after : ParallelTaskQueue F} {thread : Q ⊕ W}
    {first second : Phase} (move : Move queue thread first after second) (elsewhere : first ≠ .waiting)
    (acts : second = .acting ∨ second = .notifying) : first = .acting := by
  rcases move with move | move <;> cases move <;> simp at acts elsewhere ⊢

namespace State

variable {state after : State F Q W} {producer : Q} {worker : W} {func : TaskItem F}
  {thread : Q ⊕ W}

theorem phase_moveAdd (tasks : ParallelTaskQueue F) (stage : AddStage F) :
    (state.moveAdd producer tasks stage).phase =
      Function.update state.phase (.inl producer) stage.phase := by
  funext thread
  rcases thread with other | worker
  · by_cases same : other = producer
    · subst same
      simp [phase, moveAdd]
    · simp [phase, moveAdd, same]
  · simp [phase, moveAdd]

theorem phase_movePop (tasks : ParallelTaskQueue F) (stage : PopStage F) :
    (state.movePop worker tasks stage).phase =
      Function.update state.phase (.inr worker) stage.phase := by
  funext thread
  rcases thread with producer | other
  · simp [phase, movePop]
  · by_cases same : other = worker
    · subst same
      simp [phase, movePop]
    · simp [phase, movePop, same]

theorem callAdd_phase (taken : state.next (.callAdd producer func) = some after) :
    state.phase (.inl producer) = .outside ∧ after.tasks = state.tasks ∧
      after.phase = Function.update state.phase (.inl producer) .entering := by
  obtain ⟨here, rfl⟩ := callAdd_cases taken
  exact ⟨by simp [phase, here, AddStage.phase], rfl, phase_moveAdd _ _⟩

theorem callPop_phase (taken : state.next (.callPop worker) = some after) :
    state.phase (.inr worker) = .outside ∧ after.tasks = state.tasks ∧
      after.phase = Function.update state.phase (.inr worker) .entering := by
  obtain ⟨here, rfl⟩ := callPop_cases taken
  exact ⟨by simp [phase, here, PopStage.phase], rfl, phase_movePop _ _⟩

theorem go_cases (opened : state.tasks.bstop = false) (stepped : state.go thread = some after) :
    ∃ phase, Move state.tasks thread (state.phase thread) after.tasks phase ∧
      after.phase = Function.update state.phase thread phase := by
  rcases thread with producer | worker
  · obtain ⟨tasks, stage, move, rfl⟩ := add_cases stepped
    exact ⟨stage.phase, .add (addTask_move opened move), phase_moveAdd _ _⟩
  · obtain ⟨tasks, stage, move, rfl⟩ := pop_cases stepped
    exact ⟨stage.phase, .pop (popTask_move opened move), phase_movePop _ _⟩

/-- A thread stays in its wait exactly while its predicate fails. -/
theorem go_eq_none (opened : state.tasks.bstop = false) (waits : state.phase thread = .waiting) :
    state.go thread = none ↔ state.ready thread = false := by
  rcases thread with producer | worker
  · cases here : state.adding producer <;>
      simp [phase, here, AddStage.phase] at waits
    simp [go, next, here, addTask, opened, ready]
  · cases here : state.popping worker <;>
      simp [phase, here, PopStage.phase] at waits
    simp [go, next, here, popTask, opened, ready]

end State

namespace Threads

variable {threads after : Threads F Q W} {thread other : Q ⊕ W} {keepsLock : Bool}

theorem mtx_unlock (different : other ≠ thread) (holds : threads.mtx = some other) :
    (threads.unlock thread).mtx = some other := by
  simp [unlock, released, holds, different]

theorem asleep_fallAsleep : (threads.fallAsleep thread).Asleep other ↔
    other = thread ∨ threads.Asleep other := by
  rcases thread with producer | worker <;> rcases other with producer' | worker' <;>
    simp [fallAsleep, Asleep]

@[simp] theorem sections_fallAsleep : (threads.fallAsleep thread).sections = threads.sections := by
  cases thread <;> rfl

@[simp] theorem tasks_fallAsleep : (threads.fallAsleep thread).tasks = threads.tasks := by
  cases thread <;> rfl

@[simp] theorem place_fallAsleep : (threads.fallAsleep thread).place = threads.place := by
  cases thread <;> rfl

@[simp] theorem mtx_fallAsleep : (threads.fallAsleep thread).mtx = threads.mtx := by
  cases thread <;> rfl

/-- What a step does while the queue has not been stopped. -/
inductive Change (keepsLock : Bool) (threads : Threads F Q W) :
    ThreadAction F Q W → Threads F Q W → Prop where
  | callAdd (producer : Q) (func : TaskItem F) (sections : State F Q W)
      (was : threads.sections.phase (.inl producer) = .outside)
      (same : sections.tasks = threads.tasks)
      (now : sections.phase = Function.update threads.sections.phase (.inl producer) .entering) :
      Change keepsLock threads (.callAdd producer func) { threads with sections }
  | callPop (worker : W) (sections : State F Q W)
      (was : threads.sections.phase (.inr worker) = .outside)
      (same : sections.tasks = threads.tasks)
      (now : sections.phase = Function.update threads.sections.phase (.inr worker) .entering) :
      Change keepsLock threads (.callPop worker) { threads with sections }
  | step (thread : Q ⊕ W) (sections : State F Q W) (phase : Phase)
      (unwaiting : threads.sections.phase thread ≠ .waiting)
      (silent : threads.sections.phase thread ≠ .notifying) (inside : phase ≠ .outside)
      (move : Move threads.tasks thread (threads.sections.phase thread) sections.tasks phase)
      (now : sections.phase = Function.update threads.sections.phase thread phase) :
      Change keepsLock threads (.step thread) { threads with sections }
  | quit (thread : Q ⊕ W) (sections : State F Q W)
      (unwaiting : threads.sections.phase thread ≠ .waiting)
      (silent : threads.sections.phase thread ≠ .notifying)
      (move : Move threads.tasks thread (threads.sections.phase thread) sections.tasks .outside)
      (now : sections.phase = Function.update threads.sections.phase thread .outside) :
      Change keepsLock threads (.step thread) ({ threads with sections }.unlock thread)
  | lock (thread : Q ⊕ W) (waits : threads.sections.phase thread = .waiting)
      (free : threads.mtx = none) (place : threads.place thread = .lock ∨
        (threads.place thread = .asleep ∧ ¬ threads.Asleep thread)) :
      Change keepsLock threads (.wait thread)
        ({ threads with mtx := some thread }.moveTo thread .test)
  | enter (thread : Q ⊕ W) (sections : State F Q W)
      (waits : threads.sections.phase thread = .waiting) (place : threads.place thread = .test)
      (ready : threads.sections.ready thread = true) (same : sections.tasks = threads.tasks)
      (now : sections.phase = Function.update threads.sections.phase thread .acting) :
      Change keepsLock threads (.wait thread)
        ({ threads with
            sections
            mtx := if keepsLock && thread.isLeft then threads.mtx else threads.released thread }.moveTo
          thread .lock)
  | fail (thread : Q ⊕ W) (waits : threads.sections.phase thread = .waiting)
      (place : threads.place thread = .test) (unready : threads.sections.ready thread = false) :
      Change keepsLock threads (.wait thread) (threads.moveTo thread .sleep)
  | sleep (thread : Q ⊕ W) (waits : threads.sections.phase thread = .waiting)
      (place : threads.place thread = .sleep) :
      Change keepsLock threads (.wait thread)
        (((threads.unlock thread).moveTo thread .asleep).fallAsleep thread)
  | notifyNotEmpty (producer : Q) (woken : Option W) (notEmpty : CondVar W) (sections : State F Q W)
      (was : threads.sections.phase (.inl producer) = .notifying)
      (notified : threads.notEmpty.notifyOne woken = some notEmpty)
      (same : sections.tasks = threads.tasks)
      (now : sections.phase = Function.update threads.sections.phase (.inl producer) .outside) :
      Change keepsLock threads (.notifyNotEmpty producer woken)
        ({ threads with sections, notEmpty }.unlock (.inl producer))
  | notifyNotFull (worker : W) (woken : Option Q) (notFull : CondVar Q) (sections : State F Q W)
      (phase : Phase) (was : threads.sections.phase (.inr worker) = .notifying)
      (notified : threads.notFull.notifyOne woken = some notFull)
      (same : sections.tasks = threads.tasks) (after : phase = .outside ∨ phase = .executing)
      (now : sections.phase = Function.update threads.sections.phase (.inr worker) phase) :
      Change keepsLock threads (.notifyNotFull worker woken) { threads with sections, notFull }

/-- A thread that passes its wait finds its predicate true, and acts next. -/
private theorem pass_cases {sections : State F Q W} (opened : threads.tasks.bstop = false)
    (waits : threads.sections.phase thread = .waiting)
    (stepped : threads.sections.go thread = some sections) :
    threads.sections.ready thread = true ∧ sections.tasks = threads.tasks ∧
      sections.phase = Function.update threads.sections.phase thread .acting := by
  have ready : threads.sections.ready thread = true := by
    by_contra unready
    have stays := (State.go_eq_none opened waits).mpr (by simpa using unready)
    simp [stays] at stepped
  obtain ⟨phase, move, now⟩ := State.go_cases opened stepped
  rw [waits] at move
  obtain ⟨same, rfl⟩ := move.of_waiting
  exact ⟨ready, same, now⟩

theorem next_change {action : ThreadAction F Q W} (opened : threads.tasks.bstop = false)
    (taken : threads.next keepsLock action = some after) : Change keepsLock threads action after := by
  cases action with
  | callAdd producer func =>
    obtain ⟨sections, called, rfl⟩ := Option.map_eq_some_iff.mp taken
    obtain ⟨was, same, now⟩ := State.callAdd_phase called
    exact .callAdd producer func sections was same now
  | callPop worker =>
    obtain ⟨sections, called, rfl⟩ := Option.map_eq_some_iff.mp taken
    obtain ⟨was, same, now⟩ := State.callPop_phase called
    exact .callPop worker sections was same now
  | step thread =>
    simp only [next] at taken
    split at taken
    · cases taken
    rename_i elsewhere
    obtain ⟨unwaiting, silent⟩ := not_or.mp elsewhere
    obtain ⟨sections, stepped, rfl⟩ := Option.map_eq_some_iff.mp taken
    obtain ⟨phase, move, now⟩ := State.go_cases opened stepped
    split
    · rename_i left
      obtain rfl : phase = .outside := by simpa [now] using left
      exact .quit thread sections unwaiting silent move now
    · rename_i inside
      exact .step thread sections phase unwaiting silent (by simpa [now] using inside) move now
  | wait thread =>
    simp only [next] at taken
    split at taken
    swap
    · cases taken
    rename_i waits
    simp only [wait] at taken
    split at taken
    · rename_i place
      simp only [lock] at taken
      split at taken <;> cases taken
      rename_i free
      exact .lock thread waits free (.inl place)
    · rename_i place
      split at taken
      · rename_i sections stepped
        obtain ⟨ready, same, now⟩ := pass_cases opened waits stepped
        cases taken
        exact .enter thread sections waits place ready same now
      · rename_i stays
        cases taken
        exact .fail thread waits place ((State.go_eq_none opened waits).mp stays)
    · rename_i place
      cases taken
      exact .sleep thread waits place
    · rename_i place
      split at taken
      · cases taken
      · rename_i awake
        simp only [lock] at taken
        split at taken <;> cases taken
        rename_i free
        exact .lock thread waits free (.inr ⟨place, awake⟩)
  | notifyNotEmpty producer woken =>
    simp only [next] at taken
    split at taken
    swap
    · cases taken
    rename_i was
    obtain ⟨notEmpty, notified, rest⟩ := Option.bind_eq_some_iff.mp taken
    obtain ⟨sections, stepped, same⟩ := Option.bind_eq_some_iff.mp rest
    cases same
    have stepped' : threads.sections.go (.inl producer) = some sections := stepped
    obtain ⟨phase, move, now⟩ := State.go_cases opened stepped'
    rw [was] at move
    obtain ⟨same, rfl | ⟨right, _⟩⟩ := move.of_notifying
    · exact .notifyNotEmpty producer woken notEmpty sections was notified same now
    · cases right
  | notifyNotFull worker woken =>
    simp only [next] at taken
    split at taken
    swap
    · cases taken
    rename_i was
    obtain ⟨notFull, notified, rest⟩ := Option.bind_eq_some_iff.mp taken
    obtain ⟨sections, stepped, same⟩ := Option.bind_eq_some_iff.mp rest
    cases same
    have stepped' : threads.sections.go (.inr worker) = some sections := stepped
    obtain ⟨phase, move, now⟩ := State.go_cases opened stepped'
    rw [was] at move
    obtain ⟨same, final⟩ := move.of_notifying
    exact .notifyNotFull worker woken notFull sections phase was notified same
      (final.imp_right And.right) now

/-- The thread has the lock. -/
def Holds (keepsLock : Bool) (threads : Threads F Q W) (thread : Q ⊕ W) : Prop :=
  threads.place thread = .test ∨ threads.place thread = .sleep ∨
    (keepsLock = true ∧ thread.isLeft = true ∧
      (threads.sections.phase thread = .acting ∨ threads.sections.phase thread = .notifying))

/-- The queue is open, sleepers are asleep in their waits, and who has the lock holds it. -/
structure Wired (keepsLock : Bool) (threads : Threads F Q W) : Prop where
  opened : threads.tasks.bstop = false
  asleep : ∀ thread, threads.Asleep thread → threads.place thread = .asleep
  waiting : ∀ thread, threads.place thread ≠ .lock → threads.sections.phase thread = .waiting
  holder : ∀ thread, threads.Holds keepsLock thread → threads.mtx = some thread

omit [DecidableEq Q] [DecidableEq W] in
theorem init_wired (maxTaskCount : UInt64) :
    Wired keepsLock (init maxTaskCount : Threads F Q W) where
  opened := rfl
  asleep := by
    rintro (producer | worker) sleeps <;> simp [init, Asleep, CondVar.empty] at sleeps
  waiting := by
    intro thread elsewhere
    exact absurd rfl elsewhere
  holder := by
    intro thread holds
    rcases thread with producer | worker <;>
      simp [Holds, init, State.init, State.phase, AddStage.phase] at holds

omit [DecidableEq Q] [DecidableEq W] in
/-- A thread that is not in a wait is nowhere in one. -/
theorem Wired.place_eq_lock (wired : Wired keepsLock threads)
    (elsewhere : threads.sections.phase thread ≠ .waiting) : threads.place thread = .lock := by
  by_contra inside
  exact elsewhere (wired.waiting thread inside)

omit [DecidableEq Q] [DecidableEq W] in
theorem Wired.alone (wired : Wired keepsLock threads) (holds : threads.Holds keepsLock thread)
    (others : threads.Holds keepsLock other) : thread = other := by
  have same := (wired.holder thread holds).symm.trans (wired.holder other others)
  exact Option.some.inj same

/-- A thread acts outside of its wait. -/
private theorem Wired.act (wired : Wired keepsLock threads) {phase : Phase}
    (elsewhere : threads.sections.phase thread ≠ .waiting)
    (opened : after.tasks.bstop = false)
    (now : after.sections.phase = Function.update threads.sections.phase thread phase)
    (place : after.place = threads.place) (fewer : ∀ other, after.Asleep other → threads.Asleep other)
    (others : ∀ other, other ≠ thread → threads.mtx = some other → after.mtx = some other)
    (own : keepsLock = true → thread.isLeft = true → phase = .acting ∨ phase = .notifying →
      after.mtx = some thread) : Wired keepsLock after where
  opened := opened
  asleep := fun other sleeps => place ▸ wired.asleep other (fewer other sleeps)
  waiting := by
    intro other inside
    rw [place] at inside
    have apart : other ≠ thread := by
      rintro rfl
      exact inside (wired.place_eq_lock elsewhere)
    rw [now, Function.update_of_ne apart]
    exact wired.waiting other inside
  holder := by
    intro other holds
    unfold Holds at holds
    rw [place, now] at holds
    by_cases here : other = thread
    · subst here
      simp only [wired.place_eq_lock elsewhere, Function.update_self, reduceCtorEq, false_or] at holds
      exact own holds.1 holds.2.1 holds.2.2
    · rw [Function.update_of_ne here] at holds
      exact others other here (wired.holder other holds)

/-- A thread moves on within its wait. -/
private theorem Wired.move (wired : Wired keepsLock threads) {pc : WaitPc}
    (waits : threads.sections.phase thread = .waiting)
    (sections : after.sections = threads.sections)
    (now : after.place = Function.update threads.place thread pc)
    (awake : ∀ other, after.Asleep other → threads.Asleep other ∨ (other = thread ∧ pc = .asleep))
    (sleeps : pc = .asleep ∨ ¬ threads.Asleep thread)
    (others : ∀ other, other ≠ thread → threads.mtx = some other → after.mtx = some other)
    (own : pc = .test ∨ pc = .sleep → after.mtx = some thread) : Wired keepsLock after where
  opened := by
    have same := wired.opened
    rwa [tasks, ← sections] at same
  asleep := by
    intro other asleep
    rw [now]
    rcases awake other asleep with before | ⟨rfl, rfl⟩
    · by_cases here : other = thread
      · subst here
        rcases sleeps with rfl | up
        · simp
        · exact absurd before up
      · rw [Function.update_of_ne here]
        exact wired.asleep other before
    · simp
  waiting := by
    intro other inside
    rw [sections]
    by_cases here : other = thread
    · rw [here]
      exact waits
    · rw [now, Function.update_of_ne here] at inside
      exact wired.waiting other inside
  holder := by
    intro other holds
    unfold Holds at holds
    rw [sections, now] at holds
    by_cases here : other = thread
    · subst here
      simp only [waits, Function.update_self, reduceCtorEq, or_self, and_false, or_false] at holds
      exact own holds
    · rw [Function.update_of_ne here] at holds
      exact others other here (wired.holder other holds)

private theorem Wired.enter (wired : Wired keepsLock threads) {sections : State F Q W}
    (waits : threads.sections.phase thread = .waiting) (place : threads.place thread = .test)
    (same : sections.tasks = threads.tasks)
    (now : sections.phase = Function.update threads.sections.phase thread .acting)
    (place' : after.place = Function.update threads.place thread .lock)
    (sections' : after.sections = sections) (sleepers : ∀ other, after.Asleep other → threads.Asleep other)
    (own : keepsLock = true → thread.isLeft = true → after.mtx = some thread) :
    Wired keepsLock after where
  opened := by
    rw [tasks, sections', same]
    exact wired.opened
  asleep := by
    intro other sleeps
    have before := wired.asleep other (sleepers other sleeps)
    have apart : other ≠ thread := by
      rintro rfl
      simp [place] at before
    rw [place', Function.update_of_ne apart]
    exact before
  waiting := by
    intro other inside
    have apart : other ≠ thread := by
      rintro rfl
      simp [place'] at inside
    rw [place', Function.update_of_ne apart] at inside
    rw [sections', now, Function.update_of_ne apart]
    exact wired.waiting other inside
  holder := by
    intro other holds
    unfold Holds at holds
    rw [place', sections', now] at holds
    by_cases here : other = thread
    · subst here
      simp only [Function.update_self, reduceCtorEq, false_or] at holds
      exact own holds.1 holds.2.1
    · rw [Function.update_of_ne here, Function.update_of_ne here] at holds
      exact absurd (wired.alone holds (.inl place)) here

theorem Wired.step {action : ThreadAction F Q W} (wired : Wired keepsLock threads)
    (change : Change keepsLock threads action after) : Wired keepsLock after := by
  have opened := wired.opened
  cases change with
  | callAdd producer func sections was same now =>
    refine wired.act (by simp [was]) ?_ now rfl (fun _ => id) (fun _ _ => id) (by simp)
    exact (congrArg bstop same).trans opened
  | callPop worker sections was same now =>
    refine wired.act (by simp [was]) ?_ now rfl (fun _ => id) (fun _ _ => id) (by simp)
    exact (congrArg bstop same).trans opened
  | step thread sections phase unwaiting silent inside move now =>
    refine wired.act unwaiting (move.bstop_eq.trans opened) now rfl (fun _ => id) (fun _ _ => id) ?_
    intro keeps left acts
    exact wired.holder thread (.inr (.inr ⟨keeps, left, .inl (move.acting_of unwaiting acts)⟩))
  | quit thread sections unwaiting silent move now =>
    refine wired.act unwaiting (move.bstop_eq.trans opened) now rfl (fun _ => id) ?_ (by simp)
    exact fun other apart holds => mtx_unlock apart holds
  | lock thread waits free place =>
    refine wired.move waits rfl rfl (fun other sleeps => .inl sleeps) ?_ ?_ (fun _ => rfl)
    · right
      intro sleeps
      have there := wired.asleep thread sleeps
      rcases place with locking | ⟨_, up⟩
      · simp [there] at locking
      · exact up sleeps
    · intro other _ holds
      simp [free] at holds
  | enter thread sections waits place ready same now =>
    have held := wired.holder thread (.inl place)
    refine wired.enter waits place same now rfl rfl (fun _ => id) fun keeps left => ?_
    simpa [moveTo, keeps, left] using held
  | fail thread waits place unready =>
    have held := wired.holder thread (.inl place)
    refine wired.move waits rfl rfl (fun other sleeps => .inl sleeps) ?_ (fun _ _ => id) (fun _ => held)
    right
    intro sleeps
    simp [wired.asleep thread sleeps] at place
  | sleep thread waits place =>
    have held := wired.holder thread (.inr (.inl place))
    refine wired.move waits (by simp [moveTo, unlock]) (by simp [moveTo, unlock]) ?_ (.inl rfl) ?_ (by simp)
    · intro other sleeps
      rcases asleep_fallAsleep.mp sleeps with rfl | before
      · exact .inr ⟨rfl, rfl⟩
      · exact .inl before
    · intro other apart holds
      exact absurd (Option.some.inj (holds.symm.trans held)) apart
  | notifyNotEmpty producer woken notEmpty sections was notified same now =>
    have elsewhere : threads.sections.phase (.inl producer) ≠ .waiting := by simp [was]
    refine wired.act elsewhere ((congrArg bstop same).trans opened) now rfl ?_ ?_ (by simp)
    · rintro (other | other) sleeps
      · exact sleeps
      · exact CondVar.notifyOne_subset notified sleeps
    · exact fun other apart holds => mtx_unlock apart holds
  | notifyNotFull worker woken notFull sections phase was notified same final now =>
    have elsewhere : threads.sections.phase (.inr worker) ≠ .waiting := by simp [was]
    refine wired.act elsewhere ((congrArg bstop same).trans opened) now rfl ?_ (fun _ _ => id) (by simp)
    · rintro (other | other) sleeps
      · exact CondVar.notifyOne_subset notified sleeps
      · exact sleeps

end Threads

end BTool.TaskQueue.ParallelTaskQueue
