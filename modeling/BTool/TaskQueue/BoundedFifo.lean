import Mathlib.Data.List.ReduceOption
import Mathlib.Data.Multiset.AddSub
import Mathlib.Tactic.Abel
import BTool.Foundation.Monitor
import BTool.TaskQueue.TaskQueue

/-! A `TaskQueue` is first in, first out, keeps within its maximum, and loses no wake-up. -/

set_option linter.dupNamespace false

namespace BTool.TaskQueue.TaskQueue

open BTool.Foundation

variable {F Q W : Type}

theorem size_eq_zero {queue : TaskQueue F} : queue.size = 0 ↔ queue.notEmpty = false := by
  simp [size, notEmpty]

/-- What is left of the maximum. -/
def room (queue : TaskQueue F) : Nat := queue.maxTaskCount.toNat - queue.size

theorem room_eq_zero {queue : TaskQueue F} (full : queue.notFull = false) : queue.room = 0 := by
  simp only [notFull, Bool.or_eq_false_iff, decide_eq_false_iff_not] at full
  exact Nat.sub_eq_zero_of_le (Nat.le_of_not_lt full.2)

theorem notFull_of_room {queue : TaskQueue F} (limited : queue.maxTaskCount ≠ 0) :
    queue.notFull = true ↔ queue.room ≠ 0 := by
  simp only [notFull, limited, decide_false, Bool.false_or, decide_eq_true_eq, room]
  omega

namespace AddStage

/-- With the lock. -/
def inside : AddStage F → Bool
  | .test _ | .sleep _ | .push _ => true
  | _ => false

def isAsleep : AddStage F → Bool
  | .asleep _ => true
  | _ => false

/-- On the way to a place in the queue. -/
def up : AddStage F → Nat
  | .lock _ | .test _ | .push _ => 1
  | _ => 0

/-- A notification is still to be given. -/
def owes : AddStage F → Nat
  | .notify => 1
  | _ => 0

theorem owes_wake (stage : AddStage F) : stage.wake.owes = stage.owes := by cases stage <;> rfl

/-- What the stage says of the queue while the lock is held. -/
def Agrees (queue : TaskQueue F) : AddStage F → Prop
  | .sleep _ => queue.notFull = false
  | .push _ => queue.notFull = true
  | _ => True

theorem agrees_of_outside {queue : TaskQueue F} {stage : AddStage F} (outside : stage.inside = false) :
    stage.Agrees queue := by
  cases stage <;> trivial

end AddStage

namespace PopStage

def inside : PopStage F → Bool
  | .stopTest | .test | .sleep | .take => true
  | _ => false

def isAsleep : PopStage F → Bool
  | .asleep => true
  | _ => false

/-- On the way to a task. -/
def up : PopStage F → Nat
  | .lock | .stopTest | .test | .woken | .take => 1
  | _ => 0

def owes : PopStage F → Nat
  | .notify _ => 1
  | _ => 0

theorem owes_wake (stage : PopStage F) : stage.wake.owes = stage.owes := by cases stage <;> rfl

def Agrees (queue : TaskQueue F) : PopStage F → Prop
  | .sleep => queue.notEmpty = false
  | .take => queue.notEmpty = true
  | _ => True

theorem agrees_of_outside {queue : TaskQueue F} {stage : PopStage F} (outside : stage.inside = false) :
    stage.Agrees queue := by
  cases stage <;> trivial

/-- The function that has been popped and not called yet. -/
def task : PopStage F → Option F
  | .notify popTask => popTask
  | .invoke popTask => popTask
  | _ => none

theorem task_wake (stage : PopStage F) : stage.wake.task = stage.task := by cases stage <;> rfl

def held (stage : PopStage F) : Multiset F := stage.task.toList

end PopStage

namespace Threads

/-- Everybody who is in a call sleeps or executes a task, although there is a task for a sleeping
worker, or a place for a sleeping producer. -/
structure Stuck (threads : Threads F Q W) : Prop where
  producers : ∀ producer, threads.adding producer = .outside ∨ ∃ func, threads.adding producer = .asleep func
  workers : ∀ worker, threads.popping worker = .outside ∨ threads.popping worker = .asleep ∨
    ∃ task, threads.popping worker = .executing task
  blocked : (threads.queue.notEmpty = true ∧ ∃ worker, threads.popping worker = .asleep) ∨
    (threads.queue.notFull = true ∧ ∃ producer func, threads.adding producer = .asleep func)

variable [DecidableEq Q] [DecidableEq W] {threads after : Threads F Q W} {action : Action F Q W}
  {producer : Q} {worker : W} {maxTaskCount : UInt64}

/-- What a step does while the queue has not been stopped. -/
inductive Change (threads : Threads F Q W) : Action F Q W → Threads F Q W → Prop where
  | callAdd (producer : Q) (func : TaskItem F) (was : threads.adding producer = .outside) :
      Change threads (.callAdd producer func) (threads.moveAdd producer (.stopTest func))
  | enterAdd (producer : Q) (func : TaskItem F) (was : threads.adding producer = .stopTest func) :
      Change threads (.add producer) (threads.moveAdd producer (.lock func))
  | lockAdd (producer : Q) (func : TaskItem F) (was : threads.adding producer = .lock func)
      (free : threads.mtx = none) :
      Change threads (.add producer) ({ threads with mtx := some (.inl producer) }.moveAdd producer (.test func))
  | passAdd (producer : Q) (func : TaskItem F) (was : threads.adding producer = .test func)
      (room : threads.queue.notFull = true) :
      Change threads (.add producer) (threads.moveAdd producer (.push func))
  | failAdd (producer : Q) (func : TaskItem F) (was : threads.adding producer = .test func)
      (full : threads.queue.notFull = false) :
      Change threads (.add producer) (threads.moveAdd producer (.sleep func))
  | sleepAdd (producer : Q) (func : TaskItem F) (was : threads.adding producer = .sleep func) :
      Change threads (.add producer)
        ({ threads with notFull := threads.notFull.wait producer }.unlock.moveAdd producer (.asleep func))
  | push (producer : Q) (func : TaskItem F) (was : threads.adding producer = .push func) :
      Change threads (.add producer)
        ({ threads with
          queue := { threads.queue with queue := threads.queue.queue ++ [func] }
          accepted := threads.accepted ++ [func] }.unlock.moveAdd producer .notify)
  | callPop (worker : W) (was : threads.popping worker = .outside) :
      Change threads (.callPop worker) (threads.movePop worker .lock)
  | lockPop (worker : W) (was : threads.popping worker = .lock) (free : threads.mtx = none) :
      Change threads (.pop worker) ({ threads with mtx := some (.inr worker) }.movePop worker .stopTest)
  | enterPop (worker : W) (was : threads.popping worker = .stopTest) :
      Change threads (.pop worker) (threads.movePop worker .test)
  | passPop (worker : W) (was : threads.popping worker = .test) (some : threads.queue.notEmpty = true) :
      Change threads (.pop worker) (threads.movePop worker .take)
  | failPop (worker : W) (was : threads.popping worker = .test) (none : threads.queue.notEmpty = false) :
      Change threads (.pop worker) (threads.movePop worker .sleep)
  | sleepPop (worker : W) (was : threads.popping worker = .sleep) :
      Change threads (.pop worker)
        ({ threads with notEmpty := threads.notEmpty.wait worker }.unlock.movePop worker .asleep)
  | lockWoken (worker : W) (was : threads.popping worker = .woken) (free : threads.mtx = none) :
      Change threads (.pop worker) ({ threads with mtx := some (.inr worker) }.movePop worker .test)
  | leave (worker : W) (was : threads.popping worker = .take) (nothing : threads.queue.queue = []) :
      Change threads (.pop worker) (threads.unlock.movePop worker .outside)
  | take (worker : W) (func : TaskItem F) (rest : List (TaskItem F))
      (was : threads.popping worker = .take) (first : threads.queue.queue = func :: rest) :
      Change threads (.pop worker)
        ({ threads with
          queue := { threads.queue with queue := rest }
          taken := threads.taken ++ [func] }.unlock.movePop worker (.notify func))
  | skip (worker : W) (was : threads.popping worker = .invoke none) :
      Change threads (.pop worker) (threads.movePop worker .outside)
  | start (worker : W) (task : F) (was : threads.popping worker = .invoke (some task)) :
      Change threads (.pop worker)
        ({ threads with started := threads.started ++ [task] }.movePop worker (.executing task))
  | finish (worker : W) (task : F) (was : threads.popping worker = .executing task) :
      Change threads (.pop worker) (threads.movePop worker .outside)
  | notifyNotEmpty (producer : Q) (woken : Option W) (notEmpty : CondVar W)
      (was : threads.adding producer = .notify) (notified : threads.notEmpty.notifyOne woken = some notEmpty) :
      Change threads (.notifyNotEmpty producer woken)
        (({ threads with notEmpty }.wakeWorker woken).moveAdd producer .outside)
  | notifyNotFull (worker : W) (woken : Option Q) (notFull : CondVar Q) (popTask : TaskItem F)
      (was : threads.popping worker = .notify popTask)
      (notified : threads.notFull.notifyOne woken = some notFull) :
      Change threads (.notifyNotFull worker woken)
        (({ threads with notFull }.wakeProducer woken).movePop worker (.invoke popTask))

theorem addTask_change (opened : threads.queue.bstop = false)
    (stepped : threads.addTask producer = some after) : Change threads (.add producer) after := by
  unfold addTask at stepped
  split at stepped
  · rename_i func was
    rw [opened, if_neg Bool.false_ne_true] at stepped
    cases stepped
    exact .enterAdd producer func was
  · rename_i func was
    unfold lock at stepped
    split at stepped
    · rename_i free
      cases stepped
      exact .lockAdd producer func was free
    · cases stepped
  · rename_i func was
    rw [opened, Bool.false_or] at stepped
    cases stepped
    split
    · rename_i room
      exact .passAdd producer func was room
    · rename_i full
      exact .failAdd producer func was (by simpa using full)
  · rename_i func was
    cases stepped
    exact .sleepAdd producer func was
  · rename_i func was
    rw [if_neg (by rw [opened]; exact Bool.false_ne_true)] at stepped
    cases stepped
    exact .push producer func was
  · cases stepped

theorem popTask_change (opened : threads.queue.bstop = false)
    (stepped : threads.popTask worker = some after) : Change threads (.pop worker) after := by
  unfold popTask at stepped
  split at stepped
  · rename_i was
    unfold lock at stepped
    split at stepped
    · rename_i free
      cases stepped
      exact .lockPop worker was free
    · cases stepped
  · rename_i was
    rw [opened, if_neg Bool.false_ne_true] at stepped
    cases stepped
    exact .enterPop worker was
  · rename_i was
    rw [opened, Bool.false_or] at stepped
    cases stepped
    split
    · rename_i some
      exact .passPop worker was some
    · rename_i none
      exact .failPop worker was (by simpa using none)
  · rename_i was
    cases stepped
    exact .sleepPop worker was
  · rename_i was
    unfold lock at stepped
    split at stepped
    · rename_i free
      cases stepped
      exact .lockWoken worker was free
    · cases stepped
  · rename_i was
    split at stepped
    · rename_i nothing
      cases stepped
      exact .leave worker was nothing
    · rename_i func rest first
      cases stepped
      exact .take worker func rest was first
  · rename_i was
    cases stepped
    exact .skip worker was
  · rename_i task was
    cases stepped
    exact .start worker task was
  · rename_i task was
    cases stepped
    exact .finish worker task was
  · cases stepped

theorem next_change (opened : threads.queue.bstop = false) (taken : threads.next action = some after) :
    Change threads action after := by
  cases action with
  | callAdd producer func =>
    simp only [next] at taken
    split at taken
    · rename_i was
      cases taken
      exact .callAdd producer func was
    · cases taken
  | callPop worker =>
    simp only [next] at taken
    split at taken
    · rename_i was
      cases taken
      exact .callPop worker was
    · cases taken
  | add producer => exact addTask_change opened taken
  | pop worker => exact popTask_change opened taken
  | notifyNotEmpty producer woken =>
    simp only [next] at taken
    split at taken
    · rename_i was
      obtain ⟨notEmpty, notified, rfl⟩ := Option.map_eq_some_iff.mp taken
      exact .notifyNotEmpty producer woken notEmpty was notified
    · cases taken
  | notifyNotFull worker woken =>
    simp only [next] at taken
    split at taken
    · rename_i popTask was
      obtain ⟨notFull, notified, rfl⟩ := Option.map_eq_some_iff.mp taken
      exact .notifyNotFull worker woken notFull popTask was notified
    · cases taken

/-- Who has the lock. -/
def inside (threads : Threads F Q W) : Q ⊕ W → Bool :=
  Sum.elim (fun producer => (threads.adding producer).inside) fun worker => (threads.popping worker).inside

/-- The queue is open and within its maximum, one thread at most is under the lock, the sleepers are
asleep in their waits, and the stages agree with the queue. -/
structure Wired (maxTaskCount : UInt64) (threads : Threads F Q W) : Prop where
  opened : threads.queue.bstop = false
  capacity : threads.queue.maxTaskCount = maxTaskCount
  within : maxTaskCount ≠ 0 → threads.queue.size ≤ maxTaskCount.toNat
  exclusive : Exclusive threads.inside threads.mtx
  addSeated : Seated threads.notFull AddStage.isAsleep threads.adding
  popSeated : Seated threads.notEmpty PopStage.isAsleep threads.popping
  addAgrees : ∀ producer, (threads.adding producer).Agrees threads.queue
  popAgrees : ∀ worker, (threads.popping worker).Agrees threads.queue

omit [DecidableEq Q] [DecidableEq W] in
theorem init_wired (maxTaskCount : UInt64) : Wired maxTaskCount (init maxTaskCount : Threads F Q W) where
  opened := rfl
  capacity := rfl
  within := fun _ => Nat.zero_le _
  exclusive := by
    rintro (producer | worker) inside <;> cases inside
  addSeated := fun producer => iff_of_false (Finset.notMem_empty producer) Bool.false_ne_true
  popSeated := fun worker => iff_of_false (Finset.notMem_empty worker) Bool.false_ne_true
  addAgrees := fun _ => trivial
  popAgrees := fun _ => trivial

theorem inside_moveAdd {stage : AddStage F} : (threads.moveAdd producer stage).inside =
    Function.update threads.inside (.inl producer) stage.inside := by
  funext thread
  rcases thread with other | worker
  · by_cases same : other = producer
    · subst same
      simp [inside, moveAdd]
    · simp [inside, moveAdd, same]
  · simp [inside, moveAdd]

theorem inside_movePop {stage : PopStage F} : (threads.movePop worker stage).inside =
    Function.update threads.inside (.inr worker) stage.inside := by
  funext thread
  rcases thread with producer | other
  · simp [inside, movePop]
  · by_cases same : other = worker
    · subst same
      simp [inside, movePop]
    · simp [inside, movePop, same]

omit [DecidableEq Q] [DecidableEq W] in
/-- Where the queue changes, everybody but the thread that has the lock is outside of it. -/
private theorem Wired.others (wired : Wired maxTaskCount threads) {queue : TaskQueue F} (thread : Q ⊕ W)
    (locked : queue = threads.queue ∨ threads.inside thread = true) :
    (∀ producer, .inl producer ≠ thread → (threads.adding producer).Agrees queue) ∧
      ∀ worker, .inr worker ≠ thread → (threads.popping worker).Agrees queue := by
  obtain rfl | has := locked
  · exact ⟨fun producer _ => wired.addAgrees producer, fun worker _ => wired.popAgrees worker⟩
  · refine ⟨fun producer apart => ?_, fun worker apart => ?_⟩
    · refine AddStage.agrees_of_outside (Bool.not_eq_true _ ▸ fun inside => ?_)
      exact apart (wired.exclusive.alone has inside)
    · refine PopStage.agrees_of_outside (Bool.not_eq_true _ ▸ fun inside => ?_)
      exact apart (wired.exclusive.alone has inside)

/-- A producer moves. -/
private theorem Wired.add (wired : Wired maxTaskCount threads) {stage : AddStage F}
    (adding : after.adding = Function.update threads.adding producer stage)
    (popping : after.popping = threads.popping) (notEmpty : after.notEmpty = threads.notEmpty)
    (opened : after.queue.bstop = false) (capacity : after.queue.maxTaskCount = maxTaskCount)
    (within : maxTaskCount ≠ 0 → after.queue.size ≤ maxTaskCount.toNat)
    (locked : after.queue = threads.queue ∨ (threads.adding producer).inside = true)
    (exclusive : Exclusive (Function.update threads.inside (.inl producer) stage.inside) after.mtx)
    (seated : Seated after.notFull AddStage.isAsleep after.adding) (agrees : stage.Agrees after.queue) :
    Wired maxTaskCount after := by
  obtain ⟨adders, poppers⟩ := wired.others (.inl producer) locked
  have inside : after.inside = (threads.moveAdd producer stage).inside := by
    rw [Threads.inside, adding, popping]
    rfl
  refine ⟨opened, capacity, within, ?_, seated, ?_, fun other => ?_, fun worker => ?_⟩
  · rw [inside, inside_moveAdd]
    exact exclusive
  · rw [notEmpty, popping]
    exact wired.popSeated
  · rw [adding]
    by_cases same : other = producer
    · rw [same, Function.update_self]
      exact agrees
    · rw [Function.update_of_ne same]
      exact adders other fun here => same (Sum.inl.inj here)
  · rw [popping]
    exact poppers worker nofun

/-- A worker moves. -/
private theorem Wired.pop (wired : Wired maxTaskCount threads) {stage : PopStage F}
    (popping : after.popping = Function.update threads.popping worker stage)
    (adding : after.adding = threads.adding) (notFull : after.notFull = threads.notFull)
    (opened : after.queue.bstop = false) (capacity : after.queue.maxTaskCount = maxTaskCount)
    (within : maxTaskCount ≠ 0 → after.queue.size ≤ maxTaskCount.toNat)
    (locked : after.queue = threads.queue ∨ (threads.popping worker).inside = true)
    (exclusive : Exclusive (Function.update threads.inside (.inr worker) stage.inside) after.mtx)
    (seated : Seated after.notEmpty PopStage.isAsleep after.popping) (agrees : stage.Agrees after.queue) :
    Wired maxTaskCount after := by
  obtain ⟨adders, poppers⟩ := wired.others (.inr worker) locked
  have inside : after.inside = (threads.movePop worker stage).inside := by
    rw [Threads.inside, adding, popping]
    rfl
  refine ⟨opened, capacity, within, ?_, ?_, seated, fun producer => ?_, fun other => ?_⟩
  · rw [inside, inside_movePop]
    exact exclusive
  · rw [notFull, adding]
    exact wired.addSeated
  · rw [adding]
    exact adders producer nofun
  · rw [popping]
    by_cases same : other = worker
    · rw [same, Function.update_self]
      exact agrees
    · rw [Function.update_of_ne same]
      exact poppers other fun here => same (Sum.inr.inj here)

/-- Nothing else changes with the move of a producer. -/
private theorem Wired.shiftAdd (wired : Wired maxTaskCount threads) {stage : AddStage F}
    (inside : stage.inside = true → (threads.adding producer).inside = true)
    (was : (threads.adding producer).isAsleep = false) (now : stage.isAsleep = false)
    (agrees : stage.Agrees threads.queue) : Wired maxTaskCount (threads.moveAdd producer stage) :=
  wired.add rfl rfl rfl wired.opened wired.capacity wired.within (.inl rfl) (wired.exclusive.keep inside)
    (wired.addSeated.keep was now) agrees

private theorem Wired.shiftPop (wired : Wired maxTaskCount threads) {stage : PopStage F}
    (inside : stage.inside = true → (threads.popping worker).inside = true)
    (was : (threads.popping worker).isAsleep = false) (now : stage.isAsleep = false)
    (agrees : stage.Agrees threads.queue) : Wired maxTaskCount (threads.movePop worker stage) :=
  wired.pop rfl rfl rfl wired.opened wired.capacity wired.within (.inl rfl) (wired.exclusive.keep inside)
    (wired.popSeated.keep was now) agrees

/-- A worker is woken. -/
private theorem Wired.wakeWorker (wired : Wired maxTaskCount threads) {notEmpty : CondVar W}
    {woken : Option W} (notified : threads.notEmpty.notifyOne woken = some notEmpty) :
    Wired maxTaskCount ({ threads with notEmpty }.wakeWorker woken) := by
  obtain ⟨rfl, _, rfl⟩ | ⟨sleeper, rfl, asleep, fewer⟩ := CondVar.notifyOne_cases notified
  · exact wired
  · have place : threads.popping sleeper = .asleep := by
      have there := (wired.popSeated sleeper).mp asleep
      cases stage : threads.popping sleeper <;> rw [stage] at there <;> first | rfl | cases there
    have moved : ({ threads with notEmpty }.wakeWorker (some sleeper)).popping =
        Function.update threads.popping sleeper .woken := by
      change Function.update threads.popping sleeper (threads.popping sleeper).wake = _
      rw [place]
      rfl
    refine wired.pop moved rfl rfl wired.opened wired.capacity wired.within (.inl rfl) ?_ ?_ trivial
    · exact wired.exclusive.keep nofun
    · rw [moved]
      exact wired.popSeated.wake fewer rfl

private theorem Wired.wakeProducer (wired : Wired maxTaskCount threads) {notFull : CondVar Q}
    {woken : Option Q} (notified : threads.notFull.notifyOne woken = some notFull) :
    Wired maxTaskCount ({ threads with notFull }.wakeProducer woken) := by
  obtain ⟨rfl, _, rfl⟩ | ⟨sleeper, rfl, asleep, fewer⟩ := CondVar.notifyOne_cases notified
  · exact wired
  · obtain ⟨func, place⟩ : ∃ func, threads.adding sleeper = .asleep func := by
      have there := (wired.addSeated sleeper).mp asleep
      cases stage : threads.adding sleeper <;> rw [stage] at there <;> first | exact ⟨_, rfl⟩ | cases there
    have moved : ({ threads with notFull }.wakeProducer (some sleeper)).adding =
        Function.update threads.adding sleeper (.lock func) := by
      change Function.update threads.adding sleeper (threads.adding sleeper).wake = _
      rw [place]
      rfl
    refine wired.add moved rfl rfl wired.opened wired.capacity wired.within (.inl rfl) ?_ ?_ trivial
    · exact wired.exclusive.keep nofun
    · rw [moved]
      exact wired.addSeated.wake fewer rfl

theorem Wired.step (wired : Wired maxTaskCount threads) (change : Change threads action after) :
    Wired maxTaskCount after := by
  cases change with
  | callAdd producer func was => exact wired.shiftAdd nofun (by rw [was]; rfl) rfl trivial
  | enterAdd producer func was => exact wired.shiftAdd nofun (by rw [was]; rfl) rfl trivial
  | lockAdd producer func was free =>
    refine wired.add rfl rfl rfl wired.opened wired.capacity wired.within (.inl rfl) ?_ ?_ trivial
    · exact (free ▸ wired.exclusive).lock
    · exact wired.addSeated.keep (by rw [was]; rfl) rfl
  | passAdd producer func was room =>
    exact wired.shiftAdd (fun _ => by rw [was]; rfl) (by rw [was]; rfl) rfl room
  | failAdd producer func was full =>
    exact wired.shiftAdd (fun _ => by rw [was]; rfl) (by rw [was]; rfl) rfl full
  | sleepAdd producer func was =>
    refine wired.add rfl rfl rfl wired.opened wired.capacity wired.within (.inl rfl) ?_ ?_ trivial
    · exact wired.exclusive.release (by simp [inside, was, AddStage.inside])
    · exact wired.addSeated.wait rfl
  | push producer func was =>
    have inside : (threads.adding producer).inside = true := by rw [was]; rfl
    refine wired.add rfl rfl rfl wired.opened wired.capacity (fun limited => ?_) (.inr inside) ?_ ?_ trivial
    · have room : threads.queue.notFull = true := by
        have agrees := wired.addAgrees producer
        rwa [was] at agrees
      rw [TaskQueue.notFull, wired.capacity] at room
      have less : threads.queue.size < maxTaskCount.toNat := by simpa [limited] using room
      change (threads.queue.queue ++ [func]).length ≤ _
      rw [List.length_append]
      exact less
    · exact wired.exclusive.release (by simpa [Threads.inside] using inside)
    · exact wired.addSeated.keep (by rw [was]; rfl) rfl
  | callPop worker was => exact wired.shiftPop nofun (by rw [was]; rfl) rfl trivial
  | lockPop worker was free =>
    refine wired.pop rfl rfl rfl wired.opened wired.capacity wired.within (.inl rfl) ?_ ?_ trivial
    · exact (free ▸ wired.exclusive).lock
    · exact wired.popSeated.keep (by rw [was]; rfl) rfl
  | enterPop worker was => exact wired.shiftPop (fun _ => by rw [was]; rfl) (by rw [was]; rfl) rfl trivial
  | passPop worker was some => exact wired.shiftPop (fun _ => by rw [was]; rfl) (by rw [was]; rfl) rfl some
  | failPop worker was none => exact wired.shiftPop (fun _ => by rw [was]; rfl) (by rw [was]; rfl) rfl none
  | sleepPop worker was =>
    refine wired.pop rfl rfl rfl wired.opened wired.capacity wired.within (.inl rfl) ?_ ?_ trivial
    · exact wired.exclusive.release (by simp [inside, was, PopStage.inside])
    · exact wired.popSeated.wait rfl
  | lockWoken worker was free =>
    refine wired.pop rfl rfl rfl wired.opened wired.capacity wired.within (.inl rfl) ?_ ?_ trivial
    · exact (free ▸ wired.exclusive).lock
    · exact wired.popSeated.keep (by rw [was]; rfl) rfl
  | leave worker was nothing =>
    refine wired.pop rfl rfl rfl wired.opened wired.capacity wired.within (.inl rfl) ?_ ?_ trivial
    · exact wired.exclusive.release (by simp [inside, was, PopStage.inside])
    · exact wired.popSeated.keep (by rw [was]; rfl) rfl
  | take worker func rest was first =>
    have inside : (threads.popping worker).inside = true := by rw [was]; rfl
    refine wired.pop rfl rfl rfl wired.opened wired.capacity (fun limited => ?_) (.inr inside) ?_ ?_ trivial
    · have within := wired.within limited
      rw [size, first] at within
      exact Nat.le_of_succ_le within
    · exact wired.exclusive.release (by simpa [Threads.inside] using inside)
    · exact wired.popSeated.keep (by rw [was]; rfl) rfl
  | skip worker was => exact wired.shiftPop nofun (by rw [was]; rfl) rfl trivial
  | start worker task was =>
    exact wired.pop rfl rfl rfl wired.opened wired.capacity wired.within (.inl rfl)
      (wired.exclusive.keep nofun) (wired.popSeated.keep (by rw [was]; rfl) rfl) trivial
  | finish worker task was => exact wired.shiftPop nofun (by rw [was]; rfl) rfl trivial
  | notifyNotEmpty producer woken notEmpty was notified =>
    refine (wired.wakeWorker notified).shiftAdd nofun ?_ rfl trivial
    cases woken <;> exact (congrArg AddStage.isAsleep was :)
  | notifyNotFull worker woken notFull popTask was notified =>
    refine (wired.wakeProducer notified).shiftPop nofun ?_ rfl trivial
    cases woken <;> exact (congrArg PopStage.isAsleep was :)

/-- What there is for the workers: the tasks. -/
abbrev Fed (threads : Threads F Q W) : Prop :=
  Matched threads.notEmpty.waiters threads.queue.size PopStage.up threads.popping AddStage.owes threads.adding

/-- What there is for the producers: the places that are left. -/
abbrev Roomy (threads : Threads F Q W) : Prop :=
  Matched threads.notFull.waiters threads.queue.room AddStage.up threads.adding PopStage.owes threads.popping

theorem wakeWorker_fed {notEmpty : CondVar W} {woken : Option W} (wired : Wired maxTaskCount threads)
    (fed : Fed threads) (was : threads.adding producer = .notify)
    (notified : threads.notEmpty.notifyOne woken = some notEmpty) :
    Fed (({ threads with notEmpty }.wakeWorker woken).moveAdd producer .outside) := by
  obtain ⟨rfl, nobody, rfl⟩ | ⟨sleeper, rfl, asleep, fewer⟩ := CondVar.notifyOne_cases notified
  · exact fed.notifyNone nobody
  · refine fed.notifySome asleep ?_
    have there := (wired.popSeated sleeper).mp asleep
    rw [was]
    cases stage : threads.popping sleeper <;> rw [stage] at there <;> try cases there
    exact Nat.le_refl _

theorem Fed.step (fed : Fed threads) (wired : Wired maxTaskCount threads)
    (change : Change threads action after) : Fed after := by
  cases change with
  | callAdd producer func was => exact fed.sender (by rw [was]; exact Nat.le_refl _)
  | enterAdd producer func was => exact fed.sender (by rw [was]; exact Nat.le_refl _)
  | lockAdd producer func was free => exact fed.sender (by rw [was]; exact Nat.le_refl _)
  | passAdd producer func was room => exact fed.sender (by rw [was]; exact Nat.le_refl _)
  | failAdd producer func was full => exact fed.sender (by rw [was]; exact Nat.le_refl _)
  | sleepAdd producer func was => exact fed.sender (by rw [was]; exact Nat.le_refl _)
  | push producer func was =>
    refine fed.sender ?_
    rw [was]
    exact Nat.le_of_eq List.length_append
  | callPop worker was => exact fed.waiter (.inl ⟨id, by rw [was]; exact Nat.le_succ _⟩)
  | lockPop worker was free => exact fed.waiter (.inl ⟨id, by rw [was]; exact Nat.le_refl _⟩)
  | enterPop worker was => exact fed.waiter (.inl ⟨id, by rw [was]; exact Nat.le_refl _⟩)
  | passPop worker was some => exact fed.waiter (.inl ⟨id, by rw [was]; exact Nat.le_refl _⟩)
  | failPop worker was none => exact fed.waiter (.inr (size_eq_zero.mpr none))
  | sleepPop worker was =>
    have agrees := wired.popAgrees worker
    rw [was] at agrees
    exact fed.waiter (.inr (size_eq_zero.mpr agrees))
  | lockWoken worker was free => exact fed.waiter (.inl ⟨id, by rw [was]; exact Nat.le_refl _⟩)
  | leave worker was nothing => exact fed.waiter (.inr (congrArg List.length nothing))
  | take worker func rest was first =>
    have fewer : threads.queue.size = rest.length + 1 := congrArg List.length first
    refine fed.waiter (.inl ⟨id, ?_⟩)
    rw [was, fewer]
    exact Nat.le_refl _
  | skip worker was => exact fed.waiter (.inl ⟨id, by rw [was]; exact Nat.le_refl _⟩)
  | start worker task was => exact fed.waiter (.inl ⟨id, by rw [was]; exact Nat.le_refl _⟩)
  | finish worker task was => exact fed.waiter (.inl ⟨id, by rw [was]; exact Nat.le_refl _⟩)
  | notifyNotEmpty producer woken notEmpty was notified => exact wakeWorker_fed wired fed was notified
  | notifyNotFull worker woken notFull popTask was notified =>
    have waked : Fed ({ threads with notFull }.wakeProducer woken) := by
      cases woken with
      | none => exact fed
      | some sleeper => exact fed.sender (by rw [AddStage.owes_wake]; exact Nat.le_refl _)
    have stays : ({ threads with notFull }.wakeProducer woken).popping worker = .notify popTask := by
      cases woken <;> exact was
    exact waked.waiter (.inl ⟨id, by rw [stays]; exact Nat.le_refl _⟩)

theorem wakeProducer_roomy {notFull : CondVar Q} {woken : Option Q} {popTask : TaskItem F}
    (wired : Wired maxTaskCount threads) (roomy : Roomy threads) (was : threads.popping worker = .notify popTask)
    (notified : threads.notFull.notifyOne woken = some notFull) :
    Roomy (({ threads with notFull }.wakeProducer woken).movePop worker (.invoke popTask)) := by
  obtain ⟨rfl, nobody, rfl⟩ | ⟨sleeper, rfl, asleep, fewer⟩ := CondVar.notifyOne_cases notified
  · exact roomy.notifyNone nobody
  · refine roomy.notifySome asleep ?_
    have there := (wired.addSeated sleeper).mp asleep
    rw [was]
    cases stage : threads.adding sleeper <;> rw [stage] at there <;> try cases there
    exact Nat.le_refl _

theorem Roomy.step (roomy : Roomy threads) (wired : Wired maxTaskCount threads)
    (change : Change threads action after) : Roomy after := by
  cases change with
  | callAdd producer func was => exact roomy.waiter (.inl ⟨id, by rw [was]; exact Nat.le_refl _⟩)
  | enterAdd producer func was => exact roomy.waiter (.inl ⟨id, by rw [was]; exact Nat.le_succ _⟩)
  | lockAdd producer func was free => exact roomy.waiter (.inl ⟨id, by rw [was]; exact Nat.le_refl _⟩)
  | passAdd producer func was room => exact roomy.waiter (.inl ⟨id, by rw [was]; exact Nat.le_refl _⟩)
  | failAdd producer func was full => exact roomy.waiter (.inr (room_eq_zero full))
  | sleepAdd producer func was =>
    have agrees := wired.addAgrees producer
    rw [was] at agrees
    exact roomy.waiter (.inr (room_eq_zero agrees))
  | push producer func was =>
    have more : (threads.queue.queue ++ [func]).length = threads.queue.size + 1 := List.length_append
    refine roomy.waiter ?_
    by_cases limited : threads.queue.maxTaskCount = 0
    · refine .inr (Nat.sub_eq_zero_of_le ?_)
      change threads.queue.maxTaskCount.toNat ≤ _
      rw [limited]
      exact Nat.zero_le _
    · have agrees := wired.addAgrees producer
      rw [was] at agrees
      have free := (notFull_of_room limited).mp agrees
      refine .inl ⟨id, ?_⟩
      rw [was]
      change threads.queue.maxTaskCount.toNat - (threads.queue.queue ++ [func]).length + 1 ≤ threads.queue.room
      rw [TaskQueue.room] at free ⊢
      omega
  | callPop worker was => exact roomy.sender (by rw [was]; exact Nat.le_refl _)
  | lockPop worker was free => exact roomy.sender (by rw [was]; exact Nat.le_refl _)
  | enterPop worker was => exact roomy.sender (by rw [was]; exact Nat.le_refl _)
  | passPop worker was some => exact roomy.sender (by rw [was]; exact Nat.le_refl _)
  | failPop worker was none => exact roomy.sender (by rw [was]; exact Nat.le_refl _)
  | sleepPop worker was => exact roomy.sender (by rw [was]; exact Nat.le_refl _)
  | lockWoken worker was free => exact roomy.sender (by rw [was]; exact Nat.le_refl _)
  | leave worker was nothing => exact roomy.sender (by rw [was]; exact Nat.le_refl _)
  | take worker func rest was first =>
    have fewer : threads.queue.size = rest.length + 1 := congrArg List.length first
    have room : threads.queue.room = threads.queue.maxTaskCount.toNat - (rest.length + 1) :=
      congrArg (threads.queue.maxTaskCount.toNat - ·) fewer
    refine roomy.sender ?_
    rw [was, room]
    change threads.queue.maxTaskCount.toNat - rest.length ≤ threads.queue.maxTaskCount.toNat - (rest.length + 1) + 1
    omega
  | skip worker was => exact roomy.sender (by rw [was]; exact Nat.le_refl _)
  | start worker task was => exact roomy.sender (by rw [was]; exact Nat.le_refl _)
  | finish worker task was => exact roomy.sender (by rw [was]; exact Nat.le_refl _)
  | notifyNotEmpty producer woken notEmpty was notified =>
    have waked : Roomy ({ threads with notEmpty }.wakeWorker woken) := by
      cases woken with
      | none => exact roomy
      | some sleeper => exact roomy.sender (by rw [PopStage.owes_wake]; exact Nat.le_refl _)
    have stays : ({ threads with notEmpty }.wakeWorker woken).adding producer = .notify := by
      cases woken <;> exact was
    exact waked.waiter (.inl ⟨id, by rw [stays]; exact Nat.le_refl _⟩)
  | notifyNotFull worker woken notFull popTask was notified => exact wakeProducer_roomy wired roomy was notified

/-- What has been accepted is in the queue or popped, and what has been popped is called or still to be
called by the worker that has popped it; a single worker calls in the order of the pushes. -/
structure Flowing (threads : Threads F Q W) : Prop where
  accepted : threads.accepted = threads.taken ++ threads.queue.queue
  called : ∃ held, Total PopStage.held threads.popping held ∧
    (threads.taken.reduceOption : Multiset F) = threads.started + held
  ordered : ∀ worker, (∀ other, other = worker) →
    threads.taken.reduceOption = threads.started ++ (threads.popping worker).task.toList

omit [DecidableEq Q] in
/-- What a worker pops or calls is added at the end. -/
private theorem Flowing.pop (flowing : Flowing threads) {stage : PopStage F} (more : List F)
    (moved : after.popping = Function.update threads.popping worker stage)
    (accepted : after.accepted = after.taken ++ after.queue.queue)
    (taken : after.taken.reduceOption = threads.taken.reduceOption ++ more)
    (started : after.started ++ stage.task.toList =
      threads.started ++ (threads.popping worker).task.toList ++ more) : Flowing after := by
  refine ⟨accepted, ?_, fun other only => ?_⟩
  · obtain ⟨held, isHeld, called⟩ := flowing.called
    obtain ⟨held', isHeld', balance⟩ := isHeld.move worker stage
    refine ⟨held', moved ▸ isHeld', ?_⟩
    have sums : (after.started : Multiset F) + stage.held =
        threads.started + (threads.popping worker).held + more := by
      have sums := congrArg Multiset.ofList started
      rw [← Multiset.coe_add, ← Multiset.coe_add, ← Multiset.coe_add] at sums
      exact sums
    have popped : (after.taken.reduceOption : Multiset F) = threads.taken.reduceOption + more := by
      rw [taken, Multiset.coe_add]
    refine add_right_cancel (b := (threads.popping worker).held) ?_
    calc (after.taken.reduceOption : Multiset F) + (threads.popping worker).held
        = threads.started + (threads.popping worker).held + more + held := by
          rw [popped, called]
          abel
      _ = after.started + stage.held + held := by rw [sums]
      _ = after.started + (held + stage.held) := by abel
      _ = after.started + held' + (threads.popping worker).held := by rw [← balance, add_assoc]
  · obtain rfl := only worker
    rw [taken, flowing.ordered worker only, moved, Function.update_self, started]

omit [DecidableEq Q] in
/-- A worker moves with what it has. -/
private theorem Flowing.shiftPop (flowing : Flowing threads) {stage : PopStage F}
    (same : stage.task = (threads.popping worker).task)
    (moved : after.popping = Function.update threads.popping worker stage)
    (kept : after.accepted = threads.accepted ∧ after.taken = threads.taken ∧ after.queue = threads.queue ∧
      after.started = threads.started) : Flowing after := by
  obtain ⟨accepted, taken, queue, started⟩ := kept
  refine flowing.pop [] moved ?_ ?_ ?_
  · rw [accepted, taken, queue, flowing.accepted]
  · rw [taken, List.append_nil]
  · rw [started, same, List.append_nil]

theorem Flowing.step (flowing : Flowing threads) (change : Change threads action after) : Flowing after := by
  obtain ⟨accepted, called, ordered⟩ := id flowing
  cases change with
  | callAdd | enterAdd | lockAdd | passAdd | failAdd | sleepAdd => exact ⟨accepted, called, ordered⟩
  | push producer func was =>
    refine ⟨?_, called, ordered⟩
    change threads.accepted ++ [func] = threads.taken ++ (threads.queue.queue ++ [func])
    rw [accepted, List.append_assoc]
  | callPop worker was | lockPop worker was | enterPop worker was | passPop worker was
  | failPop worker was | sleepPop worker was | lockWoken worker was | leave worker was | skip worker was
  | finish worker _ was => exact flowing.shiftPop (by rw [was]; rfl) rfl ⟨rfl, rfl, rfl, rfl⟩
  | take worker func rest was first =>
    refine flowing.pop func.toList rfl ?_ ?_ ?_
    · change threads.accepted = threads.taken ++ [func] ++ rest
      rw [accepted, first, List.append_assoc]
      rfl
    · cases func <;> exact List.reduceOption_append ..
    · rw [was]
      change threads.started ++ func.toList = threads.started ++ [] ++ func.toList
      rw [List.append_nil]
  | start worker task was =>
    refine flowing.pop [] rfl accepted (List.append_nil _).symm ?_
    rw [was, List.append_nil]
    exact List.append_nil _
  | notifyNotEmpty producer woken notEmpty was notified =>
    cases woken with
    | none => exact ⟨accepted, called, ordered⟩
    | some sleeper =>
      exact flowing.shiftPop (PopStage.task_wake (threads.popping sleeper)) rfl ⟨rfl, rfl, rfl, rfl⟩
  | notifyNotFull worker woken notFull popTask was notified =>
    cases woken <;> exact flowing.shiftPop (by rw [was]; rfl) rfl ⟨rfl, rfl, rfl, rfl⟩

/-- Without a maximum no producer sleeps. -/
theorem unlimited_step (unlimited : maxTaskCount = 0 → threads.notFull.waiters = ∅)
    (wired : Wired maxTaskCount threads) (change : Change threads action after) :
    maxTaskCount = 0 → after.notFull.waiters = ∅ := by
  cases change with
  | sleepAdd producer func was =>
    intro noLimit
    have agrees := wired.addAgrees producer
    rw [was] at agrees
    simp [AddStage.Agrees, TaskQueue.notFull, wired.capacity, noLimit] at agrees
  | notifyNotFull worker woken notFull popTask was notified =>
    intro noLimit
    have fewer := CondVar.notifyOne_subset notified
    rw [unlimited noLimit, Finset.subset_empty] at fewer
    cases woken <;> exact fewer
  | notifyNotEmpty producer woken => cases woken <;> exact unlimited
  | _ => exact unlimited

variable {actions : List (Action F Q W)}

theorem invariant_of_path (path : Path (Taken next) (init maxTaskCount) actions threads) :
    Wired maxTaskCount threads ∧ (maxTaskCount = 0 → threads.notFull.waiters = ∅) ∧ Fed threads ∧
      Roomy threads ∧ Flowing threads := by
  refine path.invariant (fun threads : Threads F Q W => Wired maxTaskCount threads ∧
    (maxTaskCount = 0 → threads.notFull.waiters = ∅) ∧ Fed threads ∧ Roomy threads ∧ Flowing threads) ?_ ?_
  · rintro before action after ⟨wired, unlimited, fed, roomy, flowing⟩ taken
    have change := next_change wired.opened taken
    exact ⟨wired.step change, unlimited_step unlimited wired change, fed.step wired change,
      roomy.step wired change, flowing.step change⟩
  · refine ⟨init_wired maxTaskCount, fun _ => rfl, .start (fun _ => rfl) (fun _ => rfl),
      .start (fun _ => rfl) (fun _ => rfl), rfl, ⟨0, .zero fun _ => rfl, rfl⟩, fun _ _ => rfl⟩

omit [DecidableEq Q] [DecidableEq W] in
/-- With nobody up and no notification to come, nobody sleeps for something that is there. -/
theorem not_stuck (wired : Wired maxTaskCount threads)
    (unlimited : maxTaskCount = 0 → threads.notFull.waiters = ∅) (fed : Fed threads) (roomy : Roomy threads) :
    ¬ threads.Stuck := by
  intro stuck
  have producers (producer : Q) : (threads.adding producer).up = 0 ∧ (threads.adding producer).owes = 0 := by
    obtain outside | ⟨func, asleep⟩ := stuck.producers producer
    · rw [outside]
      exact ⟨rfl, rfl⟩
    · rw [asleep]
      exact ⟨rfl, rfl⟩
  have workers (worker : W) : (threads.popping worker).up = 0 ∧ (threads.popping worker).owes = 0 := by
    obtain outside | asleep | ⟨task, executing⟩ := stuck.workers worker
    · rw [outside]
      exact ⟨rfl, rfl⟩
    · rw [asleep]
      exact ⟨rfl, rfl⟩
    · rw [executing]
      exact ⟨rfl, rfl⟩
  obtain ⟨some, worker, asleep⟩ | ⟨free, producer, func, asleep⟩ := stuck.blocked
  · have sleeps := (wired.popSeated worker).mpr (by rw [asleep]; rfl)
    have none := fed.eq_zero (fun worker => (workers worker).1) (fun producer => (producers producer).2) sleeps
    rw [size_eq_zero.mp none] at some
    cases some
  · have sleeps := (wired.addSeated producer).mpr (by rw [asleep]; rfl)
    have full := roomy.eq_zero (fun producer => (producers producer).1) (fun worker => (workers worker).2) sleeps
    have limited : threads.queue.maxTaskCount ≠ 0 := by
      rw [wired.capacity]
      intro noLimit
      rw [unlimited noLimit] at sleeps
      cases sleeps
    exact (notFull_of_room limited).mp free full

/-- In every run of `add_task` and `pop_task`: what is pushed is popped once and in the order of the pushes,
each function that is popped is called once, by the worker that has popped it, and by a single worker in the
order of the pushes; the maximum is kept; and nobody sleeps for something that is there while no call goes on
and no notification is pending. -/
theorem bounded_fifo (path : Path (Taken next) (init maxTaskCount) actions threads) :
    threads.accepted = threads.taken ++ threads.queue.queue ∧
    (∃ held, Total PopStage.held threads.popping held ∧
      (threads.taken.reduceOption : Multiset F) = threads.started + held) ∧
    (∀ worker, (∀ other, other = worker) →
      threads.taken.reduceOption = threads.started ++ (threads.popping worker).task.toList) ∧
    (maxTaskCount ≠ 0 → threads.queue.size ≤ maxTaskCount.toNat) ∧ ¬ threads.Stuck := by
  obtain ⟨wired, unlimited, fed, roomy, flowing⟩ := invariant_of_path path
  exact ⟨flowing.accepted, flowing.called, flowing.ordered, wired.within,
    not_stuck wired unlimited fed roomy⟩


/-- A place for one: the second producer sleeps until a worker has popped the first task. -/
def handOff : List (Action Nat (Fin 2) (Fin 1)) :=
  List.flatten
    [[.callAdd 0 (some 1)], List.replicate 4 (.add 0), [.notifyNotEmpty 0 none, .callAdd 1 (some 2)],
      List.replicate 4 (.add 1), [.callPop 0], List.replicate 4 (.pop 0), [.notifyNotFull 0 (some 1), .pop 0],
      List.replicate 3 (.add 1)]

theorem bounded_fifo_hand_off : ∃ threads, Path (Taken next) (init 1) handOff threads ∧
    threads.started = [1] ∧ threads.queue.queue = [some 2] ∧ threads.taken.reduceOption = [1] ∧
    ¬ threads.Stuck := by
  have runs : ∃ threads ∈ exec next (init 1) handOff, threads.started = [1] ∧
      threads.queue.queue = [some 2] ∧ (threads.popping 0).task = none := by
    decide
  obtain ⟨threads, ends, started, items, nothing⟩ := runs
  have path := exec_eq_some_iff.mp ends
  obtain ⟨_, _, ordered, _, notStuck⟩ := bounded_fifo path
  have called := ordered 0 fun other => Subsingleton.elim other 0
  rw [started, nothing] at called
  exact ⟨threads, path, started, items, called, notStuck⟩

/-- The second worker calls its function before the first one does. -/
def overtaking : List (Action Nat (Fin 1) (Fin 2)) :=
  List.flatten
    [[.callAdd 0 (some 1)], List.replicate 4 (.add 0), [.notifyNotEmpty 0 none, .callAdd 0 (some 2)],
      List.replicate 4 (.add 0), [.notifyNotEmpty 0 none, .callPop 0], List.replicate 4 (.pop 0),
      [.notifyNotFull 0 none, .callPop 1], List.replicate 4 (.pop 1), [.notifyNotFull 1 none, .pop 1, .pop 0]]

/-- A producer fills the queue, and there is no worker. -/
def abandoned : List (Action Nat (Fin 1) (Fin 0)) :=
  List.flatten
    [[.callAdd 0 (some 1)], List.replicate 4 (.add 0), [.notifyNotEmpty 0 none, .callAdd 0 (some 2)],
      List.replicate 4 (.add 0)]

/-- Two workers start their tasks in the other order, and with no worker everybody sleeps while a task waits. -/
theorem starts_in_other_order :
    (∃ threads, Path (Taken next) (init 0) overtaking threads ∧ threads.accepted = [some 1, some 2] ∧
      threads.started = [2, 1]) ∧
    ∃ threads, Path (Taken next) (init 1) abandoned threads ∧ threads.queue.queue = [some 1] ∧
      (∀ producer, producer ∈ threads.notFull.waiters) ∧ ∀ worker, worker ∈ threads.notEmpty.waiters := by
  have overtakes : ∃ threads ∈ exec next (init 0) overtaking,
      threads.accepted = [some 1, some 2] ∧ threads.started = [2, 1] := by
    decide
  have waits : ∃ threads ∈ exec next (init 1) abandoned, threads.queue.queue = [some 1] ∧
      (∀ producer, producer ∈ threads.notFull.waiters) ∧ ∀ worker, worker ∈ threads.notEmpty.waiters := by
    decide
  obtain ⟨first, firstEnds, accepted, started⟩ := overtakes
  obtain ⟨second, secondEnds, items, sleepers⟩ := waits
  exact ⟨⟨first, exec_eq_some_iff.mp firstEnds, accepted, started⟩,
    second, exec_eq_some_iff.mp secondEnds, items, sleepers⟩

end Threads

end BTool.TaskQueue.TaskQueue
