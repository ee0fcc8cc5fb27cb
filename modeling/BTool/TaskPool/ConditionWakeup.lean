import Mathlib.Data.Fintype.Basic
import BTool.TaskPool.ConditionRotateSerialTaskPool

/-! Wake-ups of the workers of a `ConditionRotateSerialTaskPool`.

`add_task` enqueues and notifies without the mutex, so its notification may come after a
worker has found its queue empty and before it has fallen asleep; and since all workers
sleep on one condition variable, it may wake the worker of another queue. -/

namespace BTool.TaskPool.ConditionRotateSerialTaskPool

open BTool.Foundation BTool.TaskQueue

/-- The queue for which a caller has still to notify. -/
def CallerPc.notifying {P F : Type} : CallerPc P F → Option Nat
  | .notifyOne lane _ => some lane
  | _ => none

variable {P F C : Type} {pool after : ConditionRotateSerialTaskPool P F C} {lane thread : Nat}
  {action : Action P F C} {actions : List (Action P F C)}

/-- The worker sleeps although its queue holds tasks, no notification is on its way to a worker,
and no `add_task` has still to notify. -/
structure Stuck (pool : ConditionRotateSerialTaskPool P F C) (thread : Nat) : Prop where
  sleeps : thread ∈ pool.readyCv.waiters
  nonempty : (pool.lanes.queues thread).items ≠ []
  delivered : ∀ other < pool.threadNum, pool.worker other = .asleep → other ∈ pool.readyCv.waiters
  announced : ∀ caller, (pool.caller caller).notifying = none

instance [Fintype C] [DecidableEq P] [DecidableEq F] (pool : ConditionRotateSerialTaskPool P F C)
    (thread : Nat) : Decidable (pool.Stuck thread) :=
  decidable_of_iff (thread ∈ pool.readyCv.waiters ∧ (pool.lanes.queues thread).items ≠ [] ∧
      (∀ other < pool.threadNum, pool.worker other = .asleep → other ∈ pool.readyCv.waiters) ∧
        ∀ caller, (pool.caller caller).notifying = none)
    ⟨fun ⟨sleeps, nonempty, delivered, announced⟩ => ⟨sleeps, nonempty, delivered, announced⟩,
      fun stuck => ⟨stuck.sleeps, stuck.nonempty, stuck.delivered, stuck.announced⟩⟩

/-- The worker does not sleep, and is not about to. -/
def Up (pool : ConditionRotateSerialTaskPool P F C) (thread : Nat) : Prop :=
  thread ∉ pool.readyCv.waiters ∧ pool.worker thread ≠ .sleep

instance (pool : ConditionRotateSerialTaskPool P F C) (thread : Nat) : Decidable (pool.Up thread) := by
  unfold Up
  infer_instance

/-- A notification wakes the worker of the queue that it is for, or that worker is up, or the
queue is empty again, or another caller has still to notify for it. -/
def Lossless (pool : ConditionRotateSerialTaskPool P F C) : Action P F C → Prop
  | .notifyOne caller woken =>
    ∀ lane ∈ (pool.caller caller).notifying, woken = some lane ∨ pool.Up lane ∨
      (pool.lanes.queues lane).items = [] ∨
        ∃ other, other ≠ caller ∧ (pool.caller other).notifying = some lane
  | _ => True

instance [Fintype C] [DecidableEq C] [DecidableEq P] [DecidableEq F]
    (pool : ConditionRotateSerialTaskPool P F C) (action : Action P F C) :
    Decidable (Lossless pool action) := by
  induction action using Action.casesOn <;> unfold Lossless <;> infer_instance

/-- A queue with tasks has its worker up, or a caller that is about to notify for it. -/
def Attended (pool : ConditionRotateSerialTaskPool P F C) (lane : Nat) : Prop :=
  (pool.lanes.queues lane).items ≠ [] →
    pool.Up lane ∨ ∃ caller, (pool.caller caller).notifying = some lane

structure Watched (pool : ConditionRotateSerialTaskPool P F C) : Prop where
  asleep : ∀ thread ∈ pool.readyCv.waiters, pool.worker thread = .asleep
  attended : ∀ lane, pool.Attended lane

theorem Attended.keep (attended : pool.Attended lane)
    (fewer : (after.lanes.queues lane).items ≠ [] → (pool.lanes.queues lane).items ≠ [])
    (up : pool.Up lane → after.Up lane)
    (announced : ∀ caller, (pool.caller caller).notifying = some lane →
      (after.caller caller).notifying = some lane) : after.Attended lane := by
  intro nonempty
  rcases attended (fewer nonempty) with isUp | ⟨caller, notifies⟩
  · exact .inl (up isUp)
  · exact .inr ⟨caller, announced caller notifies⟩

private theorem fewer_popTask (lanes : Lanes P F) (thread : Nat)
    (nonempty : ((lanes.popTask thread).queues lane).items ≠ []) : (lanes.queues lane).items ≠ [] := by
  rcases Lanes.popTask_cases lanes thread with ⟨_, same⟩ | ⟨entry, rest, dequeued, same⟩
  · rwa [same] at nonempty
  · by_cases here : lane = thread
    · subst here
      simp [(Journal.dequeue_cases dequeued).1]
    · simpa [same, here] using nonempty

/-- A worker that is up after its step leaves every queue attended. -/
theorem Watched.worker_moved (watched : Watched pool) {pc : WorkerPc} {lanes : Lanes P F}
    {readyMtx : Option (C ⊕ Nat)} (awake : thread ∉ pool.readyCv.waiters) (up : pc ≠ .sleep)
    (fewer : ∀ lane, (lanes.queues lane).items ≠ [] → (pool.lanes.queues lane).items ≠ []) :
    Watched ({ pool with lanes, readyMtx }.moveWorker thread pc) where
  asleep := by
    intro other sleeps
    have apart : other ≠ thread := by
      rintro rfl
      exact awake sleeps
    simpa [moveWorker, apart] using watched.asleep other sleeps
  attended := by
    intro lane
    by_cases here : lane = thread
    · subst here
      intro _
      exact .inl ⟨awake, by simpa [moveWorker] using up⟩
    · refine (watched.attended lane).keep (fewer lane) (fun isUp => ⟨isUp.1, ?_⟩) (fun _ => id)
      simpa [moveWorker, here] using isUp.2

theorem Watched.worker_step (watched : Watched pool) (taken : pool.threadWorker thread = some after) :
    Watched after := by
  have elsewhere (awake : pool.worker thread ≠ .asleep) : thread ∉ pool.readyCv.waiters :=
    fun sleeps => awake (watched.asleep thread sleeps)
  cases place : pool.worker thread with
  | lock =>
    simp only [threadWorker, place, lockWorker] at taken
    split at taken <;> cases taken
    exact watched.worker_moved (elsewhere (by simp [place])) (by simp) (fun _ => id)
  | test =>
    simp only [threadWorker, place, Option.some.injEq] at taken
    subst taken
    have awake := elsewhere (by simp [place])
    by_cases sleepy : pool.testPc thread = .sleep
    · have nothing : (pool.lanes.queues thread).items = [] := by
        unfold testPc at sleepy
        split_ifs at sleepy
        assumption
      refine ⟨fun other sleeps => ?_, fun lane => ?_⟩
      · have apart : other ≠ thread := by
          rintro rfl
          exact awake sleeps
        simpa [moveWorker, apart] using watched.asleep other sleeps
      · by_cases here : lane = thread
        · subst here
          intro nonempty
          exact absurd nothing (fewer_popTask pool.lanes lane nonempty)
        · refine (watched.attended lane).keep (fewer_popTask pool.lanes thread)
            (fun isUp => ⟨isUp.1, ?_⟩) (fun _ => id)
          simpa [moveWorker, here] using isUp.2
    · exact watched.worker_moved awake sleepy fun lane => fewer_popTask pool.lanes thread
  | sleep =>
    simp only [threadWorker, place, Option.some.injEq] at taken
    subst taken
    refine ⟨fun other sleeps => ?_, fun lane => ?_⟩
    · rcases CondVar.waiters_wait.mp sleeps with rfl | before
      · simp [moveWorker]
      · by_cases same : other = thread
        · simp [moveWorker, same]
        · simpa [moveWorker, same] using watched.asleep other before
    · refine (watched.attended lane).keep id (fun isUp => ?_) (fun _ => id)
      have apart : lane ≠ thread := by
        rintro rfl
        exact isUp.2 place
      refine ⟨fun sleeps => ?_, by simpa [moveWorker, apart] using isUp.2⟩
      rcases CondVar.waiters_wait.mp sleeps with here | before
      · exact apart here
      · exact isUp.1 before
  | asleep =>
    simp only [threadWorker, place, lockWorker] at taken
    split at taken
    · cases taken
    · rename_i awake
      split at taken <;> cases taken
      exact watched.worker_moved awake (by simp) (fun _ => id)
  | executing =>
    simp only [threadWorker, place, Option.some.injEq] at taken
    subst taken
    exact watched.worker_moved (elsewhere (by simp [place])) (by simp) (fun _ => id)
  | popTask =>
    simp only [threadWorker, place, Option.some.injEq] at taken
    subst taken
    refine watched.worker_moved (elsewhere (by simp [place])) ?_ fun lane => fewer_popTask pool.lanes thread
    split <;> simp
  | stopTest =>
    simp only [threadWorker, place, Option.some.injEq] at taken
    subst taken
    refine watched.worker_moved (elsewhere (by simp [place])) ?_ (fun _ => id)
    split <;> simp
  | returned => simp [threadWorker, place] at taken

variable [DecidableEq C]

/-- A caller that was not about to notify moves on. -/
theorem Watched.caller_moved (watched : Watched pool) {caller : C} {pc : CallerPc P F} {stopping : Bool}
    {lanes : Lanes P F} {readyMtx : Option (C ⊕ Nat)} {stops : Stops}
    (silent : (pool.caller caller).notifying = none)
    (fewer : ∀ lane, (lanes.queues lane).items ≠ [] → (pool.lanes.queues lane).items ≠ []) :
    Watched ({ pool with stopping, lanes, readyMtx, stops }.moveCaller caller pc) where
  asleep := watched.asleep
  attended := by
    intro lane
    refine (watched.attended lane).keep (fewer lane) id fun other notifies => ?_
    have apart : other ≠ caller := by
      rintro rfl
      simp [silent] at notifies
    simpa [moveCaller, apart] using notifies

theorem Watched.call_step (watched : Watched pool) {caller : C} (taken : pool.callStep caller = some after) :
    Watched after := by
  cases place : pool.caller caller with
  | idle => simp [callStep, place] at taken
  | addTask lane prop func =>
    simp only [callStep, place, Option.some.injEq] at taken
    subst taken
    refine ⟨watched.asleep, fun other => ?_⟩
    by_cases here : other = lane
    · subst here
      intro _
      exact .inr ⟨caller, by simp [moveCaller, CallerPc.notifying]⟩
    · refine (watched.attended other).keep (by simp [moveCaller, Lanes.addTask, here]) id ?_
      intro another notifies
      have apart : another ≠ caller := by
        rintro rfl
        simp [place, CallerPc.notifying] at notifies
      simpa [moveCaller, apart] using notifies
  | notifyOne lane entry => simp [callStep, place] at taken
  | returnTrue entry =>
    simp only [callStep, place, Option.some.injEq] at taken
    subst taken
    refine watched.caller_moved (by simp [place, CallerPc.notifying]) fun lane nonempty => ?_
    split at nonempty <;> exact nonempty
  | stopLock bwait =>
    simp only [callStep, place] at taken
    split at taken <;> cases taken
    exact watched.caller_moved (by simp [place, CallerPc.notifying]) (fun _ => id)
  | storeStop bwait =>
    simp only [callStep, place, Option.some.injEq] at taken
    subst taken
    exact watched.caller_moved (by simp [place, CallerPc.notifying]) (fun _ => id)
  | clear lane =>
    simp only [callStep, place, Option.some.injEq] at taken
    subst taken
    have silent : (pool.caller caller).notifying = none := by simp [place, CallerPc.notifying]
    split
    · refine watched.caller_moved silent fun other nonempty => ?_
      by_cases here : other = lane
      · simp [Lanes.clear, Journal.clear, here] at nonempty
      · simpa [Lanes.clear, here] using nonempty
    · exact watched.caller_moved silent (fun _ => id)
  | notifyAll =>
    simp only [callStep, place, Option.some.injEq] at taken
    subst taken
    refine ⟨fun other sleeps => by simp [moveCaller, CondVar.empty] at sleeps, fun lane => ?_⟩
    refine (watched.attended lane).keep id (fun isUp => ⟨by simp [moveCaller, CondVar.empty], isUp.2⟩) ?_
    intro other notifies
    have apart : other ≠ caller := by
      rintro rfl
      simp [place, CallerPc.notifying] at notifies
    simpa [moveCaller, apart] using notifies
  | join thread =>
    have silent : (pool.caller caller).notifying = none := by simp [place, CallerPc.notifying]
    simp only [callStep, place] at taken
    split at taken
    · split at taken <;> cases taken
      exact watched.caller_moved silent (fun _ => id)
    · cases taken
      exact watched.caller_moved silent (fun _ => id)

theorem Watched.notify_step (watched : Watched pool) {caller : C} {entry : Entry P F} {woken : Option Nat}
    {readyCv : CondVar Nat} (place : pool.caller caller = .notifyOne lane entry)
    (notified : pool.readyCv.notifyOne woken = some readyCv)
    (lossless : Lossless pool (.notifyOne caller woken)) :
    Watched ({ pool with readyCv }.moveCaller caller (.returnTrue entry)) := by
  have fewer := CondVar.notifyOne_subset notified
  refine ⟨fun thread sleeps => watched.asleep thread (fewer sleeps), fun other => ?_⟩
  have up (isUp : pool.Up other) : ({ pool with readyCv }.moveCaller caller (.returnTrue entry)).Up other :=
    ⟨fun sleeps => isUp.1 (fewer sleeps), isUp.2⟩
  by_cases here : other = lane
  · subst here
    intro nonempty
    have mine : (pool.caller caller).notifying = some other := by simp [place, CallerPc.notifying]
    rcases lossless other mine with rfl | isUp | nothing | ⟨another, apart, notifies⟩
    · rcases CondVar.notifyOne_cases notified with ⟨none, _⟩ | ⟨sleeper, same, asleep, erased⟩
      · cases none
      · obtain rfl := Option.some.inj same
        have asleepPc := watched.asleep _ asleep
        exact .inl ⟨by simp [moveCaller, erased], by simp [moveCaller, asleepPc]⟩
    · exact .inl (up isUp)
    · exact absurd nothing nonempty
    · exact .inr ⟨another, by simpa [moveCaller, apart] using notifies⟩
  · refine (watched.attended other).keep id up fun another notifies => ?_
    have apart : another ≠ caller := by
      rintro rfl
      simp only [place, CallerPc.notifying, Option.some.injEq] at notifies
      exact here notifies.symm
    simpa [moveCaller, apart] using notifies

theorem Watched.step [DecidableEq P] (watched : Watched pool) (lossless : Lossless pool action)
    (taken : pool.next action = some after) : Watched after := by
  cases action with
  | addTask caller prop func =>
    simp only [next] at taken
    split at taken
    · rename_i idle
      split at taken <;> cases taken
      · exact watched
      · exact watched.caller_moved (by simp [idle, CallerPc.notifying]) (fun _ => id)
    · cases taken
  | stop caller bwait =>
    simp only [next] at taken
    split at taken <;> cases taken
    rename_i idle
    exact watched.caller_moved (by simp [idle, CallerPc.notifying]) (fun _ => id)
  | caller caller => exact watched.call_step taken
  | notifyOne caller woken =>
    simp only [next] at taken
    split at taken
    · rename_i lane entry place
      obtain ⟨readyCv, notified, rfl⟩ := Option.map_eq_some_iff.mp taken
      exact watched.notify_step place notified lossless
    · cases taken
  | worker thread => exact watched.worker_step taken

variable [DecidableEq P] {coreNum threadNum : Nat} {value : P → Nat} {props : List P}

omit [DecidableEq C] in
theorem construct_watched (built : construct coreNum threadNum value props = some pool) : Watched pool := by
  simp only [construct] at built
  split at built <;> cases built
  refine ⟨fun thread sleeps => by simp [CondVar.empty] at sleeps, fun lane nonempty => ?_⟩
  exact absurd rfl nonempty

/-- No worker sleeps on tasks in a run whose notifications are all lossless. -/
theorem no_worker_stuck (built : construct coreNum threadNum value props = some pool)
    (path : Path (Guarded (Taken next) Lossless) pool actions after) (thread : Nat) :
    ¬ after.Stuck thread := by
  intro stuck
  have watched := path.invariant Watched
    (fun _ _ _ watched ⟨lossless, taken⟩ => watched.step lossless taken) (construct_watched built)
  rcases watched.attended thread stuck.nonempty with up | ⟨caller, notifies⟩
  · exact up.1 stuck.sleeps
  · simp [stuck.announced caller] at notifies

/-- A pool of one thread for each of two properties. -/
def twoPool : ConditionRotateSerialTaskPool Nat Nat (Fin 1) where
  threadNum := 2
  propIndex := rotatePropIndex id [0, 1] 2
  stopping := false
  lanes := .construct
  readyMtx := none
  readyCv := .empty
  worker := fun thread => if thread < 2 then .lock else .returned
  caller := fun _ => .idle
  stops := .before

/-- Both workers fall asleep, and then a task is added for the first. -/
def addAsleep (woken : Nat) : List (Action Nat Nat (Fin 1)) :=
  List.flatten
    [List.replicate 3 (.worker 0), List.replicate 3 (.worker 1), [.addTask 0 0 (some 50), .caller 0],
      [.notifyOne 0 (some woken), .caller 0]]

theorem not_stuck_right_worker : ∃ pool, Path (Guarded (Taken next) Lossless) twoPool (addAsleep 0) pool ∧
    (pool.lanes.queues 0).items ≠ [] ∧ ∀ thread, ¬ pool.Stuck thread := by
  have runs : ∃ pool ∈ exec (checked next Lossless) twoPool (addAsleep 0),
      (pool.lanes.queues 0).items ≠ [] := by
    decide
  obtain ⟨pool, ends, nonempty⟩ := runs
  have path := Path.of_checked ends
  have built : construct 2 2 id [0, 1] = some twoPool := rfl
  exact ⟨pool, path, nonempty, no_worker_stuck built path⟩

/-- The notification wakes the other worker, which finds nothing and falls asleep again. -/
theorem stuck_wrong_worker :
    ∃ pool : ConditionRotateSerialTaskPool Nat Nat (Fin 1),
      construct 2 2 id [0, 1] = some twoPool ∧
        Path (Taken next) twoPool (addAsleep 1 ++ List.replicate 3 (.worker 1)) pool ∧ pool.Stuck 0 := by
  have runs : ∃ pool ∈ exec next twoPool (addAsleep 1 ++ List.replicate 3 (.worker 1)), pool.Stuck 0 := by
    decide
  obtain ⟨pool, ends, stuck⟩ := runs
  exact ⟨pool, rfl, exec_eq_some_iff.mp ends, stuck⟩

/-- One worker is about to fall asleep when the task is added for it. -/
def addTooSoon : List (Action Nat Nat (Fin 1)) :=
  List.flatten
    [List.replicate 2 (.worker 0), [.addTask 0 0 (some 50), .caller 0, .notifyOne 0 none],
      [.caller 0, .worker 0]]

/-- The notification finds nobody asleep. -/
theorem stuck_before_asleep :
    ∃ pool : ConditionRotateSerialTaskPool Nat Nat (Fin 1),
      Path (Taken next) twoPool addTooSoon pool ∧ pool.Stuck 0 := by
  have runs : ∃ pool ∈ exec next twoPool addTooSoon, pool.Stuck 0 := by
    decide
  obtain ⟨pool, ends, stuck⟩ := runs
  exact ⟨pool, exec_eq_some_iff.mp ends, stuck⟩

end BTool.TaskPool.ConditionRotateSerialTaskPool
