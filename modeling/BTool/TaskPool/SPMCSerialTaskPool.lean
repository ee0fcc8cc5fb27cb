import BTool.TaskPool.TaskPoolBase
import BTool.TaskQueue.SPMCSerialTaskQueue

/-! A `SerialTaskPool` over a `SPMCSerialTaskQueue`. Its `add_task` goes on in the queue once the
switch has been tested, and so does the clear of its `stop(false)`. -/

namespace BTool.TaskPool

open BTool.TaskQueue BTool.TaskQueue.SPMCSerialTaskQueue

variable {P F C : Type}

/-- The queue of a pool, where `none` stands for the thread that is in `stop` of the pool. -/
structure PoolQueue (P F C : Type) where
  state : State P F (Option C) Nat
  /-- The producer at whom the next dequeue of each worker looks. -/
  source : Nat → Option C

variable [DecidableEq P] [DecidableEq F] [DecidableEq C]

namespace SPMCSerialTaskPool

def stop (queue : PoolQueue P F C) (bwait : Bool) : PoolQueue P F C :=
  { queue with
    state := ((queue.state.moveCaller none queue.state.queue (.stop bwait)).callStep none none).getD queue.state }

def addTask (queue : PoolQueue P F C) (add : C × P × TaskItem F) : PoolQueue P F C :=
  { queue with state := queue.state.moveCaller (some add.1) queue.state.queue (.stopTest add.2.1 add.2.2) }

/-- The state in which a worker takes its next step of `pop_task`, which may be the first one. -/
def entered (queue : PoolQueue P F C) (thread : Nat) : State P F (Option C) Nat :=
  if queue.state.worker thread = .outside then queue.state.moveWorker thread queue.state.queue .clearTest
  else queue.state

/-- One step of `pop_task`. -/
def popTask (queue : PoolQueue P F C) (thread : Nat) : Option (PoolQueue P F C × Bool) :=
  ((entered queue thread).popStep thread (queue.source thread)).map fun state =>
    ({ queue with state }, decide (state.worker thread ≠ .outside))

theorem bstop_popStep {state after : State P F (Option C) Nat} {thread : Nat} {source : Option C}
    (taken : state.popStep thread source = some after) : after.queue.bstop = state.queue.bstop := by
  unfold State.popStep at taken
  split at taken
  case h_1 => cases taken
  case h_4 =>
    split at taken <;> cases taken
    rfl
  case h_5 =>
    obtain ⟨status, _, rfl⟩ := Option.map_eq_some_iff.mp taken
    split <;> rfl
  case h_6 =>
    obtain ⟨status, _, step⟩ := Option.bind_eq_some_iff.mp taken
    split at step <;> cases step <;> rfl
  case h_9 =>
    obtain ⟨status, _, rfl⟩ := Option.map_eq_some_iff.mp taken
    rfl
  case h_11 =>
    obtain ⟨status, _, rfl⟩ := Option.map_eq_some_iff.mp taken
    rfl
  all_goals
    cases taken
    rfl

theorem popTask_eq_some {queue after : PoolQueue P F C} {thread : Nat} {more : Bool}
    (popped : popTask queue thread = some (after, more)) :
    ∃ state, (entered queue thread).popStep thread (queue.source thread) = some state ∧
      after = { queue with state } ∧ (more = true ↔ state.worker thread ≠ .outside) := by
  obtain ⟨state, step, same⟩ := Option.map_eq_some_iff.mp popped
  cases same
  exact ⟨state, step, rfl, by simp⟩

instance : TQueueType (PoolQueue P F C) (C × P × TaskItem F) where
  bstop queue := queue.state.queue.bstop
  empty queue := !queue.state.queue.notEmpty
  start queue :=
    { queue with state := { queue.state with queue := { queue.state.queue with bstop := false } } }
  stop := stop
  addTask := addTask
  popTask := popTask
  bstop_start _ := rfl
  bstop_stop queue bwait := by simp [stop, State.callStep, State.moveCaller]
  bstop_addTask _ _ := rfl
  bstop_popTask popped := by
    obtain ⟨state, step, rfl, _⟩ := popTask_eq_some popped
    rw [bstop_popStep step]
    unfold entered
    split <;> rfl

end SPMCSerialTaskPool

/-- A `SerialTaskPool<TPropType, SPMCSerialTaskQueue<TPropType>>` whose callers are `C`. -/
abbrev SPMCSerialTaskPool (P F C : Type) : Type :=
  TaskPoolBase (PoolQueue P F C) (C × P × TaskItem F) C

namespace SPMCSerialTaskPool

inductive Action (P F C : Type) where
  | pool (action : PoolAction (C × P × TaskItem F) C)
  /-- A step in the queue of a call of `add_task`, or of the `stop` of the pool. -/
  | queue (caller : Option C) (source : Option C)
  /-- A worker turns to this producer for its next dequeue. -/
  | turn (thread : Nat) (source : Option C)
deriving DecidableEq

/-- A thread calls `add_task` for itself, and is in one call at a time; `stop` of the pool goes on
when that of the queue has returned. -/
def Permitted (pool : SPMCSerialTaskPool P F C) : PoolAction (C × P × TaskItem F) C → Prop
  | .call caller (.addTask add) => add.1 = caller ∧
      pool.taskQueue.state.caller (some caller) = .outside
  | .call caller _ => pool.taskQueue.state.caller (some caller) = .outside
  | .caller caller => pool.caller caller = .swap → pool.taskQueue.state.caller none = .outside
  | .worker _ => True

instance (pool : SPMCSerialTaskPool P F C) (action : PoolAction (C × P × TaskItem F) C) :
    Decidable (Permitted pool action) := by
  unfold Permitted
  split <;> infer_instance

def next (coreNum : Nat) (pool : SPMCSerialTaskPool P F C) :
    Action P F C → Option (SPMCSerialTaskPool P F C)
  | .pool action => if Permitted pool action then TaskPoolBase.next coreNum pool action else none
  | .queue caller source =>
    (pool.taskQueue.state.callStep caller source).map fun state =>
      { pool with taskQueue := { pool.taskQueue with state } }
  | .turn thread source =>
    some { pool with taskQueue := { pool.taskQueue with source := Function.update pool.taskQueue.source thread source } }

/-- A pool with these properties that has been started with this many threads. -/
def started (coreNum : Nat) (maxTaskCount : UInt64) (props : List P) (threadNum : Nat) :
    SPMCSerialTaskPool P F C :=
  let state : State P F (Option C) Nat := .init maxTaskCount 0
  ({ TaskPoolBase.construct
      { state := { state with queue := state.queue.resetProps props }, source := fun _ => none } with
    atomicSwitch := .started } : SPMCSerialTaskPool P F C).createThread coreNum threadNum

end SPMCSerialTaskPool

end BTool.TaskPool
