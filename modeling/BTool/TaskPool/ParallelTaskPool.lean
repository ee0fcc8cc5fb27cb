import BTool.TaskPool.TaskPoolBase
import BTool.TaskQueue.ParallelTaskQueue

/-! A `ParallelTaskPool` is a `TaskPoolBase` over a `ParallelTaskQueue`. Its `add_task` goes on
in the queue once the switch has been tested, so a thread is out of it when it is idle in the
pool and outside of the queue. -/

namespace BTool.TaskPool

open BTool.TaskQueue BTool.TaskQueue.ParallelTaskQueue

variable {F C : Type} [DecidableEq C]

namespace ParallelTaskPool

def addTask (state : State F C Nat) (add : C × TaskItem F) : State F C Nat :=
  state.moveAdd add.1 state.tasks (.stopTest add.2)

/-- One step of `pop_task`. -/
def popTask [DecidableEq F] (state : State F C Nat) (thread : Nat) : Option (State F C Nat × Bool) :=
  let place := if state.popping thread = .outside then .stopTest else state.popping thread
  (state.tasks.popTask place).map fun (tasks, stage) =>
    (state.movePop thread tasks stage, decide (stage ≠ .outside))

variable [DecidableEq F] {state after : State F C Nat} {thread : Nat} {more : Bool}

omit [DecidableEq C] in
theorem popTask_eq_some (popped : popTask state thread = some (after, more)) :
    ∃ tasks stage,
      state.tasks.popTask (if state.popping thread = .outside then .stopTest else state.popping thread) =
        some (tasks, stage) ∧
      after = state.movePop thread tasks stage ∧ (more = true ↔ stage ≠ .outside) := by
  obtain ⟨⟨tasks, stage⟩, stepped, same⟩ := Option.map_eq_some_iff.mp popped
  cases same
  exact ⟨tasks, stage, stepped, rfl, by simp⟩

omit [DecidableEq C] in
theorem bstop_popTask (popped : popTask state thread = some (after, more)) :
    after.tasks.bstop = state.tasks.bstop := by
  obtain ⟨tasks, stage, stepped, rfl, _⟩ := popTask_eq_some popped
  rcases popTask_cases stepped with ⟨here, found⟩ | ⟨_, same, _⟩
  · rw [here] at stepped
    simp only [ParallelTaskQueue.popTask] at stepped
    split at stepped <;> cases stepped <;> rfl
  · exact congrArg ParallelTaskQueue.bstop same

omit [DecidableEq C] [DecidableEq F] in
theorem bstop_stop (queue : ParallelTaskQueue F) (bwait : Bool) : (queue.stop bwait).bstop = true := by
  unfold ParallelTaskQueue.stop
  split
  · assumption
  · cases bwait <;> rfl

instance : TQueueType (State F C Nat) (C × TaskItem F) where
  bstop state := state.tasks.bstop
  empty state := state.tasks.empty
  start state := { state with tasks := state.tasks.start }
  stop state bwait := { state with tasks := state.tasks.stop bwait }
  addTask := addTask
  popTask := popTask
  bstop_start _ := rfl
  bstop_stop state bwait := bstop_stop state.tasks bwait
  bstop_addTask _ _ := rfl
  bstop_popTask := bstop_popTask

end ParallelTaskPool

/-- A `ParallelTaskPool` whose callers are `C`. -/
abbrev ParallelTaskPool (F C : Type) : Type := TaskPoolBase (State F C Nat) (C × TaskItem F) C

namespace ParallelTaskPool

/-- One step of a call of `add_task` that is in the queue. -/
def queueStep (pool : ParallelTaskPool F C) (caller : C) : Option (ParallelTaskPool F C) :=
  (pool.taskQueue.next (.add caller)).map fun taskQueue => { pool with taskQueue }

/-- The task that a call enqueues with its next step. -/
def enqueued (pool : ParallelTaskPool F C) (caller : C) : List F :=
  match pool.taskQueue.adding caller with
  | .enqueue func => func.toList
  | _ => []

/-- The task that a worker finishes with its next step. -/
def finished (pool : ParallelTaskPool F C) (thread : Nat) : List F :=
  match pool.worker thread, pool.taskQueue.popping thread with
  | .popTask, .executing task => [task]
  | _, _ => []

/-- The thread has no call of this pool in progress. -/
def Out (pool : ParallelTaskPool F C) (caller : C) : Prop :=
  pool.caller caller = .idle ∧ pool.taskQueue.adding caller = .outside

instance [DecidableEq F] (pool : ParallelTaskPool F C) (caller : C) : Decidable (pool.Out caller) := by
  unfold Out
  infer_instance

end ParallelTaskPool

end BTool.TaskPool
