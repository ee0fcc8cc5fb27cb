import Mathlib.Logic.Function.Basic
import BTool.Foundation.Fifo
import BTool.TaskQueue.SerialTaskQueue

/-! `ParallelTaskQueue`: one lock-free queue for all tasks.

A step is one access to `m_bstop` or to the concurrent queue, which is taken for a
linearizable one with an exact size, or one wait, which is left when its predicate holds.
`SingleThreadParallelTaskQueue` takes the same steps. -/

namespace BTool.TaskQueue

open BTool.Foundation

structure ParallelTaskQueue (F : Type) where
  bstop : Bool
  /-- `m_queue`, with the tasks that have been taken out of it. -/
  queue : Journal (TaskItem F)
  maxTaskCount : UInt64
deriving DecidableEq

namespace ParallelTaskQueue

variable {F : Type}

def construct (maxTaskCount : UInt64) : ParallelTaskQueue F :=
  { bstop := false, queue := .empty, maxTaskCount }

def size (queue : ParallelTaskQueue F) : Nat := queue.queue.items.length

def notFull (queue : ParallelTaskQueue F) : Bool :=
  queue.maxTaskCount = 0 || queue.size < queue.maxTaskCount.toNat

theorem notFull_iff {queue : ParallelTaskQueue F} (limited : queue.maxTaskCount ≠ 0) :
    queue.notFull = true ↔ queue.queue.items.length < queue.maxTaskCount.toNat := by
  simp only [notFull, size, limited, decide_false, Bool.false_or]
  exact decide_eq_true_iff

def full (queue : ParallelTaskQueue F) : Bool := !queue.notFull

def notEmpty (queue : ParallelTaskQueue F) : Bool := queue.size != 0

theorem notEmpty_eq_false {queue : ParallelTaskQueue F} :
    queue.notEmpty = false ↔ queue.queue.items = [] := by
  simp [notEmpty, size]

def empty (queue : ParallelTaskQueue F) : Bool := !queue.notEmpty

def clearInner (queue : ParallelTaskQueue F) : ParallelTaskQueue F :=
  { queue with queue := queue.queue.clear }

def clear (queue : ParallelTaskQueue F) : ParallelTaskQueue F := queue.clearInner

def start (queue : ParallelTaskQueue F) : ParallelTaskQueue F := { queue with bstop := false }

def stop (queue : ParallelTaskQueue F) (bwait : Bool) : ParallelTaskQueue F :=
  if queue.bstop then queue
  else if bwait then { queue with bstop := true }
  else { queue with bstop := true }.clearInner

/-- Where a thread is in `add_task`. -/
inductive AddStage (F : Type) where
  | outside
  | stopTest (func : TaskItem F)
  /-- Waiting on `m_cv_not_full`. -/
  | wait (func : TaskItem F)
  | lastTest (func : TaskItem F)
  | enqueue (func : TaskItem F)
  /-- At `m_cv_not_empty.notify_one()`. -/
  | notify
deriving DecidableEq

/-- Where a thread is in `pop_task`. -/
inductive PopStage (F : Type) where
  | outside
  | stopTest
  /-- Waiting on `m_cv_not_empty`. -/
  | wait
  | emptyTest
  | dequeue
  /-- At `m_cv_not_full.notify_one()`, with what has been dequeued. -/
  | notify (popTask : TaskItem F)
  | executing (task : F)
deriving DecidableEq

/-- One step of `add_task`; `none` where it waits. -/
def addTask (queue : ParallelTaskQueue F) :
    AddStage F → Option (ParallelTaskQueue F × AddStage F)
  | .outside => none
  | .stopTest func => some (queue, if queue.bstop then .outside else .wait func)
  | .wait func => if queue.bstop || queue.notFull then some (queue, .lastTest func) else none
  | .lastTest func => some (queue, if queue.bstop then .outside else .enqueue func)
  | .enqueue func => some ({ queue with queue := queue.queue.enqueue func }, .notify)
  | .notify => some (queue, .outside)

/-- One step of `pop_task`; `none` where it waits. -/
def popTask (queue : ParallelTaskQueue F) :
    PopStage F → Option (ParallelTaskQueue F × PopStage F)
  | .outside => none
  | .stopTest => some (queue, if queue.bstop then .emptyTest else .wait)
  | .wait => if queue.bstop || queue.notEmpty then some (queue, .emptyTest) else none
  | .emptyTest => some (queue, if queue.empty then .outside else .dequeue)
  | .dequeue =>
    match queue.queue.dequeue with
    | none => some (queue, .notify none)
    | some (func, rest) => some ({ queue with queue := rest }, .notify func)
  | .notify none => some (queue, .outside)
  | .notify (some task) => some (queue, .executing task)
  | .executing _ => some (queue, .outside)

/-- The function that a producer has still to enqueue. -/
def AddStage.func : AddStage F → Option (TaskItem F)
  | .stopTest func => some func
  | .wait func => some func
  | .lastTest func => some func
  | .enqueue func => some func
  | _ => none

/-- The task that a worker has dequeued and not yet executed to its end. -/
def PopStage.task : PopStage F → Option F
  | .notify popTask => popTask
  | .executing task => some task
  | _ => none

section Steps

variable {queue after : ParallelTaskQueue F}

theorem addTask_cases {place stage : AddStage F} (stepped : queue.addTask place = some (after, stage)) :
    (∃ func, place = .enqueue func ∧ stage = .notify ∧
        after = { queue with queue := queue.queue.enqueue func }) ∨
      (after = queue ∧ ∀ func, stage.func = some func → place.func = some func) := by
  cases place with
  | outside => cases stepped
  | stopTest func =>
    cases stepped
    right
    refine ⟨rfl, ?_⟩
    split <;> simp [AddStage.func]
  | wait func =>
    simp only [addTask] at stepped
    split at stepped <;> cases stepped
    exact .inr ⟨rfl, by simp [AddStage.func]⟩
  | lastTest func =>
    cases stepped
    right
    refine ⟨rfl, ?_⟩
    split <;> simp [AddStage.func]
  | enqueue func =>
    cases stepped
    exact .inl ⟨func, rfl, rfl, rfl⟩
  | notify =>
    cases stepped
    exact .inr ⟨rfl, by simp [AddStage.func]⟩

theorem popTask_cases {place stage : PopStage F} (stepped : queue.popTask place = some (after, stage)) :
    (place = .dequeue ∧ ((queue.queue.items = [] ∧ after = queue ∧ stage = .notify none) ∨
        ∃ func, queue.queue.items = func :: after.queue.items ∧ stage = .notify func)) ∨
      (place ≠ .dequeue ∧ after = queue ∧ (stage.task = none ∨ stage.task = place.task)) := by
  cases place with
  | outside => cases stepped
  | stopTest =>
    cases stepped
    right
    refine ⟨by simp, rfl, .inl ?_⟩
    split <;> rfl
  | wait =>
    simp only [popTask] at stepped
    split at stepped <;> cases stepped
    exact .inr ⟨by simp, rfl, .inl rfl⟩
  | emptyTest =>
    cases stepped
    right
    refine ⟨by simp, rfl, .inl ?_⟩
    split <;> rfl
  | dequeue =>
    simp only [popTask] at stepped
    split at stepped <;> cases stepped
    · rename_i nothing
      exact .inl ⟨rfl, .inl ⟨Journal.dequeue_eq_none.mp nothing, rfl, rfl⟩⟩
    · rename_i func rest taken
      exact .inl ⟨rfl, .inr ⟨func, (Journal.dequeue_cases taken).1, rfl⟩⟩
  | notify popTask =>
    cases popTask with
    | none =>
      cases stepped
      exact .inr ⟨by simp, rfl, .inl rfl⟩
    | some task =>
      cases stepped
      exact .inr ⟨by simp, rfl, .inr rfl⟩
  | executing task =>
    cases stepped
    exact .inr ⟨by simp, rfl, .inl rfl⟩

end Steps

/-- The queue, and where the threads are that add to it and pop from it. -/
structure State (F Q W : Type) where
  tasks : ParallelTaskQueue F
  adding : Q → AddStage F
  popping : W → PopStage F

inductive Action (F Q W : Type) where
  | callAdd (producer : Q) (func : TaskItem F)
  | add (producer : Q)
  | callPop (worker : W)
  | pop (worker : W)
deriving DecidableEq

namespace State

variable {Q W : Type} [DecidableEq Q] [DecidableEq W]

def init (maxTaskCount : UInt64) : State F Q W :=
  { tasks := construct maxTaskCount, adding := fun _ => .outside, popping := fun _ => .outside }

/-- A producer moves on, and leaves the queue like this. -/
def moveAdd (state : State F Q W) (producer : Q) (tasks : ParallelTaskQueue F)
    (stage : AddStage F) : State F Q W :=
  { state with tasks, adding := Function.update state.adding producer stage }

def movePop (state : State F Q W) (worker : W) (tasks : ParallelTaskQueue F)
    (stage : PopStage F) : State F Q W :=
  { state with tasks, popping := Function.update state.popping worker stage }

def next (state : State F Q W) : Action F Q W → Option (State F Q W)
  | .callAdd producer func =>
    match state.adding producer with
    | .outside => some (state.moveAdd producer state.tasks (.stopTest func))
    | _ => none
  | .add producer => (state.tasks.addTask (state.adding producer)).map fun (tasks, stage) =>
      state.moveAdd producer tasks stage
  | .callPop worker =>
    match state.popping worker with
    | .outside => some (state.movePop worker state.tasks .stopTest)
    | _ => none
  | .pop worker => (state.tasks.popTask (state.popping worker)).map fun (tasks, stage) =>
      state.movePop worker tasks stage

variable {state after : State F Q W} {producer : Q} {worker : W} {func : TaskItem F}

theorem callAdd_cases (taken : state.next (.callAdd producer func) = some after) :
    state.adding producer = .outside ∧
      after = state.moveAdd producer state.tasks (.stopTest func) := by
  simp only [next] at taken
  split at taken
  · rename_i here
    exact ⟨here, (Option.some.inj taken).symm⟩
  · cases taken

theorem callPop_cases (taken : state.next (.callPop worker) = some after) :
    state.popping worker = .outside ∧ after = state.movePop worker state.tasks .stopTest := by
  simp only [next] at taken
  split at taken
  · rename_i here
    exact ⟨here, (Option.some.inj taken).symm⟩
  · cases taken

theorem add_cases (taken : state.next (.add producer) = some after) :
    ∃ tasks stage, state.tasks.addTask (state.adding producer) = some (tasks, stage) ∧
      after = state.moveAdd producer tasks stage := by
  obtain ⟨⟨tasks, stage⟩, stepped, same⟩ := Option.map_eq_some_iff.mp taken
  exact ⟨tasks, stage, stepped, same.symm⟩

theorem pop_cases (taken : state.next (.pop worker) = some after) :
    ∃ tasks stage, state.tasks.popTask (state.popping worker) = some (tasks, stage) ∧
      after = state.movePop worker tasks stage := by
  obtain ⟨⟨tasks, stage⟩, stepped, same⟩ := Option.map_eq_some_iff.mp taken
  exact ⟨tasks, stage, stepped, same.symm⟩

end State

/-- What a thread in one of the two functions is up to. -/
inductive Phase where
  | outside
  | entering
  | waiting
  /-- At the tests behind the wait, or at the queue. -/
  | acting
  | notifying
  | executing
deriving DecidableEq

def AddStage.phase : AddStage F → Phase
  | .outside => .outside
  | .stopTest _ => .entering
  | .wait _ => .waiting
  | .lastTest _ => .acting
  | .enqueue _ => .acting
  | .notify => .notifying

def PopStage.phase : PopStage F → Phase
  | .outside => .outside
  | .stopTest => .entering
  | .wait => .waiting
  | .emptyTest => .acting
  | .dequeue => .acting
  | .notify _ => .notifying
  | .executing _ => .executing

/-- What a step of `add_task` does to a queue that has not been stopped. -/
inductive AddMove (queue : ParallelTaskQueue F) : Phase → ParallelTaskQueue F → Phase → Prop where
  | enter : AddMove queue .entering queue .waiting
  | pass (room : queue.notFull = true) : AddMove queue .waiting queue .acting
  | test : AddMove queue .acting queue .acting
  | push (func : TaskItem F) :
      AddMove queue .acting { queue with queue := queue.queue.enqueue func } .notifying
  | leave : AddMove queue .notifying queue .outside

/-- What a step of `pop_task` does to a queue that has not been stopped. -/
inductive PopMove (queue : ParallelTaskQueue F) : Phase → ParallelTaskQueue F → Phase → Prop where
  | enter : PopMove queue .entering queue .waiting
  | pass (some : queue.notEmpty = true) : PopMove queue .waiting queue .acting
  | test : PopMove queue .acting queue .acting
  | skip : PopMove queue .acting queue .outside
  | take (func : TaskItem F) (rest : Journal (TaskItem F))
      (taken : queue.queue.dequeue = some (func, rest)) :
      PopMove queue .acting { queue with queue := rest } .notifying
  | miss (nothing : queue.queue.items = []) : PopMove queue .acting queue .notifying
  | execute : PopMove queue .notifying queue .executing
  | leave : PopMove queue .notifying queue .outside
  | finish : PopMove queue .executing queue .outside

section Moves

variable {queue after : ParallelTaskQueue F}

theorem addTask_move {place stage : AddStage F} (opened : queue.bstop = false)
    (stepped : queue.addTask place = some (after, stage)) :
    AddMove queue place.phase after stage.phase := by
  cases place with
  | outside => cases stepped
  | stopTest func =>
    simp only [addTask, opened, Bool.false_eq_true, if_false, Option.some.injEq,
      Prod.mk.injEq] at stepped
    obtain ⟨rfl, rfl⟩ := stepped
    exact .enter
  | wait func =>
    simp only [addTask, opened, Bool.false_or] at stepped
    split at stepped
    · rename_i room
      cases stepped
      exact .pass room
    · cases stepped
  | lastTest func =>
    simp only [addTask, opened, Bool.false_eq_true, if_false, Option.some.injEq,
      Prod.mk.injEq] at stepped
    obtain ⟨rfl, rfl⟩ := stepped
    exact .test
  | enqueue func =>
    cases stepped
    exact .push func
  | notify =>
    cases stepped
    exact .leave

theorem popTask_move {place stage : PopStage F} (opened : queue.bstop = false)
    (stepped : queue.popTask place = some (after, stage)) :
    PopMove queue place.phase after stage.phase := by
  cases place with
  | outside => cases stepped
  | stopTest =>
    simp only [popTask, opened, Bool.false_eq_true, if_false, Option.some.injEq,
      Prod.mk.injEq] at stepped
    obtain ⟨rfl, rfl⟩ := stepped
    exact .enter
  | wait =>
    simp only [popTask, opened, Bool.false_or] at stepped
    split at stepped
    · rename_i some
      cases stepped
      exact .pass some
    · cases stepped
  | emptyTest =>
    cases stepped
    split
    · exact .skip
    · exact .test
  | dequeue =>
    simp only [popTask] at stepped
    split at stepped <;> cases stepped
    · rename_i nothing
      exact .miss (Journal.dequeue_eq_none.mp nothing)
    · rename_i func rest taken
      exact .take func rest taken
  | notify popTask =>
    cases popTask with
    | none =>
      cases stepped
      exact .leave
    | some task =>
      cases stepped
      exact .execute
  | executing task =>
    cases stepped
    exact .finish

theorem AddMove.bstop_eq {first second : Phase} (move : AddMove queue first after second) :
    after.bstop = queue.bstop := by
  cases move <;> rfl

theorem PopMove.bstop_eq {first second : Phase} (move : PopMove queue first after second) :
    after.bstop = queue.bstop := by
  cases move <;> rfl

end Moves

end ParallelTaskQueue

end BTool.TaskQueue
