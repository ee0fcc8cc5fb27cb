import BTool.TaskQueue.SerialTaskQueue

/-! `LastTaskQueue`: one waiting task for each property, the one added last.

As for `SerialTaskQueue`, each definition is one locked section. -/

namespace BTool.TaskQueue

structure LastTaskQueue (P F : Type) [DecidableEq P] where
  bstop : Bool
  waitProps : List P
  waitTasks : Finmap (fun _ : P => TaskItem F)
  curPopProps : Finset P
  maxTaskCount : UInt64

namespace LastTaskQueue

variable {P F : Type} [DecidableEq P]

def construct (maxTaskCount : UInt64) : LastTaskQueue P F :=
  { bstop := false, waitProps := [], waitTasks := ∅, curPopProps := ∅, maxTaskCount }

def size (queue : LastTaskQueue P F) : Nat := queue.waitProps.length

def notFull (queue : LastTaskQueue P F) : Bool :=
  queue.maxTaskCount = 0 || queue.size < queue.maxTaskCount.toNat

def full (queue : LastTaskQueue P F) : Bool := !queue.notFull

def notEmpty (queue : LastTaskQueue P F) : Bool := !queue.waitProps.isEmpty

def empty (queue : LastTaskQueue P F) : Bool := !queue.notEmpty

def clearInner (queue : LastTaskQueue P F) : LastTaskQueue P F :=
  { queue with waitTasks := ∅, waitProps := [] }

def clear (queue : LastTaskQueue P F) : LastTaskQueue P F := queue.clearInner

def start (queue : LastTaskQueue P F) : LastTaskQueue P F := { queue with bstop := false }

def stop (queue : LastTaskQueue P F) (bwait : Bool) : LastTaskQueue P F :=
  if queue.bstop then queue
  else if bwait then { queue with bstop := true }
  else { queue with bstop := true }.clearInner

/-- What `add_task` does under the lock once its wait is over and it has not been stopped. -/
def setTask (queue : LastTaskQueue P F) (prop : P) (func : TaskItem F) : LastTaskQueue P F :=
  { queue with
    waitProps := if (queue.waitTasks.lookup prop).isNone then queue.waitProps ++ [prop]
      else queue.waitProps
    waitTasks := queue.waitTasks.insert prop func }

/-- How the first locked section of `pop_task` ends. -/
inductive PopBegin (P F : Type) [DecidableEq P] where
  /-- It waits on `m_cv_not_empty`. -/
  | waits
  /-- It returns without a task. -/
  | returns
  | takes (prop : P) (popTask : TaskItem F) (after : LastTaskQueue P F)

def popBegin (queue : LastTaskQueue P F) : PopBegin P F :=
  if !queue.bstop && !queue.notEmpty then .waits
  else if queue.bstop && !queue.notEmpty then .returns
  else if queue.waitProps.isEmpty then .returns
  else
    match queue.waitProps.find? fun prop => prop ∉ queue.curPopProps with
    | none => .returns
    | some prop =>
      -- `m_wait_tasks[pop_type]` is an empty function when there is none
      .takes prop ((queue.waitTasks.lookup prop).getD none) { queue with
        waitTasks := queue.waitTasks.erase prop
        waitProps := queue.waitProps.erase prop
        curPopProps := insert prop queue.curPopProps }

/-- The queue after its task of a property has been taken. -/
def withdraw (queue : LastTaskQueue P F) (prop : P) : LastTaskQueue P F :=
  { queue with
    waitTasks := queue.waitTasks.erase prop
    waitProps := queue.waitProps.erase prop
    curPopProps := insert prop queue.curPopProps }

/-- A begin section takes the first waiting property that is not running. -/
theorem popBegin_takes {queue after : LastTaskQueue P F} {prop : P} {func : TaskItem F}
    (takes : queue.popBegin = .takes prop func after) :
    queue.waitProps.find? (fun prop => prop ∉ queue.curPopProps) = some prop ∧
      func = (queue.waitTasks.lookup prop).getD none ∧ after = queue.withdraw prop := by
  unfold popBegin at takes
  split at takes
  · cases takes
  split at takes
  · cases takes
  split at takes
  · cases takes
  split at takes
  · cases takes
  · rename_i found
    cases takes
    exact ⟨found, rfl, rfl⟩

theorem popBegin_of_find? {queue : LastTaskQueue P F} {prop : P}
    (first : queue.waitProps.find? (fun prop => prop ∉ queue.curPopProps) = some prop) :
    queue.popBegin = .takes prop ((queue.waitTasks.lookup prop).getD none) (queue.withdraw prop) := by
  have waiting : queue.waitProps ≠ [] := List.ne_nil_of_mem (List.mem_of_find?_eq_some first)
  have opened : queue.notEmpty = true := by simp [notEmpty, waiting]
  have nonempty : queue.waitProps.isEmpty = false := by simp [waiting]
  simp only [popBegin, opened, nonempty, first, Bool.not_true, Bool.and_false, Bool.false_eq_true,
    if_false, withdraw]

/-- It returns without a task when every waiting property is running. -/
theorem find?_of_returns {queue : LastTaskQueue P F} (returns : queue.popBegin = .returns) :
    queue.waitProps.find? (fun prop => prop ∉ queue.curPopProps) = none := by
  unfold popBegin at returns
  split at returns
  · cases returns
  split at returns
  · rename_i empty
    have nothing : queue.waitProps = [] := by
      simpa [notEmpty] using (Bool.and_eq_true_iff.mp empty).2
    simp [nothing]
  split at returns
  · rename_i empty
    simp [List.isEmpty_iff.mp empty]
  split at returns
  · rename_i found
    exact found
  · cases returns

/-- The second locked section of `pop_task`. -/
def popFinish (queue : LastTaskQueue P F) (prop : P) : LastTaskQueue P F :=
  { queue with curPopProps := queue.curPopProps.erase prop }

def removeProp (queue : LastTaskQueue P F) (prop : P) : LastTaskQueue P F :=
  { queue with
    waitProps := queue.waitProps.filter fun value => value ≠ prop
    waitTasks := queue.waitTasks.erase prop }

/-- The queue, and the task each worker executes between the two sections of `pop_task`. -/
structure State (P F W : Type) [DecidableEq P] where
  queue : LastTaskQueue P F
  running : W → Option (P × F)

inductive Action (P F W : Type) where
  | addTask (prop : P) (func : TaskItem F)
  | popBegin (worker : W)
  | popFinish (worker : W)
  | removeProp (prop : P)
  | clear
  | stop (bwait : Bool)
  | start
deriving DecidableEq

namespace State

variable {W : Type} [DecidableEq W]

def init (maxTaskCount : UInt64) : State P F W := ⟨construct maxTaskCount, fun _ => none⟩

/-- One section; `none` when the thread cannot enter it. -/
def next (state : State P F W) : Action P F W → Option (State P F W)
  | .addTask prop func =>
    if state.queue.bstop then some state
    else if state.queue.notFull then some { state with queue := state.queue.setTask prop func }
    else none
  | .popBegin worker =>
    if (state.running worker).isSome then none
    else
      match state.queue.popBegin with
      | .waits => none
      | .returns => some state
      | .takes prop func queue => some {
          queue
          running := Function.update state.running worker (func.map fun task => (prop, task)) }
  | .popFinish worker => do
    let current ← state.running worker
    return { queue := state.queue.popFinish current.1
             running := Function.update state.running worker none }
  | .removeProp prop => some { state with queue := state.queue.removeProp prop }
  | .clear => some { state with queue := state.queue.clear }
  | .stop bwait => some { state with queue := state.queue.stop bwait }
  | .start => some { state with queue := state.queue.start }

/-- A worker has taken the task of a property. -/
def take (state : State P F W) (worker : W) (prop : P) : State P F W :=
  { queue := state.queue.withdraw prop
    running := Function.update state.running worker
      (((state.queue.waitTasks.lookup prop).getD none).map fun task => (prop, task)) }

variable {state after : State P F W} {worker : W} {prop : P} {func : TaskItem F}

theorem addTask_cases (taken : state.next (.addTask prop func) = some after) :
    (state.queue.bstop = true ∧ after = state) ∨
      (state.queue.bstop = false ∧ after = { state with queue := state.queue.setTask prop func }) := by
  simp only [next] at taken
  split at taken
  · rename_i stopped
    exact .inl ⟨stopped, (Option.some.inj taken).symm⟩
  · rename_i opened
    split at taken
    · exact .inr ⟨by simpa using opened, (Option.some.inj taken).symm⟩
    · cases taken

/-- A begin section takes the first waiting property that is not running, if there is one. -/
theorem popBegin_cases (taken : state.next (.popBegin worker) = some after) :
    state.running worker = none ∧
      ((state.queue.waitProps.find? (fun prop => prop ∉ state.queue.curPopProps) = none ∧
          after = state) ∨
        ∃ prop, state.queue.waitProps.find? (fun prop => prop ∉ state.queue.curPopProps) = some prop ∧
          after = state.take worker prop) := by
  simp only [next] at taken
  split at taken
  · cases taken
  rename_i free
  refine ⟨by simpa using free, ?_⟩
  split at taken
  · cases taken
  · rename_i returns
    exact .inl ⟨find?_of_returns returns, (Option.some.inj taken).symm⟩
  · rename_i prop func queue takes
    obtain ⟨first, source, same⟩ := popBegin_takes takes
    right
    refine ⟨prop, first, ?_⟩
    rw [← Option.some.inj taken, take, ← source, same]

theorem popFinish_cases (taken : state.next (.popFinish worker) = some after) :
    ∃ current, state.running worker = some current ∧
      after = { queue := state.queue.popFinish current.1
                running := Function.update state.running worker none } := by
  obtain ⟨current, isRunning, same⟩ := Option.bind_eq_some_iff.mp taken
  exact ⟨current, isRunning, (Option.some.inj same).symm⟩

end State

end LastTaskQueue

end BTool.TaskQueue
