import BTool.TaskQueue.WaitProps

/-! `SerialTaskQueue`: tasks run in order within a property, properties run apart.

Each definition is one locked section of the class, so that a step of it is atomic
under `m_mtx`. The waits on the condition variables are not part of a section. -/

namespace BTool.TaskQueue

/-- A `FastFunction`; `none` is one that holds nothing, as built from an empty
function object or left behind by a move. -/
abbrev TaskItem (F : Type) := Option F

structure SerialTaskQueue (P F : Type) [DecidableEq P] where
  bstop : Bool
  approxSize : UInt64
  waitProps : WaitProps P
  waitTasks : Finmap (fun _ : P => List (TaskItem F))
  maxTaskCount : UInt64
  curProps : Finset P

namespace SerialTaskQueue

variable {P F : Type} [DecidableEq P]

/-- The constructor. -/
def construct (maxTaskCount : UInt64) : SerialTaskQueue P F :=
  { bstop := false, approxSize := 0, waitProps := .empty, waitTasks := ∅, maxTaskCount, curProps := ∅ }

/-- The number of properties in `m_wait_tasks`. -/
def size (queue : SerialTaskQueue P F) : Nat := queue.waitTasks.keys.card

def empty (queue : SerialTaskQueue P F) : Bool := queue.size = 0

def notFull (queue : SerialTaskQueue P F) : Bool :=
  queue.maxTaskCount = 0 || queue.approxSize < queue.maxTaskCount

def full (queue : SerialTaskQueue P F) : Bool := !queue.notFull

def notEmpty (queue : SerialTaskQueue P F) : Bool :=
  !queue.empty && queue.curProps.card < queue.size

def removeCurProp (queue : SerialTaskQueue P F) (prop : P) : SerialTaskQueue P F :=
  { queue with curProps := queue.curProps.erase prop }

def clearInner (queue : SerialTaskQueue P F) : SerialTaskQueue P F :=
  { queue with waitProps := queue.waitProps.clear, waitTasks := ∅, curProps := ∅ }

def clear (queue : SerialTaskQueue P F) : SerialTaskQueue P F := queue.clearInner

def start (queue : SerialTaskQueue P F) : SerialTaskQueue P F := { queue with bstop := false }

def stop (queue : SerialTaskQueue P F) (bwait : Bool) : SerialTaskQueue P F :=
  if queue.bstop then queue
  else if bwait then { queue with bstop := true }
  else { queue with bstop := true }.clearInner

/-- The deque filed under a property, empty when there is none. -/
def deque (queue : SerialTaskQueue P F) (prop : P) : List (TaskItem F) :=
  (queue.waitTasks.lookup prop).getD []

/-- What both locked sections of `add_task` do once they have passed their tests. -/
def pushTask (queue : SerialTaskQueue P F) (prop : P) (func : TaskItem F) : SerialTaskQueue P F :=
  let taskQueue := queue.deque prop ++ [func]
  let isFirst := prop ∉ queue.curProps && taskQueue.length = 1
  { queue with
    waitTasks := queue.waitTasks.insert prop taskQueue
    waitProps := queue.waitProps.pushBack prop isFirst
    approxSize := queue.approxSize + 1 }

/-- How the first locked section of `pop_task` ends. -/
inductive PopBegin (P F : Type) [DecidableEq P] where
  /-- It waits on `m_cv_not_empty`. -/
  | waits
  /-- It returns without a task. -/
  | returns
  /-- An assertion fails, or `front` is called on an empty deque. -/
  | undefined
  | takes (prop : P) (nextTask : TaskItem F) (after : SerialTaskQueue P F)

def popBegin (queue : SerialTaskQueue P F) : PopBegin P F :=
  if !queue.bstop && !queue.notEmpty then .waits
  else if !queue.notEmpty then .returns
  else
    match queue.waitProps.popFront with
    | none => .undefined
    | some (prop, waitProps) =>
      if prop ∈ queue.curProps then .undefined
      else
        let popped := { queue with
          approxSize := queue.approxSize - 1, waitProps, curProps := insert prop queue.curProps }
        match queue.waitTasks.lookup prop with
        | none => .takes prop none popped
        | some [] => .undefined
        | some (front :: rest) =>
          .takes prop front { popped with waitTasks := queue.waitTasks.insert prop (none :: rest) }

/-- `pop_front` on the deque of a property, which goes when it becomes empty; `none`
where the deque is empty already. -/
def popFrontTask (waitTasks : Finmap (fun _ : P => List (TaskItem F))) (prop : P) :
    Option (Finmap (fun _ : P => List (TaskItem F))) :=
  match waitTasks.lookup prop with
  | none => some waitTasks
  | some [] => none
  | some (_ :: rest) =>
    if rest.isEmpty then some (waitTasks.erase prop) else some (waitTasks.insert prop rest)

/-- The second locked section of `pop_task`. -/
def popFinish (queue : SerialTaskQueue P F) (prop : P) : Option (SerialTaskQueue P F) := do
  let waitTasks ← popFrontTask queue.waitTasks prop
  let queue := { queue with waitTasks }.removeCurProp prop
  return { queue with waitProps := queue.waitProps.resetProp prop }

def removeProp (queue : SerialTaskQueue P F) (prop : P) : SerialTaskQueue P F :=
  { queue with
    waitTasks := queue.waitTasks.erase prop
    waitProps := queue.waitProps.removeProp prop }

end SerialTaskQueue

end BTool.TaskQueue
