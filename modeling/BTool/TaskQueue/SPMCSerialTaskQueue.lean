import Mathlib.Logic.Function.Basic
import BTool.Foundation.Fifo
import BTool.TaskQueue.SerialTaskQueue

/-! `SPMCSerialTaskQueue`: a queue for each registered property, and slots of `m_all_props` over
which the workers go in turn. Who has a slot empties the queue of its property.

A step is one access to an atomic, or one operation on a concurrent queue. `reset_props` is not
meant to run beside anything else, so it is one step. -/

namespace BTool.TaskQueue

open BTool.Foundation

/-- A slot of `m_all_props`. -/
structure AlignedStatus (P : Type) where
  prop : P
  canPop : Bool
deriving DecidableEq

/-- A task that has been enqueued, with the number of those enqueued before it. -/
structure AddedTask (P F : Type) where
  id : Nat
  prop : P
  func : TaskItem F
deriving DecidableEq

structure SPMCSerialTaskQueue (P F Q : Type) where
  bstop : Bool
  bclear : Bool
  approxSize : Int32
  curPropsIndex : UInt64
  allProps : List (AlignedStatus P)
  /-- The keys of `m_wait_tasks`, in the order in which one goes through them. -/
  props : List P
  /-- `m_wait_tasks`, where a property that is no key has an empty queue. -/
  waitTasks : P → ProducerQueue Q (AddedTask P F)
  maxTaskCount : UInt64
  maxSingleTaskCount : UInt64
  singleTaskCount : P → Int32

namespace SPMCSerialTaskQueue

section Queue

variable {P F Q : Type} [DecidableEq P]

-- `m_cur_props_index` has no value of its own before the first `reset_props`.
def construct (maxTaskCount maxSingleTaskCount : UInt64) : SPMCSerialTaskQueue P F Q :=
  { bstop := false, bclear := false, approxSize := 0, curPropsIndex := 0, allProps := [], props := [],
    waitTasks := fun _ => [], maxTaskCount, maxSingleTaskCount, singleTaskCount := fun _ => 0 }

/-- `operator[]` or `emplace` of a map: a key that is new gets its default. -/
def emplace (queue : SPMCSerialTaskQueue P F Q) (prop : P) : SPMCSerialTaskQueue P F Q :=
  { queue with props := if prop ∈ queue.props then queue.props else queue.props ++ [prop] }

def resetProps (queue : SPMCSerialTaskQueue P F Q) (props : List P) : SPMCSerialTaskQueue P F Q :=
  props.foldl
    (fun queue prop =>
      let emplaced := queue.emplace prop
      { emplaced with allProps := emplaced.allProps ++ [⟨prop, true⟩] })
    { queue with curPropsIndex := 0 }

def size (queue : SPMCSerialTaskQueue P F Q) : Nat := queue.props.length

/-- An `int` is compared with a `size_t` as one. -/
def notFull (queue : SPMCSerialTaskQueue P F Q) (prop : P) : Bool :=
  queue.maxSingleTaskCount = 0 ||
    (queue.singleTaskCount prop).toInt64.toUInt64 < queue.maxSingleTaskCount

def notEmpty (queue : SPMCSerialTaskQueue P F Q) : Bool := !queue.bclear && decide (0 < queue.approxSize)

def setSingle (queue : SPMCSerialTaskQueue P F Q) (prop : P) (count : Int32) : SPMCSerialTaskQueue P F Q :=
  { queue with singleTaskCount := Function.update queue.singleTaskCount prop count }

def setCanPop (queue : SPMCSerialTaskQueue P F Q) (index : Nat) (canPop : Bool) : SPMCSerialTaskQueue P F Q :=
  { queue with allProps := queue.allProps.modify index fun status => { status with canPop } }

end Queue

/-- Where a thread is in `clear_inner`. -/
inductive ClearPc (P : Type) where
  | storeClear
  | lockSlot (index : Nat)
  /-- Emptying the queues of the keys that are left. -/
  | drain (props : List P)
  | storeSingle (props : List P)
  | storeIndex
  | freeSlot (index : Nat)
  | storeSize
deriving DecidableEq

/-- Where a thread is in a call that is not `pop_task`. -/
inductive CallerPc (P F : Type) where
  | outside
  | stopTest (prop : P) (func : TaskItem F)
  | fullTest (prop : P) (func : TaskItem F)
  | enqueue (prop : P) (func : TaskItem F)
  | clearTest (task : AddedTask P F)
  | storeSize (task : AddedTask P F)
  | storeSingle (task : AddedTask P F)
  | countSize (task : AddedTask P F)
  | countSingle (task : AddedTask P F)
  | start
  | stop (bwait : Bool)
  | clear (pc : ClearPc P)
deriving DecidableEq

/-- Where a thread is in `pop_task`. -/
inductive PopPc (P F : Type) where
  | outside
  | clearTest
  | sizeTest
  | takeIndex
  | exchange (index : Nat)
  | dequeue (index : Nat)
  | loadClear (index : Nat) (task : AddedTask P F)
  | storeSize (index : Nat)
  | storeSingle (index : Nat)
  | countSize (index : Nat) (task : AddedTask P F)
  | countSingle (index : Nat) (task : AddedTask P F)
  | executing (index : Nat) (task : AddedTask P F)
  /-- At the store that gives the slot back. -/
  | release (index : Nat)
deriving DecidableEq

inductive Action (P F Q W : Type) where
  | resetProps (props : List P)
  | callAdd (caller : Q) (prop : P) (func : TaskItem F)
  | callStart (caller : Q)
  | callStop (caller : Q) (bwait : Bool)
  | callClear (caller : Q)
  /-- A step of a call, and the producer at which a dequeue of it looks. -/
  | caller (caller : Q) (source : Q)
  | callPop (worker : W)
  | pop (worker : W) (source : Q)
deriving DecidableEq

/-- The queue, where the threads are, and what has been done. -/
structure State (P F Q W : Type) where
  queue : SPMCSerialTaskQueue P F Q
  caller : Q → CallerPc P F
  worker : W → PopPc P F
  /-- How many tasks have been enqueued. -/
  added : Nat
  /-- The tasks whose `add_task` has returned true. -/
  accepted : List (AddedTask P F)
  executed : List (AddedTask P F)

namespace State

variable {P F Q W : Type} [DecidableEq P] [DecidableEq F] [DecidableEq Q] [DecidableEq W]

def init (maxTaskCount maxSingleTaskCount : UInt64) : State P F Q W :=
  { queue := construct maxTaskCount maxSingleTaskCount, caller := fun _ => .outside,
    worker := fun _ => .outside, added := 0, accepted := [], executed := [] }

def moveCaller (state : State P F Q W) (caller : Q) (queue : SPMCSerialTaskQueue P F Q) (pc : CallerPc P F) :
    State P F Q W :=
  { state with queue, caller := Function.update state.caller caller pc }

def moveWorker (state : State P F Q W) (worker : W) (queue : SPMCSerialTaskQueue P F Q) (pc : PopPc P F) :
    State P F Q W :=
  { state with queue, worker := Function.update state.worker worker pc }

/-- Leave `add_task` with true. -/
def accept (state : State P F Q W) (caller : Q) (queue : SPMCSerialTaskQueue P F Q) (task : AddedTask P F) :
    State P F Q W :=
  { state with accepted := state.accepted ++ [task] }.moveCaller caller queue .outside

/-- One step of `clear_inner`. -/
def clearStep (queue : SPMCSerialTaskQueue P F Q) (source : Q) :
    ClearPc P → Option (SPMCSerialTaskQueue P F Q × CallerPc P F)
  | .storeClear => some ({ queue with bclear := true }, .clear (.lockSlot 0))
  | .lockSlot index =>
    if index < queue.allProps.length then
      some (queue.setCanPop index false, .clear (.lockSlot (index + 1)))
    else some (queue, .clear (.drain queue.props))
  | .drain [] => some (queue, .clear (.storeSingle queue.props))
  | .drain (prop :: rest) =>
    match (queue.waitTasks prop).tryDequeue source with
    | .elsewhere => none
    | .empty => some (queue, .clear (.drain rest))
    | .item _ tasks =>
      some ({ queue with waitTasks := Function.update queue.waitTasks prop tasks },
        .clear (.drain (prop :: rest)))
  | .storeSingle [] => some (queue, .clear .storeIndex)
  | .storeSingle (prop :: rest) => some (queue.setSingle prop 0, .clear (.storeSingle rest))
  | .storeIndex => some ({ queue with curPropsIndex := 0 }, .clear (.freeSlot 0))
  | .freeSlot index =>
    if index < queue.allProps.length then
      some (queue.setCanPop index true, .clear (.freeSlot (index + 1)))
    else some (queue, .clear .storeSize)
  | .storeSize => some ({ queue with approxSize := 0 }, .outside)

/-- One step of a call that is not `pop_task`. -/
def callStep (state : State P F Q W) (caller source : Q) : Option (State P F Q W) :=
  match state.caller caller with
  | .outside => none
  | .stopTest prop func =>
    some (state.moveCaller caller state.queue (if state.queue.bstop then .outside else .fullTest prop func))
  | .fullTest prop func =>
    some (state.moveCaller caller state.queue
      (if state.queue.notFull prop then .enqueue prop func else .outside))
  | .enqueue prop func =>
    let task := ⟨state.added, prop, func⟩
    let queue := state.queue.emplace prop
    some ({ state with added := state.added + 1 }.moveCaller caller
      { queue with waitTasks := Function.update queue.waitTasks prop ((queue.waitTasks prop).enqueue caller task) }
      (.clearTest task))
  | .clearTest task =>
    some (state.moveCaller caller state.queue (if state.queue.bclear then .storeSize task else .countSize task))
  | .storeSize task => some (state.moveCaller caller { state.queue with approxSize := 0 } (.storeSingle task))
  | .storeSingle task => some (state.accept caller (state.queue.setSingle task.prop 0) task)
  | .countSize task =>
    some (state.moveCaller caller { state.queue with approxSize := state.queue.approxSize + 1 }
      (.countSingle task))
  | .countSingle task =>
    some (state.accept caller
      (state.queue.setSingle task.prop (state.queue.singleTaskCount task.prop + 1)) task)
  | .start => some (state.moveCaller caller { state.queue with bstop := false } .outside)
  | .stop bwait =>
    some (state.moveCaller caller { state.queue with bstop := true }
      (if state.queue.bstop || bwait then .outside else .clear .storeClear))
  | .clear pc => (clearStep state.queue source pc).map fun (queue, pc) => state.moveCaller caller queue pc

/-- One step of `pop_task`; `none` where a remainder by zero is taken. -/
def popStep (state : State P F Q W) (worker : W) (source : Q) : Option (State P F Q W) :=
  match state.worker worker with
  | .outside => none
  | .clearTest =>
    some (state.moveWorker worker state.queue (if state.queue.bclear then .outside else .sizeTest))
  | .sizeTest =>
    some (state.moveWorker worker state.queue (if 0 < state.queue.approxSize then .takeIndex else .outside))
  | .takeIndex =>
    if state.queue.allProps = [] then none
    else
      some (state.moveWorker worker
        { state.queue with curPropsIndex := state.queue.curPropsIndex + 1 }
        (.exchange (state.queue.curPropsIndex.toNat % state.queue.allProps.length)))
  | .exchange index =>
    state.queue.allProps[index]?.map fun status =>
      if status.canPop then state.moveWorker worker (state.queue.setCanPop index false) (.dequeue index)
      else state.moveWorker worker state.queue .outside
  | .dequeue index =>
    state.queue.allProps[index]?.bind fun status =>
      match (state.queue.waitTasks status.prop).tryDequeue source with
      | .elsewhere => none
      | .empty => some (state.moveWorker worker state.queue (.release index))
      | .item task tasks =>
        some (state.moveWorker worker
          { state.queue with waitTasks := Function.update state.queue.waitTasks status.prop tasks }
          (.loadClear index task))
  | .loadClear index task =>
    some (state.moveWorker worker state.queue
      (if state.queue.bclear then .storeSize index else .countSize index task))
  | .storeSize index =>
    some (state.moveWorker worker { state.queue with approxSize := 0 } (.storeSingle index))
  | .storeSingle index =>
    state.queue.allProps[index]?.map fun status =>
      state.moveWorker worker (state.queue.setSingle status.prop 0) (.release index)
  | .countSize index task =>
    some (state.moveWorker worker { state.queue with approxSize := state.queue.approxSize - 1 }
      (.countSingle index task))
  | .countSingle index task =>
    state.queue.allProps[index]?.map fun status =>
      state.moveWorker worker
        (state.queue.setSingle status.prop (state.queue.singleTaskCount status.prop - 1))
        (if task.func.isSome then .executing index task else .dequeue index)
  | .executing index task =>
    some ({ state with executed := state.executed ++ [task] }.moveWorker worker state.queue (.dequeue index))
  | .release index => some (state.moveWorker worker (state.queue.setCanPop index true) .outside)

def next (state : State P F Q W) : Action P F Q W → Option (State P F Q W)
  | .resetProps props => some { state with queue := state.queue.resetProps props }
  | .callAdd caller prop func =>
    if state.caller caller = .outside then
      some (state.moveCaller caller state.queue (.stopTest prop func))
    else none
  | .callStart caller =>
    if state.caller caller = .outside then some (state.moveCaller caller state.queue .start) else none
  | .callStop caller bwait =>
    if state.caller caller = .outside then some (state.moveCaller caller state.queue (.stop bwait)) else none
  | .callClear caller =>
    if state.caller caller = .outside then
      some (state.moveCaller caller state.queue (.clear .storeClear))
    else none
  | .caller caller source => state.callStep caller source
  | .callPop worker =>
    if state.worker worker = .outside then some (state.moveWorker worker state.queue .clearTest) else none
  | .pop worker source => state.popStep worker source

end State

end SPMCSerialTaskQueue

end BTool.TaskQueue
