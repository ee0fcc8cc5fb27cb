import Mathlib.Logic.Function.Basic
import BTool.TaskPool.AtomicSwitch
import BTool.TaskQueue.SPMCSerialTaskQueue

/-! `CoroSerialTaskPool`: a channel and a coroutine for each property. One thread calls `init_props`, `start`
and `stop`, while any number of threads call `add_task`.

What is assumed of a channel: it is first in first out, a pop waits for a value, and a push returns when
its value has been taken or lies within the capacity. Whether a push into a closed channel returns is a
parameter; its value is lost. -/

namespace BTool.TaskPool

open BTool.TaskQueue AtomicSwitch

namespace CoroSerialTaskPool

inductive ExitFlag where
  | notExit
  | exitForce
  | exitWait
deriving DecidableEq

/-- The function is kept with what it has been added as; there is none in an exit marker. -/
structure SerialTask (P F : Type) where
  exit : ExitFlag
  task : Option (AddedTask P F)
deriving DecidableEq

/-- What is executed of it: `task_` is not empty. -/
def SerialTask.callable {P F : Type} (item : SerialTask P F) : Option (AddedTask P F) :=
  item.task.filter fun task => task.func.isSome

/-- A channel, with the values whose pushes still wait behind those within the capacity. -/
structure CoChan (Item : Type) where
  capacity : Nat
  items : List Item
  closed : Bool

namespace CoChan

variable {Item : Type}

def open' (capacity : Nat) : CoChan Item := ⟨capacity, [], false⟩

def push (chan : CoChan Item) (item : Item) : CoChan Item :=
  if chan.closed then chan else { chan with items := chan.items ++ [item] }

/-- A push that was made while the channel was open returns. -/
def Returns (closedReturns : Bool) (chan : CoChan Item) (item : Item) : Prop :=
  item ∉ chan.items.drop chan.capacity ∨ chan.closed = true ∧ closedReturns = true

instance [DecidableEq Item] (closedReturns : Bool) (chan : CoChan Item) (item : Item) :
    Decidable (chan.Returns closedReturns item) := by
  unfold Returns
  infer_instance

end CoChan

/-- Where the coroutine of a property is in `go_func`. -/
inductive CoroPc (P F : Type) where
  | absent
  | pop
  | call (task : AddedTask P F)
  | tryPop
  | callRest (task : AddedTask P F)
  | close
  | exit
  | ended
deriving DecidableEq

/-- The task that it executes. -/
def CoroPc.calling {P F : Type} : CoroPc P F → List (AddedTask P F)
  | .call task => [task]
  | .callRest task => [task]
  | _ => []

/-- Where the thread is that calls `init_props`, `start` and `stop`. -/
inductive ControlPc (P : Type) where
  | idle
  | lockProps (props : List P)
  | startProps (props : List P)
  | init
  | start (pc : StartPc)
  | goStart
  | stop (bwait : Bool) (pc : StopPc)
  | lockStop (bwait : Bool)
  /-- At the properties of `m_go_tasks` that are left. -/
  | push (bwait : Bool) (props : List P)
  | pushed (bwait : Bool) (prop : P) (props : List P)
  | pushedClosed (bwait : Bool) (prop : P) (props : List P)
  | popExited (bwait : Bool) (prop : P) (props : List P)
  | isEmpty
  | schedulerStop
  | reset (pc : ResetPc)
deriving DecidableEq

/-- Where a thread is in `add_task`. -/
inductive ProducerPc (P F : Type) where
  | outside
  /-- In `has_started()`. -/
  | startTest (prop : P) (func : TaskItem F) (pc : HasStartedPc)
  /-- Before it looks for the property, or locks and starts it. -/
  | enter (prop : P) (func : TaskItem F)
  | push (prop : P) (func : TaskItem F)
  | pushed (task : AddedTask P F)
  | pushedClosed (task : AddedTask P F)
deriving DecidableEq

inductive Action (P F C : Type) where
  | initProps (props : List P)
  | start
  | stop (bwait : Bool)
  /-- A step of the call of `init_props`, `start` or `stop`. -/
  | control
  | add (caller : C) (prop : P) (func : TaskItem F)
  | caller (caller : C)
  | coro (prop : P)
deriving DecidableEq

end CoroSerialTaskPool

open CoroSerialTaskPool

structure CoroSerialTaskPool (P F C : Type) where
  atomicSwitch : AtomicSwitch
  /-- The scheduler runs. -/
  scheduling : Bool
  maxSingleTaskCount : Nat
  /-- Who has `m_mtx`: the control thread, or a producer. -/
  holder : Option (Option C)
  /-- The keys of `m_go_tasks`, in the order in which one goes through them. -/
  props : List P
  goTasks : P → CoChan (SerialTask P F)
  /-- How many flags there are in the channels of `m_go_task_exited`. -/
  exited : P → Nat
  coro : P → CoroPc P F
  control : ControlPc P
  caller : C → ProducerPc P F
  /-- The tasks that have been pushed. -/
  added : List (AddedTask P F)
  /-- The tasks whose `add_task` has returned true. -/
  accepted : List (AddedTask P F)
  executed : List (AddedTask P F)

namespace CoroSerialTaskPool

variable {P F C : Type}

def construct (maxSingleTaskCount : Nat) : CoroSerialTaskPool P F C :=
  { atomicSwitch := .construct, scheduling := false, maxSingleTaskCount, holder := none, props := []
    goTasks := fun _ => .open' maxSingleTaskCount, exited := fun _ => 0, coro := fun _ => .absent
    control := .idle, caller := fun _ => .outside, added := [], accepted := [], executed := [] }

variable [DecidableEq P] [DecidableEq F] [DecidableEq C]

def moveControl (pool : CoroSerialTaskPool P F C) (control : ControlPc P) :
    CoroSerialTaskPool P F C :=
  { pool with control }

def moveCaller (pool : CoroSerialTaskPool P F C) (caller : C) (pc : ProducerPc P F) :
    CoroSerialTaskPool P F C :=
  { pool with caller := Function.update pool.caller caller pc }

def moveCoro (pool : CoroSerialTaskPool P F C) (prop : P) (pc : CoroPc P F) :
    CoroSerialTaskPool P F C :=
  { pool with coro := Function.update pool.coro prop pc }

def setChan (pool : CoroSerialTaskPool P F C) (prop : P) (chan : CoChan (SerialTask P F)) :
    CoroSerialTaskPool P F C :=
  { pool with goTasks := Function.update pool.goTasks prop chan }

/-- A property that the pool has keeps its channel, and is given no coroutine. -/
def startProp (pool : CoroSerialTaskPool P F C) (prop : P) : CoroSerialTaskPool P F C :=
  if prop ∈ pool.props then pool
  else ({ pool with props := pool.props ++ [prop] }.setChan prop (.open' pool.maxSingleTaskCount)).moveCoro prop .pop

/-- One step of `init_props`, `start` or `stop`. -/
def controlStep (noLock closedReturns : Bool) (pool : CoroSerialTaskPool P F C) :
    Option (CoroSerialTaskPool P F C) :=
  match pool.control with
  | .idle => none
  | .lockProps props =>
    if noLock then some (pool.moveControl (.startProps props))
    else if pool.holder = none then some ({ pool with holder := some none }.moveControl (.startProps props))
    else none
  | .startProps [] =>
    some ({ pool with holder := if noLock then pool.holder else none }.moveControl .idle)
  | .startProps (prop :: rest) => some ((pool.startProp prop).moveControl (.startProps rest))
  | .init =>
    let (atomicSwitch, result) := pool.atomicSwitch.init
    some ({ pool with atomicSwitch }.moveControl (if result then .start .loadStop else .idle))
  | .start pc =>
    let (atomicSwitch, progress) := pool.atomicSwitch.start pc
    some ({ pool with atomicSwitch }.moveControl (progress.elim .start
      fun (result : Bool) => if result then .goStart else .idle))
  | .goStart => some ({ pool with scheduling := true }.moveControl .idle)
  | .stop bwait pc =>
    let (atomicSwitch, progress) := pool.atomicSwitch.stop pc
    some ({ pool with atomicSwitch }.moveControl (progress.elim (.stop bwait)
      fun (result : Bool) => if result then .lockStop bwait else .idle))
  | .lockStop bwait =>
    if noLock then some (pool.moveControl (.push bwait pool.props))
    else if pool.holder =
      none then some ({ pool with holder := some none }.moveControl (.push bwait pool.props))
    else none
  | .push bwait [] =>
    some ({ pool with holder := if noLock then pool.holder else none }.moveControl
      (if bwait then .isEmpty else .schedulerStop))
  | .push bwait (prop :: rest) =>
    let marker : SerialTask P F := ⟨if bwait then .exitWait else .exitForce, none⟩
    some ((pool.setChan prop ((pool.goTasks prop).push marker)).moveControl
      (if (pool.goTasks prop).closed then .pushedClosed bwait prop rest else .pushed bwait prop rest))
  | .pushed bwait prop rest =>
    if (pool.goTasks prop).Returns closedReturns ⟨if bwait then .exitWait else .exitForce,
      none⟩ then
      some (pool.moveControl (.popExited bwait prop rest))
    else none
  | .pushedClosed bwait prop rest =>
    if closedReturns then some (pool.moveControl (.popExited bwait prop rest)) else none
  | .popExited bwait prop rest =>
    if 0 < pool.exited prop then
      some ({ pool with exited := Function.update pool.exited prop (pool.exited prop - 1) }.moveControl (.push bwait rest))
    else none
  -- `IsEmpty` is asked until no coroutine is left.
  | .isEmpty =>
    if ∀ prop ∈ pool.props, pool.coro prop = .ended then some (pool.moveControl .schedulerStop) else none
  | .schedulerStop => some ({ pool with scheduling := false }.moveControl (.reset .storeStart))
  | .reset pc =>
    let (atomicSwitch, progress) := pool.atomicSwitch.reset pc
    some ({ pool with atomicSwitch }.moveControl (progress.elim .reset fun _ => .idle))

/-- One step of `add_task`. -/
def callerStep (noLock closedReturns : Bool) (pool : CoroSerialTaskPool P F C) (caller : C) :
    Option (CoroSerialTaskPool P F C) :=
  match pool.caller caller with
  | .outside => none
  | .startTest prop func pc =>
    some (pool.moveCaller caller ((pool.atomicSwitch.hasStarted pc).elim (.startTest prop func)
      fun started => if started then .enter prop func else .outside))
  | .enter prop func =>
    if noLock then some (pool.moveCaller caller (if prop ∈ pool.props then .push prop func else .outside))
    else if pool.holder = none then
      some (({ pool with holder := some (some caller) }.startProp prop).moveCaller caller (.push prop func))
    else none
  | .push prop func =>
    let task := ⟨pool.added.length, prop, func⟩
    some ({ pool.setChan prop ((pool.goTasks prop).push ⟨.notExit, some task⟩) with
      added := pool.added ++ [task] }.moveCaller caller
        (if (pool.goTasks prop).closed then .pushedClosed task else .pushed task))
  | .pushed task =>
    if (pool.goTasks task.prop).Returns closedReturns ⟨.notExit, some task⟩ then
      some ({ pool with
        accepted := pool.accepted ++ [task], holder :=
          if noLock then pool.holder else none }.moveCaller caller .outside)
    else none
  | .pushedClosed task =>
    if closedReturns then
      some ({ pool with
        accepted := pool.accepted ++ [task], holder :=
          if noLock then pool.holder else none }.moveCaller caller .outside)
    else none

/-- One step of the coroutine of a property, which the scheduler runs. -/
def coroStep (pool : CoroSerialTaskPool P F C) (prop : P) : Option (CoroSerialTaskPool P F C) :=
  if pool.scheduling then
    match pool.coro prop with
    | .absent => none
    | .pop =>
      match (pool.goTasks prop).items with
      | [] => none
      | item :: rest =>
        some ((pool.setChan prop { pool.goTasks prop with items := rest }).moveCoro prop
          (match item.exit with
          | .notExit => item.callable.elim .pop .call
          | .exitForce => .close
          | .exitWait => .tryPop))
    | .call task => some ({ pool with executed := pool.executed ++ [task] }.moveCoro prop .pop)
    | .tryPop =>
      match (pool.goTasks prop).items with
      | [] => some (pool.moveCoro prop .close)
      | item :: rest =>
        some ((pool.setChan prop { pool.goTasks prop with items := rest }).moveCoro prop
          (item.callable.elim .tryPop .callRest))
    | .callRest task =>
      some ({ pool with executed := pool.executed ++ [task] }.moveCoro prop .tryPop)
    | .close =>
      some ((pool.setChan prop { pool.goTasks prop with closed := true }).moveCoro prop .exit)
    | .exit =>
      some ({ pool with exited := Function.update pool.exited prop (pool.exited prop + 1) }.moveCoro prop .ended)
    | .ended => none
  else none

def next (noLock closedReturns : Bool) (pool : CoroSerialTaskPool P F C) :
    Action P F C → Option (CoroSerialTaskPool P F C)
  | .initProps props => if pool.control = .idle then some (pool.moveControl (.lockProps props)) else none
  | .start => if pool.control = .idle then some (pool.moveControl .init) else none
  | .stop bwait => if pool.control = .idle then some (pool.moveControl (.stop bwait .loadInit)) else none
  | .control => pool.controlStep noLock closedReturns
  | .add caller prop func =>
    if pool.caller caller = .outside then some
      (pool.moveCaller caller (.startTest prop func .loadStop)) else none
  | .caller caller => pool.callerStep noLock closedReturns caller
  | .coro prop => pool.coroStep prop

end CoroSerialTaskPool

end BTool.TaskPool
