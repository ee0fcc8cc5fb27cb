import Mathlib.Logic.Function.Basic
import BTool.TaskPool.AtomicSwitch
import BTool.TaskQueue.SerialSections

/-! A `TaskPoolBase` over any queue type: the threads that call `start`, `stop`,
`reset_thread_num` and `add_task`, and the worker threads that the pool creates.

A step is one access to the switch, one operation of the queue, one section under
`m_threads_mtx`, or one joined thread. `m_cur_threads` is touched under the mutex only, so
`create_thread`, which runs under it, is one step. -/

namespace BTool.TaskPool

open AtomicSwitch

/-- What a pool uses of its queue type. The sections of a waiting call are entered when
they can go on, so a call that waits has no step. -/
class TQueueType (Queue : Type) (Add : outParam Type) where
  bstop : Queue → Bool
  empty : Queue → Bool
  start : Queue → Queue
  stop : Queue → Bool → Queue
  addTask : Queue → Add → Queue
  /-- One section of `pop_task`, and whether the call goes on with another one. -/
  popTask : Queue → Nat → Option (Queue × Bool)
  bstop_start (queue : Queue) : bstop (start queue) = false
  bstop_stop (queue : Queue) (bwait : Bool) : bstop (stop queue bwait) = true
  bstop_addTask (queue : Queue) (add : Add) : bstop (addTask queue add) = bstop queue
  bstop_popTask {queue after : Queue} {thread : Nat} {more : Bool} :
    popTask queue thread = some (after, more) → bstop after = bstop queue

/-- Where a worker thread is in `thread_fun`. -/
inductive WorkerPc where
  /-- Not created yet, or out of its loop. -/
  | outside
  /-- In `has_stoped()`. -/
  | stopTest (pc : HasStopedPc)
  | emptyTest
  | versionTest
  | popTask
deriving DecidableEq

/-- Where a thread is in a call of the pool. -/
inductive CallerPc (Add : Type) where
  | idle
  | init (threadNum : Nat)
  | start (threadNum : Nat) (pc : StartPc)
  | queueStart (threadNum : Nat)
  | createThread (threadNum : Nat)
  | stop (bwait : Bool) (pc : StopPc)
  | queueStop (bwait : Bool)
  | swap
  /-- Joining the threads that are left of those it took. -/
  | join (threads : List Nat)
  | reset (pc : ResetPc)
  /-- In `has_started()`, for `reset_thread_num`. -/
  | resetTest (threadNum : Nat) (pc : HasStartedPc)
  /-- In `has_started()`, for `add_task`. -/
  | addTest (add : Add) (pc : HasStartedPc)
  | addTask (add : Add)
deriving DecidableEq

structure TaskPoolBase (Queue Add C : Type) where
  atomicSwitch : AtomicSwitch
  taskQueue : Queue
  curThreads : List Nat
  curThreadVer : Nat
  /-- How many threads have been created. -/
  created : Nat
  version : Nat → Nat
  worker : Nat → WorkerPc
  caller : C → CallerPc Add

inductive Operation (Add : Type) where
  | start (threadNum : Nat)
  | stop (bwait : Bool)
  | resetThreadNum (threadNum : Nat)
  | addTask (add : Add)
deriving DecidableEq

inductive PoolAction (Add C : Type) where
  | call (caller : C) (operation : Operation Add)
  | caller (caller : C)
  | worker (thread : Nat)
deriving DecidableEq

variable {Queue Add C : Type} [TQueueType Queue Add] [DecidableEq C]

def Operation.entry : Operation Add → CallerPc Add
  | .start threadNum => .init threadNum
  | .stop bwait => .stop bwait .loadInit
  | .resetThreadNum threadNum => .resetTest threadNum .loadStop
  | .addTask add => .addTest add .loadStop

namespace TaskPoolBase

def construct (queue : Queue) : TaskPoolBase Queue Add C :=
  { atomicSwitch := .construct, taskQueue := queue, curThreads := [], curThreadVer := 0, created := 0,
    version := fun _ => 0, worker := fun _ => .outside, caller := fun _ => .idle }

def moveCaller (pool : TaskPoolBase Queue Add C) (caller : C) (pc : CallerPc Add) :
    TaskPoolBase Queue Add C :=
  { pool with caller := Function.update pool.caller caller pc }

def moveWorker (pool : TaskPoolBase Queue Add C) (thread : Nat) (pc : WorkerPc) :
    TaskPoolBase Queue Add C :=
  { pool with worker := Function.update pool.worker thread pc }

/-- `TP_MAX_THREAD`. -/
def maxThread : Nat := 2000

/-- How many threads `create_thread` creates, on a machine with `coreNum` cores. -/
def threadCount (coreNum threadNum : Nat) : Nat :=
  let threadNum := if threadNum = 0 then coreNum else threadNum
  if threadNum < maxThread then threadNum else maxThread

def createThread (coreNum : Nat) (pool : TaskPoolBase Queue Add C) (threadNum : Nat) :
    TaskPoolBase Queue Add C :=
  let ids := List.range' pool.created (threadCount coreNum threadNum)
  { pool with
    curThreads := pool.curThreads ++ ids
    curThreadVer := pool.curThreadVer + 1
    created := pool.created + ids.length
    version := fun thread => if thread ∈ ids then pool.curThreadVer + 1 else pool.version thread
    worker := fun thread => if thread ∈ ids then .stopTest .loadInit else pool.worker thread }

/-- One step of `thread_fun`. -/
def threadFun (pool : TaskPoolBase Queue Add C) (thread : Nat) : Option (TaskPoolBase Queue Add C) :=
  match pool.worker thread with
  | .outside => none
  | .stopTest pc =>
    some (pool.moveWorker thread ((pool.atomicSwitch.hasStoped pc).elim .stopTest
      fun stoped => if stoped then .emptyTest else .versionTest))
  | .emptyTest =>
    some (pool.moveWorker thread
      (if TQueueType.empty pool.taskQueue then .outside else .versionTest))
  | .versionTest =>
    some (pool.moveWorker thread
      (if pool.version thread < pool.curThreadVer then .outside else .popTask))
  | .popTask =>
    (TQueueType.popTask pool.taskQueue thread).map fun (taskQueue, more) =>
      { pool with taskQueue }.moveWorker thread (if more then .popTask else .stopTest .loadInit)

/-- One step of the call that a thread is in. -/
def callStep (coreNum : Nat) (pool : TaskPoolBase Queue Add C) (caller : C) :
    Option (TaskPoolBase Queue Add C) :=
  match pool.caller caller with
  | .idle => none
  | .init threadNum =>
    let (atomicSwitch, result) := pool.atomicSwitch.init
    some ({ pool with atomicSwitch }.moveCaller caller
      (if result then .start threadNum .loadStop else .idle))
  | .start threadNum pc =>
    let (atomicSwitch, progress) := pool.atomicSwitch.start pc
    some ({ pool with atomicSwitch }.moveCaller caller (progress.elim (.start threadNum)
      fun (result : Bool) => if result then .queueStart threadNum else .idle))
  | .queueStart threadNum =>
    some ({ pool with taskQueue := TQueueType.start pool.taskQueue }.moveCaller caller
      (.createThread threadNum))
  | .createThread threadNum => some ((pool.createThread coreNum threadNum).moveCaller caller .idle)
  | .stop bwait pc =>
    let (atomicSwitch, progress) := pool.atomicSwitch.stop pc
    some ({ pool with atomicSwitch }.moveCaller caller (progress.elim (.stop bwait)
      fun (result : Bool) => if result then .queueStop bwait else .idle))
  | .queueStop bwait =>
    some ({ pool with taskQueue := TQueueType.stop pool.taskQueue bwait }.moveCaller caller .swap)
  | .swap => some ({ pool with curThreads := [] }.moveCaller caller (.join pool.curThreads))
  | .join [] => some (pool.moveCaller caller (.reset .storeStart))
  | .join (thread :: rest) =>
    if pool.worker thread = .outside then some (pool.moveCaller caller (.join rest)) else none
  | .reset pc =>
    let (atomicSwitch, progress) := pool.atomicSwitch.reset pc
    some ({ pool with atomicSwitch }.moveCaller caller (progress.elim .reset fun _ => .idle))
  | .resetTest threadNum pc =>
    some (pool.moveCaller caller ((pool.atomicSwitch.hasStarted pc).elim (.resetTest threadNum)
      fun started => if started then .createThread threadNum else .idle))
  | .addTest add pc =>
    some (pool.moveCaller caller ((pool.atomicSwitch.hasStarted pc).elim (.addTest add)
      fun started => if started then .addTask add else .idle))
  | .addTask add =>
    some ({ pool with taskQueue := TQueueType.addTask pool.taskQueue add }.moveCaller caller .idle)

def next (coreNum : Nat) (pool : TaskPoolBase Queue Add C) :
    PoolAction Add C → Option (TaskPoolBase Queue Add C)
  | .call caller operation =>
    match pool.caller caller with
    | .idle => some (pool.moveCaller caller operation.entry)
    | _ => none
  | .caller caller => pool.callStep coreNum caller
  | .worker thread => pool.threadFun thread

end TaskPoolBase

end BTool.TaskPool
