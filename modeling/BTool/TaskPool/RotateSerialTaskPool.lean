import BTool.Foundation.RwMutex
import BTool.Foundation.Transition
import BTool.TaskPool.Lanes
import BTool.TaskPool.ParallelTaskPool

/-! `RotateSerialTaskPool`: each property is given to one of several `ParallelTaskPool`s of one
thread each, in turn.

A step is one access to the switch, one operation on the readers-writer lock, one step of an
inner pool, or one joined thread. What is only touched under the write lock, or is one call of
the concurrent map, is one step. -/

namespace BTool.TaskPool

open AtomicSwitch BTool.Foundation BTool.TaskQueue BTool.TaskQueue.ParallelTaskQueue

/-- What an inner pool executes for an `add_task`; the call is its name tag. -/
def Entry.item {P F : Type} (entry : Entry P F) : TaskItem (Entry P F) :=
  if entry.func.isSome then some entry else none

/-- Besides the threads that use the pool, the one that `stop` gives to it calls an inner pool. -/
abbrev InnerPool (P F C : Type) : Type := ParallelTaskPool (Entry P F) (Option C)

namespace RotateSerialTaskPool

/-- Where a thread is in a call of the pool. A `stop` may be that of `reset_thread_num`, which
starts the pool again. -/
inductive CallerPc (P F : Type) where
  | idle
  | init (threadNum : Nat)
  | start (threadNum : Nat) (pc : StartPc)
  | lockStart (threadNum : Nat)
  | createThreads (threadNum : Nat)
  | startPool (index : Nat)
  | startingPool (index : Nat)
  | stop (bwait : Bool) (restart : Option Nat) (pc : StopPc)
  | lockStop (bwait : Bool) (restart : Option Nat)
  /-- Giving a thread to each inner pool, to stop it. -/
  | launchStop (restart : Option Nat) (index : Nat)
  | joinStop (restart : Option Nat) (index : Nat)
  | deletePool (restart : Option Nat) (index : Nat)
  | deletingPool (restart : Option Nat) (index : Nat)
  | clearPools (restart : Option Nat)
  | reset (restart : Option Nat) (pc : ResetPc)
  | lockShared (entry : Entry P F)
  | addTest (entry : Entry P F) (pc : HasStartedPc)
  | getThreadIndex (entry : Entry P F)
  | addTask (index : Nat) (entry : Entry P F)
  | addingTask (index : Nat) (entry : Entry P F)
deriving DecidableEq

inductive Operation (P F : Type) where
  | start (threadNum : Nat)
  | stop (bwait : Bool)
  | resetThreadNum (threadNum : Nat)
  | addTask (prop : P) (func : TaskItem F)
deriving DecidableEq

inductive Action (P F C : Type) where
  | call (caller : C) (operation : Operation P F)
  | caller (caller : C)
  /-- The steps in an inner pool: of a call, of a call that is in the queue, of a worker. -/
  | inner (index : Nat) (caller : Option C)
  | queue (index : Nat) (caller : Option C)
  | worker (index : Nat) (thread : Nat)
deriving DecidableEq

end RotateSerialTaskPool

structure RotateSerialTaskPool (P F C : Type) where
  maxTaskCount : UInt64
  atomicSwitch : AtomicSwitch
  mtx : RwMutex C
  taskPools : List (InnerPool P F C)
  nextThreadIndex : UInt64
  propIndex : P → Option Nat
  caller : C → RotateSerialTaskPool.CallerPc P F
  /-- How many calls of `add_task` there have been. -/
  calls : Nat
  /-- The tasks that have been enqueued, in this order. -/
  added : List (Entry P F)
  /-- The tasks whose `add_task` has returned true. -/
  accepted : List (Entry P F)
  executed : List (Entry P F)

namespace RotateSerialTaskPool

variable {P F C : Type} [DecidableEq P] [DecidableEq F] [DecidableEq C]

def construct (maxTaskCount : UInt64) : RotateSerialTaskPool P F C :=
  { maxTaskCount, atomicSwitch := .construct, mtx := .free, taskPools := [], nextThreadIndex := 0,
    propIndex := fun _ => none, caller := fun _ => .idle, calls := 0, added := [], accepted := [],
    executed := [] }

def moveCaller (pool : RotateSerialTaskPool P F C) (caller : C) (pc : CallerPc P F) :
    RotateSerialTaskPool P F C :=
  { pool with caller := Function.update pool.caller caller pc }

/-- Leave `add_task`. -/
def leave (pool : RotateSerialTaskPool P F C) (caller : C) : RotateSerialTaskPool P F C :=
  { pool with mtx := pool.mtx.unlockShared caller }.moveCaller caller .idle

def setPool (pool : RotateSerialTaskPool P F C) (index : Nat) (inner : InnerPool P F C) :
    RotateSerialTaskPool P F C :=
  { pool with taskPools := pool.taskPools.set index inner }

/-- How many pools `create_threads` creates, on a machine with `coreNum` cores. -/
def threadCount (coreNum threadNum : Nat) : Nat :=
  min (if threadNum = 0 then coreNum else threadNum) TaskPoolBase.maxThread

def createThreads (coreNum : Nat) (pool : RotateSerialTaskPool P F C) (threadNum : Nat) :
    RotateSerialTaskPool P F C :=
  let inner := TaskPoolBase.construct (.init pool.maxTaskCount)
  { pool with taskPools := pool.taskPools ++ List.replicate (threadCount coreNum threadNum) inner }

/-- The index of a property; `none` where a new one takes a remainder by zero. -/
def getThreadIndex (pool : RotateSerialTaskPool P F C) (prop : P) :
    Option (RotateSerialTaskPool P F C × Nat) :=
  match pool.propIndex prop with
  | some index => some (pool, index)
  | none =>
    if pool.taskPools = [] then none
    else
      let index := pool.nextThreadIndex.toNat % pool.taskPools.length
      some ({ pool with
        nextThreadIndex := pool.nextThreadIndex + 1
        propIndex := Function.update pool.propIndex prop (some index) }, index)

/-- Where `reset_thread_num` goes on after its `stop`. -/
def afterStop : Option Nat → CallerPc P F
  | none => .idle
  | some threadNum => .init threadNum

/-- A call of an inner pool. -/
def callPool (coreNum : Nat) (pool : RotateSerialTaskPool P F C) (index : Nat) (caller : Option C)
    (operation : TaskPool.Operation (Option C × TaskItem (Entry P F))) :
    Option (RotateSerialTaskPool P F C) :=
  pool.taskPools[index]?.bind fun inner =>
    (TaskPoolBase.next coreNum inner (.call caller operation)).map (pool.setPool index)

/-- One step of the call that a thread is in. -/
def callStep (coreNum : Nat) (pool : RotateSerialTaskPool P F C) (caller : C) :
    Option (RotateSerialTaskPool P F C) :=
  match pool.caller caller with
  | .idle => none
  | .init threadNum =>
    let (atomicSwitch, result) := pool.atomicSwitch.init
    some ({ pool with atomicSwitch }.moveCaller caller
      (if result then .start threadNum .loadStop else .idle))
  | .start threadNum pc =>
    let (atomicSwitch, progress) := pool.atomicSwitch.start pc
    some ({ pool with atomicSwitch }.moveCaller caller (progress.elim (.start threadNum)
      fun (result : Bool) => if result then .lockStart threadNum else .idle))
  | .lockStart threadNum =>
    (pool.mtx.lock caller).map fun mtx => { pool with mtx }.moveCaller caller (.createThreads threadNum)
  | .createThreads threadNum =>
    some ((pool.createThreads coreNum threadNum).moveCaller caller (.startPool 0))
  | .startPool index =>
    if index < pool.taskPools.length then
      (pool.callPool coreNum index (some caller) (.start 1)).map fun pool =>
        pool.moveCaller caller (.startingPool index)
    else some ({ pool with mtx := pool.mtx.unlock }.moveCaller caller .idle)
  | .startingPool index =>
    if ∃ inner ∈ pool.taskPools[index]?, inner.Out (some caller) then
      some (pool.moveCaller caller (.startPool (index + 1)))
    else none
  | .stop bwait restart pc =>
    let (atomicSwitch, progress) := pool.atomicSwitch.stop pc
    some ({ pool with atomicSwitch }.moveCaller caller (progress.elim (.stop bwait restart)
      fun (result : Bool) => if result then .lockStop bwait restart else afterStop restart))
  | .lockStop bwait restart =>
    (pool.mtx.lock caller).map fun mtx => { pool with mtx }.moveCaller caller
      (if bwait then .launchStop restart 0 else .deletePool restart 0)
  | .launchStop restart index =>
    if index < pool.taskPools.length then
      (pool.callPool coreNum index none (.stop true)).map fun pool =>
        pool.moveCaller caller (.launchStop restart (index + 1))
    else some (pool.moveCaller caller (.joinStop restart 0))
  | .joinStop restart index =>
    if index < pool.taskPools.length then
      if ∃ inner ∈ pool.taskPools[index]?, inner.Out none then
        some (pool.moveCaller caller (.joinStop restart (index + 1)))
      else none
    else some (pool.moveCaller caller (.deletePool restart 0))
  | .deletePool restart index =>
    -- the destructor of the inner pool calls its `stop()`
    if index < pool.taskPools.length then
      (pool.callPool coreNum index (some caller) (.stop false)).map fun pool =>
        pool.moveCaller caller (.deletingPool restart index)
    else some (pool.moveCaller caller (.clearPools restart))
  | .deletingPool restart index =>
    if ∃ inner ∈ pool.taskPools[index]?, inner.Out (some caller) then
      some (pool.moveCaller caller (.deletePool restart (index + 1)))
    else none
  | .clearPools restart =>
    some ({ pool with taskPools := [], propIndex := fun _ => none, nextThreadIndex := 0 }.moveCaller
      caller (.reset restart .storeStart))
  | .reset restart pc =>
    let (atomicSwitch, progress) := pool.atomicSwitch.reset pc
    let mtx := progress.elim (fun _ => pool.mtx) fun _ => pool.mtx.unlock
    some ({ pool with atomicSwitch, mtx }.moveCaller caller (progress.elim (.reset restart) fun _ =>
      afterStop restart))
  | .lockShared entry =>
    (pool.mtx.lockShared caller).map fun mtx => { pool with mtx }.moveCaller caller
      (.addTest entry .loadStop)
  | .addTest entry pc =>
    some ((pool.atomicSwitch.hasStarted pc).elim (fun pc => pool.moveCaller caller (.addTest entry pc))
      fun started => if started then pool.moveCaller caller (.getThreadIndex entry) else pool.leave caller)
  | .getThreadIndex entry =>
    (pool.getThreadIndex entry.prop).map fun (pool, index) =>
      pool.moveCaller caller (.addTask index entry)
  | .addTask index entry =>
    (pool.callPool coreNum index (some caller) (.addTask (some caller, entry.item))).map fun pool =>
      pool.moveCaller caller (.addingTask index entry)
  | .addingTask index entry =>
    -- the inner `add_task` returns true if it has enqueued the task
    if ∃ inner ∈ pool.taskPools[index]?, inner.Out (some caller) then
      some ({ pool with
        accepted := if entry ∈ pool.added then pool.accepted ++ [entry] else pool.accepted }.leave caller)
    else none

def next (coreNum : Nat) (pool : RotateSerialTaskPool P F C) :
    Action P F C → Option (RotateSerialTaskPool P F C)
  | .call caller operation =>
    match pool.caller caller with
    | .idle =>
      match operation with
      | .start threadNum => some (pool.moveCaller caller (.init threadNum))
      | .stop bwait => some (pool.moveCaller caller (.stop bwait none .loadInit))
      | .resetThreadNum threadNum => some (pool.moveCaller caller (.stop true (some threadNum) .loadInit))
      | .addTask prop func =>
        some ({ pool with calls := pool.calls + 1 }.moveCaller caller
          (.lockShared ⟨pool.calls, prop, func⟩))
    | _ => none
  | .caller caller => pool.callStep coreNum caller
  | .inner index caller =>
    pool.taskPools[index]?.bind fun inner =>
      (inner.callStep coreNum caller).map (pool.setPool index)
  | .queue index caller =>
    pool.taskPools[index]?.bind fun inner =>
      (inner.queueStep caller).map fun after =>
        { pool with
          taskPools := pool.taskPools.set index after
          added := pool.added ++ inner.enqueued caller }
  | .worker index thread =>
    pool.taskPools[index]?.bind fun inner =>
      (inner.threadFun thread).map fun after =>
        { pool with
          taskPools := pool.taskPools.set index after
          executed := pool.executed ++ inner.finished thread }

end RotateSerialTaskPool

end BTool.TaskPool
