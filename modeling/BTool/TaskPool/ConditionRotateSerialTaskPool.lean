import BTool.Foundation.CondVar
import BTool.Foundation.Transition
import BTool.TaskPool.Lanes

/-! `ConditionRotateSerialTaskPool`: the worker of a queue sleeps on the one condition
variable of all workers while its queue is empty.

A step is one access to the flag or to a concurrent queue, which is taken for a
linearizable FIFO, one operation on the mutex or the condition variable, one executed task,
or one joined thread. The mutex is released with the last thing that is done under it.
Nobody wakes up unless notified. -/

namespace BTool.TaskPool

open BTool.Foundation BTool.TaskQueue

namespace ConditionRotateSerialTaskPool

/-- Where a worker is in `thread_worker`. -/
inductive WorkerPc where
  | lock
  /-- At the predicate of the wait, with the mutex. -/
  | test
  /-- About to fall asleep, with the mutex. -/
  | sleep
  /-- Asleep, or woken and at the mutex again. -/
  | asleep
  | executing
  /-- At `pop_task` after a task has been executed. -/
  | popTask
  | stopTest
  | returned
deriving DecidableEq

/-- Where a thread is in a call of the pool. -/
inductive CallerPc (P F : Type) where
  | idle
  | addTask (lane : Nat) (prop : P) (func : TaskItem F)
  | notifyOne (lane : Nat) (entry : Entry P F)
  | returnTrue (entry : Entry P F)
  | stopLock (bwait : Bool)
  | storeStop (bwait : Bool)
  | clear (lane : Nat)
  | notifyAll
  | join (thread : Nat)
deriving DecidableEq

inductive Action (P F C : Type) where
  | addTask (caller : C) (prop : P) (func : TaskItem F)
  | stop (caller : C) (bwait : Bool)
  | caller (caller : C)
  | notifyOne (caller : C) (woken : Option Nat)
  | worker (thread : Nat)
deriving DecidableEq

end ConditionRotateSerialTaskPool

structure ConditionRotateSerialTaskPool (P F C : Type) where
  threadNum : Nat
  propIndex : P → Option Nat
  stopping : Bool
  lanes : Lanes P F
  readyMtx : Option (C ⊕ Nat)
  readyCv : CondVar Nat
  worker : Nat → ConditionRotateSerialTaskPool.WorkerPc
  caller : C → ConditionRotateSerialTaskPool.CallerPc P F
  stops : Stops

namespace ConditionRotateSerialTaskPool

variable {P F C : Type} [DecidableEq P] [DecidableEq C]

/-- The constructor; `none` where it takes a remainder by zero. -/
def construct (coreNum threadNum : Nat) (value : P → Nat) (props : List P) :
    Option (ConditionRotateSerialTaskPool P F C) :=
  let threadNum := rotateThreadNum coreNum threadNum props
  if threadNum = 0 ∧ props ≠ [] then none
  else some {
    threadNum
    propIndex := rotatePropIndex value props threadNum
    stopping := false
    lanes := .construct
    readyMtx := none
    readyCv := .empty
    worker := fun thread => if thread < threadNum then .lock else .returned
    caller := fun _ => .idle
    stops := .before }

def moveWorker (pool : ConditionRotateSerialTaskPool P F C) (thread : Nat) (pc : WorkerPc) :
    ConditionRotateSerialTaskPool P F C :=
  { pool with worker := Function.update pool.worker thread pc }

def moveCaller (pool : ConditionRotateSerialTaskPool P F C) (caller : C) (pc : CallerPc P F) :
    ConditionRotateSerialTaskPool P F C :=
  { pool with caller := Function.update pool.caller caller pc }

/-- Take the mutex, or wait until it is free. -/
def lockWorker (pool : ConditionRotateSerialTaskPool P F C) (thread : Nat) :
    Option (ConditionRotateSerialTaskPool P F C) :=
  match pool.readyMtx with
  | none => some ({ pool with readyMtx := some (.inr thread) }.moveWorker thread .test)
  | some _ => none

/-- Where the predicate of the wait leads. -/
def testPc (pool : ConditionRotateSerialTaskPool P F C) (thread : Nat) : WorkerPc :=
  if ((pool.lanes.popTask thread).executing thread).isSome then .executing
  else if pool.stopping then .returned
  else if (pool.lanes.queues thread).items = [] then .sleep
  else .stopTest

/-- One step of `thread_worker`. -/
def threadWorker (pool : ConditionRotateSerialTaskPool P F C) (thread : Nat) :
    Option (ConditionRotateSerialTaskPool P F C) :=
  match pool.worker thread with
  | .lock => pool.lockWorker thread
  | .test =>
    -- the flag is only stored under the mutex, so loading it and popping are one step
    let readyMtx := if pool.testPc thread = .sleep then pool.readyMtx else none
    some ({ pool with lanes := pool.lanes.popTask thread, readyMtx }.moveWorker thread (pool.testPc thread))
  | .sleep =>
    some ({ pool with readyMtx := none, readyCv := pool.readyCv.wait thread }.moveWorker thread .asleep)
  | .asleep => if thread ∈ pool.readyCv.waiters then none else pool.lockWorker thread
  | .executing => some ({ pool with lanes := pool.lanes.finish thread }.moveWorker thread .popTask)
  | .popTask =>
    let lanes := pool.lanes.popTask thread
    some ({ pool with lanes }.moveWorker thread
      (if (lanes.executing thread).isSome then .executing else .stopTest))
  | .stopTest => some (pool.moveWorker thread (if pool.stopping then .returned else .lock))
  | .returned => none

/-- One step of the call that a thread is in, but for `notify_one`. -/
def callStep (pool : ConditionRotateSerialTaskPool P F C) (caller : C) :
    Option (ConditionRotateSerialTaskPool P F C) :=
  match pool.caller caller with
  | .idle => none
  | .addTask lane prop func =>
    some ({ pool with lanes := pool.lanes.addTask lane prop func }.moveCaller caller
      (.notifyOne lane ⟨pool.lanes.accepted, prop, func⟩))
  | .notifyOne _ _ => none
  | .returnTrue entry =>
    let lanes := if pool.stops = .before then pool.lanes.promise entry else pool.lanes
    some ({ pool with lanes }.moveCaller caller .idle)
  | .stopLock bwait =>
    match pool.readyMtx with
    | none => some ({ pool with readyMtx := some (.inl caller) }.moveCaller caller (.storeStop bwait))
    | some _ => none
  | .storeStop bwait =>
    let readyMtx := if bwait then none else pool.readyMtx
    some ({ pool with stopping := true, readyMtx }.moveCaller caller (if bwait then .notifyAll else .clear 0))
  | .clear lane =>
    some (if lane < pool.threadNum then
        { pool with lanes := pool.lanes.clear lane }.moveCaller caller (.clear (lane + 1))
      else { pool with readyMtx := none }.moveCaller caller .notifyAll)
  | .notifyAll => some ({ pool with readyCv := .empty }.moveCaller caller (.join 0))
  | .join thread =>
    if thread < pool.threadNum then
      if pool.worker thread = .returned then some (pool.moveCaller caller (.join (thread + 1)))
      else none
    else some ({ pool with stops := .returned }.moveCaller caller .idle)

def next (pool : ConditionRotateSerialTaskPool P F C) :
    Action P F C → Option (ConditionRotateSerialTaskPool P F C)
  | .addTask caller prop func =>
    match pool.caller caller with
    | .idle =>
      -- `m_prop_index` does not change after the construction
      match pool.propIndex prop with
      | none => some pool
      | some lane => some (pool.moveCaller caller (.addTask lane prop func))
    | _ => none
  | .stop caller bwait =>
    match pool.caller caller with
    | .idle => some ({ pool with stops := .called }.moveCaller caller (.stopLock bwait))
    | _ => none
  | .caller caller => pool.callStep caller
  | .notifyOne caller woken =>
    match pool.caller caller with
    | .notifyOne _ entry =>
      (pool.readyCv.notifyOne woken).map fun readyCv =>
        { pool with readyCv }.moveCaller caller (.returnTrue entry)
    | _ => none
  | .worker thread => pool.threadWorker thread

end ConditionRotateSerialTaskPool

end BTool.TaskPool
