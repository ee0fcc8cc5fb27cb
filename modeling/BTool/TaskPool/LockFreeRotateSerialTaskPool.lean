import BTool.Foundation.Transition
import BTool.TaskPool.Lanes

/-! `LockFreeRotateSerialTaskPool`: every worker drains the queue of its number over and
over, and after it has seen the stop flag it drains the queue once more and returns.

A step is one access to the flag or to a concurrent queue, which is taken for a
linearizable FIFO, one executed task, or one joined thread. -/

namespace BTool.TaskPool

open BTool.Foundation BTool.TaskQueue

namespace LockFreeRotateSerialTaskPool

/-- Where a worker is in `thread_worker`; the flag tells the second `deal_all`. -/
inductive WorkerPc where
  /-- In `deal_all`, at `pop_task`. -/
  | popTask (last : Bool)
  | executing (last : Bool)
  | stopTest
  | returned
deriving DecidableEq

/-- Where a thread is in a call of the pool. -/
inductive CallerPc (P F : Type) where
  | idle
  | stopTest (lane : Nat) (prop : P) (func : TaskItem F)
  | addTask (lane : Nat) (prop : P) (func : TaskItem F)
  | returnTrue (entry : Entry P F)
  | storeStop (bwait : Bool)
  | clear (lane : Nat)
  | join (thread : Nat)
deriving DecidableEq

inductive Action (P F C : Type) where
  | addTask (caller : C) (prop : P) (func : TaskItem F)
  | stop (caller : C) (bwait : Bool)
  | caller (caller : C)
  | worker (thread : Nat)
deriving DecidableEq

end LockFreeRotateSerialTaskPool

structure LockFreeRotateSerialTaskPool (P F C : Type) where
  threadNum : Nat
  propIndex : P → Option Nat
  stopping : Bool
  lanes : Lanes P F
  worker : Nat → LockFreeRotateSerialTaskPool.WorkerPc
  caller : C → LockFreeRotateSerialTaskPool.CallerPc P F
  stops : Stops

namespace LockFreeRotateSerialTaskPool

variable {P F C : Type} [DecidableEq P] [DecidableEq C]

/-- The constructor; `none` where it takes a remainder by zero. -/
def construct (coreNum threadNum : Nat) (value : P → Nat) (props : List P) :
    Option (LockFreeRotateSerialTaskPool P F C) :=
  let threadNum := rotateThreadNum coreNum threadNum props
  if threadNum = 0 ∧ props ≠ [] then none
  else some {
    threadNum
    propIndex := rotatePropIndex value props threadNum
    stopping := false
    lanes := .construct
    worker := fun thread => if thread < threadNum then .popTask false else .returned
    caller := fun _ => .idle
    stops := .before }

def moveWorker (pool : LockFreeRotateSerialTaskPool P F C) (thread : Nat) (pc : WorkerPc) :
    LockFreeRotateSerialTaskPool P F C :=
  { pool with worker := Function.update pool.worker thread pc }

def moveCaller (pool : LockFreeRotateSerialTaskPool P F C) (caller : C) (pc : CallerPc P F) :
    LockFreeRotateSerialTaskPool P F C :=
  { pool with caller := Function.update pool.caller caller pc }

/-- One step of `thread_worker`. -/
def threadWorker (pool : LockFreeRotateSerialTaskPool P F C) (thread : Nat) :
    Option (LockFreeRotateSerialTaskPool P F C) :=
  match pool.worker thread with
  | .popTask last =>
    let lanes := pool.lanes.popTask thread
    some ({ pool with lanes }.moveWorker thread
      (if (lanes.executing thread).isSome then .executing last
        else if last then .returned else .stopTest))
  | .executing last =>
    some ({ pool with lanes := pool.lanes.finish thread }.moveWorker thread (.popTask last))
  | .stopTest => some (pool.moveWorker thread (.popTask pool.stopping))
  | .returned => none

/-- One step of the call that a thread is in. -/
def callStep (pool : LockFreeRotateSerialTaskPool P F C) (caller : C) :
    Option (LockFreeRotateSerialTaskPool P F C) :=
  match pool.caller caller with
  | .idle => none
  | .stopTest lane prop func =>
    some (pool.moveCaller caller (if pool.stopping then .idle else .addTask lane prop func))
  | .addTask lane prop func =>
    some ({ pool with lanes := pool.lanes.addTask lane prop func }.moveCaller caller
      (.returnTrue ⟨pool.lanes.accepted, prop, func⟩))
  | .returnTrue entry =>
    let lanes := if pool.stops = .before then pool.lanes.promise entry else pool.lanes
    some ({ pool with lanes }.moveCaller caller .idle)
  | .storeStop bwait =>
    some ({ pool with stopping := true }.moveCaller caller (if bwait then .join 0 else .clear 0))
  | .clear lane =>
    some (if lane < pool.threadNum then
        { pool with lanes := pool.lanes.clear lane }.moveCaller caller (.clear (lane + 1))
      else pool.moveCaller caller (.join 0))
  | .join thread =>
    if thread < pool.threadNum then
      if pool.worker thread = .returned then some (pool.moveCaller caller (.join (thread + 1)))
      else none
    else some ({ pool with stops := .returned }.moveCaller caller .idle)

def next (pool : LockFreeRotateSerialTaskPool P F C) :
    Action P F C → Option (LockFreeRotateSerialTaskPool P F C)
  | .addTask caller prop func =>
    match pool.caller caller with
    | .idle =>
      -- `m_prop_index` does not change after the construction
      match pool.propIndex prop with
      | none => some pool
      | some lane => some (pool.moveCaller caller (.stopTest lane prop func))
    | _ => none
  | .stop caller bwait =>
    match pool.caller caller with
    | .idle => some ({ pool with stops := .called }.moveCaller caller (.storeStop bwait))
    | _ => none
  | .caller caller => pool.callStep caller
  | .worker thread => pool.threadWorker thread

end LockFreeRotateSerialTaskPool

end BTool.TaskPool
