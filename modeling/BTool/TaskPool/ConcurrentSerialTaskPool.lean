import BTool.TaskPool.AtomicSwitch
import BTool.TaskQueue.SPMCSerialTaskQueue

/-! `ConcurrentSerialTaskPool`: a concurrent queue and a thread for each property. One thread calls
`start` and `stop`, while any number of threads call `add_task`.

A step is one access to the switch, one operation on a queue, or one thread created or joined. -/

namespace BTool.TaskPool

open BTool.Foundation BTool.TaskQueue AtomicSwitch

namespace ConcurrentSerialTaskPool

/-- Where a thread is in the loop that `start` gives it. -/
inductive WorkerPc (P F : Type) where
  /-- Not created yet, or out of its loop. -/
  | outside
  | tryDequeue
  | run (task : AddedTask P F)
  /-- In `has_stoped()`. -/
  | stopTest (pc : HasStopedPc)
  | sizeTest
  | initTest
  | swap
deriving DecidableEq

/-- Where the thread is that calls `start` and `stop`. -/
inductive ControlPc (P : Type) where
  | idle
  | init
  | start (pc : StartPc)
  | sizeTest
  /-- Creating the threads of the properties that are left. -/
  | create (props : List P)
  | stop (bwait : Bool) (pc : StopPc)
  | reset (pc : ResetPc)
  /-- Joining the threads that are left of `m_consumers`. -/
  | join (threads : List Nat)
deriving DecidableEq

/-- Where a thread is in `add_task`. -/
inductive ProducerPc (P F : Type) where
  | outside
  /-- In `has_started()`. -/
  | startTest (prop : P) (func : TaskItem F) (pc : HasStartedPc)
  | find (prop : P) (func : TaskItem F)
  | enqueue (prop : P) (func : TaskItem F)
deriving DecidableEq

inductive Action (P F C : Type) where
  | start
  | stop (bwait : Bool)
  /-- A step of the call of `start` or `stop`. -/
  | control
  | add (caller : C) (prop : P) (func : TaskItem F)
  | caller (caller : C)
  /-- A step of a worker, and the producer at whom a dequeue of it looks. -/
  | worker (thread : Nat) (source : C)
deriving DecidableEq

end ConcurrentSerialTaskPool

open ConcurrentSerialTaskPool

structure ConcurrentSerialTaskPool (P F C : Type) where
  atomicSwitch : AtomicSwitch
  consumers : List Nat
  /-- The keys of `m_queues`, in the order in which one goes through them. -/
  props : List P
  queues : P → ProducerQueue C (AddedTask P F)
  /-- How many threads have been created. -/
  created : Nat
  /-- The property whose queue a thread serves. -/
  que : Nat → Option P
  control : ControlPc P
  caller : C → ProducerPc P F
  worker : Nat → WorkerPc P F
  /-- How many tasks have been enqueued. -/
  added : Nat
  /-- The tasks whose `add_task` has returned true. -/
  accepted : List (AddedTask P F)
  executed : List (AddedTask P F)
  /-- The tasks that have been swapped out of their queue. -/
  dropped : List (AddedTask P F)

namespace ConcurrentSerialTaskPool

variable {P F C : Type}

def construct (props : List P) : ConcurrentSerialTaskPool P F C :=
  { atomicSwitch := .construct, consumers := [], props, queues := fun _ => [], created := 0,
    que := fun _ => none, control := .idle, caller := fun _ => .outside, worker :=
      fun _ => .outside,
    added := 0, accepted := [], executed := [], dropped := [] }

/-- An `unsigned int` becomes an `int`, which is compared with a `size_t`. -/
def maxThreadNum (coreNum : UInt32) : UInt64 := (10 * coreNum).toInt32.toInt64.toUInt64

variable [DecidableEq P] [DecidableEq F] [DecidableEq C]

def moveControl (pool : ConcurrentSerialTaskPool P F C) (control : ControlPc P) :
    ConcurrentSerialTaskPool P F C :=
  { pool with control }

def moveCaller (pool : ConcurrentSerialTaskPool P F C) (caller : C) (pc : ProducerPc P F) :
    ConcurrentSerialTaskPool P F C :=
  { pool with caller := Function.update pool.caller caller pc }

def moveWorker (pool : ConcurrentSerialTaskPool P F C) (thread : Nat) (pc : WorkerPc P F) :
    ConcurrentSerialTaskPool P F C :=
  { pool with worker := Function.update pool.worker thread pc }

/-- Create the thread that serves this queue. -/
def createThread (pool : ConcurrentSerialTaskPool P F C) (prop : P) :
    ConcurrentSerialTaskPool P F C :=
  { pool with
    consumers := pool.consumers ++ [pool.created]
    que := Function.update pool.que pool.created (some prop)
    created := pool.created + 1
    worker := Function.update pool.worker pool.created .tryDequeue }

/-- One step of `start` or `stop`. -/
def controlStep (coreNum : UInt32) (pool : ConcurrentSerialTaskPool P F C) :
    Option (ConcurrentSerialTaskPool P F C) :=
  match pool.control with
  | .idle => none
  | .init =>
    let (atomicSwitch, result) := pool.atomicSwitch.init
    some ({ pool with atomicSwitch }.moveControl (if result then .start .loadStop else .idle))
  | .start pc =>
    let (atomicSwitch, progress) := pool.atomicSwitch.start pc
    some ({ pool with atomicSwitch }.moveControl (progress.elim .start
      fun (result : Bool) => if result then .sizeTest else .idle))
  -- The call ends with an exception where the properties are too many.
  | .sizeTest =>
    some (pool.moveControl (if (maxThreadNum coreNum).toNat < pool.props.length then .idle else .create pool.props))
  | .create [] => some (pool.moveControl .idle)
  | .create (prop :: rest) => some ((pool.createThread prop).moveControl (.create rest))
  | .stop bwait pc =>
    let (atomicSwitch, progress) := pool.atomicSwitch.stop pc
    some ({ pool with atomicSwitch }.moveControl (progress.elim (.stop bwait) fun (result : Bool) =>
      if !result then .idle else if bwait then .join pool.consumers else .reset .storeStart))
  | .reset pc =>
    let (atomicSwitch, progress) := pool.atomicSwitch.reset pc
    some ({ pool with atomicSwitch }.moveControl (progress.elim .reset fun _ => .join pool.consumers))
  | .join [] => some ({ pool with consumers := [] }.moveControl .idle)
  | .join (thread :: rest) =>
    if pool.worker thread = .outside then some (pool.moveControl (.join rest)) else none

/-- One step of `add_task`. -/
def callerStep (pool : ConcurrentSerialTaskPool P F C) (caller : C) :
    Option (ConcurrentSerialTaskPool P F C) :=
  match pool.caller caller with
  | .outside => none
  | .startTest prop func pc =>
    some (pool.moveCaller caller ((pool.atomicSwitch.hasStarted pc).elim (.startTest prop func)
      fun started => if started then .find prop func else .outside))
  | .find prop func =>
    some (pool.moveCaller caller (if prop ∈ pool.props then .enqueue prop func else .outside))
  | .enqueue prop func =>
    let task := ⟨pool.added, prop, func⟩
    some ({ pool with
      queues := Function.update pool.queues prop ((pool.queues prop).enqueue caller task)
      added := pool.added + 1
      accepted := pool.accepted ++ [task] }.moveCaller caller .outside)

/-- One step of a worker. The call of an empty function ends the process. -/
def workerStep (pool : ConcurrentSerialTaskPool P F C) (thread : Nat) (source : C) :
    Option (ConcurrentSerialTaskPool P F C) :=
  (pool.que thread).bind fun prop =>
    match pool.worker thread with
    | .outside => none
    | .tryDequeue =>
      match (pool.queues prop).tryDequeue source with
      | .elsewhere => none
      | .empty => some (pool.moveWorker thread (.stopTest .loadInit))
      | .item task rest =>
        some ({ pool with queues := Function.update pool.queues prop rest }.moveWorker thread (.run task))
    | .run task =>
      if task.func.isSome then
        some ({ pool with executed := pool.executed ++ [task] }.moveWorker thread .initTest)
      else none
    | .stopTest pc =>
      some (pool.moveWorker thread ((pool.atomicSwitch.hasStoped pc).elim .stopTest
        fun stoped => if stoped then .sizeTest else .initTest))
    | .sizeTest =>
      some (pool.moveWorker thread (if pool.queues prop = [] then .outside else .initTest))
    | .initTest =>
      some (pool.moveWorker thread (if pool.atomicSwitch.binit then .tryDequeue else .swap))
    | .swap =>
      some ({ pool with
        queues := Function.update pool.queues prop []
        dropped := pool.dropped ++ (pool.queues prop).map Prod.snd }.moveWorker thread .outside)

def next (coreNum : UInt32) (pool : ConcurrentSerialTaskPool P F C) :
    Action P F C → Option (ConcurrentSerialTaskPool P F C)
  | .start => if pool.control = .idle then some (pool.moveControl .init) else none
  | .stop bwait => if pool.control = .idle then some (pool.moveControl (.stop bwait .loadInit)) else none
  | .control => pool.controlStep coreNum
  | .add caller prop func =>
    if pool.caller caller = .outside then some
      (pool.moveCaller caller (.startTest prop func .loadStop)) else none
  | .caller caller => pool.callerStep caller
  | .worker thread source => pool.workerStep thread source

end ConcurrentSerialTaskPool

end BTool.TaskPool
