import BTool.Foundation.CondVar
import BTool.Foundation.Transition
import BTool.TaskQueue.SerialTaskQueue

/-! `TaskQueue`: a queue of functions under one lock, with producers in `add_task` and workers in
`pop_task`.

A step is one acquisition of the lock, one thing that is done under it, or one notification, which is
given without it. `wait(locker, predicate)` tests the predicate under the lock and, where it fails,
releases the lock and falls asleep in one go; nobody wakes up unless notified. -/

set_option linter.dupNamespace false

namespace BTool.TaskQueue

open BTool.Foundation

structure TaskQueue (F : Type) where
  bstop : Bool
  queue : List (TaskItem F)
  /-- 0 is no limit. -/
  maxTaskCount : UInt64
deriving DecidableEq

namespace TaskQueue

variable {F : Type}

def construct (maxTaskCount : UInt64) : TaskQueue F := { bstop := false, queue := [], maxTaskCount }

def size (queue : TaskQueue F) : Nat := queue.queue.length

def notFull (queue : TaskQueue F) : Bool :=
  queue.maxTaskCount = 0 || queue.size < queue.maxTaskCount.toNat

def full (queue : TaskQueue F) : Bool := !queue.notFull

def notEmpty (queue : TaskQueue F) : Bool := !queue.queue.isEmpty

def empty (queue : TaskQueue F) : Bool := !queue.notEmpty

/-- Where a producer is in `add_task`. -/
inductive AddStage (F : Type) where
  | outside
  | stopTest (func : TaskItem F)
  /-- At the lock, which a producer that has been woken takes again. -/
  | lock (func : TaskItem F)
  /-- At the predicate of the wait, with the lock. -/
  | test (func : TaskItem F)
  /-- About to fall asleep, with the lock. -/
  | sleep (func : TaskItem F)
  | asleep (func : TaskItem F)
  /-- Behind the wait, with the lock. -/
  | push (func : TaskItem F)
  /-- At `m_cv_not_empty.notify_one()`. -/
  | notify
deriving DecidableEq

/-- Where a worker is in `pop_task`. -/
inductive PopStage (F : Type) where
  | outside
  | lock
  /-- At the test of `m_bstop`, with the lock. -/
  | stopTest
  /-- At the predicate of the wait, with the lock. -/
  | test
  /-- About to fall asleep, with the lock. -/
  | sleep
  | asleep
  /-- Woken, and at the lock again. -/
  | woken
  /-- Behind the wait, with the lock. -/
  | take
  /-- At `m_cv_not_full.notify_one()`. -/
  | notify (popTask : TaskItem F)
  /-- At `if (pop_task) pop_task()`. -/
  | invoke (popTask : TaskItem F)
  | executing (task : F)
deriving DecidableEq

def AddStage.wake : AddStage F → AddStage F
  | .asleep func => .lock func
  | stage => stage

def PopStage.wake : PopStage F → PopStage F
  | .asleep => .woken
  | stage => stage

/-- Any number of producers and workers. -/
structure Threads (F Q W : Type) where
  queue : TaskQueue F
  mtx : Option (Q ⊕ W)
  adding : Q → AddStage F
  popping : W → PopStage F
  notFull : CondVar Q
  notEmpty : CondVar W
  /-- What has been pushed, in this order. -/
  accepted : List (TaskItem F)
  /-- What has been popped, in this order. -/
  taken : List (TaskItem F)
  /-- The functions that have been called, in this order. -/
  started : List F

inductive Action (F Q W : Type) where
  | callAdd (producer : Q) (func : TaskItem F)
  | callPop (worker : W)
  /-- A step of `add_task`, up to the notification. -/
  | add (producer : Q)
  /-- A step of `pop_task` other than the notification. -/
  | pop (worker : W)
  | notifyNotEmpty (producer : Q) (woken : Option W)
  | notifyNotFull (worker : W) (woken : Option Q)
deriving DecidableEq

namespace Threads

variable {Q W : Type} [DecidableEq Q] [DecidableEq W]

def init (maxTaskCount : UInt64) : Threads F Q W :=
  { queue := .construct maxTaskCount, mtx := none, adding := fun _ => .outside,
    popping := fun _ => .outside, notFull := .empty, notEmpty := .empty, accepted := [], taken := [],
    started := [] }

def moveAdd (threads : Threads F Q W) (producer : Q) (stage : AddStage F) : Threads F Q W :=
  { threads with adding := Function.update threads.adding producer stage }

def movePop (threads : Threads F Q W) (worker : W) (stage : PopStage F) : Threads F Q W :=
  { threads with popping := Function.update threads.popping worker stage }

/-- Take the lock, or wait until it is free. -/
def lock (threads : Threads F Q W) (thread : Q ⊕ W) : Option (Threads F Q W) :=
  match threads.mtx with
  | none => some { threads with mtx := some thread }
  | some _ => none

def unlock (threads : Threads F Q W) : Threads F Q W := { threads with mtx := none }

def addTask (threads : Threads F Q W) (producer : Q) : Option (Threads F Q W) :=
  match threads.adding producer with
  | .stopTest func => some (threads.moveAdd producer (if threads.queue.bstop then .outside else .lock func))
  | .lock func => (threads.lock (.inl producer)).map (·.moveAdd producer (.test func))
  | .test func => some (threads.moveAdd producer
      (if threads.queue.bstop || threads.queue.notFull then .push func else .sleep func))
  | .sleep func =>
    some ({ threads with notFull := threads.notFull.wait producer }.unlock.moveAdd producer (.asleep func))
  | .push func =>
    if threads.queue.bstop then some (threads.unlock.moveAdd producer .outside)
    else
      let queue := { threads.queue with queue := threads.queue.queue ++ [func] }
      some ({ threads with queue, accepted := threads.accepted ++ [func] }.unlock.moveAdd producer .notify)
  | _ => none

def popTask (threads : Threads F Q W) (worker : W) : Option (Threads F Q W) :=
  match threads.popping worker with
  | .lock => (threads.lock (.inr worker)).map (·.movePop worker .stopTest)
  | .stopTest => some (threads.movePop worker (if threads.queue.bstop then .take else .test))
  | .test => some (threads.movePop worker
      (if threads.queue.bstop || threads.queue.notEmpty then .take else .sleep))
  | .sleep => some ({ threads with notEmpty := threads.notEmpty.wait worker }.unlock.movePop worker .asleep)
  | .woken => (threads.lock (.inr worker)).map (·.movePop worker .test)
  | .take =>
    match threads.queue.queue with
    | [] => some (threads.unlock.movePop worker .outside)
    | func :: rest =>
      let queue := { threads.queue with queue := rest }
      some ({ threads with queue, taken := threads.taken ++ [func] }.unlock.movePop worker (.notify func))
  | .invoke none => some (threads.movePop worker .outside)
  | .invoke (some task) =>
    some ({ threads with started := threads.started ++ [task] }.movePop worker (.executing task))
  | .executing _ => some (threads.movePop worker .outside)
  | _ => none

/-- Whoever has been woken goes on. -/
def wakeProducer (threads : Threads F Q W) : Option Q → Threads F Q W
  | none => threads
  | some producer => threads.moveAdd producer (threads.adding producer).wake

def wakeWorker (threads : Threads F Q W) : Option W → Threads F Q W
  | none => threads
  | some worker => threads.movePop worker (threads.popping worker).wake

def next (threads : Threads F Q W) : Action F Q W → Option (Threads F Q W)
  | .callAdd producer func =>
    match threads.adding producer with
    | .outside => some (threads.moveAdd producer (.stopTest func))
    | _ => none
  | .callPop worker =>
    match threads.popping worker with
    | .outside => some (threads.movePop worker .lock)
    | _ => none
  | .add producer => threads.addTask producer
  | .pop worker => threads.popTask worker
  | .notifyNotEmpty producer woken =>
    match threads.adding producer with
    | .notify => (threads.notEmpty.notifyOne woken).map fun notEmpty =>
        ({ threads with notEmpty }.wakeWorker woken).moveAdd producer .outside
    | _ => none
  | .notifyNotFull worker woken =>
    match threads.popping worker with
    | .notify popTask => (threads.notFull.notifyOne woken).map fun notFull =>
        ({ threads with notFull }.wakeProducer woken).movePop worker (.invoke popTask)
    | _ => none

end Threads

end TaskQueue

end BTool.TaskQueue
