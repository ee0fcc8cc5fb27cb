import Mathlib.Algebra.Group.Int.Defs
import Mathlib.Algebra.Group.Nat.Defs
import Mathlib.Logic.Function.Basic
import Mathlib.Order.Basic
import BTool.Foundation.OrderedMap

/-! `TimerTask` and the `TimerQueue` of the timer manager. Time points are counted in nanoseconds.

Both maps of the queue hold the addresses of the same task objects, which change under them. -/

namespace BTool.Timer

open BTool.Foundation

/-- `INVALID_TID`. -/
def invalidTid : Nat := 0

structure TimerTask where
  id : Nat
  /-- How often it is to be executed; 0 is for ever. -/
  loopCount : Int
  loopIndex : Int
  /-- In milliseconds. -/
  interval : Nat
  timePoint : Int
deriving DecidableEq

namespace TimerTask

def construct (intervalMs : Nat) (loopCount : Int) (id : Nat) (timePoint : Int) : TimerTask :=
  { id, loopCount, loopIndex := 0, interval := intervalMs, timePoint }

def cancel (task : TimerTask) : TimerTask := { task with loopCount := -1 }

def needNext (task : TimerTask) : Bool := task.loopCount == 0 || task.loopIndex < task.loopCount

def loopOnceCount (task : TimerTask) : TimerTask :=
  if !task.needNext then task
  else if task.loopCount != 0 then { task with loopIndex := task.loopIndex + 1 } else task

def loopOnceTime (task : TimerTask) : TimerTask :=
  { task with timePoint := task.timePoint + 1000000 * task.interval }

end TimerTask

structure TimerQueue where
  /-- The task objects, by their addresses. -/
  task : Nat → TimerTask
  allocated : Nat
  allTimerMap : OrderedMap Nat Nat
  timerPartQueue : SlotMap Int Nat Nat
  /-- What the task pool has been given, and not cleared of: a task object and a time point. -/
  taskPool : List (Nat × Int)

namespace TimerQueue

def construct : TimerQueue :=
  { task := fun _ => .construct 0 0 invalidTid 0, allocated := 0, allTimerMap := .empty,
    timerPartQueue := .empty, taskPool := [] }

/-- The object at this address changes. -/
def change (queue : TimerQueue) (address : Nat) (task : TimerTask) : TimerQueue :=
  { queue with task := Function.update queue.task address task }

def insert (queue : TimerQueue) (intervalMs : Nat) (loopCount : Int) (id : Nat) (timePoint : Int) :
    TimerQueue × Option Nat :=
  if id = invalidTid then (queue, none)
  else if (queue.allTimerMap.find? id).isSome then (queue, none)
  else
    let item := TimerTask.construct intervalMs loopCount id timePoint
    let address := queue.allocated
    ({ queue.change address item with
      allocated := address + 1
      allTimerMap := queue.allTimerMap.insert id address
      timerPartQueue := queue.timerPartQueue.put item.timePoint id address }, some address)

def size (queue : TimerQueue) : Nat := queue.allTimerMap.size

def timePointSize (queue : TimerQueue) : Nat := queue.timerPartQueue.size

def removeFromAllMap (queue : TimerQueue) (timerId : Nat) : TimerQueue :=
  { queue with allTimerMap := queue.allTimerMap.erase timerId }

def removeFromPartQueue (queue : TimerQueue) (timerId : Nat) (timePoint : Int) : TimerQueue :=
  { queue with timerPartQueue := queue.timerPartQueue.remove timePoint timerId }

def erase (queue : TimerQueue) (timerId : Nat) : TimerQueue × Option Nat :=
  match queue.allTimerMap.find? timerId with
  | none => (queue, none)
  | some address =>
    let queue := queue.change address (queue.task address).cancel
    ((queue.removeFromAllMap timerId).removeFromPartQueue timerId (queue.task address).timePoint,
      some address)

def clear (queue : TimerQueue) : TimerQueue :=
  { queue with allTimerMap := .empty, timerPartQueue := .empty, taskPool := [] }

def empty (queue : TimerQueue) : Bool := queue.allTimerMap.isEmpty

/-- Not defined when there is no slot, or the first one is empty. -/
def front (queue : TimerQueue) : Option Nat := queue.timerPartQueue.front?

/-- Cancel one task of the slot that is cleared. -/
def clearItem (queue : TimerQueue) (item : Nat × Nat) : TimerQueue :=
  let queue := queue.change item.2 (queue.task item.2).cancel
  queue.removeFromAllMap (queue.task item.2).id

def clearPointTimer (queue : TimerQueue) (timePoint : Int) : TimerQueue × List Nat :=
  match queue.timerPartQueue.find? timePoint with
  | none => (queue, [])
  | some slot =>
    let queue := slot.entries.foldl clearItem queue
    ({ queue with timerPartQueue := queue.timerPartQueue.erase timePoint },
      slot.entries.map Prod.snd)

/-- Give the task pool an invocation of this task. -/
def addTask (queue : TimerQueue) (address : Nat) : TimerQueue :=
  { queue with taskPool := queue.taskPool ++ [(address, (queue.task address).timePoint)] }

/-- Put a task into the slot of its time point. -/
def putIntoPartQueue (queue : TimerQueue) (address : Nat) : TimerQueue :=
  { queue with
    timerPartQueue :=
      queue.timerPartQueue.put (queue.task address).timePoint (queue.task address).id address }

/-- Loop over one task of the copy of a slot. -/
def loopItem (queue : TimerQueue) (entry : Nat × Nat) : TimerQueue :=
  let address := entry.2
  let queue := (queue.addTask address).change address (queue.task address).loopOnceCount
  let item := queue.task address
  if !item.needNext then
    (queue.removeFromAllMap item.id).removeFromPartQueue item.id item.timePoint
  else
    ((queue.removeFromPartQueue item.id item.timePoint).change address item.loopOnceTime).putIntoPartQueue address

def loopPointTimer (queue : TimerQueue) (timePoint : Int) : TimerQueue :=
  match queue.timerPartQueue.find? timePoint with
  | none => queue
  | some slot => slot.entries.foldl loopItem queue

/-- A call of one of the operations. -/
inductive Operation where
  | insert (intervalMs : Nat) (loopCount : Int) (id : Nat) (timePoint : Int)
  | erase (timerId : Nat)
  | clear
  | clearPointTimer (timePoint : Int)
  | loopPointTimer (timePoint : Int)
deriving DecidableEq

def next (queue : TimerQueue) : Operation → Option TimerQueue
  | .insert intervalMs loopCount id timePoint =>
    some (queue.insert intervalMs loopCount id timePoint).1
  | .erase timerId => some (queue.erase timerId).1
  | .clear => some queue.clear
  | .clearPointTimer timePoint => some (queue.clearPointTimer timePoint).1
  | .loopPointTimer timePoint => some (queue.loopPointTimer timePoint)

end TimerQueue

end BTool.Timer
