import BTool.Timer.TimerQueue

/-! The `TimerManager` while it is started, and its timer: `expires_at` and `cancel` complete the waits
that are armed with `operation_aborted`, and completions are handled later in any order. -/

namespace BTool.Timer

open BTool.Foundation

/-- The task and the time point that an `async_wait` has bound to its handler. -/
structure Wait where
  timerTask : Nat
  timePoint : Int
deriving DecidableEq

/-- The error code of a completion. -/
inductive WaitError where
  | success
  | operationAborted
  | other
deriving DecidableEq

structure TimerManager where
  spaceMillsecond : UInt64
  /-- The address of `m_cur_task`. -/
  curTask : Option Nat
  nextId : Nat
  timerQueue : TimerQueue
  /-- The waits that have not been completed. -/
  armed : List Wait
  /-- The completions whose handlers have not run. -/
  pending : List (Wait × WaitError)

namespace TimerManager

def construct (spaceMillsecond : UInt64) : TimerManager :=
  { spaceMillsecond, curTask := none, nextId := invalidTid, timerQueue := .construct, armed := [],
    pending := [] }

/-- `cancel` of the timer, which `expires_at` does too. -/
def cancelWaits (manager : TimerManager) : TimerManager :=
  { manager with
    armed := []
    pending := manager.pending ++ manager.armed.map fun wait => (wait, .operationAborted) }

/-- `start` of a task. -/
def start (manager : TimerManager) (timerTask : Nat) : TimerManager :=
  let manager := manager.cancelWaits
  { manager with armed := manager.armed ++
    [⟨timerTask, (manager.timerQueue.task timerTask).timePoint⟩] }

/-- A time point is rounded up to the next slice, in unsigned milliseconds, and becomes a signed number
of nanoseconds in 64 bits again. -/
def reviseTimePoint (manager : TimerManager) (timePoint : Int) : Int :=
  if 1 < manager.spaceMillsecond then
    let count := (Int64.ofInt (timePoint.tdiv 1000000)).toUInt64
    (((count + manager.spaceMillsecond - 1) / manager.spaceMillsecond * manager.spaceMillsecond).toInt64 *
      1000000).toInt
  else timePoint

def reviseInterval (manager : TimerManager) (intervalMs : UInt32) : UInt32 :=
  if 1 < manager.spaceMillsecond then
    ((intervalMs.toUInt64 + manager.spaceMillsecond - 1) / manager.spaceMillsecond * manager.spaceMillsecond).toUInt32
  else intervalMs

def getNextTimerId (manager : TimerManager) : Nat := (manager.nextId + 1) % 2 ^ 64

/-- The insertion into the queue. -/
def insertTask (manager : TimerManager) (intervalMs : UInt32) (loopCount : Int) (timePoint : Int) :
    TimerQueue × Option Nat :=
  manager.timerQueue.insert (manager.reviseInterval intervalMs).toNat loopCount manager.getNextTimerId
    (manager.reviseTimePoint timePoint)

def insert (manager : TimerManager) (intervalMs : UInt32) (loopCount : Int) (timePoint : Int) :
    TimerManager × Nat :=
  let timerId := manager.getNextTimerId
  let (timerQueue, item) := manager.insertTask intervalMs loopCount timePoint
  let manager := { manager with nextId := timerId, timerQueue }
  match item with
  | none => (manager, invalidTid)
  | some item =>
    if manager.curTask = none then ({ manager with curTask := some item }.start item, timerId)
    else if manager.curTask ≠ manager.timerQueue.front then (manager.cancelWaits, timerId)
    else (manager, timerId)

/-- The clock says `now`. -/
def insertDurationOnce (manager : TimerManager) (now : Int) (durationMs : UInt32) :
    TimerManager × Nat :=
  manager.insert 0 1 (now + 1000000 * durationMs.toNat)

def erase (manager : TimerManager) (timerId : Nat) : TimerManager :=
  let (timerQueue, eraseTask) := manager.timerQueue.erase timerId
  let manager := { manager with timerQueue }
  if eraseTask ≠ none ∧ eraseTask = manager.curTask then manager.cancelWaits else manager

def clear (manager : TimerManager) : TimerManager :=
  { { manager with timerQueue := manager.timerQueue.clear }.cancelWaits with curTask := none }

def clearPointTimer (manager : TimerManager) (timePoint : Int) : TimerManager :=
  let (timerQueue, eraseSet) := manager.timerQueue.clearPointTimer timePoint
  let manager := { manager with timerQueue }
  if ∃ task ∈ eraseSet, manager.curTask = some task then manager.cancelWaits else manager

/-- What the completion handler of a wait leaves of the queue. -/
def handleQueue (manager : TimerManager) (error : WaitError) (wait : Wait) : TimerQueue :=
  match error with
  | .success => manager.timerQueue.loopPointTimer wait.timePoint
  | .operationAborted => manager.timerQueue
  | .other => (manager.timerQueue.erase (manager.timerQueue.task wait.timerTask).id).1

/-- The completion handler of a wait. -/
def handler (manager : TimerManager) (error : WaitError) (wait : Wait) : TimerManager :=
  let manager := { manager with curTask := none, timerQueue := manager.handleQueue error wait }
  if manager.timerQueue.empty then manager
  else
    match manager.timerQueue.front with
    | none => manager
    | some task => { manager with curTask := some task }.start task

inductive Action where
  | insert (intervalMs : UInt32) (loopCount : Int) (timePoint : Int)
  | erase (timerId : Nat)
  | clear
  | clearPointTimer (timePoint : Int)
  /-- The timer completes the waits that are armed, because it is time or for an error of its own. -/
  | complete (error : WaitError)
  /-- The handler of a completion runs. -/
  | handle (wait : Wait) (error : WaitError)
deriving DecidableEq

def next (manager : TimerManager) : Action → Option TimerManager
  | .insert intervalMs loopCount timePoint => some (manager.insert intervalMs loopCount timePoint).1
  | .erase timerId => some (manager.erase timerId)
  | .clear => some manager.clear
  | .clearPointTimer timePoint => some (manager.clearPointTimer timePoint)
  | .complete error =>
    if manager.armed ≠ [] ∧ error ≠ .operationAborted then
      some { manager with
        armed := [], pending := manager.pending ++ manager.armed.map fun wait => (wait, error) }
    else none
  | .handle wait error =>
    if (wait, error) ∈ manager.pending then
      some ({ manager with pending := manager.pending.erase (wait, error) }.handler error wait)
    else none

end TimerManager

end BTool.Timer
