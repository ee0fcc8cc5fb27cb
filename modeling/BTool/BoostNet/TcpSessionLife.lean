import BTool.Foundation.Locals
import BTool.Foundation.Transition
import BTool.TaskPool.AtomicSwitch

/-! The life of a `TcpSession` that a server has accepted, from `start` to its close.

Any number of threads call `shutdown` and `write` and take the completions of its reads and writes, in any
order and with any outcome. A call that a callback makes is one of another thread, which comes back while the
callback runs. -/

namespace BTool.BoostNet

open BTool.Foundation BTool.TaskPool BTool.TaskPool.AtomicSwitch

/-- Where a thread is in a function of the session. -/
inductive SessionPc where
  | outside
  /-- `start`, at `m_atomic_switch.init`. -/
  | init
  /-- `handle_start`, at `m_atomic_switch.start`. -/
  | starting (pc : StartPc)
  /-- `handle_start`, at its `read`. -/
  | firstRead
  /-- `handle_start`, behind its `read`. -/
  | atOpenCbk
  | openCbk
  | readCbk
  /-- `handle_read`, behind its callback. -/
  | readTest (pc : HasStopedPc)
  | nextRead
  /-- `handle_write`, in front of its callback. -/
  | writeTest (pc : HasStopedPc)
  | writeCbk
  /-- `handle_write`, at `m_write_mtx`. -/
  | release
  /-- `write`, at `m_write_mtx`. The message has room in the buffer or has none. -/
  | sending (sendMsg : List UInt8) (room : Bool)
  | sendTest (sendMsg : List UInt8) (room : Bool) (pc : HasStartedPc)
  /-- `shutdown`, at `m_atomic_switch.stop`. -/
  | stopping (pc : StopPc)
  /-- `close`, at `m_write_mtx`. -/
  | closing
  | resetting (pc : ResetPc)
  | clearing
  /-- `close`, behind `m_write_mtx`. -/
  | atCloseCbk
  | closeCbk
deriving DecidableEq

/-- A session and its threads, with the operations that are on their way and what has been called. -/
structure SessionLife (Thread : Type) where
  switch : AtomicSwitch
  places : Thread → SessionPc
  writeMtx : Option Thread
  socketOpen : Bool
  /-- The items of `m_write_buf`. -/
  items : List (List UInt8)
  currentSendMsg : Option (List UInt8)
  /-- How many `async_read_some` are outstanding. -/
  reads : Nat
  /-- How many `async_write` are outstanding. -/
  writes : Nat
  /-- The messages whose `write` returned true. -/
  accepted : List (List UInt8)
  /-- What has been handed to `async_write`. -/
  sent : List (List UInt8)
  /-- `start` has been called. -/
  called : Bool
  /-- How many calls of `m_atomic_switch.start` have returned true. -/
  starts : Nat
  /-- How many calls of `m_atomic_switch.stop` have returned true, each of which is one call of `close`. -/
  closes : Nat
  /-- How often the open callback has been called. -/
  opened : Nat
  /-- How often the close callback has been called. -/
  closed : Nat

inductive SessionAction (Thread : Type) where
  | start (thread : Thread)
  | shutdown (thread : Thread)
  | write (thread : Thread) (sendMsg : List UInt8) (room : Bool)
  /-- A thread runs `handle_read`. -/
  | readDone (thread : Thread) (success : Bool)
  /-- A thread runs `handle_write`. -/
  | writeDone (thread : Thread) (success : Bool)
  | step (thread : Thread)
deriving DecidableEq

namespace SessionLife

variable {Thread : Type} [DecidableEq Thread]

def construct : SessionLife Thread :=
  ⟨.construct, fun _ => .outside, none, true, [], none, 0, 0, [], [], false, 0, 0, 0, 0⟩

def goto (life : SessionLife Thread) (thread : Thread) (pc : SessionPc) : SessionLife Thread :=
  { life with places := Function.update life.places thread pc }

/-- `write` without a message. There is one where it is called. -/
def writeNext (life : SessionLife Thread) : SessionLife Thread :=
  match life.items with
  | [] => life
  | msg :: items =>
    { life with items, currentSendMsg := some msg, writes := life.writes + 1, sent := life.sent ++ [msg] }

/-- What `write` does with a message that it takes. -/
def send (life : SessionLife Thread) (sendMsg : List UInt8) : SessionLife Thread :=
  let appended := { life with items := life.items ++ [sendMsg], accepted := life.accepted ++ [sendMsg] }
  if life.currentSendMsg.isSome then appended else appended.writeNext

/-- What `handle_write` does with the mutex. -/
def release (life : SessionLife Thread) : SessionLife Thread :=
  { life with currentSendMsg := none }.writeNext

/-- The thread gets `m_write_mtx`, if nobody has it. -/
def lockWrite (life : SessionLife Thread) (thread : Thread) (pc : SessionPc) : Option (SessionLife Thread) :=
  if life.writeMtx = none then some ({ life with writeMtx := some thread }.goto thread pc) else none

/-- A thread goes on in its function. -/
def step (life : SessionLife Thread) (thread : Thread) : Option (SessionLife Thread) :=
  match life.places thread with
  | .outside => none
  | .init =>
    let (switch, set) := life.switch.init
    some ({ life with switch }.goto thread (if set then .starting .loadStop else .outside))
  | .starting pc =>
    match life.switch.start pc with
    | (switch, .goes pc) => some ({ life with switch }.goto thread (.starting pc))
    | (switch, .returns true) => some ({ life with switch, starts := life.starts + 1 }.goto thread .firstRead)
    | (switch, .returns false) => some ({ life with switch }.goto thread .outside)
  | .firstRead => some ({ life with reads := life.reads + 1 }.goto thread .atOpenCbk)
  | .atOpenCbk => some ({ life with opened := life.opened + 1 }.goto thread .openCbk)
  | .openCbk => some (life.goto thread .outside)
  | .readCbk => some (life.goto thread (.readTest .loadInit))
  | .readTest pc =>
    some (life.goto thread
      ((life.switch.hasStoped pc).elim .readTest fun stoped => if stoped then .outside else .nextRead))
  | .nextRead => some ({ life with reads := life.reads + 1 }.goto thread .outside)
  | .writeTest pc =>
    some (life.goto thread
      ((life.switch.hasStoped pc).elim .writeTest fun stoped => if stoped then .outside else .writeCbk))
  | .writeCbk => some (life.goto thread .release)
  | .release => if life.writeMtx = none then some (life.release.goto thread .outside) else none
  | .sending sendMsg room => life.lockWrite thread (.sendTest sendMsg room .loadStop)
  | .sendTest sendMsg room pc =>
    match life.switch.hasStarted pc with
    | .goes pc => some (life.goto thread (.sendTest sendMsg room pc))
    | .returns started =>
      some ({ (if started && room then life.send sendMsg else life) with writeMtx := none }.goto thread .outside)
  | .stopping pc =>
    match life.switch.stop pc with
    | (switch, .goes pc) => some ({ life with switch }.goto thread (.stopping pc))
    | (switch, .returns true) => some ({ life with switch, closes := life.closes + 1 }.goto thread .closing)
    | (switch, .returns false) => some ({ life with switch }.goto thread .outside)
  | .closing =>
    { life with socketOpen := life.socketOpen && !life.switch.binit }.lockWrite thread (.resetting .storeStart)
  | .resetting pc =>
    let (switch, progress) := life.switch.reset pc
    some ({ life with switch }.goto thread (progress.elim .resetting fun _ => .clearing))
  | .clearing =>
    some ({ life with writeMtx := none, items := [], currentSendMsg := none }.goto thread .atCloseCbk)
  | .atCloseCbk => some ({ life with closed := life.closed + 1 }.goto thread .closeCbk)
  | .closeCbk => some (life.goto thread .outside)

/-- A thread that is outside of the session comes in. -/
def enter (life : SessionLife Thread) (thread : Thread) (pc : SessionPc) : Option (SessionLife Thread) :=
  if life.places thread = .outside then some (life.goto thread pc) else none

/-- `start` is called once. -/
def next (life : SessionLife Thread) : SessionAction Thread → Option (SessionLife Thread)
  | .start thread => if life.called then none else { life with called := true }.enter thread .init
  | .shutdown thread => life.enter thread (.stopping .loadInit)
  | .write thread sendMsg room => life.enter thread (.sending sendMsg room)
  | .readDone thread success =>
    if life.reads = 0 then none
    else { life with reads := life.reads - 1 }.enter thread (if success then .readCbk else .stopping .loadInit)
  | .writeDone thread success =>
    if life.writes = 0 then none
    else
      { life with writes := life.writes - 1 }.enter thread
        (if success then .writeTest .loadInit else .stopping .loadInit)
  | .step thread => life.step thread

end SessionLife

end BTool.BoostNet
