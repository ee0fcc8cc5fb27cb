import BTool.Foundation.Tally
import BTool.Foundation.Transition
import BTool.TaskPool.AtomicSwitch

/-! The connection of an RMQ `Session` that has channels, over any number of attempts to connect, and who
uses it.

`m_read_thread` has one worker, which connects, handles channels and reads, one task after the other. Any
other thread calls `connect`, `shutdown` and what else uses the connection, or is the worker of
`m_write_thread`. What librabbitmq replies is arbitrary, and a call that a callback makes is one of another
thread, which comes back while the callback runs. -/

namespace BTool.Rmq

open BTool.Foundation BTool.TaskPool BTool.TaskPool.AtomicSwitch

/-- A task of `m_read_thread`. -/
inductive ReadTask where
  /-- `handle_connect`. -/
  | connect
  /-- `handle_channel` or `close_channel` of `reconnect_channel`, where it comes to a call of the library. -/
  | channel
  /-- `handle_read`. -/
  | read
deriving DecidableEq

/-- Where a thread is in a function of the session. -/
inductive SessionPc where
  | outside
  /-- `connect`, at `m_atomic_switch.init`. -/
  | init
  /-- `connect`, at `add_task`. -/
  | adding
  /-- `ack`, `bind`, or `shutdown` of a channel that is started. -/
  | calling
  /-- `handle_write`, at `m_atomic_switch.has_stoped`. -/
  | writeTest (pc : HasStopedPc)
  /-- `handle_write`, from `amqp_basic_publish` on. -/
  | publish
  /-- `handle_connect`, as far as `amqp_socket_open`. -/
  | newConnection
  | login
  /-- `handle_login`, at `m_atomic_switch.start`. -/
  | starting (pc : StartPc)
  /-- `handle_login`, behind `m_atomic_switch.start`, at the call of `open_cbk_`. -/
  | atOpenCbk
  | openCbk
  /-- `handle_login`, at its channels, of which one at least is not handled yet. -/
  | channels
  | channel
  /-- `handle_read`, at `amqp_consume_message`. -/
  | consuming
  /-- `handle_read`, at `close_channel` of a channel that is started. -/
  | closeChannel
  /-- `handle_read`, in its callback, with the message to be acknowledged or not. -/
  | readCbk (acks : Bool)
  | ack
  /-- `handle_read`, at `m_atomic_switch.has_stoped`. -/
  | readTest (pc : HasStopedPc)
  /-- `close`, at `m_atomic_switch.stop`. -/
  | stopping (pc : StopPc)
  /-- `close`, at `amqp_connection_close`. -/
  | destroying
  | resetting (pc : ResetPc)
  /-- `close`, behind `m_atomic_switch.reset`, at the call of `close_cbk_`. -/
  | atCloseCbk
  | closeCbk
deriving DecidableEq

/-- What a function of the session learns from the library. -/
inductive Reply where
  | noConnection
  | notOpened
  | opened
  | loginFails
  | loginSucceeds
  /-- The channels are handled, and one of them reads or none does. -/
  | handled (needReceive : Bool)
  /-- `amqp_consume_message` gives no channel that the session has, for want of time. -/
  | timedOut
  /-- It gives no channel that the session has, for another reason. -/
  | noChannel
  /-- It fails for a channel of the session, whose switch is started or is not. -/
  | channelFails (started : Bool)
  | message (acks : Bool)
deriving DecidableEq

/-- A session with its threads. The worker of `m_read_thread` is the thread `none`. -/
structure SessionLife (User : Type) where
  switch : AtomicSwitch
  places : Option User → SessionPc
  /-- `m_connection` is a connection that `handle_connect` has tried to open, and has not been destroyed. -/
  connected : Bool
  /-- The tasks of `m_read_thread` that have not been begun, the oldest first. -/
  tasks : List ReadTask
  /-- How many calls of `connect` have got through. -/
  attempts : Nat
  /-- How often the open callback has been called. -/
  opened : Nat
  /-- How many calls of `close` have got through. -/
  closes : Nat
  /-- How many of them are behind `m_atomic_switch.reset`. -/
  resets : Nat
  /-- How often the close callback has been called. -/
  closed : Nat
  /-- How many messages have been read. -/
  messages : Nat

inductive LifeAction (User : Type) where
  /-- `connect` or `reconnect`. -/
  | connect (user : User)
  | shutdown (user : User)
  /-- A call that uses the connection without a test. -/
  | call (user : User)
  | reconnectChannel (user : User)
  /-- The worker of `m_write_thread` comes with a message of a channel that is open to the test of the session. -/
  | write (user : User)
  /-- The worker of `m_read_thread` begins with a task. -/
  | take
  | reply (thread : Option User) (reply : Reply)
  | step (thread : Option User)
deriving DecidableEq

namespace SessionLife

variable {User : Type} [DecidableEq User]

def construct : SessionLife User := ⟨.construct, fun _ => .outside, false, [], 0, 0, 0, 0, 0, 0⟩

def goto (life : SessionLife User) (thread : Option User) (pc : SessionPc) : SessionLife User :=
  { life with places := Function.update life.places thread pc }

def addTask (life : SessionLife User) (task : ReadTask) : SessionLife User :=
  { life with tasks := life.tasks ++ [task] }

/-- A thread that is outside of the session comes in. -/
def enter (life : SessionLife User) (thread : Option User) (pc : SessionPc) : Option (SessionLife User) :=
  if life.places thread = .outside then some (life.goto thread pc) else none

/-- A thread goes on with what the library has replied. -/
def hear (life : SessionLife User) (thread : Option User) (reply : Reply) : Option (SessionLife User) :=
  match life.places thread, reply with
  | .newConnection, .noConnection => some ({ life with connected := false }.goto thread (.stopping .loadInit))
  | .newConnection, .notOpened => some ({ life with connected := true }.goto thread (.stopping .loadInit))
  | .newConnection, .opened => some ({ life with connected := true }.goto thread .login)
  | .login, .loginFails => some (life.goto thread (.stopping .loadInit))
  | .login, .loginSucceeds => some (life.goto thread (.starting .loadStop))
  | .channels, .handled needReceive =>
    some ((if needReceive then life.addTask .read else life).goto thread .outside)
  | .consuming, .timedOut => some ((life.addTask .read).goto thread .outside)
  | .consuming, .noChannel => some (life.goto thread (.stopping .loadInit))
  | .consuming, .channelFails started => some (life.goto thread (if started then .closeChannel else .outside))
  | .consuming, .message acks => some ({ life with messages := life.messages + 1 }.goto thread (.readCbk acks))
  | _, _ => none

/-- A thread goes on in its function. -/
def step (life : SessionLife User) (thread : Option User) : Option (SessionLife User) :=
  match life.places thread with
  | .outside | .newConnection | .login | .channels | .consuming => none
  | .init =>
    let (switch, set) := life.switch.init
    some (if set then { life with switch, attempts := life.attempts + 1 }.goto thread .adding
      else { life with switch }.goto thread .outside)
  | .adding => some ((life.addTask .connect).goto thread .outside)
  | .writeTest pc =>
    some (life.goto thread
      ((life.switch.hasStoped pc).elim .writeTest fun stoped => if stoped then .outside else .publish))
  | .starting pc =>
    match life.switch.start pc with
    | (switch, .goes pc) => some ({ life with switch }.goto thread (.starting pc))
    | (switch, .returns true) => some ({ life with switch }.goto thread .atOpenCbk)
    | (switch, .returns false) => some ({ life with switch }.goto thread .channels)
  | .atOpenCbk => some ({ life with opened := life.opened + 1 }.goto thread .openCbk)
  | .openCbk => some (life.goto thread .channels)
  | .readCbk acks => some (life.goto thread (if acks then .ack else .readTest .loadInit))
  | .ack => some (life.goto thread (.readTest .loadInit))
  | .readTest pc =>
    match life.switch.hasStoped pc with
    | .goes pc => some (life.goto thread (.readTest pc))
    | .returns stoped => some ((if stoped then life else life.addTask .read).goto thread .outside)
  | .stopping pc =>
    match life.switch.stop pc with
    | (switch, .goes pc) => some ({ life with switch }.goto thread (.stopping pc))
    | (switch, .returns true) => some ({ life with switch, closes := life.closes + 1 }.goto thread .destroying)
    | (switch, .returns false) => some ({ life with switch }.goto thread .outside)
  | .destroying => some ({ life with connected := false }.goto thread (.resetting .storeStart))
  | .resetting pc =>
    match life.switch.reset pc with
    | (switch, .goes pc) => some ({ life with switch }.goto thread (.resetting pc))
    | (switch, .returns _) => some ({ life with switch, resets := life.resets + 1 }.goto thread .atCloseCbk)
  | .atCloseCbk => some ({ life with closed := life.closed + 1 }.goto thread .closeCbk)
  | .calling | .publish | .channel | .closeChannel | .closeCbk => some (life.goto thread .outside)

/-- The worker of `m_read_thread` begins with its next task. -/
def take (life : SessionLife User) : Option (SessionLife User) :=
  match life.tasks with
  | [] => none
  | task :: tasks =>
    { life with tasks }.enter none
      (match task with
        | .connect => .newConnection
        | .channel => .channel
        | .read => .consuming)

def next (life : SessionLife User) : LifeAction User → Option (SessionLife User)
  | .connect user => life.enter (some user) .init
  | .shutdown user => life.enter (some user) (.stopping .loadInit)
  | .call user => life.enter (some user) .calling
  | .reconnectChannel _ => some (life.addTask .channel)
  | .write user => life.enter (some user) (.writeTest .loadInit)
  | .take => life.take
  | .reply thread reply => life.hear thread reply
  | .step thread => life.step thread

end SessionLife

end BTool.Rmq
