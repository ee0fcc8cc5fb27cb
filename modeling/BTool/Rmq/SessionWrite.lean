import Mathlib.Algebra.GroupWithZero.Nat
import BTool.Foundation.Transition

/-! What an RMQ `Session` does with the messages it is given to write. The sections under
`m_write_mtx` are the steps. `m_write_thread` has one worker, which runs the calls of `handle_write`
one after the other. -/

namespace BTool.Rmq

/-- A message to be written, with the copy that `write_inner` makes of its data. -/
structure WriteBufInfo where
  channelId : UInt16
  confirm : Bool
  data : List UInt8
  small : data.length < 2 ^ 64
deriving DecidableEq

/-- The `size` of the data, which is its `length` as well. -/
def WriteBufInfo.size (buf : WriteBufInfo) : UInt64 := UInt64.ofNat buf.data.length

/-- What `amqp_simple_wait_frame` gives. -/
inductive ConfirmFrame where
  | failed
  /-- The message comes back, or the channel or the connection is closed. -/
  | closing
  | other
deriving DecidableEq

/-- What `handle_write` learns from what it calls. -/
structure WriteReplies where
  stoped : Bool
  found : Bool
  published : Bool
  checked : Bool
  frame : ConfirmFrame
deriving DecidableEq

/-- What `handle_write` calls `write_cbk_` with, if it calls it. -/
def writeCbk (buf : WriteBufInfo) (replies : WriteReplies) : Option Bool :=
  if replies.stoped then some false
  else if !replies.found then none
  else if !replies.published then some false
  else if !replies.checked then none
  else if buf.confirm && (replies.frame = .failed || replies.frame = .closing) then none
  else some true

@[ext] structure Session where
  maxWbufferSize : UInt64
  curWbufferSize : UInt64
  curInWrite : Bool
  writeBuf : List WriteBufInfo
  /-- The calls of `handle_write` in `m_write_thread` that have not returned, the oldest first. -/
  writeThread : List WriteBufInfo
  /-- What `write_inner` has accepted so far. -/
  accepted : List WriteBufInfo
  /-- The calls of `handle_write` that have returned, with what they called `write_cbk_` with. -/
  handled : List (WriteBufInfo × Option Bool)
  /-- `front` and `pop` have been called on an empty `m_write_buf`. -/
  emptyFront : Bool
deriving DecidableEq

inductive SessionAction where
  | writeInner (buf : WriteBufInfo)
  /-- The worker comes to the end of its `handle_write`. -/
  | handleWrite (replies : WriteReplies)
  /-- A login or another one after a reconnect comes to the messages from before it. -/
  | handleLogin
deriving DecidableEq

/-- The bytes of the messages together. -/
def totalSize (bufs : List WriteBufInfo) : Nat := (bufs.map fun buf => buf.data.length).sum

namespace Session

def construct (maxWbufferSize : UInt64) : Session := ⟨maxWbufferSize, 0, false, [], [], [], [], false⟩

def asyncWriteInner (session : Session) (buf : WriteBufInfo) : Session :=
  { session with writeThread := session.writeThread ++ [buf] }

/-- The messages that are neither refused nor handled, each of which has a copy in memory. -/
def live (session : Session) : List WriteBufInfo := session.writeThread ++ session.writeBuf

/-- No result where there is no memory for the copy. -/
def writeInner (session : Session) (buf : WriteBufInfo) : Option (Session × Bool) :=
  if session.maxWbufferSize > 0 && session.curWbufferSize + buf.size > session.maxWbufferSize then
    some (session, false)
  else if totalSize session.live + buf.data.length < 2 ^ 64 then
    let session := { session with
      curWbufferSize := session.curWbufferSize + buf.size
      accepted := session.accepted ++ [buf] }
    if session.curInWrite then some ({ session with writeBuf := session.writeBuf ++ [buf] }, true)
    else some ({ session with curInWrite := true }.asyncWriteInner buf, true)
  else none

/-- The scope guard of `handle_write`. -/
def handleWriteExit (session : Session) (buf : WriteBufInfo) : Session :=
  let session := { session with curWbufferSize := session.curWbufferSize - buf.size }
  match session.writeBuf with
  | [] => { session with curInWrite := false }
  | front :: rest => { session with writeBuf := rest }.asyncWriteInner front

def handleWrite (session : Session) (replies : WriteReplies) : Option Session :=
  match session.writeThread with
  | [] => none
  | buf :: rest =>
    let session := { session with
      writeThread := rest
      handled := session.handled ++ [(buf, writeCbk buf replies)] }
    some (session.handleWriteExit buf)

def handleLogin (session : Session) : Session :=
  if session.curInWrite then
    match session.writeBuf with
    | [] => { session with emptyFront := true }
    | front :: rest => { session with writeBuf := rest }.asyncWriteInner front
  else session

/-- Nothing can be said of a session once `front` has been called on an empty queue. -/
def next (session : Session) (action : SessionAction) : Option Session :=
  if session.emptyFront then none
  else
    match action with
    | .writeInner buf => (session.writeInner buf).map Prod.fst
    | .handleWrite replies => session.handleWrite replies
    | .handleLogin => some session.handleLogin

end Session

end BTool.Rmq
