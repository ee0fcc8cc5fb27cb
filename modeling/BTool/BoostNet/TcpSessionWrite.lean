import BTool.BoostNet.WriteBufferContents

/-! The write path of a `TcpSession` within one connection. Messages wait in the buffer while one is
being sent; whether one is can be seen from `m_current_send_msg`. -/

namespace BTool.BoostNet

open BTool.Foundation BTool.Foundation.Path

/-- How far an `async_write` is: on its way, or its handler has told the callback. -/
inductive WriteProgress where
  | sending
  | handling
deriving DecidableEq

/-- With what has been handed to `async_write`, what the callback has been told, and the messages
whose `write` returned true. -/
structure TcpSession where
  started : Bool
  writeBuf : WriteBuffer
  currentSendMsg : Option MemoryStream
  outstanding : List WriteProgress
  sent : List (Option (List UInt8))
  reported : List (Option (List UInt8))
  accepted : List (List UInt8)
  /-- There was nothing to pop, or a copy left its blocks. -/
  faulted : Bool
deriving DecidableEq

inductive WriteAction where
  | start
  | write (sendMsg : List UInt8)
  /-- An `async_write` has succeeded, and `handle_write` is at its callback. -/
  | complete (index : Nat)
  /-- The rest of `handle_write`, which is done with the mutex. -/
  | finish (index : Nat)
deriving DecidableEq

namespace TcpSession

/-- A session is made with any size of its streams and any number of them in the pool. -/
def construct (defaultSize poolSize : Nat) : TcpSession :=
  ⟨false, .construct defaultSize poolSize, none, [], [], [], [], false⟩

/-- `write` without a message: the first item becomes the one that is being sent. -/
def writeNext (session : TcpSession) : TcpSession :=
  match session.writeBuf.popFront with
  | none => { session with faulted := true }
  | some (msg, writeBuf) =>
    { session with
      writeBuf
      currentSendMsg := some msg
      outstanding := session.outstanding ++ [.sending]
      sent := session.sent ++ [msg.bytes] }

/-- Whether the message is taken, and the session with it. -/
def write (defaultSize : Nat) (maxWbufferSize : UInt64) (session : TcpSession) (sendMsg : List UInt8) :
    Bool × TcpSession :=
  if session.started = false then (false, session)
  else if 0 < maxWbufferSize ∧
      maxWbufferSize < session.writeBuf.allLen + UInt64.ofNat sendMsg.length then (false, session)
  else
    match session.writeBuf.append defaultSize sendMsg with
    | none => (false, { session with faulted := true })
    | some writeBuf =>
      let session := { session with writeBuf, accepted := session.accepted ++ [sendMsg] }
      if session.currentSendMsg.isSome then (true, session) else (true, session.writeNext)

/-- The callback of `handle_write`. -/
def report (session : TcpSession) : TcpSession :=
  match session.currentSendMsg with
  | some msg => { session with reported := session.reported ++ [msg.bytes] }
  | none => session

/-- The section of `handle_write` that holds the mutex. -/
def handleWrite (session : TcpSession) : TcpSession :=
  let session :=
    match session.currentSendMsg with
    | some obj => { session with writeBuf := session.writeBuf.release obj, currentSendMsg := none }
    | none => session
  if session.writeBuf.sendItems.isEmpty then session else session.writeNext

def next (defaultSize : Nat) (maxWbufferSize : UInt64) (session : TcpSession) :
    WriteAction → Option TcpSession
  | .start => some { session with started := true }
  | .write sendMsg => some (write defaultSize maxWbufferSize session sendMsg).2
  | .complete index =>
    if session.outstanding[index]? = some .sending then
      some { session.report with outstanding := session.outstanding.set index .handling }
    else none
  | .finish index =>
    if session.outstanding[index]? = some .handling then
      some { session with outstanding := session.outstanding.eraseIdx index }.handleWrite
    else none

/-- What has been handed over, and what is waiting behind it, is what has been accepted. -/
def InOrder (session : TcpSession) : Prop :=
  ∃ sent queued : List (List UInt8), session.sent = sent.map some ∧
    session.writeBuf.sendItems.map MemoryStream.bytes = queued.map some ∧
    sent ++ queued = session.accepted

/-- The messages are handed over in order. One of them at most is on its way, which is the one that
the session holds, and there is always one while others wait. -/
structure Orderly (session : TcpSession) : Prop where
  sound : session.faulted = false
  inOrder : session.InOrder
  single : session.outstanding.length ≤ 1
  current : session.currentSendMsg.isSome ↔ session.outstanding ≠ []
  notStranded : session.writeBuf.sendItems ≠ [] → session.outstanding ≠ []

/-- What is known of the streams and of the messages. -/
structure Stored (session : TcpSession) : Prop where
  free : ∀ obj ∈ session.writeBuf.freePool, BufferRun.Sound obj
  queued : ∀ item ∈ session.writeBuf.sendItems, BufferRun.Sound item
  sound : session.faulted = false
  inOrder : session.InOrder

/-- Nothing is being sent. -/
structure Idle (session : TcpSession) : Prop where
  current : session.currentSendMsg = none
  outstanding : session.outstanding = []
  reported : session.reported = session.sent

/-- A message is on its way, or its handler is to go on. -/
inductive Busy (session : TcpSession) (msg : MemoryStream) : Prop where
  | sending (outstanding : session.outstanding = [.sending])
      (reported : session.sent = session.reported ++ [msg.bytes])
  | handling (outstanding : session.outstanding = [.handling])
      (reported : session.reported = session.sent)

theorem Busy.congr {session other : TcpSession} {msg : MemoryStream} (busy : session.Busy msg)
    (outstanding : other.outstanding = session.outstanding) (reported : other.reported = session.reported)
    (sent : other.sent = session.sent) : other.Busy msg := by
  cases busy with
  | sending isSending isReported =>
    exact .sending (outstanding.trans isSending) (by rw [sent, isReported, reported])
  | handling isHandling isReported =>
    exact .handling (outstanding.trans isHandling) (by rw [reported, isReported, sent])

/-- Whether something is being sent: nothing while nothing waits, or the message that the session
holds. -/
inductive Sending (session : TcpSession) : Prop where
  | idle (idle : session.Idle) (items : session.writeBuf.sendItems = [])
  | busy {msg : MemoryStream} (current : session.currentSendMsg = some msg)
      (sound : BufferRun.Sound msg) (busy : session.Busy msg)

/-- What every step keeps. -/
structure Flowing (session : TcpSession) : Prop where
  stored : session.Stored
  sending : session.Sending

variable {session before after : TcpSession} {defaultSize poolSize : Nat} {maxWbufferSize : UInt64}

theorem Flowing.orderly (flowing : session.Flowing) : session.Orderly := by
  obtain ⟨stored, sending⟩ := flowing
  cases sending with
  | idle idle items =>
    exact ⟨stored.sound, stored.inOrder, by simp [idle.outstanding],
      by simp [idle.current, idle.outstanding], by simp [items]⟩
  | busy current _ busy =>
    have one : ∃ progress, session.outstanding = [progress] := by
      cases busy with
      | sending outstanding _ => exact ⟨_, outstanding⟩
      | handling outstanding _ => exact ⟨_, outstanding⟩
    obtain ⟨progress, outstanding⟩ := one
    exact ⟨stored.sound, stored.inOrder, by simp [outstanding], by simp [current, outstanding],
      by simp [outstanding]⟩

theorem flowing_construct : (construct defaultSize poolSize).Flowing where
  stored :=
    { free := fun obj member => by
        rw [List.eq_of_mem_replicate member]
        exact ⟨.ofCapacity defaultSize, (MemoryStream.atEnd_ofCapacity defaultSize).formed⟩
      queued := fun item member => (List.not_mem_nil member).elim
      sound := rfl
      inOrder := ⟨[], [], rfl, rfl, rfl⟩ }
  sending := .idle ⟨rfl, rfl, rfl⟩ rfl

/-- With nothing on its way the first of the items is handed over. -/
private theorem Stored.writeNext (stored : session.Stored) (idle : session.Idle)
    (some' : session.writeBuf.sendItems ≠ []) : session.writeNext.Flowing := by
  obtain ⟨msg, rest, items⟩ := List.exists_cons_of_ne_nil some'
  obtain ⟨free, queued, sound, sent, waiting, isSent, isWaiting, accepted⟩ := stored
  have popped : session.writeBuf.popFront = some (msg, { session.writeBuf with
      sendItems := rest, allLen := session.writeBuf.allLen - UInt64.ofNat msg.bufferSize }) := by
    rw [WriteBuffer.popFront, items]
  rw [items, List.map_cons] at isWaiting
  obtain ⟨first, others, rfl, has, behind⟩ := List.map_eq_cons_iff.mp isWaiting.symm
  rw [TcpSession.writeNext, popped]
  refine ⟨⟨free, fun item member => ?_, sound, sent ++ [first], others, ?_, behind.symm, ?_⟩, ?_⟩
  · exact queued item (items ▸ List.mem_cons_of_mem _ member)
  · simp only [isSent, List.map_append, List.map_cons, List.map_nil, has]
  · rw [← accepted, List.append_assoc, List.singleton_append]
  · refine .busy rfl (queued msg (items ▸ List.mem_cons_self)) (.sending ?_ ?_)
    · rw [idle.outstanding, List.nil_append]
    · rw [idle.reported]

/-- A message is taken behind the others, and handed over at once if there are none. -/
private theorem Flowing.write (flowing : session.Flowing) (sendMsg : List UInt8) :
    (session.write defaultSize maxWbufferSize sendMsg).2.Flowing := by
  obtain ⟨stored, sending⟩ := flowing
  unfold TcpSession.write
  split
  · exact ⟨stored, sending⟩
  · split
    · exact ⟨stored, sending⟩
    · obtain ⟨free, queued, sound, sent, waiting, isSent, isWaiting, accepted⟩ := stored
      obtain ⟨obj, pool, appended, suffix, usable, filled⟩ :=
        WriteBuffer.append_eq_some defaultSize sendMsg fun obj member => (free obj member).usable
      obtain ⟨formed, bytes⟩ := filled fun obj member => (free obj member).formed
      rw [appended]
      have stored : Stored { session with
          writeBuf := { session.writeBuf with freePool := pool }.appendStream obj
          accepted := session.accepted ++ [sendMsg] } := by
        refine ⟨fun other member => free other (suffix.subset member), fun item member => ?_, sound,
          sent, waiting ++ [sendMsg], isSent, ?_, ?_⟩
        · rcases List.mem_append.mp member with before | last
          · exact queued item before
          · rw [List.mem_singleton.mp last]
            exact ⟨usable, formed⟩
        · simp only [WriteBuffer.appendStream, List.map_append, isWaiting, List.map_cons, List.map_nil, bytes]
        · simp only [← accepted, List.append_assoc]
      cases sending with
      | idle idle items =>
        have nobody : ¬ session.currentSendMsg.isSome := by simp [idle.current]
        simp only
        rw [if_neg nobody]
        exact stored.writeNext ⟨idle.current, idle.outstanding, idle.reported⟩
          (by simp [WriteBuffer.appendStream])
      | busy current soundMsg busy =>
        have somebody : session.currentSendMsg.isSome := by simp [current]
        simp only
        rw [if_pos somebody]
        exact ⟨stored, .busy current soundMsg (busy.congr rfl rfl rfl)⟩

/-- The one operation that is outstanding. -/
private theorem only_outstanding {progress other : WriteProgress} {index : Nat}
    (outstanding : session.outstanding = [progress])
    (here : session.outstanding[index]? = some other) : index = 0 ∧ other = progress := by
  rw [outstanding] at here
  cases index with
  | zero => exact ⟨rfl, (Option.some.inj here).symm⟩
  | succ _ => cases here

/-- The callback is told of the message that has been handed over last. -/
private theorem Flowing.complete (flowing : session.Flowing) {index : Nat}
    (here : session.outstanding[index]? = some .sending) :
    Flowing { session.report with outstanding := session.outstanding.set index .handling } := by
  obtain ⟨stored, sending⟩ := flowing
  cases sending with
  | idle idle _ => simp [idle.outstanding] at here
  | @busy msg current sound busy =>
    cases busy with
    | sending outstanding reported =>
      obtain ⟨rfl, _⟩ := only_outstanding outstanding here
      rw [report, current]
      refine ⟨⟨stored.free, stored.queued, stored.sound, stored.inOrder⟩, .busy rfl sound (.handling ?_ ?_)⟩
      · rw [outstanding]
        rfl
      · exact reported.symm
    | handling outstanding _ => cases (only_outstanding outstanding here).2

/-- The stream of the message that has been sent goes back, and the next one is handed over. -/
private theorem Flowing.finish (flowing : session.Flowing) {index : Nat}
    (here : session.outstanding[index]? = some .handling) :
    Flowing { session with outstanding := session.outstanding.eraseIdx index }.handleWrite := by
  obtain ⟨stored, sending⟩ := flowing
  cases sending with
  | idle idle _ => simp [idle.outstanding] at here
  | @busy msg current sound busy =>
    cases busy with
    | sending outstanding _ => cases (only_outstanding outstanding here).2
    | handling outstanding reported =>
      obtain ⟨rfl, _⟩ := only_outstanding outstanding here
      have nothing : session.outstanding.eraseIdx 0 = [] := by
        rw [outstanding]
        rfl
      let released : TcpSession := { session with
        outstanding := session.outstanding.eraseIdx 0
        writeBuf := session.writeBuf.release msg
        currentSendMsg := none }
      have storedAfter : released.Stored := by
        refine ⟨fun obj member => ?_, stored.queued, stored.sound, stored.inOrder⟩
        rcases List.mem_append.mp member with before | last
        · exact stored.free obj before
        · rw [List.mem_singleton.mp last]
          exact sound
      have idle : released.Idle := ⟨rfl, nothing, reported⟩
      have section' : handleWrite { session with outstanding := session.outstanding.eraseIdx 0 } =
          if released.writeBuf.sendItems.isEmpty then released else released.writeNext := by
        simp only [handleWrite, current]
        rfl
      rw [section']
      split
      · rename_i empty
        exact ⟨storedAfter, .idle idle (List.isEmpty_iff.mp empty)⟩
      · rename_i some'
        exact storedAfter.writeNext idle fun nothing => some' (by rw [nothing]; rfl)

private theorem Flowing.step {action : WriteAction} (flowing : before.Flowing)
    (taken : before.next defaultSize maxWbufferSize action = some after) : after.Flowing := by
  cases action with
  | start =>
    cases taken
    obtain ⟨⟨free, queued, sound, inOrder⟩, sending⟩ := flowing
    refine ⟨⟨free, queued, sound, inOrder⟩, ?_⟩
    cases sending with
    | idle idle items => exact .idle ⟨idle.current, idle.outstanding, idle.reported⟩ items
    | busy current soundMsg busy => exact .busy current soundMsg (busy.congr rfl rfl rfl)
  | write sendMsg =>
    cases taken
    exact flowing.write sendMsg
  | complete index =>
    simp only [next] at taken
    split at taken
    · rename_i here
      cases taken
      exact flowing.complete here
    · cases taken
  | finish index =>
    simp only [next] at taken
    split at taken
    · rename_i here
      cases taken
      exact flowing.finish here
    · cases taken

/-- However the writes, the callbacks and the handlers come in turn: the messages are handed over in
the order in which they were accepted, one at a time, with none left behind, and nothing is popped from
an empty buffer. -/
theorem orderly_of_path {actions : List WriteAction}
    (path : Path (Taken (next defaultSize maxWbufferSize)) (construct defaultSize poolSize) actions after) :
    after.Orderly :=
  (path.invariant Flowing (fun _ _ _ flowing taken => flowing.step taken) flowing_construct).orderly

/-- Three messages, of which the last is written by the callback of the first. A fourth is too long for
what the buffer may hold. -/
theorem orderly_of_path_three_messages :
    ∃ last, Path (Taken (next 4 6)) (construct 4 1)
        [.write [9], .start, .write [1], .write [2, 3], .complete 0, .write [4], .write [5, 6, 7, 8],
          .finish 0, .complete 0, .finish 0] last ∧
      last.sent = [some [1], some [2, 3], some [4]] ∧ last.reported = [some [1], some [2, 3]] ∧
      last.outstanding = [.sending] ∧ last.Orderly := by
  have runs : ∃ last ∈ exec (next 4 6) (construct 4 1)
      [.write [9], .start, .write [1], .write [2, 3], .complete 0, .write [4], .write [5, 6, 7, 8],
        .finish 0, .complete 0, .finish 0],
      last.sent = [some [1], some [2, 3], some [4]] ∧ last.reported = [some [1], some [2, 3]] ∧
      last.outstanding = [.sending] := by
    decide
  obtain ⟨last, run, sent, reported, outstanding⟩ := runs
  have path := exec_eq_some_iff.mp run
  exact ⟨last, path, sent, reported, outstanding, orderly_of_path path⟩

end TcpSession

end BTool.BoostNet
