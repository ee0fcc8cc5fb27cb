import BTool.Rmq.SessionWrite

/-! The messages of an RMQ session over whole runs. They are handled in the order in which they were
accepted, and their bytes are counted, wherever a login comes. A login that finds a write under way
hands out a second one, or takes a message from an empty queue. -/

namespace BTool.Rmq

open BTool.Foundation BTool.Foundation.Path

theorem totalSize_append (front back : List WriteBufInfo) :
    totalSize (front ++ back) = totalSize front + totalSize back := by
  simp [totalSize]

@[simp] theorem totalSize_cons (buf : WriteBufInfo) (bufs : List WriteBufInfo) :
    totalSize (buf :: bufs) = buf.data.length + totalSize bufs := rfl

@[simp] theorem totalSize_nil : totalSize [] = 0 := rfl

namespace Session

variable {session before after : Session} {action : SessionAction}

/-- What a step does. -/
inductive Change (before : Session) : SessionAction → Session → Prop where
  | refused {buf : WriteBufInfo} : Change before (.writeInner buf) before
  | queued {buf : WriteBufInfo} (busy : before.curInWrite = true)
      (fits : totalSize before.live + buf.data.length < 2 ^ 64) :
      Change before (.writeInner buf) { before with
        curWbufferSize := before.curWbufferSize + buf.size
        accepted := before.accepted ++ [buf]
        writeBuf := before.writeBuf ++ [buf] }
  | begun {buf : WriteBufInfo} (idle : before.curInWrite = false)
      (fits : totalSize before.live + buf.data.length < 2 ^ 64) :
      Change before (.writeInner buf) { before with
        curWbufferSize := before.curWbufferSize + buf.size
        accepted := before.accepted ++ [buf]
        curInWrite := true
        writeThread := before.writeThread ++ [buf] }
  | ended {replies : WriteReplies} {buf : WriteBufInfo} {rest : List WriteBufInfo}
      (thread : before.writeThread = buf :: rest) (queue : before.writeBuf = []) :
      Change before (.handleWrite replies) { before with
        curWbufferSize := before.curWbufferSize - buf.size
        handled := before.handled ++ [(buf, writeCbk buf replies)]
        curInWrite := false
        writeThread := rest }
  | passedOn {replies : WriteReplies} {buf front : WriteBufInfo} {rest more : List WriteBufInfo}
      (thread : before.writeThread = buf :: rest) (queue : before.writeBuf = front :: more) :
      Change before (.handleWrite replies) { before with
        curWbufferSize := before.curWbufferSize - buf.size
        handled := before.handled ++ [(buf, writeCbk buf replies)]
        writeBuf := more
        writeThread := rest ++ [front] }
  | quiet (idle : before.curInWrite = false) : Change before .handleLogin before
  | resent {front : WriteBufInfo} {more : List WriteBufInfo} (busy : before.curInWrite = true)
      (queue : before.writeBuf = front :: more) :
      Change before .handleLogin { before with
        writeBuf := more
        writeThread := before.writeThread ++ [front] }
  | astray (busy : before.curInWrite = true) (queue : before.writeBuf = []) :
      Change before .handleLogin { before with emptyFront := true }

private theorem change_of_writeInner {buf : WriteBufInfo} {accepted : Bool}
    (taken : before.writeInner buf = some (after, accepted)) :
    Change before (.writeInner buf) after := by
  obtain ⟨maxSize, curSize, inWrite, queue, thread, done, handled, astray⟩ := before
  unfold writeInner at taken
  split at taken
  · cases taken
    exact .refused
  · split at taken
    · rename_i fits
      cases inWrite <;> cases taken
      · exact .begun rfl fits
      · exact .queued rfl fits
    · cases taken

private theorem change_of_handleWrite {replies : WriteReplies}
    (taken : before.handleWrite replies = some after) : Change before (.handleWrite replies) after := by
  obtain ⟨maxSize, curSize, inWrite, queue, thread, done, handled, astray⟩ := before
  cases thread with
  | nil => cases taken
  | cons buf rest =>
    cases queue <;> cases taken
    · exact .ended rfl rfl
    · exact .passedOn rfl rfl

private theorem change_handleLogin (before : Session) : Change before .handleLogin before.handleLogin := by
  obtain ⟨maxSize, curSize, inWrite, queue, thread, done, handled, astray⟩ := before
  cases inWrite with
  | false => exact .quiet rfl
  | true =>
    cases queue with
    | nil => exact .astray rfl rfl
    | cons front more => exact .resent rfl rfl

theorem change_of_next (taken : before.next action = some after) :
    before.emptyFront = false ∧ Change before action after := by
  unfold next at taken
  split at taken
  · cases taken
  · rename_i defined
    refine ⟨by simpa using defined, ?_⟩
    cases action with
    | writeInner buf =>
      obtain ⟨⟨final, accepted⟩, written, same⟩ := Option.map_eq_some_iff.mp taken
      subst same
      exact change_of_writeInner written
    | handleWrite replies => exact change_of_handleWrite taken
    | handleLogin =>
      cases taken
      exact change_handleLogin before

/-- What holds wherever a login comes. -/
structure Ordered (session : Session) : Prop where
  order : session.accepted = session.handled.map Prod.fst ++ session.live
  fits : totalSize session.live < 2 ^ 64
  size : session.curWbufferSize = UInt64.ofNat (totalSize session.live)
  idle : session.curInWrite = false → session.writeBuf = []
  busy : session.curInWrite = true → session.writeThread ≠ []

private theorem size_push {size : UInt64} {total : Nat} (buf : WriteBufInfo)
    (same : size = UInt64.ofNat total) :
    size + buf.size = UInt64.ofNat (total + buf.data.length) := by
  rw [same, WriteBufInfo.size, UInt64.ofNat_add]

private theorem size_pop {size : UInt64} {total : Nat} (buf : WriteBufInfo)
    (same : size = UInt64.ofNat (buf.data.length + total)) :
    size - buf.size = UInt64.ofNat total := by
  rw [same, WriteBufInfo.size, UInt64.ofNat_add, UInt64.add_comm, UInt64.add_sub_cancel]

theorem Ordered.change (ordered : before.Ordered) (change : Change before action after) :
    after.Ordered := by
  obtain ⟨order, fits, size, idle, busy⟩ := ordered
  cases change with
  | refused => exact ⟨order, fits, size, idle, busy⟩
  | @queued buf inWrite room =>
    have live : totalSize (before.writeThread ++ (before.writeBuf ++ [buf])) =
        totalSize before.live + buf.data.length := by
      simp [live, totalSize_append, Nat.add_assoc]
    refine ⟨?_, ?_, ?_, ?_, busy⟩
    · simp [order, Session.live]
    · simpa only [Session.live, live] using room
    · simpa only [Session.live, live] using size_push buf size
    · simp [inWrite]
  | @begun buf notInWrite room =>
    have queue := idle notInWrite
    have live : totalSize (before.writeThread ++ [buf] ++ before.writeBuf) =
        totalSize before.live + buf.data.length := by
      simp [live, queue, totalSize_append]
    refine ⟨?_, ?_, ?_, fun _ => queue, by simp⟩
    · simp [order, Session.live, queue]
    · simpa only [Session.live, live] using room
    · simpa only [Session.live, live] using size_push buf size
  | @ended replies buf rest thread queue =>
    simp only [Session.live, thread, List.cons_append, totalSize_cons] at order fits size
    refine ⟨?_, ?_, size_pop buf size, fun _ => queue, by simp⟩
    · simp [order, Session.live]
    · simp only [Session.live]
      omega
  | @passedOn replies buf front rest more thread queue =>
    simp only [Session.live, thread, queue, List.cons_append, totalSize_cons] at order fits size
    have live : rest ++ [front] ++ more = rest ++ front :: more := by simp
    refine ⟨?_, ?_, ?_, ?_, by simp⟩
    · simp [order, Session.live]
    · simp only [Session.live, live]
      omega
    · simpa only [Session.live, live] using size_pop buf size
    · intro notInWrite
      simp [idle notInWrite] at queue
  | quiet _ => exact ⟨order, fits, size, idle, busy⟩
  | @resent front more inWrite queue =>
    have live : before.writeThread ++ [front] ++ more = before.live := by simp [live, queue]
    refine ⟨?_, ?_, ?_, by simp [inWrite], by simp⟩
    · simpa only [Session.live, live] using order
    · simpa only [Session.live, live] using fits
    · simpa only [Session.live, live] using size
  | astray _ _ => exact ⟨order, fits, size, idle, busy⟩

theorem ordered_construct (maxWbufferSize : UInt64) : (construct maxWbufferSize).Ordered :=
  ⟨rfl, by simp [construct, live], rfl, fun _ => rfl, by simp [construct]⟩

/-- In every run the messages are handled in the order in which they were accepted, each once, and
the size is that of those that are not handled yet. -/
theorem ordered_of_run {maxWbufferSize : UInt64} {actions : List SessionAction} {last : Session}
    (path : Path (Taken next) (construct maxWbufferSize) actions last) : last.Ordered :=
  path.invariant Ordered (fun _ _ _ ordered taken => ordered.change (change_of_next taken).2)
    (ordered_construct maxWbufferSize)

/-- At most one write is under way, the flag tells whether one is, the size is that of the messages
that are not handled, they are handled in order, and no message is taken from an empty queue. -/
structure Sound (session : Session) : Prop where
  defined : session.emptyFront = false
  single : session.writeThread.length ≤ 1
  flag : session.curInWrite = true ↔ session.writeThread ≠ []
  size : session.curWbufferSize.toNat = totalSize (session.writeThread ++ session.writeBuf)
  order : session.accepted = session.handled.map Prod.fst ++ (session.writeThread ++ session.writeBuf)

theorem Ordered.sound (ordered : session.Ordered) (defined : session.emptyFront = false)
    (single : session.writeThread.length ≤ 1)
    (flag : session.writeThread ≠ [] → session.curInWrite = true) : session.Sound := by
  refine ⟨defined, single, ⟨ordered.busy, flag⟩, ?_, ordered.order⟩
  rw [ordered.size, UInt64.toNat_ofNat', Nat.mod_eq_of_lt ordered.fits, live]

/-- A login finds no write under way. -/
def FindsIdle (session : Session) (action : SessionAction) : Prop :=
  action = .handleLogin → session.curInWrite = false

private theorem sound_iff_findsIdle (ordered : before.Ordered) (sound : before.Sound)
    (change : Change before action after) : after.Sound ↔ before.FindsIdle action := by
  have later := ordered.change change
  cases change with
  | refused => exact iff_of_true sound nofun
  | queued busy _ => exact iff_of_true (later.sound sound.defined sound.single fun _ => busy) nofun
  | begun idle _ =>
    have empty : before.writeThread = [] := by
      by_contra scheduled
      simp [sound.flag.mpr scheduled] at idle
    refine iff_of_true (later.sound sound.defined ?_ fun _ => rfl) nofun
    simp [empty]
  | @ended _ buf rest thread _ =>
    have single := sound.single
    have empty : rest = [] := by simpa [thread] using single
    refine iff_of_true (later.sound sound.defined ?_ ?_) nofun
    · simp [empty]
    · simp [empty]
  | @passedOn _ buf front rest _ thread _ =>
    have single := sound.single
    have empty : rest = [] := by simpa [thread] using single
    refine iff_of_true (later.sound sound.defined ?_ fun _ => ?_) nofun
    · simp [empty]
    · exact sound.flag.mpr (by simp [thread])
  | quiet idle => exact iff_of_true sound fun _ => idle
  | resent busy _ =>
    refine iff_of_false (fun doubled => ?_) fun idle => by simp [idle rfl] at busy
    have single := doubled.single
    have scheduled := List.length_pos_iff.mpr (sound.flag.mp busy)
    simp only [List.length_append, List.length_singleton] at single
    omega
  | astray busy _ =>
    exact iff_of_false (fun astray => nomatch astray.defined) fun idle => by simp [idle rfl] at busy

/-- In every run all of this holds all along if and only if every login finds no write under way. -/
theorem sound_iff_idle_logins {maxWbufferSize : UInt64} {actions : List SessionAction} {last : Session}
    (path : Path (Taken next) (construct maxWbufferSize) actions last) :
    (∀ session, Visits (Taken next) (construct maxWbufferSize) actions session → session.Sound) ↔
      ∀ session action, Takes (Taken next) (construct maxWbufferSize) actions session action →
        session.FindsIdle action := by
  have begins := ordered_construct maxWbufferSize
  refine path.visits_iff_all_takes Ordered ?_ (begins.sound rfl (by simp [construct]) nofun) begins
  intro before action after ordered sound taken
  obtain ⟨_, change⟩ := change_of_next taken
  exact ⟨sound_iff_findsIdle ordered sound change, fun _ => ordered.change change⟩

/-- Two messages are written before the second login, and one after it. -/
theorem sound_iff_idle_logins_reconnect :
    let buf : WriteBufInfo := ⟨1, false, [7, 8], by decide⟩
    let replies : WriteReplies := ⟨false, true, true, true, .other⟩
    let actions : List SessionAction := [.handleLogin, .writeInner buf, .writeInner buf,
      .handleWrite replies, .handleWrite replies, .handleLogin, .writeInner buf]
    (∀ session, Visits (Taken next) (construct 5) actions session → session.Sound) ↔
      ∀ session action, Takes (Taken next) (construct 5) actions session action →
        session.FindsIdle action := by
  intro buf replies actions
  have runs : (exec next (construct 5) actions).isSome := by decide +kernel
  obtain ⟨last, run⟩ := Option.isSome_iff_exists.mp runs
  exact sound_iff_idle_logins (exec_eq_some_iff.mp run)

/-- A message is written before the login comes to its own: it looks for another one in an empty
queue. With two of them there, two are handled at once. -/
theorem not_sound_write_during_login :
    ∃ buf astray doubled,
      exec next (construct 0) [.writeInner buf, .handleLogin] = some astray ∧
        astray.emptyFront = true ∧ ¬ astray.Sound ∧
      exec next (construct 0) [.writeInner buf, .writeInner buf, .handleLogin] = some doubled ∧
        doubled.writeThread = [buf, buf] ∧ ¬ doubled.Sound := by
  refine ⟨⟨1, false, [7], by decide⟩, _, _, rfl, rfl, ?_, rfl, rfl, ?_⟩
  · exact fun sound => nomatch sound.defined
  · exact fun sound => absurd sound.single (by decide +kernel)

end Session

end BTool.Rmq
