import BTool.BoostNet.TcpSessionSteps

/-! What holds of a session in every run: its reads and its writes come one at a time, it is opened once, and
when nothing of it is left it has been closed. -/

namespace BTool.BoostNet

open BTool.Foundation BTool.Foundation.Path BTool.TaskPool BTool.TaskPool.AtomicSwitch SessionPc

namespace SessionLife

variable {Thread : Type} [DecidableEq Thread] {life after last : SessionLife Thread} {thread : Thread}
  {pc : SessionPc} {actions : List (SessionAction Thread)}

/-- One write may be outstanding: there is a message that is being sent, or `reset` has begun. -/
def Writable (life : SessionLife Thread) : Prop :=
  0 < life.starts ∧ (life.currentSendMsg.isSome = true ∨ life.switch.bstart = false)

instance (life : SessionLife Thread) : Decidable life.Writable := inferInstanceAs (Decidable (_ ∧ _))

/-- In `close`, with the socket shut down and the close callback still to be called. -/
def isShut (pc : SessionPc) : Bool := pc.isUnreported && (pc.hasLock || !pc.isClosing)

/-- The operations that are on their way fit the threads and the flags. -/
structure Flows (life : SessionLife Thread) : Prop where
  reading : AtMost isReading life.places life.reads life.called.toNat
  writing : AtMost isWriting life.places life.writes (decide life.Writable).toNat
  waiting : life.items ≠ [] → life.currentSendMsg.isSome = true
  inOrder : life.switch.bstart = true → life.accepted = life.sent ++ life.items
  sentOf : life.sent <+: life.accepted
  unstarted : life.starts = 0 → life.accepted = [] ∧ life.sent = []
  dropped : life.switch.bstart = false → (life.items = [] ∧ life.currentSendMsg = none) ∨
    Somewhere (fun pc => isClearing pc = true) life.places
  live : life.switch = started → 0 < life.reads ∨
    Somewhere (fun pc => (isReading pc || isStopping pc) = true) life.places
  sending : life.switch = started → life.currentSendMsg.isSome = true → 0 < life.writes ∨
    Somewhere (fun pc => (isWriting pc || isStopping pc) = true) life.places
  socket : life.socketOpen = true → life.closed = 0 ∧ (0 < life.starts → life.switch.binit = true) ∧
    ¬ Somewhere (fun pc => isShut pc = true) life.places

omit [DecidableEq Thread] in
theorem flows_construct : (construct : SessionLife Thread).Flows where
  reading := .zero (fun _ => rfl) (Nat.le_refl _)
  writing := .zero (fun _ => rfl) (Nat.zero_le _)
  waiting := by simp [construct]
  inOrder := by simp [construct, AtomicSwitch.construct]
  sentOf := List.nil_prefix
  unstarted := fun _ => ⟨rfl, rfl⟩
  dropped := fun _ => .inl ⟨rfl, rfl⟩
  live := by simp [construct, AtomicSwitch.construct, started]
  sending := by simp [construct]
  socket := by
    refine fun _ => ⟨rfl, fun some' => absurd some' (Nat.lt_irrefl 0), ?_⟩
    rintro ⟨thread, there⟩
    cases there

section Steps

variable (flows : life.Flows)

include flows

/-- A step that leaves the messages, the socket and the flags alone. -/
private theorem Flows.walk {reads writes opened closed : Nat} {writeMtx : Option Thread} {called : Bool}
    (begins : reads + pc.isReading.toNat + life.called.toNat ≤
      life.reads + (life.places thread).isReading.toNat + called.toNat)
    (ends : writes + pc.isWriting.toNat ≤ life.writes + (life.places thread).isWriting.toNat)
    (clears : (life.places thread).isClearing = true → pc.isClearing = true)
    (shuts : isShut pc = true → isShut (life.places thread) = true)
    (told : closed = life.closed ∨ isShut (life.places thread) = true)
    (live : life.switch = started →
      0 < life.reads ∨ (isReading (life.places thread) || isStopping (life.places thread)) = true →
      0 < reads ∨ (isReading pc || isStopping pc) = true)
    (sends : life.switch = started →
      0 < life.writes ∨ (isWriting (life.places thread) || isStopping (life.places thread)) = true →
      0 < writes ∨ (isWriting pc || isStopping pc) = true) :
    ({ life with reads, writes, opened, closed, writeMtx, called }.goto thread pc).Flows where
  reading := flows.reading.move _ _ begins
  writing := flows.writing.move _ _ (Nat.add_le_add_right ends _)
  waiting := flows.waiting
  inOrder := flows.inOrder
  sentOf := flows.sentOf
  unstarted := flows.unstarted
  dropped := fun unstarted => (flows.dropped unstarted).imp_right fun found => found.move clears
  live := by
    intro isStarted
    rcases flows.live isStarted with outstanding | ⟨other, there⟩
    · exact (live isStarted (.inl outstanding)).imp_right .here
    · by_cases same : other = thread
      · exact (live isStarted (.inr (same ▸ there))).imp_right .here
      · exact .inr (.elsewhere there same)
  sending := by
    intro isStarted handed
    rcases flows.sending isStarted handed with outstanding | ⟨other, there⟩
    · exact (sends isStarted (.inl outstanding)).imp_right .here
    · by_cases same : other = thread
      · exact (sends isStarted (.inr (same ▸ there))).imp_right .here
      · exact .inr (.elsewhere there same)
  socket := by
    intro isOpen
    obtain ⟨never, set, unshut⟩ := flows.socket isOpen
    have same : closed = life.closed := told.resolve_right fun shut => unshut ⟨thread, shut⟩
    exact ⟨same.trans never, set, fun found => unshut (found.back shuts)⟩

/-- A step that changes flags of a switch and does not start it. -/
private theorem Flows.flag {switch : AtomicSwitch} {closes : Nat}
    (roles : pc.isReading = (life.places thread).isReading ∧ pc.isWriting = (life.places thread).isWriting ∧
      isShut pc = isShut (life.places thread))
    (unlike : switch ≠ started)
    (stored : switch.bstart = true → life.switch.bstart = true)
    (sets : switch.bstart = false → life.switch.bstart = true → pc.isClearing = true)
    (clears : (life.places thread).isClearing = true → pc.isClearing = true)
    (keeps : life.socketOpen = true → 0 < life.starts → switch.binit = true) :
    ({ life with switch, closes }.goto thread pc).Flows := by
  obtain ⟨reads, writes, shuts⟩ := roles
  constructor
  · exact flows.reading.move _ _ (by rw [reads]; exact Nat.le_refl _)
  · refine flows.writing.move _ _ ?_
    rw [writes]
    refine Nat.add_le_add_left (Bool.toNat_le_toNat (Bool.le_iff_imp.mpr fun writable => ?_)) _
    obtain ⟨some', sending⟩ := of_decide_eq_true writable
    refine decide_eq_true ⟨some', sending.imp_right fun unstarted => ?_⟩
    exact Bool.eq_false_iff.mpr fun set => absurd (unstarted.symm.trans (stored set)) Bool.false_ne_true
  · exact flows.waiting
  · exact fun set => flows.inOrder (stored set)
  · exact flows.sentOf
  · exact flows.unstarted
  · intro unset
    cases before : life.switch.bstart with
    | false => exact (flows.dropped before).imp_right fun found => found.move clears
    | true => exact .inr (.here (sets unset before))
  · exact fun like => absurd like unlike
  · exact fun like => absurd like unlike
  · intro isOpen
    refine ⟨(flows.socket isOpen).1, keeps isOpen, fun found => (flows.socket isOpen).2.2 ?_⟩
    exact found.back fun now => shuts.symm.trans now

omit [DecidableEq Thread] in
/-- Before the switch is started no message has been taken. -/
private theorem Flows.empty (settled : life.Settled) (never : life.starts = 0) :
    life.items = [] ∧ life.currentSendMsg = none := by
  obtain ⟨unstarted, _, unclosed⟩ := settled.unset never
  rcases flows.dropped unstarted with nothing | ⟨other, there⟩
  · exact nothing
  · have closes : (life.places other).isClosing = true := by
      revert there
      cases life.places other <;> simp [isClearing, isClosing]
    have := settled.reporting.lt (isUnreported_of_isClosing closes)
    omega

/-- The switch is started. -/
private theorem Flows.started (settled : life.Settled) (here : life.places thread = .starting .exchange) :
    ({ life with switch := { life.switch with bstart := true }, starts := life.starts + 1 }.goto thread
      .firstRead).Flows := by
  obtain ⟨none, set⟩ : life.starts = 0 ∧ life.switch.binit = true := settled.placedAt here
  obtain ⟨items, current⟩ := flows.empty settled none
  obtain ⟨accepted, sent⟩ := flows.unstarted none
  have writable : ¬ life.Writable := fun writable => Nat.ne_of_gt writable.1 none
  constructor
  · exact flows.reading.move _ _ (by rw [here]; exact Nat.le_refl _)
  · refine flows.writing.move _ _ ?_
    rw [here, decide_eq_false writable]
    exact Nat.add_le_add_left (Nat.zero_le _) _
  · exact flows.waiting
  · intro _
    show life.accepted = life.sent ++ life.items
    rw [accepted, sent, items]
    rfl
  · exact flows.sentOf
  · exact fun no => absurd no (Nat.succ_ne_zero _)
  · exact fun no => absurd no (Ne.symm Bool.false_ne_true)
  · exact fun _ => .inr (.here rfl)
  · intro _ handed
    rw [show life.currentSendMsg = Option.none from current] at handed
    cases handed
  · intro isOpen
    refine ⟨(flows.socket isOpen).1, fun _ => set, fun found => (flows.socket isOpen).2.2 ?_⟩
    exact found.back fun no => absurd no Bool.false_ne_true

/-- A message is handed over, by a thread that has taken or told of the one before. -/
private theorem Flows.hands {items : List (List UInt8)}
    {currentSendMsg : Option (List UInt8)} {writes : Nat} {accepted sent : List (List UInt8)}
    {writeMtx : Option Thread}
    (roles : (life.places thread).isReading = false ∧ (life.places thread).isStopping = false ∧
      (life.places thread).isClearing = false)
    (some' : 0 < life.starts)
    (count : writes + (decide life.Writable).toNat ≤ life.writes + (life.places thread).isWriting.toNat +
      (decide (currentSendMsg.isSome = true ∨ life.switch.bstart = false)).toNat)
    (waiting : items ≠ [] → currentSendMsg.isSome = true)
    (inOrder : life.switch.bstart = true → accepted = sent ++ items)
    (sentOf : sent <+: accepted)
    (dropped : life.switch.bstart = false → items = [] ∧ currentSendMsg = none ∨
      Somewhere (fun pc => isClearing pc = true) life.places)
    (sends : currentSendMsg.isSome = true → 0 < writes ∨
      life.currentSendMsg.isSome = true ∧ writes = life.writes ∧ isWriting (life.places thread) = false) :
    ({ life with items, currentSendMsg, writes, accepted, sent, writeMtx }.goto thread .outside).Flows := by
  obtain ⟨reads, stops, clears⟩ := roles
  constructor
  · exact flows.reading.move _ _ (by rw [reads]; exact Nat.le_refl _)
  · refine flows.writing.move _ _ (Nat.le_trans count (Nat.add_le_add_left ?_ _))
    refine Bool.toNat_le_toNat (Bool.le_iff_imp.mpr fun writable => ?_)
    exact decide_eq_true ⟨some', of_decide_eq_true writable⟩
  · exact waiting
  · exact inOrder
  · exact sentOf
  · exact fun none => absurd none (Nat.ne_of_gt some')
  · refine fun unset => (dropped unset).imp_right fun found => found.move fun was => ?_
    exact absurd (clears.symm.trans was) Bool.false_ne_true
  · intro like
    refine (flows.live like).imp_right fun found => found.move fun was => ?_
    rw [reads, stops] at was
    cases was
  · intro like handed
    rcases sends handed with outstanding | ⟨before, same, writes'⟩
    · exact .inl outstanding
    · refine (flows.sending like before).imp (Nat.lt_of_lt_of_eq · same.symm) fun found => found.move fun was => ?_
      rw [writes', stops] at was
      cases was
  · intro isOpen
    refine ⟨(flows.socket isOpen).1, (flows.socket isOpen).2.1, fun found => (flows.socket isOpen).2.2 ?_⟩
    exact found.back fun no => absurd no Bool.false_ne_true

omit [DecidableEq Thread] in
/-- With the mutex free and `m_bstart` not set, nothing waits. -/
private theorem Flows.nothing (settled : life.Settled) (free : life.writeMtx = none)
    (unset : life.switch.bstart = false) : life.items = [] ∧ life.currentSendMsg = none := by
  refine (flows.dropped unset).resolve_right ?_
  rintro ⟨other, there⟩
  have locks : (life.places other).hasLock = true := by
    revert there
    cases life.places other <;> simp [isClearing, hasLock]
  have := (settled.locked other).mp locks
  rw [free] at this
  cases this

private theorem Flows.release (settled : life.Settled) (here : life.places thread = .release)
    (free : life.writeMtx = none) : (life.release.goto thread .outside).Flows := by
  have writable : life.Writable := by
    have writes : isWriting (life.places thread) = true := by
      rw [here]
      rfl
    have := flows.writing.lt writes
    by_contra not
    rw [decide_eq_false not] at this
    exact absurd this (Nat.not_lt_zero _)
  have roles : (life.places thread).isReading = false ∧ (life.places thread).isStopping = false ∧
      (life.places thread).isClearing = false := by
    rw [here]
    exact ⟨rfl, rfl, rfl⟩
  have one : (life.places thread).isWriting.toNat = 1 := by
    rw [here]
    rfl
  cases items : life.items with
  | nil =>
    have same : life.release = { life with items := [], currentSendMsg := none } := by
      rw [SessionLife.release, writeNext]
      simp [items]
    rw [same]
    refine flows.hands roles writable.1 ?_ (by simp) ?_ flows.sentOf (fun _ => .inl ⟨rfl, rfl⟩)
      fun no => absurd no Bool.false_ne_true
    · have := Bool.toNat_le (decide life.Writable)
      omega
    · intro set
      rw [← items]
      exact flows.inOrder set
  | cons msg rest =>
    have set : life.switch.bstart = true := by
      by_contra not
      have := (flows.nothing settled free (Bool.eq_false_iff.mpr not)).1
      rw [items] at this
      cases this
    have same : life.release = { life with
        items := rest, currentSendMsg := some msg, writes := life.writes + 1, sent := life.sent ++ [msg] } := by
      rw [SessionLife.release, writeNext]
      simp [items]
    have order : life.accepted = (life.sent ++ [msg]) ++ rest := by
      rw [flows.inOrder set, items, List.append_assoc]
      rfl
    rw [same]
    refine flows.hands roles writable.1 ?_ (fun _ => rfl) (fun _ => order) (order ▸ List.prefix_append ..)
      (fun unset => absurd (unset.symm.trans set) Bool.false_ne_true) fun _ => .inl (Nat.succ_pos _)
    have := Bool.toNat_le (decide life.Writable)
    simp only [Option.isSome_some, true_or, decide_true, Bool.toNat_true]
    omega

private theorem Flows.send (settled : life.Settled) {sendMsg : List UInt8} {room : Bool}
    (here : life.places thread = .sendTest sendMsg room .loadInit) :
    ({ life.send sendMsg with writeMtx := none }.goto thread .outside).Flows := by
  have set : life.switch.bstart = true := settled.placedAt here
  have started : 0 < life.starts := Nat.pos_of_ne_zero fun never =>
    absurd ((settled.unset never).1.symm.trans set) Bool.false_ne_true
  have roles : (life.places thread).isReading = false ∧ (life.places thread).isStopping = false ∧
      (life.places thread).isClearing = false := by
    rw [here]
    exact ⟨rfl, rfl, rfl⟩
  have order : life.accepted ++ [sendMsg] = life.sent ++ (life.items ++ [sendMsg]) := by
    rw [flows.inOrder set, List.append_assoc]
  have not (unset : life.switch.bstart = false) {Goal : Prop} : Goal :=
    absurd (unset.symm.trans set) Bool.false_ne_true
  cases current : life.currentSendMsg with
  | some msg =>
    have same : life.send sendMsg = { life with
        items := life.items ++ [sendMsg], accepted := life.accepted ++ [sendMsg] } := by
      rw [SessionLife.send, current]
      rfl
    rw [same]
    refine flows.hands roles started ?_ (fun _ => by rw [current]; rfl) (fun _ => order)
      (flows.sentOf.trans (List.prefix_append ..)) (fun unset => not unset)
      fun handed => .inr ⟨handed, rfl, by rw [here]; rfl⟩
    have := Bool.toNat_le (decide life.Writable)
    simp only [current, Option.isSome_some, true_or, decide_true, Bool.toNat_true]
    omega
  | none =>
    have items : life.items = [] := by
      by_contra some'
      have := flows.waiting some'
      rw [current] at this
      cases this
    have same : life.send sendMsg = { life with
        items := [], currentSendMsg := some sendMsg, writes := life.writes + 1
        accepted := life.accepted ++ [sendMsg], sent := life.sent ++ [sendMsg] } := by
      rw [SessionLife.send, current]
      simp [items, writeNext]
    have idle : ¬ life.Writable := by
      rintro ⟨_, sending | unset⟩
      · rw [current] at sending
        cases sending
      · exact not unset
    rw [items, List.nil_append] at order
    rw [same]
    refine flows.hands roles started ?_ (fun _ => rfl) (fun _ => by rw [order, List.append_nil])
      (order ▸ List.prefix_refl _) (fun unset => not unset) fun _ => .inl (Nat.succ_pos _)
    rw [decide_eq_false idle]
    simp only [Option.isSome_some, true_or, decide_true, Bool.toNat_true, Bool.toNat_false]
    omega

omit [DecidableEq Thread] flows in
private theorem started_of_closing (settled : life.Settled) (here : (life.places thread).isClosing = true) :
    0 < life.starts := by
  refine Nat.pos_of_ne_zero fun never => ?_
  have := settled.reporting.lt (isUnreported_of_isClosing here)
  have := (settled.unset never).2.2
  omega

/-- The socket is closed by the first that comes to it, which finds the switch initialised. -/
private theorem Flows.close (settled : life.Settled) (here : life.places thread = .closing) :
    ({ life with
      writeMtx := some thread
      socketOpen := life.socketOpen && !life.switch.binit }.goto thread (.resetting .storeStart)).Flows := by
  constructor
  · exact flows.reading.move _ _ (by rw [here]; exact Nat.le_refl _)
  · exact flows.writing.move _ _ (by rw [here]; exact Nat.le_refl _)
  · exact flows.waiting
  · exact flows.inOrder
  · exact flows.sentOf
  · exact flows.unstarted
  · exact fun unset => (flows.dropped unset).imp_right fun found => found.move fun was => by
      rw [here] at was
      cases was
  · exact fun like => (flows.live like).imp_right fun found => found.move fun was => by
      rw [here] at was
      cases was
  · exact fun like handed => (flows.sending like handed).imp_right fun found => found.move fun was => by
      rw [here] at was
      cases was
  · intro isOpen
    obtain ⟨before, unset⟩ := Bool.and_eq_true_iff.mp isOpen
    have set := (flows.socket before).2.1 (started_of_closing settled (by rw [here]; rfl))
    rw [set] at unset
    cases unset

/-- What waits is dropped. -/
private theorem Flows.clear (settled : life.Settled) (here : life.places thread = .clearing) :
    ({ life with writeMtx := none, items := [], currentSendMsg := none }.goto thread .atCloseCbk).Flows := by
  obtain ⟨unstarted, unset⟩ : life.switch.bstart = false ∧ life.switch.binit = false := settled.placedAt here
  constructor
  · exact flows.reading.move _ _ (by rw [here]; exact Nat.le_refl _)
  · refine flows.writing.move _ _ ?_
    rw [here]
    refine Nat.add_le_add_left (Bool.toNat_le_toNat (Bool.le_iff_imp.mpr fun writable => ?_)) _
    exact decide_eq_true ⟨(of_decide_eq_true writable).1, .inr unstarted⟩
  · exact fun no => absurd rfl no
  · exact fun set => absurd (unstarted.symm.trans set) Bool.false_ne_true
  · exact flows.sentOf
  · exact flows.unstarted
  · exact fun _ => .inl ⟨rfl, rfl⟩
  · intro like
    have set : life.switch.bstart = true := congrArg AtomicSwitch.bstart like
    exact absurd (unstarted.symm.trans set) Bool.false_ne_true
  · exact fun _ no => absurd no Bool.false_ne_true
  · exact fun isOpen => absurd ⟨thread, by rw [here]; rfl⟩ (flows.socket isOpen).2.2

/-- Every step keeps the reads, the writes and the messages in order. -/
theorem Flows.steps (settled : life.Settled) (steps : life.Steps thread after) : after.Flows := by
  cases steps with
  | walk walks =>
    refine flows.walk ?_ ?_ (fun was => walks.clears.trans was) ?_ (.inl rfl)
      (fun like => Or.imp_right (walks.live like)) fun like => Or.imp_right (walks.sends like)
    · have := Bool.toNat_le_toNat (Bool.le_iff_imp.mpr walks.reads)
      omega
    · have := Bool.toNat_le_toNat (Bool.le_iff_imp.mpr walks.writes)
      omega
    · intro now
      rw [isShut, walks.reports, walks.closes, walks.locks] at now
      exact now
  | start here uncalled =>
    refine flows.walk ?_ ?_ ?_ ?_ ?_ ?_ ?_ <;>
      simp [here, uncalled, isReading, isWriting, isClearing, isShut, isUnreported, isClosing, hasLock, isStopping]
  | init here =>
    obtain ⟨none, _⟩ : life.starts = 0 ∧ life.switch.binit = false := settled.placedAt here
    obtain ⟨unstarted, _⟩ := settled.unset none
    refine flows.flag (by rw [here]; decide) ?_ id (fun _ set => ?_) ?_ fun _ _ => rfl
    · intro like
      have set : life.switch.bstart = true := congrArg AtomicSwitch.bstart like
      exact absurd (unstarted.symm.trans set) Bool.false_ne_true
    · exact absurd (unstarted.symm.trans set) Bool.false_ne_true
    · rw [here]
      exact id
  | started here => exact flows.started settled here
  | firstRead here =>
    refine flows.walk ?_ ?_ ?_ ?_ ?_ ?_ ?_ <;>
      simp [here, isReading, isWriting, isClearing, isShut, isUnreported, isClosing, hasLock, isStopping]
  | opens here =>
    refine flows.walk ?_ ?_ ?_ ?_ ?_ ?_ ?_ <;>
      simp [here, isReading, isWriting, isClearing, isShut, isUnreported, isClosing, hasLock, isStopping]
  | nextRead here =>
    refine flows.walk ?_ ?_ ?_ ?_ ?_ ?_ ?_ <;>
      simp [here, isReading, isWriting, isClearing, isShut, isUnreported, isClosing, hasLock, isStopping]
  | readDone here outstanding is =>
    rcases is with rfl | rfl <;> refine flows.walk ?_ ?_ ?_ ?_ ?_ ?_ ?_ <;>
      simp [here, isReading, isWriting, isClearing, isShut, isUnreported, isClosing, hasLock, isStopping]
    all_goals omega
  | writeDone here outstanding is =>
    rcases is with rfl | rfl <;> refine flows.walk ?_ ?_ ?_ ?_ ?_ ?_ ?_ <;>
      simp [here, isReading, isWriting, isClearing, isShut, isUnreported, isClosing, hasLock, isStopping]
    all_goals omega
  | release here free => exact flows.release settled here free
  | lock here free =>
    refine flows.walk ?_ ?_ ?_ ?_ ?_ ?_ ?_ <;>
      simp [here, isReading, isWriting, isClearing, isShut, isUnreported, isClosing, hasLock, isStopping]
  | refused here =>
    refine flows.walk ?_ ?_ ?_ ?_ ?_ ?_ ?_ <;>
      simp [here, isReading, isWriting, isClearing, isShut, isUnreported, isClosing, hasLock, isStopping]
  | sent here => exact flows.send settled here
  | stopped here unset =>
    refine flows.flag (by rw [here]; decide) ?_ id (fun no set => ?_) ?_ fun isOpen => (flows.socket isOpen).2.1
    · exact fun like => absurd (congrArg AtomicSwitch.bstop like) (Ne.symm Bool.false_ne_true)
    · exact absurd (Eq.trans (Eq.symm no) set) Bool.false_ne_true
    · rw [here]
      exact id
  | close here _ => exact flows.close settled here
  | storeStart here =>
    refine flows.flag (by rw [here]; decide) ?_ ?_ (fun _ _ => rfl) ?_ fun isOpen => (flows.socket isOpen).2.1
    · exact fun like => absurd (congrArg AtomicSwitch.bstart like) Bool.false_ne_true
    · exact fun no => absurd no Bool.false_ne_true
    · exact fun _ => rfl
  | storeStop here =>
    refine flows.flag (by rw [here]; decide) ?_ id (fun _ _ => rfl) (fun _ => rfl) fun isOpen =>
      (flows.socket isOpen).2.1
    have unstarted : life.switch.bstart = false := settled.placedAt here
    intro like
    have set : life.switch.bstart = true := congrArg AtomicSwitch.bstart like
    exact absurd (unstarted.symm.trans set) Bool.false_ne_true
  | storeInit here =>
    refine flows.flag (by rw [here]; decide) ?_ id (fun _ _ => rfl) (fun _ => rfl) fun isOpen => ?_
    · exact fun like => absurd (congrArg AtomicSwitch.binit like) Bool.false_ne_true
    · exact absurd ⟨thread, by rw [here]; rfl⟩ (flows.socket isOpen).2.2
  | clear here => exact flows.clear settled here
  | reports here =>
    refine flows.walk ?_ ?_ ?_ ?_ ?_ ?_ ?_ <;>
      simp [here, isReading, isWriting, isClearing, isShut, isUnreported, isClosing, hasLock, isStopping]

end Steps

theorem flows_of_path (path : Path (Taken next) construct actions last) : last.Flows := by
  have both := path.invariant (fun life : SessionLife Thread => life.Settled ∧ life.Flows)
    (fun before action after kept taken => ?_) ⟨settled_construct, flows_construct⟩
  · exact both.2
  · obtain ⟨thread, steps, _⟩ := kept.1.steps_of_next taken
    exact ⟨kept.1.steps steps, kept.2.steps kept.1 steps⟩

/-- The reads come one at a time, and so do the writes. The messages that were taken are handed over in their
order. It is opened once at most. While it is started, something of it is on its way that goes on reading or
stops it, and where a message waits, something is on its way that writes it or stops the session. -/
structure Orderly (life : SessionLife Thread) : Prop where
  reads : life.reads ≤ 1 ∧ (0 < life.reads → ∀ thread, (life.places thread).isReading = false) ∧
    ∀ thread other, (life.places thread).isReading = true → (life.places other).isReading = true → thread = other
  writes : life.writes ≤ 1 ∧ (0 < life.writes → ∀ thread, (life.places thread).isWriting = false) ∧
    ∀ thread other, (life.places thread).isWriting = true → (life.places other).isWriting = true → thread = other
  opened : life.opened ≤ 1
  sentOf : life.sent <+: life.accepted
  inOrder : life.switch = started → life.accepted = life.sent ++ life.items ∧
    (life.currentSendMsg = none → life.items = [])
  sending : life.switch = started → life.items ≠ [] → 0 < life.writes ∨
    ∃ thread, (life.places thread).isWriting = true ∨ (life.places thread).isStopping = true
  live : life.switch = started → 0 < life.reads ∨
    ∃ thread, (life.places thread).isReading = true ∨ (life.places thread).isStopping = true

omit [DecidableEq Thread] in
/-- Where one is outstanding or in hand at most. -/
private theorem one_of_atMost {holds : SessionPc → Bool} {places : Thread → SessionPc} {done bound : Nat}
    (most : AtMost holds places done bound) (le : bound ≤ 1) :
    done ≤ 1 ∧ (0 < done → ∀ thread, holds (places thread) = false) ∧
      ∀ thread other, holds (places thread) = true → holds (places other) = true → thread = other := by
  refine ⟨Nat.le_trans most.le le, fun outstanding thread => ?_, fun thread other first second => ?_⟩
  · by_contra here
    have := most.lt (Bool.eq_true_of_not_eq_false here)
    omega
  · exact most.alone (by omega) first second

/-- However the threads take their turns, with calls of `shutdown` and `write` and completions of any outcome
among their steps, the session is in order. -/
theorem orderly_life_of_path (path : Path (Taken next) construct actions last) : last.Orderly := by
  have settled := settled_of_path path
  have flows := flows_of_path path
  refine ⟨one_of_atMost flows.reading (Bool.toNat_le _), one_of_atMost flows.writing (Bool.toNat_le _), ?_,
    flows.sentOf, fun like => ⟨flows.inOrder (by rw [like]; rfl), fun idle => ?_⟩, fun like waits => ?_,
    fun like => ?_⟩
  · have := settled.opening.le
    have := settled.beginning.le
    have := Bool.toNat_le last.called
    omega
  · by_contra some'
    have := flows.waiting some'
    rw [idle] at this
    cases this
  · refine (flows.sending like (flows.waiting waits)).imp_right ?_
    rintro ⟨thread, there⟩
    exact ⟨thread, Bool.or_eq_true_iff.mp there⟩
  · refine (flows.live like).imp_right ?_
    rintro ⟨thread, there⟩
    exact ⟨thread, Bool.or_eq_true_iff.mp there⟩

/-- So many steps of a thread. -/
def goes (thread : Thread) (count : Nat) : List (SessionAction Thread) := List.replicate count (.step thread)

/-- A session with three messages, of which one thread writes two and another one the third. -/
theorem orderly_life_of_path_three_messages :
    let actions := .start 0 :: goes 0 7 ++ .write 1 [1] true :: goes 1 4 ++ .write 2 [2, 3] true :: goes 2 4 ++
      .readDone 3 true :: .step 3 :: .writeDone 4 true :: goes 4 5 ++ .write 1 [4] true :: goes 1 2
    ∃ last : SessionLife Nat, Path (Taken next) construct actions last ∧ last.Orderly ∧ last.switch = .started ∧
      last.sent = [[1], [2, 3]] ∧ last.reads = 0 ∧ last.writes = 1 := by
  intro actions
  have runs : (exec next construct actions).map (fun last =>
      decide (last.switch = .started ∧ last.sent = [[1], [2, 3]] ∧ last.reads = 0 ∧ last.writes = 1)) =
      some true := by
    decide
  obtain ⟨last, run, decided⟩ := Option.map_eq_some_iff.mp runs
  have path := exec_eq_some_iff.mp run
  exact ⟨last, path, orderly_life_of_path path, of_decide_eq_true decided⟩

/-- A `stop` that sets `m_bstop` finds the switch still started. -/
def Timely (life : SessionLife Thread) : SessionAction Thread → Prop
  | .step thread =>
    life.places thread = .stopping .exchange → life.switch.bstop = false → life.switch.bstart = true
  | _ => True

/-- Only a `stop` that sets `m_bstop` calls `close`. -/
private theorem closes_le_one_of_next {action : SessionAction Thread} (settled : life.Settled)
    (taken : life.next action = some after) :
    after.closes ≤ 1 ↔ life.closes ≤ 1 ∧ life.Timely action := by
  have enters {before : SessionLife Thread} {thread : Thread} {pc : SessionPc}
      (entered : before.enter thread pc = some after) (same : before.closes = life.closes) :
      after.closes = life.closes := by
    obtain ⟨_, entered⟩ := Option.ite_none_right_eq_some.mp entered
    cases entered
    exact same
  cases action with
  | start thread =>
    obtain ⟨_, entered⟩ := Option.ite_none_left_eq_some.mp taken
    rw [enters entered rfl]
    exact (and_iff_left trivial).symm
  | shutdown thread | write thread _ _ =>
    rw [enters taken rfl]
    exact (and_iff_left trivial).symm
  | readDone thread _ | writeDone thread _ =>
    obtain ⟨_, entered⟩ := Option.ite_none_left_eq_some.mp taken
    rw [enters entered rfl]
    exact (and_iff_left trivial).symm
  | step thread =>
    by_cases here : life.places thread = .stopping .exchange
    · have some' : 0 < life.starts := settled.placedAt here
      change life.step thread = some after at taken
      simp only [Timely, here, true_imp_iff]
      cases unset : life.switch.bstop with
      | true =>
        simp only [SessionLife.step, here, AtomicSwitch.stop, unset] at taken
        cases taken
        simp [goto]
      | false =>
        simp only [SessionLife.step, here, AtomicSwitch.stop, unset] at taken
        cases taken
        simp only [goto, true_imp_iff]
        -- The first to set it finds the switch as it was started, a later one finds it cleared.
        by_cases never : life.closes = 0
        · refine iff_of_true (by omega) ⟨by omega, ?_⟩
          rw [settled.unclosed some' never]
          rfl
        · refine iff_of_false (by omega) ?_
          rintro ⟨_, set⟩
          exact absurd (unset.symm.trans (settled.unstored (Nat.pos_of_ne_zero never) set)) Bool.false_ne_true
    · have same : after.closes = life.closes := by
        cases settled.steps_of_step taken with
        | stopped at' _ => exact absurd at' here
        | sent at' =>
          obtain ⟨items, currentSendMsg, writes, accepted, sent, same⟩ := life.send_eq _
          rw [same]
          rfl
        | release at' _ =>
          obtain ⟨items, currentSendMsg, writes, sent, same⟩ := writeNext_eq { life with currentSendMsg := none }
          rw [SessionLife.release, same]
          rfl
        | _ => rfl
      rw [same]
      exact (and_iff_left fun at' => absurd at' here).symm

/-- The session is closed once at most, exactly if every `stop` that sets `m_bstop` finds the switch still
started. The close callback is called no more often than the session is closed. -/
theorem closes_le_one_iff (path : Path (Taken next) construct actions last) :
    last.closed ≤ last.closes ∧ (last.closes ≤ 1 ↔
      ∀ life action, Takes (Taken next) construct actions life action → life.Timely action) := by
  refine ⟨(settled_of_path path).reporting.le, ?_⟩
  have free : Path (Guarded (Taken next) fun _ _ => True) construct actions last :=
    path.mono fun _ _ _ step => ⟨trivial, step⟩
  have exact_step (before : SessionLife Thread) (action : SessionAction Thread) (after : SessionLife Thread)
      (settled : before.Settled) (_ : True) (taken : before.next action = some after) :
      after.Settled ∧ (after.closes ≤ 1 ↔ before.closes ≤ 1 ∧ before.Timely action) := by
    obtain ⟨thread, steps, _⟩ := settled.steps_of_next taken
    exact ⟨settled.steps steps, closes_le_one_of_next settled taken⟩
  exact iff_takes Settled exact_step free settled_construct (Nat.zero_le 1)

/-- Two threads have come to the exchange of `stop` when one of them makes it and closes the session. The other
one makes its own after `m_bstop` has been stored, and closes the session again. -/
theorem closes_le_one_iff_late_stop :
    let actions := .start 0 :: goes 0 7 ++ .shutdown 1 :: goes 1 2 ++ .shutdown 2 :: goes 2 6 ++ goes 1 1
    ∃ last : SessionLife Nat, Path (Taken next) construct actions last ∧ last.closes = 2 ∧ last.closed ≤ last.closes ∧
      (last.closes ≤ 1 ↔
        ∀ life action, Takes (Taken next) construct actions life action → life.Timely action) := by
  intro actions
  have runs : (exec next construct actions).map (fun last => decide (last.closes = 2)) = some true := by
    decide
  obtain ⟨last, run, decided⟩ := Option.map_eq_some_iff.mp runs
  have path := exec_eq_some_iff.mp run
  exact ⟨last, path, of_decide_eq_true decided, closes_le_one_iff path⟩

/-- When no thread is in the session any more and no read is outstanding, a session that was started has been
opened once and closed. The close callback has been called as often as it was closed, the socket is closed, and
nothing is left in the buffer. -/
theorem ended_of_path (path : Path (Taken next) construct actions last) (called : last.called = true)
    (outside : ∀ thread, last.places thread = .outside) (reads : last.reads = 0) :
    last.opened = 1 ∧ 1 ≤ last.closed ∧ last.closed = last.closes ∧ last.switch = .construct ∧
      last.socketOpen = false ∧ last.items = [] ∧ last.currentSendMsg = none := by
  have settled := settled_of_path path
  have flows := flows_of_path path
  have started : last.starts = 1 := by
    rw [settled.beginning.eq fun thread => by rw [outside]; rfl, called]
    rfl
  have closed : last.closed = last.closes := settled.reporting.eq fun thread => by rw [outside]; rfl
  have stopped : 0 < last.closes := by
    refine Nat.pos_of_ne_zero fun never => ?_
    rcases flows.live (settled.unclosed (by omega) never) with outstanding | ⟨thread, there⟩
    · omega
    · rw [outside] at there
      cases there
  have nobody {holds : SessionPc → Prop} (no : ¬ holds .outside) : ¬ Somewhere holds last.places := by
    rintro ⟨thread, there⟩
    rw [outside] at there
    exact no there
  have flags : last.switch = .construct := (settled.ended stopped).resolve_left (nobody (by decide))
  have isOpen : last.socketOpen = false := by
    by_contra is
    have := (flows.socket (Bool.eq_true_of_not_eq_false is)).1
    omega
  obtain ⟨items, current⟩ :=
    (flows.dropped (by rw [flags]; rfl)).resolve_right (nobody (by decide))
  refine ⟨?_, by omega, closed, flags, isOpen, items, current⟩
  rw [settled.opening.eq fun thread => by rw [outside]; rfl, started]

/-- The peer ends a session while a message waits. -/
theorem ended_of_path_waiting :
    let actions := .start 0 :: goes 0 7 ++ .write 1 [1] true :: goes 1 4 ++ .write 1 [2] true :: goes 1 4 ++
      .readDone 0 false :: goes 0 10
    ∃ last : SessionLife (Fin 2), Path (Taken next) construct actions last ∧ last.accepted = [[1], [2]] ∧
      last.sent = [[1]] ∧ last.opened = 1 ∧ 1 ≤ last.closed ∧ last.closed = last.closes ∧ last.switch = .construct ∧
      last.socketOpen = false ∧ last.items = [] ∧ last.currentSendMsg = none := by
  intro actions
  have runs : (exec next construct actions).map (fun last => decide (last.accepted = [[1], [2]] ∧
      last.sent = [[1]] ∧ last.called = true ∧ last.reads = 0 ∧ ∀ thread, last.places thread = .outside)) =
      some true := by
    decide
  obtain ⟨last, run, decided⟩ := Option.map_eq_some_iff.mp runs
  obtain ⟨accepted, sent, called, reads, outside⟩ := of_decide_eq_true decided
  have path := exec_eq_some_iff.mp run
  exact ⟨last, path, accepted, sent, ended_of_path path called outside reads⟩

end SessionLife

end BTool.BoostNet
