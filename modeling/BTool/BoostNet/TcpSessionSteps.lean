import BTool.BoostNet.TcpSessionLife
import BTool.Foundation.Tally

/-! What the steps of a session do to its flags, and what the threads in its functions rely on. -/

namespace BTool.BoostNet

open BTool.Foundation BTool.Foundation.Path BTool.TaskPool BTool.TaskPool.AtomicSwitch

namespace SessionPc

/-- It has still to start the switch. -/
def isBeginning : SessionPc → Bool
  | .init | .starting _ => true
  | _ => false

/-- It has still to call the open callback. -/
def isOpening : SessionPc → Bool
  | .firstRead | .atOpenCbk => true
  | _ => false

/-- The next read is up to it. -/
def isReading : SessionPc → Bool
  | .init | .starting _ | .firstRead | .readCbk | .readTest _ | .nextRead => true
  | _ => false

/-- The next write is up to it. -/
def isWriting : SessionPc → Bool
  | .writeTest _ | .writeCbk | .release => true
  | _ => false

def isStopping : SessionPc → Bool
  | .stopping _ => true
  | _ => false

/-- In `close`, with the items still to be cleared. -/
def isClosing : SessionPc → Bool
  | .closing | .resetting _ | .clearing => true
  | _ => false

/-- In `close`, with the close callback still to be called. -/
def isUnreported : SessionPc → Bool
  | .closing | .resetting _ | .clearing | .atCloseCbk => true
  | _ => false

/-- In `close`, with `m_bstop` still to be stored. -/
def isUnstopping : SessionPc → Bool
  | .closing | .resetting .storeStart | .resetting .storeStop => true
  | _ => false

/-- In `close`, with `m_bstart` stored and the items still to be cleared. -/
def isClearing : SessionPc → Bool
  | .resetting .storeStop | .resetting .storeInit | .clearing => true
  | _ => false

def isCalling : SessionPc → Bool
  | .closeCbk => true
  | _ => false

/-- It has `m_write_mtx`. -/
def hasLock : SessionPc → Bool
  | .sendTest .. | .resetting _ | .clearing => true
  | _ => false

/-- What a place is to the session but for a close callback that is running. -/
def roles (pc : SessionPc) : List Bool :=
  [pc.isBeginning, pc.isOpening, pc.isClosing, pc.isUnreported, pc.isUnstopping, pc.isClearing, pc.hasLock,
    pc.isReading, pc.isWriting]

/-- What a thread relies on at its place. -/
def Placed (switch : AtomicSwitch) (starts : Nat) : SessionPc → Prop
  | .init => starts = 0 ∧ switch.binit = false
  | .starting _ => starts = 0 ∧ switch.binit = true
  | .sendTest _ _ .loadInit => switch.bstart = true
  | .stopping .exchange => 0 < starts
  | .resetting .storeStop | .resetting .storeInit => switch.bstart = false
  | .clearing => switch.bstart = false ∧ switch.binit = false
  | _ => True

/-- A thread moves on by itself. It gives up the next read or the next write only where the switch is not
started. -/
structure Walks (switch : AtomicSwitch) (starts : Nat) (before after : SessionPc) : Prop where
  calls : after.isCalling = false
  begins : after.isBeginning = before.isBeginning
  opens : after.isOpening = before.isOpening
  closes : after.isClosing = before.isClosing
  reports : after.isUnreported = before.isUnreported
  unstops : after.isUnstopping = before.isUnstopping
  clears : after.isClearing = before.isClearing
  locks : after.hasLock = before.hasLock
  reads : after.isReading = true → before.isReading = true
  writes : after.isWriting = true → before.isWriting = true
  live : switch = started → (before.isReading || before.isStopping) = true →
    (after.isReading || after.isStopping) = true
  sends : switch = started → (before.isWriting || before.isStopping) = true →
    (after.isWriting || after.isStopping) = true
  placed : after.Placed switch starts

theorem isUnreported_of_isClosing {pc : SessionPc} (closes : pc.isClosing = true) : pc.isUnreported = true := by
  cases pc <;> first | exact closes | cases closes

section Walks

variable {switch later : AtomicSwitch} {starts startsLater : Nat} {pc : SessionPc}

/-- What a thread relies on outlasts a change of the flags that is none for it. -/
theorem Placed.change (placed : pc.Placed switch starts) (grows : starts ≤ startsLater)
    (begins : pc.isBeginning = true → later.binit = switch.binit ∧ startsLater = starts)
    (sends : pc.isClosing = false → pc.hasLock = true → switch.bstart = true → later.bstart = true)
    (closes : pc.isClosing = true → pc.hasLock = true →
      later.bstart = switch.bstart ∧ later.binit = switch.binit) : pc.Placed later startsLater := by
  cases pc with
  | init | starting _ =>
    obtain ⟨init, same⟩ := begins rfl
    exact ⟨same.trans placed.1, init.trans placed.2⟩
  | sendTest sendMsg room test =>
    cases test with
    | loadInit => exact sends rfl rfl placed
    | loadStop | loadStart => trivial
  | stopping test =>
    cases test with
    | exchange => exact Nat.lt_of_lt_of_le placed grows
    | loadInit | loadStart => trivial
  | resetting test =>
    cases test with
    | storeStart => trivial
    | storeStop | storeInit => exact (closes rfl rfl).1.trans placed
  | clearing =>
    obtain ⟨start, init⟩ := closes rfl rfl
    exact ⟨start.trans placed.1, init.trans placed.2⟩
  | outside | firstRead | atOpenCbk | openCbk | readCbk | readTest | nextRead | writeTest | writeCbk | release
    | sending | closing | atCloseCbk | closeCbk => trivial

/-- A walk that gives nothing up. -/
theorem Walks.free {pc later : SessionPc} (placed : later.Placed switch starts) (calls : later.isCalling = false)
    (same : later.roles = pc.roles) (stops : pc.isStopping = true → later.isStopping = true) :
    Walks switch starts pc later := by
  simp only [roles, List.cons.injEq, and_true] at same
  obtain ⟨begins, opens, closes, reports, unstops, clears, locks, reads, writes⟩ := same
  refine ⟨calls, begins, opens, closes, reports, unstops, clears, locks, fun now => reads.symm.trans now,
    fun now => writes.symm.trans now, fun _ live => ?_, fun _ live => ?_, placed⟩
  · rw [Bool.or_eq_true] at live ⊢
    exact live.imp reads.trans stops
  · rw [Bool.or_eq_true] at live ⊢
    exact live.imp writes.trans stops

/-- A thread comes to a test of `has_stoped`, which does not leave a session that is started. -/
private theorem walks_test {test : HasStopedPc → SessionPc} {behind : SessionPc} (load : HasStopedPc)
    (leaves : switch ≠ started → Walks switch starts (test load) .outside)
    (goes : ∀ later, Walks switch starts (test load) (test later))
    (passes : Walks switch starts (test load) behind) :
    Walks switch starts (test load)
      ((switch.hasStoped load).elim test fun stoped => if stoped then .outside else behind) := by
  cases result : switch.hasStoped load with
  | goes later => exact goes later
  | returns stoped =>
    cases stoped with
    | false => exact passes
    | true =>
      refine leaves fun like => ?_
      rw [like] at result
      cases load <;> cases result

theorem walks_readTest (load : HasStopedPc) :
    Walks switch starts (.readTest load)
      ((switch.hasStoped load).elim .readTest fun stoped => if stoped then .outside else .nextRead) := by
  refine walks_test load (fun unlike => ?_) (fun later => ?_) ?_
  · exact ⟨rfl, rfl, rfl, rfl, rfl, rfl, rfl, rfl, fun _ => rfl, id, fun like => absurd like unlike,
      fun like => absurd like unlike, trivial⟩
  · exact .free trivial rfl rfl id
  · exact .free trivial rfl rfl id

theorem walks_writeTest (load : HasStopedPc) :
    Walks switch starts (.writeTest load)
      ((switch.hasStoped load).elim .writeTest fun stoped => if stoped then .outside else .writeCbk) := by
  refine walks_test load (fun unlike => ?_) (fun later => ?_) ?_
  · exact ⟨rfl, rfl, rfl, rfl, rfl, rfl, rfl, rfl, id, fun _ => rfl, fun like => absurd like unlike,
      fun like => absurd like unlike, trivial⟩
  · exact .free trivial rfl rfl id
  · exact .free trivial rfl rfl id

end Walks

end SessionPc

open SessionPc

namespace SessionLife

variable {Thread : Type} [DecidableEq Thread] {life before after : SessionLife Thread} {thread : Thread}
  {pc : SessionPc}

/-- What one step of the session is, where the flags are in order. -/
inductive Steps (life : SessionLife Thread) (thread : Thread) : SessionLife Thread → Prop where
  | walk {pc : SessionPc} (walks : Walks life.switch life.starts (life.places thread) pc) :
    Steps life thread (life.goto thread pc)
  | start (here : life.places thread = .outside) (uncalled : life.called = false) :
    Steps life thread ({ life with called := true }.goto thread .init)
  | init (here : life.places thread = .init) :
    Steps life thread ({ life with switch := { life.switch with binit := true } }.goto thread (.starting .loadStop))
  | started (here : life.places thread = .starting .exchange) :
    Steps life thread ({ life with
      switch := { life.switch with bstart := true }
      starts := life.starts + 1 }.goto thread .firstRead)
  | firstRead (here : life.places thread = .firstRead) :
    Steps life thread ({ life with reads := life.reads + 1 }.goto thread .atOpenCbk)
  | opens (here : life.places thread = .atOpenCbk) :
    Steps life thread ({ life with opened := life.opened + 1 }.goto thread .openCbk)
  | nextRead (here : life.places thread = .nextRead) :
    Steps life thread ({ life with reads := life.reads + 1 }.goto thread .outside)
  | readDone {pc : SessionPc} (here : life.places thread = .outside) (outstanding : 0 < life.reads)
    (is : pc = .readCbk ∨ pc = .stopping .loadInit) :
    Steps life thread ({ life with reads := life.reads - 1 }.goto thread pc)
  | writeDone {pc : SessionPc} (here : life.places thread = .outside) (outstanding : 0 < life.writes)
    (is : pc = .writeTest .loadInit ∨ pc = .stopping .loadInit) :
    Steps life thread ({ life with writes := life.writes - 1 }.goto thread pc)
  | release (here : life.places thread = .release) (free : life.writeMtx = none) :
    Steps life thread (life.release.goto thread .outside)
  | lock {sendMsg : List UInt8} {room : Bool} (here : life.places thread = .sending sendMsg room)
    (free : life.writeMtx = none) :
    Steps life thread ({ life with writeMtx := some thread }.goto thread (.sendTest sendMsg room .loadStop))
  | refused {sendMsg : List UInt8} {room : Bool} {pc : HasStartedPc}
    (here : life.places thread = .sendTest sendMsg room pc) :
    Steps life thread ({ life with writeMtx := none }.goto thread .outside)
  | sent {sendMsg : List UInt8} {room : Bool} (here : life.places thread = .sendTest sendMsg room .loadInit) :
    Steps life thread ({ life.send sendMsg with writeMtx := none }.goto thread .outside)
  | stopped (here : life.places thread = .stopping .exchange) (unset : life.switch.bstop = false) :
    Steps life thread ({ life with
      switch := { life.switch with bstop := true }
      closes := life.closes + 1 }.goto thread .closing)
  | close (here : life.places thread = .closing) (free : life.writeMtx = none) :
    Steps life thread ({ life with
      writeMtx := some thread
      socketOpen := life.socketOpen && !life.switch.binit }.goto thread (.resetting .storeStart))
  | storeStart (here : life.places thread = .resetting .storeStart) :
    Steps life thread
      ({ life with switch := { life.switch with bstart := false } }.goto thread (.resetting .storeStop))
  | storeStop (here : life.places thread = .resetting .storeStop) :
    Steps life thread
      ({ life with switch := { life.switch with bstop := false } }.goto thread (.resetting .storeInit))
  | storeInit (here : life.places thread = .resetting .storeInit) :
    Steps life thread ({ life with switch := { life.switch with binit := false } }.goto thread .clearing)
  | clear (here : life.places thread = .clearing) :
    Steps life thread ({ life with writeMtx := none, items := [], currentSendMsg := none }.goto thread .atCloseCbk)
  | reports (here : life.places thread = .atCloseCbk) :
    Steps life thread ({ life with closed := life.closed + 1 }.goto thread .closeCbk)

/-- The flags fit the calls that have been made and those that are in progress. -/
structure Settled (life : SessionLife Thread) : Prop where
  placed : ∀ thread, (life.places thread).Placed life.switch life.starts
  locked : ∀ thread, (life.places thread).hasLock = true ↔ life.writeMtx = some thread
  beginning : Accounts isBeginning life.places life.starts life.called.toNat
  opening : Accounts isOpening life.places life.opened life.starts
  reporting : Accounts isUnreported life.places life.closed life.closes
  uncalled : life.called = false → life.switch.binit = false
  unset : life.starts = 0 → life.switch.bstart = false ∧ life.switch.bstop = false ∧ life.closes = 0
  unclosed : 0 < life.starts → life.closes = 0 → life.switch = .started
  unstored : 0 < life.closes → life.switch.bstart = true → life.switch.bstop = true
  unstopped : life.switch.bstop = true → Somewhere (fun pc => isUnstopping pc = true) life.places
  ended : 0 < life.closes → Somewhere (fun pc => isClosing pc = true) life.places ∨ life.switch = .construct

omit [DecidableEq Thread] in
theorem settled_construct : (construct : SessionLife Thread).Settled where
  placed := fun _ => trivial
  locked := fun _ => by simp [construct, hasLock]
  beginning := .zero fun _ => rfl
  opening := .zero fun _ => rfl
  reporting := .zero fun _ => rfl
  uncalled := fun _ => rfl
  unset := fun _ => ⟨rfl, rfl, rfl⟩
  unclosed := by simp [construct]
  unstored := by simp [construct]
  unstopped := by simp [construct, AtomicSwitch.construct]
  ended := by simp [construct]

section Inversion

variable (settled : life.Settled)

include settled

omit [DecidableEq Thread] in
theorem Settled.placedAt (here : life.places thread = pc) : pc.Placed life.switch life.starts :=
  here ▸ settled.placed thread

/-- A thread that calls `m_atomic_switch.start` finds the flags of a switch before it. -/
private theorem steps_starting {test : StartPc} (here : life.places thread = .starting test)
    (taken : life.step thread = some after) : life.Steps thread after := by
  obtain ⟨none, set⟩ : life.starts = 0 ∧ life.switch.binit = true := settled.placedAt here
  obtain ⟨unstarted, unstopped, _⟩ := settled.unset none
  have goes {later : StartPc} (same : after = life.goto thread (.starting later)) : life.Steps thread after := by
    rw [same]
    refine .walk ?_
    rw [here]
    exact .free ⟨none, set⟩ rfl rfl id
  cases test with
  | loadStop =>
    simp only [SessionLife.step, here, AtomicSwitch.start, unstopped] at taken
    exact goes (Option.some.inj taken).symm
  | loadInit =>
    simp only [SessionLife.step, here, AtomicSwitch.start, set] at taken
    exact goes (Option.some.inj taken).symm
  | exchange =>
    simp only [SessionLife.step, here, AtomicSwitch.start, unstarted] at taken
    cases taken
    exact .started here

/-- A call of `m_atomic_switch.stop` gives up only where the switch is not started. -/
private theorem steps_stopping {test : StopPc} (here : life.places thread = .stopping test)
    (taken : life.step thread = some after) : life.Steps thread after := by
  have leaves (unlike : life.switch ≠ started) (same : after = life.goto thread .outside) :
      life.Steps thread after := by
    rw [same]
    refine .walk ?_
    rw [here]
    exact ⟨rfl, rfl, rfl, rfl, rfl, rfl, rfl, rfl, id, id, fun like => absurd like unlike,
      fun like => absurd like unlike, trivial⟩
  have goes {later : StopPc} (placed : Placed life.switch life.starts (.stopping later))
      (same : after = life.goto thread (.stopping later)) : life.Steps thread after := by
    rw [same]
    refine .walk ?_
    rw [here]
    exact .free placed rfl rfl id
  cases test with
  | loadInit =>
    cases set : life.switch.binit <;> simp only [SessionLife.step, here, AtomicSwitch.stop, set] at taken
    · refine leaves (fun like => ?_) (Option.some.inj taken).symm
      rw [like] at set
      cases set
    · exact @goes .loadStart trivial (Option.some.inj taken).symm
  | loadStart =>
    cases set : life.switch.bstart <;> simp only [SessionLife.step, here, AtomicSwitch.stop, set] at taken
    · refine leaves (fun like => ?_) (Option.some.inj taken).symm
      rw [like] at set
      cases set
    · refine goes (Nat.pos_of_ne_zero fun none => ?_) (Option.some.inj taken).symm
      exact absurd ((settled.unset none).1.symm.trans set) Bool.false_ne_true
  | exchange =>
    cases set : life.switch.bstop <;> simp only [SessionLife.step, here, AtomicSwitch.stop, set] at taken
    · cases taken
      exact .stopped here set
    · refine leaves (fun like => ?_) (Option.some.inj taken).symm
      rw [like] at set
      cases set

omit settled in
/-- A `write` is taken only with the switch started at the last of its tests. -/
private theorem steps_sendTest {sendMsg : List UInt8} {room : Bool} {test : HasStartedPc}
    (here : life.places thread = .sendTest sendMsg room test) (taken : life.step thread = some after) :
    life.Steps thread after := by
  have goes {later : HasStartedPc} (placed : Placed life.switch life.starts (.sendTest sendMsg room later))
      (same : after = life.goto thread (.sendTest sendMsg room later)) : life.Steps thread after := by
    rw [same]
    refine .walk ?_
    rw [here]
    exact .free placed rfl rfl id
  cases test with
  | loadStop =>
    cases set : life.switch.bstop <;> simp only [SessionLife.step, here, hasStarted, set] at taken
    · exact @goes .loadStart trivial (Option.some.inj taken).symm
    · cases taken
      exact .refused here
  | loadStart =>
    cases set : life.switch.bstart <;> simp only [SessionLife.step, here, hasStarted, set] at taken
    · cases taken
      exact .refused here
    · exact @goes .loadInit set (Option.some.inj taken).symm
  | loadInit =>
    simp only [SessionLife.step, here, hasStarted] at taken
    obtain rfl := Option.some.inj taken
    cases taken' : life.switch.binit && room with
    | false => exact .refused here
    | true =>
      obtain ⟨_, rfl⟩ := Bool.and_eq_true_iff.mp taken'
      exact .sent here

theorem Settled.steps_of_step (taken : life.step thread = some after) : life.Steps thread after := by
  cases here : life.places thread with
  | starting test => exact steps_starting settled here taken
  | stopping test => exact steps_stopping settled here taken
  | sendTest sendMsg room test => exact steps_sendTest here taken
  | outside =>
    simp only [SessionLife.step, here] at taken
    cases taken
  | init =>
    obtain ⟨_, unset⟩ : life.starts = 0 ∧ life.switch.binit = false := settled.placedAt here
    simp only [SessionLife.step, here, AtomicSwitch.init, unset] at taken
    cases taken
    exact .init here
  | firstRead =>
    simp only [SessionLife.step, here] at taken
    cases taken
    exact .firstRead here
  | atOpenCbk =>
    simp only [SessionLife.step, here] at taken
    cases taken
    exact .opens here
  | nextRead =>
    simp only [SessionLife.step, here] at taken
    cases taken
    exact .nextRead here
  | openCbk | closeCbk | readCbk | writeCbk =>
    simp only [SessionLife.step, here] at taken
    cases taken
    refine .walk ?_
    rw [here]
    exact .free trivial rfl rfl id
  | readTest test =>
    simp only [SessionLife.step, here] at taken
    cases taken
    refine .walk ?_
    rw [here]
    exact walks_readTest test
  | writeTest test =>
    simp only [SessionLife.step, here] at taken
    cases taken
    refine .walk ?_
    rw [here]
    exact walks_writeTest test
  | release =>
    simp only [SessionLife.step, here] at taken
    obtain ⟨free, same⟩ := Option.ite_none_right_eq_some.mp taken
    cases same
    exact .release here free
  | sending sendMsg room =>
    simp only [SessionLife.step, here, lockWrite] at taken
    obtain ⟨free, same⟩ := Option.ite_none_right_eq_some.mp taken
    cases same
    exact .lock here free
  | closing =>
    simp only [SessionLife.step, here, lockWrite] at taken
    obtain ⟨free, same⟩ := Option.ite_none_right_eq_some.mp taken
    cases same
    exact .close here free
  | resetting test =>
    simp only [SessionLife.step, here] at taken
    cases taken
    cases test with
    | storeStart => exact .storeStart here
    | storeStop => exact .storeStop here
    | storeInit => exact .storeInit here
  | clearing =>
    simp only [SessionLife.step, here] at taken
    cases taken
    exact .clear here
  | atCloseCbk =>
    simp only [SessionLife.step, here] at taken
    cases taken
    exact .reports here

/-- A thread that takes a step of its own, or comes into the session. -/
theorem Settled.steps_of_next {action : SessionAction Thread} (taken : life.next action = some after) :
    ∃ thread, life.Steps thread after ∧
      (action = .step thread ∨ life.places thread = .outside ∧ ∀ other, action ≠ .step other) := by
  have entered {before : SessionLife Thread} {thread : Thread} {pc : SessionPc}
      (entered : before.enter thread pc = some after) :
      before.places thread = .outside ∧ after = before.goto thread pc := by
    obtain ⟨here, same⟩ := Option.ite_none_right_eq_some.mp entered
    exact ⟨here, (Option.some.inj same).symm⟩
  cases action with
  | step thread => exact ⟨thread, settled.steps_of_step taken, .inl rfl⟩
  | start thread =>
    obtain ⟨uncalled, taken⟩ := Option.ite_none_left_eq_some.mp taken
    obtain ⟨here, rfl⟩ := entered taken
    exact ⟨thread, .start here (Bool.eq_false_iff.mpr uncalled), .inr ⟨here, by simp⟩⟩
  | shutdown thread =>
    obtain ⟨here, rfl⟩ := entered taken
    refine ⟨thread, .walk ?_, .inr ⟨here, by simp⟩⟩
    rw [here]
    exact ⟨rfl, rfl, rfl, rfl, rfl, rfl, rfl, rfl, by decide, by decide, fun _ => by decide, fun _ => by decide,
      trivial⟩
  | write thread sendMsg room =>
    obtain ⟨here, rfl⟩ := entered taken
    refine ⟨thread, .walk ?_, .inr ⟨here, by simp⟩⟩
    rw [here]
    exact .free trivial rfl rfl id
  | readDone thread success =>
    obtain ⟨some', taken⟩ := Option.ite_none_left_eq_some.mp taken
    obtain ⟨here, rfl⟩ := entered taken
    refine ⟨thread, .readDone here (Nat.pos_of_ne_zero some') ?_, .inr ⟨here, by simp⟩⟩
    cases success
    · exact .inr rfl
    · exact .inl rfl
  | writeDone thread success =>
    obtain ⟨some', taken⟩ := Option.ite_none_left_eq_some.mp taken
    obtain ⟨here, rfl⟩ := entered taken
    refine ⟨thread, .writeDone here (Nat.pos_of_ne_zero some') ?_, .inr ⟨here, by simp⟩⟩
    cases success
    · exact .inr rfl
    · exact .inl rfl

end Inversion

section Settled

variable {mtx : Option Thread} {switch : AtomicSwitch} {starts : Nat}

/-- A thread has its place, and the others rely on what has not changed for them. -/
private theorem placed_goto (now : pc.Placed switch starts)
    (others : ∀ other, other ≠ thread → (life.places other).Placed switch starts) (other : Thread) :
    (Function.update life.places thread pc other).Placed switch starts := by
  by_cases same : other = thread
  · rw [same, Function.update_self]
    exact now
  · rw [Function.update_of_ne same]
    exact others other same

variable (locked : ∀ thread, (life.places thread).hasLock = true ↔ life.writeMtx = some thread)

include locked

private theorem locked_keep (same : pc.hasLock = (life.places thread).hasLock) (other : Thread) :
    (Function.update life.places thread pc other).hasLock = true ↔ life.writeMtx = some other := by
  rw [view_move hasLock same]
  exact locked other

private theorem locked_lock (free : life.writeMtx = none) (now : pc.hasLock = true) (other : Thread) :
    (Function.update life.places thread pc other).hasLock = true ↔ some thread = some other := by
  by_cases same : other = thread
  · rw [same, Function.update_self]
    exact iff_of_true now rfl
  · rw [Function.update_of_ne same, locked other, free]
    exact iff_of_false (by simp) fun here => same (Option.some.inj here).symm

private theorem locked_unlock (was : (life.places thread).hasLock = true) (now : pc.hasLock = false)
    (other : Thread) :
    (Function.update life.places thread pc other).hasLock = true ↔ none = some other := by
  refine iff_of_false (fun here => ?_) (by simp)
  by_cases same : other = thread
  · rw [same, Function.update_self, now] at here
    cases here
  · rw [Function.update_of_ne same, locked other, (locked thread).mp was] at here
    exact same (Option.some.inj here).symm

end Settled

/-- A step of which the switch knows nothing. -/
private theorem Settled.shift (settled : life.Settled) (places : after.places = Function.update life.places thread pc)
    (flags : after.switch = life.switch ∧ after.starts = life.starts ∧ after.closes = life.closes ∧
      after.called = life.called)
    (placed : pc.Placed life.switch life.starts)
    (locked : ∀ other, (Function.update life.places thread pc other).hasLock = true ↔ after.writeMtx = some other)
    (begins : pc.isBeginning = (life.places thread).isBeginning)
    (opens : after.opened + pc.isOpening.toNat = life.opened + (life.places thread).isOpening.toNat)
    (reports : after.closed + pc.isUnreported.toNat = life.closed + (life.places thread).isUnreported.toNat)
    (unstops : (life.places thread).isUnstopping = true → pc.isUnstopping = true)
    (ended : 0 < life.closes →
      Somewhere (fun pc => isClosing pc = true) (Function.update life.places thread pc) ∨ life.switch = .construct) :
    after.Settled := by
  obtain ⟨switch, starts, closes', called⟩ := flags
  constructor
  · rw [switch, starts, places]
    exact placed_goto placed fun other _ => settled.placed other
  · rw [places]
    exact locked
  · rw [places, starts, called]
    exact settled.beginning.move _ _ (by rw [begins])
  · rw [places, starts]
    exact settled.opening.move _ _ (by omega)
  · rw [places, closes']
    exact settled.reporting.move _ _ (by omega)
  · rw [called, switch]
    exact settled.uncalled
  · rw [starts, switch, closes']
    exact settled.unset
  · rw [starts, switch, closes']
    exact settled.unclosed
  · rw [switch, closes']
    exact settled.unstored
  · rw [switch, places]
    exact fun set => (settled.unstopped set).move unstops
  · rw [closes', switch, places]
    exact ended

/-- The same of a thread that stays in `close`, or outside of it. -/
private theorem Settled.pass (settled : life.Settled) (places : after.places = Function.update life.places thread pc)
    (flags : after.switch = life.switch ∧ after.starts = life.starts ∧ after.closes = life.closes ∧
      after.called = life.called)
    (placed : pc.Placed life.switch life.starts)
    (locked : ∀ other, (Function.update life.places thread pc other).hasLock = true ↔ after.writeMtx = some other)
    (begins : pc.isBeginning = (life.places thread).isBeginning)
    (opens : after.opened + pc.isOpening.toNat = life.opened + (life.places thread).isOpening.toNat)
    (closes : pc.isClosing = (life.places thread).isClosing)
    (reports : after.closed + pc.isUnreported.toNat = life.closed + (life.places thread).isUnreported.toNat)
    (unstops : (life.places thread).isUnstopping = true → pc.isUnstopping = true) : after.Settled := by
  refine settled.shift places flags placed locked begins opens reports unstops fun some' => ?_
  exact (settled.ended some').imp_left fun found => found.move fun was => closes.trans was

omit [DecidableEq Thread] in
theorem writeNext_eq (life : SessionLife Thread) : ∃ items currentSendMsg writes sent,
    life.writeNext = { life with items, currentSendMsg, writes, sent } := by
  unfold writeNext
  split
  · exact ⟨life.items, life.currentSendMsg, life.writes, life.sent, rfl⟩
  · exact ⟨_, _, _, _, rfl⟩

omit [DecidableEq Thread] in
theorem send_eq (life : SessionLife Thread) (sendMsg : List UInt8) :
    ∃ items currentSendMsg writes accepted sent,
      life.send sendMsg = { life with items, currentSendMsg, writes, accepted, sent } := by
  unfold send
  split
  · exact ⟨_, life.currentSendMsg, life.writes, _, life.sent, rfl⟩
  · obtain ⟨items, currentSendMsg, writes, sent, same⟩ := writeNext_eq
      { life with items := life.items ++ [sendMsg], accepted := life.accepted ++ [sendMsg] }
    exact ⟨items, currentSendMsg, writes, _, sent, same⟩

section Flags

variable (settled : life.Settled)

include settled

omit [DecidableEq Thread] in
private theorem not_closing (none : life.closes = 0) (other : Thread) : (life.places other).isClosing = false := by
  by_contra here
  have := settled.reporting.lt (isUnreported_of_isClosing (Bool.eq_true_of_not_eq_false here))
  omega

omit [DecidableEq Thread] in
private theorem no_lock (here : (life.places thread).hasLock = true) {other : Thread} (apart : other ≠ thread) :
    (life.places other).hasLock = false := by
  by_contra there
  have its := (settled.locked other).mp (Bool.eq_true_of_not_eq_false there)
  rw [(settled.locked thread).mp here] at its
  exact apart (Option.some.inj its).symm

omit [DecidableEq Thread] in
/-- While a thread has still to start the switch, no other one has. -/
private theorem not_beginning (here : (life.places thread).isBeginning = true) {other : Thread}
    (apart : other ≠ thread) : (life.places other).isBeginning = false := by
  by_contra there
  refine apart (settled.beginning.alone ?_ (Bool.eq_true_of_not_eq_false there) here)
  exact Nat.le_trans (Bool.toNat_le _) (Nat.le_add_left ..)

theorem settled_init (here : life.places thread = .init) :
    ({ life with switch := { life.switch with binit := true } }.goto thread (.starting .loadStop)).Settled := by
  obtain ⟨none, unset⟩ : life.starts = 0 ∧ life.switch.binit = false := settled.placedAt here
  obtain ⟨unstarted, unstopped, unclosed⟩ := settled.unset none
  have begins : (life.places thread).isBeginning = true := by rw [here]; rfl
  constructor
  · refine placed_goto ⟨none, rfl⟩ fun other apart => (settled.placed other).change (Nat.le_refl _) ?_ ?_ ?_
    · exact fun its => absurd ((not_beginning settled begins apart).symm.trans its) Bool.false_ne_true
    · exact fun _ _ => id
    · exact fun its => absurd ((not_closing settled unclosed other).symm.trans its) Bool.false_ne_true
  · exact locked_keep settled.locked (by rw [here]; rfl)
  · exact settled.beginning.move _ _ (by rw [here]; rfl)
  · exact settled.opening.move _ _ (by rw [here]; rfl)
  · exact settled.reporting.move _ _ (by rw [here]; rfl)
  · intro uncalled
    have := settled.beginning.lt begins
    rw [show life.called = false from uncalled] at this
    cases this
  · exact settled.unset
  · exact fun some' => absurd none (Nat.ne_of_gt some')
  · exact fun some' => absurd unclosed (Nat.ne_of_gt some')
  · exact fun set => absurd (unstopped.symm.trans set) Bool.false_ne_true
  · exact fun some' => absurd unclosed (Nat.ne_of_gt some')

theorem settled_started (here : life.places thread = .starting .exchange) :
    ({ life with switch := { life.switch with bstart := true }, starts := life.starts + 1 }.goto thread
      .firstRead).Settled := by
  obtain ⟨none, set⟩ : life.starts = 0 ∧ life.switch.binit = true := settled.placedAt here
  obtain ⟨unstarted, unstopped, unclosed⟩ := settled.unset none
  have begins : (life.places thread).isBeginning = true := by rw [here]; rfl
  constructor
  · refine placed_goto trivial fun other apart => (settled.placed other).change (Nat.le_succ _) ?_ ?_ ?_
    · exact fun its => absurd ((not_beginning settled begins apart).symm.trans its) Bool.false_ne_true
    · exact fun _ _ _ => rfl
    · exact fun its => absurd ((not_closing settled unclosed other).symm.trans its) Bool.false_ne_true
  · exact locked_keep settled.locked (by rw [here]; rfl)
  · exact settled.beginning.move _ _ (by rw [here]; simp [isBeginning, goto])
  · exact settled.opening.move _ _ (by rw [here]; simp [isOpening, goto]; omega)
  · exact settled.reporting.move _ _ (by rw [here]; rfl)
  · intro uncalled
    have := settled.beginning.lt begins
    rw [show life.called = false from uncalled] at this
    cases this
  · exact fun no => absurd no (Nat.succ_ne_zero _)
  · exact fun _ _ => AtomicSwitch.ext set rfl unstopped
  · exact fun some' => absurd unclosed (Nat.ne_of_gt some')
  · exact fun set => absurd (unstopped.symm.trans set) Bool.false_ne_true
  · exact fun some' => absurd unclosed (Nat.ne_of_gt some')

theorem settled_stopped (here : life.places thread = .stopping .exchange) :
    ({ life with switch := { life.switch with bstop := true }, closes := life.closes + 1 }.goto thread
      .closing).Settled := by
  have some' : 0 < life.starts := settled.placedAt here
  constructor
  · refine placed_goto trivial fun other _ => (settled.placed other).change (Nat.le_refl _) ?_ ?_ ?_
    · exact fun _ => ⟨rfl, rfl⟩
    · exact fun _ _ => id
    · exact fun _ _ => ⟨rfl, rfl⟩
  · exact locked_keep settled.locked (by rw [here]; rfl)
  · exact settled.beginning.move _ _ (by rw [here]; rfl)
  · exact settled.opening.move _ _ (by rw [here]; rfl)
  · exact settled.reporting.move _ _ (by rw [here]; simp [isUnreported, goto]; omega)
  · exact settled.uncalled
  · exact fun none => absurd none (Nat.ne_of_gt some')
  · exact fun _ none => absurd none (Nat.succ_ne_zero _)
  · exact fun _ _ => rfl
  · exact fun _ => .here rfl
  · exact fun _ => .inl (.here rfl)

omit [DecidableEq Thread] in
/-- With a thread in `close` the session has been started. -/
private theorem closes_pos (here : (life.places thread).isClosing = true) : 0 < life.closes ∧ 0 < life.starts := by
  have some' := settled.reporting.lt (isUnreported_of_isClosing here)
  refine ⟨by omega, Nat.pos_of_ne_zero fun none => ?_⟩
  have := (settled.unset none).2.2
  omega

/-- A store of `reset`. -/
private theorem settled_reset {reset later : SessionPc} {switch : AtomicSwitch} (here : life.places thread = reset)
    (roles : reset.isClosing = true ∧ reset.hasLock = true ∧ reset.isBeginning = false ∧ reset.isOpening = false)
    (laterRoles : later.isClosing = true ∧ later.hasLock = true ∧ later.isBeginning = false ∧
      later.isOpening = false)
    (placed : later.Placed switch life.starts) (less : switch.binit = true → life.switch.binit = true)
    (unstored : switch.bstart = true → switch.bstop = true)
    (unstopped : switch.bstop = true → later.isUnstopping = true ∨
      life.switch.bstop = true ∧ reset.isUnstopping = false) :
    ({ life with switch }.goto thread later).Settled := by
  subst here
  obtain ⟨closes, locks, begins, opens⟩ := roles
  obtain ⟨closesLater, locksLater, beginsLater, opensLater⟩ := laterRoles
  obtain ⟨closed, started⟩ := closes_pos settled closes
  constructor
  · refine placed_goto placed fun other apart => (settled.placed other).change (Nat.le_refl _) ?_ ?_ ?_
    · intro its
      have := settled.beginning.lt its
      have := Bool.toNat_le life.called
      omega
    · exact fun _ its => absurd ((no_lock settled locks apart).symm.trans its) Bool.false_ne_true
    · exact fun _ its => absurd ((no_lock settled locks apart).symm.trans its) Bool.false_ne_true
  · exact locked_keep settled.locked (locksLater.trans locks.symm)
  · exact settled.beginning.move _ _ (by rw [begins, beginsLater]; rfl)
  · exact settled.opening.move _ _ (by rw [opens, opensLater]; rfl)
  · exact settled.reporting.move _ _
      (by rw [isUnreported_of_isClosing closes, isUnreported_of_isClosing closesLater]; rfl)
  · intro uncalled
    exact Bool.eq_false_iff.mpr fun set =>
      absurd ((settled.uncalled uncalled).symm.trans (less set)) Bool.false_ne_true
  · exact fun none => absurd none (Nat.ne_of_gt started)
  · exact fun _ none => absurd none (Nat.ne_of_gt closed)
  · exact fun _ => unstored
  · intro set
    rcases unstopped set with here | ⟨before, not⟩
    · exact .here here
    · refine (settled.unstopped before).move fun was => ?_
      exact absurd (not.symm.trans was) Bool.false_ne_true
  · exact fun _ => .inl (.here closesLater)

private theorem settled_clear (here : life.places thread = .clearing) :
    ({ life with writeMtx := none, items := [], currentSendMsg := none }.goto thread .atCloseCbk).Settled := by
  obtain ⟨unstarted, unset⟩ : life.switch.bstart = false ∧ life.switch.binit = false := settled.placedAt here
  refine settled.shift rfl ⟨rfl, rfl, rfl, rfl⟩ trivial
    (locked_unlock settled.locked (by rw [here]; rfl) rfl) ?_ ?_ ?_ ?_ ?_
  · rw [here]
    rfl
  · rw [here]
    rfl
  · rw [here]
    rfl
  · rw [here]
    exact fun no => absurd no Bool.false_ne_true
  · intro _
    cases set : life.switch.bstop with
    | false => exact .inr (AtomicSwitch.ext unset unstarted set)
    | true =>
      -- Another call of `close` has stopped the switch after this one has stored `m_bstop`.
      obtain ⟨other, there⟩ := settled.unstopped set
      refine .inl ⟨other, ?_⟩
      have apart : other ≠ thread := by
        rintro rfl
        rw [here] at there
        cases there
      rw [Function.update_of_ne apart]
      revert there
      cases life.places other <;> simp [isUnstopping, isClosing]

private theorem settled_start (here : life.places thread = .outside) (uncalled : life.called = false) :
    ({ life with called := true }.goto thread .init).Settled := by
  have none : life.starts = 0 := by
    have := settled.beginning.le
    rw [uncalled] at this
    exact Nat.le_zero.mp this
  constructor
  · exact placed_goto ⟨none, settled.uncalled uncalled⟩ fun other _ => settled.placed other
  · exact locked_keep settled.locked (by rw [here]; rfl)
  · exact settled.beginning.move _ _ (by rw [here, uncalled]; rfl)
  · exact settled.opening.move _ _ (by rw [here]; rfl)
  · exact settled.reporting.move _ _ (by rw [here]; rfl)
  · exact fun no => absurd no.symm Bool.false_ne_true
  · exact settled.unset
  · exact settled.unclosed
  · exact settled.unstored
  · exact fun set => (settled.unstopped set).move fun was => by rw [here] at was; cases was
  · exact fun some' => (settled.ended some').imp_left fun found => found.move fun was => by
      rw [here] at was
      cases was

theorem Settled.steps (steps : life.Steps thread after) : after.Settled := by
  cases steps with
  | walk walks =>
    refine settled.pass rfl ⟨rfl, rfl, rfl, rfl⟩ walks.placed (locked_keep settled.locked walks.locks)
      walks.begins ?_ walks.closes ?_ fun was => walks.unstops.trans was
    · rw [walks.opens]
      rfl
    · rw [walks.reports]
      rfl
  | start here uncalled => exact settled_start settled here uncalled
  | init here => exact settled_init settled here
  | started here => exact settled_started settled here
  | firstRead here =>
    refine settled.pass rfl ⟨rfl, rfl, rfl, rfl⟩ trivial (locked_keep settled.locked ?_) ?_ ?_ ?_ ?_ ?_ <;>
      simp [here, goto, hasLock, isBeginning, isOpening, isClosing, isUnreported, isUnstopping]
  | opens here =>
    refine settled.pass rfl ⟨rfl, rfl, rfl, rfl⟩ trivial (locked_keep settled.locked ?_) ?_ ?_ ?_ ?_ ?_ <;>
      simp [here, goto, hasLock, isBeginning, isOpening, isClosing, isUnreported, isUnstopping]
  | nextRead here =>
    refine settled.pass rfl ⟨rfl, rfl, rfl, rfl⟩ trivial (locked_keep settled.locked ?_) ?_ ?_ ?_ ?_ ?_ <;>
      simp [here, goto, hasLock, isBeginning, isOpening, isClosing, isUnreported, isUnstopping]
  | readDone here _ is =>
    rcases is with rfl | rfl <;>
      refine settled.pass rfl ⟨rfl, rfl, rfl, rfl⟩ trivial (locked_keep settled.locked ?_) ?_ ?_ ?_ ?_ ?_ <;>
      simp [here, goto, hasLock, isBeginning, isOpening, isClosing, isUnreported, isUnstopping]
  | writeDone here _ is =>
    rcases is with rfl | rfl <;>
      refine settled.pass rfl ⟨rfl, rfl, rfl, rfl⟩ trivial (locked_keep settled.locked ?_) ?_ ?_ ?_ ?_ ?_ <;>
      simp [here, goto, hasLock, isBeginning, isOpening, isClosing, isUnreported, isUnstopping]
  | release here _ =>
    obtain ⟨items, currentSendMsg, writes, sent, same⟩ := writeNext_eq { life with currentSendMsg := none }
    rw [release, same]
    refine settled.pass rfl ⟨rfl, rfl, rfl, rfl⟩ trivial (locked_keep settled.locked ?_) ?_ ?_ ?_ ?_ ?_ <;>
      simp [here, goto, hasLock, isBeginning, isOpening, isClosing, isUnreported, isUnstopping]
  | lock here free =>
    refine settled.pass rfl ⟨rfl, rfl, rfl, rfl⟩ trivial (locked_lock settled.locked free rfl) ?_ ?_ ?_ ?_ ?_ <;>
      simp [here, goto, isBeginning, isOpening, isClosing, isUnreported, isUnstopping]
  | refused here =>
    refine settled.pass rfl ⟨rfl, rfl, rfl, rfl⟩ trivial
      (locked_unlock settled.locked (by rw [here]; rfl) rfl) ?_ ?_ ?_ ?_ ?_ <;>
      simp [here, goto, isBeginning, isOpening, isClosing, isUnreported, isUnstopping]
  | sent here =>
    obtain ⟨items, currentSendMsg, writes, accepted, sent, same⟩ := life.send_eq _
    rw [same]
    refine settled.pass rfl ⟨rfl, rfl, rfl, rfl⟩ trivial
      (locked_unlock settled.locked (by rw [here]; rfl) rfl) ?_ ?_ ?_ ?_ ?_ <;>
      simp [here, goto, isBeginning, isOpening, isClosing, isUnreported, isUnstopping]
  | stopped here _ => exact settled_stopped settled here
  | close here free =>
    refine settled.pass rfl ⟨rfl, rfl, rfl, rfl⟩ trivial (locked_lock settled.locked free rfl) ?_ ?_ ?_ ?_ ?_ <;>
      simp [here, goto, isBeginning, isOpening, isClosing, isUnreported, isUnstopping]
  | storeStart here =>
    exact settled_reset settled here (by decide) (by decide) rfl id (fun no => absurd no Bool.false_ne_true)
      fun _ => .inl rfl
  | storeStop here =>
    have unstarted : life.switch.bstart = false := settled.placedAt here
    exact settled_reset settled here (by decide) (by decide) unstarted id
      (fun set => absurd (unstarted.symm.trans set) Bool.false_ne_true) fun no => absurd no Bool.false_ne_true
  | storeInit here =>
    have unstarted : life.switch.bstart = false := settled.placedAt here
    exact settled_reset settled here (by decide) (by decide) ⟨unstarted, rfl⟩
      (fun no => absurd no Bool.false_ne_true) (fun set => absurd (unstarted.symm.trans set) Bool.false_ne_true)
      fun set => .inr ⟨set, rfl⟩
  | clear here => exact settled_clear settled here
  | reports here =>
    refine settled.pass rfl ⟨rfl, rfl, rfl, rfl⟩ trivial (locked_keep settled.locked ?_) ?_ ?_ ?_ ?_ ?_ <;>
      simp [here, goto, hasLock, isBeginning, isOpening, isClosing, isUnreported, isUnstopping]

end Flags

theorem settled_of_path {actions : List (SessionAction Thread)} {last : SessionLife Thread}
    (path : Path (Taken next) construct actions last) : last.Settled := by
  refine path.invariant Settled (fun _ _ _ settled taken => ?_) settled_construct
  obtain ⟨thread, steps, _⟩ := settled.steps_of_next taken
  exact settled.steps steps

end SessionLife

end BTool.BoostNet
