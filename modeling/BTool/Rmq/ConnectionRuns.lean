import Mathlib.Data.Fintype.Option
import BTool.Foundation.Locals
import BTool.Rmq.SessionLife

/-! Who may close the connection of an RMQ session and when: a close is safe only where nobody comes to
another call of the library, a callback may lag behind the switch, and an attempt to connect that fails is the
last one. -/

namespace BTool.Rmq

open BTool.Foundation BTool.Foundation.Path BTool.TaskPool BTool.TaskPool.AtomicSwitch

/-- It comes to a call of the library that uses the connection. -/
def ReadTask.needs : ReadTask → Bool
  | .connect => false
  | .channel | .read => true

namespace SessionPc

/-- A thread there comes to a call of the library that uses the connection, or to the next `read`, with no test in
between that `m_bstop`, as it is, would end otherwise. -/
def needs (bstop : Bool) : SessionPc → Bool
  | .calling | .publish | .login | .starting _ | .atOpenCbk | .openCbk | .channels | .channel | .consuming
  | .closeChannel | .ack | .destroying => true
  | .readCbk acks => acks
  | .writeTest .loadStop | .readTest .loadStop => !bstop
  | _ => false

/-- At the last of the three loads of `has_stoped`. -/
def atLastTest : SessionPc → Bool
  | .writeTest .loadStop | .readTest .loadStop => true
  | _ => false

/-- In `close`, with `m_binit` still to be stored. -/
def isClosing : SessionPc → Bool
  | .destroying | .resetting _ => true
  | _ => false

/-- In `close`, with `m_bstop` still to be stored. -/
def isUnstopping : SessionPc → Bool
  | .destroying | .resetting .storeStart | .resetting .storeStop => true
  | _ => false

/-- It is up to this thread what becomes of the switch. -/
def hasTurn : SessionPc → Bool
  | .adding | .newConnection | .login | .starting _ | .destroying | .resetting _ => true
  | _ => false

/-- The connection is not there yet or not any more. -/
def isApart : SessionPc → Bool
  | .adding | .newConnection | .resetting _ => true
  | _ => false

/-- The next `handle_read` is up to this thread. -/
def isReading : SessionPc → Bool
  | .newConnection | .login | .starting _ | .atOpenCbk | .openCbk | .channels | .consuming | .readCbk _ | .ack
  | .readTest _ => true
  | _ => false

/-- The open callback is up to this thread. -/
def isOpening : SessionPc → Bool
  | .atOpenCbk => true
  | _ => false

/-- The close callback is up to this thread, and nothing else. -/
def isReporting : SessionPc → Bool
  | .atCloseCbk => true
  | _ => false

/-- `m_bstart` is stored. -/
def isUnstarted : SessionPc → Bool
  | .resetting .storeStop | .resetting .storeInit => true
  | _ => false

end SessionPc

namespace SessionLife

variable {User : Type}

/-- Whoever comes to a call of the library with no test in between has a connection, and who closes closes a session
that has been opened. -/
structure Sound (life : SessionLife User) : Prop where
  alive : life.connected = false → ∀ thread, (life.places thread).needs life.switch.bstop = false
  opened : ∀ thread, life.places thread = .destroying → life.switch.bstart = true

/-- A call without a test and a task that uses the connection find it, a `stop` that gets through finds the
switch started, the connection is destroyed when nobody else comes to a call of the library, and no thread is at
its last test when `m_bstop` is taken back. -/
def Careful (life : SessionLife User) : LifeAction User → Prop
  | .call _ => life.connected = true
  | .take => life.tasks.head?.any ReadTask.needs = true → life.connected = true
  | .step thread =>
    (life.places thread = .stopping .exchange → life.switch.bstop = false → life.switch.bstart = true) ∧
      (life.places thread = .destroying →
        ∀ other, other ≠ thread → (life.places other).needs life.switch.bstop = false) ∧
      (life.places thread = .resetting .storeStop → ∀ other, (life.places other).atLastTest = false)
  | _ => True

instance [DecidableEq User] [Fintype User] (life : SessionLife User) (action : LifeAction User) :
    Decidable (life.Careful action) :=
  match action with
  | .call _ => inferInstanceAs (Decidable (_ = true))
  | .take => inferInstanceAs (Decidable (_ → _))
  | .step _ => inferInstanceAs (Decidable ((_ → _ → _) ∧ (_ → _) ∧ (_ → _)))
  | .connect _ | .shutdown _ | .reconnectChannel _ | .write _ | .reply .. => .isTrue trivial

/-- Whether one thread may have the turn: a session that is open, or has not been connected, is nobody's. -/
def turns (switch : AtomicSwitch) : Nat := (switch.binit && !(switch.bstart && !switch.bstop)).toNat

/-- What the threads of a session rely on. -/
structure Kept (life : SessionLife User) : Prop where
  turn : AtMost SessionPc.hasTurn life.places (life.tasks.count .connect) (turns life.switch)
  live : life.switch = started → life.connected = true
  inited : life.switch.bstart = true → life.switch.binit = true
  unconnected : life.switch.binit = false → life.connected = false
  waiting : .connect ∈ life.tasks → life.connected = false
  order : life.tasks.Pairwise fun first later => first = .connect → later ≠ .read
  apart : ∀ thread, (life.places thread).isApart = true → life.connected = false
  unstarted : ∀ thread, (life.places thread).isUnstarted = true → life.switch.bstart = false
  stopped : life.switch.bstop = true → Somewhere (fun pc => pc.isUnstopping = true) life.places
  sole : ∀ user, (life.places (some user)).isReading = false
  reads : life.tasks.count .read + (life.places none).isReading.toNat ≤ 1
  opening : ∀ thread, (life.places thread).isOpening = true → life.switch.bstart = true
  closing : Accounts SessionPc.isClosing life.places life.resets life.closes
  reporting : Accounts SessionPc.isReporting life.places life.closed life.resets
  attempted : life.attempts = life.resets + life.switch.binit.toNat
  counted : Accounts SessionPc.isOpening life.places life.opened
    (life.closes + (life.switch.bstart && !life.switch.bstop).toNat)

section Kept

variable [DecidableEq User] {life after : SessionLife User} {thread : Option User} {pc : SessionPc}
  {action : LifeAction User}

theorem hasTurn_of_isClosing (closing : pc.isClosing = true) : pc.hasTurn = true := by
  cases pc <;> first | rfl | cases closing

theorem atOpenCbk_of_isOpening (opening : pc.isOpening = true) : pc = .atOpenCbk := by
  cases pc <;> first | rfl | cases opening

theorem isClosing_of_isUnstopping (unstopping : pc.isUnstopping = true) : pc.isClosing = true := by
  cases pc <;> first | rfl | cases unstopping

/-- Who is at its last test comes to a call exactly when `m_bstop` is not stored. -/
theorem needs_unstopped (pc : SessionPc) (bstop : Bool) :
    pc.needs false = (pc.needs bstop || pc.atLastTest) := by
  cases pc with
  | writeTest pc | readTest pc => cases pc <;> cases bstop <;> rfl
  | readCbk acks => cases acks <;> rfl
  | outside | init | adding | calling | publish | newConnection | login | starting | atOpenCbk | openCbk | channels
    | channel | consuming | closeChannel | ack | stopping | destroying | resetting | atCloseCbk | closeCbk => rfl

theorem turns_le_one (switch : AtomicSwitch) : turns switch ≤ 1 := Bool.toNat_le _

/-- Who has the turn has it in a session that is connected or being connected. -/
theorem turns_eq_one {switch : AtomicSwitch} (pos : 0 < turns switch) :
    switch.binit = true ∧ (switch.bstart && !switch.bstop) = false ∧ turns switch = 1 := by
  obtain ⟨init, start, stop⟩ := switch
  revert init start stop
  decide

theorem turns_of_waits {switch : AtomicSwitch} (init : switch.binit = true)
    (waits : (switch.bstart && !switch.bstop) = false) : turns switch = 1 := by
  rw [turns, init, waits]
  rfl

omit [DecidableEq User] in
/-- Nobody has the turn but this thread, and no attempt waits. -/
theorem Kept.only (kept : life.Kept) (most : turns life.switch ≤ (life.places thread).hasTurn.toNat) :
    .connect ∉ life.tasks ∧ ∀ other, other ≠ thread → (life.places other).hasTurn = false := by
  cases turn : (life.places thread).hasTurn with
  | false =>
    rw [turn, Bool.toNat_false] at most
    have none := kept.turn.le
    refine ⟨List.count_eq_zero.mp (by omega), fun other _ => ?_⟩
    by_contra there
    have := kept.turn.lt (Bool.eq_true_of_not_eq_false there)
    omega
  | true =>
    have less := kept.turn.lt turn
    have := turns_le_one life.switch
    refine ⟨List.count_eq_zero.mp (by omega), fun other apart => ?_⟩
    by_contra there
    exact apart (kept.turn.alone (by omega) (Bool.eq_true_of_not_eq_false there) turn)

omit [DecidableEq User] in
/-- Who has the turn has it in a session that is not open. -/
theorem Kept.mine (kept : life.Kept) (turn : (life.places thread).hasTurn = true) :
    turns life.switch ≤ (life.places thread).hasTurn.toNat ∧ life.switch.binit = true ∧
      (life.switch.bstart && !life.switch.bstop) = false := by
  have less := kept.turn.lt turn
  obtain ⟨init, waits, one⟩ := turns_eq_one (Nat.lt_of_le_of_lt (Nat.zero_le _) less)
  exact ⟨by rw [turn]; exact turns_le_one _, init, waits⟩

/-- A thread moves outside of `close`, with the switch and the connection as they are. -/
private theorem Kept.quiet (kept : life.Kept) (sound : life.Sound) {tasks : List ReadTask}
    {opened closed messages : Nat} (now : after = { life with tasks, opened, closed, messages }.goto thread pc)
    (left : (life.places thread).isClosing = false) (enters : pc.isClosing = false)
    (turn : tasks.count .connect + pc.hasTurn.toNat ≤
      life.tasks.count .connect + (life.places thread).hasTurn.toNat)
    (waiting : .connect ∈ tasks → life.connected = false)
    (order : tasks.Pairwise fun first later => first = .connect → later ≠ .read)
    (apart : pc.isApart = true → life.connected = false)
    (alive : pc.needs life.switch.bstop = true → life.connected = true)
    (sole : thread ≠ none → pc.isReading = false ∧ tasks.count .read ≤ life.tasks.count .read)
    (reads : thread = none → tasks.count .read + pc.isReading.toNat ≤ 1)
    (opening : opened + pc.isOpening.toNat = life.opened + (life.places thread).isOpening.toNat ∧
      pc.isOpening.toNat ≤ (life.places thread).isOpening.toNat)
    (reporting : closed + pc.isReporting.toNat = life.closed + (life.places thread).isReporting.toNat) :
    after.Sound ∧ after.Kept := by
  have everywhere (fact : SessionPc → Prop) (there : ∀ other, fact (life.places other)) (here : fact pc) :
      ∀ other, fact (Function.update life.places thread pc other) :=
    Everywhere.move there here
  have turns : AtMost SessionPc.hasTurn (Function.update life.places thread pc) (tasks.count .connect)
      (turns life.switch) :=
    kept.turn.move thread pc (by omega)
  have closing : Accounts SessionPc.isClosing (Function.update life.places thread pc) life.resets life.closes :=
    kept.closing.move thread pc (by rw [left, enters])
  have reports : Accounts SessionPc.isReporting (Function.update life.places thread pc) closed life.resets :=
    kept.reporting.move thread pc (by omega)
  have counted : Accounts SessionPc.isOpening (Function.update life.places thread pc) opened
      (life.closes + (life.switch.bstart && !life.switch.bstop).toNat) :=
    kept.counted.move thread pc (by omega)
  have begun : pc.isOpening = true → life.switch.bstart = true := by
    intro here
    have was := opening.2
    rw [here] at was
    exact kept.opening thread (Bool.toNat_eq_one.mp (Nat.le_antisymm (Bool.toNat_le _) was))
  have outside : pc.isUnstarted = true → life.switch.bstart = false := by
    intro here
    cases pc <;> first | cases here | cases enters
  subst now
  refine ⟨⟨fun lost => ?_, ?_⟩, ?_⟩
  · refine everywhere (fun pc => pc.needs life.switch.bstop = false) (sound.alive lost) ?_
    by_contra needs
    cases lost.symm.trans (alive (Bool.eq_true_of_not_eq_false needs))
  · refine everywhere (fun pc => pc = .destroying → life.switch.bstart = true) sound.opened fun here => ?_
    rw [here] at enters
    cases enters
  · constructor
    · exact turns
    · exact kept.live
    · exact kept.inited
    · exact kept.unconnected
    · exact waiting
    · exact order
    · exact everywhere (fun pc => pc.isApart = true → life.connected = false) kept.apart apart
    · exact everywhere (fun pc => pc.isUnstarted = true → life.switch.bstart = false) kept.unstarted outside
    · intro stop
      refine (kept.stopped stop).move fun was => ?_
      cases (isClosing_of_isUnstopping was).symm.trans left
    · intro user
      by_cases same : some user = thread
      · subst same
        simpa [goto] using (sole (by simp)).1
      · simpa [goto, Function.update_of_ne same] using kept.sole user
    · by_cases worker : thread = none
      · subst worker
        simpa [goto] using reads rfl
      · have fewer := (sole worker).2
        have := kept.reads
        simp only [goto, Function.update_of_ne (Ne.symm worker)]
        omega
    · exact everywhere (fun pc => pc.isOpening = true → life.switch.bstart = true) kept.opening begun
    · exact closing
    · exact reports
    · exact kept.attempted
    · exact counted

/-- The thread that has the turn, or takes it where it is nobody's, changes the switch or the connection. -/
private theorem Kept.solo (kept : life.Kept) {switch : AtomicSwitch} {connected : Bool}
    {attempts closes resets : Nat}
    (now : after = { life with switch, connected, attempts, closes, resets }.goto thread pc)
    (most : turns life.switch ≤ (life.places thread).hasTurn.toNat) (turn : pc.hasTurn.toNat ≤ turns switch)
    (live : switch = started → connected = true) (inited : switch.bstart = true → switch.binit = true)
    (unconnected : switch.binit = false → connected = false) (apart : pc.isApart = true → connected = false)
    (unstarted : pc.isUnstarted = true → switch.bstart = false)
    (stopped : switch.bstop = true → pc.isUnstopping = true)
    (reading : pc.isReading = true → (life.places thread).isReading = true)
    (opening : ∀ other, (Function.update life.places thread pc other).isOpening = true → switch.bstart = true)
    (closing : resets + pc.isClosing.toNat + life.closes =
      life.resets + (life.places thread).isClosing.toNat + closes)
    (reporting : pc.isReporting.toNat + life.resets = (life.places thread).isReporting.toNat + resets)
    (attempted : attempts = resets + switch.binit.toNat)
    (counted : pc.isOpening.toNat + (life.closes + (life.switch.bstart && !life.switch.bstop).toNat) =
      (life.places thread).isOpening.toNat + (closes + (switch.bstart && !switch.bstop).toNat)) : after.Kept := by
  obtain ⟨quiet, only⟩ := kept.only most
  have alone {holds : SessionPc → Bool} {fact : Prop} (implied : ∀ pc, holds pc = true → pc.hasTurn = true)
      (here : holds pc = true → fact) :
      ∀ other, holds (Function.update life.places thread pc other) = true → fact := by
    intro other there
    by_cases same : other = thread
    · subst same
      rw [Function.update_self] at there
      exact here there
    · rw [Function.update_of_ne same] at there
      cases (only other same).symm.trans (implied _ there)
  have turns : AtMost SessionPc.hasTurn (Function.update life.places thread pc) (life.tasks.count .connect)
      (turns switch) :=
    kept.turn.move thread pc (by omega)
  have closings : Accounts SessionPc.isClosing (Function.update life.places thread pc) resets closes :=
    kept.closing.move thread pc closing
  have reports : Accounts SessionPc.isReporting (Function.update life.places thread pc) life.closed resets :=
    kept.reporting.move thread pc (by omega)
  have opens : Accounts SessionPc.isOpening (Function.update life.places thread pc) life.opened
      (closes + (switch.bstart && !switch.bstop).toNat) :=
    kept.counted.move thread pc (by omega)
  subst now
  constructor
  · exact turns
  · exact live
  · exact inited
  · exact unconnected
  · exact fun waits => absurd waits quiet
  · exact kept.order
  · exact alone (fun pc here => by cases pc <;> first | rfl | cases here) apart
  · refine alone (fun pc here => ?_) unstarted
    cases pc <;> first | rfl | cases here
  · intro stop
    exact .here (stopped stop)
  · intro user
    by_cases same : some user = thread
    · subst same
      have was := kept.sole user
      simp only [goto, Function.update_self]
      by_contra here
      cases was.symm.trans (reading (Bool.eq_true_of_not_eq_false here))
    · simpa [goto, Function.update_of_ne same] using kept.sole user
  · have before := kept.reads
    by_cases worker : none = thread
    · subst worker
      have less := Bool.toNat_le_toNat reading
      simp only [goto, Function.update_self]
      omega
    · simp only [goto, Function.update_of_ne worker]
      omega
  · exact opening
  · exact closings
  · exact reports
  · exact attempted
  · exact opens

/-- The same for who has a connection. -/
private theorem Kept.soloSound (kept : life.Kept) {switch : AtomicSwitch} {connected : Bool}
    {attempts closes resets : Nat}
    (now : after = { life with switch, connected, attempts, closes, resets }.goto thread pc)
    (most : turns life.switch ≤ (life.places thread).hasTurn.toNat)
    (alive : connected = false → (∀ other, other ≠ thread → (life.places other).needs switch.bstop = false) ∧
      pc.needs switch.bstop = false)
    (started : pc = .destroying → switch.bstart = true) : after.Sound := by
  subst now
  refine ⟨fun lost other => ?_, fun other there => ?_⟩
  · by_cases same : other = thread
    · subst same
      simpa [goto] using (alive lost).2
    · simpa [goto, Function.update_of_ne same] using (alive lost).1 other same
  · by_cases same : other = thread
    · subst same
      exact started (by simpa [goto] using there)
    · simp only [goto, Function.update_of_ne same] at there
      have turn := (kept.only most).2 other same
      rw [there] at turn
      cases turn

/-- The same where there is no connection, and none is needed. -/
private theorem Kept.soloLost (kept : life.Kept) (sound : life.Sound) {switch : AtomicSwitch}
    {attempts closes resets : Nat}
    (now : after = { life with switch, attempts, closes, resets }.goto thread pc)
    (most : turns life.switch ≤ (life.places thread).hasTurn.toNat) (lost : life.connected = false)
    (stop : switch.bstop = life.switch.bstop) (needs : pc.needs switch.bstop = false) : after.Sound := by
  refine kept.soloSound now most (fun _ => ⟨fun other _ => ?_, needs⟩) fun this => ?_
  · rw [stop]
    exact sound.alive lost other
  · rw [this] at needs
    cases needs

omit [DecidableEq User] in
/-- Who comes to a call of the library has a connection. -/
private theorem Sound.lives (sound : life.Sound) (thread : Option User)
    (needs : (life.places thread).needs life.switch.bstop = true) :
    life.connected = true := by
  by_contra lost
  cases needs.symm.trans (sound.alive (Bool.eq_false_of_not_eq_true lost) thread)

/-- Where the switch stays started for whoever is at the call of the open callback, and nobody else comes there. -/
private theorem Kept.opens_on (kept : life.Kept) {bstart : Bool} (stays : life.switch.bstart = true → bstart = true)
    (here : pc.isOpening = true → bstart = true) (other : Option User)
    (there : (Function.update life.places thread pc other).isOpening = true) : bstart = true := by
  by_cases same : other = thread
  · subst same
    exact here (by rwa [Function.update_self] at there)
  · rw [Function.update_of_ne same] at there
    exact stays (kept.opening other there)

/-- A thread moves outside of `close`, with the tasks as they are as well. -/
private theorem Kept.walk {before : SessionPc} (kept : life.Kept) (sound : life.Sound) {messages : Nat}
    (now : after = { life with messages }.goto thread pc) (here : life.places thread = before)
    (roles : before.isClosing = false ∧ pc.isClosing = false ∧ pc.isApart = false ∧
      pc.hasTurn.toNat ≤ before.hasTurn.toNat ∧ pc.isReading.toNat ≤ before.isReading.toNat ∧
      pc.isOpening = before.isOpening ∧ pc.isReporting = before.isReporting)
    (needs : pc.needs life.switch.bstop = true → life.connected = true) : after.Sound ∧ after.Kept := by
  obtain ⟨left, enters, apart, turn, reading, opening, reporting⟩ := roles
  subst here
  refine kept.quiet sound now left enters (by omega) kept.waiting kept.order (fun this => ?_) needs
    (fun other => ?_) (fun worker => ?_) (by simp [opening]) (by rw [reporting])
  · cases apart.symm.trans this
  · obtain ⟨user, rfl⟩ := Option.ne_none_iff_exists'.mp other
    rw [kept.sole user, Bool.toNat_false, Nat.le_zero, Bool.toNat_eq_zero] at reading
    exact ⟨reading, Nat.le_refl _⟩
  · subst worker
    have := kept.reads
    omega

omit [DecidableEq User] in
/-- A `reconnect_channel` puts a task into the queue. -/
private theorem Kept.addChannel (kept : life.Kept) (sound : life.Sound) :
    (life.addTask .channel).Sound ∧ (life.addTask .channel).Kept := by
  have counts (task : ReadTask) (other : task ≠ .channel) :
      (life.tasks ++ [ReadTask.channel]).count task = life.tasks.count task := by
    rw [List.count_append, List.count_singleton, if_neg (by simpa using Ne.symm other), Nat.add_zero]
  refine ⟨⟨sound.alive, sound.opened⟩, ?_⟩
  · constructor
    · have turn := kept.turn
      rw [← counts .connect (by simp)] at turn
      exact turn
    · exact kept.live
    · exact kept.inited
    · exact kept.unconnected
    · intro waits
      refine kept.waiting ?_
      simpa [addTask] using waits
    · refine List.pairwise_append.mpr ⟨kept.order, List.pairwise_singleton _ _, fun _ _ later member _ => ?_⟩
      rw [List.mem_singleton.mp member]
      simp
    · exact kept.apart
    · exact kept.unstarted
    · exact kept.stopped
    · exact kept.sole
    · have reads := kept.reads
      rw [← counts .read (by simp)] at reads
      exact reads
    · exact kept.opening
    · exact kept.closing
    · exact kept.reporting
    · exact kept.attempted
    · exact kept.counted

/-- The worker of `m_read_thread` begins with a task. -/
private theorem Kept.taken (kept : life.Kept) (sound : life.Sound) (taken : life.take = some after) :
    (after.Sound ↔ life.Careful .take) ∧ (after.Sound → after.Kept) := by
  unfold take at taken
  split at taken
  · cases taken
  · rename_i task tasks queue
    obtain ⟨outside, same⟩ := Option.ite_none_right_eq_some.mp taken
    have now := (Option.some.inj same).symm
    have outside : life.places none = .outside := outside
    have rest {other : ReadTask} (there : other ∈ tasks) : other ∈ life.tasks := by
      rw [queue]
      exact List.mem_cons_of_mem _ there
    have counts (other : ReadTask) :
        life.tasks.count other = tasks.count other + if task = other then 1 else 0 := by
      rw [queue, List.count_cons]
      simp
    have ordered := kept.order
    rw [queue] at ordered
    obtain ⟨behind, order⟩ := List.pairwise_cons.mp ordered
    have reads := kept.reads
    rw [outside, counts] at reads
    have quiet {pc : SessionPc} (now : after = { life with tasks }.goto none pc)
        (enters : pc.isClosing = false ∧ pc.isOpening = false ∧ pc.isReporting = false)
        (turn : pc.hasTurn = true → task = .connect)
        (apart : pc.isApart = true → life.connected = false)
        (alive : pc.needs life.switch.bstop = true → life.connected = true)
        (reading : tasks.count .read + pc.isReading.toNat ≤ 1) : after.Sound ∧ after.Kept := by
      obtain ⟨closing, opening, reporting⟩ := enters
      refine kept.quiet sound now (by rw [outside]; rfl) closing ?_ (fun waits => kept.waiting (rest waits)) order
        apart alive (fun user => absurd rfl user) (fun _ => reading) ?_
        (by rw [outside, reporting]; rfl)
      rw [counts, outside]
      cases here : pc.hasTurn with
      | false => exact Nat.le_add_right ..
      | true => rw [if_pos (turn here)]; rfl
      rw [outside, opening]
      exact ⟨rfl, Nat.le_refl _⟩
    have uses {pc : SessionPc} (now : after = { life with tasks }.goto none pc) (needs : task.needs = true)
        (comes : pc.needs life.switch.bstop = true)
        (both : life.connected = true → after.Sound ∧ after.Kept) :
        (after.Sound ↔ life.Careful .take) ∧ (after.Sound → after.Kept) := by
      have careful : life.Careful .take ↔ life.connected = true := by simp [Careful, queue, needs]
      have lives (sound : after.Sound) : life.connected = true := by
        by_contra lost
        have nobody := sound.alive (by rw [now]; exact Bool.eq_false_of_not_eq_true lost) none
        simp only [now, goto, Function.update_self] at nobody
        cases comes.symm.trans nobody
      rw [careful]
      exact ⟨⟨lives, fun alive => (both alive).1⟩, fun sound => (both (lives sound)).2⟩
    cases task with
    | connect =>
      have member : .connect ∈ life.tasks := by rw [queue]; exact List.mem_cons_self
      have lost := kept.waiting member
      have none : tasks.count .read = 0 := List.count_eq_zero.mpr fun there => behind _ there rfl rfl
      have both := quiet now ⟨rfl, rfl, rfl⟩ (fun _ => rfl) (fun _ => lost) (fun this => by cases this)
        (by rw [none]; decide)
      exact ⟨iff_of_true both.1 (by simp [Careful, queue, ReadTask.needs]), fun _ => both.2⟩
    | channel =>
      exact uses now rfl rfl fun alive => quiet now ⟨rfl, rfl, rfl⟩ (fun here => by cases here)
        (fun here => by cases here) (fun _ => alive) reads
    | read =>
      exact uses now rfl rfl fun alive => quiet now ⟨rfl, rfl, rfl⟩ (fun here => by cases here)
        (fun here => by cases here) (fun _ => alive) reads

/-- A `handle_read` more is put into the queue by the thread that has been reading. -/
private theorem Kept.addRead (kept : life.Kept) (sound : life.Sound)
    (now : after = (life.addTask .read).goto thread .outside)
    (left : (life.places thread).isClosing = false ∧ (life.places thread).isOpening = false ∧
      (life.places thread).isReporting = false)
    (was : (life.places thread).isReading = true) (alive : life.connected = true) :
    after.Sound ∧ after.Kept := by
  obtain ⟨closing, opening, reporting⟩ := left
  have counts (task : ReadTask) :
      (life.tasks ++ [ReadTask.read]).count task = life.tasks.count task + if .read = task then 1 else 0 := by
    rw [List.count_append, List.count_singleton]
    simp
  have none : .connect ∉ life.tasks := by
    intro waits
    cases alive.symm.trans (kept.waiting waits)
  refine kept.quiet sound now closing rfl ?_ (fun waits => kept.waiting (by simpa using waits)) ?_
    (fun here => by cases here) (fun _ => alive) (fun other => ?_) (fun worker => ?_)
    (by rw [opening]; exact ⟨rfl, Nat.le_refl _⟩) (by rw [reporting]; rfl)
  · rw [counts, if_neg (by simp)]
    exact Nat.le_add_right ..
  · refine List.pairwise_append.mpr ⟨kept.order, List.pairwise_singleton _ _, fun first member _ _ same => ?_⟩
    exact absurd (same ▸ member) none
  · obtain ⟨user, rfl⟩ := Option.ne_none_iff_exists'.mp other
    cases (kept.sole user).symm.trans was
  · subst worker
    have reads := kept.reads
    rw [was] at reads
    rw [counts, if_pos rfl]
    exact reads

omit [DecidableEq User] in
/-- Where nobody else may have the turn and this thread is not in `close`, nobody is. -/
private theorem Kept.unstopped (kept : life.Kept) (most : turns life.switch ≤ (life.places thread).hasTurn.toNat)
    (apart : (life.places thread).isUnstopping = false) : life.switch.bstop = false := by
  by_contra stop
  obtain ⟨other, there⟩ := kept.stopped (Bool.eq_true_of_not_eq_false stop)
  by_cases same : other = thread
  · subst same
    cases apart.symm.trans there
  · have turn := hasTurn_of_isClosing (isClosing_of_isUnstopping there)
    cases ((kept.only most).2 other same).symm.trans turn

/-- `amqp_new_connection` and `amqp_socket_open` have been tried. -/
private theorem Kept.created (kept : life.Kept) {connected : Bool}
    (now : after = { life with connected }.goto thread pc) (here : life.places thread = .newConnection)
    (places : pc = .login ∧ connected = true ∨ pc = .stopping .loadInit) : after.Kept := by
  have turn : (life.places thread).hasTurn = true := by rw [here]; rfl
  obtain ⟨most, init, waits⟩ := kept.mine turn
  have one := turns_of_waits init waits
  have stop := kept.unstopped most (by rw [here]; rfl)
  have quiet : pc.isApart = false ∧ pc.isUnstarted = false ∧ pc.isClosing = false ∧ pc.isOpening = false ∧
      pc.isReporting = false := by
    obtain ⟨rfl, _⟩ | rfl := places <;> exact ⟨rfl, rfl, rfl, rfl, rfl⟩
  obtain ⟨apart, unstarted, closing, opening, reporting⟩ := quiet
  refine kept.solo now most (one ▸ Bool.toNat_le _) (fun live => ?_) kept.inited (fun none => ?_)
    (fun this => ?_) (fun this => ?_) (fun this => ?_) (fun _ => by rw [here]; rfl)
    (kept.opens_on id fun this => ?_) ?_ (by rw [reporting, here]; rfl) kept.attempted (by rw [opening, here]; rfl)
  · rw [live] at waits
    cases waits
  · cases init.symm.trans none
  · cases apart.symm.trans this
  · cases unstarted.symm.trans this
  · cases stop.symm.trans this
  · cases opening.symm.trans this
  · rw [closing, here]
    rfl

/-- A thread goes on with what the library has replied. -/
private theorem Kept.hear (kept : life.Kept) (sound : life.Sound) {reply : Reply}
    (taken : life.hear thread reply = some after) : after.Sound ∧ after.Kept := by
  have connects {pc : SessionPc} (now : after = { life with connected := true }.goto thread pc)
      (here : life.places thread = .newConnection) (places : pc = .login ∨ pc = .stopping .loadInit) :
      after.Sound ∧ after.Kept := by
    refine ⟨⟨fun lost => ?_, fun other there => ?_⟩, kept.created now here (places.imp_left fun same => ⟨same, rfl⟩)⟩
    · subst now
      cases lost
    · subst now
      refine sound.opened other ?_
      by_cases same : other = thread
      · subst same
        simp only [goto, Function.update_self] at there
        obtain rfl | rfl := places <;> cases there
      · simpa [goto, Function.update_of_ne same] using there
  have lives {before : SessionPc} (here : life.places thread = before)
      (needs : before.needs life.switch.bstop = true) : life.connected = true :=
    sound.lives thread (by rw [here, needs])
  unfold SessionLife.hear at taken
  split at taken
  case h_1 here =>
    have lost := kept.apart thread (by rw [here]; rfl)
    have same : { life with connected := false } = life := by rw [← lost]
    have now : after = life.goto thread (.stopping .loadInit) := by rw [← Option.some.inj taken, same]
    exact kept.walk sound now here (by decide) (fun this => by cases this)
  case h_2 here => exact connects (Option.some.inj taken).symm here (.inr rfl)
  case h_3 here => exact connects (Option.some.inj taken).symm here (.inl rfl)
  case h_4 here => exact kept.walk sound (Option.some.inj taken).symm here (by decide) (fun this => by cases this)
  case h_5 here => exact kept.walk sound (Option.some.inj taken).symm here (by decide) (fun _ => lives here rfl)
  case h_6 needReceive here =>
    cases needReceive with
    | true =>
      exact kept.addRead sound (Option.some.inj taken).symm (by rw [here]; exact ⟨rfl, rfl, rfl⟩) (by rw [here]; rfl)
        (lives here rfl)
    | false => exact kept.walk sound (Option.some.inj taken).symm here (by decide) (fun this => by cases this)
  case h_7 here =>
    exact kept.addRead sound (Option.some.inj taken).symm (by rw [here]; exact ⟨rfl, rfl, rfl⟩) (by rw [here]; rfl)
      (lives here rfl)
  case h_8 here => exact kept.walk sound (Option.some.inj taken).symm here (by decide) (fun this => by cases this)
  case h_9 started here =>
    cases started with
    | true => exact kept.walk sound (Option.some.inj taken).symm here (by decide) (fun _ => lives here rfl)
    | false => exact kept.walk sound (Option.some.inj taken).symm here (by decide) (fun this => by cases this)
  case h_10 acks here =>
    cases acks with
    | true => exact kept.walk sound (Option.some.inj taken).symm here (by decide) (fun _ => lives here rfl)
    | false => exact kept.walk sound (Option.some.inj taken).symm here (by decide) (fun this => by cases this)
  case h_11 => cases taken

omit [DecidableEq User] in
private theorem started_iff {switch : AtomicSwitch} :
    switch = started ↔ switch.binit = true ∧ switch.bstart = true ∧ switch.bstop = false := by
  obtain ⟨init, start, stop⟩ := switch
  revert init start stop
  decide

/-- A call of `connect` gets through. -/
private theorem Kept.inits (kept : life.Kept) (sound : life.Sound) (here : life.places thread = .init)
    (fresh : life.switch.binit = false)
    (now : after = { life with
      switch := { life.switch with binit := true }
      attempts := life.attempts + 1 }.goto thread .adding) : after.Sound ∧ after.Kept := by
  have unstarted : life.switch.bstart = false := by
    by_contra start
    cases fresh.symm.trans (kept.inited (Bool.eq_true_of_not_eq_false start))
  have lost := kept.unconnected fresh
  have most : turns life.switch ≤ (life.places thread).hasTurn.toNat := by
    rw [turns, fresh]
    exact Nat.zero_le _
  have stop := kept.unstopped most (by rw [here]; rfl)
  have fresh' := kept.attempted
  rw [fresh] at fresh'
  refine ⟨kept.soloLost sound now most lost rfl rfl, ?_⟩
  refine kept.solo now most ?_ (fun live => ?_) (fun _ => rfl) (fun none => by cases none) (fun _ => lost)
    (fun this => by cases this) (fun this => ?_) (fun this => by cases this)
    (kept.opens_on id fun this => by cases this) (by rw [here]; rfl) (by rw [here]; rfl) (by rw [fresh']; rfl)
    (by rw [here]; rfl)
  · simp [turns, unstarted, SessionPc.hasTurn]
  · cases unstarted.symm.trans (started_iff.mp live).2.1
  · cases stop.symm.trans this

/-- The attempt to connect opens the session. -/
private theorem Kept.opens (kept : life.Kept) (sound : life.Sound) (here : life.places thread = .starting .exchange)
    (unstarted : life.switch.bstart = false)
    (now : after = { life with switch := { life.switch with bstart := true } }.goto thread .atOpenCbk) :
    after.Sound ∧ after.Kept := by
  have turn : (life.places thread).hasTurn = true := by rw [here]; rfl
  obtain ⟨most, init, _⟩ := kept.mine turn
  have stop := kept.unstopped most (by rw [here]; rfl)
  have alive : life.connected = true := sound.lives thread (by rw [here]; rfl)
  refine ⟨kept.soloSound now most (fun lost => ?_) (fun this => by cases this), ?_⟩
  · cases alive.symm.trans lost
  refine kept.solo now most (Nat.zero_le _) (fun _ => alive) (fun _ => init) (fun none => ?_)
    (fun this => by cases this) (fun this => by cases this) (fun this => ?_) (fun _ => by rw [here]; rfl)
    (fun _ _ => rfl) (by rw [here]; rfl) (by rw [here]; rfl) kept.attempted ?_
  · cases init.symm.trans none
  · cases stop.symm.trans this
  · rw [here, unstarted]
    simp [stop, SessionPc.isOpening, Nat.add_comm]

/-- A `close` gets through. -/
private theorem Kept.closes (kept : life.Kept) (here : life.places thread = .stopping .exchange)
    (unstopped : life.switch.bstop = false)
    (now : after = { life with
      switch := { life.switch with bstop := true }
      closes := life.closes + 1 }.goto thread .destroying) :
    (after.Sound ↔ life.switch.bstart = true) ∧ (after.Sound → after.Kept) := by
  have place : after.places thread = .destroying := by simp [now, goto]
  have start : after.switch.bstart = life.switch.bstart := by rw [now]; rfl
  have both (began : life.switch.bstart = true) : after.Sound ∧ after.Kept := by
    have init := kept.inited began
    have alive := kept.live (started_iff.mpr ⟨init, began, unstopped⟩)
    have most : turns life.switch ≤ (life.places thread).hasTurn.toNat := by
      simp [turns, began, unstopped]
    refine ⟨kept.soloSound now most (fun lost => ?_) (fun _ => began), ?_⟩
    · cases alive.symm.trans lost
    refine kept.solo now most ?_ (fun _ => alive) (fun _ => init) (fun none => ?_) (fun this => by cases this)
      (fun this => by cases this) (fun _ => rfl) (fun this => by cases this) (fun _ _ => began) ?_
      (by rw [here]; rfl) kept.attempted ?_
    · simp [turns, init, SessionPc.hasTurn]
    · cases init.symm.trans none
    · simp only [here, SessionPc.isClosing, Bool.toNat_true, Bool.toNat_false]
      omega
    · simp [here, began, unstopped, SessionPc.isOpening]
  exact ⟨⟨fun sound => start.symm.trans (sound.opened thread place), fun began => (both began).1⟩,
    fun sound => (both (start.symm.trans (sound.opened thread place))).2⟩

/-- The connection is destroyed. -/
private theorem Kept.destroys (kept : life.Kept) (here : life.places thread = .destroying)
    (now : after = { life with connected := false }.goto thread (.resetting .storeStart)) :
    (after.Sound ↔ ∀ other, other ≠ thread → (life.places other).needs life.switch.bstop = false) ∧
      (after.Sound → after.Kept) := by
  have turn : (life.places thread).hasTurn = true := by rw [here]; rfl
  obtain ⟨most, init, waits⟩ := kept.mine turn
  have keeps : after.Kept := by
    refine kept.solo now most ?_ (fun live => ?_) kept.inited (fun _ => rfl) (fun _ => rfl)
      (fun this => by cases this) (fun _ => rfl) (fun this => by cases this)
      (kept.opens_on id fun this => by cases this) (by rw [here]; rfl) (by rw [here]; rfl) kept.attempted
      (by rw [here]; rfl)
    · rw [turns_of_waits init waits]
      exact Bool.toNat_le _
    · rw [live] at waits
      cases waits
  have elsewhere (other : Option User) (apart : other ≠ thread) : after.places other = life.places other := by
    simp [now, goto, Function.update_of_ne apart]
  refine ⟨⟨fun sound other apart => ?_, fun careful => ?_⟩, fun _ => keeps⟩
  · have nobody := sound.alive (by rw [now]; rfl) other
    rwa [elsewhere other apart, show after.switch = life.switch from by rw [now]; rfl] at nobody
  · exact kept.soloSound now most (fun _ => ⟨careful, rfl⟩) (fun this => by cases this)

/-- `reset` stores `m_bstart`. -/
private theorem Kept.storesStart (kept : life.Kept) (sound : life.Sound)
    (here : life.places thread = .resetting .storeStart)
    (now : after = { life with switch := { life.switch with bstart := false } }.goto thread
      (.resetting .storeStop)) : after.Sound ∧ after.Kept := by
  have turn : (life.places thread).hasTurn = true := by rw [here]; rfl
  obtain ⟨most, init, waits⟩ := kept.mine turn
  have lost := kept.apart thread (by rw [here]; rfl)
  -- nobody is at the call of the open callback, as there is no connection
  have none (other : Option User) (opening : (life.places other).isOpening = true) : False := by
    refine absurd (sound.lives other ?_) (by simp [lost])
    rw [atOpenCbk_of_isOpening opening]
    rfl
  refine ⟨kept.soloLost sound now most lost rfl rfl, ?_⟩
  refine kept.solo now most ?_ (fun live => ?_) (fun this => by cases this) kept.unconnected (fun _ => lost)
    (fun _ => rfl) (fun _ => rfl) (fun this => by cases this) (fun other there => (none other ?_).elim)
    (by rw [here]; rfl) (by rw [here]; rfl) kept.attempted (by rw [here, waits]; rfl)
  · simp [turns, init, SessionPc.hasTurn]
  · cases (started_iff.mp live).2.1
  · by_cases same : other = thread
    · subst same
      rw [Function.update_self] at there
      cases there
    · rwa [Function.update_of_ne same] at there

/-- `reset` stores `m_bstop`. -/
private theorem Kept.storesStop (kept : life.Kept) (sound : life.Sound)
    (here : life.places thread = .resetting .storeStop)
    (now : after = { life with switch := { life.switch with bstop := false } }.goto thread
      (.resetting .storeInit)) :
    (after.Sound ↔ ∀ other, (life.places other).atLastTest = false) ∧ (after.Sound → after.Kept) := by
  have turn : (life.places thread).hasTurn = true := by rw [here]; rfl
  obtain ⟨most, init, _⟩ := kept.mine turn
  have lost := kept.apart thread (by rw [here]; rfl)
  have unstarted := kept.unstarted thread (by rw [here]; rfl)
  have keeps : after.Kept := by
    refine kept.solo now most ?_ (fun live => ?_) kept.inited kept.unconnected (fun _ => lost)
      (fun _ => unstarted) (fun this => by cases this) (fun this => by cases this)
      (kept.opens_on id fun this => by cases this) (by rw [here]; rfl) (by rw [here]; rfl) kept.attempted ?_
    · simp [turns, init, unstarted, SessionPc.hasTurn]
    · cases unstarted.symm.trans (started_iff.mp live).2.1
    · rw [here, unstarted]
      rfl
  refine ⟨⟨fun sound other => ?_, fun none => ?_⟩, fun _ => keeps⟩
  · by_cases same : other = thread
    · rw [same, here]
      rfl
    · have nothing := sound.alive (by rw [now]; exact lost) other
      have place : after.places other = life.places other := by simp [now, goto, Function.update_of_ne same]
      have stop : after.switch.bstop = false := by rw [now]; rfl
      rw [place, stop, needs_unstopped _ life.switch.bstop, Bool.or_eq_false_iff] at nothing
      exact nothing.2
  · refine kept.soloSound now most (fun _ => ⟨fun other _ => ?_, rfl⟩) (fun this => by cases this)
    rw [needs_unstopped _ life.switch.bstop, sound.alive lost other, none other]
    rfl

/-- `reset` stores `m_binit`. -/
private theorem Kept.storesInit (kept : life.Kept) (sound : life.Sound)
    (here : life.places thread = .resetting .storeInit)
    (now : after = { life with
      switch := { life.switch with binit := false }
      resets := life.resets + 1 }.goto thread .atCloseCbk) : after.Sound ∧ after.Kept := by
  have turn : (life.places thread).hasTurn = true := by rw [here]; rfl
  obtain ⟨most, init, _⟩ := kept.mine turn
  have lost := kept.apart thread (by rw [here]; rfl)
  have unstarted := kept.unstarted thread (by rw [here]; rfl)
  have stop := kept.unstopped most (by rw [here]; rfl)
  have attempted := kept.attempted
  rw [init] at attempted
  refine ⟨kept.soloLost sound now most lost rfl rfl, ?_⟩
  refine kept.solo now most (Nat.zero_le _) (fun live => ?_) (fun this => ?_) (fun _ => lost)
    (fun this => by cases this) (fun this => by cases this) (fun this => ?_) (fun this => by cases this)
    (kept.opens_on id fun this => by cases this) ?_ ?_ attempted (by rw [here]; rfl)
  · cases (started_iff.mp live).1
  · cases unstarted.symm.trans this
  · cases stop.symm.trans this
  · simp only [here, SessionPc.isClosing, Bool.toNat_true, Bool.toNat_false]
  · simp [here, SessionPc.isReporting, Nat.add_comm]

/-- The open callback is called. -/
private theorem Kept.opensCbk (kept : life.Kept) (sound : life.Sound) (here : life.places thread = .atOpenCbk)
    (now : after = { life with opened := life.opened + 1 }.goto thread .openCbk) : after.Sound ∧ after.Kept := by
  have worker : thread = none := by
    by_contra apart
    obtain ⟨user, rfl⟩ := Option.ne_none_iff_exists'.mp apart
    have alone := kept.sole user
    rw [here] at alone
    cases alone
  have reads := kept.reads
  subst worker
  refine kept.quiet sound now (by rw [here]; rfl) rfl ?_ kept.waiting kept.order (fun this => by cases this)
    (fun _ => sound.lives none (by rw [here]; rfl)) (fun user => absurd rfl user) (fun _ => ?_)
    (by simp [here, SessionPc.isOpening]) (by rw [here]; rfl)
  · rw [here]
    exact Nat.le_refl _
  · rwa [here] at reads

/-- The close callback is called. -/
private theorem Kept.closesCbk (kept : life.Kept) (sound : life.Sound) (here : life.places thread = .atCloseCbk)
    (now : after = { life with closed := life.closed + 1 }.goto thread .closeCbk) : after.Sound ∧ after.Kept := by
  have reads := kept.reads
  refine kept.quiet sound now (by rw [here]; rfl) rfl ?_ kept.waiting kept.order (fun this => by cases this)
    (fun this => by cases this) (fun _ => ⟨rfl, Nat.le_refl _⟩) (fun worker => ?_)
    (by simp [here, SessionPc.isOpening]) (by rw [here]; rfl)
  · rw [here]
    exact Nat.le_refl _
  · subst worker
    rwa [here] at reads

/-- A thread goes on in its function. -/
private theorem Kept.step (kept : life.Kept) (sound : life.Sound) (taken : life.step thread = some after) :
    (after.Sound ↔ life.Careful (.step thread)) ∧ (after.Sound → after.Kept) := by
  have always (both : after.Sound ∧ after.Kept) (careful : life.Careful (.step thread)) :
      (after.Sound ↔ life.Careful (.step thread)) ∧ (after.Sound → after.Kept) :=
    ⟨iff_of_true both.1 careful, fun _ => both.2⟩
  have walks {before pc : SessionPc} (now : some (life.goto thread pc) = some after)
      (here : life.places thread = before)
      (roles : before.isClosing = false ∧ pc.isClosing = false ∧ pc.isApart = false ∧
        pc.hasTurn.toNat ≤ before.hasTurn.toNat ∧ pc.isReading.toNat ≤ before.isReading.toNat ∧
        pc.isOpening = before.isOpening ∧ pc.isReporting = before.isReporting)
      (needs : pc.needs life.switch.bstop = true → life.connected = true)
      (careful : life.Careful (.step thread)) :
      (after.Sound ↔ life.Careful (.step thread)) ∧ (after.Sound → after.Kept) :=
    always (kept.walk sound (Option.some.inj now).symm here roles needs) careful
  have alive (start : life.switch.bstart = true) (needs : (!life.switch.bstop) = true) :
      life.connected = true :=
    kept.live (started_iff.mpr ⟨kept.inited start, start, Bool.not_eq_true' _ ▸ needs⟩)
  cases here : life.places thread with
  | outside | newConnection | login | channels | consuming =>
    simp only [SessionLife.step, here] at taken
    cases taken
  | calling | publish | channel | closeChannel | closeCbk =>
    simp only [SessionLife.step, here] at taken
    exact walks taken here (by decide) (fun this => by cases this) (by simp [Careful, here])
  | init =>
    have careful : life.Careful (.step thread) := by simp [Careful, here]
    cases fresh : life.switch.binit with
    | true =>
      have stays : life.switch.init = (life.switch, false) := by rw [AtomicSwitch.init, if_pos fresh]
      simp only [SessionLife.step, here, stays, Bool.false_eq_true, if_false] at taken
      exact walks taken here (by decide) (fun this => by cases this) careful
    | false =>
      have sets : life.switch.init = ({ life.switch with binit := true }, true) := by
        rw [AtomicSwitch.init, if_neg (by simp [fresh])]
      simp only [SessionLife.step, here, sets, if_true] at taken
      exact always (kept.inits sound here fresh (Option.some.inj taken).symm) careful
  | adding =>
    simp only [SessionLife.step, here] at taken
    have turn : (life.places thread).hasTurn = true := by rw [here]; rfl
    have lost := kept.apart thread (by rw [here]; rfl)
    have none : thread ≠ none → (life.tasks ++ [ReadTask.connect]).count .read ≤ life.tasks.count .read := by
      intro _
      simp
    refine always (kept.quiet sound (Option.some.inj taken).symm (by rw [here]; rfl) rfl ?_ (fun _ => lost) ?_
      (fun this => by cases this) (fun this => by cases this) (fun other => ⟨rfl, none other⟩) (fun worker => ?_)
      (by rw [here]; exact ⟨rfl, Nat.le_refl _⟩) (by rw [here]; rfl)) (by simp [Careful, here])
    · rw [turn]
      simp [SessionPc.hasTurn]
    · refine List.pairwise_append.mpr ⟨kept.order, List.pairwise_singleton _ _, fun _ _ later member _ => ?_⟩
      rw [List.mem_singleton.mp member]
      simp
    · subst worker
      have := kept.reads
      rw [here] at this
      simpa [SessionPc.isReading] using this
  | atOpenCbk =>
    simp only [SessionLife.step, here] at taken
    exact always (kept.opensCbk sound here (Option.some.inj taken).symm) (by simp [Careful, here])
  | atCloseCbk =>
    simp only [SessionLife.step, here] at taken
    exact always (kept.closesCbk sound here (Option.some.inj taken).symm) (by simp [Careful, here])
  | openCbk =>
    simp only [SessionLife.step, here] at taken
    exact walks taken here (by decide) (fun _ => sound.lives thread (by rw [here]; rfl)) (by simp [Careful, here])
  | ack =>
    simp only [SessionLife.step, here] at taken
    exact walks taken here (by decide) (fun this => by cases this) (by simp [Careful, here])
  | readCbk acks =>
    simp only [SessionLife.step, here] at taken
    cases acks with
    | true =>
      exact walks taken here (by decide) (fun _ => sound.lives thread (by rw [here]; rfl)) (by simp [Careful, here])
    | false => exact walks taken here (by decide) (fun this => by cases this) (by simp [Careful, here])
  | destroying =>
    have careful : life.Careful (.step thread) ↔
        ∀ other, other ≠ thread → (life.places other).needs life.switch.bstop = false := by
      simp [Careful, here]
    simp only [SessionLife.step, here] at taken
    rw [careful]
    exact kept.destroys here (Option.some.inj taken).symm
  | resetting pc =>
    simp only [SessionLife.step, here] at taken
    cases pc with
    | storeStart => exact always (kept.storesStart sound here (Option.some.inj taken).symm) (by simp [Careful, here])
    | storeStop =>
      have careful : life.Careful (.step thread) ↔ ∀ other, (life.places other).atLastTest = false := by
        simp [Careful, here]
      rw [careful]
      exact kept.storesStop sound here (Option.some.inj taken).symm
    | storeInit => exact always (kept.storesInit sound here (Option.some.inj taken).symm) (by simp [Careful, here])
  | starting pc =>
    have careful : life.Careful (.step thread) := by simp [Careful, here]
    have turn : (life.places thread).hasTurn = true := by rw [here]; rfl
    obtain ⟨most, init, waits⟩ := kept.mine turn
    have stop := kept.unstopped most (by rw [here]; rfl)
    have alive : life.connected = true := sound.lives thread (by rw [here]; rfl)
    simp only [SessionLife.step, here] at taken
    cases pc with
    | loadStop =>
      simp only [AtomicSwitch.start, stop, Bool.false_eq_true, if_false] at taken
      exact walks taken here (by decide) (fun _ => alive) careful
    | loadInit =>
      simp only [AtomicSwitch.start, init, Bool.not_true, Bool.false_eq_true, if_false] at taken
      exact walks taken here (by decide) (fun _ => alive) careful
    | exchange =>
      have unstarted : life.switch.bstart = false := by
        rw [stop] at waits
        simpa using waits
      simp only [AtomicSwitch.start, unstarted, Bool.false_eq_true, if_false] at taken
      exact always (kept.opens sound here unstarted (Option.some.inj taken).symm) careful
  | stopping pc =>
    simp only [SessionLife.step, here] at taken
    cases pc with
    | loadInit =>
      cases init : life.switch.binit <;> simp only [AtomicSwitch.stop, init] at taken
      · exact walks taken here (by decide) (fun this => by cases this) (by simp [Careful, here])
      · exact walks taken here (by decide) (fun this => by cases this) (by simp [Careful, here])
    | loadStart =>
      cases start : life.switch.bstart <;> simp only [AtomicSwitch.stop, start] at taken
      · exact walks taken here (by decide) (fun this => by cases this) (by simp [Careful, here])
      · exact walks taken here (by decide) (fun this => by cases this) (by simp [Careful, here])
    | exchange =>
      cases stop : life.switch.bstop with
      | true =>
        simp only [AtomicSwitch.stop, stop, if_true] at taken
        exact walks taken here (by decide) (fun this => by cases this) (by simp [Careful, here, stop])
      | false =>
        have careful : life.Careful (.step thread) ↔ life.switch.bstart = true := by simp [Careful, here, stop]
        simp only [AtomicSwitch.stop, stop, Bool.false_eq_true, if_false] at taken
        rw [careful]
        exact kept.closes here stop (Option.some.inj taken).symm
  | writeTest pc =>
    have careful : life.Careful (.step thread) := by simp [Careful, here]
    simp only [SessionLife.step, here] at taken
    cases pc with
    | loadInit =>
      cases init : life.switch.binit <;> simp only [hasStoped, init] at taken
      · exact walks taken here (by decide) (fun this => by cases this) careful
      · exact walks taken here (by decide) (fun this => by cases this) careful
    | loadStart =>
      cases start : life.switch.bstart <;> simp only [hasStoped, start] at taken
      · exact walks taken here (by decide) (fun this => by cases this) careful
      · exact walks taken here (by decide) (alive start) careful
    | loadStop =>
      cases stop : life.switch.bstop <;> simp only [hasStoped, stop] at taken
      · exact walks taken here (by decide) (fun _ => sound.lives thread (by rw [here, stop]; rfl)) careful
      · exact walks taken here (by decide) (fun this => by cases this) careful
  | readTest pc =>
    have careful : life.Careful (.step thread) := by simp [Careful, here]
    simp only [SessionLife.step, here] at taken
    cases pc with
    | loadInit =>
      cases init : life.switch.binit <;> simp only [hasStoped, init] at taken
      · exact walks taken here (by decide) (fun this => by cases this) careful
      · exact walks taken here (by decide) (fun this => by cases this) careful
    | loadStart =>
      cases start : life.switch.bstart <;> simp only [hasStoped, start] at taken
      · exact walks taken here (by decide) (fun this => by cases this) careful
      · exact walks taken here (by decide) (alive start) careful
    | loadStop =>
      cases stop : life.switch.bstop <;> simp only [hasStoped, stop] at taken
      · exact always (kept.addRead sound (Option.some.inj taken).symm (by rw [here]; exact ⟨rfl, rfl, rfl⟩)
          (by rw [here]; rfl) (sound.lives thread (by rw [here, stop]; rfl))) careful
      · exact walks taken here (by decide) (fun this => by cases this) careful

private theorem sound_step (kept : life.Kept) (sound : life.Sound)
    (taken : life.next action = some after) :
    (after.Sound ↔ life.Careful action) ∧ (after.Sound → after.Kept) := by
  have always (both : after.Sound ∧ after.Kept) (careful : life.Careful action) :
      (after.Sound ↔ life.Careful action) ∧ (after.Sound → after.Kept) :=
    ⟨iff_of_true both.1 careful, fun _ => both.2⟩
  have enters {user : User} {pc : SessionPc} (entered : life.enter (some user) pc = some after)
      (roles : pc.isClosing = false ∧ pc.isApart = false ∧ pc.hasTurn = false ∧ pc.isReading = false ∧
        pc.isOpening = false ∧ pc.isReporting = false)
      (needs : pc.needs life.switch.bstop = true → life.connected = true) : after.Sound ∧ after.Kept := by
    obtain ⟨outside, same⟩ := Option.ite_none_right_eq_some.mp entered
    obtain ⟨closing, apart, turn, reading, opening, reporting⟩ := roles
    refine kept.walk sound (Option.some.inj same).symm outside
      ⟨rfl, closing, apart, ?_, ?_, opening, reporting⟩ needs
    · rw [turn]
      rfl
    · rw [reading]
      rfl
  cases action with
  | connect user => exact always (enters taken (by decide) fun this => by cases this) trivial
  | shutdown user => exact always (enters taken (by decide) fun this => by cases this) trivial
  | write user => exact always (enters taken (by decide) fun this => by cases this) trivial
  | take => exact kept.taken sound taken
  | reply thread reply => exact always (kept.hear sound taken) trivial
  | step thread => exact kept.step sound taken
  | call user =>
    cases alive : life.connected with
    | true => exact always (enters taken (by decide) fun _ => alive) alive
    | false =>
      have unsound : ¬ after.Sound := by
        intro sound
        obtain ⟨_, same⟩ := Option.ite_none_right_eq_some.mp taken
        cases same
        simpa [goto, SessionPc.needs] using sound.alive alive (some user)
      exact ⟨iff_of_false unsound (by simp [Careful, alive]), fun sound => absurd sound unsound⟩
  | reconnectChannel user =>
    cases taken
    exact always (kept.addChannel sound) trivial

omit [DecidableEq User] in
theorem construct_sound : (construct : SessionLife User).Sound :=
  ⟨fun _ _ => rfl, fun _ here => by cases here⟩

omit [DecidableEq User] in
theorem construct_kept : (construct : SessionLife User).Kept := by
  constructor
  · exact .zero (fun _ => rfl) (Nat.le_refl _)
  · intro live
    cases live
  · intro start
    cases start
  · exact fun _ => rfl
  · exact fun _ => rfl
  · exact .nil
  · exact fun _ _ => rfl
  · exact fun _ _ => rfl
  · intro stop
    cases stop
  · exact fun _ => rfl
  · exact Nat.zero_le _
  · intro thread opening
    cases opening
  · exact .zero fun _ => rfl
  · exact .zero fun _ => rfl
  · rfl
  · exact .zero fun _ => rfl

/-- In every run: whoever comes to a call of the library with no test in between has a connection that has not been
destroyed, and only an open session is closed, if and only if the run is careful. -/
theorem sound_iff_careful {actions : List (LifeAction User)} {last : SessionLife User}
    (path : Path (Taken next) construct actions last) :
    (∀ life, Path.Visits (Taken next) construct actions life → life.Sound) ↔
      ∀ life action, Path.Takes (Taken next) construct actions life action → life.Careful action := by
  refine path.visits_iff_all_takes Kept ?_ construct_sound construct_kept
  intro before action after kept sound taken
  exact sound_step kept sound taken

/-- So many steps of a thread. -/
def goes (thread : Option (Fin 2)) (count : Nat) : List (LifeAction (Fin 2)) :=
  List.replicate count (.step thread)

/-- A user connects the session, which is opened, up to its channels. -/
def connects (user : Fin 2) : List (LifeAction (Fin 2)) :=
  .connect user :: goes (some user) 2 ++ .take :: .reply none .opened :: .reply none .loginSucceeds :: goes none 5

/-- A `shutdown` while the worker reads. -/
theorem sound_iff_careful_shutdown :
    let actions := connects 0 ++ .reply none (.handled true) :: .take :: .shutdown 0 :: goes (some 0) 4
    ∃ last : SessionLife (Fin 2), Path (Taken next) construct actions last ∧
      ¬ ∀ life, Path.Visits (Taken next) construct actions life → life.Sound := by
  intro actions
  have ends : (exec next construct actions).isSome = true := by decide +kernel
  obtain ⟨last, run⟩ := Option.isSome_iff_exists.mp ends
  have path := exec_eq_some_iff.mp run
  refine ⟨last, path, fun sound => ?_⟩
  let front := connects 0 ++ .reply none (.handled true) :: .take :: .shutdown 0 :: goes (some 0) 3
  have careless : (exec next construct front).map (fun life => decide (life.Careful (.step (some 0)))) =
      some false := by
    decide +kernel
  obtain ⟨life, reaches, careless⟩ := Option.map_eq_some_iff.mp careless
  exact of_decide_eq_false careless ((sound_iff_careful path).mp sound life (.step (some 0))
    ⟨front, [], by decide, exec_eq_some_iff.mp reaches⟩)

/-- What a careful run keeps to. -/
theorem kept_of_path {actions : List (LifeAction User)} {last : SessionLife User}
    (path : Path (Guarded (Taken next) Careful) construct actions last) : last.Sound ∧ last.Kept := by
  refine path.invariant (fun life => life.Sound ∧ life.Kept) ?_ ⟨construct_sound, construct_kept⟩
  intro before action after both step
  obtain ⟨careful, taken⟩ := step
  have exact_step := sound_step both.2 both.1 taken
  have sound := exact_step.1.mpr careful
  exact ⟨sound, exact_step.2 sound⟩

/-- What a step does, as far as the turn, the reads and the counts are concerned. -/
structure Moves (life : SessionLife User) (action : LifeAction User) (after : SessionLife User)
    (thread : Option User) (pc : SessionPc) : Prop where
  places : after.places = Function.update life.places thread pc
  turn : pc.hasTurn = true → (life.places thread).hasTurn = true ∨ .connect ∈ life.tasks ∨
    life.places thread = .init ∧ life.switch.binit = false ∧ after.attempts = life.attempts + 1 ∨
    action = .step thread ∧ life.places thread = .stopping .exchange ∧ life.switch.bstop = false
  adds : pc = .adding → life.places thread = .adding ∨ after.attempts = life.attempts + 1
  reading : pc.isReading = true →
    (life.places thread).isReading = true ∨ .connect ∈ life.tasks ∨ .read ∈ life.tasks
  connects : .connect ∈ after.tasks → .connect ∈ life.tasks ∨ life.places thread = .adding
  reads : .read ∈ after.tasks → .read ∈ life.tasks ∨ (life.places thread).isReading = true
  attempts : after.attempts = life.attempts ∨
    life.places thread = .init ∧ life.switch.binit = false ∧ after.attempts = life.attempts + 1
  opened : after.opened = life.opened ∨ (life.places thread).isOpening = true
  opening : pc.isOpening = true → (life.places thread).hasTurn = true ∨ (life.places thread).isOpening = true
  resets : after.resets = life.resets ∨ (life.places thread).hasTurn = true
  messages : after.messages = life.messages ∨ life.places thread = .consuming

/-- A thread moves, and a message may have been read. -/
private theorem Moves.plain {before : SessionPc} {messages : Nat} (now : after = { life with messages }.goto thread pc)
    (here : life.places thread = before) (turn : pc.hasTurn.toNat ≤ before.hasTurn.toNat)
    (reading : pc.isReading.toNat ≤ before.isReading.toNat) (adds : pc ≠ .adding ∧ pc ≠ .atOpenCbk)
    (heard : messages = life.messages ∨ before = .consuming) : Moves life action after thread pc := by
  subst now here
  refine ⟨rfl, fun this => .inl ?_, fun this => absurd this adds.1, fun this => .inl ?_, .inl, .inl, .inl rfl,
    .inl rfl, fun this => absurd (atOpenCbk_of_isOpening this) adds.2, .inl rfl, heard⟩
  · rw [this] at turn
    exact Bool.toNat_eq_one.mp (Nat.le_antisymm (Bool.toNat_le _) turn)
  · rw [this] at reading
    exact Bool.toNat_eq_one.mp (Nat.le_antisymm (Bool.toNat_le _) reading)

private theorem moves_plain {before : SessionPc} (here : life.places thread = before)
    (now : some (life.goto thread pc) = some after) (turn : pc.hasTurn.toNat ≤ before.hasTurn.toNat)
    (reading : pc.isReading.toNat ≤ before.isReading.toNat) (adds : pc ≠ .adding ∧ pc ≠ .atOpenCbk) :
    ∃ other pc, Moves life action after other pc :=
  ⟨thread, pc, .plain (Option.some.inj now).symm here turn reading adds (.inl rfl)⟩

/-- The thread that has been reading puts the next read into the queue. -/
private theorem Moves.reads_on (now : after = (life.addTask .read).goto thread .outside)
    (reading : (life.places thread).isReading = true) : Moves life action after thread .outside := by
  subst now
  refine ⟨rfl, (fun this => by cases this), (fun this => by cases this), (fun this => by cases this),
    fun there => .inl ?_, fun _ => .inr reading, .inl rfl, .inl rfl, (fun this => by cases this), .inl rfl, .inl rfl⟩
  simpa [goto, addTask] using there

/-- The thread that has the turn goes on. -/
private theorem moves_with_turn {before : SessionPc} {switch : AtomicSwitch} {connected : Bool}
    {closes resets : Nat} (here : life.places thread = before)
    (now : some ({ life with switch, connected, closes, resets }.goto thread pc) = some after)
    (turn : before.hasTurn = true) (adds : pc ≠ .adding) (reading : pc.isReading = true → before.isReading = true) :
    ∃ other pc, Moves life action after other pc := by
  cases now
  subst here
  exact ⟨thread, pc, rfl, fun _ => .inl turn, fun this => absurd this adds,
    fun this => .inl (reading this), .inl, .inl, .inl rfl, .inl rfl, fun _ => .inl turn, .inr turn, .inl rfl⟩

/-- One of the two callbacks is called. -/
private theorem moves_callback {before : SessionPc} {opened closed : Nat} (here : life.places thread = before)
    (now : some ({ life with opened, closed }.goto thread pc) = some after)
    (opens : opened = life.opened ∨ before.isOpening = true)
    (roles : pc.hasTurn = false ∧ pc ≠ .adding ∧ pc.isOpening = false)
    (reading : pc.isReading = true → before.isReading = true) : ∃ other pc, Moves life action after other pc := by
  cases now
  subst here
  obtain ⟨turn, adds, opening⟩ := roles
  refine ⟨thread, pc, rfl, fun this => ?_, fun this => absurd this adds, fun this => .inl (reading this), .inl, .inl,
    .inl rfl, opens, fun this => ?_, .inl rfl, .inl rfl⟩
  · cases turn.symm.trans this
  · cases opening.symm.trans this

theorem moves_of_next (taken : life.next action = some after) :
    ∃ thread pc, Moves life action after thread pc := by
  cases action with
  | connect user | shutdown user | call user | write user =>
    obtain ⟨outside, same⟩ := Option.ite_none_right_eq_some.mp taken
    exact ⟨some user, _, .plain (Option.some.inj same).symm outside (by decide) (by decide) (by simp) (.inl rfl)⟩
  | take =>
    simp only [next, SessionLife.take] at taken
    split at taken
    · cases taken
    · rename_i task tasks queue
      obtain ⟨outside, same⟩ := Option.ite_none_right_eq_some.mp taken
      cases same
      refine ⟨none, _, rfl, ?_, ?_, ?_, ?_, ?_, .inl rfl, .inl rfl, ?_, .inl rfl, .inl rfl⟩
      all_goals cases task <;> simp_all [goto, SessionPc.hasTurn, SessionPc.isReading, SessionPc.isOpening]
  | reply thread reply =>
    simp only [next, SessionLife.hear] at taken
    split at taken
    case h_1 here =>
      exact moves_with_turn here taken rfl (by simp) fun this => by cases this
    case h_2 here =>
      exact moves_with_turn here taken rfl (by simp) fun this => by cases this
    case h_3 here =>
      exact moves_with_turn here taken rfl (by simp) fun _ => rfl
    case h_4 here => exact moves_plain here taken (by decide) (by decide) (by simp)
    case h_5 here => exact moves_plain here taken (by decide) (by decide) (by simp)
    case h_6 needReceive here =>
      cases needReceive with
      | true => exact ⟨thread, _, .reads_on (Option.some.inj taken).symm (by rw [here]; rfl)⟩
      | false => exact moves_plain here taken (by decide) (by decide) (by simp)
    case h_7 here => exact ⟨thread, _, .reads_on (Option.some.inj taken).symm (by rw [here]; rfl)⟩
    case h_8 here => exact moves_plain here taken (by decide) (by decide) (by simp)
    case h_9 started here =>
      cases started with
      | true => exact moves_plain here taken (by decide) (by decide) (by simp)
      | false => exact moves_plain here taken (by decide) (by decide) (by simp)
    case h_10 acks here =>
      exact ⟨thread, _, .plain (Option.some.inj taken).symm here (Nat.le_refl _) (Nat.le_refl _) (by simp) (.inr rfl)⟩
    case h_11 => cases taken
  | step thread =>
    simp only [next, SessionLife.step] at taken
    cases here : life.places thread with
    | outside | newConnection | login | channels | consuming =>
      simp only [here] at taken
      cases taken
    | calling | publish | channel | closeChannel | closeCbk | openCbk | ack =>
      simp only [here] at taken
      exact moves_plain here taken (by decide) (by decide) (by simp)
    | init =>
      cases fresh : life.switch.binit with
      | true =>
        have stays : life.switch.init = (life.switch, false) := by rw [AtomicSwitch.init, if_pos fresh]
        simp only [here, stays, Bool.false_eq_true, if_false] at taken
        exact moves_plain here taken (by decide) (by decide) (by simp)
      | false =>
        have sets : life.switch.init = ({ life.switch with binit := true }, true) := by
          rw [AtomicSwitch.init, if_neg (by simp [fresh])]
        simp only [here, sets, if_true] at taken
        cases taken
        exact ⟨thread, .adding, rfl, fun _ => .inr (.inr (.inl ⟨here, fresh, rfl⟩)), fun _ => .inr rfl,
          (fun this => by cases this), .inl, .inl, .inr ⟨here, fresh, rfl⟩, .inl rfl, (fun this => by cases this),
          .inl rfl, .inl rfl⟩
    | adding =>
      simp only [here] at taken
      cases taken
      refine ⟨thread, .outside, rfl, (fun this => by cases this), (fun this => by cases this),
        (fun this => by cases this), fun _ => .inr here, fun there => .inl ?_, .inl rfl, .inl rfl,
        (fun this => by cases this), .inl rfl, .inl rfl⟩
      simpa [goto, addTask] using there
    | atOpenCbk =>
      simp only [here] at taken
      exact moves_callback here taken (.inr rfl) (by simp [SessionPc.hasTurn, SessionPc.isOpening]) fun _ => rfl
    | atCloseCbk =>
      simp only [here] at taken
      exact moves_callback here taken (.inl rfl) (by simp [SessionPc.hasTurn, SessionPc.isOpening])
        fun this => by cases this
    | readCbk acks =>
      simp only [here] at taken
      cases acks with
      | true => exact moves_plain here taken (by decide) (by decide) (by simp)
      | false => exact moves_plain here taken (by decide) (by decide) (by simp)
    | destroying =>
      simp only [here] at taken
      exact moves_with_turn here taken rfl (by simp) fun this => by cases this
    | resetting pc =>
      simp only [here] at taken
      cases pc with
      | storeStart | storeStop | storeInit =>
        exact moves_with_turn here taken rfl (by simp) fun this => by cases this
    | starting pc =>
      simp only [here] at taken
      split at taken <;> exact moves_with_turn here taken rfl (by simp) fun _ => rfl
    | stopping pc =>
      simp only [here] at taken
      cases pc with
      | loadInit =>
        cases init : life.switch.binit <;> simp only [AtomicSwitch.stop, init] at taken
        · exact moves_plain here taken (by decide) (by decide) (by simp)
        · exact moves_plain here taken (by decide) (by decide) (by simp)
      | loadStart =>
        cases start : life.switch.bstart <;> simp only [AtomicSwitch.stop, start] at taken
        · exact moves_plain here taken (by decide) (by decide) (by simp)
        · exact moves_plain here taken (by decide) (by decide) (by simp)
      | exchange =>
        cases stop : life.switch.bstop with
        | true =>
          simp only [AtomicSwitch.stop, stop, if_true] at taken
          exact moves_plain here taken (by decide) (by decide) (by simp)
        | false =>
          simp only [AtomicSwitch.stop, stop, Bool.false_eq_true, if_false] at taken
          cases taken
          exact ⟨thread, .destroying, rfl, fun _ => .inr (.inr (.inr ⟨rfl, here, stop⟩)), (fun this => by cases this),
            (fun this => by cases this), .inl, .inl, .inl rfl, .inl rfl, (fun this => by cases this), .inl rfl,
            .inl rfl⟩
    | writeTest pc =>
      simp only [here] at taken
      cases tested : life.switch.hasStoped pc with
      | goes pc =>
        rw [tested] at taken
        exact moves_plain here taken (Nat.le_refl _) (Nat.le_refl _) (by simp [Progress.elim])
      | returns stoped =>
        rw [tested] at taken
        cases stoped <;> exact moves_plain here taken (Nat.le_refl _) (Nat.le_refl _) (by simp [Progress.elim])
    | readTest pc =>
      simp only [here] at taken
      split at taken
      · exact moves_plain here taken (Nat.le_refl _) (Nat.le_refl _) (by simp)
      · rename_i stoped _
        cases stoped with
        | true => exact moves_plain here taken (Nat.zero_le _) (Nat.zero_le _) (by simp)
        | false => exact ⟨thread, _, .reads_on (Option.some.inj taken).symm (by rw [here]; rfl)⟩
  | reconnectChannel user =>
    cases taken
    exact ⟨none, life.places none, (Function.update_eq_self none life.places).symm, .inl, .inl, .inl,
      fun waits => .inl (by simpa [addTask] using waits), fun waits => .inl (by simpa [addTask] using waits),
      .inl rfl, .inl rfl, .inr, .inl rfl, .inl rfl⟩

omit [DecidableEq User] in
/-- A session is not closed before its open callback is called. -/
private theorem Kept.resets_le_opened (kept : life.Kept) : life.resets ≤ life.opened := by
  have less := kept.closing.le
  by_cases someone : ∃ thread, (life.places thread).isOpening = true
  · obtain ⟨thread, there⟩ := someone
    have start := kept.opening thread there
    have most : life.closes + (life.switch.bstart && !life.switch.bstop).toNat ≤ life.opened + 1 := by
      refine kept.counted.le_succ fun first second one two => ?_
      have worker {other : Option User} (at_it : (life.places other).isOpening = true) : other = none := by
        by_contra apart
        obtain ⟨user, rfl⟩ := Option.ne_none_iff_exists'.mp apart
        have alone := kept.sole user
        rw [atOpenCbk_of_isOpening at_it] at alone
        cases alone
      rw [worker one, worker two]
    cases stop : life.switch.bstop with
    | false =>
      rw [start, stop] at most
      exact Nat.le_trans less (Nat.le_of_succ_le_succ most)
    | true =>
      obtain ⟨other, unstopping⟩ := kept.stopped stop
      have := kept.closing.lt (isClosing_of_isUnstopping unstopping)
      omega
  · have same := kept.counted.eq fun thread => Bool.eq_false_of_not_eq_true fun there => someone ⟨thread, there⟩
    omega

/-- The open callback comes once at most for each attempt to connect and before the session of this attempt is
closed, the next attempt comes behind the `reset` of this close, and so does the close callback, once at most for
each. One `handle_read` at most waits, is under way or comes behind a login. -/
structure Orderly (life : SessionLife User) : Prop where
  closed : life.closed ≤ life.resets
  resets : life.resets ≤ life.opened
  opened : life.opened ≤ life.attempts
  attempts : life.attempts ≤ life.resets + 1
  reads : life.tasks.count .read + (life.places none).isReading.toNat ≤ 1

theorem orderly_of_careful {actions : List (LifeAction User)} {last : SessionLife User}
    (path : Path (Guarded (Taken next) Careful) construct actions last) : last.Orderly := by
  obtain ⟨_, kept⟩ := kept_of_path path
  have attempted := kept.attempted
  have counted := kept.counted.le
  have init := Bool.toNat_le last.switch.binit
  refine ⟨kept.reporting.le, kept.resets_le_opened, ?_, by omega, kept.reads⟩
  by_cases someone : ∃ thread, (last.places thread).isClosing = true
  · obtain ⟨thread, there⟩ := someone
    obtain ⟨_, set, waits⟩ := kept.mine (hasTurn_of_isClosing there)
    have most : last.closes ≤ last.resets + 1 := by
      refine kept.closing.le_succ fun first second one two => ?_
      have only := (kept.only (kept.mine (hasTurn_of_isClosing two)).1).2 first
      by_contra apart
      cases (only apart).symm.trans (hasTurn_of_isClosing one)
    rw [set] at attempted
    rw [waits] at counted
    simp only [Bool.toNat_true, Bool.toNat_false] at attempted counted
    omega
  · have same := kept.closing.eq fun thread => Bool.eq_false_of_not_eq_true fun there => someone ⟨thread, there⟩
    have within : (last.switch.bstart && !last.switch.bstop).toNat ≤ last.switch.binit.toNat := by
      refine Bool.toNat_le_toNat fun live => kept.inited ?_
      exact ((Bool.and_eq_true _ _).mp live).1
    omega

/-- A session that is closed, and connected once more before the close callback is called. -/
theorem orderly_of_careful_two_attempts :
    let actions := connects 0 ++ .reply none (.handled false) :: .shutdown 0 :: goes (some 0) 7 ++ connects 1
    ∃ last : SessionLife (Fin 2), Path (Guarded (Taken next) Careful) construct actions last ∧ last.Orderly ∧
      last.attempts = 2 ∧ last.opened = 2 ∧ last.resets = 1 ∧ last.closed = 0 := by
  intro actions
  have runs : (exec (checked next Careful) construct actions).map (fun last =>
      decide (last.attempts = 2 ∧ last.opened = 2 ∧ last.resets = 1 ∧ last.closed = 0)) = some true := by
    decide +kernel
  obtain ⟨last, run, decided⟩ := Option.map_eq_some_iff.mp runs
  exact ⟨last, of_checked run, orderly_of_careful (of_checked run), of_decide_eq_true decided⟩

/-- An attempt to connect has failed before it opened the session. -/
structure Failed (life : SessionLife User) : Prop where
  behind : life.opened < life.attempts
  idle : ∀ thread, (life.places thread).hasTurn = false ∧ (life.places thread).isOpening = false
  none : .connect ∉ life.tasks

omit [DecidableEq User] in
/-- The flags stay as a failed attempt has left them. -/
theorem Failed.switch (failed : life.Failed) (kept : life.Kept) :
    life.switch.binit = true ∧ life.switch.bstart = false := by
  have same := kept.closing.eq fun thread => by
    by_contra there
    cases (failed.idle thread).1.symm.trans (hasTurn_of_isClosing (Bool.eq_true_of_not_eq_false there))
  have behind := failed.behind
  rw [kept.attempted, kept.counted.eq fun thread => (failed.idle thread).2, same] at behind
  have init := Bool.toNat_le life.switch.binit
  have set : life.switch.binit.toNat = 1 := by omega
  have waits : (life.switch.bstart && !life.switch.bstop).toNat = 0 := by omega
  refine ⟨Bool.toNat_eq_one.mp set, ?_⟩
  by_contra start
  rw [Bool.eq_true_of_not_eq_false start, Bool.true_and, Bool.toNat_eq_zero, Bool.not_eq_false'] at waits
  obtain ⟨thread, there⟩ := kept.stopped waits
  cases (failed.idle thread).1.symm.trans (hasTurn_of_isClosing (isClosing_of_isUnstopping there))

/-- A careful step of a session whose attempt has failed makes no attempt, opens nothing and resets nothing. -/
private theorem Failed.step (failed : life.Failed) (kept : life.Kept) (careful : life.Careful action)
    (taken : life.next action = some after) :
    after.Failed ∧ after.attempts = life.attempts ∧ after.opened = life.opened ∧ after.resets = life.resets := by
  obtain ⟨init, unstarted⟩ := failed.switch kept
  obtain ⟨thread, pc, moves⟩ := moves_of_next taken
  have idle : (life.places thread).hasTurn ≠ true := by simp [(failed.idle thread).1]
  have no_init : ¬ (life.places thread = .init ∧ life.switch.binit = false) := by simp [init]
  have no_stop : ¬ (action = .step thread ∧ life.places thread = .stopping .exchange ∧
      life.switch.bstop = false) := by
    rintro ⟨rfl, here, stop⟩
    cases unstarted.symm.trans (careful.1 here stop)
  have attempts : after.attempts = life.attempts := by
    obtain same | ⟨here, fresh, _⟩ := moves.attempts
    · exact same
    · exact absurd ⟨here, fresh⟩ no_init
  have opened := moves.opened.resolve_right (by simp [(failed.idle thread).2])
  have resets := moves.resets.resolve_right idle
  have still : pc.hasTurn = false := by
    by_contra turn
    obtain here | waits | ⟨here, fresh, _⟩ | stops := moves.turn (Bool.eq_true_of_not_eq_false turn)
    · exact idle here
    · exact failed.none waits
    · exact no_init ⟨here, fresh⟩
    · exact no_stop stops
  have silent : pc.isOpening = false := by
    by_contra opening
    have := moves.opening (Bool.eq_true_of_not_eq_false opening)
    simp [failed.idle thread] at this
  refine ⟨⟨by rw [attempts, opened]; exact failed.behind, ?_, fun waits => ?_⟩, attempts, opened, resets⟩
  · have everyone : Everywhere (fun pc : SessionPc => pc.hasTurn = false ∧ pc.isOpening = false) life.places :=
      failed.idle
    rw [moves.places]
    exact everyone.move ⟨still, silent⟩
  · obtain before | here := moves.connects waits
    · exact failed.none before
    · rw [here] at idle
      exact idle rfl

/-- Once an attempt to connect has failed before it opened the session, no careful run makes another attempt, calls
the open callback again or comes to a close callback but those of the closes that had been reset before. -/
theorem failed_attempt_is_last {actions later : List (LifeAction User)} {last : SessionLife User}
    (path : Path (Guarded (Taken next) Careful) construct actions life) (failed : life.Failed)
    (goes : Path (Guarded (Taken next) Careful) life later last) :
    last.Failed ∧ last.attempts = life.attempts ∧ last.opened = life.opened ∧ last.closed ≤ life.resets := by
  have both := goes.invariant (fun state => (state.Sound ∧ state.Kept) ∧ state.Failed ∧
    state.attempts = life.attempts ∧ state.opened = life.opened ∧ state.resets = life.resets) ?_
    ⟨kept_of_path path, failed, rfl, rfl, rfl⟩
  · obtain ⟨⟨_, kept⟩, failed, attempts, opened, resets⟩ := both
    exact ⟨failed, attempts, opened, resets ▸ kept.reporting.le⟩
  · intro before action after ⟨⟨sound, kept⟩, failed, attempts, opened, resets⟩ ⟨careful, taken⟩
    have exact_step := sound_step kept sound taken
    have soundAfter := exact_step.1.mpr careful
    obtain ⟨failedAfter, sameAttempts, sameOpened, sameResets⟩ := failed.step kept careful taken
    exact ⟨⟨soundAfter, exact_step.2 soundAfter⟩, failedAfter, sameAttempts.trans attempts, sameOpened.trans opened,
      sameResets.trans resets⟩

/-- A socket that cannot be opened, a `shutdown` and another `connect`. -/
theorem failed_attempt_is_last_not_opened :
    let actions := .connect 0 :: goes (some 0) 2 ++ .take :: .reply none .notOpened :: goes none 2
    let later := .shutdown 0 :: goes (some 0) 2 ++ .connect 0 :: goes (some 0) 1
    ∃ life last : SessionLife (Fin 2), Path (Guarded (Taken next) Careful) construct actions life ∧
      Path (Guarded (Taken next) Careful) life later last ∧ last.Failed ∧ last.attempts = 1 ∧ last.opened = 0 := by
  intro actions later
  have runs : ((exec (checked next Careful) construct actions).bind fun life =>
      (exec (checked next Careful) life later).map fun _ =>
        decide ((life.attempts = 1 ∧ life.opened = 0) ∧
          (∀ thread, (life.places thread).hasTurn = false ∧ (life.places thread).isOpening = false) ∧
          .connect ∉ life.tasks)) = some true := by
    decide +kernel
  obtain ⟨life, first, rest⟩ := Option.bind_eq_some_iff.mp runs
  obtain ⟨last, second, decided⟩ := Option.map_eq_some_iff.mp rest
  obtain ⟨⟨attempts, opened⟩, idle, none⟩ := of_decide_eq_true decided
  obtain ⟨failed, same, sameOpened, _⟩ :=
    failed_attempt_is_last (of_checked first) ⟨by omega, idle, none⟩ (of_checked second)
  exact ⟨life, last, of_checked first, of_checked second, failed, same.trans attempts, sameOpened.trans opened⟩

/-- No read waits, is under way or comes behind an attempt to connect. -/
structure Deaf (life : SessionLife User) : Prop where
  reads : .read ∉ life.tasks
  connects : .connect ∉ life.tasks
  adding : ∀ thread, life.places thread ≠ .adding
  reading : ∀ thread, (life.places thread).isReading = false

/-- A step of a session that is deaf reads nothing, unless it is a new attempt. -/
private theorem Deaf.step (deaf : life.Deaf) (taken : life.next action = some after) :
    after.Deaf ∧ after.attempts = life.attempts ∧ after.messages = life.messages ∨
      after.attempts = life.attempts + 1 := by
  obtain ⟨thread, pc, moves⟩ := moves_of_next taken
  obtain same | ⟨_, _, next⟩ := moves.attempts
  · have silent : ¬ (life.places thread).isReading = true := by simp [deaf.reading thread]
    refine .inl ⟨⟨fun waits => ?_, fun waits => ?_, ?_, ?_⟩, same, ?_⟩
    · exact (moves.reads waits).elim deaf.reads silent
    · exact (moves.connects waits).elim deaf.connects (deaf.adding thread)
    · have everyone : Everywhere (fun pc : SessionPc => pc ≠ .adding) life.places := deaf.adding
      rw [moves.places]
      refine everyone.move fun adds => ?_
      obtain here | next := moves.adds adds
      · exact deaf.adding thread here
      · omega
    · have everyone : Everywhere (fun pc : SessionPc => pc.isReading = false) life.places := deaf.reading
      rw [moves.places]
      refine everyone.move ?_
      by_contra reads
      obtain here | waits | waits := moves.reading (Bool.eq_true_of_not_eq_false reads)
      · exact silent here
      · exact deaf.connects waits
      · exact deaf.reads waits
    · refine moves.messages.resolve_right fun here => ?_
      rw [here] at silent
      exact silent rfl
  · exact .inr next

theorem attempts_le_of_path {actions : List (LifeAction User)} {last : SessionLife User}
    (path : Path (Taken next) life actions last) : life.attempts ≤ last.attempts := by
  refine path.invariant (fun state => life.attempts ≤ state.attempts) ?_ (Nat.le_refl _)
  intro before action after le taken
  obtain ⟨thread, pc, moves⟩ := moves_of_next taken
  obtain same | ⟨_, _, next⟩ := moves.attempts <;> omega

theorem hear_channelFails {begun : Bool} (taken : life.hear thread (.channelFails begun) = some after) :
    life.places thread = .consuming ∧ after = life.goto thread (if begun then .closeChannel else .outside) := by
  unfold SessionLife.hear at taken
  generalize said : Reply.channelFails begun = reply at taken
  split at taken
  case h_9 started here =>
    cases said
    exact ⟨here, (Option.some.inj taken).symm⟩
  case h_11 => cases taken
  all_goals cases said

/-- Where the only read has failed, none is left. -/
private theorem Kept.deaf (kept : life.Kept) (sound : life.Sound) (here : life.places none = .consuming)
    (now : after = life.goto none pc) (silent : pc.isReading = false) (adds : pc ≠ .adding) : after.Deaf := by
  have alive : life.connected = true := sound.lives none (by rw [here]; rfl)
  have reads := kept.reads
  rw [here] at reads
  subst now
  refine ⟨List.count_eq_zero.mp (Nat.le_zero.mp (Nat.le_of_succ_le_succ reads)), fun waits => ?_, fun thread => ?_,
    fun thread => ?_⟩
  · cases alive.symm.trans (kept.waiting waits)
  · cases thread with
    | none => simpa [goto] using adds
    | some user =>
      intro adding
      have there : life.places (some user) = .adding := by simpa [goto] using adding
      cases alive.symm.trans (kept.apart (some user) (by rw [there]; rfl))
  · cases thread with
    | none => simpa [goto] using silent
    | some user => simpa [goto] using kept.sole user

/-- Once a read has failed for a channel of a session, no message of any channel is read before the next attempt
to connect. -/
theorem deaf_of_failed_read {actions later : List (LifeAction User)} {last : SessionLife User} {begun : Bool}
    (path : Path (Guarded (Taken next) Careful) construct actions life)
    (failed : life.next (.reply none (.channelFails begun)) = some after)
    (goes : Path (Taken next) after later last) (same : last.attempts = after.attempts) :
    last.messages = after.messages := by
  have deaf : after.Deaf := by
    obtain ⟨sound, kept⟩ := kept_of_path path
    obtain ⟨here, now⟩ := hear_channelFails failed
    cases begun with
    | true => exact kept.deaf sound here now rfl (by simp)
    | false => exact kept.deaf sound here now rfl (by simp)
  clear path failed
  induction goes with
  | nil _ => rfl
  | cons taken rest ih =>
    have later := attempts_le_of_path rest
    obtain ⟨deaf, attempts, messages⟩ | next := deaf.step taken
    · exact (ih (same.trans attempts.symm) deaf).trans messages
    · omega

/-- One message is read, and then the channel fails and is connected again. -/
theorem deaf_of_failed_read_reconnected :
    let actions := connects 0 ++ .reply none (.handled true) :: .take :: .reply none (.message true) :: goes none 5 ++
      [.take]
    let later := .step none :: .reconnectChannel 0 :: .take :: goes none 1
    ∃ life after last : SessionLife (Fin 2), Path (Guarded (Taken next) Careful) construct actions life ∧
      life.next (.reply none (.channelFails true)) = some after ∧ Path (Taken next) after later last ∧
      last.messages = 1 := by
  intro actions later
  have runs : ((exec (checked next Careful) construct actions).bind fun life =>
      (life.next (.reply none (.channelFails true))).bind fun after => (exec next after later).map fun last =>
        decide (last.attempts = after.attempts ∧ after.messages = 1)) = some true := by
    decide +kernel
  obtain ⟨life, first, rest⟩ := Option.bind_eq_some_iff.mp runs
  obtain ⟨after, failed, rest⟩ := Option.bind_eq_some_iff.mp rest
  obtain ⟨last, second, decided⟩ := Option.map_eq_some_iff.mp rest
  obtain ⟨same, one⟩ := of_decide_eq_true decided
  have path := of_checked first
  have goes := exec_eq_some_iff.mp second
  exact ⟨life, after, last, path, failed, goes, (deaf_of_failed_read path failed goes same).trans one⟩

end Kept

end SessionLife

end BTool.Rmq
