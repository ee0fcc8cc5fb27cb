import BTool.Timer.TimerArming

/-! A `TimerManager` that one thread starts and stops while others insert, erase and clear timers and
the thread of its `io_context` runs the handlers.

`insert` tests `has_started` before it takes the lock, and `start` makes `m_timer` only after the
manager counts as started: an `insert` may find itself behind the `clear` of a stop, or ahead of the
timer of a start. -/

namespace BTool.Timer

open BTool.Foundation

/-- How far the thread that starts and stops has come. -/
inductive Phase where
  /-- There is no `io_context`. -/
  | stopped
  /-- In `start`, started for `has_started`, ahead of the new `io_context` and `m_timer`. -/
  | starting
  | running
  /-- In `stop`, stopped for `has_started`, ahead of `clear`. -/
  | stopping
  /-- In `stop`, behind `clear`, while the `io_context` still runs. -/
  | cleared
deriving DecidableEq

namespace Phase

def hasStarted : Phase → Bool
  | .starting => true
  | .running => true
  | _ => false

/-- Handlers can run. -/
def serves : Phase → Bool
  | .running => true
  | .stopping => true
  | .cleared => true
  | _ => false

/-- From the `clear` of a stop to the end of the next start. -/
def off : Phase → Bool
  | .stopped => true
  | .starting => true
  | .cleared => true
  | _ => false

end Phase

namespace TimerManager

/-- `start` of a task, which tests `has_started` once more. -/
def startIf (manager : TimerManager) (hasStarted : Bool) (timerTask : Nat) : TimerManager :=
  if hasStarted then manager.start timerTask else manager

/-- `insert` behind its first test. -/
def insertIf (manager : TimerManager) (hasStarted : Bool) (intervalMs : UInt32) (loopCount : Int)
    (timePoint : Int) : TimerManager × Nat :=
  let timerId := manager.getNextTimerId
  let (timerQueue, item) := manager.insertTask intervalMs loopCount timePoint
  let manager := { manager with nextId := timerId, timerQueue }
  match item with
  | none => (manager, invalidTid)
  | some item =>
    if manager.curTask = none then ({ manager with curTask := some item }.startIf hasStarted item, timerId)
    else if manager.curTask ≠ manager.timerQueue.front then (manager.cancelWaits, timerId)
    else (manager, timerId)

def handlerIf (manager : TimerManager) (hasStarted : Bool) (error : WaitError) (wait : Wait) :
    TimerManager :=
  let manager := { manager with curTask := none, timerQueue := manager.handleQueue error wait }
  if manager.timerQueue.empty then manager
  else
    match manager.timerQueue.front with
    | none => manager
    | some task => { manager with curTask := some task }.startIf hasStarted task

/-- The waits of an `io_context` that is gone. -/
def dropWaits (manager : TimerManager) : TimerManager := { manager with armed := [], pending := [] }

end TimerManager

structure TimerLife (T : Type) where
  phase : Phase
  manager : TimerManager
  /-- The arguments of an `insert` behind its first test, for each thread. -/
  inserting : T → Option (UInt32 × Int × Int)
  /-- `async_wait` has been called on a timer that is null, or whose `io_context` is gone. -/
  broken : Bool

inductive LifeAction (T : Type) where
  | start
  /-- The rest of `start`: the new `io_context` and its timer. -/
  | ready
  | stop
  | clearAll
  /-- The rest of `stop`: the end of the `io_context`, and the reset of the switch. -/
  | drain
  | callInsert (thread : T) (intervalMs : UInt32) (loopCount : Int) (timePoint : Int)
  | insert (thread : T)
  | erase (timerId : Nat)
  | clear
  | clearPointTimer (timePoint : Int)
  | complete (error : WaitError)
  | handle (wait : Wait) (error : WaitError)
deriving DecidableEq

namespace TimerLife

variable {T : Type} [DecidableEq T]

def construct (spaceMillsecond : UInt64) : TimerLife T :=
  { phase := .stopped, manager := .construct spaceMillsecond, inserting := fun _ => none, broken := false }

/-- A step of a program that has not broken its timer. -/
def act (life : TimerLife T) : LifeAction T → Option (TimerLife T)
  | .start => if life.phase = .stopped then some { life with phase := .starting } else none
  | .ready =>
    if life.phase = .starting then some { life with phase := .running, manager := life.manager.dropWaits }
    else none
  | .stop => if life.phase = .running then some { life with phase := .stopping } else none
  | .clearAll =>
    if life.phase = .stopping then some { life with phase := .cleared, manager := life.manager.clear }
    else none
  | .drain =>
    if life.phase = .cleared then some { life with phase := .stopped, manager := life.manager.dropWaits }
    else none
  | .callInsert thread intervalMs loopCount timePoint =>
    match life.inserting thread with
    | none => some (if life.phase.hasStarted then { life with
        inserting := Function.update life.inserting thread (some (intervalMs, loopCount, timePoint)) }
      else life)
    | some _ => none
  | .insert thread =>
    match life.inserting thread with
    | none => none
    | some (intervalMs, loopCount, timePoint) => some { life with
        manager := (life.manager.insertIf life.phase.hasStarted intervalMs loopCount timePoint).1
        inserting := Function.update life.inserting thread none
        broken := life.phase = .starting && life.manager.curTask = none &&
          (life.manager.insertTask intervalMs loopCount timePoint).2.isSome }
  | .erase timerId => some { life with manager := life.manager.erase timerId }
  | .clear => some { life with manager := life.manager.clear }
  | .clearPointTimer timePoint => some { life with manager := life.manager.clearPointTimer timePoint }
  | .complete error =>
    if life.phase.serves then
      (life.manager.next (.complete error)).map fun manager => { life with manager }
    else none
  | .handle wait error =>
    if life.phase.serves ∧ life.manager.pending.contains (wait, error) then some { life with
      manager := { life.manager with pending := life.manager.pending.erase (wait, error) }.handlerIf
        life.phase.hasStarted error wait }
    else none

def next (life : TimerLife T) (action : LifeAction T) : Option (TimerLife T) :=
  if life.broken then none else life.act action

/-- A manager that is off holds no timer, and while one runs, a completion is on its way or a wait is
armed for the front of its queue. -/
structure Sound (life : TimerLife T) : Prop where
  intact : life.broken = false
  off : life.phase.off = true → life.manager.timerQueue.empty = true ∧ life.manager.curTask = none
  aimed : life.phase = .running → life.manager.timerQueue.empty = false →
    life.manager.pending ≠ [] ∨ ∃ front wait, life.manager.timerQueue.front = some front ∧
      life.manager.armed = [wait] ∧ wait.timePoint = (life.manager.timerQueue.task front).timePoint

/-- An `insert` goes on behind the `clear` of a stop or ahead of the timer of a start, and with a valid
id. -/
def Late (life : TimerLife T) (action : LifeAction T) : Prop :=
  ∃ thread, action = .insert thread ∧ life.inserting thread ≠ none ∧ life.phase.off = true ∧
    life.manager.getNextTimerId ≠ invalidTid

end TimerLife

namespace TimerManager

/-- What `m_cur_task` says about the queue and the waits, whatever completions are on their way. -/
structure Aimed (manager : TimerManager) : Prop where
  indexed : manager.timerQueue.Indexed
  idle : manager.curTask = none → manager.timerQueue.empty = true
  aimed : manager.pending = [] → ∀ task, manager.curTask = some task →
    manager.timerQueue.front = some task ∧
      manager.armed = [⟨task, (manager.timerQueue.task task).timePoint⟩]

variable {manager : TimerManager} {timerQueue : TimerQueue} {intervalMs : UInt32}
  {loopCount timePoint : Int}

theorem Aimed.live (aimed : manager.Aimed) (filled : manager.timerQueue.empty = false) :
    manager.pending ≠ [] ∨ ∃ front wait, manager.timerQueue.front = some front ∧
      manager.armed = [wait] ∧ wait.timePoint = (manager.timerQueue.task front).timePoint := by
  by_cases none : manager.pending = []
  · cases current : manager.curTask with
    | none => cases filled.symm.trans (aimed.idle current)
    | some task =>
      obtain ⟨isFront, armed⟩ := aimed.aimed none task current
      exact .inr ⟨task, _, isFront, armed, rfl⟩
  · exact .inl none

/-- The queue changes behind the current task. -/
theorem Aimed.requeue (aimed : manager.Aimed) {nextId : Nat} (indexed : timerQueue.Indexed)
    (emptier : manager.curTask = none → timerQueue.empty = true)
    (same : ∀ task, manager.curTask = some task → manager.timerQueue.front = some task →
      timerQueue.front = some task ∧
      (timerQueue.task task).timePoint = (manager.timerQueue.task task).timePoint) :
    Aimed { manager with nextId, timerQueue } := by
  refine ⟨indexed, emptier, fun none task current => ?_⟩
  obtain ⟨isFront, armed⟩ := aimed.aimed none task current
  obtain ⟨front, time⟩ := same task current isFront
  exact ⟨front, by rw [armed, time]⟩

/-- The queue changes, and the wait of the current task is cancelled. -/
theorem Aimed.cancel (aimed : manager.Aimed) {nextId : Nat} (indexed : timerQueue.Indexed)
    (emptier : manager.curTask = none → timerQueue.empty = true) :
    Aimed ({ manager with nextId, timerQueue } : TimerManager).cancelWaits := by
  refine ⟨indexed, emptier, fun none task current => ?_⟩
  obtain ⟨before, nothing⟩ := List.append_eq_nil_iff.mp none
  obtain ⟨_, armed⟩ := aimed.aimed before task current
  rw [armed] at nothing
  cases nothing

/-- A wait is armed for the front, and for it alone. -/
theorem start_aimed (manager : TimerManager) {task : Nat} (indexed : manager.timerQueue.Indexed)
    (isFront : manager.timerQueue.front = some task) :
    ({ manager with curTask := some task }.start task).Aimed := by
  refine ⟨indexed, by simp [TimerManager.start, cancelWaits], fun _ other current => ?_⟩
  obtain rfl := Option.some.inj current
  exact ⟨isFront, rfl⟩

theorem Aimed.insert (aimed : manager.Aimed) :
    (manager.insert intervalMs loopCount timePoint).1.Aimed := by
  have indexed : (manager.insertTask intervalMs loopCount timePoint).1.Indexed := aimed.indexed.insert
  unfold TimerManager.insert
  simp only
  cases made : (manager.insertTask intervalMs loopCount timePoint).2 with
  | none =>
    have same : (manager.insertTask intervalMs loopCount timePoint).1 = manager.timerQueue :=
      TimerQueue.insert_eq_none made
    refine aimed.requeue indexed (fun none => same ▸ aimed.idle none) fun task current isFront => ?_
    rw [same]
    exact ⟨isFront, rfl⟩
  | some item =>
    obtain ⟨valid, fresh, kept, _⟩ := TimerQueue.insert_eq_some made
    simp only
    split
    · rename_i none
      obtain ⟨address, again, isFront⟩ :
          ∃ item, (manager.insertTask intervalMs loopCount timePoint).2 = some item ∧
          (manager.insertTask intervalMs loopCount timePoint).1.front = some item :=
        aimed.indexed.front_insert (aimed.idle none) valid
      obtain rfl := Option.some.inj (made.symm.trans again)
      exact start_aimed { manager with
        nextId := manager.getNextTimerId
        timerQueue := (manager.insertTask intervalMs loopCount timePoint).1 } indexed isFront
    · rename_i busy
      split
      · exact aimed.cancel indexed fun none => absurd none busy
      · rename_i ahead
        refine aimed.requeue indexed (fun none => absurd none busy) fun task current isFront => ?_
        have apart : task ≠ item := by
          rintro rfl
          have below := (aimed.indexed.keyed _ task (aimed.indexed.front_held isFront)).2
          omega
        refine ⟨?_, by rw [insertTask, kept task apart]⟩
        rw [← current]
        simpa using (not_ne_iff.mp ahead).symm

theorem Aimed.erase (aimed : manager.Aimed) {timerId : Nat} : (manager.erase timerId).Aimed := by
  have indexed : (manager.timerQueue.erase timerId).1.Indexed := aimed.indexed.erase
  have emptier (none : manager.curTask = none) : (manager.timerQueue.erase timerId).1.empty = true :=
    TimerQueue.empty_erase (aimed.idle none)
  unfold TimerManager.erase
  simp only
  split
  · exact aimed.cancel indexed emptier
  · rename_i other
    refine aimed.requeue indexed emptier fun task current isFront => ?_
    apply aimed.indexed.front_erase isFront
    intro same
    exact other ⟨by simp [same], same.trans current.symm⟩

theorem clear_aimed (manager : TimerManager) : manager.clear.Aimed :=
  ⟨TimerQueue.clear_indexed, fun _ => rfl, by simp [TimerManager.clear]⟩

theorem Aimed.clearPointTimer (aimed : manager.Aimed) : (manager.clearPointTimer timePoint).Aimed := by
  have indexed : (manager.timerQueue.clearPointTimer timePoint).1.Indexed := aimed.indexed.clearPointTimer
  have emptier (none : manager.curTask = none) :
      (manager.timerQueue.clearPointTimer timePoint).1.empty = true :=
    TimerQueue.empty_clearPointTimer (aimed.idle none)
  unfold TimerManager.clearPointTimer
  simp only
  split
  · exact aimed.cancel indexed emptier
  · rename_i others
    refine aimed.requeue indexed emptier fun task current isFront => ?_
    apply aimed.indexed.front_clearPointTimer isFront
    intro member
    exact others ⟨task, member, current⟩

/-- While the manager is started these are its `insert` and its `handler`. -/
theorem insertIf_true (manager : TimerManager) (intervalMs : UInt32) (loopCount timePoint : Int) :
    manager.insertIf true intervalMs loopCount timePoint = manager.insert intervalMs loopCount timePoint := rfl

theorem handlerIf_true (manager : TimerManager) (error : WaitError) (wait : Wait) :
    manager.handlerIf true error wait = manager.handler error wait := rfl

/-- A handler arms the front of what it leaves of the queue. -/
theorem handler_aimed {error : WaitError} {wait : Wait} (indexed : manager.timerQueue.Indexed) :
    (manager.handlerIf true error wait).Aimed := by
  have left : (manager.handleQueue error wait).Indexed := by
    cases error with
    | success => exact indexed.loopPointTimer
    | operationAborted => exact indexed
    | other => exact indexed.erase
  unfold handlerIf
  simp only
  split
  · rename_i nothing
    exact ⟨left, fun _ => nothing, fun _ task current => by cases current⟩
  · rename_i filled
    obtain ⟨front, isFront, _⟩ := left.front_spec (by simpa using filled)
    simp only [isFront]
    exact start_aimed { manager with curTask := none, timerQueue := manager.handleQueue error wait } left isFront

section Queues

variable {hasStarted : Bool} {timerId : Nat} {error : WaitError} {wait : Wait}

@[simp] theorem timerQueue_startIf (task : Nat) :
    (manager.startIf hasStarted task).timerQueue = manager.timerQueue := by
  cases hasStarted <;> rfl

theorem timerQueue_insertIf : (manager.insertIf hasStarted intervalMs loopCount timePoint).1.timerQueue =
    (manager.insertTask intervalMs loopCount timePoint).1 := by
  unfold insertIf
  simp only
  split
  · rfl
  · split
    · simp
    · split <;> rfl

theorem timerQueue_erase : (manager.erase timerId).timerQueue = (manager.timerQueue.erase timerId).1 := by
  unfold TimerManager.erase
  simp only
  split <;> rfl

theorem timerQueue_clearPointTimer :
    (manager.clearPointTimer timePoint).timerQueue = (manager.timerQueue.clearPointTimer timePoint).1 := by
  unfold TimerManager.clearPointTimer
  simp only
  split <;> rfl

theorem timerQueue_handlerIf :
    (manager.handlerIf hasStarted error wait).timerQueue = manager.handleQueue error wait := by
  unfold handlerIf
  simp only
  split
  · rfl
  · split
    · rfl
    · simp

theorem handleQueue_indexed (indexed : manager.timerQueue.Indexed) :
    (manager.handleQueue error wait).Indexed := by
  cases error with
  | success => exact indexed.loopPointTimer
  | operationAborted => exact indexed
  | other => exact indexed.erase

/-- A time point of an empty queue has no slot. -/
theorem handleQueue_empty (indexed : manager.timerQueue.Indexed) (nothing : manager.timerQueue.empty = true) :
    (manager.handleQueue error wait).empty = true := by
  cases error with
  | success =>
    simp only [handleQueue, TimerQueue.loopPointTimer]
    split
    · exact nothing
    · rename_i slot found
      obtain ⟨id, value, held⟩ : ∃ id value, slot.find? id = some value := by
        by_contra absent
        push Not at absent
        have hollow := OrderedMap.isEmpty_iff.mpr fun id => Option.eq_none_iff_forall_ne_some.mpr (absent id)
        cases hollow.symm.trans (indexed.filled _ slot found)
      have there : manager.timerQueue.timerPartQueue.lookup wait.timePoint id = some value := by
        rw [SlotMap.lookup, found]
        exact held
      have kept := ((indexed.slotted _ id value).mp there).1
      rw [OrderedMap.isEmpty_iff.mp nothing id] at kept
      cases kept
  | operationAborted => exact nothing
  | other => exact TimerQueue.empty_erase nothing

/-- The manager holds no timer. -/
structure Vacant (manager : TimerManager) : Prop where
  nothing : manager.timerQueue.empty = true
  idle : manager.curTask = none

theorem Vacant.erase (vacant : manager.Vacant) : (manager.erase timerId).Vacant where
  nothing := by
    rw [timerQueue_erase]
    exact TimerQueue.empty_erase vacant.nothing
  idle := by
    unfold TimerManager.erase
    simp only
    split <;> exact vacant.idle

theorem Vacant.clearPointTimer (vacant : manager.Vacant) : (manager.clearPointTimer timePoint).Vacant where
  nothing := by
    rw [timerQueue_clearPointTimer]
    exact TimerQueue.empty_clearPointTimer vacant.nothing
  idle := by
    unfold TimerManager.clearPointTimer
    simp only
    split <;> exact vacant.idle

theorem vacant_clear (manager : TimerManager) : manager.clear.Vacant := ⟨rfl, rfl⟩

theorem Vacant.handler (vacant : manager.Vacant) (indexed : manager.timerQueue.Indexed) :
    (manager.handlerIf hasStarted error wait).Vacant where
  nothing := by
    rw [timerQueue_handlerIf]
    exact handleQueue_empty indexed vacant.nothing
  idle := by
    unfold handlerIf
    simp only [handleQueue_empty indexed vacant.nothing, if_true]

/-- A manager without timers refuses an insert exactly if the ids have wrapped around to the invalid one. -/
theorem Vacant.insert (vacant : manager.Vacant) (indexed : manager.timerQueue.Indexed) :
    (manager.insertIf hasStarted intervalMs loopCount timePoint).1.Vacant ↔
      manager.getNextTimerId = invalidTid := by
  constructor
  · intro still
    by_contra valid
    obtain ⟨item, made, isFront⟩ :
        ∃ item, (manager.insertTask intervalMs loopCount timePoint).2 = some item ∧
        (manager.insertTask intervalMs loopCount timePoint).1.front = some item :=
      indexed.front_insert vacant.nothing valid
    have nothing := still.nothing
    rw [timerQueue_insertIf] at nothing
    have inOrder : (manager.insertTask intervalMs loopCount timePoint).1.Indexed := indexed.insert
    have held := inOrder.front_held isFront
    rw [OrderedMap.isEmpty_iff.mp nothing] at held
    cases held
  · intro invalid
    have refused : manager.insertTask intervalMs loopCount timePoint = (manager.timerQueue, none) := by
      simp [insertTask, TimerQueue.insert, invalid]
    exact ⟨by rw [timerQueue_insertIf, refused]; exact vacant.nothing,
      by simp only [insertIf, refused]; exact vacant.idle⟩

end Queues

end TimerManager

namespace TimerLife

variable {T : Type} [DecidableEq T] {life after : TimerLife T} {action : LifeAction T}
  {spaceMillsecond : UInt64}

/-- The maps of the queue agree, and a manager that runs is aimed. -/
structure Kept (life : TimerLife T) : Prop where
  indexed : life.manager.timerQueue.Indexed
  running : life.phase = .running → life.manager.Aimed

omit [DecidableEq T] in
theorem Sound.vacant (sound : life.Sound) (isOff : life.phase.off = true) : life.manager.Vacant :=
  ⟨(sound.off isOff).1, (sound.off isOff).2⟩

omit [DecidableEq T] in
/-- The state behind a step is sound when it is off and vacant, or runs and is aimed. -/
private theorem sound_of (intact : life.broken = false) (indexed : life.manager.timerQueue.Indexed)
    (vacant : life.phase.off = true → life.manager.Vacant)
    (aimed : life.phase = .running → life.manager.Aimed) : life.Sound ∧ life.Kept :=
  ⟨⟨intact, fun isOff => ⟨(vacant isOff).nothing, (vacant isOff).idle⟩, fun runs => (aimed runs).live⟩,
    indexed, aimed⟩

/-- An insert that goes on while the manager is off leaves a timer there that nobody arms, unless it is
refused. -/
private theorem sound_insert {thread : T} {intervalMs : UInt32} {loopCount timePoint : Int}
    (kept : life.Kept) (sound : life.Sound)
    (begun : life.inserting thread = some (intervalMs, loopCount, timePoint))
    (now : after = { life with
        manager := (life.manager.insertIf life.phase.hasStarted intervalMs loopCount timePoint).1
        inserting := Function.update life.inserting thread none
        broken := life.phase = .starting && life.manager.curTask = none &&
          (life.manager.insertTask intervalMs loopCount timePoint).2.isSome }) :
    (after.Sound ↔ ¬ life.Late (.insert thread)) ∧ (after.Sound → after.Kept) := by
  have manager : after.manager =
      (life.manager.insertIf life.phase.hasStarted intervalMs loopCount timePoint).1 := by rw [now]
  have phase : after.phase = life.phase := by rw [now]
  have indexed : after.manager.timerQueue.Indexed := by
    rw [manager, TimerManager.timerQueue_insertIf]
    exact kept.indexed.insert
  cases isOff : life.phase.off with
  | true =>
    have vacant_iff : after.manager.Vacant ↔ life.manager.getNextTimerId = invalidTid := by
      rw [manager]
      exact (sound.vacant isOff).insert kept.indexed
    by_cases invalid : life.manager.getNextTimerId = invalidTid
    · have intact : after.broken = false := by
        simp [now, TimerManager.insertTask, TimerQueue.insert, invalid]
      have both : after.Sound ∧ after.Kept := by
        refine sound_of intact indexed (fun _ => vacant_iff.mpr invalid) fun runs => ?_
        rw [phase.symm.trans runs] at isOff
        cases isOff
      refine ⟨iff_of_true both.1 ?_, fun _ => both.2⟩
      rintro ⟨_, _, _, _, valid⟩
      exact valid invalid
    · have unsound : ¬ after.Sound := fun sound => invalid (vacant_iff.mp (sound.vacant (phase ▸ isOff)))
      have late : life.Late (.insert thread) := ⟨thread, rfl, by simp [begun], isOff, invalid⟩
      exact ⟨iff_of_false unsound (not_not_intro late), fun sound => absurd sound unsound⟩
  | false =>
    have intact : after.broken = false := by
      have apart : life.phase ≠ .starting := by
        intro starting
        rw [starting] at isOff
        cases isOff
      simp [now, apart]
    have both : after.Sound ∧ after.Kept := by
      refine sound_of intact indexed (fun off => ?_) fun runs => ?_
      · rw [phase, isOff] at off
        cases off
      · have running : life.phase = .running := phase.symm.trans runs
        rw [manager, running]
        exact (kept.running running).insert
    refine ⟨iff_of_true both.1 ?_, fun _ => both.2⟩
    rintro ⟨_, _, _, late, _⟩
    cases isOff.symm.trans late

theorem sound_step (kept : life.Kept) (sound : life.Sound) (taken : life.next action = some after) :
    (after.Sound ↔ ¬ life.Late action) ∧ (after.Sound → after.Kept) := by
  have always (both : after.Sound ∧ after.Kept) (timely : ¬ life.Late action) :
      (after.Sound ↔ ¬ life.Late action) ∧ (after.Sound → after.Kept) :=
    ⟨iff_of_true both.1 timely, fun _ => both.2⟩
  have plain (other : ∀ thread, action ≠ .insert thread) : ¬ life.Late action := by
    rintro ⟨thread, same, _⟩
    exact other thread same
  rw [next, sound.intact, if_neg Bool.false_ne_true] at taken
  cases action with
  | start =>
    obtain ⟨stopped, same⟩ := Option.ite_none_right_eq_some.mp taken
    cases same
    exact always (sound_of sound.intact kept.indexed (fun _ => sound.vacant (by rw [stopped]; rfl))
      fun runs => by cases runs) (plain (by simp))
  | ready =>
    obtain ⟨starting, same⟩ := Option.ite_none_right_eq_some.mp taken
    cases same
    have vacant := sound.vacant (by rw [starting]; rfl)
    exact always (sound_of sound.intact kept.indexed (fun isOff => by cases isOff)
      fun _ => ⟨kept.indexed, fun _ => vacant.nothing, fun _ task current => by
        cases vacant.idle.symm.trans current⟩) (plain (by simp))
  | stop =>
    obtain ⟨running, same⟩ := Option.ite_none_right_eq_some.mp taken
    cases same
    exact always (sound_of sound.intact kept.indexed (fun isOff => by cases isOff)
      fun runs => by cases runs) (plain (by simp))
  | clearAll =>
    obtain ⟨stopping, same⟩ := Option.ite_none_right_eq_some.mp taken
    cases same
    exact always (sound_of sound.intact TimerQueue.clear_indexed (fun _ => TimerManager.vacant_clear _)
      fun runs => by cases runs) (plain (by simp))
  | drain =>
    obtain ⟨cleared, same⟩ := Option.ite_none_right_eq_some.mp taken
    cases same
    have vacant := sound.vacant (by rw [cleared]; rfl)
    exact always (sound_of sound.intact kept.indexed (fun _ => ⟨vacant.nothing, vacant.idle⟩)
      fun runs => by cases runs) (plain (by simp))
  | callInsert thread intervalMs loopCount timePoint =>
    have fine := plain (by simp)
    have unchanged : life.Sound ∧ life.Kept := ⟨sound, kept⟩
    simp only [act] at taken
    split at taken
    · split at taken <;> cases taken
      · exact always (sound_of sound.intact kept.indexed sound.vacant kept.running) fine
      · exact always unchanged fine
    · cases taken
  | insert thread =>
    simp only [act] at taken
    split at taken
    · cases taken
    · rename_i intervalMs loopCount timePoint begun
      exact sound_insert kept sound begun (Option.some.inj taken).symm
  | erase timerId =>
    cases taken
    refine always (sound_of sound.intact ?_ (fun isOff => (sound.vacant isOff).erase)
      fun runs => (kept.running runs).erase) (plain (by simp))
    rw [TimerManager.timerQueue_erase]
    exact kept.indexed.erase
  | clear =>
    cases taken
    exact always (sound_of sound.intact TimerQueue.clear_indexed (fun _ => TimerManager.vacant_clear _)
      fun _ => TimerManager.clear_aimed _) (plain (by simp))
  | clearPointTimer timePoint =>
    cases taken
    refine always (sound_of sound.intact ?_ (fun isOff => (sound.vacant isOff).clearPointTimer)
      fun runs => (kept.running runs).clearPointTimer) (plain (by simp))
    rw [TimerManager.timerQueue_clearPointTimer]
    exact kept.indexed.clearPointTimer
  | complete error =>
    obtain ⟨_, completed⟩ := Option.ite_none_right_eq_some.mp taken
    obtain ⟨manager, stepped, rfl⟩ := Option.map_eq_some_iff.mp completed
    obtain ⟨⟨armed, _⟩, same⟩ := Option.ite_none_right_eq_some.mp stepped
    cases same
    refine always (sound_of sound.intact kept.indexed
      (fun isOff => ⟨(sound.vacant isOff).nothing, (sound.vacant isOff).idle⟩) fun runs => ?_) (plain (by simp))
    refine ⟨kept.indexed, (kept.running runs).idle, fun nothing => ?_⟩
    exact absurd (List.map_eq_nil_iff.mp (List.append_eq_nil_iff.mp nothing).2) armed
  | handle wait error =>
    obtain ⟨_, same⟩ := Option.ite_none_right_eq_some.mp taken
    cases same
    refine always (sound_of sound.intact ?_ (fun isOff => ?_) fun runs => ?_) (plain (by simp))
    · rw [TimerManager.timerQueue_handlerIf]
      exact TimerManager.handleQueue_indexed kept.indexed
    · have vacant := sound.vacant isOff
      exact TimerManager.Vacant.handler ⟨vacant.nothing, vacant.idle⟩ kept.indexed
    · have isRunning : life.phase = .running := runs
      rw [isRunning]
      exact TimerManager.handler_aimed kept.indexed

/-- In every run: nothing is left in a manager that is off, `m_timer` is never used without its
`io_context`, and while the manager runs a wait is armed for the front of its queue or a completion is
on its way, if and only if no `insert` that has passed its first test goes on between the `clear` of a
stop and the end of the next start. -/
theorem sound_iff_timely {actions : List (LifeAction T)} {last : TimerLife T}
    (path : Path (Taken next) (construct spaceMillsecond) actions last) :
    (∀ life, Path.Visits (Taken next) (construct spaceMillsecond) actions life → life.Sound) ↔
      ∀ life action, Path.Takes (Taken next) (construct spaceMillsecond) actions life action →
        ¬ life.Late action := by
  refine path.visits_iff_all_takes Kept ?_ ?_ ?_
  · intro before action after kept sound taken
    exact sound_step kept sound taken
  · exact ⟨rfl, fun _ => ⟨rfl, rfl⟩, fun runs => by cases runs⟩
  · exact ⟨TimerQueue.construct_indexed, fun runs => by cases runs⟩

/-- An insert that a stop overtakes leaves its timer in the stopped manager, and started again that does
not arm it. -/
theorem sound_iff_timely_overtaken :
    ∃ last : TimerLife (Fin 1),
      Path (Taken next) (construct 0) [.start, .ready, .callInsert 0 0 1 5, .stop, .clearAll, .insert 0, .drain,
        .start, .ready] last ∧ last.manager.timerQueue.empty = false ∧ last.manager.armed = [] ∧
      ((∀ life, Path.Visits (Taken next) (construct 0 : TimerLife (Fin 1)) [.start, .ready, .callInsert 0 0 1 5,
          .stop, .clearAll, .insert 0, .drain, .start, .ready] life → life.Sound) ↔
        ∀ life action, Path.Takes (Taken next) (construct 0 : TimerLife (Fin 1)) [.start, .ready,
          .callInsert 0 0 1 5, .stop, .clearAll, .insert 0, .drain, .start, .ready] life action →
          ¬ life.Late action) := by
  have runs : ∃ last ∈ exec next (construct 0 : TimerLife (Fin 1)) [.start, .ready, .callInsert 0 0 1 5, .stop,
      .clearAll, .insert 0, .drain, .start, .ready],
      last.manager.timerQueue.empty = false ∧ last.manager.armed = [] := by
    decide
  obtain ⟨last, run, filled, unarmed⟩ := runs
  have path := exec_eq_some_iff.mp run
  exact ⟨last, path, filled, unarmed, sound_iff_timely path⟩

end TimerLife

end BTool.Timer
