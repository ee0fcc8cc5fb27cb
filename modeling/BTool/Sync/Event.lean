import BTool.Foundation.Locals
import BTool.Foundation.Transition

/-! The `event` of `sync.hpp` that is made of a flag and a pipe: what the flag says of the pipe, and which waits
a `set` ends.

`wait` looks at the pipe without `m_mtx`, and an event that resets itself takes the message out behind it. -/

namespace BTool.Sync.Event

open BTool.Foundation BTool.Foundation.Path

/-- Where a thread is. The waits reset the event as `reset` does, and have their own places. -/
inductive Pc where
  | outside
  | setLock
  | setTest
  | setWrite
  | setLeave
  /-- In the `select` of `wait`, or of `timedwait` with a time. -/
  | select (timed : Bool)
  | resetLock (waits : Bool)
  | resetTest (waits : Bool)
  | resetRead (waits : Bool)
  | resetClear (waits : Bool)
  | resetLeave (waits : Bool)
deriving DecidableEq

/-- The event and its threads, with how often a message has been written and read and how many waits have
returned. -/
structure State (Thread : Type) where
  mtx : Option Thread
  pipe : List Char
  autoReset : Bool
  state : Bool
  places : Thread → Pc
  written : Nat
  read : Nat
  returned : Nat

inductive Action (Thread : Type) where
  | set (thread : Thread)
  | wait (thread : Thread) (timed : Bool)
  | reset (thread : Thread)
  /-- `select` has found the pipe readable. -/
  | ready (thread : Thread)
  | timeout (thread : Thread)
  /-- `select` has been interrupted, at which `wait` does not look. -/
  | interrupt (thread : Thread)
  | step (thread : Thread)
deriving DecidableEq

/-- What `set` writes. -/
def message : List Char := ['e', 'v', 'e', 'n', 't', ':', ' ', 's', 'e', 't', '\x00']

/-- The size of the buffer of `reset`, which is that of its text `event: reset`. -/
def bufferSize : Nat := 13

namespace State

variable {Thread : Type} [DecidableEq Thread]

/-- An event that is set at first is set by its constructor. -/
def construct (autoReset initialState : Bool) : State Thread :=
  ⟨none, if initialState then message else [], autoReset, initialState, fun _ => .outside,
    initialState.toNat, 0, 0⟩

def goto (event : State Thread) (thread : Thread) (pc : Pc) : State Thread :=
  { event with places := Function.update event.places thread pc }

def lockMtx (event : State Thread) (thread : Thread) (pc : Pc) : Option (State Thread) :=
  if event.mtx = none then some ({ event with mtx := some thread }.goto thread pc) else none

/-- A thread goes on. A `write` waits for room in the pipe, and a `read` for something to read. -/
def step (capacity : Nat) (event : State Thread) (thread : Thread) : Option (State Thread) :=
  match event.places thread with
  | .outside | .select _ => none
  | .setLock => event.lockMtx thread .setTest
  | .setTest =>
    if event.state then some (event.goto thread .setLeave)
    else some ({ event with state := true }.goto thread .setWrite)
  | .setWrite =>
    if event.pipe.length + message.length ≤ capacity then
      some ({ event with pipe := event.pipe ++ message, written := event.written + 1 }.goto thread .setLeave)
    else none
  | .setLeave => some ({ event with mtx := none }.goto thread .outside)
  | .resetLock waits => event.lockMtx thread (.resetTest waits)
  | .resetTest waits => some (event.goto thread (if event.state then .resetRead waits else .resetClear waits))
  | .resetRead waits =>
    if event.pipe = [] then none
    else some ({ event with pipe := event.pipe.drop bufferSize, read := event.read + 1 }.goto thread (.resetClear waits))
  | .resetClear waits => some ({ event with state := false }.goto thread (.resetLeave waits))
  | .resetLeave waits =>
    some ({ event with mtx := none, returned := event.returned + waits.toNat }.goto thread .outside)

/-- A wait is over, which resets the event or returns. -/
def waited (event : State Thread) (thread : Thread) : State Thread :=
  if event.autoReset then event.goto thread (.resetLock true)
  else { event with returned := event.returned + 1 }.goto thread .outside

def enter (event : State Thread) (thread : Thread) (pc : Pc) : Option (State Thread) :=
  if event.places thread = .outside then some (event.goto thread pc) else none

def next (capacity : Nat) (event : State Thread) : Action Thread → Option (State Thread)
  | .set thread => event.enter thread .setLock
  | .wait thread timed => event.enter thread (.select timed)
  | .reset thread => event.enter thread (.resetLock false)
  | .ready thread =>
    match event.places thread with
    | .select _ => if event.pipe = [] then none else some (event.waited thread)
    | _ => none
  | .timeout thread => if event.places thread = .select true then some (event.goto thread .outside) else none
  | .interrupt thread =>
    match event.places thread with
    | .select timed => some (if timed then event.goto thread .outside else event.waited thread)
    | _ => none
  | .step thread => event.step capacity thread

end State

/-- It has `m_mtx`. -/
def hasLock : Pc → Bool
  | .setTest | .setWrite | .setLeave | .resetTest _ | .resetRead _ | .resetClear _ | .resetLeave _ => true
  | _ => false

namespace State

variable {Thread : Type} [DecidableEq Thread] {event after last : State Thread} {thread other waiter : Thread}
  {pc : Pc} {capacity : Nat} {action : Action Thread} {actions : List (Action Thread)}

/-- The pipe has one message where the flag is set, and else nothing. -/
def Mirrors (event : State Thread) : Prop := event.pipe = if event.state then message else []

/-- What a thread with the mutex relies on. -/
def Placed (event : State Thread) : Pc → Prop
  | .setTest | .setLeave | .resetTest _ | .resetLeave _ => event.Mirrors
  | .setWrite => event.state = true ∧ event.pipe = []
  | .resetRead _ => event.state = true ∧ event.pipe = message
  | .resetClear _ => event.pipe = []
  | _ => True

structure Kept (event : State Thread) : Prop where
  locked : ∀ thread, hasLock (event.places thread) = true ↔ event.mtx = some thread
  placed : ∀ thread, event.Placed (event.places thread)
  free : event.mtx = none → event.Mirrors
  counted : event.written = event.read + if event.pipe = [] then 0 else 1

omit [DecidableEq Thread] in
private theorem kept_construct (autoReset initialState : Bool) :
    (construct autoReset initialState : State Thread).Kept where
  locked := fun _ => by simp [construct, hasLock]
  placed := fun _ => trivial
  free := fun _ => rfl
  counted := by cases initialState <;> rfl

omit [DecidableEq Thread] in
private theorem placed_of_not_lock (without : hasLock pc = false) : event.Placed pc := by
  revert without
  cases pc <;> simp [hasLock, Placed]

section Steps

variable (kept : event.Kept)

include kept

/-- A thread moves without the mutex. -/
private theorem kept_walk {returned : Nat} (was : hasLock (event.places thread) = false)
    (now : hasLock pc = false) : ({ event with returned }.goto thread pc).Kept := by
  refine ⟨fun other => ?_, fun other => ?_, kept.free, kept.counted⟩
  · show hasLock (Function.update event.places thread pc other) = true ↔ _
    rw [view_move hasLock (now.trans was.symm)]
    exact kept.locked other
  · by_cases same : other = thread
    · simp only [goto, same, Function.update_self]
      exact placed_of_not_lock now
    · simp only [goto, Function.update_of_ne same]
      exact kept.placed other

private theorem kept_lock (free : event.mtx = none) (now : hasLock pc = true)
    (placed : event.Mirrors → event.Placed pc) : ({ event with mtx := some thread }.goto thread pc).Kept := by
  have nobody (other : Thread) : hasLock (event.places other) = false := by
    by_contra here
    have := (kept.locked other).mp (eq_true_of_ne_false here)
    rw [free] at this
    cases this
  refine ⟨fun other => ?_, fun other => ?_, fun no => (by cases no), kept.counted⟩
  · by_cases same : other = thread
    · simp [goto, same, now]
    · simp only [goto, Function.update_of_ne same, nobody other, Bool.false_eq_true, false_iff]
      exact fun its => same (Option.some.inj its).symm
  · by_cases same : other = thread
    · simp only [goto, same, Function.update_self]
      exact placed (kept.free free)
    · simp only [goto, Function.update_of_ne same]
      exact placed_of_not_lock (nobody other)

/-- The thread with the mutex changes what it guards, and keeps the mutex or gives it back. -/
private theorem kept_change (has : hasLock (event.places thread) = true) {pipe : List Char} {state : Bool}
    {written read returned : Nat} {mtx : Option Thread}
    (lock : hasLock pc = true ∧ mtx = some thread ∨ hasLock pc = false ∧ mtx = none)
    (placed : Placed { event with pipe, state } pc)
    (free : mtx = none → pipe = if state then message else [])
    (counted : written = read + if pipe = [] then 0 else 1) :
    ({ event with mtx, pipe, state, written, read, returned }.goto thread pc).Kept := by
  have nobody (other : Thread) (apart : other ≠ thread) : hasLock (event.places other) = false := by
    by_contra here
    have its := (kept.locked other).mp (eq_true_of_ne_false here)
    rw [(kept.locked thread).mp has] at its
    exact apart (Option.some.inj its).symm
  refine ⟨fun other => ?_, fun other => ?_, free, counted⟩
  · by_cases same : other = thread
    · rcases lock with ⟨now, rfl⟩ | ⟨now, rfl⟩
      · simp [goto, same, now]
      · simp [goto, same, now]
    · simp only [goto, Function.update_of_ne same, nobody other same]
      refine iff_of_false Bool.false_ne_true ?_
      rcases lock with ⟨_, rfl⟩ | ⟨_, rfl⟩
      · exact fun its => same (Option.some.inj its).symm
      · simp
  · by_cases same : other = thread
    · simp only [goto, same, Function.update_self]
      cases pc <;> exact placed
    · simp only [goto, Function.update_of_ne same]
      exact placed_of_not_lock (nobody other same)

/-- The steps of a thread with the mutex. -/
private theorem kept_step (taken : event.step capacity thread = some after) : after.Kept := by
  have placed := kept.placed thread
  unfold State.step at taken
  cases here : event.places thread <;> simp only [here, Placed] at taken placed
  case outside | select => cases taken
  case setLock =>
    obtain ⟨free, same⟩ := Option.ite_none_right_eq_some.mp taken
    cases same
    exact kept_lock kept free rfl id
  case resetLock waits =>
    obtain ⟨free, same⟩ := Option.ite_none_right_eq_some.mp taken
    cases same
    exact kept_lock kept free rfl id
  all_goals have has : hasLock (event.places thread) = true := by rw [here]; rfl
  all_goals have mine := (kept.locked thread).mp has
  case setTest =>
    split at taken
    · cases taken
      exact kept_change kept has (.inl ⟨rfl, mine⟩) placed (fun no => by cases mine.symm.trans no) kept.counted
    · rename_i unset
      rw [Mirrors, if_neg unset] at placed
      cases taken
      exact kept_change kept has (.inl ⟨rfl, mine⟩) ⟨rfl, placed⟩ (fun no => by cases mine.symm.trans no)
        kept.counted
  case setWrite =>
    obtain ⟨_, same⟩ := Option.ite_none_right_eq_some.mp taken
    cases same
    obtain ⟨set, nothing⟩ := placed
    have counted := kept.counted
    rw [nothing] at counted ⊢
    refine kept_change kept has (.inl ⟨rfl, mine⟩) (by simp [Placed, Mirrors, set])
      (fun no => by cases mine.symm.trans no) ?_
    simp [message] at counted ⊢
    exact counted
  case setLeave =>
    cases taken
    exact kept_change kept has (.inr ⟨rfl, rfl⟩) trivial (fun _ => placed) kept.counted
  case resetTest waits =>
    cases taken
    cases set : event.state with
    | true =>
      rw [Mirrors, set] at placed
      exact kept_change kept has (.inl ⟨rfl, mine⟩) ⟨set, placed⟩ (fun no => by cases mine.symm.trans no) kept.counted
    | false =>
      rw [Mirrors, set] at placed
      exact kept_change kept has (.inl ⟨rfl, mine⟩) placed (fun no => by cases mine.symm.trans no) kept.counted
  case resetRead waits =>
    obtain ⟨_, same⟩ := Option.ite_none_left_eq_some.mp taken
    cases same
    obtain ⟨_, one⟩ := placed
    have counted := kept.counted
    rw [one] at counted ⊢
    exact kept_change kept has (.inl ⟨rfl, mine⟩) rfl (fun no => by cases mine.symm.trans no) counted
  case resetClear waits =>
    cases taken
    exact kept_change kept has (.inl ⟨rfl, mine⟩) placed (fun no => by cases mine.symm.trans no) kept.counted
  case resetLeave waits =>
    cases taken
    exact kept_change kept has (.inr ⟨rfl, rfl⟩) trivial (fun _ => placed) kept.counted

private theorem kept_waited {timed : Bool} (here : event.places thread = .select timed) :
    (event.waited thread).Kept := by
  unfold waited
  split
  · exact kept_walk kept (by rw [here]; rfl) rfl
  · exact kept_walk kept (by rw [here]; rfl) rfl

private theorem Kept.next (taken : event.next capacity action = some after) : after.Kept := by
  have enters {thread : Thread} {pc : Pc} (now : hasLock pc = false) (taken : event.enter thread pc = some after) :
      after.Kept := by
    obtain ⟨here, same⟩ := Option.ite_none_right_eq_some.mp taken
    cases same
    exact kept_walk kept (by rw [here]; rfl) now
  cases action with
  | set thread => exact enters rfl taken
  | wait thread timed => exact enters rfl taken
  | reset thread => exact enters rfl taken
  | ready thread =>
    simp only [State.next] at taken
    split at taken
    · rename_i timed here
      obtain ⟨_, same⟩ := Option.ite_none_left_eq_some.mp taken
      cases same
      exact kept_waited kept here
    · cases taken
  | timeout thread =>
    obtain ⟨here, same⟩ := Option.ite_none_right_eq_some.mp taken
    cases same
    exact kept_walk kept (by rw [here]; rfl) rfl
  | interrupt thread =>
    simp only [State.next] at taken
    split at taken
    · rename_i timed here
      cases timed
      · cases taken
        exact kept_waited kept here
      · cases taken
        exact kept_walk kept (by rw [here]; rfl) rfl
    · cases taken
  | step thread => exact kept_step kept taken

end Steps

/-- The pipe can be read exactly while the flag is set, by one message. No thread waits in `write` or in `read`
while it has the mutex, and every message but that in the pipe has been read. -/
structure Mirrored (capacity : Nat) (event : State Thread) : Prop where
  mirrors : event.mtx = none → event.pipe = if event.state then message else []
  goes : ∀ thread, event.mtx = some thread → (event.next capacity (.step thread)).isSome = true
  counted : event.written = event.read + if event.pipe = [] then 0 else 1

/-- In every run of an event, by any threads, with room for one message in its pipe. -/
theorem mirrored_of_path {autoReset initialState : Bool} (room : message.length ≤ capacity)
    (path : Path (Taken (next capacity)) (construct autoReset initialState) actions last) :
    last.Mirrored capacity := by
  have kept : last.Kept :=
    path.invariant Kept (fun _ _ _ kept taken => kept.next taken) (kept_construct autoReset initialState)
  refine ⟨kept.free, fun thread has => ?_, kept.counted⟩
  have placed := kept.placed thread
  have locks := (kept.locked thread).mpr has
  show (last.step capacity thread).isSome = true
  unfold State.step
  cases here : last.places thread <;> simp only [here, Placed] at placed locks ⊢
  case outside | select | setLock | resetLock => cases locks
  case setTest => split <;> rfl
  case setWrite =>
    rw [if_pos (by rw [placed.2]; simpa using room)]
    rfl
  case resetRead waits =>
    rw [if_neg (by rw [placed.2]; decide)]
    rfl
  all_goals rfl

/-- So many steps of a thread. -/
def goes (thread count : Nat) : List (Action Nat) := List.replicate count (.step thread)

/-- Two waits that have both seen the message of one `set`. The second one reads nothing and returns as well. -/
theorem mirrored_of_path_two_waits :
    let actions := .wait 1 false :: .wait 2 true :: .set 0 :: goes 0 4 ++ .ready 1 :: .ready 2 :: goes 1 5 ++ goes 2 4
    ∃ last : State Nat, Path (Taken (next 512)) (construct true false) actions last ∧ last.Mirrored 512 ∧
      last.written = 1 ∧ last.returned = 2 := by
  intro actions
  have runs : (exec (next 512) (construct true false) actions).map (fun last =>
      decide (last.written = 1 ∧ last.returned = 2)) = some true := by
    decide
  obtain ⟨last, run, decided⟩ := Option.map_eq_some_iff.mp runs
  have path := exec_eq_some_iff.mp run
  exact ⟨last, path, mirrored_of_path (by decide) path, of_decide_eq_true decided⟩

/-- One thread waits, and nothing but its waits resets the event. -/
def Allowed (waiter : Thread) : Action Thread → Prop
  | .wait thread _ => thread = waiter
  | .reset _ | .interrupt _ => False
  | _ => True

instance (waiter : Thread) (action : Action Thread) : Decidable (Allowed waiter action) := by
  induction action using Action.casesOn <;> unfold Allowed <;> infer_instance

/-- In a wait. -/
def isWaiting : Pc → Bool
  | .select _ | .resetLock true | .resetTest true | .resetRead true | .resetClear true | .resetLeave true => true
  | _ => false

/-- In a `reset` that is not that of a wait. -/
def isReset : Pc → Bool
  | .resetLock false | .resetTest false | .resetRead false | .resetClear false | .resetLeave false => true
  | _ => false

/-- A wait that has seen the message and has not yet read it. -/
def isPending : Pc → Bool
  | .resetLock _ | .resetTest _ | .resetRead _ => true
  | _ => false

/-- A wait that has read the message and has not yet returned. -/
def inHand : Pc → Bool
  | .resetClear _ | .resetLeave _ => true
  | _ => false

/-- The messages go one by one to the waits of a thread. -/
structure HandsOver (waiter : Thread) (event : State Thread) : Prop where
  auto : event.autoReset = true
  only : ∀ thread, isWaiting (event.places thread) = true → thread = waiter
  plain : ∀ thread, isReset (event.places thread) = false
  pending : isPending (event.places waiter) = true → event.pipe ≠ []
  counted : event.read = event.returned + (inHand (event.places waiter)).toNat

/-- A thread that sets the event moves, and the pipe has what it had. -/
private theorem HandsOver.set (hands : event.HandsOver waiter)
    (was : isWaiting (event.places thread) = false) (now : isWaiting pc = false ∧ isReset pc = false)
    (places : after.places = Function.update event.places thread pc)
    (same : after.autoReset = event.autoReset ∧ after.read = event.read ∧ after.returned = event.returned)
    (kept : event.pipe ≠ [] → after.pipe ≠ []) : after.HandsOver waiter := by
  obtain ⟨auto, read, returned⟩ := same
  have plain (other : Thread) : isReset (after.places other) = false := by
    rw [places]
    by_cases here : other = thread
    · rw [here, Function.update_self]
      exact now.2
    · rw [Function.update_of_ne here]
      exact hands.plain other
  have outside {place : Pc} (no : isWaiting place = false) (none : isReset place = false) :
      isPending place = false ∧ inHand place = false := by
    revert no none
    cases place with
    | resetLock waits | resetTest waits | resetRead waits | resetClear waits | resetLeave waits =>
      cases waits <;> decide
    | select timed => exact fun no => by cases no
    | _ => decide
  refine ⟨auto.trans hands.auto, fun other => ?_, plain, ?_, ?_⟩
  · rw [places]
    by_cases here : other = thread
    · rw [here, Function.update_self, now.1]
      exact fun no => by cases no
    · rw [Function.update_of_ne here]
      exact hands.only other
  · rw [places]
    by_cases here : waiter = thread
    · rw [here, Function.update_self, (outside now.1 now.2).1]
      exact fun no => by cases no
    · rw [Function.update_of_ne here]
      exact fun pending => kept (hands.pending pending)
  · rw [read, returned, places, hands.counted]
    by_cases here : waiter = thread
    · rw [here, Function.update_self, (outside now.1 now.2).2, (outside was (hands.plain thread)).2]
    · rw [Function.update_of_ne here]

/-- The thread that waits moves. -/
private theorem HandsOver.wait (hands : event.HandsOver waiter)
    (now : isReset pc = false) (places : after.places = Function.update event.places waiter pc)
    (auto : after.autoReset = event.autoReset) (pending : isPending pc = true → after.pipe ≠ [])
    (counted : after.read = after.returned + (inHand pc).toNat) : after.HandsOver waiter := by
  refine ⟨auto.trans hands.auto, fun other => ?_, fun other => ?_, ?_, ?_⟩
  · rw [places]
    by_cases here : other = waiter
    · exact fun _ => here
    · rw [Function.update_of_ne here]
      exact hands.only other
  · rw [places]
    by_cases here : other = waiter
    · rw [here, Function.update_self]
      exact now
    · rw [Function.update_of_ne here]
      exact hands.plain other
  · rw [places, Function.update_self]
    exact pending
  · rw [places, Function.update_self]
    exact counted

private theorem HandsOver.step (hands : event.HandsOver waiter) (kept : event.Kept)
    (taken : event.step capacity thread = some after) : after.HandsOver waiter := by
  have placed := kept.placed thread
  have plain := hands.plain thread
  have only := hands.only thread
  unfold State.step at taken
  cases here : event.places thread <;> simp only [here, Placed] at taken placed plain only
  case outside | select => cases taken
  case setLock =>
    obtain ⟨_, same⟩ := Option.ite_none_right_eq_some.mp taken
    cases same
    exact hands.set (by rw [here]; rfl) ⟨rfl, rfl⟩ rfl ⟨rfl, rfl, rfl⟩ id
  case setTest =>
    split at taken <;> cases taken
    · exact hands.set (by rw [here]; rfl) ⟨rfl, rfl⟩ rfl ⟨rfl, rfl, rfl⟩ id
    · exact hands.set (by rw [here]; rfl) ⟨rfl, rfl⟩ rfl ⟨rfl, rfl, rfl⟩ id
  case setWrite =>
    obtain ⟨_, same⟩ := Option.ite_none_right_eq_some.mp taken
    cases same
    refine hands.set (by rw [here]; rfl) ⟨rfl, rfl⟩ rfl ⟨rfl, rfl, rfl⟩ fun _ => ?_
    simp [goto, message]
  case setLeave =>
    cases taken
    exact hands.set (by rw [here]; rfl) ⟨rfl, rfl⟩ rfl ⟨rfl, rfl, rfl⟩ id
  all_goals
    rename_i flag
    obtain rfl : flag = true := by
      cases flag
      · cases plain
      · rfl
    obtain rfl := only rfl
    have counted := hands.counted
    have pending := hands.pending
    simp only [here] at counted pending
  case resetLock =>
    obtain ⟨_, same⟩ := Option.ite_none_right_eq_some.mp taken
    cases same
    exact hands.wait rfl rfl rfl (fun _ => pending rfl) counted
  case resetTest =>
    have set : event.state = true := by
      by_contra unset
      rw [Mirrors, if_neg unset] at placed
      exact pending rfl placed
    rw [set] at taken
    cases taken
    exact hands.wait rfl rfl rfl (fun _ => pending rfl) counted
  case resetRead =>
    obtain ⟨_, same⟩ := Option.ite_none_left_eq_some.mp taken
    cases same
    refine hands.wait rfl rfl rfl (fun no => by cases no) ?_
    simp only [goto, counted]
    rfl
  case resetClear =>
    cases taken
    exact hands.wait rfl rfl rfl (fun no => by cases no) counted
  case resetLeave =>
    cases taken
    exact hands.wait rfl rfl rfl (fun no => by cases no) counted

private theorem HandsOver.next (hands : event.HandsOver waiter) (kept : event.Kept)
    (allowed : Allowed waiter action) (taken : event.next capacity action = some after) :
    after.HandsOver waiter := by
  cases action with
  | set thread =>
    obtain ⟨here, same⟩ := Option.ite_none_right_eq_some.mp taken
    cases same
    exact hands.set (by rw [here]; rfl) ⟨rfl, rfl⟩ rfl ⟨rfl, rfl, rfl⟩ id
  | wait thread timed =>
    obtain rfl : thread = waiter := allowed
    obtain ⟨here, same⟩ := Option.ite_none_right_eq_some.mp taken
    cases same
    have counted := hands.counted
    rw [here] at counted
    exact hands.wait rfl rfl rfl (fun no => by cases no) counted
  | reset thread | interrupt thread => exact allowed.elim
  | ready thread =>
    simp only [State.next] at taken
    split at taken
    · rename_i timed here
      obtain ⟨some', same⟩ := Option.ite_none_left_eq_some.mp taken
      cases same
      obtain rfl := hands.only thread (by rw [here]; rfl)
      have counted := hands.counted
      rw [here] at counted
      rw [waited, if_pos hands.auto]
      exact hands.wait rfl rfl rfl (fun _ => some') counted
    · cases taken
  | timeout thread =>
    obtain ⟨here, same⟩ := Option.ite_none_right_eq_some.mp taken
    cases same
    obtain rfl := hands.only thread (by rw [here]; rfl)
    have counted := hands.counted
    rw [here] at counted
    exact hands.wait rfl rfl rfl (fun no => by cases no) counted
  | step thread => exact hands.step kept taken

/-- Where one thread waits for an event that resets itself, each wait that has returned has taken one message,
and what no wait has taken is still in the pipe: no `set` is lost, and none ends two waits. -/
theorem written_eq_of_path {initialState : Bool}
    (path : Path (Taken (next capacity)) (construct true initialState) actions last)
    (allowed : ∀ action ∈ actions, Allowed waiter action) :
    last.written = last.returned + (inHand (last.places waiter)).toNat + (if last.pipe = [] then 0 else 1) ∧
      (isPending (last.places waiter) = true → last.pipe ≠ []) := by
  have both := (path.guard allowed).invariant (fun event : State Thread => event.Kept ∧ event.HandsOver waiter)
    (fun before action after kept step => ?_) ⟨kept_construct true initialState, ?_⟩
  · rw [both.1.counted, both.2.counted]
    exact ⟨rfl, both.2.pending⟩
  · exact ⟨kept.1.next step.2, kept.2.next kept.1 step.1 step.2⟩
  · exact ⟨rfl, fun _ no => (by cases no), fun _ => rfl, fun no => (by cases no), rfl⟩

/-- A thread sets the event three times, twice before it is waited for. -/
theorem written_eq_of_path_three_sets :
    let actions := .set 0 :: goes 0 4 ++ .set 0 :: goes 0 3 ++ .wait 1 true :: .ready 1 :: goes 1 5 ++
      .set 0 :: goes 0 4 ++ [.wait 1 false]
    ∃ last : State Nat, Path (Taken (next 512)) (construct true false) actions last ∧ last.returned = 1 ∧
      last.written = last.returned + (inHand (last.places 1)).toNat + (if last.pipe = [] then 0 else 1) ∧
      (isPending (last.places 1) = true → last.pipe ≠ []) := by
  intro actions
  have runs : (exec (next 512) (construct true false) actions).map (fun last => decide (last.returned = 1)) =
      some true := by
    decide
  obtain ⟨last, run, decided⟩ := Option.map_eq_some_iff.mp runs
  have path := exec_eq_some_iff.mp run
  exact ⟨last, path, of_decide_eq_true decided, written_eq_of_path path (by decide)⟩

end State

end BTool.Sync.Event
