import BTool.Foundation.Monitor
import BTool.Foundation.Transition
import BTool.Sync.RecursiveMutex

/-! When the recursive mutex keeps to its law: it is had by one thread at most, and free after as many unlocks
of this as it has locked it. -/

namespace BTool.Sync

open BTool.Foundation BTool.Foundation.Path

variable {Thread : Type} [DecidableEq Thread]

namespace State

variable {state after : State Thread} {thread other : Thread} {pc : Pc}

/-- The mutex is locked where its count is positive, which is by one thread, as often as this has locked it
and not yet unlocked. -/
structure Holds (state : State Thread) : Prop where
  running : state.running = true
  le : ∀ thread, state.unlocks thread ≤ state.locks thread
  alone : ∀ thread other, state.unlocks thread < state.locks thread → state.unlocks other < state.locks other →
    thread = other
  locked_iff : state.mutex.locked = true ↔ 0 < state.mutex.count
  owned : state.mutex.locked = true → ∃ thread, state.mutex.tid = some thread ∧
    state.unlocks thread < state.locks thread ∧
    state.mutex.count = state.locks thread - state.unlocks thread
  free : state.mutex.locked = false → state.mutex.count = 0 ∧ ∀ thread, state.unlocks thread = state.locks thread

/-- A count does not leave an `int`, and goes down by the owner. -/
def Fine (state : State Thread) : Action Thread → Prop
  | .step thread =>
    match state.places thread with
    | .again => FitsInt (state.mutex.count + 1)
    | .count => state.mutex.Mine thread
    | _ => True
  | _ => True

section Law

omit [DecidableEq Thread]

theorem holds_of_owner (running : state.running = true) (locked : state.mutex.locked = true)
    (owner : state.mutex.tid = some thread) (has : state.unlocks thread < state.locks thread)
    (count : state.mutex.count = state.locks thread - state.unlocks thread)
    (others : ∀ other, other ≠ thread → state.unlocks other = state.locks other) : state.Holds where
  running := running
  le := by
    intro other
    by_cases same : other = thread
    · rw [same]
      exact Nat.le_of_lt has
    · exact Nat.le_of_eq (others other same)
  alone := by
    have only (other : Thread) (its : state.unlocks other < state.locks other) : other = thread := by
      by_contra apart
      exact Nat.ne_of_lt its (others other apart)
    intro first second hasFirst hasSecond
    rw [only first hasFirst, only second hasSecond]
  locked_iff := iff_of_true locked (by omega)
  owned := fun _ => ⟨thread, owner, has, count⟩
  free := fun free => absurd (locked.symm.trans free) nofun

theorem holds_of_free (running : state.running = true) (free : state.mutex.locked = false)
    (count : state.mutex.count = 0) (all : ∀ thread, state.unlocks thread = state.locks thread) : state.Holds where
  running := running
  le := fun thread => Nat.le_of_eq (all thread)
  alone := fun thread _ has => absurd (all thread) (Nat.ne_of_lt has)
  locked_iff := by
    rw [free, count]
    decide
  owned := fun locked => absurd (locked.symm.trans free) nofun
  free := fun _ => ⟨count, all⟩

variable (holds : state.Holds)

include holds

theorem Holds.mine_iff : state.mutex.Mine thread ↔ state.unlocks thread < state.locks thread := by
  constructor
  · rintro ⟨locked, isOwner⟩
    obtain ⟨owner, same, has, _⟩ := holds.owned locked
    obtain rfl := Option.some.inj (same.symm.trans isOwner)
    exact has
  · intro has
    cases locked : state.mutex.locked with
    | false => exact absurd ((holds.free locked).2 thread) (Nat.ne_of_lt has)
    | true =>
      obtain ⟨owner, same, its, _⟩ := holds.owned locked
      exact ⟨locked, by rw [same, holds.alone owner thread its has]⟩

theorem Holds.count_eq (mine : state.mutex.Mine thread) :
    state.mutex.count = state.locks thread - state.unlocks thread := by
  obtain ⟨owner, same, _, count⟩ := holds.owned mine.1
  obtain rfl := Option.some.inj (same.symm.trans mine.2)
  exact count

theorem Holds.others (mine : state.mutex.Mine thread) (apart : other ≠ thread) :
    state.unlocks other = state.locks other := by
  have has := holds.mine_iff.mp mine
  refine Nat.le_antisymm (holds.le other) (Nat.le_of_not_lt fun its => apart ?_)
  exact holds.alone other thread its has

/-- What no field of the law is about may change. -/
theorem Holds.same (mtx : Option Thread) (unlocked : CondVar Thread) (places : Thread → Pc) :
    Holds { state with mutex := { state.mutex with mtx, unlocked }, places } :=
  ⟨holds.running, holds.le, holds.alone, holds.locked_iff, holds.owned, holds.free⟩

end Law

omit [DecidableEq Thread] in
theorem not_holds_fault : ¬ state.fault.Holds := fun holds => Bool.false_ne_true holds.running

section Updates

variable (holds : state.Holds)

include holds

/-- Another lock of the owner is counted where the count stays within an `int`. -/
theorem Holds.again_iff (mine : state.mutex.Mine thread) :
    (state.again thread).Holds ↔ FitsInt (state.mutex.count + 1) := by
  have has := holds.mine_iff.mp mine
  have count := holds.count_eq mine
  unfold State.again
  by_cases fits : FitsInt (state.mutex.count + 1)
  · rw [checkInt_eq fits]
    refine iff_of_true (holds_of_owner holds.running mine.1 mine.2 ?_ ?_ fun other apart => ?_) fits
    · simp only [goto, Function.update_self]
      omega
    · simp only [goto, Function.update_self]
      omega
    · simp only [goto, Function.update_of_ne apart]
      exact holds.others mine apart
  · rw [checkInt, if_neg fits]
    exact iff_of_false not_holds_fault fits

theorem Holds.take (isFree : state.mutex.locked = false) : (state.take thread).Holds := by
  obtain ⟨_, all⟩ := holds.free isFree
  refine holds_of_owner holds.running rfl rfl ?_ ?_ fun other apart => ?_
  · simp only [State.take, goto, Function.update_self, all thread]
    omega
  · simp only [State.take, goto, Function.update_self, all thread]
    omega
  · simp only [State.take, goto, Function.update_of_ne apart]
    exact all other

theorem Holds.countDown (mine : state.mutex.Mine thread) (fits : FitsInt state.mutex.count) :
    (state.countDown thread).Holds := by
  have has := holds.mine_iff.mp mine
  have count := holds.count_eq mine
  have less : FitsInt (state.mutex.count - 1) := by
    unfold FitsInt at *
    omega
  unfold State.countDown
  rw [checkInt_eq less]
  by_cases last : state.mutex.count - 1 = 0
  · refine holds_of_free holds.running ?_ last fun other => ?_
    · simp only [goto, last]
      exact Bool.and_false _
    · simp only [goto, if_pos has]
      by_cases same : other = thread
      · subst same
        rw [Function.update_self]
        omega
      · rw [Function.update_of_ne same]
        exact holds.others mine same
  · refine holds_of_owner holds.running ?_ mine.2 ?_ ?_ fun other apart => ?_
    · simpa [goto, mine.1] using last
    · simp only [goto, if_pos has, Function.update_self]
      omega
    · simp only [goto, if_pos has, Function.update_self]
      omega
    · simp only [goto, if_pos has, Function.update_of_ne apart]
      exact holds.others mine apart

/-- A thread that is not the owner makes the count wrong, which is then not what the owner has. -/
theorem Holds.not_countDown (other : ¬ state.mutex.Mine thread) : ¬ (state.countDown thread).Holds := by
  have nothing := fun has => other (holds.mine_iff.mpr has)
  unfold State.countDown
  cases checked : checkInt (state.mutex.count - 1) with
  | none => exact not_holds_fault
  | some count =>
    obtain ⟨_, rfl⟩ := checkInt_eq_some.mp checked
    intro after
    cases locked : state.mutex.locked with
    | false =>
      have zero := (holds.free locked).1
      have below := (after.free (by simp [goto, locked])).1
      simp only [goto] at below
      omega
    | true =>
      obtain ⟨owner, _, has, _⟩ := holds.owned locked
      have mine := after.mine_iff.mpr (by simpa only [goto, if_neg nothing] using has)
      have before := holds.count_eq (holds.mine_iff.mpr has)
      have now := after.count_eq mine
      simp only [goto, if_neg nothing] at now
      omega

end Updates

/-- Sleepers of the condition variable. -/
def isAsleep : Pc → Bool
  | .asleep => true
  | _ => false

/-- What a thread at a place relies on. Only the count goes down without `m_mtx`, by a thread that is not
the owner. -/
def Placed (mutex : Mutex Thread) (thread : Thread) : Pc → Prop
  | .test _ | .look | .signal | .leave _ => mutex.mtx = some thread
  | .again => mutex.mtx = some thread ∧ mutex.Mine thread
  | .take => mutex.mtx = some thread ∧ mutex.locked = false
  | .count => mutex.mtx = some thread ∨ ¬ mutex.Mine thread
  | .outside | .entry _ | .asleep | .woken => True

/-- The places of the threads fit the mutex. -/
structure Fits (state : State Thread) : Prop where
  placed : ∀ thread, Placed state.mutex thread (state.places thread)
  seated : Seated state.mutex.unlocked isAsleep state.places
  count : FitsInt state.mutex.count

section Places

variable {mutex changed : Mutex Thread}

omit [DecidableEq Thread] in
/-- A thread without `m_mtx` relies on nothing but that it does not become the owner. -/
theorem Placed.change (placed : Placed mutex other pc) (without : mutex.mtx ≠ some other)
    (mine : changed.Mine other → mutex.Mine other) : Placed changed other pc := by
  cases pc with
  | test | look | signal | leave => exact absurd placed without
  | again | take => exact absurd placed.1 without
  | count => exact .inr fun its => placed.resolve_left without (mine its)
  | outside | entry | asleep | woken => trivial

omit [DecidableEq Thread] in
theorem Fits.placedAt (fits : state.Fits) (here : state.places thread = pc) : Placed state.mutex thread pc :=
  here ▸ fits.placed thread

/-- A thread goes on while the mutex stays as it is. -/
theorem Fits.goto (fits : state.Fits) (placed : Placed state.mutex thread pc)
    (was : isAsleep (state.places thread) = false) (now : isAsleep pc = false) : (state.goto thread pc).Fits where
  placed := by
    intro other
    by_cases same : other = thread
    · subst same
      simpa [State.goto] using placed
    · simpa [State.goto, Function.update_of_ne same] using fits.placed other
  seated := fits.seated.keep was now
  count := fits.count

/-- A thread changes the mutex that it has, or gets or had. -/
theorem Fits.change (fits : state.Fits) (only : ∀ other, other ≠ thread → state.mutex.mtx ≠ some other)
    (mutex : after.mutex = changed) (places : after.places = Function.update state.places thread pc)
    (placed : Placed changed thread pc) (mine : ∀ other, other ≠ thread → changed.Mine other → state.mutex.Mine other)
    (seated : Seated changed.unlocked isAsleep after.places) (count : FitsInt changed.count) : after.Fits where
  placed := by
    subst mutex
    intro other
    rw [places]
    by_cases same : other = thread
    · subst same
      rwa [Function.update_self]
    · rw [Function.update_of_ne same]
      exact (fits.placed other).change (only other same) (mine other same)
  seated := mutex ▸ seated
  count := mutex ▸ count

omit [DecidableEq Thread] in
theorem only_of_mtx (has : state.mutex.mtx = some thread) :
    ∀ other, other ≠ thread → state.mutex.mtx ≠ some other := by
  intro other apart its
  exact apart (Option.some.inj (its.symm.trans has))

omit [DecidableEq Thread] in
theorem only_of_free (free : state.mutex.mtx = none) :
    ∀ other, other ≠ thread → state.mutex.mtx ≠ some other := by
  rw [free]
  exact fun _ _ => nofun

end Places

section Steps

variable (holds : state.Holds) (fits : state.Fits)

include holds fits

theorem kept_goto (placed : Placed state.mutex thread pc) (was : isAsleep (state.places thread) = false)
    (now : isAsleep pc = false) : (state.goto thread pc).Holds ∧ (state.goto thread pc).Fits :=
  ⟨holds.same _ _ _, fits.goto placed was now⟩

theorem kept_lockMtx (taken : state.lockMtx thread pc = some after)
    (placed : Placed { state.mutex with mtx := some thread } thread pc)
    (was : isAsleep (state.places thread) = false) (now : isAsleep pc = false) : after.Holds ∧ after.Fits := by
  unfold lockMtx at taken
  split at taken
  next free =>
    cases taken
    exact ⟨holds.same _ _ _, fits.change (only_of_free free) rfl rfl placed (fun _ _ => id)
      (fits.seated.keep was now) fits.count⟩
  next => cases taken

/-- `m_mtx` is given back. -/
theorem kept_release (has : state.mutex.mtx = some thread) (placed : Placed { state.mutex with mtx := none } thread pc)
    (was : isAsleep (state.places thread) = false) (now : isAsleep pc = false) :
    ((state.withMtx none).goto thread pc).Holds ∧ ((state.withMtx none).goto thread pc).Fits :=
  ⟨holds.same _ _ _, fits.change (only_of_mtx has) rfl rfl placed (fun _ _ => id) (fits.seated.keep was now)
    fits.count⟩

theorem kept_test {call : Call} (here : state.places thread = .test call) :
    (state.test thread call).Holds ∧ (state.test thread call).Fits := by
  have has : state.mutex.mtx = some thread := fits.placedAt here
  have was : isAsleep (state.places thread) = false := by rw [here]; rfl
  cases call with
  | lock =>
    rw [test]
    by_cases mine : state.mutex.Mine thread
    · rw [if_pos mine]
      exact kept_goto holds fits ⟨has, mine⟩ was rfl
    · rw [if_neg mine]
      exact kept_goto holds fits has was rfl
  | trylock =>
    rw [test]
    by_cases mine : state.mutex.Mine thread
    · rw [if_pos mine]
      exact kept_goto holds fits ⟨has, mine⟩ was rfl
    · rw [if_neg mine]
      split
      next locked => exact kept_goto holds fits has was rfl
      next free => exact kept_goto holds fits ⟨has, Bool.eq_false_iff.mpr free⟩ was rfl
  | unlock =>
    rw [test]
    split
    next wrong => exact kept_release holds fits has (.inr fun mine => wrong.2 mine.2) was rfl
    next right => exact kept_goto holds fits (.inl has) was rfl

theorem kept_again (here : state.places thread = .again) :
    ((state.again thread).Holds ↔ FitsInt (state.mutex.count + 1)) ∧
      ((state.again thread).Holds → (state.again thread).Fits) := by
  obtain ⟨has, mine⟩ := fits.placedAt here
  have same := holds.again_iff mine
  refine ⟨same, fun after => ?_⟩
  have count := same.mp after
  unfold again
  rw [checkInt_eq count]
  exact fits.change (only_of_mtx has) rfl rfl has (fun _ _ => id)
    (fits.seated.keep (by rw [here]; rfl) rfl) count

theorem kept_look (here : state.places thread = .look) : (state.look thread).Holds ∧ (state.look thread).Fits := by
  have has : state.mutex.mtx = some thread := fits.placedAt here
  unfold look
  split
  next locked =>
    exact ⟨holds.same _ _ _, fits.change (only_of_mtx has) rfl rfl trivial (fun _ _ => id)
      (fits.seated.wait rfl) fits.count⟩
  next free =>
    exact kept_goto holds fits ⟨has, Bool.eq_false_iff.mpr free⟩ (by rw [here]; rfl) rfl

theorem kept_take (here : state.places thread = .take) : (state.take thread).Holds ∧ (state.take thread).Fits := by
  obtain ⟨has, free⟩ := fits.placedAt here
  have one : FitsInt 1 := by decide
  refine ⟨holds.take free, fits.change (only_of_mtx has) rfl rfl has (fun other apart its => ?_)
    (fits.seated.keep (by rw [here]; rfl) rfl) one⟩
  exact absurd (Option.some.inj its.2).symm apart

theorem kept_countDown (here : state.places thread = .count) :
    ((state.countDown thread).Holds ↔ state.mutex.Mine thread) ∧
      ((state.countDown thread).Holds → (state.countDown thread).Fits) := by
  have placed : state.mutex.mtx = some thread ∨ ¬ state.mutex.Mine thread := fits.placedAt here
  have same : (state.countDown thread).Holds ↔ state.mutex.Mine thread :=
    ⟨fun after => by_contra fun other => holds.not_countDown other after, fun mine => holds.countDown mine fits.count⟩
  refine ⟨same, fun after => ?_⟩
  have mine := same.mp after
  have has := placed.resolve_right (not_not_intro mine)
  have was : isAsleep (state.places thread) = false := by rw [here]; rfl
  unfold countDown at after ⊢
  by_cases less : FitsInt (state.mutex.count - 1)
  · rw [checkInt_eq less]
    by_cases last : state.mutex.count - 1 = 0
    · simp only [if_pos last]
      exact fits.change (only_of_mtx has) rfl rfl has (fun other _ its => ⟨mine.1, its.2⟩)
        (fits.seated.keep was rfl) less
    · simp only [if_neg last]
      exact fits.change (only_of_mtx has) rfl rfl has (fun other _ its => ⟨mine.1, its.2⟩)
        (fits.seated.keep was rfl) less
  · rw [checkInt, if_neg less] at after
    exact absurd after not_holds_fault

theorem kept_leave {ret : Bool} (here : state.places thread = .leave ret) :
    (state.leave thread).Holds ∧ (state.leave thread).Fits := by
  have has : state.mutex.mtx = some thread := fits.placedAt here
  rw [leave, if_pos has]
  exact kept_release holds fits has trivial (by rw [here]; rfl) rfl

/-- A sleeper gets up, and does not have `m_mtx` yet. -/
theorem kept_wake {unlocked : CondVar Thread} (woken : unlocked.waiters = state.mutex.unlocked.waiters.erase thread) :
    ({ state with mutex := { state.mutex with unlocked } }.goto thread .woken).Holds ∧
      ({ state with mutex := { state.mutex with unlocked } }.goto thread .woken).Fits := by
  refine ⟨holds.same _ _ _, fun other => ?_, fits.seated.wake woken rfl, fits.count⟩
  by_cases same : other = thread
  · subst same
    simp only [goto, Function.update_self]
    trivial
  · have placed := fits.placed other
    simp only [goto, Function.update_of_ne same]
    revert placed
    cases state.places other <;> exact id

theorem kept_signal {woken : Option Thread} {unlocked : CondVar Thread} (here : state.places thread = .signal)
    (notified : state.mutex.unlocked.notifyOne woken = some unlocked) :
    let signalled := { state with mutex := { state.mutex with unlocked } }.goto thread (.leave true)
    (woken.elim signalled (signalled.goto · .woken)).Holds ∧ (woken.elim signalled (signalled.goto · .woken)).Fits := by
  have has : state.mutex.mtx = some thread := fits.placedAt here
  obtain ⟨left, placed⟩ := @kept_goto _ _ _ thread (.leave true) holds fits has (by rw [here]; rfl) rfl
  rcases CondVar.notifyOne_cases notified with ⟨rfl, _, rfl⟩ | ⟨sleeper, rfl, _, erased⟩
  · exact ⟨left, placed⟩
  · exact kept_wake left placed erased

omit [DecidableEq Thread] holds fits in
theorem always (both : after.Holds ∧ after.Fits) : (after.Holds ↔ True) ∧ (after.Holds → after.Fits) :=
  ⟨iff_of_true both.1 trivial, fun _ => both.2⟩

/-- Every step keeps the law, but a count that leaves an `int`, and one that goes down by another thread than
the owner. -/
theorem exact_step {action : Action Thread} (taken : state.next action = some after) :
    (after.Holds ↔ state.Fine action) ∧ (after.Holds → after.Fits) := by
  unfold State.next at taken
  rw [if_pos holds.running] at taken
  cases action with
  | call thread call =>
    obtain ⟨here, same⟩ := Option.ite_none_right_eq_some.mp taken
    obtain rfl := Option.some.inj same
    exact always (kept_goto holds fits (trivial : Placed state.mutex thread (.entry call)) (by rw [here]; rfl) rfl)
  | signal thread woken =>
    obtain ⟨here, same⟩ := Option.ite_none_right_eq_some.mp taken
    obtain ⟨unlocked, notified, rfl⟩ := Option.map_eq_some_iff.mp same
    exact always (kept_signal holds fits here notified)
  | wake thread =>
    obtain ⟨unlocked, notified, rfl⟩ := Option.map_eq_some_iff.mp taken
    rcases CondVar.notifyOne_cases notified with ⟨none, _⟩ | ⟨sleeper, same, _, erased⟩
    · cases none
    · obtain rfl := Option.some.inj same
      exact always (kept_wake holds fits erased)
  | step thread =>
    change state.step thread = some after at taken
    unfold State.step at taken
    simp only [Fine]
    cases here : state.places thread <;> rw [here] at taken
    case outside | asleep | signal => cases taken
    case entry call => exact always (kept_lockMtx holds fits taken rfl (by rw [here]; rfl) rfl)
    case woken => exact always (kept_lockMtx holds fits taken rfl (by rw [here]; rfl) rfl)
    all_goals obtain rfl := Option.some.inj taken
    case test call => exact always (kept_test holds fits here)
    case again => exact kept_again holds fits here
    case look => exact always (kept_look holds fits here)
    case take => exact always (kept_take holds fits here)
    case count => exact kept_countDown holds fits here
    case leave ret => exact always (kept_leave holds fits here)

end Steps

/-- In every run the mutex keeps to its law, exactly if no count leaves an `int` and every count that goes down
is that of the owner: `unlock` is called by nobody else. -/
theorem recursive_law_iff {actions : List (Action Thread)} {last : State Thread}
    (path : Path (Taken next) init actions last) :
    (∀ state, Visits (Taken next) init actions state → state.Holds) ↔
      ∀ state action, Takes (Taken next) init actions state action → state.Fine action := by
  refine path.visits_iff_all_takes Fits (fun _ _ _ fits holds taken => exact_step holds fits taken) ?_ ?_
  · exact holds_of_free rfl rfl rfl fun _ => rfl
  · exact ⟨fun _ => trivial, fun _ => iff_of_false (Finset.notMem_empty _) nofun, (by decide : FitsInt 0)⟩

/-- The steps of a thread that does a call, and no more of it than so many. -/
def calls (thread : Nat) (call : Call) (steps : Nat) : List (Action Nat) :=
  .call thread call :: List.replicate steps (.step thread)

/-- A thread locks the mutex twice and unlocks it twice, while another one tries to lock it. -/
theorem recursive_law_iff_twice :
    let actions := calls 0 .lock 5 ++ calls 0 .lock 4 ++ calls 1 .trylock 3 ++ calls 0 .unlock 4 ++
      calls 0 .unlock 3 ++ [.signal 0 none, .step 0]
    (∀ state, Visits (Taken next) init actions state → state.Holds) ↔
      ∀ state action, Takes (Taken next) init actions state action → state.Fine action := by
  intro actions
  have runs : (exec next init actions).isSome := by decide
  obtain ⟨last, run⟩ := Option.isSome_iff_exists.mp runs
  exact recursive_law_iff (exec_eq_some_iff.mp run)

/-- One thread has locked the mutex, another one unlocks it, and a third one gets it as well. -/
theorem not_recursive_law : ¬ ∀ (actions : List (Action Nat)) (last : State Nat),
    Path (Taken next) init actions last → ∀ thread other, last.unlocks thread < last.locks thread →
      last.unlocks other < last.locks other → thread = other := by
  intro always
  let actions := calls 0 .lock 5 ++ calls 1 .unlock 3 ++ calls 2 .trylock 3
  have both : (exec next init actions).map (fun state =>
      decide (state.unlocks 0 < state.locks 0) && decide (state.unlocks 2 < state.locks 2)) = some true := by
    decide
  obtain ⟨last, run, has⟩ := Option.map_eq_some_iff.mp both
  rw [Bool.and_eq_true, decide_eq_true_iff, decide_eq_true_iff] at has
  exact absurd (always actions last (exec_eq_some_iff.mp run) 0 2 has.1 has.2) (by decide)

end State

end BTool.Sync
