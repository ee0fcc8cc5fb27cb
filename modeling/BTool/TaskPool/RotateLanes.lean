import BTool.TaskPool.RotateIndex
import BTool.TaskPool.SoleWorker

/-! The inner pools of a `RotateSerialTaskPool` as lanes: what a property has been given goes
through one queue, to one worker, in the order in which it was enqueued. -/

namespace BTool.TaskPool.RotateSerialTaskPool

open AtomicSwitch BTool.Foundation BTool.TaskQueue BTool.TaskQueue.ParallelTaskQueue ParallelTaskPool

variable {P F C : Type}

/-- One thread may call `stop(true)`; the other calls are those of `add_task`. -/
def Action.Graceful (stopper : C) : Action P F C → Prop
  | .call who (.stop bwait) => who = stopper ∧ bwait = true
  | .call _ (.start _) => False
  | .call _ (.resetThreadNum _) => False
  | _ => True

instance [DecidableEq C] (stopper : C) (action : Action P F C) : Decidable (action.Graceful stopper) := by
  rcases action with ⟨caller, _ | _ | _ | _⟩ | _ | _ | _ | _ <;> unfold Action.Graceful <;> infer_instance

namespace CallerPc

/-- The task of a call of `add_task`. -/
def entry : CallerPc P F → Option (Entry P F)
  | .lockShared entry => some entry
  | .addTest entry _ => some entry
  | .getThreadIndex entry => some entry
  | .addTask _ entry => some entry
  | .addingTask _ entry => some entry
  | _ => none

/-- The inner pool in which a call goes on. -/
def inside : CallerPc P F → Option Nat
  | .addingTask index _ => some index
  | .deletingPool _ index => some index
  | _ => none

/-- In no `start` or `stop`. -/
def resting : CallerPc P F → Bool
  | .idle => true
  | .lockShared _ => true
  | .addTest _ _ => true
  | .getThreadIndex _ => true
  | .addTask _ _ => true
  | .addingTask _ _ => true
  | _ => false

end CallerPc

/-- The tasks of the properties of an inner pool. -/
def homed (propIndex : P → Option Nat) (index : Nat) (entries : List (Entry P F)) : List (Entry P F) :=
  entries.filter fun entry => propIndex entry.prop = some index

/-- What holds where a thread is that adds tasks, or stops the pool. -/
def CallerFits (stopper : C) (propIndex : P → Option Nat) (caller : C) : CallerPc P F → Prop
  | .stop bwait restart _ => caller = stopper ∧ bwait = true ∧ restart = none
  | .lockStop bwait restart => caller = stopper ∧ bwait = true ∧ restart = none
  | .launchStop restart _ => caller = stopper ∧ restart = none
  | .joinStop restart _ => caller = stopper ∧ restart = none
  | .deletePool restart _ => caller = stopper ∧ restart = none
  | .deletingPool restart _ => caller = stopper ∧ restart = none
  | .clearPools restart => caller = stopper ∧ restart = none
  | .reset restart _ => caller = stopper ∧ restart = none
  | .addTask index entry => propIndex entry.prop = some index
  | .addingTask index entry => propIndex entry.prop = some index
  | pc => pc.resting = true

/-- An inner pool among its callers, with what has gone into all pools and what has come out. -/
structure Lane (closing : Prop) (callers : C → CallerPc P F) (propIndex : P → Option Nat)
    (added executed : List (Entry P F)) (index : Nat) (inner : InnerPool P F C) : Prop where
  sole : Sole closing inner
  resident : ∀ caller, ¬ inner.Out (some caller) → (callers caller).inside = some index
  brings : ∀ caller entry func, callers caller = .addingTask index entry →
    inner.pending (some caller) = some func → func = entry.item ∧ entry ∉ added
  added : inner.pushed = homed propIndex index added
  executed : homed propIndex index executed ++ inner.executing = inner.taken

/-- The inner pools have been deleted, and everything has been executed. -/
def Closed [DecidableEq P] (pool : RotateSerialTaskPool P F C) : Prop :=
  pool.taskPools = [] ∧ ∀ prop, (pool.executed.filter fun entry => entry.prop = prop) =
    pool.added.filter fun entry => entry.prop = prop

/-- Each inner pool is one of these. -/
def Pools (pool : RotateSerialTaskPool P F C) (holds : Nat → InnerPool P F C → Prop) : Prop :=
  ∀ index inner, pool.taskPools[index]? = some inner → holds index inner

/-- What holds of one inner pool after its step, and of the others still. -/
theorem Pools.set {pool after : RotateSerialTaskPool P F C} {holds kept : Nat → InnerPool P F C → Prop}
    {index : Nat} {reached : InnerPool P F C} (all : pool.Pools holds)
    (same : after.taskPools = pool.taskPools.set index reached) (now : kept index reached)
    (others : ∀ other inner, other ≠ index → holds other inner → kept other inner) : after.Pools kept := by
  intro other inner found
  rw [same, List.getElem?_set] at found
  split at found
  · rename_i here
    subst here
    split at found <;> cases found
    exact now
  · rename_i apart
    exact others other inner (Ne.symm apart) (all other inner found)

/-- How far the inner pools are when the thread that stops the pool is there, who has called
`stop(true)` or not. -/
def StageFits [DecidableEq P] (called : Prop) (pool : RotateSerialTaskPool P F C) : CallerPc P F → Prop
  | .stop _ _ _ => pool.atomicSwitch = .started ∨ pool.Closed
  | .lockStop _ _ => True
  | .launchStop _ next => pool.Pools fun index inner => if index < next then inner.Launched else inner.Waiting
  | .joinStop _ next => pool.Pools fun index inner => inner.Launched ∧ (index < next → inner.Ended)
  | .deletePool _ _ => pool.Pools fun _ inner => inner.Ended
  | .deletingPool _ _ => pool.Pools fun _ inner => inner.Ended
  | .clearPools _ => pool.Pools fun _ inner => inner.Ended
  | .reset _ _ => pool.Closed
  | _ => (¬ called ∧ pool.atomicSwitch = .started) ∨ pool.Closed

/-- The thread that stops the pool has the write lock. -/
def Closing (stopper : C) (callers : C → CallerPc P F) : Prop := (callers stopper).kind.writes = true

/-- What every step keeps once the pool has been started. -/
structure Fits [DecidableEq P] (stopper : C) (pool : RotateSerialTaskPool P F C) : Prop where
  callers : ∀ caller, CallerFits stopper pool.propIndex caller (pool.caller caller)
  lanes : pool.Pools (Lane (Closing stopper pool.caller) pool.caller pool.propIndex pool.added pool.executed)
  numbered : ∀ caller entry, (pool.caller caller).entry = some entry → entry.id < pool.calls
  apart : ∀ first second entry, (pool.caller first).entry = some entry →
    (pool.caller second).entry = some entry → first = second
  early : ∀ caller entry, (pool.caller caller).inside = none → (pool.caller caller).entry = some entry →
    entry ∉ pool.added
  old : ∀ entry ∈ pool.added, entry.id < pool.calls
  once : pool.added.Nodup
  accepted : ∀ entry ∈ pool.accepted, entry ∈ pool.added
  executed : ∀ entry ∈ pool.executed, entry ∈ pool.added
  placed : (∀ entry ∈ pool.added, ∃ index, pool.propIndex entry.prop = some index) ∨ pool.Closed

structure Staged [DecidableEq P] (called : Prop) (stopper : C) (pool : RotateSerialTaskPool P F C) : Prop where
  fits : Fits stopper pool
  stage : pool.StageFits called (pool.caller stopper)

section Lanes

variable {closing : Prop} {callers : C → CallerPc P F}
  {propIndex : P → Option Nat} {added executed new done : List (Entry P F)} {index : Nat}
  {inner reached : InnerPool P F C} {caller : C} {mover : Option C}

theorem mem_homed {entry : Entry P F} :
    entry ∈ homed propIndex index added ↔ entry ∈ added ∧ propIndex entry.prop = some index := by
  simp [homed]

theorem homed_append :
    homed propIndex index (added ++ new) = homed propIndex index added ++ homed propIndex index new := by
  simp [homed]

theorem homed_self (home : ∀ entry ∈ new, propIndex entry.prop = some index) :
    homed propIndex index new = new := by
  simpa [homed] using home

theorem homed_eq_nil (away : ∀ entry ∈ new, propIndex entry.prop ≠ some index) :
    homed propIndex index new = [] := by
  simpa [homed] using away

/-- A property goes to one inner pool. -/
theorem filter_homed [DecidableEq P] {prop : P} (home : propIndex prop = some index) :
    (homed propIndex index added).filter (fun entry => entry.prop = prop) =
      added.filter fun entry => entry.prop = prop := by
  rw [homed, List.filter_filter]
  apply List.filter_congr
  intro entry _
  by_cases here : entry.prop = prop <;> simp [here, home]

theorem pending_of_out (out : inner.Out (some caller)) : inner.pending (some caller) = none := by
  simp [pending, out.1, out.2, AddStage.func]

/-- A caller that is in no call of the inner pool moves. -/
theorem Lane.moved [DecidableEq C] (lane : Lane closing callers propIndex added executed index inner)
    {pc : CallerPc P F} {closing' : Prop} (sole : Sole closing' inner) (out : inner.Out (some caller)) :
    Lane closing' (Function.update callers caller pc) propIndex added executed index inner where
  sole := sole
  resident := by
    intro other there
    by_cases here : other = caller
    · subst here
      exact absurd out there
    · rw [Function.update_of_ne here]
      exact lane.resident other there
  brings := by
    intro other entry func there brought
    by_cases here : other = caller
    · subst here
      rw [pending_of_out out] at brought
      cases brought
    · rw [Function.update_of_ne here] at there
      exact lane.brings other entry func there brought
  added := lane.added
  executed := lane.executed

/-- Nothing of this goes into this pool or comes out of it. -/
theorem Lane.grown (lane : Lane closing callers propIndex added executed index inner)
    (newAway : ∀ entry ∈ new, propIndex entry.prop ≠ some index)
    (doneAway : ∀ entry ∈ done, propIndex entry.prop ≠ some index)
    (fits : ∀ caller entry, callers caller = .addingTask index entry → propIndex entry.prop = some index) :
    Lane closing callers propIndex (added ++ new) (executed ++ done) index inner where
  sole := lane.sole
  resident := lane.resident
  brings := by
    intro caller entry func there brought
    obtain ⟨same, fresh⟩ := lane.brings caller entry func there brought
    refine ⟨same, fun member => ?_⟩
    rcases List.mem_append.mp member with before | now
    · exact fresh before
    · exact newAway entry now (fits caller entry there)
  added := by
    rw [homed_append, homed_eq_nil newAway, List.append_nil]
    exact lane.added
  executed := by
    rw [homed_append, homed_eq_nil doneAway, List.append_nil]
    exact lane.executed

/-- What the worker has taken has gone into the pool. -/
theorem Lane.mem_added (lane : Lane closing callers propIndex added executed index inner) {entry : Entry P F}
    (taken : entry ∈ inner.taken) : entry ∈ added ∧ propIndex entry.prop = some index := by
  rw [← mem_homed, ← lane.added, pushed, Journal.pushed, List.reduceOption_append]
  exact List.mem_append_left _ taken

/-- What a step executes to its end has gone into the pool. -/
theorem Lane.mem_done (lane : Lane closing callers propIndex added executed index inner)
    (kept : Kept closing mover new done inner reached) (home : ∀ entry ∈ new, propIndex entry.prop = some index)
    {entry : Entry P F} (finished : entry ∈ done) :
    entry ∈ added ++ new ∧ propIndex entry.prop = some index := by
  have taken : entry ∈ reached.taken := by
    rw [← kept.taken _ lane.executed]
    exact List.mem_append_left _ (List.mem_append_right _ finished)
  have member : entry ∈ reached.pushed := by
    rw [pushed, Journal.pushed, List.reduceOption_append]
    exact List.mem_append_left _ taken
  rw [kept.pushed, lane.added] at member
  rcases List.mem_append.mp member with before | now
  · obtain ⟨here, index⟩ := mem_homed.mp before
    exact ⟨List.mem_append_left _ here, index⟩
  · exact ⟨List.mem_append_right _ now, home entry now⟩

/-- A pool that has been stopped has executed all that has gone into it. -/
theorem Lane.executed_eq (lane : Lane closing callers propIndex added executed index inner)
    (ended : inner.Ended) : homed propIndex index executed = homed propIndex index added := by
  have drained := lane.sole.drained ended.2
  have outside := lane.sole.popping 0 (by simp [ended.2])
  have books := lane.executed
  rw [← lane.added, pushed, Journal.pushed, drained, List.append_nil]
  rw [executing, outside] at books
  exact (List.append_nil _).symm.trans books

/-- A step of the inner pool. -/
theorem Lane.stepped (lane : Lane closing callers propIndex added executed index inner)
    (kept : Kept closing mover new done inner reached) (home : ∀ entry ∈ new, propIndex entry.prop = some index)
    (resident : ∀ caller, mover = some caller → ¬ reached.Out (some caller) → (callers caller).inside = some index)
    (brings : ∀ caller entry func, mover = some caller → callers caller = .addingTask index entry →
      reached.pending (some caller) = some func → func = entry.item ∧ entry ∉ added ++ new)
    (others : ∀ caller entry, mover ≠ some caller → callers caller = .addingTask index entry → entry ∉ new) :
    Lane closing callers propIndex (added ++ new) (executed ++ done) index reached where
  sole := kept.sole
  resident := by
    intro caller there
    by_cases here : mover = some caller
    · exact resident caller here there
    · obtain ⟨pc, stage⟩ := kept.others (some caller) fun same => here same.symm
      apply lane.resident caller
      rwa [Out, pc, stage] at there
  brings := by
    intro caller entry func there brought
    by_cases here : mover = some caller
    · exact brings caller entry func here there brought
    · obtain ⟨pc, stage⟩ := kept.others (some caller) fun same => here same.symm
      rw [pending, pc, stage] at brought
      obtain ⟨same, fresh⟩ := lane.brings caller entry func there brought
      refine ⟨same, fun member => ?_⟩
      rcases List.mem_append.mp member with before | now
      · exact fresh before
      · exact others caller entry here there now
  added := by
    rw [homed_append, homed_self home, kept.pushed, lane.added]
  executed := by
    rw [homed_append, homed_self fun entry finished => (lane.mem_done kept home finished).2]
    exact kept.taken _ lane.executed

end Lanes

section Stages

variable [DecidableEq P] {pool after : RotateSerialTaskPool P F C} {pc : CallerPc P F} {called : Prop}

theorem stageFits_of_resting (resting : pc.resting = true) :
    pool.StageFits called pc ↔ (¬ called ∧ pool.atomicSwitch = .started) ∨ pool.Closed := by
  cases pc with
  | idle => exact Iff.rfl
  | lockShared entry => exact Iff.rfl
  | addTest entry pc => exact Iff.rfl
  | getThreadIndex entry => exact Iff.rfl
  | addTask index entry => exact Iff.rfl
  | addingTask index entry => exact Iff.rfl
  | _ => cases resting

/-- Where the stages look at the same, they are the same. -/
theorem StageFits.congr (stage : pool.StageFits called pc) (atomicSwitch : after.atomicSwitch = pool.atomicSwitch)
    (taskPools : after.taskPools = pool.taskPools) (added : after.added = pool.added)
    (executed : after.executed = pool.executed) : after.StageFits called pc := by
  cases pc with
  | lockStop bwait restart => trivial
  | _ => simpa only [StageFits, Closed, Pools, atomicSwitch, taskPools, added, executed] using stage

/-- An inner pool steps. -/
theorem StageFits.stepped {index : Nat} {inner reached : InnerPool P F C} {added executed : List (Entry P F)}
    (stage : pool.StageFits called pc) (found : pool.taskPools[index]? = some inner) (stays : inner.Stays reached) :
    StageFits called { pool with taskPools := pool.taskPools.set index reached, added, executed } pc := by
  have open_ : ¬ pool.Closed := by
    intro closed
    simp [closed.1] at found
  have each {holds : Nat → InnerPool P F C → Prop} (all : pool.Pools holds)
      (kept : holds index inner → holds index reached) :
      Pools { pool with taskPools := pool.taskPools.set index reached, added, executed } holds :=
    all.set rfl (kept (all index inner found)) fun _ _ _ still => still
  cases pc with
  | lockStop bwait restart => trivial
  | launchStop restart next =>
    refine each stage ?_
    split
    · exact stays.launched
    · exact stays.waiting
  | joinStop restart next => exact each stage fun ⟨launched, ended⟩ =>
      ⟨stays.launched launched, fun below => stays.ended (ended below)⟩
  | deletePool restart next => exact each stage stays.ended
  | deletingPool restart next => exact each stage stays.ended
  | clearPools restart => exact each stage stays.ended
  | reset restart pc => exact absurd stage open_
  | _ => exact .inl (stage.resolve_right open_)

end Stages

section Steps

variable [DecidableEq P] {called : Prop} {stopper caller : C} {pool after : RotateSerialTaskPool P F C}
  {coreNum index : Nat} {inner reached : InnerPool P F C}
  {new done : List (Entry P F)} {mover : Option C}

/-- An inner pool steps. -/
theorem Fits.stepped (fits : Fits stopper pool) (found : pool.taskPools[index]? = some inner)
    (kept : Kept (Closing stopper pool.caller) mover new done inner reached)
    (resident : ∀ caller, mover = some caller → (pool.caller caller).inside = some index)
    (brings : ∀ caller entry func, mover = some caller → pool.caller caller = .addingTask index entry →
      reached.pending (some caller) = some func → func = entry.item ∧ entry ∉ pool.added ++ new)
    (brought : ∀ entry ∈ new, entry ∉ pool.added ∧ ∃ caller, mover = some caller ∧
      pool.caller caller = .addingTask index entry)
    (once : new.Nodup) :
    Fits stopper { pool with
      taskPools := pool.taskPools.set index reached, added := pool.added ++ new,
      executed := pool.executed ++ done } := by
  have lane := fits.lanes index inner found
  have home (entry : Entry P F) (member : entry ∈ new) : pool.propIndex entry.prop = some index := by
    obtain ⟨caller, _, place⟩ := (brought entry member).2
    have here := fits.callers caller
    rwa [place] at here
  have only (other : C) (entry : Entry P F) (member : entry ∈ new)
      (there : (pool.caller other).entry = some entry) : mover = some other := by
    obtain ⟨caller, moves, place⟩ := (brought entry member).2
    rw [moves, fits.apart caller other entry (by rw [place]; rfl) there]
  refine ⟨fits.callers, fits.lanes.set rfl ?_ ?_, fits.numbered, fits.apart,
    fun other entry outside there member => ?_, fun entry member => ?_, ?_, fun entry member => ?_,
    fun entry member => ?_, .inl fun entry member => ?_⟩
  · refine lane.stepped kept home (fun caller moves _ => resident caller moves) brings ?_
    intro caller entry elsewhere place member
    exact elsewhere (only caller entry member (by rw [place]; rfl))
  · intro other innerPool apart still
    refine still.grown (fun entry member same => ?_) (fun entry member same => ?_) ?_
    · exact apart (Option.some.inj (same.symm.trans (home entry member)))
    · exact apart (Option.some.inj (same.symm.trans (lane.mem_done kept home member).2))
    · intro caller entry place
      simpa [place, CallerFits] using fits.callers caller
  · rcases List.mem_append.mp member with before | now
    · exact fits.early other entry outside there before
    · have inside := resident other (only other entry now there)
      rw [outside] at inside
      cases inside
  · rcases List.mem_append.mp member with before | now
    · exact fits.old entry before
    · obtain ⟨caller, _, place⟩ := (brought entry now).2
      exact fits.numbered caller entry (by rw [place]; rfl)
  · exact fits.once.append once fun entry before now => (brought entry now).1 before
  · exact List.mem_append_left _ (fits.accepted entry member)
  · rcases List.mem_append.mp member with before | now
    · exact List.mem_append_left _ (fits.executed entry before)
    · exact (lane.mem_done kept home now).1
  · rcases List.mem_append.mp member with before | now
    · rcases fits.placed with placed | closed
      · exact placed entry before
      · simp [closed.1] at found
    · exact ⟨index, home entry now⟩

/-- An inner pool steps, and no task goes into it or has been executed. -/
theorem Fits.stepped_quiet (fits : Fits stopper pool) (found : pool.taskPools[index]? = some inner)
    (kept : Kept (Closing stopper pool.caller) mover [] [] inner reached)
    (resident : ∀ caller, mover = some caller → (pool.caller caller).inside = some index)
    (brings : ∀ caller entry func, mover = some caller → pool.caller caller = .addingTask index entry →
      reached.pending (some caller) = some func → func = entry.item ∧ entry ∉ pool.added) :
    Fits stopper (pool.setPool index reached) := by
  have stepped := fits.stepped found kept resident (by simpa using brings) (by simp) List.nodup_nil
  rw [List.append_nil, List.append_nil] at stepped
  exact stepped

omit [DecidableEq P] in
theorem closing_moved [DecidableEq C] {callers : C → CallerPc P F} {pc : CallerPc P F}
    (same : pc.kind.writes = (callers caller).kind.writes) :
    Closing stopper (Function.update callers caller pc) ↔ Closing stopper callers := by
  unfold Closing
  by_cases here : stopper = caller
  · subst here
    rw [Function.update_self, same]
  · rw [Function.update_of_ne here]

omit [DecidableEq P] in
theorem writes_of_resting {pc : CallerPc P F} (resting : pc.resting = true) : pc.kind.writes = false := by
  cases pc with
  | addTest entry pc => cases pc <;> rfl
  | idle => rfl
  | lockShared entry => rfl
  | getThreadIndex entry => rfl
  | addTask index entry => rfl
  | addingTask index entry => rfl
  | _ => cases resting

/-- A thread is in no call of an inner pool but of the one that it has called. -/
theorem Fits.outside (fits : Fits stopper pool)
    (out : pool.Pools fun index inner => (pool.caller caller).inside = some index → inner.Out (some caller)) :
    pool.Pools fun _ inner => inner.Out (some caller) := by
  intro index inner found
  by_contra there
  exact there (out index inner found ((fits.lanes index inner found).resident caller there))

/-- A thread that is in no call of an inner pool moves on. -/
theorem Fits.moved [DecidableEq C] (fits : Fits stopper pool) {pc : CallerPc P F} {atomicSwitch : AtomicSwitch}
    {mtx : RwMutex C} {calls : Nat} {accepted : List (Entry P F)}
    (out : pool.Pools fun _ inner => inner.Out (some caller))
    (soles : pool.Pools fun _ inner => Sole (Closing stopper (Function.update pool.caller caller pc)) inner)
    (here : CallerFits stopper pool.propIndex caller pc)
    (later : pool.calls ≤ calls)
    (entry : ∀ entry, pc.entry = some entry →
      ((pool.caller caller).entry = some entry ∧ (pool.caller caller).inside = none) ∨
        (entry.id = pool.calls ∧ pool.calls < calls))
    (mine : ∀ entry ∈ accepted, entry ∈ pool.added) :
    Fits stopper ({ pool with atomicSwitch, mtx, calls, accepted }.moveCaller caller pc) where
  callers := by
    intro other
    by_cases same : other = caller
    · subst same
      simpa [moveCaller] using here
    · simpa [moveCaller, same] using fits.callers other
  lanes index inner found := (fits.lanes index inner found).moved (soles index inner found) (out index inner found)
  numbered := by
    intro other known there
    by_cases same : other = caller
    · subst same
      rcases entry known (by simpa [moveCaller] using there) with ⟨before, _⟩ | ⟨fresh, further⟩
      · exact (fits.numbered other known before).trans_le later
      · exact fresh.trans_lt further
    · exact (fits.numbered other known (by simpa [moveCaller, same] using there)).trans_le later
  apart := by
    have mineOnly (other : C) (known : Entry P F) (different : other ≠ caller) (one : pc.entry = some known)
        (two : (pool.caller other).entry = some known) : False := by
      rcases entry known one with ⟨before, _⟩ | ⟨fresh, _⟩
      · exact different (fits.apart other caller known two before)
      · have := fits.numbered other known two
        omega
    intro first second known one two
    by_cases isFirst : first = caller
    · by_cases isSecond : second = caller
      · rw [isFirst, isSecond]
      · exact (mineOnly second known isSecond (by simpa [moveCaller, isFirst] using one)
          (by simpa [moveCaller, isSecond] using two)).elim
    · by_cases isSecond : second = caller
      · exact (mineOnly first known isFirst (by simpa [moveCaller, isSecond] using two)
          (by simpa [moveCaller, isFirst] using one)).elim
      · exact fits.apart first second known (by simpa [moveCaller, isFirst] using one)
          (by simpa [moveCaller, isSecond] using two)
  early := by
    intro other known outside there
    by_cases same : other = caller
    · subst same
      rcases entry known (by simpa [moveCaller] using there) with ⟨before, away⟩ | ⟨fresh, _⟩
      · exact fits.early other known away before
      · intro member
        have := fits.old known member
        omega
    · simp only [moveCaller, Function.update_of_ne same] at outside there
      exact fits.early other known outside there
  old known member := (fits.old known member).trans_le later
  once := fits.once
  accepted := mine
  executed := fits.executed
  placed := fits.placed

/-- A thread goes on that neither starts nor stops the pool. -/
theorem Staged.rested [DecidableEq C] (staged : Staged called stopper pool) {pc : CallerPc P F} {mtx : RwMutex C}
    {calls : Nat} {accepted : List (Entry P F)}
    (out : pool.Pools fun index inner => (pool.caller caller).inside = some index → inner.Out (some caller))
    (was : (pool.caller caller).resting = true) (rests : pc.resting = true)
    (here : CallerFits stopper pool.propIndex caller pc) (later : pool.calls ≤ calls)
    (entry : ∀ entry, pc.entry = some entry →
      ((pool.caller caller).entry = some entry ∧ (pool.caller caller).inside = none) ∨
        (entry.id = pool.calls ∧ pool.calls < calls))
    (mine : ∀ entry ∈ accepted, entry ∈ pool.added) :
    Staged called stopper ({ pool with mtx, calls, accepted }.moveCaller caller pc) where
  fits := by
    refine staged.fits.moved (staged.fits.outside out) (fun index inner found => ?_) here later entry mine
    rw [closing_moved ((writes_of_resting rests).trans (writes_of_resting was).symm)]
    exact (staged.fits.lanes index inner found).sole
  stage := by
    have stage := staged.stage
    by_cases same : stopper = caller
    · subst same
      simp only [moveCaller, Function.update_self, stageFits_of_resting rests]
      exact (stageFits_of_resting was).mp stage
    · simp only [moveCaller, Function.update_of_ne same]
      exact stage.congr rfl rfl rfl rfl

/-- A new property gets an index. -/
theorem Staged.indexed (staged : Staged called stopper pool) {prop : P} {nextThreadIndex : UInt64}
    (new : pool.propIndex prop = none) :
    Staged called stopper
      { pool with nextThreadIndex, propIndex := Function.update pool.propIndex prop (some index) } := by
  have fits := staged.fits
  have known {entry : Entry P F} {index : Nat} (placed : pool.propIndex entry.prop = some index) :
      entry.prop ≠ prop := by
    rintro rfl
    rw [new] at placed
    cases placed
  refine ⟨⟨fun other => ?_, fun other inner found => ?_, fits.numbered, fits.apart, fits.early, fits.old, fits.once,
    fits.accepted, fits.executed, ?_⟩, staged.stage.congr rfl rfl rfl rfl⟩
  · have here := fits.callers other
    simp only
    cases place : pool.caller other with
    | addTask index entry =>
      rw [place] at here
      exact (Function.update_of_ne (known here) _ _).trans here
    | addingTask index entry =>
      rw [place] at here
      exact (Function.update_of_ne (known here) _ _).trans here
    | _ => simpa [place, CallerFits] using here
  · have lane := fits.lanes other inner found
    have placed : ∀ entry ∈ pool.added, ∃ index, pool.propIndex entry.prop = some index := by
      rcases fits.placed with placed | closed
      · exact placed
      · simp [closed.1] at found
    have same (entries : List (Entry P F)) (among : ∀ entry ∈ entries, entry ∈ pool.added) :
        homed (Function.update pool.propIndex prop (some index)) other entries =
          homed pool.propIndex other entries := by
      apply List.filter_congr
      intro entry member
      obtain ⟨_, found⟩ := placed entry (among entry member)
      rw [Function.update_of_ne (known found)]
    refine ⟨lane.sole, lane.resident, lane.brings, ?_, ?_⟩
    · rw [same _ fun _ => id]
      exact lane.added
    · rw [same _ fits.executed]
      exact lane.executed
  · refine fits.placed.imp_left fun placed entry member => ?_
    obtain ⟨index, found⟩ := placed entry member
    exact ⟨index, (Function.update_of_ne (known found) _ _).trans found⟩

end Steps

end BTool.TaskPool.RotateSerialTaskPool
