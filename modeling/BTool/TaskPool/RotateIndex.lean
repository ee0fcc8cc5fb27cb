import Mathlib.Data.Fintype.Basic
import BTool.Foundation.Locals
import BTool.TaskPool.RotateSerialTaskPool

/-! The index that `get_thread_index` of a `RotateSerialTaskPool` takes, and the pools it is an
index of: what the callers of the pool can do to each other, seen without the tasks.

`start` sets the switch before it takes the write lock and creates the pools, so an `add_task`
in between takes a remainder by zero. -/

namespace BTool.TaskPool.RotateSerialTaskPool

open AtomicSwitch BTool.Foundation BTool.TaskQueue

/-- What a caller is up to. -/
inductive Kind where
  | free
  /-- In `start`, which has set the switch, before it has the lock. -/
  | waiting
  | creating
  | writing
  /-- In `stop`, which has cleared the pools and not yet reset the switch. -/
  | cleared
  | testing
  /-- In `add_task`, which has seen the switch started. -/
  | tested
  | indexing
  | indexed (index : Nat)
deriving DecidableEq

namespace Kind

def writes : Kind → Bool
  | .creating => true
  | .writing => true
  | .cleared => true
  | _ => false

def reads : Kind → Bool
  | .testing => true
  | .tested => true
  | .indexing => true
  | .indexed _ => true
  | _ => false

/-- The switch is set, and the pools are still to be created. -/
def opening : Kind → Bool
  | .waiting => true
  | .creating => true
  | _ => false

end Kind

def CallerPc.kind {P F : Type} : CallerPc P F → Kind
  | .lockStart _ => .waiting
  | .createThreads _ => .creating
  | .startPool _ => .writing
  | .startingPool _ => .writing
  | .launchStop _ _ => .writing
  | .joinStop _ _ => .writing
  | .deletePool _ _ => .writing
  | .deletingPool _ _ => .writing
  | .clearPools _ => .writing
  | .reset _ .storeStart => .cleared
  | .reset _ _ => .writing
  | .addTest _ .loadInit => .tested
  | .addTest _ _ => .testing
  | .getThreadIndex _ => .indexing
  | .addTask index _ => .indexed index
  | .addingTask index _ => .indexed index
  | _ => .free

/-- A pool without its tasks. -/
structure View (P C : Type) where
  started : Bool
  mtx : RwMutex C
  size : Nat
  propIndex : P → Option Nat
  kind : C → Kind

namespace View

variable {P C : Type} [DecidableEq P] [DecidableEq C] {filled : Prop} {view after : View P C}
  {caller other : C}

def move (view : View P C) (caller : C) (kind : Kind) : View P C :=
  { view with kind := Function.update view.kind caller kind }

/-- What a step of a caller does, where `create_threads` is filled in with pools or may be left empty. -/
inductive Step (filled : Prop) (view : View P C) (caller : C) : View P C → Prop where
  | keep : Step filled view caller view
  | set (here : view.kind caller = .free) :
      Step filled view caller ({ view with started := true }.move caller .waiting)
  | lock {mtx : RwMutex C} {kind : Kind}
      (here : (view.kind caller = .waiting ∧ kind = .creating) ∨ (view.kind caller = .free ∧ kind = .writing))
      (locked : view.mtx.lock caller = some mtx) :
      Step filled view caller ({ view with mtx }.move caller kind)
  | create {count : Nat} (here : view.kind caller = .creating) (some : filled → count ≠ 0) :
      Step filled view caller ({ view with size := view.size + count }.move caller .writing)
  | unlock (here : view.kind caller = .writing) :
      Step filled view caller ({ view with mtx := view.mtx.unlock }.move caller .free)
  | clear (here : view.kind caller = .writing) :
      Step filled view caller ({ view with size := 0, propIndex := fun _ => none }.move caller .cleared)
  | unset (here : view.kind caller = .cleared) :
      Step filled view caller ({ view with started := false }.move caller .writing)
  | lockShared {mtx : RwMutex C} (here : view.kind caller = .free)
      (locked : view.mtx.lockShared caller = some mtx) :
      Step filled view caller ({ view with mtx }.move caller .testing)
  | test (here : view.kind caller = .testing) (started : view.started = true) :
      Step filled view caller (view.move caller .tested)
  | pass (here : view.kind caller = .tested) : Step filled view caller (view.move caller .indexing)
  | index {index : Nat} {propIndex : P → Option Nat} (here : view.kind caller = .indexing)
      (below : index < view.size)
      (mapped : ∀ prop value, propIndex prop = some value → view.propIndex prop = some value ∨ value = index) :
      Step filled view caller ({ view with propIndex }.move caller (.indexed index))
  | leave (here : (view.kind caller).reads = true) :
      Step filled view caller ({ view with mtx := view.mtx.unlockShared caller }.move caller .free)

structure Sound (filled : Prop) (view : View P C) : Prop where
  locks : view.mtx.Tracks Kind.writes Kind.reads view.kind
  manned : filled → view.started = true → view.size = 0 →
    Somewhere (fun kind => kind.opening = true ∨ kind = .cleared) view.kind
  tested : Everywhere (fun kind => kind = .tested → view.started = true) view.kind
  mapped : ∀ prop index, view.propIndex prop = some index → index < view.size

/-- An `add_task` at `get_thread_index` finds pools, and an index that it gets is one of theirs. -/
def Safe (view : View P C) : Prop :=
  Everywhere (fun kind => (kind = .indexing → view.size ≠ 0) ∧
    ∀ index, kind = .indexed index → index < view.size) view.kind

omit [DecidableEq P] in
theorem Sound.step (sound : Sound filled view) (step : Step filled view caller after) :
    Sound filled after := by
  obtain ⟨locks, manned, tested, mapped⟩ := sound
  have nobody (writes : (view.kind caller).writes = true) (other : C) : view.kind other ≠ .tested := by
    intro there
    have reads := locks.reads_eq_false writes other
    simp [there, Kind.reads] at reads
  cases step with
  | keep => exact ⟨locks, manned, tested, mapped⟩
  | set here =>
    refine ⟨locks.keep (by simp [here, Kind.writes]) (by simp [here, Kind.reads]), ?_, ?_, mapped⟩
    · intro _ _ _
      exact .here (.inl rfl)
    · exact fun _ _ => rfl
  | @lock mtx kind here locked =>
    refine ⟨locks.lock locked ?_ ?_, fun filled started none => ?_, tested.move ?_, mapped⟩
    · rcases here with ⟨_, rfl⟩ | ⟨_, rfl⟩ <;> rfl
    · rcases here with ⟨_, rfl⟩ | ⟨_, rfl⟩ <;> rfl
    · refine (manned filled started none).move ?_
      rcases here with ⟨was, rfl⟩ | ⟨was, rfl⟩ <;> simp [was, Kind.opening]
    · rcases here with ⟨_, rfl⟩ | ⟨_, rfl⟩ <;> simp
  | create here some =>
    refine ⟨locks.keep (by simp [here, Kind.writes]) (by simp [here, Kind.reads]), ?_,
      tested.move (by simp), fun prop index found => ?_⟩
    · intro filled _ none
      have := some filled
      simp only [move] at none
      omega
    · exact Nat.lt_add_right _ (mapped prop index found)
  | unlock here =>
    have wrote : (view.kind caller).writes = true := by simp [here, Kind.writes]
    refine ⟨locks.unlock wrote rfl rfl, fun filled started none => ?_, tested.move (by simp), mapped⟩
    refine (manned filled started none).move ?_
    simp [here, Kind.opening]
  | clear here =>
    refine ⟨locks.keep (by simp [here, Kind.writes]) (by simp [here, Kind.reads]), ?_,
      tested.move (by simp), fun _ _ found => by cases found⟩
    intro _ _ _
    exact .here (.inr rfl)
  | unset here =>
    have writes : (view.kind caller).writes = true := by simp [here, Kind.writes]
    refine ⟨locks.keep (by simp [here, Kind.writes]) (by simp [here, Kind.reads]), by simp [move], ?_, mapped⟩
    apply Everywhere.move
    · exact fun other there => absurd there (nobody writes other)
    · simp
  | lockShared here locked =>
    refine ⟨locks.lockShared locked rfl rfl, fun filled started none => ?_, tested.move (by simp), mapped⟩
    refine (manned filled started none).move ?_
    simp [here, Kind.opening]
  | test here started =>
    refine ⟨locks.keep (by simp [here, Kind.writes]) (by simp [here, Kind.reads]), fun filled started none => ?_,
      tested.move fun _ => started, mapped⟩
    refine (manned filled started none).move ?_
    simp [here, Kind.opening]
  | pass here =>
    refine ⟨locks.keep (by simp [here, Kind.writes]) (by simp [here, Kind.reads]), fun filled started none => ?_,
      tested.move (by simp), mapped⟩
    refine (manned filled started none).move ?_
    simp [here, Kind.opening]
  | @index index propIndex here below known =>
    refine ⟨locks.keep (by simp [here, Kind.writes]) (by simp [here, Kind.reads]), fun filled started none => ?_,
      tested.move (by simp), fun prop value found => ?_⟩
    · refine (manned filled started none).move ?_
      simp [here, Kind.opening]
    · rcases known prop value found with before | rfl
      · exact mapped prop value before
      · exact below
  | leave reading =>
    refine ⟨locks.unlockShared reading rfl rfl, fun filled started none => ?_, tested.move (by simp), mapped⟩
    refine (manned filled started none).move ?_
    cases place : view.kind caller <;> simp [place, Kind.reads, Kind.opening] at reading ⊢

omit [DecidableEq P] in
/-- The step that takes a caller to `get_thread_index` is the only one that can be unsafe, and it
is safe exactly when there are pools. -/
theorem Sound.safe_step (sound : Sound filled view) (safe : view.Safe)
    (step : Step filled view caller after) :
    after.Safe ↔ (view.kind caller = .tested → after.kind caller = .indexing → view.size ≠ 0) := by
  have vacuous (writes : (view.kind caller).writes = true) (size : Nat) :
      Everywhere (fun kind => (kind = .indexing → size ≠ 0) ∧
        ∀ index, kind = .indexed index → index < size) view.kind := by
    intro other
    have away := sound.locks.reads_eq_false writes other
    cases there : view.kind other <;> simp [there, Kind.reads] at away ⊢
  cases step with
  | keep =>
    refine iff_of_true safe fun was now => ?_
    simp [was] at now
  | @pass here =>
    constructor
    · intro safe' _ _
      exact (safe' caller).1 (by simp [move])
    · intro sized
      apply Everywhere.move safe
      refine ⟨fun _ => sized here (by simp [move]), by simp⟩
  | @index index propIndex here below known =>
    refine iff_of_true ?_ (by simp [here])
    apply Everywhere.move safe
    exact ⟨by simp, fun value same => by cases same; exact below⟩
  | create here some =>
    exact iff_of_true ((vacuous (by simp [here, Kind.writes]) _).move (by simp)) (by simp [here])
  | clear here =>
    exact iff_of_true ((vacuous (by simp [here, Kind.writes]) _).move (by simp)) (by simp [here])
  | @lock mtx kind here locked =>
    refine iff_of_true (Everywhere.move safe ?_) ?_
    · rcases here with ⟨_, rfl⟩ | ⟨_, rfl⟩ <;> simp
    · rcases here with ⟨was, rfl⟩ | ⟨was, rfl⟩ <;> simp [was]
  | leave reading =>
    refine iff_of_true (Everywhere.move safe (by simp)) ?_
    simp [move]
  | _ here => exact iff_of_true (Everywhere.move safe (by simp)) (by simp [here])

end View

/-- A `create_threads` there creates a pool at least: `hardware_concurrency()` may be 0, and then
`thread_num` must not be. -/
def CallerPc.fills {P F : Type} (coreNum : Nat) : CallerPc P F → Bool
  | .createThreads threadNum => threadNum != 0 || coreNum != 0
  | _ => true

theorem CallerPc.fills_of_cores {P F : Type} {coreNum : Nat} (cores : coreNum ≠ 0) (pc : CallerPc P F) :
    pc.fills coreNum = true := by
  cases pc with
  | createThreads threadNum => simp [fills, cores]
  | _ => rfl

variable {P F C : Type} [DecidableEq P] [DecidableEq F] [DecidableEq C] {coreNum : Nat} {filled : Prop}
  {pool after : RotateSerialTaskPool P F C} {caller : C} {action : Action P F C}
  {actions : List (Action P F C)}

def view (pool : RotateSerialTaskPool P F C) : View P C :=
  ⟨pool.atomicSwitch.bstart, pool.mtx, pool.taskPools.length, pool.propIndex,
    fun caller => (pool.caller caller).kind⟩

omit [DecidableEq P] [DecidableEq F] in
theorem view_moveCaller (pc : CallerPc P F) :
    (pool.moveCaller caller pc).view = pool.view.move caller pc.kind := by
  have same : (fun other => (Function.update pool.caller caller pc other).kind) =
      Function.update (fun other => (pool.caller other).kind) caller pc.kind := by
    funext other
    by_cases here : other = caller
    · simp [here]
    · simp [here]
  simp only [view, View.move, moveCaller, same]

omit [DecidableEq P] [DecidableEq F] in
/-- A caller that stays at what it is up to is not seen to move. -/
theorem view_same {pc : CallerPc P F} (same : pc.kind = (pool.caller caller).kind) :
    (pool.moveCaller caller pc).view = pool.view := by
  rw [view_moveCaller, same]
  simp only [View.move, view]
  rw [Function.update_eq_self caller fun other => (pool.caller other).kind]

/-- A step of an inner pool is not seen. -/
theorem callPool_cases {index : Nat} {inside : Option C}
    {operation : TaskPool.Operation (Option C × TaskItem (Entry P F))}
    (taken : pool.callPool coreNum index inside operation = some after) :
    ∃ inner reached, pool.taskPools[index]? = some inner ∧
      TaskPoolBase.next coreNum inner (.call inside operation) = some reached ∧
        after = pool.setPool index reached := by
  obtain ⟨inner, found, called⟩ := Option.bind_eq_some_iff.mp taken
  obtain ⟨reached, stepped, same⟩ := Option.map_eq_some_iff.mp called
  exact ⟨inner, reached, found, stepped, same.symm⟩

omit [DecidableEq P] [DecidableEq F] [DecidableEq C] in
theorem view_setPool (index : Nat) (inner : InnerPool P F C) : (pool.setPool index inner).view = pool.view := by
  simp [view, setPool]

omit [DecidableEq F] [DecidableEq C] in
/-- The index of a property is one of the pools. -/
theorem getThreadIndex_cases {prop : P} {index : Nat}
    (mapped : ∀ prop index, pool.view.propIndex prop = some index → index < pool.view.size)
    (indexed : pool.getThreadIndex prop = some (after, index)) :
    ∃ propIndex, after.view = { pool.view with propIndex } ∧ index < pool.view.size ∧
      ∀ other value, propIndex other = some value → pool.view.propIndex other = some value ∨ value = index := by
  unfold getThreadIndex at indexed
  split at indexed
  · rename_i known
    cases indexed
    exact ⟨pool.propIndex, rfl, mapped prop index known, fun _ _ => .inl⟩
  · split at indexed
    · cases indexed
    · rename_i filled
      cases indexed
      refine ⟨Function.update pool.propIndex prop (some _), rfl,
        Nat.mod_lt _ (List.length_pos_iff.mpr filled), fun other value found => ?_⟩
      by_cases here : other = prop
      · subst here
        rw [Function.update_self] at found
        exact .inr (Option.some.inj found).symm
      · rw [Function.update_of_ne here] at found
        exact .inl found

omit [DecidableEq P] [DecidableEq F] in
/-- A step that changes nothing of what is seen. -/
theorem keep_of_same {pool' : RotateSerialTaskPool P F C} {pc : CallerPc P F} (same : pool'.view = pool.view)
    (callers : pool'.caller = pool.caller) (alike : pc.kind = (pool.caller caller).kind) :
    View.Step filled pool.view caller (pool'.moveCaller caller pc).view := by
  rw [view_same (by rw [callers, alike]), same]
  exact .keep

/-- A call of an inner pool, behind which the caller is up to the same as before. -/
theorem keep_of_called {called : RotateSerialTaskPool P F C} {index : Nat} {inside : Option C}
    {operation : TaskPool.Operation (Option C × TaskItem (Entry P F))} {pc : CallerPc P F}
    (stepped : pool.callPool coreNum index inside operation = some called)
    (alike : pc.kind = (pool.caller caller).kind) :
    View.Step filled pool.view caller (called.moveCaller caller pc).view := by
  obtain ⟨inner, reached, _, _, rfl⟩ := callPool_cases stepped
  exact keep_of_same (view_setPool index reached) rfl alike

/-- Every step of a caller is one that the view has. -/
theorem view_step (sound : pool.view.Sound filled) (fills : filled → (pool.caller caller).fills coreNum = true)
    (taken : pool.callStep coreNum caller = some after) : View.Step filled pool.view caller after.view := by
  cases place : pool.caller caller with
  | idle => simp [callStep, place] at taken
  | init threadNum =>
    simp only [callStep, place, Option.some.injEq] at taken
    subst taken
    unfold AtomicSwitch.init
    split
    · exact keep_of_same rfl rfl (by simp [place, CallerPc.kind])
    · exact keep_of_same rfl rfl (by simp [place, CallerPc.kind])
  | start threadNum pc =>
    simp only [callStep, place, Option.some.injEq] at taken
    subst taken
    cases pc with
    | loadStop =>
      simp only [AtomicSwitch.start]
      split <;> exact keep_of_same rfl rfl (by simp [place, CallerPc.kind, Progress.elim])
    | loadInit =>
      simp only [AtomicSwitch.start]
      split <;> exact keep_of_same rfl rfl (by simp [place, CallerPc.kind, Progress.elim])
    | exchange =>
      simp only [AtomicSwitch.start]
      split
      · exact keep_of_same rfl rfl (by simp [place, CallerPc.kind, Progress.elim])
      · rw [view_moveCaller]
        exact .set (by simp [view, place, CallerPc.kind])
  | lockStart threadNum =>
    simp only [callStep, place] at taken
    obtain ⟨mtx, locked, rfl⟩ := Option.map_eq_some_iff.mp taken
    rw [view_moveCaller]
    exact .lock (.inl ⟨by simp [view, place, CallerPc.kind], rfl⟩) locked
  | createThreads threadNum =>
    simp only [callStep, place, Option.some.injEq] at taken
    subst taken
    rw [view_moveCaller]
    have sized : (pool.createThreads coreNum threadNum).view =
        { pool.view with size := pool.view.size + threadCount coreNum threadNum } := by
      simp [view, createThreads]
    rw [sized]
    refine .create (by simp [view, place, CallerPc.kind]) fun filled => ?_
    have made := fills filled
    simp only [place, CallerPc.fills, Bool.or_eq_true, bne_iff_ne] at made
    unfold threadCount TaskPoolBase.maxThread
    split <;> omega
  | startPool index =>
    simp only [callStep, place] at taken
    split at taken
    · obtain ⟨called, stepped, rfl⟩ := Option.map_eq_some_iff.mp taken
      exact keep_of_called stepped (by simp [place, CallerPc.kind])
    · cases taken
      rw [view_moveCaller]
      exact .unlock (by simp [view, place, CallerPc.kind])
  | startingPool index =>
    simp only [callStep, place] at taken
    split at taken <;> cases taken
    exact keep_of_same rfl rfl (by simp [place, CallerPc.kind])
  | stop bwait restart pc =>
    simp only [callStep, place, Option.some.injEq] at taken
    subst taken
    have was : (pool.caller caller).kind = .free := by simp [place, CallerPc.kind]
    have free : (afterStop restart : CallerPc P F).kind = .free := by cases restart <;> rfl
    cases pc with
    | loadInit =>
      simp only [AtomicSwitch.stop]
      split
      · exact keep_of_same rfl rfl (free.trans was.symm)
      · exact keep_of_same rfl rfl was.symm
    | loadStart =>
      simp only [AtomicSwitch.stop]
      split
      · exact keep_of_same rfl rfl (free.trans was.symm)
      · exact keep_of_same rfl rfl was.symm
    | exchange =>
      simp only [AtomicSwitch.stop]
      split
      · exact keep_of_same rfl rfl (free.trans was.symm)
      · exact keep_of_same rfl rfl was.symm
  | lockStop bwait restart =>
    simp only [callStep, place] at taken
    obtain ⟨mtx, locked, rfl⟩ := Option.map_eq_some_iff.mp taken
    rw [view_moveCaller]
    refine .lock (.inr ⟨by simp [view, place, CallerPc.kind], ?_⟩) locked
    cases bwait <;> rfl
  | launchStop restart index =>
    simp only [callStep, place] at taken
    split at taken
    · obtain ⟨called, stepped, rfl⟩ := Option.map_eq_some_iff.mp taken
      exact keep_of_called stepped (by simp [place, CallerPc.kind])
    · cases taken
      exact keep_of_same rfl rfl (by simp [place, CallerPc.kind])
  | joinStop restart index =>
    simp only [callStep, place] at taken
    split at taken
    · split at taken <;> cases taken
      exact keep_of_same rfl rfl (by simp [place, CallerPc.kind])
    · cases taken
      exact keep_of_same rfl rfl (by simp [place, CallerPc.kind])
  | deletePool restart index =>
    simp only [callStep, place] at taken
    split at taken
    · obtain ⟨called, stepped, rfl⟩ := Option.map_eq_some_iff.mp taken
      exact keep_of_called stepped (by simp [place, CallerPc.kind])
    · cases taken
      exact keep_of_same rfl rfl (by simp [place, CallerPc.kind])
  | deletingPool restart index =>
    simp only [callStep, place] at taken
    split at taken <;> cases taken
    exact keep_of_same rfl rfl (by simp [place, CallerPc.kind])
  | clearPools restart =>
    simp only [callStep, place, Option.some.injEq] at taken
    subst taken
    rw [view_moveCaller]
    exact .clear (by simp [view, place, CallerPc.kind])
  | reset restart pc =>
    simp only [callStep, place, Option.some.injEq] at taken
    subst taken
    cases pc with
    | storeStart =>
      rw [view_moveCaller]
      exact .unset (by simp [view, place, CallerPc.kind])
    | storeStop => exact keep_of_same rfl rfl (by simp [place, CallerPc.kind, AtomicSwitch.reset, Progress.elim])
    | storeInit =>
      rw [view_moveCaller]
      have free : (afterStop restart : CallerPc P F).kind = .free := by cases restart <;> rfl
      simp only [AtomicSwitch.reset, Progress.elim, free]
      exact .unlock (by simp [view, place, CallerPc.kind])
  | lockShared entry =>
    simp only [callStep, place] at taken
    obtain ⟨mtx, locked, rfl⟩ := Option.map_eq_some_iff.mp taken
    rw [view_moveCaller]
    exact .lockShared (by simp [view, place, CallerPc.kind]) locked
  | addTest entry pc =>
    simp only [callStep, place, Option.some.injEq] at taken
    subst taken
    have leaves : View.Step filled pool.view caller (pool.leave caller).view := by
      unfold leave
      rw [view_moveCaller]
      refine .leave ?_
      cases pc <;> simp [view, place, CallerPc.kind, Kind.reads]
    cases pc with
    | loadStop =>
      simp only [hasStarted]
      split
      · exact leaves
      · exact keep_of_same rfl rfl (by simp [place, CallerPc.kind])
    | loadStart =>
      simp only [hasStarted]
      split
      · rename_i started
        simp only [Progress.elim]
        rw [view_moveCaller]
        exact .test (by simp [view, place, CallerPc.kind]) started
      · exact leaves
    | loadInit =>
      simp only [hasStarted, Progress.elim]
      split
      · rw [view_moveCaller]
        exact .pass (by simp [view, place, CallerPc.kind])
      · exact leaves
  | getThreadIndex entry =>
    simp only [callStep, place] at taken
    obtain ⟨⟨found, index⟩, indexed, rfl⟩ := Option.map_eq_some_iff.mp taken
    obtain ⟨propIndex, same, below, mapped⟩ := getThreadIndex_cases sound.mapped indexed
    rw [view_moveCaller, same]
    exact .index (by simp [view, place, CallerPc.kind]) below mapped
  | addTask index entry =>
    simp only [callStep, place] at taken
    obtain ⟨called, stepped, rfl⟩ := Option.map_eq_some_iff.mp taken
    exact keep_of_called stepped (by simp [place, CallerPc.kind])
  | addingTask index entry =>
    simp only [callStep, place] at taken
    split at taken <;> cases taken
    unfold leave
    rw [view_moveCaller]
    exact .leave (by simp [view, place, CallerPc.kind, Kind.reads])

/-- An `add_task` at `get_thread_index` finds pools, and an index that it gets is one of theirs. -/
def IndexSafe (pool : RotateSerialTaskPool P F C) : Prop :=
  ∀ caller entry, (pool.caller caller = .getThreadIndex entry → pool.taskPools ≠ []) ∧
    ∀ index, pool.caller caller = .addTask index entry ∨ pool.caller caller = .addingTask index entry →
      index < pool.taskPools.length

/-- The test of the switch in `add_task` does not succeed while a `start` has set the switch and has still to
create its pools, and no `create_threads` is left without a pool. -/
def Created (coreNum : Nat) (pool : RotateSerialTaskPool P F C) : Action P F C → Prop
  | .caller caller =>
    ((pool.caller caller).kind = .tested → pool.atomicSwitch.binit = true →
        ∀ other, (pool.caller other).kind.opening = false) ∧
      (pool.caller caller).fills coreNum = true
  | _ => True

instance [Fintype C] (action : Action P F C) : Decidable (pool.Created coreNum action) :=
  match action with
  | .caller _ => inferInstanceAs (Decidable ((_ → _ → _) ∧ _ = true))
  | .call .. | .inner .. | .queue .. | .worker .. => .isTrue trivial

omit [DecidableEq P] [DecidableEq F] [DecidableEq C] in
theorem indexSafe_iff : pool.IndexSafe ↔ pool.view.Safe := by
  constructor
  · intro safe caller
    have here := safe caller
    simp only [view]
    cases place : pool.caller caller with
    | getThreadIndex entry => simpa [CallerPc.kind] using (here entry).1 place
    | addTask index entry => simpa [CallerPc.kind] using (here entry).2 index (.inl place)
    | addingTask index entry => simpa [CallerPc.kind] using (here entry).2 index (.inr place)
    | reset restart pc => cases pc <;> simp [CallerPc.kind]
    | addTest entry pc => cases pc <;> simp [CallerPc.kind]
    | _ => simp [CallerPc.kind]
  · intro safe caller entry
    obtain ⟨atIndex, behind⟩ := safe caller
    simp only [view] at atIndex behind
    constructor
    · intro place
      simpa [place, CallerPc.kind] using atIndex
    · rintro index (place | place)
      · simpa [place, CallerPc.kind] using behind index
      · simpa [place, CallerPc.kind] using behind index

/-- Only the steps of callers are seen. -/
theorem view_next (taken : pool.next coreNum action = some after) :
    (∃ caller, action = .caller caller ∧ pool.callStep coreNum caller = some after) ∨
      ((∀ caller, action ≠ .caller caller) ∧ after.view = pool.view) := by
  cases action with
  | call caller operation =>
    refine .inr ⟨by simp, ?_⟩
    simp only [next] at taken
    split at taken
    · rename_i idle
      have free : (pool.caller caller).kind = .free := by rw [idle]; rfl
      cases operation <;> cases taken <;> exact view_same free.symm
    · cases taken
  | caller caller => exact .inl ⟨caller, rfl, taken⟩
  | inner index inside =>
    refine .inr ⟨by simp, ?_⟩
    obtain ⟨inner, _, stepped⟩ := Option.bind_eq_some_iff.mp taken
    obtain ⟨reached, _, rfl⟩ := Option.map_eq_some_iff.mp stepped
    exact view_setPool index reached
  | queue index inside =>
    refine .inr ⟨by simp, ?_⟩
    obtain ⟨inner, _, stepped⟩ := Option.bind_eq_some_iff.mp taken
    obtain ⟨reached, _, rfl⟩ := Option.map_eq_some_iff.mp stepped
    simp [view]
  | worker index thread =>
    refine .inr ⟨by simp, ?_⟩
    obtain ⟨inner, _, stepped⟩ := Option.bind_eq_some_iff.mp taken
    obtain ⟨reached, _, rfl⟩ := Option.map_eq_some_iff.mp stepped
    simp [view]

theorem sound_next (sound : pool.view.Sound (coreNum ≠ 0)) (taken : pool.next coreNum action = some after) :
    after.view.Sound (coreNum ≠ 0) := by
  rcases view_next taken with ⟨caller, rfl, stepped⟩ | ⟨_, same⟩
  · exact sound.step (view_step sound (fun cores => CallerPc.fills_of_cores cores _) stepped)
  · rwa [same]

/-- A step keeps the indices safe where the pools have been created in time for it. -/
theorem safe_next (sound : pool.view.Sound True) (safe : pool.view.Safe) (created : pool.Created coreNum action)
    (taken : pool.next coreNum action = some after) : after.view.Safe ∧ after.view.Sound True := by
  rcases view_next taken with ⟨caller, rfl, stepped⟩ | ⟨_, same⟩
  · have step := view_step sound (fun _ => created.2) stepped
    refine ⟨(sound.safe_step safe step).mpr fun was now none => ?_, sound.step step⟩
    have set : pool.atomicSwitch.binit = true := by
      by_contra unset
      simp only [view] at was
      cases place : pool.caller caller with
      | addTest entry pc =>
        cases pc with
        | loadInit =>
          simp only [callStep, place, hasStarted, unset, Progress.elim, if_false, Option.some.injEq] at stepped
          simp [← stepped, view, leave, moveCaller, CallerPc.kind] at now
        | _ => simp [place, CallerPc.kind] at was
      | reset restart pc => cases pc <;> simp [place, CallerPc.kind] at was
      | _ => simp [place, CallerPc.kind] at was
    -- the pools are only cleared under the write lock, and this caller has the lock shared
    obtain ⟨other, opening | cleared⟩ := sound.manned trivial (sound.tested caller was) none
    · exact absurd opening (by simp [view, created.1 was set other])
    · have writes : (pool.view.kind other).writes = true := by rw [cleared]; rfl
      have reads := sound.locks.reads_eq_false writes caller
      simp [was, Kind.reads] at reads
  · rw [same]
    exact ⟨safe, sound⟩

omit [DecidableEq F] [DecidableEq C] [DecidableEq P] in
theorem construct_sound (maxTaskCount : UInt64) :
    (construct maxTaskCount : RotateSerialTaskPool P F C).view.Sound filled := by
  refine ⟨⟨?_, ?_⟩, ?_, ?_, ?_⟩
  · intro caller
    simp [construct, view, RwMutex.free, CallerPc.kind, Kind.writes]
  · intro caller
    simp [construct, view, RwMutex.free, CallerPc.kind, Kind.reads]
  · simp [construct, view, AtomicSwitch.construct]
  · intro caller
    simp [construct, view, CallerPc.kind]
  · simp [construct, view]

/-- No `add_task` takes a remainder by zero or an index outside of the pools, as long as no test of
the switch succeeds before a `start` has created its pools, and each creates some. -/
theorem index_safe_of_created {maxTaskCount : UInt64}
    (path : Path (Guarded (Taken (next coreNum)) (Created coreNum)) (construct maxTaskCount) actions after) :
    after.IndexSafe := by
  have both := path.invariant (fun pool => pool.view.Safe ∧ pool.view.Sound True) ?_ ⟨?_, construct_sound maxTaskCount⟩
  · exact indexSafe_iff.mpr both.1
  · intro before action after ⟨safe, sound⟩ ⟨created, taken⟩
    exact safe_next sound safe created taken
  · refine indexSafe_iff.mp fun caller entry => ?_
    simp [construct]

/-- A pool is started, and then a task is added. -/
def addStarted : List (Action Nat Nat (Fin 2)) :=
  List.flatten
    [[.call 0 (.start 1)], List.replicate 7 (.caller 0), List.replicate 6 (.inner 0 (some 0)),
      List.replicate 2 (.caller 0), [.call 1 (.addTask 5 (some 50))], List.replicate 5 (.caller 1)]

theorem index_safe_of_created_started :
    ∃ pool : RotateSerialTaskPool Nat Nat (Fin 2),
      Path (Guarded (Taken (next 1)) (Created 1)) (construct 0) addStarted pool ∧
        pool.caller 1 = .addTask 0 ⟨0, 5, some 50⟩ ∧ pool.IndexSafe := by
  have runs : (exec (checked (next 1) (Created 1)) (construct 0) addStarted).map (fun pool =>
      decide (pool.caller 1 = .addTask 0 ⟨0, 5, some 50⟩)) = some true := by
    decide +kernel
  obtain ⟨pool, ends, indexed⟩ := Option.map_eq_some_iff.mp runs
  exact ⟨pool, Path.of_checked ends, of_decide_eq_true indexed, index_safe_of_created (Path.of_checked ends)⟩

/-- A task is added while `start` waits for the write lock. -/
def addStarting : List (Action Nat Nat (Fin 2)) :=
  List.flatten
    [[.call 0 (.start 1)], List.replicate 4 (.caller 0), [.call 1 (.addTask 5 (some 50))],
      List.replicate 4 (.caller 1)]

/-- It is at `get_thread_index`, and takes the remainder by zero. -/
theorem index_unsafe_starting :
    ∃ pool : RotateSerialTaskPool Nat Nat (Fin 2),
      Path (Taken (next 1)) (construct 0) addStarting pool ∧ ¬ pool.IndexSafe := by
  have runs : ∃ pool ∈ exec (next 1) (construct 0) addStarting,
      pool.caller 1 = .getThreadIndex ⟨0, 5, some 50⟩ ∧ pool.taskPools.length = 0 := by
    decide
  obtain ⟨pool, ends, place, none⟩ := runs
  refine ⟨pool, exec_eq_some_iff.mp ends, fun safe => ?_⟩
  exact (safe 1 _).1 place (List.length_eq_zero_iff.mp none)

end BTool.TaskPool.RotateSerialTaskPool
