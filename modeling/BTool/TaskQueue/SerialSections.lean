import Mathlib.Data.Fintype.Basic
import BTool.Foundation.Transition
import BTool.TaskQueue.SerialInvariant

/-! Runs of a `SerialTaskQueue`: any threads enter its locked sections in any order.

The state holds the queue, the task each worker is executing, and three logs that no
section reads: the accepted, the started and the still waiting tasks. -/

namespace BTool.TaskQueue.SerialTaskQueue

open BTool.Foundation

/-- A task that a worker executes between the two sections of `pop_task`. -/
structure Running (P F : Type) where
  prop : P
  task : F
  /-- The deque it was taken from has not been erased since. -/
  attached : Bool
deriving DecidableEq

structure State (P F W : Type) [DecidableEq P] where
  queue : SerialTaskQueue P F
  running : W → Option (Running P F)
  accepted : List (P × TaskItem F)
  started : List (P × TaskItem F)
  pending : List (P × TaskItem F)

inductive Action (P F W : Type) where
  | addTask (prop : P) (func : TaskItem F)
  | popBegin (worker : W)
  | popFinish (worker : W)
  | removeProp (prop : P)
  | clear
  | stop (bwait : Bool)
  | start
deriving DecidableEq

variable {P F W : Type} [DecidableEq P] [DecidableEq F] [DecidableEq W]

/-- Tasks whose deque is gone from the queue are no longer attached to it. -/
def detach (queue : SerialTaskQueue P F) (running : W → Option (Running P F)) (worker : W) :
    Option (Running P F) :=
  (running worker).map fun current =>
    { current with attached := current.attached && current.prop ∈ queue.waitTasks }

namespace State

def init (maxTaskCount : UInt64) : State P F W :=
  { queue := construct maxTaskCount, running := fun _ => none, accepted := [], started := [],
    pending := [] }

/-- A task has been accepted. -/
def accept (state : State P F W) (prop : P) (func : TaskItem F) : State P F W :=
  { state with
    queue := state.queue.pushTask prop func
    accepted := state.accepted ++ [(prop, func)]
    pending := state.pending ++ [(prop, func)] }

/-- A worker has taken a task; an empty function is not called, and `pop_task` returns. -/
def take (state : State P F W) (worker : W) (prop : P) (func : TaskItem F)
    (queue : SerialTaskQueue P F) : State P F W :=
  { state with
    queue
    running := Function.update state.running worker (func.map fun task => ⟨prop, task, true⟩)
    started := state.started ++ [(prop, func)]
    pending := state.pending.erase (prop, func) }

/-- A worker has finished its task. -/
def finish (state : State P F W) (worker : W) (queue : SerialTaskQueue P F) : State P F W :=
  { state with queue, running := detach queue (Function.update state.running worker none) }

/-- One section; `none` when the thread cannot enter it or the section is undefined. -/
def next (state : State P F W) : Action P F W → Option (State P F W)
  | .addTask prop func => some (if state.queue.bstop then state else state.accept prop func)
  | .popBegin worker =>
    if (state.running worker).isSome then none
    else
      match state.queue.popBegin with
      | .waits => none
      | .returns => some state
      | .undefined => none
      | .takes prop func queue => some (state.take worker prop func queue)
  | .popFinish worker => do
    let current ← state.running worker
    let queue ← state.queue.popFinish current.prop
    return state.finish worker queue
  | .removeProp prop =>
    let queue := state.queue.removeProp prop
    some { state with
      queue, running := detach queue state.running
      pending := state.pending.filter fun entry => entry.1 ≠ prop }
  | .clear =>
    let queue := state.queue.clear
    some { state with queue, running := detach queue state.running, pending := [] }
  | .stop bwait =>
    let queue := state.queue.stop bwait
    some { state with
      queue, running := detach queue state.running
      pending := if state.queue.bstop || bwait then state.pending else [] }
  | .start => some { state with queue := state.queue.start }

section Cases

variable {state after : State P F W} {prop : P} {func : TaskItem F} {worker : W}

theorem addTask_cases (taken : state.next (.addTask prop func) = some after) :
    (state.queue.bstop = true ∧ after = state) ∨
      (state.queue.bstop = false ∧ after = state.accept prop func) := by
  have same := Option.some.inj taken
  cases stopped : state.queue.bstop with
  | true => exact .inl ⟨rfl, by simpa [stopped] using same.symm⟩
  | false => exact .inr ⟨rfl, by simpa [stopped] using same.symm⟩

/-- A begin section that is entered takes a task, unless the queue is stopped and idle. -/
theorem popBegin_cases (taken : state.next (.popBegin worker) = some after) :
    state.running worker = none ∧
      ((state.queue.popBegin = .returns ∧ after = state) ∨
        ∃ prop func queue, state.queue.popBegin = .takes prop func queue ∧
          after = state.take worker prop func queue) := by
  simp only [next] at taken
  split at taken
  · cases taken
  rename_i free
  refine ⟨by simpa using free, ?_⟩
  cases begun : state.queue.popBegin with
  | waits => simp [begun] at taken
  | undefined => simp [begun] at taken
  | returns =>
    left
    exact ⟨rfl, by simpa [begun] using taken.symm⟩
  | takes prop func queue =>
    right
    exact ⟨prop, func, queue, rfl, by simpa [begun] using taken.symm⟩

theorem popFinish_cases (taken : state.next (.popFinish worker) = some after) :
    ∃ current queue, state.running worker = some current ∧
      state.queue.popFinish current.prop = some queue ∧ after = state.finish worker queue := by
  obtain ⟨current, isRunning, rest⟩ := Option.bind_eq_some_iff.mp taken
  obtain ⟨queue, finished, same⟩ := Option.bind_eq_some_iff.mp rest
  exact ⟨current, queue, isRunning, finished, (Option.some.inj same).symm⟩

theorem isSome_running_popBegin (taken : state.next (.popBegin worker) = some after) {other : W}
    (apart : other ≠ worker) : (after.running other).isSome = (state.running other).isSome := by
  obtain ⟨_, ⟨_, rfl⟩ | ⟨prop, func, queue, _, rfl⟩⟩ := popBegin_cases taken
  · rfl
  · simp [take, apart]

theorem isSome_running_popFinish (taken : state.next (.popFinish worker) = some after) (other : W) :
    (after.running other).isSome = if other = worker then false
      else (state.running other).isSome := by
  obtain ⟨current, queue, _, _, rfl⟩ := popFinish_cases taken
  by_cases same : other = worker <;> simp [finish, detach, same]

theorem maxTaskCount_next {action : Action P F W} (taken : state.next action = some after) :
    after.queue.maxTaskCount = state.queue.maxTaskCount := by
  cases action with
  | addTask prop func => obtain ⟨_, rfl⟩ | ⟨_, rfl⟩ := addTask_cases taken <;> rfl
  | popBegin worker =>
    obtain ⟨_, ⟨_, rfl⟩ | ⟨prop, func, queue, begun, rfl⟩⟩ := popBegin_cases taken
    · rfl
    · exact (popBegin_frame begun).2.2.2.2.2
  | popFinish worker =>
    obtain ⟨current, queue, _, finished, rfl⟩ := popFinish_cases taken
    exact (popFinish_frame finished).2.2.2
  | removeProp prop => cases taken; rfl
  | clear => cases taken; rfl
  | stop bwait =>
    cases taken
    simp only [SerialTaskQueue.stop]
    split
    · rfl
    · split <;> rfl
  | start => cases taken; rfl

end Cases

/-- A worker is executing a task of the property that was taken from the deque that
stands there now. -/
def Attached (state : State P F W) (prop : P) : Prop :=
  ∃ worker current, state.running worker = some current ∧ current.prop = prop ∧
    current.attached = true

/-- A worker is executing a task of the property whose deque has been erased since. -/
def Orphaned (state : State P F W) (prop : P) : Prop :=
  ∃ worker current, state.running worker = some current ∧ current.prop = prop ∧
    current.attached = false

/-- No two workers execute tasks of one property. -/
def Exclusive (state : State P F W) : Prop :=
  ∀ first second current other, state.running first = some current →
    state.running second = some other → current.prop = other.prop → first = second

end State

/-- The condition under which the structures stay in step: no task is accepted for a
property while an orphaned task of that property is executing. -/
def NoAddToOrphan (state : State P F W) : Action P F W → Prop
  | .addTask prop _ => state.queue.bstop = true ∨ ¬ state.Orphaned prop
  | _ => True

omit [DecidableEq F] [DecidableEq W] in
theorem State.orphaned_iff (state : State P F W) (prop : P) : state.Orphaned prop ↔
    ∃ worker, (state.running worker).any fun current =>
      current.prop = prop && !current.attached := by
  simp only [State.Orphaned, Option.any_eq_true, Bool.and_eq_true, decide_eq_true_eq,
    Bool.not_eq_true']

instance [Fintype W] (state : State P F W) (prop : P) : Decidable (state.Orphaned prop) :=
  decidable_of_iff _ (state.orphaned_iff prop).symm

instance [Fintype W] (state : State P F W) (action : Action P F W) :
    Decidable (NoAddToOrphan state action) := by
  -- `casesOn` leaves no equations in what `decide` evaluates
  induction action using Action.casesOn <;> unfold NoAddToOrphan <;> infer_instance

variable {state after : State P F W} {held : Finset P} {action : Action P F W} {prop : P}
  {func : TaskItem F} {worker other : W} {current : Running P F}

omit [DecidableEq F] [DecidableEq W] in
theorem detach_eq_some {queue : SerialTaskQueue P F} {running : W → Option (Running P F)} :
    detach queue running worker = some current ↔ ∃ before, running worker = some before ∧
      current = { before with attached := before.attached && before.prop ∈ queue.waitTasks } := by
  unfold detach
  rw [Option.map_eq_some_iff]
  constructor
  · rintro ⟨before, found, same⟩
    exact ⟨before, found, same.symm⟩
  · rintro ⟨before, found, same⟩
    exact ⟨before, found, same.symm⟩

/-- How the properties with a moved-out task at the front of their deque change. -/
def heldAfter (state : State P F W) (held : Finset P) : Action P F W → Finset P
  | .addTask _ _ => held
  | .popBegin _ =>
    match state.queue.popBegin with
    | .takes prop _ _ => insert prop held
    | _ => held
  | .popFinish worker =>
    match state.running worker with
    | none => held
    | some current => held.erase current.prop
  | .removeProp prop => held.erase prop
  | .clear => ∅
  | .stop bwait => if state.queue.bstop || bwait then held else ∅
  | .start => held

/-- The queue tracks the waiting tasks, an attached task is the one whose place is held,
an orphaned one has no deque at all, and no property is executed twice. -/
structure Consistent (state : State P F W) (held : Finset P) : Prop where
  tracks : Tracks state.queue held state.pending
  attached : ∀ worker current, state.running worker = some current → current.attached = true →
    current.prop ∈ held
  orphaned : ∀ worker current, state.running worker = some current → current.attached = false →
    current.prop ∉ state.queue.waitTasks
  exclusive : state.Exclusive

omit [DecidableEq F] [DecidableEq W] in
theorem init_consistent (maxTaskCount : UInt64) :
    Consistent (State.init maxTaskCount : State P F W) ∅ where
  tracks := construct_tracks maxTaskCount
  attached := by simp [State.init]
  orphaned := by simp [State.init]
  exclusive := by
    intro first second current other isRunning
    simp [State.init] at isRunning

omit [DecidableEq F] [DecidableEq W] in
/-- After a section that only takes deques away, the tasks that lost theirs are orphaned. -/
private theorem consistent_of_detach {queue : SerialTaskQueue P F}
    {running : W → Option (Running P F)} {accepted started pending : List (P × TaskItem F)}
    (tracks : Tracks queue held pending)
    (keeps : ∀ worker current, running worker = some current → current.attached = true →
      current.prop ∈ queue.waitTasks → current.prop ∈ held)
    (gone : ∀ worker current, running worker = some current → current.attached = false →
      current.prop ∉ queue.waitTasks)
    (exclusive : ∀ first second current other, running first = some current →
      running second = some other → current.prop = other.prop → first = second) :
    Consistent ⟨queue, detach queue running, accepted, started, pending⟩ held where
  tracks := tracks
  attached := by
    intro worker current isRunning isAttached
    obtain ⟨before, found, rfl⟩ := detach_eq_some.mp isRunning
    obtain ⟨was, stands⟩ := by simpa using isAttached
    exact keeps worker before found was stands
  orphaned := by
    intro worker current isRunning isOrphan
    obtain ⟨before, found, rfl⟩ := detach_eq_some.mp isRunning
    intro stands
    cases was : before.attached with
    | false => exact gone worker before found was stands
    | true => simp [was, show before.prop ∈ queue.waitTasks from stands] at isOrphan
  exclusive := by
    intro first second current other firstRuns secondRuns same
    obtain ⟨before, found, rfl⟩ := detach_eq_some.mp firstRuns
    obtain ⟨before', found', rfl⟩ := detach_eq_some.mp secondRuns
    exact exclusive first second before before' found found' same

omit [DecidableEq F] [DecidableEq W] in
theorem Consistent.accept (consistent : Consistent state held)
    (apart : ¬ state.Orphaned prop) : Consistent (state.accept prop func) held where
  tracks := consistent.tracks.pushTask
  attached := consistent.attached
  orphaned := by
    intro worker current isRunning isOrphan stands
    have different : current.prop ≠ prop := fun same =>
      apart ⟨worker, current, isRunning, same, isOrphan⟩
    have before : current.prop ∈ state.queue.waitTasks := by
      simpa [State.accept, SerialTaskQueue.pushTask, different] using stands
    exact consistent.orphaned worker current isRunning isOrphan before
  exclusive := consistent.exclusive

/-- A worker that begins a task is the only one executing its property. -/
theorem Consistent.take (consistent : Consistent state held) {queue : SerialTaskQueue P F}
    (takes : state.queue.popBegin = .takes prop func queue) :
    Consistent (state.take worker prop func queue) (insert prop held) := by
  obtain ⟨first, tracks⟩ := consistent.tracks.popBegin takes
  have eligible : prop ∉ state.queue.curProps := (popBegin_frame takes).1
  have waits : prop ∈ state.pending.map Prod.fst :=
    List.mem_map.mpr ⟨_, List.mem_of_find?_eq_some first, rfl⟩
  have stands : prop ∈ state.queue.waitTasks := consistent.tracks.mem_keys.mpr (.inr waits)
  have unshared {other : W} {current : Running P F} (isRunning : state.running other = some current) :
      current.prop ≠ prop := by
    intro same
    cases attached : current.attached with
    | true =>
      have inside := consistent.attached other current isRunning attached
      exact eligible (consistent.tracks.running (same ▸ inside))
    | false => exact consistent.orphaned other current isRunning attached (same ▸ stands)
  have cases_ {other : W} {current : Running P F}
      (isRunning : Function.update state.running worker (func.map fun task => ⟨prop, task, true⟩)
        other = some current) :
      (other = worker ∧ current.prop = prop ∧ current.attached = true) ∨
        (other ≠ worker ∧ state.running other = some current) := by
    by_cases same : other = worker
    · subst same
      rw [Function.update_self] at isRunning
      obtain ⟨task, _, rfl⟩ := Option.map_eq_some_iff.mp isRunning
      exact .inl ⟨rfl, rfl, rfl⟩
    · rw [Function.update_of_ne same] at isRunning
      exact .inr ⟨same, isRunning⟩
  refine ⟨tracks, ?_, ?_, ?_⟩
  · intro other current isRunning attached
    rcases cases_ isRunning with ⟨_, same, _⟩ | ⟨_, before⟩
    · exact same ▸ Finset.mem_insert_self _ _
    · exact Finset.mem_insert_of_mem (consistent.attached other current before attached)
  · intro other current isRunning orphan
    rcases cases_ isRunning with ⟨_, _, attached⟩ | ⟨_, before⟩
    · simp [orphan] at attached
    · have gone := consistent.orphaned other current before orphan
      rw [consistent.tracks.mem_keys, not_or] at gone
      intro kept
      rcases tracks.mem_keys.mp kept with inside | waiting
      · rcases Finset.mem_insert.mp inside with same | inside
        · exact unshared before same
        · exact gone.1 inside
      · obtain ⟨entry, member, same⟩ := List.mem_map.mp waiting
        exact gone.2 (List.mem_map.mpr ⟨entry, List.mem_of_mem_erase member, same⟩)
  · intro one two current another oneRuns twoRuns same
    rcases cases_ oneRuns with ⟨oneHere, oneProp, _⟩ | ⟨oneApart, oneBefore⟩ <;>
      rcases cases_ twoRuns with ⟨twoHere, twoProp, _⟩ | ⟨twoApart, twoBefore⟩
    · rw [oneHere, twoHere]
    · exact absurd (same ▸ oneProp) (unshared twoBefore)
    · exact absurd (same.trans twoProp) (unshared oneBefore)
    · exact consistent.exclusive one two current another oneBefore twoBefore same

omit [DecidableEq F] in
theorem Consistent.finish (consistent : Consistent state held)
    (isRunning : state.running worker = some current) :
    ∃ queue, state.queue.popFinish current.prop = some queue ∧
      Consistent (state.finish worker queue) (held.erase current.prop) := by
  have stands : current.prop ∈ held ∨ current.prop ∉ state.queue.waitTasks := by
    cases attached : current.attached with
    | true => exact .inl (consistent.attached worker current isRunning attached)
    | false => exact .inr (consistent.orphaned worker current isRunning attached)
  obtain ⟨queue, success, tracks⟩ := consistent.tracks.popFinish stands
  have before {other : W} {another : Running P F}
      (found : Function.update state.running worker none other = some another) :
      state.running other = some another ∧ another.prop ≠ current.prop := by
    by_cases same : other = worker
    · subst same
      simp at found
    · rw [Function.update_of_ne same] at found
      exact ⟨found, fun shared =>
        same (consistent.exclusive other worker another current found isRunning shared)⟩
  refine ⟨queue, success, consistent_of_detach tracks ?_ ?_ ?_⟩
  · intro other another found attached _
    obtain ⟨earlier, different⟩ := before found
    exact Finset.mem_erase.mpr ⟨different, consistent.attached other another earlier attached⟩
  · intro other another found orphan
    have gone := consistent.orphaned other another (before found).1 orphan
    rw [consistent.tracks.mem_keys, not_or] at gone
    rw [tracks.mem_keys, not_or]
    exact ⟨fun inside => gone.1 (Finset.mem_of_mem_erase inside), gone.2⟩
  · intro one two another third oneRuns twoRuns same
    exact consistent.exclusive one two another third (before oneRuns).1 (before twoRuns).1 same

omit [DecidableEq F] [DecidableEq W] in
theorem Consistent.removeProp (consistent : Consistent state held) :
    Consistent { state with
      queue := state.queue.removeProp prop
      running := detach (state.queue.removeProp prop) state.running
      pending := state.pending.filter fun entry => entry.1 ≠ prop } (held.erase prop) := by
  have keys {other : P} (stands : other ∈ (state.queue.removeProp prop).waitTasks) :
      other ≠ prop ∧ other ∈ state.queue.waitTasks := by
    simpa [SerialTaskQueue.removeProp] using stands
  refine consistent_of_detach consistent.tracks.removeProp ?_ ?_ consistent.exclusive
  · intro worker current isRunning attached stands
    exact Finset.mem_erase.mpr
      ⟨(keys stands).1, consistent.attached worker current isRunning attached⟩
  · intro worker current isRunning orphan stands
    exact consistent.orphaned worker current isRunning orphan (keys stands).2

omit [DecidableEq F] [DecidableEq W] in
theorem Consistent.clearInner (consistent : Consistent state held)
    {queue : SerialTaskQueue P F} :
    Consistent { state with
      queue := queue.clearInner, running := detach queue.clearInner state.running
      pending := [] } ∅ := by
  have nothing (other : P) : other ∉ queue.clearInner.waitTasks := Finmap.notMem_empty
  refine consistent_of_detach (clearInner_tracks queue) ?_ ?_ consistent.exclusive
  · exact fun _ current _ _ stands => absurd stands (nothing current.prop)
  · exact fun _ current _ _ => nothing current.prop

omit [DecidableEq F] [DecidableEq W] in
theorem Consistent.stop (consistent : Consistent state held) (bwait : Bool) :
    Consistent { state with
      queue := state.queue.stop bwait
      running := detach (state.queue.stop bwait) state.running
      pending := if state.queue.bstop || bwait then state.pending else [] }
      (if state.queue.bstop || bwait then held else ∅) := by
  have keep (queue : SerialTaskQueue P F) (same : queue.waitTasks = state.queue.waitTasks)
      (tracks : Tracks queue held state.pending) :
      Consistent { state with queue, running := detach queue state.running } held :=
    consistent_of_detach tracks
      (fun worker current isRunning attached _ =>
        consistent.attached worker current isRunning attached)
      (fun worker current isRunning orphan =>
        same ▸ consistent.orphaned worker current isRunning orphan)
      consistent.exclusive
  unfold SerialTaskQueue.stop
  by_cases stopped : state.queue.bstop = true
  · simp only [stopped, if_true, Bool.true_or]
    exact keep _ rfl consistent.tracks
  · cases bwait with
    | true =>
      simp only [stopped, if_true, Bool.or_true]
      exact keep _ rfl (consistent.tracks.setStop true)
    | false =>
      simp only [stopped, Bool.or_false, Bool.false_eq_true, if_false]
      exact consistent.clearInner

/-- Every section keeps the structures in step, unless it adds to an orphaned property. -/
theorem Consistent.step (consistent : Consistent state held) (guarded : NoAddToOrphan state action)
    (taken : state.next action = some after) : Consistent after (heldAfter state held action) := by
  cases action with
  | addTask prop func =>
    rcases State.addTask_cases taken with ⟨_, rfl⟩ | ⟨opened, rfl⟩
    · exact consistent
    · exact consistent.accept (guarded.resolve_left (by simp [opened]))
  | popBegin worker =>
    obtain ⟨_, ⟨begun, rfl⟩ | ⟨prop, func, queue, begun, rfl⟩⟩ := State.popBegin_cases taken
    · simpa only [heldAfter, begun] using consistent
    · simpa only [heldAfter, begun] using consistent.take begun
  | popFinish worker =>
    obtain ⟨current, queue, isRunning, finished, rfl⟩ := State.popFinish_cases taken
    obtain ⟨queue', success, kept⟩ := consistent.finish isRunning
    obtain rfl : queue' = queue := Option.some.inj (success.symm.trans finished)
    simpa only [heldAfter, isRunning] using kept
  | removeProp prop =>
    cases taken
    exact consistent.removeProp
  | clear =>
    cases taken
    exact consistent.clearInner
  | stop bwait =>
    cases taken
    exact consistent.stop bwait
  | start =>
    cases taken
    exact ⟨consistent.tracks.setStop false, consistent.attached, consistent.orphaned,
      consistent.exclusive⟩

/-- The runs in which no task is accepted for an orphaned property. -/
abbrev Careful : State P F W → Action P F W → State P F W → Prop :=
  Guarded (Taken State.next) NoAddToOrphan

theorem consistent_of_careful {maxTaskCount : UInt64} {actions : List (Action P F W)}
    (path : Path Careful (State.init maxTaskCount) actions state) :
    ∃ held, Consistent state held :=
  path.invariant (fun state => ∃ held, Consistent state held)
    (fun _ _ _ ⟨held, consistent⟩ ⟨guarded, taken⟩ =>
      ⟨heldAfter _ held _, consistent.step guarded taken⟩)
    ⟨∅, init_consistent maxTaskCount⟩

/-- In every careful run no two tasks of one property are ever executing at once. -/
theorem exclusive_of_careful {maxTaskCount : UInt64} {actions : List (Action P F W)}
    (path : Path Careful (State.init maxTaskCount) actions state) : state.Exclusive := by
  obtain ⟨_, consistent⟩ := consistent_of_careful path
  exact consistent.exclusive

/-- `clear` forgets that a property is running, so that its next task is started too. -/
theorem clear_lets_property_run_twice :
    ∃ state, Path (Taken State.next) (State.init 0 : State Nat Nat (Fin 2))
      [.addTask 1 (some 10), .popBegin 0, .clear, .addTask 1 (some 11), .popBegin 1] state ∧
      state.running 0 = some ⟨1, 10, false⟩ ∧ state.running 1 = some ⟨1, 11, true⟩ ∧
      ¬ state.Exclusive := by
  have runs : ∃ state ∈ exec State.next (State.init 0 : State Nat Nat (Fin 2))
      [.addTask 1 (some 10), .popBegin 0, .clear, .addTask 1 (some 11), .popBegin 1],
      state.running 0 = some ⟨1, 10, false⟩ ∧ state.running 1 = some ⟨1, 11, true⟩ := by
    decide
  obtain ⟨state, ends, first, second⟩ := runs
  refine ⟨state, exec_eq_some_iff.mp ends, first, second, ?_⟩
  intro exclusive
  exact absurd (exclusive 0 1 _ _ first second rfl) (by decide)

/-- A careful run: the task that `clear` orphaned finishes before the next one is added. -/
theorem exclusive_after_clear :
    ∃ state, exec (checked State.next NoAddToOrphan) (State.init 0 : State Nat Nat (Fin 2))
      [.addTask 1 (some 10), .popBegin 0, .clear, .popFinish 0, .addTask 1 (some 11), .popBegin 1] =
        some state ∧ state.running 1 = some ⟨1, 11, true⟩ ∧ state.Exclusive := by
  have runs : ∃ state ∈ exec (checked State.next NoAddToOrphan)
      (State.init 0 : State Nat Nat (Fin 2))
      [.addTask 1 (some 10), .popBegin 0, .clear, .popFinish 0, .addTask 1 (some 11), .popBegin 1],
      state.running 1 = some ⟨1, 11, true⟩ := by
    decide
  obtain ⟨state, ends, runs⟩ := runs
  exact ⟨state, ends, runs, exclusive_of_careful (Path.of_checked ends)⟩

end BTool.TaskQueue.SerialTaskQueue
