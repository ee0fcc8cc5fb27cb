import BTool.TaskPool.CoroLifeCycle

/-! What becomes of the tasks that a `CoroSerialTaskPool` has accepted. The coroutine of a property executes
them in order; a restarted pool has no coroutine for the properties that it had before. -/

namespace BTool.TaskPool.CoroSerialTaskPool

open BTool.Foundation BTool.TaskQueue

variable {P F C : Type}

/-- No call of `init_props`, `start` or `stop`. -/
def Action.Within : Action P F C → Prop
  | .initProps _ => False
  | .start => False
  | .stop _ => False
  | _ => True

instance (action : Action P F C) : Decidable action.Within := by
  induction action using Action.casesOn <;> unfold Action.Within <;> infer_instance

/-- The task will have been executed after so many steps of its coroutine. -/
def Due (pool : CoroSerialTaskPool P F C) (task : AddedTask P F) (steps : Nat) : Prop :=
  task ∈ pool.executed ∨ task ∈ (pool.coro task.prop).calling ∧ 1 ≤ steps ∨
    ∃ front back, (pool.goTasks task.prop).items.map SerialTask.callable = front ++ some task :: back ∧
      2 * front.length + 2 + (pool.coro task.prop).calling.length ≤ steps

/-- What the steps of others leave of a property and its coroutine. -/
structure Extends (pool after : CoroSerialTaskPool P F C) (prop : P) : Prop where
  added : pool.added ⊆ after.added
  executed : pool.executed ⊆ after.executed
  coro : pool.coro prop ≠ .absent → after.coro prop = pool.coro prop
  items : pool.coro prop ≠ .absent → (pool.goTasks prop).items <+: (after.goTasks prop).items

section Steps

variable {pool after : CoroSerialTaskPool P F C} {prop other : P} {task : AddedTask P F}
  {steps : Nat}

theorem CoroPc.length_calling (pc : CoroPc P F) : pc.calling.length ≤ 1 := by
  cases pc <;> simp [CoroPc.calling]

theorem Due.waits (due : pool.Due task steps) (late : task ∉ pool.executed) :
    task ∈ pool.waiting task.prop := by
  rcases due with done | ⟨calls, _⟩ | ⟨front, back, items, _⟩
  · exact absurd done late
  · exact List.mem_append_left _ calls
  · refine List.mem_append_right _ (List.mem_filterMap.mpr ?_)
    have member : some task ∈ (pool.goTasks task.prop).items.map SerialTask.callable := by
      rw [items]
      simp
    obtain ⟨item, inside, found⟩ := List.mem_map.mp member
    exact ⟨item, inside, found⟩

/-- A task that waits is due. -/
theorem due_of_waits (waits : task ∈ pool.waiting task.prop) : ∃ steps, pool.Due task steps := by
  rcases List.mem_append.mp waits with calls | filed
  · exact ⟨1, .inr (.inl ⟨calls, Nat.le_refl _⟩)⟩
  · obtain ⟨item, inside, found⟩ := List.mem_filterMap.mp filed
    have member : some task ∈ (pool.goTasks task.prop).items.map SerialTask.callable :=
      List.mem_map.mpr ⟨item, inside, found⟩
    obtain ⟨front, back, split⟩ := List.append_of_mem member
    exact ⟨_, .inr (.inr ⟨front, back, split, Nat.le_refl _⟩)⟩

/-- The coroutine takes the first item. -/
private theorem due_of_taken {rest : List (SerialTask P F)} {item : SerialTask P F}
    {front back : List (Option (AddedTask P F))}
    (split : (item :: rest).map SerialTask.callable = front ++ some task :: back)
    (soon : 2 * front.length + 2 ≤ steps) (chan : (after.goTasks task.prop).items = rest)
    (calls : ∀ called, item.callable = some called → called ∈ (after.coro task.prop).calling) :
    after.Due task (steps - 1) := by
  cases front with
  | nil =>
    obtain ⟨first, _⟩ := List.cons.inj split
    exact .inr (.inl ⟨calls task first, by simp at soon; omega⟩)
  | cons first front =>
    obtain ⟨_, later⟩ := List.cons.inj split
    have few := (after.coro task.prop).length_calling
    rw [List.length_cons] at soon
    exact .inr (.inr ⟨front, back, by rw [chan]; exact later, by omega⟩)

variable [DecidableEq P]

/-- With each step of its coroutine a task is due sooner. -/
theorem Due.coroStep (stored : pool.Stored) (due : pool.Due task steps)
    (taken : pool.coroStep task.prop = some after) : after.Due task (steps - 1) := by
  obtain ⟨_, taken'⟩ := Option.ite_none_right_eq_some.mp taken
  obtain ⟨new, move⟩ := stored.coroMove taken
  by_cases late : task ∈ pool.executed
  · refine .inl ?_
    rw [move.executed]
    exact List.mem_append_left _ late
  have pops := (stored.serves (due.waits late)).2
  rcases due with done | ⟨calls, _⟩ | ⟨front, back, split', soon⟩
  · exact absurd done late
  · refine .inl ?_
    cases here : pool.coro task.prop with
    | call called =>
      obtain rfl : task = called := by simpa [here, CoroPc.calling] using calls
      simp only [here] at taken'
      cases taken'
      exact List.mem_append_right _ List.mem_cons_self
    | callRest called =>
      obtain rfl : task = called := by simpa [here, CoroPc.calling] using calls
      simp only [here] at taken'
      cases taken'
      exact List.mem_append_right _ List.mem_cons_self
    | _ => simp [here, CoroPc.calling] at calls
  · -- The channel is as it was, and its coroutine is back at it.
    have back' {pc : CoroPc P F} {executed : List (AddedTask P F)} (calls : pc.calling = [])
        (called : (pool.coro task.prop).calling.length = 1) :
        ({ pool with executed }.moveCoro task.prop pc).Due task (steps - 1) := by
      have at' : ({ pool with executed }.moveCoro task.prop pc).coro task.prop = pc :=
        Function.update_self ..
      refine .inr (.inr ⟨front, back, split', ?_⟩)
      rw [at', calls, List.length_nil]
      omega
    cases here : pool.coro task.prop with
    | absent => exact absurd here move.here
    | pop =>
      rw [here] at soon
      simp only [here] at taken'
      split at taken'
      · cases taken'
      · rename_i item rest items
        cases taken'
        rw [items] at split'
        refine due_of_taken split' soon (by simp [moveCoro, setChan]) fun called found => ?_
        rcases stored.kinds task.prop item (by rw [items]; exact List.mem_cons_self) with kind | ⟨_, nothing⟩
        · simp [moveCoro, kind, found, CoroPc.calling]
        · simp [SerialTask.callable, nothing] at found
    | call called =>
      simp only [here] at taken'
      cases taken'
      exact back' rfl (by rw [here]; rfl)
    | tryPop =>
      rw [here] at soon
      simp only [here] at taken'
      split at taken'
      · rename_i items
        rw [items] at split'
        simp at split'
      · rename_i item rest items
        cases taken'
        rw [items] at split'
        refine due_of_taken split' soon (by simp [moveCoro, setChan]) fun called found => ?_
        simp [moveCoro, found, CoroPc.calling]
    | callRest called =>
      simp only [here] at taken'
      cases taken'
      exact back' rfl (by rw [here]; rfl)
    | close => simp [here, CoroPc.drained] at pops
    | exit => simp [here, CoroPc.drained] at pops
    | ended => simp [here, CoroPc.drained] at pops

/-- A coroutine for which a task waits can take a step. -/
theorem Stored.coroStep_isSome (stored : pool.Stored) (scheduling : pool.scheduling = true)
    (waits : task ∈ pool.waiting task.prop) : ∃ after, pool.coroStep task.prop = some after := by
  obtain ⟨live, pops⟩ := stored.serves waits
  unfold CoroSerialTaskPool.coroStep
  rw [if_pos scheduling]
  cases here : pool.coro task.prop with
  | absent => exact absurd here live
  | pop =>
    cases items : (pool.goTasks task.prop).items with
    | nil => simp [waiting, here, items, CoroPc.calling] at waits
    | cons item rest => exact ⟨_, rfl⟩
  | call called => exact ⟨_, rfl⟩
  | tryPop => cases items : (pool.goTasks task.prop).items <;> exact ⟨_, rfl⟩
  | callRest called => exact ⟨_, rfl⟩
  | close => simp [here, CoroPc.drained] at pops
  | exit => simp [here, CoroPc.drained] at pops
  | ended => simp [here, CoroPc.drained] at pops

omit [DecidableEq P] in
/-- The task is due as soon as it was. -/
theorem Due.mono (due : pool.Due task steps)
    (live : task ∈ pool.executed ∨ pool.coro task.prop ≠ .absent)
    (extends' : Extends pool after task.prop) : after.Due task steps := by
  rcases due with done | ⟨calls, soon⟩ | ⟨front, back, split', soon⟩
  · exact .inl (extends'.executed done)
  · rcases live with done | live
    · exact .inl (extends'.executed done)
    · exact .inr (.inl ⟨by rwa [extends'.coro live], soon⟩)
  · rcases live with done | live
    · exact .inl (extends'.executed done)
    · obtain ⟨more, items⟩ := extends'.items live
      refine .inr (.inr ⟨front, back ++ more.map SerialTask.callable, ?_, ?_⟩)
      · rw [← items, List.map_append, split', List.append_assoc, List.cons_append]
      · rwa [extends'.coro live]

omit [DecidableEq P] in
theorem Extends.of_same (added : after.added = pool.added)
    (executed : after.executed = pool.executed)
    (coro : after.coro prop = pool.coro prop) (goTasks : after.goTasks prop = pool.goTasks prop) :
    Extends pool after prop := by
  refine ⟨by rw [added]; exact fun _ => id, by rw [executed]; exact fun _ => id, fun _ => coro,
    fun _ => ?_⟩
  rw [goTasks]

theorem Stored.extends_startProp (stored : pool.Stored) (other : P) :
    Extends pool (pool.startProp other) prop := by
  obtain ⟨added, executed, _⟩ := startProp_kept pool other
  have same (live : pool.coro prop ≠ .absent) :
      (pool.startProp other).coro prop = pool.coro prop ∧
      (pool.startProp other).goTasks prop = pool.goTasks prop := by
    have member := (stored.present prop).mp live
    unfold CoroSerialTaskPool.startProp
    split
    · exact ⟨rfl, rfl⟩
    · rename_i fresh
      have apart : prop ≠ other := by
        rintro rfl
        exact fresh member
      exact ⟨Function.update_of_ne apart _ _, Function.update_of_ne apart _ _⟩
  refine ⟨by rw [added]; exact fun _ => id, by rw [executed]; exact fun _ => id,
    fun live => (same live).1, fun live => ?_⟩
  rw [(same live).2]

theorem extends_push {item : SerialTask P F} {tasks : List (AddedTask P F)}
    (executed : after.executed = pool.executed)
    (added : after.added = pool.added ++ tasks) (coro : after.coro = pool.coro)
    (goTasks : after.goTasks = Function.update pool.goTasks other ((pool.goTasks other).push item)) :
    Extends pool after prop := by
  refine ⟨?_, by rw [executed]; exact fun _ => id, fun _ => by rw [coro], fun _ => ?_⟩
  · rw [added]
    exact fun _ => List.mem_append_left _
  · rw [goTasks]
    by_cases same : prop = other
    · subst same
      rw [Function.update_self, CoChan.push]
      split
      · exact List.prefix_refl _
      · exact List.prefix_append _ _
    · rw [Function.update_of_ne same]

variable [DecidableEq F] [DecidableEq C] {noLock closedReturns : Bool} {caller : C}
    {action : Action P F C}

omit [DecidableEq C] in
theorem Stored.extends_controlStep (stored : pool.Stored)
    (taken : pool.controlStep noLock closedReturns = some after) :
    Extends pool after prop := by
  cases here : pool.control with
  | startProps props =>
    simp only [CoroSerialTaskPool.controlStep, here] at taken
    cases props with
    | nil =>
      cases taken
      exact .of_same rfl rfl rfl rfl
    | cons other rest =>
      cases taken
      obtain ⟨added, executed, coro, items⟩ : Extends pool (pool.startProp other) prop :=
        stored.extends_startProp other
      exact ⟨added, executed, coro, items⟩
  | push bwait props =>
    simp only [CoroSerialTaskPool.controlStep, here] at taken
    cases props with
    | nil =>
      cases taken
      exact .of_same rfl rfl rfl rfl
    | cons other rest =>
      cases taken
      exact extends_push rfl (List.append_nil _).symm rfl rfl
  | idle => simp [CoroSerialTaskPool.controlStep, here] at taken
  | _ =>
    simp only [CoroSerialTaskPool.controlStep, here] at taken
    repeat' split at taken
    all_goals cases taken
    all_goals exact .of_same rfl rfl rfl rfl

theorem Stored.extends_callerStep (stored : pool.Stored)
    (taken : pool.callerStep noLock closedReturns caller = some after) :
    Extends pool after prop := by
  cases here : pool.caller caller with
  | outside => simp [CoroSerialTaskPool.callerStep, here] at taken
  | enter other func =>
    simp only [CoroSerialTaskPool.callerStep, here] at taken
    split at taken
    · cases taken
      exact .of_same rfl rfl rfl rfl
    · split at taken <;> cases taken
      have held : Stored { pool with holder := some (some caller) } :=
        stored.congr rfl rfl rfl rfl rfl
      have started : Extends _ _ prop := held.extends_startProp other
      obtain ⟨added, executed, coro, items⟩ := started
      exact ⟨added, executed, coro, items⟩
  | push other func =>
    simp only [CoroSerialTaskPool.callerStep, here] at taken
    cases taken
    exact extends_push rfl rfl rfl rfl
  | _ =>
    simp only [CoroSerialTaskPool.callerStep, here] at taken
    repeat' split at taken
    all_goals cases taken
    all_goals exact .of_same rfl rfl rfl rfl

/-- A step of `add_task` is no step of `init_props`, `start` or `stop`. -/
theorem control_callerStep (taken : pool.callerStep noLock closedReturns caller = some after) :
    after.control = pool.control ∧ after.atomicSwitch = pool.atomicSwitch := by
  cases here : pool.caller caller with
  | outside => simp [CoroSerialTaskPool.callerStep, here] at taken
  | enter prop func =>
    simp only [CoroSerialTaskPool.callerStep, here] at taken
    split at taken
    · cases taken
      exact ⟨rfl, rfl⟩
    · split at taken <;> cases taken
      obtain ⟨_, _, _, _, control, atomicSwitch⟩ :=
        startProp_kept { pool with holder := some (some caller) } prop
      exact ⟨control, atomicSwitch⟩
  | _ =>
    simp only [CoroSerialTaskPool.callerStep, here] at taken
    repeat' split at taken
    all_goals cases taken
    all_goals exact ⟨rfl, rfl⟩

/-- Whoever takes a step, but the coroutine of the property. -/
theorem Stored.extends_next (stored : pool.Stored) (apart : action ≠ .coro prop)
    (taken : next noLock closedReturns pool action = some after) : Extends pool after prop := by
  cases action with
  | control => exact stored.extends_controlStep taken
  | caller caller => exact stored.extends_callerStep taken
  | coro other =>
    obtain ⟨new, move⟩ := stored.coroMove taken
    have apart' : prop ≠ other := fun same => apart (by rw [same])
    obtain ⟨coro, goTasks⟩ := move.others prop apart'
    refine ⟨by rw [move.added]; exact fun _ => id, ?_, fun _ => coro, fun _ => by rw [goTasks]⟩
    rw [move.executed]
    exact fun _ => List.mem_append_left _
  | initProps props =>
    obtain ⟨_, same⟩ := Option.ite_none_right_eq_some.mp taken
    cases same
    exact .of_same rfl rfl rfl rfl
  | start =>
    obtain ⟨_, same⟩ := Option.ite_none_right_eq_some.mp taken
    cases same
    exact .of_same rfl rfl rfl rfl
  | stop bwait =>
    obtain ⟨_, same⟩ := Option.ite_none_right_eq_some.mp taken
    cases same
    exact .of_same rfl rfl rfl rfl
  | add caller other func =>
    obtain ⟨_, same⟩ := Option.ite_none_right_eq_some.mp taken
    cases same
    exact .of_same rfl rfl rfl rfl

theorem Stored.added_next (stored : pool.Stored) (added : task ∈ pool.added)
    (taken : next noLock closedReturns pool action = some after) : task ∈ after.added := by
  by_cases own : action = .coro task.prop
  · subst own
    obtain ⟨new, move⟩ := stored.coroMove taken
    rwa [move.added]
  · exact (stored.extends_next own taken).added added

omit [DecidableEq F] [DecidableEq C] in
/-- What is due sooner or later is executed, or its coroutine lives. -/
theorem Stored.live_of_due (stored : pool.Stored) (due : pool.Due task steps) :
    task ∈ pool.executed ∨ pool.coro task.prop ≠ .absent := by
  by_cases done : task ∈ pool.executed
  · exact .inl done
  · exact .inr (stored.serves (due.waits done)).1

/-- A task that is due after some steps of its coroutine has been executed when it has taken them. -/
theorem Sound.due_of_path {last : CoroSerialTaskPool P F C} {actions : List (Action P F C)}
    (sound : pool.Sound) (due : pool.Due task steps)
    (path : Path (Guarded (Taken (CoroSerialTaskPool.next noLock closedReturns)) Permitted) pool
      actions last) :
    last.Due task (steps - actions.count (.coro task.prop)) := by
  induction path generalizing steps with
  | nil _ => exact due
  | @cons before middle last action actions head _ ih =>
    obtain ⟨permitted, taken⟩ := head
    have later := sound.next permitted taken
    by_cases own : action = .coro task.prop
    · subst own
      rw [List.count_cons_self, Nat.sub_add_eq, Nat.sub_right_comm]
      exact ih later (due.coroStep sound.stored taken)
    · rw [List.count_cons_of_ne (by simpa using own)]
      exact ih later (due.mono (sound.stored.live_of_due due) (sound.stored.extends_next own taken))

/-- In a call of `stop(true)`, or with the switch as it leaves it. -/
def Stopping (pool : CoroSerialTaskPool P F C) : Prop :=
  match pool.control with
  | .idle => pool.atomicSwitch = .construct
  | .lockProps _ => False
  | .startProps _ => False
  | .init => False
  | .start _ => False
  | .goStart => False
  | _ => True

omit [DecidableEq C] in
theorem Sound.stopping_controlStep (sound : pool.Sound) (stopping : pool.Stopping)
    (taken : pool.controlStep noLock closedReturns = some after) : after.Stopping := by
  have fits := sound.fits
  unfold Stopping at stopping
  cases here : pool.control with
  | idle => simp [CoroSerialTaskPool.controlStep, here] at taken
  | stop bwait pc =>
    rw [here] at fits
    simp only [CoroSerialTaskPool.controlStep, here] at taken
    cases taken
    cases pc with
    | loadInit =>
      obtain ⟨_, switch | switch⟩ := fits
      · rw [switch]
        exact (rfl : AtomicSwitch.construct = .construct)
      · rw [switch]
        trivial
    | loadStart =>
      rw [fits.2]
      trivial
    | exchange =>
      rw [fits.2]
      trivial
  | reset pc =>
    rw [here] at fits
    simp only [CoroSerialTaskPool.controlStep, here] at taken
    cases taken
    cases pc with
    | storeStart => trivial
    | storeStop => trivial
    | storeInit =>
      have switch : pool.atomicSwitch = ⟨true, false, false⟩ := fits
      rw [switch]
      exact (rfl : AtomicSwitch.construct = .construct)
  | lockProps props => simp [here] at stopping
  | startProps props => simp [here] at stopping
  | init => simp [here] at stopping
  | start pc => simp [here] at stopping
  | goStart => simp [here] at stopping
  | push bwait props =>
    simp only [CoroSerialTaskPool.controlStep, here] at taken
    cases props with
    | nil =>
      cases taken
      cases bwait <;> trivial
    | cons prop rest =>
      cases taken
      cases (pool.goTasks prop).closed <;> trivial
  | _ =>
    simp only [CoroSerialTaskPool.controlStep, here] at taken
    repeat' split at taken
    all_goals cases taken
    all_goals trivial

/-- What is kept until `stop(true)` has returned. -/
theorem Sound.stopping_next (sound : pool.Sound) (stopping : pool.Stopping) (within : action.Within)
    (taken : CoroSerialTaskPool.next noLock closedReturns pool action = some after) :
    after.Stopping := by
  have same (control : after.control = pool.control) (atomicSwitch : after.atomicSwitch = pool.atomicSwitch) :
      after.Stopping := by
    unfold Stopping
    rw [control, atomicSwitch]
    exact stopping
  cases action with
  | initProps props => exact within.elim
  | start => exact within.elim
  | stop bwait => exact within.elim
  | control => exact sound.stopping_controlStep stopping taken
  | add caller prop func =>
    obtain ⟨_, eq⟩ := Option.ite_none_right_eq_some.mp taken
    cases eq
    exact same rfl rfl
  | caller caller =>
    obtain ⟨control, atomicSwitch⟩ := control_callerStep taken
    exact same control atomicSwitch
  | coro prop =>
    obtain ⟨new, move⟩ := sound.stored.coroMove taken
    exact same move.control move.atomicSwitch

/-- What is promised of the tasks that have been accepted. -/
structure Executes (noLock closedReturns : Bool) (pool : CoroSerialTaskPool P F C) : Prop where
  /-- Those of one property have been executed, and are executed, as they have been added. -/
  ordered : ∀ prop, tasksOf prop pool.executed ++ (pool.coro prop).calling <+:
    tasksOf prop pool.added
  /-- No two of one property at once. -/
  alone : ∀ first second task other, task ∈ (pool.coro first).calling →
    other ∈ (pool.coro second).calling →
    task.prop = other.prop → first = second ∧ task = other
  /-- While the scheduler runs, a coroutine can take a step until it has executed them. -/
  enabled : pool.scheduling = true → ∀ task ∈ pool.accepted, task.func.isSome = true →
    task ∉ pool.executed →
    ∃ after, CoroSerialTaskPool.next noLock closedReturns pool (.coro task.prop) = some after
  /-- They have been executed after so many steps of their coroutine. -/
  bounded : ∀ task ∈ pool.accepted, task.func.isSome = true → ∃ steps, ∀ actions last,
    Path (Guarded (Taken (CoroSerialTaskPool.next noLock closedReturns)) Permitted) pool actions last →
      steps ≤ actions.count (.coro task.prop) → task ∈ last.executed
  /-- When a `stop(true)` has returned, they have been executed. -/
  stopped : ∀ actions last, (∀ action ∈ actions, action.Within) →
    Path (Guarded (Taken (CoroSerialTaskPool.next noLock closedReturns)) Permitted) pool
      (.stop true :: actions) last →
      last.control = .idle → ∀ task ∈ pool.accepted, task.func.isSome = true → task ∈ last.executed

omit [DecidableEq F] [DecidableEq C] in
/-- A task that has been added has been executed, or it waits. -/
theorem Stored.placed (stored : pool.Stored) (added : task ∈ pool.added)
    (callable : task.func.isSome = true) :
    task ∈ pool.executed ∨ task ∈ pool.waiting task.prop := by
  have member : task ∈ tasksOf task.prop pool.added := by simpa [tasksOf, callable] using added
  rw [← stored.ordered task.prop] at member
  exact (List.mem_append.mp member).imp_left fun done => (List.mem_filter.mp done).1

/-- Once `stop(true)` has returned, what was added before it has been executed. -/
theorem Sound.executed_of_stop {last : CoroSerialTaskPool P F C} {actions : List (Action P F C)}
    (sound : pool.Sound) (within : ∀ action ∈ actions, action.Within)
    (path : Path (Guarded (Taken (CoroSerialTaskPool.next noLock closedReturns)) Permitted) pool
      (.stop true :: actions) last)
    (returned : last.control = .idle) (added : task ∈ pool.added)
    (callable : task.func.isSome = true) :
    task ∈ last.executed := by
  cases path with
  | @cons _ middle _ _ _ head tail =>
    obtain ⟨permitted, taken⟩ := head
    have stopping : middle.Stopping := by
      obtain ⟨_, same⟩ := Option.ite_none_right_eq_some.mp taken
      cases same
      trivial
    obtain ⟨sound, stopping, added⟩ : last.Sound ∧ last.Stopping ∧ task ∈ last.added := by
      apply (tail.guard within).invariant fun pool => pool.Sound ∧ pool.Stopping ∧ task ∈ pool.added
      · intro before action after ⟨sound, stopping, added⟩ ⟨within, permitted, taken⟩
        exact ⟨sound.next permitted taken, sound.stopping_next stopping within taken,
          sound.stored.added_next added taken⟩
      · exact ⟨sound.next permitted taken, stopping, sound.stored.added_next added taken⟩
    have switch : last.atomicSwitch = .construct := by
      unfold Stopping at stopping
      rwa [returned] at stopping
    have shut : ¬ last.Open := by
      intro open'
      have started := open'.1
      rw [switch] at started
      cases started
    have nothing := sound.shut shut task.prop
    rcases sound.stored.placed added callable with done | waits
    · exact done
    · rw [nothing] at waits
      cases waits

theorem Sound.executes (sound : pool.Sound) : pool.Executes noLock closedReturns where
  ordered prop := by
    rw [← sound.stored.ordered prop, waiting, ← List.append_assoc]
    exact List.prefix_append _ _
  alone first second task other calls calls' same := by
    have mine := (sound.stored.mem_waiting (List.mem_append_left _ calls)).2.1
    have theirs := (sound.stored.mem_waiting (List.mem_append_left _ calls')).2.1
    obtain rfl : first = second := mine.symm.trans (same.trans theirs)
    refine ⟨rfl, ?_⟩
    have few := (pool.coro first).length_calling
    cases here : (pool.coro first).calling with
    | nil => simp [here] at calls
    | cons called rest =>
      rw [here, List.length_cons] at few
      obtain rfl : rest = [] := List.eq_nil_of_length_eq_zero (by omega)
      rw [here, List.mem_singleton] at calls calls'
      exact calls.trans calls'.symm
  enabled scheduling task accepted callable late :=
    sound.stored.coroStep_isSome scheduling
      ((sound.stored.placed (sound.accepted accepted) callable).resolve_left late)
  bounded task accepted callable := by
    have due : ∃ steps, pool.Due task steps := by
      rcases sound.stored.placed (sound.accepted accepted) callable with done | waits
      · exact ⟨0, .inl done⟩
      · exact due_of_waits waits
    obtain ⟨steps, due⟩ := due
    refine ⟨steps, fun actions last path enough => ?_⟩
    have later := sound.due_of_path due path
    rw [Nat.sub_eq_zero_of_le enough] at later
    rcases later with done | ⟨_, soon⟩ | ⟨_, _, _, soon⟩
    · exact done
    · omega
    · omega
  stopped actions last within path returned task accepted callable :=
    sound.executed_of_stop within path returned (sound.accepted accepted) callable

/-- In every run without a `stop(false)` in which tasks are only pushed into channels that their
coroutines have not drained, the tasks that have been accepted are executed, in order. -/
theorem executes_of_careful {maxSingleTaskCount : Nat} {actions : List (Action P F C)}
    (path : Path (Guarded (Taken (CoroSerialTaskPool.next noLock closedReturns)) Permitted)
      (construct maxSingleTaskCount) actions pool) : pool.Executes noLock closedReturns := by
  have sound : pool.Sound := by
    apply path.invariant Sound _ (construct_sound maxSingleTaskCount)
    intro before action after sound ⟨permitted, taken⟩
    exact sound.next permitted taken
  exact sound.executes

end Steps

section Restart

def controls (count : Nat) : List (Action Nat Nat (Fin 2)) := List.replicate count .control

/-- A property is set up, and the pool is started. -/
def starts (prop : Nat) : List (Action Nat Nat (Fin 2)) :=
  .initProps [prop] :: controls 3 ++ .start :: controls 5

/-- A task is pushed. -/
def pushes (caller : Fin 2) (prop func : Nat) : List (Action Nat Nat (Fin 2)) :=
  .add caller prop (some func) :: List.replicate 5 (.caller caller)

/-- `stop(true)`, with the steps of the coroutine that drains its channel. -/
def stops (prop : Nat) : List (Action Nat Nat (Fin 2)) :=
  .stop true :: controls 5 ++ [.coro prop] ++ controls 1 ++ List.replicate 3 (.coro prop) ++ controls 7

/-- A task before a restart, and one of a new property behind it. -/
theorem executes_of_careful_two_lives :
    ∃ pool : CoroSerialTaskPool Nat Nat (Fin 2), pool.accepted = [⟨0, 5, some 50⟩, ⟨1, 6, some 60⟩] ∧
      pool.executed = pool.accepted ∧ pool.Executes true true := by
  let life (caller : Fin 2) (prop func : Nat) : List (Action Nat Nat (Fin 2)) :=
    starts prop ++ pushes caller prop func ++ [.coro prop, .caller caller, .coro prop]
  have runs : ∃ pool ∈ exec (checked (CoroSerialTaskPool.next true true) Permitted) (construct 0)
      (life 0 5 50 ++ stops 5 ++ life 1 6 60),
      pool.accepted = [⟨0, 5, some 50⟩, ⟨1, 6, some 60⟩] ∧ pool.executed = pool.accepted := by
    decide
  obtain ⟨pool, run, accepted, executed⟩ := runs
  exact ⟨pool, accepted, executed, executes_of_careful (Path.of_checked run)⟩

/-- A restarted pool accepts a task of a property that has no coroutine any more. A task that is pushed
between the last `try_pop` and the `close` of its coroutine is accepted, too, and lost. -/
theorem not_executes_restart :
    (∃ pool : CoroSerialTaskPool Nat Nat (Fin 2),
      exec (CoroSerialTaskPool.next true true) (construct 0)
        (starts 5 ++ stops 5 ++ .start :: controls 5 ++ pushes 0 5 50 ++ [.caller 0]) = some pool ∧
      pool.accepted = [⟨0, 5, some 50⟩] ∧ pool.executed = [] ∧ pool.scheduling = true ∧
      pool.coro 5 = .ended ∧
      ¬ pool.Executes true true) ∧
    ∃ pool : CoroSerialTaskPool Nat Nat (Fin 2),
      exec (CoroSerialTaskPool.next true false) (construct 1)
        (starts 5 ++ .add 0 5 (some 50) :: List.replicate 4 (.caller 0) ++ .stop true :: controls 5 ++
          [.coro 5, .coro 5, .caller 0, .caller 0] ++ controls 1 ++ [.coro 5, .coro 5] ++
            controls 7) = some pool ∧
      pool.accepted = [⟨0, 5, some 50⟩] ∧ pool.executed = [] ∧ pool.control = .idle ∧
      ¬ pool.Executes true false := by
  have restarted :
    ∃ pool ∈ exec (CoroSerialTaskPool.next true true)
    (construct 0 : CoroSerialTaskPool Nat Nat (Fin 2))
      (starts 5 ++ stops 5 ++ .start :: controls 5 ++ pushes 0 5 50 ++ [.caller 0]),
      pool.accepted = [⟨0, 5, some 50⟩] ∧ pool.executed = [] ∧ pool.scheduling = true ∧
      pool.coro 5 = .ended := by
    decide
  have raced :
    ∃ pool ∈ exec (CoroSerialTaskPool.next true false)
    (construct 1 : CoroSerialTaskPool Nat Nat (Fin 2))
      (starts 5 ++ .add 0 5 (some 50) :: List.replicate 4 (.caller 0) ++ .stop true :: controls 5 ++
        [.coro 5, .coro 5, .caller 0, .caller 0] ++ controls 1 ++ [.coro 5, .coro 5] ++ controls 7),
      pool.accepted = [⟨0, 5, some 50⟩] ∧ pool.executed = [] ∧ pool.control = .idle ∧
        ∃ last ∈ exec (checked (CoroSerialTaskPool.next true false) Permitted) pool [.stop true, .control],
          last.control = .idle ∧ last.executed = [] := by
    decide
  obtain ⟨pool, run, accepted, executed, scheduling, ended⟩ := restarted
  obtain ⟨pool', run', accepted', executed', idle, last, stop, returned, never⟩ := raced
  refine ⟨⟨pool, run, accepted, executed, scheduling, ended, fun executes => ?_⟩,
    pool', run', accepted', executed', idle, fun executes => ?_⟩
  · obtain ⟨after, taken⟩ :=
      executes.enabled scheduling ⟨0, 5, some 50⟩ (by simp [accepted]) rfl (by simp [executed])
    simp [CoroSerialTaskPool.next, coroStep, ended] at taken
  · have done :=
      executes.stopped [.control] last (by simp [Action.Within]) (Path.of_checked stop) returned
      ⟨0, 5, some 50⟩ (by simp [accepted']) rfl
    simp [never] at done

end Restart

end BTool.TaskPool.CoroSerialTaskPool
