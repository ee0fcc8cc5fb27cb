import BTool.TaskPool.Retirement
import BTool.TaskQueue.LatestTask

/-! A `LastTaskPool` is a `TaskPoolBase` over a `LastTaskQueue`, and its graceful stop: of each property the task
that was accepted last is taken to be executed, of those before it some are, in order. A function that is empty is
taken and not called, and no task of its property is taken after it.

A worker leaves on an empty queue though other workers may execute tasks, so a producer that has passed
`has_started` may be late here as with the other pools. -/

namespace BTool.TaskPool

open BTool.Foundation BTool.TaskQueue BTool.TaskQueue.LastTaskQueue

variable {P F C : Type} [DecidableEq P]

/-- The queue of the pool, with the tasks of each property that have been accepted, and those that a worker
has taken. -/
structure LastPoolQueue (P F : Type) [DecidableEq P] where
  state : State P F Nat
  accepted : P → List (TaskItem F)
  taken : P → List (TaskItem F)

namespace LastPoolQueue

variable {queue after : LastPoolQueue P F} {prop : P} {func : TaskItem F} {thread : Nat} {more : Bool}

def construct (maxTaskCount : UInt64) : LastPoolQueue P F :=
  ⟨State.init maxTaskCount, fun _ => [], fun _ => []⟩

/-- The wait for room only delays the section. -/
def addTask (queue : LastPoolQueue P F) (add : P × TaskItem F) : LastPoolQueue P F :=
  if queue.state.queue.bstop then queue
  else { queue with
    state := { queue.state with queue := queue.state.queue.setTask add.1 add.2 }
    accepted := Function.update queue.accepted add.1 (queue.accepted add.1 ++ [add.2]) }

def take (queue : LastPoolQueue P F) : Option (P × TaskItem F) → LastPoolQueue P F
  | none => queue
  | some (prop, func) =>
    { queue with taken := Function.update queue.taken prop (queue.taken prop ++ [func]) }

/-- What the first section of `pop_task` takes. -/
def first (queue : LastPoolQueue P F) : Option (P × TaskItem F) :=
  match queue.state.queue.popBegin with
  | .takes prop func _ => some (prop, func)
  | _ => none

/-- One of the two sections of `pop_task`. -/
def popTask (queue : LastPoolQueue P F) (thread : Nat) : Option (LastPoolQueue P F × Bool) :=
  match queue.state.running thread with
  | none => (queue.state.next (.popBegin thread)).map fun state =>
      ({ queue with state }.take queue.first, (state.running thread).isSome)
  | some _ => (queue.state.next (.popFinish thread)).map fun state => ({ queue with state }, false)

@[simp] theorem state_take (current : Option (P × TaskItem F)) : (queue.take current).state = queue.state := by
  cases current <;> rfl

@[simp] theorem accepted_take (current : Option (P × TaskItem F)) :
    (queue.take current).accepted = queue.accepted := by
  cases current <;> rfl

theorem first_of_none
    (none : queue.state.queue.waitProps.find? (fun prop => prop ∉ queue.state.queue.curPopProps) = none) :
    queue.first = Option.none := by
  unfold first
  split
  · rename_i takes
    cases none.symm.trans (popBegin_takes takes).1
  · rfl

/-- A step of `pop_task` takes a task, finds none that it may take, or is done with one. -/
theorem popTask_cases (popped : queue.popTask thread = some (after, more)) :
    (queue.state.running thread = none ∧ after = queue ∧ more = false) ∨
      (∃ prop, queue.state.running thread = none ∧
        queue.state.next (.popBegin thread) = some (queue.state.take thread prop) ∧
        queue.state.queue.waitProps.find? (fun prop => prop ∉ queue.state.queue.curPopProps) = some prop ∧
        after = { queue with state := queue.state.take thread prop }.take
          (some (prop, (queue.state.queue.waitTasks.lookup prop).getD none)) ∧
        more = ((queue.state.take thread prop).running thread).isSome) ∨
      ∃ current state, queue.state.running thread = some current ∧
        queue.state.next (.popFinish thread) = some state ∧ after = { queue with state } ∧ more = false := by
  unfold popTask at popped
  split at popped
  · rename_i free
    obtain ⟨state, begun, same⟩ := Option.map_eq_some_iff.mp popped
    cases same
    obtain ⟨_, ⟨nothing, rfl⟩ | ⟨prop, found, rfl⟩⟩ := State.popBegin_cases begun
    · left
      rw [free, first_of_none nothing]
      exact ⟨rfl, rfl, rfl⟩
    · have takes : queue.first = some (prop, (queue.state.queue.waitTasks.lookup prop).getD none) := by
        rw [first, popBegin_of_find? found]
      exact .inr (.inl ⟨prop, free, begun, found, by rw [takes], rfl⟩)
  · rename_i current busy
    obtain ⟨state, finished, same⟩ := Option.map_eq_some_iff.mp popped
    cases same
    exact .inr (.inr ⟨current, state, busy, finished, rfl, rfl⟩)

/-- The worker is in `pop_task` still while it executes a task. -/
theorem running_popTask (popped : queue.popTask thread = some (after, more)) :
    (after.state.running thread).isSome = more ∧
      ∀ other, other ≠ thread → after.state.running other = queue.state.running other := by
  rcases popTask_cases popped with
    ⟨free, rfl, rfl⟩ | ⟨prop, _, _, _, rfl, rfl⟩ | ⟨_, state, _, finished, rfl, rfl⟩
  · exact ⟨by rw [free]; rfl, fun _ _ => rfl⟩
  · rw [state_take]
    exact ⟨rfl, fun other apart => Function.update_of_ne apart ..⟩
  · obtain ⟨_, _, rfl⟩ := State.popFinish_cases finished
    exact ⟨by simp, fun other apart => Function.update_of_ne apart ..⟩

theorem bstop_popTask (popped : queue.popTask thread = some (after, more)) :
    after.state.queue.bstop = queue.state.queue.bstop := by
  rcases popTask_cases popped with ⟨_, rfl, _⟩ | ⟨prop, _, _, _, rfl, _⟩ | ⟨_, state, _, finished, rfl, _⟩
  · rfl
  · rw [state_take]
    rfl
  · obtain ⟨_, _, rfl⟩ := State.popFinish_cases finished
    rfl

theorem bstop_addTask (add : P × TaskItem F) : (queue.addTask add).state.queue.bstop = queue.state.queue.bstop := by
  unfold addTask
  split <;> rfl

theorem bstop_stop (queue : LastTaskQueue P F) (bwait : Bool) : (queue.stop bwait).bstop = true := by
  unfold LastTaskQueue.stop
  split
  · assumption
  · cases bwait <;> rfl

instance : TQueueType (LastPoolQueue P F) (P × TaskItem F) where
  bstop queue := queue.state.queue.bstop
  empty queue := queue.state.queue.empty
  start queue := { queue with state := { queue.state with queue := queue.state.queue.start } }
  stop queue bwait := { queue with state := { queue.state with queue := queue.state.queue.stop bwait } }
  addTask := addTask
  popTask := popTask
  bstop_start _ := rfl
  bstop_stop queue bwait := bstop_stop queue.state.queue bwait
  bstop_addTask _ add := bstop_addTask add
  bstop_popTask := bstop_popTask

/-- What has been accepted of a property ends with what waits of it, and of what does not wait any more the last
one has been taken. -/
structure Ledger (queue : LastPoolQueue P F) : Prop where
  waiting : ∀ prop func, queue.state.queue.waitTasks.lookup prop = some func →
    ∃ older, queue.accepted prop = older ++ [func] ∧ (queue.taken prop).Sublist older
  settled : ∀ prop, queue.state.queue.waitTasks.lookup prop = none →
    (queue.taken prop).Sublist (queue.accepted prop) ∧
      (queue.taken prop).getLast? = (queue.accepted prop).getLast?

theorem construct_ledger {maxTaskCount : UInt64} : (construct maxTaskCount : LastPoolQueue P F).Ledger where
  waiting := by
    intro prop func found
    simp [construct, State.init, LastTaskQueue.construct] at found
  settled := fun _ _ => ⟨List.Sublist.refl _, rfl⟩

/-- In order, whatever waits. -/
theorem Ledger.inOrder (ledger : queue.Ledger) (prop : P) :
    (queue.taken prop).Sublist (queue.accepted prop) := by
  cases found : queue.state.queue.waitTasks.lookup prop with
  | none => exact (ledger.settled prop found).1
  | some func =>
    obtain ⟨older, same, taken⟩ := ledger.waiting prop func found
    exact same ▸ taken.trans (List.sublist_append_left _ _)

theorem Ledger.addTask (ledger : queue.Ledger) (add : P × TaskItem F) : (queue.addTask add).Ledger := by
  obtain ⟨prop, func⟩ := add
  unfold LastPoolQueue.addTask
  split
  · exact ledger
  refine ⟨fun other item found => ?_, fun other missing => ?_⟩
  · by_cases here : other = prop
    · subst here
      obtain rfl : func = item := by simpa [setTask] using found
      exact ⟨queue.accepted other, by simp, ledger.inOrder other⟩
    · rw [setTask, Finmap.lookup_insert_of_ne _ here] at found
      simpa [here] using ledger.waiting other item found
  · by_cases here : other = prop
    · subst here
      simp [setTask] at missing
    · rw [setTask, Finmap.lookup_insert_of_ne _ here] at missing
      simpa [here] using ledger.settled other missing

/-- A worker takes the task that waits for a property. -/
theorem Ledger.take (ledger : queue.Ledger) (waits : queue.state.queue.waitTasks.lookup prop = some func) :
    ({ queue with state := queue.state.take thread prop }.take (some (prop, func))).Ledger := by
  obtain ⟨older, accepted, taken⟩ := ledger.waiting prop func waits
  refine ⟨fun other item found => ?_, fun other missing => ?_⟩
  · have apart : other ≠ prop := by
      rintro rfl
      simp [LastPoolQueue.take, State.take, withdraw] at found
    rw [state_take, State.take, withdraw, Finmap.lookup_erase_ne apart] at found
    simpa [LastPoolQueue.take, apart] using ledger.waiting other item found
  · by_cases here : other = prop
    · subst here
      simp only [LastPoolQueue.take, Function.update_self, accepted]
      exact ⟨taken.append (List.Sublist.refl _), by simp⟩
    · rw [state_take, State.take, withdraw, Finmap.lookup_erase_ne here] at missing
      simpa [LastPoolQueue.take, here] using ledger.settled other missing

/-- What waits and what has been accepted and taken is as before. -/
theorem Ledger.same (ledger : queue.Ledger)
    (waitTasks : after.state.queue.waitTasks = queue.state.queue.waitTasks)
    (accepted : after.accepted = queue.accepted) (taken : after.taken = queue.taken) : after.Ledger := by
  refine ⟨fun prop func found => ?_, fun prop missing => ?_⟩
  · rw [accepted, taken]
    exact ledger.waiting prop func (waitTasks ▸ found)
  · rw [accepted, taken]
    exact ledger.settled prop (waitTasks ▸ missing)

/-- The queue and its ledger are kept by the sections of the two member functions and by a stop that waits. -/
structure Kept (queue : LastPoolQueue P F) : Prop where
  listed : queue.state.queue.Listed
  ledger : queue.Ledger

theorem Kept.addTask (kept : queue.Kept) (add : P × TaskItem F) : (queue.addTask add).Kept := by
  refine ⟨?_, kept.ledger.addTask add⟩
  unfold LastPoolQueue.addTask
  split
  · exact kept.listed
  · exact kept.listed.setTask

theorem Kept.popTask (kept : queue.Kept) (popped : queue.popTask thread = some (after, more)) : after.Kept := by
  rcases popTask_cases popped with
    ⟨_, rfl, _⟩ | ⟨prop, _, begun, found, rfl, _⟩ | ⟨_, state, _, finished, rfl, _⟩
  · exact kept
  · have filed := (kept.listed.keys prop).mp (List.mem_of_find?_eq_some found)
    obtain ⟨func, waits⟩ := Option.isSome_iff_exists.mp (Finmap.lookup_isSome.mpr filed)
    rw [waits]
    refine ⟨?_, kept.ledger.take waits⟩
    rw [state_take]
    exact State.listed_step kept.listed begun
  · refine ⟨State.listed_step kept.listed finished, ?_⟩
    obtain ⟨_, _, rfl⟩ := State.popFinish_cases finished
    exact kept.ledger.same rfl rfl rfl

theorem Kept.stop (kept : queue.Kept) : (TQueueType.stop queue true).Kept := by
  refine ⟨kept.listed.stop true, kept.ledger.same ?_ rfl rfl⟩
  show (queue.state.queue.stop true).waitTasks = _
  unfold LastTaskQueue.stop
  split <;> rfl

theorem waitProps_addTask (kept : queue.Kept) (opened : queue.state.queue.bstop = false) (add : P × TaskItem F) :
    (queue.addTask add).state.queue.waitProps ≠ [] := by
  rw [addTask, if_neg (by simp [opened])]
  exact waits_setTask kept.listed

end LastPoolQueue

/-- A `LastTaskPool` whose callers are `C`. -/
abbrev LastTaskPool (P F C : Type) [DecidableEq P] : Type := TaskPoolBase (LastPoolQueue P F) (P × TaskItem F) C

namespace LastTaskPool

variable [DecidableEq C] {pool after : LastTaskPool P F C} {stopper caller : C} {thread coreNum threadNum : Nat}
  {maxTaskCount : UInt64} {action : PoolAction (P × TaskItem F) C} {actions : List (PoolAction (P × TaskItem F) C)}

/-- A pool that has been started with this many threads. -/
def started (coreNum : Nat) (maxTaskCount : UInt64) (threadNum : Nat) : LastTaskPool P F C :=
  ({ TaskPoolBase.construct (.construct maxTaskCount) with atomicSwitch := .started } :
    LastTaskPool P F C).createThread coreNum threadNum

/-- Nothing waits and nobody executes, and of each property the tasks that have been taken are some of those
accepted, in order, and the last one. -/
structure LatestExecuted (pool : LastTaskPool P F C) : Prop where
  nothing : pool.taskQueue.state.queue.waitProps = []
  idle : ∀ thread, pool.taskQueue.state.running thread = none
  inOrder : ∀ prop, (pool.taskQueue.taken prop).Sublist (pool.taskQueue.accepted prop)
  latest : ∀ prop, (pool.taskQueue.taken prop).getLast? = (pool.taskQueue.accepted prop).getLast?

/-- The step accepts a task. -/
def Accepts (pool : LastTaskPool P F C) : PoolAction (P × TaskItem F) C → Prop
  | .caller caller => pool.taskQueue.state.queue.bstop = false ∧ ∃ add, pool.caller caller = .addTask add
  | _ => False

/-- If the step accepts a task, some worker has not left its loop. -/
def Attended (pool : LastTaskPool P F C) (action : PoolAction (P × TaskItem F) C) : Prop :=
  pool.Accepts action → ∃ thread, pool.Live thread

/-- What is kept while the only calls are those of `add_task` and of one `stop(true)`. -/
structure Winding (stopper : C) (pool : LastTaskPool P F C) : Prop where
  retiring : pool.Retiring stopper
  executing : ∀ thread, (pool.taskQueue.state.running thread).isSome = true → pool.worker thread = .popTask
  kept : pool.taskQueue.Kept

omit [DecidableEq C] in
theorem started_winding : Winding stopper (started coreNum maxTaskCount threadNum : LastTaskPool P F C) where
  retiring := TaskPoolBase.created_retiring
  executing := fun _ running => by cases running
  kept := ⟨State.init_listed, LastPoolQueue.construct_ledger⟩

/-- What a call makes of the queue: nothing, or a stop that waits, or an accepted or refused task. -/
private theorem Winding.effect (winding : Winding stopper pool)
    (moved : TaskPoolBase.Moved coreNum pool caller after) :
    after.worker = pool.worker ∧ (after.taskQueue.Kept ∧
      after.taskQueue.state.running = pool.taskQueue.state.running) ∧
      (after.taskQueue.state.queue.waitProps = pool.taskQueue.state.queue.waitProps ∨
        (pool.Accepts (.caller caller) ∧ after.taskQueue.state.queue.waitProps ≠ [])) := by
  obtain ⟨⟨worker, _⟩, same | ⟨_, _, _, stops⟩ | ⟨add, here, adds⟩⟩ :=
    TaskPoolBase.effect_of_graceful (winding.retiring.graceful caller) moved
  · rw [same]
    exact ⟨worker, ⟨winding.kept, rfl⟩, .inl rfl⟩
  · rw [stops]
    refine ⟨worker, ⟨winding.kept.stop, rfl⟩, .inl ?_⟩
    show (pool.taskQueue.state.queue.stop true).waitProps = _
    unfold LastTaskQueue.stop
    split <;> rfl
  · rw [adds]
    refine ⟨worker, ⟨winding.kept.addTask add, ?_⟩, ?_⟩
    · show (pool.taskQueue.addTask add).state.running = _
      unfold LastPoolQueue.addTask
      split <;> rfl
    · cases opened : pool.taskQueue.state.queue.bstop with
      | true =>
        left
        show (pool.taskQueue.addTask add).state.queue.waitProps = _
        rw [LastPoolQueue.addTask, if_pos opened]
      | false => exact .inr ⟨⟨opened, add, here⟩, LastPoolQueue.waitProps_addTask winding.kept opened add⟩

private theorem Winding.moved (winding : Winding stopper pool) (retiring : after.Retiring stopper)
    (moved : TaskPoolBase.Moved coreNum pool caller after) : Winding stopper after := by
  obtain ⟨worker, ⟨kept, running⟩, _⟩ := winding.effect moved
  refine ⟨retiring, fun thread => ?_, kept⟩
  rw [worker, running]
  exact winding.executing thread

omit [DecidableEq C] in
/-- A worker is in `pop_task` as long as it executes a task. -/
private theorem Winding.worked (winding : Winding stopper pool) (retiring : after.Retiring stopper)
    (worked : TaskPoolBase.Worked pool thread after) : Winding stopper after := by
  have around := worked.around
  cases worked with
  | @popped taskQueue more here popped =>
    obtain ⟨mine, others⟩ := LastPoolQueue.running_popTask popped
    refine ⟨retiring, fun other running => ?_, winding.kept.popTask popped⟩
    by_cases same : other = thread
    · subst same
      exact (Function.update_self ..).trans (if_pos (mine.symm.trans running))
    · rw [around.worker other same]
      exact winding.executing other ((congrArg Option.isSome (others other same)).symm.trans running)
  | _ here =>
    refine ⟨retiring, fun other running => ?_, winding.kept⟩
    have was := winding.executing other running
    by_cases same : other = thread
    · subst same
      simp [here] at was
    · exact (around.worker other same).trans was

theorem Winding.step (winding : Winding stopper pool) (graceful : action.Graceful stopper)
    (taken : pool.next coreNum action = some after) : Winding stopper after := by
  have retiring := winding.retiring.step graceful taken
  cases action with
  | call caller operation => exact winding.moved retiring (TaskPoolBase.moved_of_call taken)
  | caller caller => exact winding.moved retiring (TaskPoolBase.moved_of_callStep taken)
  | worker thread => exact winding.worked retiring (TaskPoolBase.worked_of_threadFun taken)

theorem winding_of_path
    (path : Path (Taken (TaskPoolBase.next coreNum))
      (started coreNum maxTaskCount threadNum : LastTaskPool P F C) actions pool)
    (graceful : ∀ action ∈ actions, action.Graceful stopper) : Winding stopper pool :=
  (path.guard graceful).invariant (Winding stopper)
    (fun _ _ _ winding step => winding.step step.1 step.2) started_winding

/-- As long as tasks are accepted only while some worker has not left, no property waits without a worker: the
last one to leave has found the queue empty. -/
theorem Winding.served_step (winding : Winding stopper pool) (graceful : action.Graceful stopper)
    (served : pool.taskQueue.state.queue.waitProps ≠ [] → ∃ thread, pool.Live thread)
    (attended : pool.Attended action) (taken : pool.next coreNum action = some after)
    (waits : after.taskQueue.state.queue.waitProps ≠ []) : ∃ thread, after.Live thread := by
  have moves {caller : C} (moved : TaskPoolBase.Moved coreNum pool caller after)
      (accepts : pool.Accepts (.caller caller) → ∃ thread, pool.Live thread) : ∃ thread, after.Live thread := by
    obtain ⟨worker, _, effect⟩ := winding.effect moved
    have before : ∃ thread, pool.Live thread := by
      rcases effect with same | ⟨accepted, _⟩
      · exact served (same ▸ waits)
      · exact accepts accepted
    obtain ⟨thread, live⟩ := before
    exact ⟨thread, by rwa [TaskPoolBase.Live, worker]⟩
  cases action with
  | call caller operation =>
    refine moves (TaskPoolBase.moved_of_call taken) fun accepts => ?_
    obtain ⟨_, add, here⟩ := accepts
    simp [TaskPoolBase.next, here] at taken
  | caller caller => exact moves (TaskPoolBase.moved_of_callStep taken) attended
  | worker thread =>
    have worked := TaskPoolBase.worked_of_threadFun taken
    cases worked with
    | drained _ empty =>
      have empty : pool.taskQueue.state.queue.empty = true := empty
      have nothing : pool.taskQueue.state.queue.waitProps = [] := by
        simpa [LastTaskQueue.empty, notEmpty] using empty
      exact absurd nothing waits
    | outdated here older =>
      have := winding.retiring.current thread (by simp [TaskPoolBase.Live, here])
      omega
    | @tested pc stoped =>
      refine ⟨thread, ?_⟩
      cases stoped <;> simp [TaskPoolBase.Live, TaskPoolBase.moveWorker]
    | @popped taskQueue more =>
      refine ⟨thread, ?_⟩
      cases more <;> simp [TaskPoolBase.Live, TaskPoolBase.moveWorker]
    | _ => exact ⟨thread, by simp [TaskPoolBase.Live, TaskPoolBase.moveWorker]⟩

/-- Nobody is left for the properties that wait. -/
structure Abandoned (pool : LastTaskPool P F C) : Prop where
  waits : pool.taskQueue.state.queue.waitProps ≠ []
  gone : ∀ thread, ¬ pool.Live thread

private theorem Winding.abandoned_moved (winding : Winding stopper pool) (abandoned : Abandoned pool)
    (moved : TaskPoolBase.Moved coreNum pool caller after) : Abandoned after := by
  obtain ⟨worker, _, effect⟩ := winding.effect moved
  refine ⟨?_, fun thread live => abandoned.gone thread (by rwa [TaskPoolBase.Live, worker] at live)⟩
  rcases effect with same | ⟨_, now⟩
  · rw [same]
    exact abandoned.waits
  · exact now

omit [DecidableEq C] in
private theorem live_of_worked (worked : TaskPoolBase.Worked pool thread after) : pool.Live thread := by
  cases worked <;> simp [TaskPoolBase.Live, *]

private theorem Winding.abandoned_step (winding : Winding stopper pool) (abandoned : Abandoned pool)
    (taken : pool.next coreNum action = some after) : Abandoned after := by
  cases action with
  | call caller operation => exact winding.abandoned_moved abandoned (TaskPoolBase.moved_of_call taken)
  | caller caller => exact winding.abandoned_moved abandoned (TaskPoolBase.moved_of_callStep taken)
  | worker thread =>
    exact absurd (live_of_worked (TaskPoolBase.worked_of_threadFun taken)) (abandoned.gone thread)

/-- A task that is accepted after the last worker has left is abandoned. -/
private theorem Winding.abandoned_of_accepts (winding : Winding stopper pool)
    (gone : ∀ thread, ¬ pool.Live thread) (accepts : pool.Accepts action)
    (taken : pool.next coreNum action = some after) : Abandoned after := by
  cases action with
  | call caller operation => exact accepts.elim
  | worker thread => exact accepts.elim
  | caller caller =>
    obtain ⟨opened, add, here⟩ := accepts
    simp only [TaskPoolBase.next, TaskPoolBase.callStep, here, Option.some.injEq] at taken
    rw [← taken]
    exact ⟨LastPoolQueue.waitProps_addTask winding.kept opened add, gone⟩

omit [DecidableEq C] in
/-- Where nobody is left and nothing waits, the tasks have been executed that had to be. -/
private theorem Winding.executed (winding : Winding stopper pool) (gone : ∀ thread, ¬ pool.Live thread)
    (nothing : pool.taskQueue.state.queue.waitProps = []) : LatestExecuted pool := by
  refine ⟨nothing, fun thread => ?_, winding.kept.ledger.inOrder, fun prop => ?_⟩
  · by_contra busy
    have place := winding.executing thread (Option.isSome_iff_ne_none.mpr busy)
    exact gone thread (by simp [TaskPoolBase.Live, place])
  · refine (winding.kept.ledger.settled prop ?_).2
    rw [Finmap.lookup_eq_none, ← winding.kept.listed.keys, nothing]
    exact List.not_mem_nil

/-- When `stop(true)` has reset the switch and returned, of each property the task accepted last has been taken and,
if it can be called, executed, and of those before it some in order, if and only if every task was accepted while
some worker had not left its loop. -/
theorem stop_executes_latest_iff
    (path : Path (Taken (TaskPoolBase.next coreNum))
      (started coreNum maxTaskCount threadNum : LastTaskPool P F C) actions pool)
    (graceful : ∀ action ∈ actions, action.Graceful stopper)
    (returned : pool.atomicSwitch.binit = false) :
    LatestExecuted pool ↔ ∀ before action, Path.Takes (Taken (TaskPoolBase.next coreNum))
      (started coreNum maxTaskCount threadNum) actions before action → Attended before action := by
  have winding := winding_of_path path graceful
  constructor
  · intro executed before action takes accepts
    by_contra nobody
    obtain ⟨front, back, after, rfl, reach, taken, rest⟩ := path.split_of_takes takes
    have calm : ∀ action ∈ back, action.Graceful stopper :=
      fun action member => graceful action (by simp [member])
    have earlier := winding_of_path reach fun action member => graceful action (by simp [member])
    have lost := earlier.abandoned_of_accepts (not_exists.mp nobody) accepts taken
    have now := earlier.step (graceful action (by simp)) taken
    have final := (rest.guard calm).invariant (fun pool => Winding stopper pool ∧ Abandoned pool)
      (fun _ _ _ both step =>
        ⟨both.1.step step.1 step.2, both.1.abandoned_step both.2 step.2⟩) ⟨now, lost⟩
    exact final.2.waits executed.nothing
  · intro attended
    have run := (path.guard graceful).guarded_of_takes Attended
      fun state action takes => by
        obtain ⟨front, back, split, reach⟩ := takes
        exact attended state action ⟨front, back, split, reach.mono fun _ _ _ step => step.2⟩
    have final := run.invariant (fun pool => Winding stopper pool ∧
        (pool.taskQueue.state.queue.waitProps ≠ [] → ∃ thread, pool.Live thread))
      (fun _ _ _ both step =>
        ⟨both.1.step step.2.1 step.2.2, both.1.served_step step.2.1 both.2 step.1 step.2.2⟩)
      ⟨started_winding, fun waits => absurd rfl waits⟩
    have gone := winding.retiring.gone (.inr returned)
    refine winding.executed gone ?_
    by_contra waits
    obtain ⟨thread, live⟩ := final.2 waits
    exact gone thread live

/-- Of two tasks of a property the second one replaces the first while another property's task executes, and
`stop(true)` is called meanwhile. -/
theorem stop_executes_latest_iff_replaced :
    let adds (prop task : Nat) : List (PoolAction (Nat × TaskItem Nat) (Fin 2)) :=
      .call 1 (.addTask (prop, some task)) :: List.replicate 4 (.caller 1)
    let actions := adds 5 50 ++ List.replicate 5 (.worker 0) ++ adds 6 60 ++ adds 6 61 ++
      .call 0 (.stop true) :: List.replicate 5 (.caller 0) ++ List.replicate 12 (.worker 0) ++
      List.replicate 5 (.caller 0)
    ∃ pool, Path (Taken (TaskPoolBase.next 1)) (started 1 0 1 : LastTaskPool Nat Nat (Fin 2)) actions pool ∧
      pool.taskQueue.accepted 6 = [some 60, some 61] ∧ pool.taskQueue.taken 6 = [some 61] ∧
      (LatestExecuted pool ↔ ∀ before action, Path.Takes (Taken (TaskPoolBase.next 1))
        (started 1 0 1 : LastTaskPool Nat Nat (Fin 2)) actions before action → Attended before action) := by
  intro adds actions
  have runs : (exec (TaskPoolBase.next 1) (started 1 0 1 : LastTaskPool Nat Nat (Fin 2)) actions).map (fun pool =>
      decide (pool.atomicSwitch.binit = false ∧ pool.taskQueue.accepted 6 = [some 60, some 61] ∧
        pool.taskQueue.taken 6 = [some 61])) = some true := by
    decide
  obtain ⟨pool, ends, decided⟩ := Option.map_eq_some_iff.mp runs
  obtain ⟨returned, accepted, taken⟩ := of_decide_eq_true decided
  have path := exec_eq_some_iff.mp ends
  have graceful : ∀ action ∈ actions, action.Graceful 0 := by
    decide
  exact ⟨pool, path, accepted, taken, stop_executes_latest_iff path graceful returned⟩

end LastTaskPool

end BTool.TaskPool
