import BTool.TaskPool.Retirement
import BTool.TaskPool.SerialTaskPool
import BTool.TaskQueue.SerialRefinement

/-! The graceful stop of a `SerialTaskPool`: `stop(true)` sets the switch, stops the queue
and joins the workers, who leave when they see the switch stopped and the queue empty.

A producer that has passed `has_started` before may push a task after the last worker has
left; the tasks that are executed are exactly all of them when nobody does. -/

namespace BTool.TaskPool

open BTool.Foundation BTool.TaskQueue BTool.TaskQueue.SerialTaskQueue

variable {P F C : Type} [DecidableEq P] [DecidableEq F] [DecidableEq C]

namespace SerialTaskPool

variable {pool after : SerialTaskPool P F C} {stopper caller : C} {thread coreNum threadNum : Nat}
  {maxTaskCount : UInt64} {action : PoolAction (P × TaskItem F) C}
  {actions : List (PoolAction (P × TaskItem F) C)}

/-- A pool that has been started with this many threads. -/
def started (coreNum : Nat) (maxTaskCount : UInt64) (threadNum : Nat) : SerialTaskPool P F C :=
  ({ TaskPoolBase.construct (State.init maxTaskCount) with atomicSwitch := .started } :
    SerialTaskPool P F C).createThread coreNum threadNum

/-- It is what an undisturbed `start` makes of a new pool. -/
theorem path_start (caller : C) :
    Path (Taken (TaskPoolBase.next coreNum))
      (TaskPoolBase.construct (State.init maxTaskCount) : SerialTaskPool P F C)
      (.call caller (.start threadNum) :: List.replicate 6 (.caller caller))
      (started coreNum maxTaskCount threadNum) := by
  have idle : Function.update (fun _ : C => (.idle : CallerPc (P × TaskItem F))) caller .idle =
      fun _ => .idle := Function.update_eq_self caller _
  rw [← exec_eq_some_iff]
  simp only [List.replicate, exec, TaskPoolBase.next, TaskPoolBase.callStep, TaskPoolBase.moveCaller,
    TaskPoolBase.construct, TaskPoolBase.createThread, Operation.entry, Function.update_self,
    Function.update_idem, idle, Option.bind_some, AtomicSwitch.init, AtomicSwitch.start,
    AtomicSwitch.construct, Progress.elim, if_true, if_false, Bool.false_eq_true, Bool.not_true]
  rfl

/-- Every accepted task has been taken by a worker, and no worker is executing one. -/
def AllExecuted (pool : SerialTaskPool P F C) : Prop :=
  pool.taskQueue.accepted.Perm pool.taskQueue.started ∧
    ∀ thread, pool.taskQueue.running thread = none

/-- The step pushes a task, and `add_task` is going to return true. -/
def Accepts (pool : SerialTaskPool P F C) : PoolAction (P × TaskItem F) C → Prop
  | .caller caller => pool.taskQueue.queue.bstop = false ∧ ∃ add, pool.caller caller = .addTask add
  | _ => False

/-- If the step pushes a task, some worker has not left its loop. -/
def Attended (pool : SerialTaskPool P F C) (action : PoolAction (P × TaskItem F) C) : Prop :=
  pool.Accepts action → ∃ thread, pool.Live thread

/-- What is kept while the only calls are those of `add_task` and of one `stop(true)`. -/
structure Winding (stopper : C) (pool : SerialTaskPool P F C) : Prop where
  quiet : ∀ caller, caller ≠ stopper → (pool.caller caller).quiet = true
  graceful : Everywhere (fun pc => pc.graceful = true) pool.caller
  owned : pool.Owned
  taken : Everywhere (fun pc => 3 ≤ pc.stage → pool.curThreads = []) pool.caller
  gone : Somewhere (fun pc => 4 ≤ pc.stage) pool.caller ∨ pool.atomicSwitch.binit = false →
    ∀ thread, ¬ pool.Live thread
  current : ∀ thread, pool.Live thread → pool.version thread = pool.curThreadVer
  executing : ∀ thread, (pool.taskQueue.running thread).isSome = true →
    pool.worker thread = .popTask
  intact : ∃ held, Intact pool.taskQueue held

omit [DecidableEq F] [DecidableEq C] in
private theorem Winding.retiring (winding : Winding stopper pool) : pool.Retiring stopper :=
  ⟨winding.quiet, winding.graceful, winding.owned, winding.taken, winding.gone, winding.current⟩

omit [DecidableEq F] [DecidableEq C] in
private theorem winding_of_retiring (retiring : pool.Retiring stopper)
    (executing : ∀ thread, (pool.taskQueue.running thread).isSome = true → pool.worker thread = .popTask)
    (intact : ∃ held, Intact pool.taskQueue held) : Winding stopper pool :=
  ⟨retiring.quiet, retiring.graceful, retiring.owned, retiring.taken, retiring.gone, retiring.current,
    executing, intact⟩

/-- A call that is not one of `start` or `reset_thread_num` creates no thread and leaves the
queue alone, stops it or adds a task. -/
private theorem effect_of_graceful (graceful : (pool.caller caller).graceful = true)
    (moved : TaskPoolBase.Moved coreNum pool caller after) :
    after.worker = pool.worker ∧
    (after.taskQueue = pool.taskQueue ∨ pool.taskQueue.next (.stop true) = some after.taskQueue ∨
      ∃ add, pool.caller caller = .addTask add ∧
        pool.taskQueue.next (.addTask add.1 add.2) = some after.taskQueue) := by
  obtain ⟨⟨worker, _⟩, same | ⟨bwait, _, _, stops⟩ | ⟨add, here, adds⟩⟩ :=
    TaskPoolBase.effect_of_graceful graceful moved
  · exact ⟨worker, .inl same⟩
  · refine ⟨worker, .inr (.inl ?_)⟩
    rw [stops]
    rfl
  · refine ⟨worker, .inr (.inr ⟨add, here, ?_⟩)⟩
    rw [adds]
    exact next_addTask add

/-- Stopping the queue and adding a task disturb no running task. -/
private theorem intact_effect {state state' : State P F Nat}
    (effect : state' = state ∨ state.next (.stop true) = some state' ∨
      ∃ add : P × TaskItem F, state.next (.addTask add.1 add.2) = some state')
    (intact : ∃ held, Intact state held) : (∃ held, Intact state' held) ∧
      ∀ thread, (state'.running thread).isSome = (state.running thread).isSome := by
  obtain ⟨held, intact⟩ := intact
  rcases effect with rfl | stops | ⟨add, adds⟩
  · exact ⟨⟨held, intact⟩, fun _ => rfl⟩
  · have sparing : (.stop true : Action P F Nat).Sparing := rfl
    refine ⟨⟨_, intact.step sparing stops⟩, fun thread => ?_⟩
    cases stops
    simp [detach]
  · have sparing : (.addTask add.1 add.2 : Action P F Nat).Sparing := trivial
    refine ⟨⟨_, intact.step sparing adds⟩, fun thread => ?_⟩
    rcases State.addTask_cases adds with ⟨_, rfl⟩ | ⟨_, rfl⟩ <;> rfl

private theorem Winding.moved (winding : Winding stopper pool) (retiring : after.Retiring stopper)
    (moved : TaskPoolBase.Moved coreNum pool caller after) : Winding stopper after := by
  obtain ⟨worker, effect⟩ := effect_of_graceful (winding.graceful caller) moved
  obtain ⟨intact, running⟩ := intact_effect
    (effect.imp_right fun some => some.imp_right fun ⟨add, _, adds⟩ => ⟨add, adds⟩) winding.intact
  refine winding_of_retiring retiring (fun thread => ?_) intact
  rw [worker, running]
  exact winding.executing thread

omit [DecidableEq C] in
/-- A worker is in `pop_task` as long as it executes a task. -/
private theorem Winding.executing_worked (winding : Winding stopper pool)
    (worked : TaskPoolBase.Worked pool thread after) (other : Nat)
    (running : (after.taskQueue.running other).isSome = true) : after.worker other = .popTask := by
  by_cases same : other = thread
  · subst same
    cases worked with
    | popped _ popped =>
      rcases popTask_cases popped with ⟨_, _, rfl⟩ | ⟨_, finished, rfl⟩
      · exact (Function.update_self ..).trans (if_pos running)
      · simp [TaskPoolBase.moveWorker, State.isSome_running_popFinish finished] at running
    | _ here => simp [winding.executing other running] at here
  · rw [worked.around.worker other same]
    apply winding.executing other
    cases worked with
    | popped _ popped =>
      rcases popTask_cases popped with ⟨_, begun, _⟩ | ⟨_, finished, _⟩
      · rwa [TaskPoolBase.moveWorker, State.isSome_running_popBegin begun same] at running
      · simpa [TaskPoolBase.moveWorker, State.isSome_running_popFinish finished, same] using running
    | _ => exact running

omit [DecidableEq C] in
private theorem Winding.intact_worked (winding : Winding stopper pool)
    (worked : TaskPoolBase.Worked pool thread after) : ∃ held, Intact after.taskQueue held := by
  obtain ⟨held, intact⟩ := winding.intact
  cases worked with
  | popped _ popped =>
    rcases popTask_cases popped with ⟨_, begun, _⟩ | ⟨_, finished, _⟩
    · have sparing : (.popBegin thread : Action P F Nat).Sparing := trivial
      exact ⟨_, intact.step sparing begun⟩
    · have sparing : (.popFinish thread : Action P F Nat).Sparing := trivial
      exact ⟨_, intact.step sparing finished⟩
  | _ => exact ⟨held, intact⟩

theorem Winding.step (winding : Winding stopper pool) (graceful : action.Graceful stopper)
    (taken : pool.next coreNum action = some after) : Winding stopper after := by
  have retiring := winding.retiring.step graceful taken
  cases action with
  | call caller operation => exact winding.moved retiring (TaskPoolBase.moved_of_call taken)
  | caller caller => exact winding.moved retiring (TaskPoolBase.moved_of_callStep taken)
  | worker thread =>
    have worked := TaskPoolBase.worked_of_threadFun taken
    exact winding_of_retiring retiring (winding.executing_worked worked) (winding.intact_worked worked)

omit [DecidableEq F] [DecidableEq C] in
theorem started_winding :
    Winding stopper (started coreNum maxTaskCount threadNum : SerialTaskPool P F C) := by
  apply winding_of_retiring TaskPoolBase.created_retiring
  · exact fun _ running => nomatch (show (none : Option (Running P F)).isSome = true from running)
  · exact ⟨∅, init_settled.toIntact⟩

/-- How a step of a call changes the waiting tasks. -/
private theorem pending_moved (graceful : (pool.caller caller).graceful = true)
    (moved : TaskPoolBase.Moved coreNum pool caller after) :
    after.taskQueue.pending = pool.taskQueue.pending ∨
      (pool.Accepts (.caller caller) ∧ after.taskQueue.pending ≠ []) := by
  obtain ⟨_, same | stops | ⟨add, here, adds⟩⟩ := effect_of_graceful graceful moved
  · left
    rw [same]
  · left
    rw [← Option.some.inj stops]
    simp
  · rcases State.addTask_cases adds with ⟨_, same⟩ | ⟨opened, same⟩
    · left
      rw [same]
    · right
      exact ⟨⟨opened, add, here⟩, by simp [same, State.accept]⟩

omit [DecidableEq C] in
private theorem live_of_worked (worked : TaskPoolBase.Worked pool thread after) : pool.Live thread := by
  cases worked <;> simp [TaskPoolBase.Live, *]

/-- As long as tasks are pushed only while some worker has not left, no task waits without
a worker: the last one to leave has found the queue empty. -/
theorem Winding.served_step (winding : Winding stopper pool) (graceful : action.Graceful stopper)
    (served : pool.taskQueue.pending ≠ [] → ∃ thread, pool.Live thread)
    (attended : pool.Attended action) (taken : pool.next coreNum action = some after)
    (waits : after.taskQueue.pending ≠ []) : ∃ thread, after.Live thread := by
  cases action with
  | call caller operation =>
    simp only [TaskPoolBase.next] at taken
    split at taken
    · cases taken
      exact served waits
    · cases taken
  | caller caller =>
    have moved := TaskPoolBase.moved_of_callStep taken
    have calm := winding.graceful caller
    obtain ⟨worker, _⟩ := effect_of_graceful calm moved
    have before : ∃ thread, pool.Live thread := by
      rcases pending_moved calm moved with same | ⟨accepts, _⟩
      · exact served (same ▸ waits)
      · exact attended accepts
    obtain ⟨thread, live⟩ := before
    exact ⟨thread, by rwa [TaskPoolBase.Live, worker]⟩
  | worker thread =>
    have worked := TaskPoolBase.worked_of_threadFun taken
    have live := live_of_worked worked
    cases worked with
    | drained _ empty =>
      obtain ⟨held, intact⟩ := winding.intact
      exact absurd (intact.consistent.tracks.pending_eq_nil empty) waits
    | outdated _ older =>
      have := winding.current thread live
      omega
    | @tested pc stoped =>
      refine ⟨thread, ?_⟩
      cases stoped <;> simp [TaskPoolBase.Live, TaskPoolBase.moveWorker]
    | @popped taskQueue more =>
      refine ⟨thread, ?_⟩
      cases more <;> simp [TaskPoolBase.Live, TaskPoolBase.moveWorker]
    | _ => exact ⟨thread, by simp [TaskPoolBase.Live, TaskPoolBase.moveWorker]⟩

/-- Nobody is left for the waiting tasks. -/
structure Abandoned (pool : SerialTaskPool P F C) : Prop where
  waits : pool.taskQueue.pending ≠ []
  gone : ∀ thread, ¬ pool.Live thread

theorem Winding.abandoned_step (winding : Winding stopper pool) (abandoned : Abandoned pool)
    (taken : pool.next coreNum action = some after) : Abandoned after := by
  cases action with
  | call caller operation =>
    simp only [TaskPoolBase.next] at taken
    split at taken
    · cases taken
      exact ⟨abandoned.waits, abandoned.gone⟩
    · cases taken
  | caller caller =>
    have moved := TaskPoolBase.moved_of_callStep taken
    have calm := winding.graceful caller
    obtain ⟨worker, _⟩ := effect_of_graceful calm moved
    refine ⟨?_, fun thread live => abandoned.gone thread (by rwa [TaskPoolBase.Live, worker] at live)⟩
    rcases pending_moved calm moved with same | ⟨_, waits⟩
    · rw [same]
      exact abandoned.waits
    · exact waits
  | worker thread =>
    exact absurd (live_of_worked (TaskPoolBase.worked_of_threadFun taken)) (abandoned.gone thread)

/-- A task that is pushed after the last worker has left is abandoned. -/
private theorem abandoned_of_accepts (gone : ∀ thread, ¬ pool.Live thread)
    (accepts : Accepts pool action) (taken : pool.next coreNum action = some after) :
    Abandoned after := by
  cases action with
  | caller caller =>
    obtain ⟨opened, add, here⟩ := accepts
    simp only [TaskPoolBase.next, TaskPoolBase.callStep, here, Option.some.injEq] at taken
    rw [← taken]
    refine ⟨?_, gone⟩
    have pushed : pool.taskQueue.next (.addTask add.1 add.2) = some (addTask pool.taskQueue add) :=
      next_addTask add
    rcases State.addTask_cases pushed with ⟨shut, _⟩ | ⟨_, same⟩
    · simp [opened] at shut
    · rw [show (TaskPoolBase.moveCaller _ _ _).taskQueue = addTask pool.taskQueue add from rfl, same]
      simp [State.accept]
  | call => cases accepts
  | worker => cases accepts

theorem winding_of_path
    (path : Path (Taken (TaskPoolBase.next coreNum))
      (started coreNum maxTaskCount threadNum : SerialTaskPool P F C) actions pool)
    (graceful : ∀ action ∈ actions, action.Graceful stopper) : Winding stopper pool :=
  (path.guard graceful).invariant (Winding stopper)
    (fun _ _ _ winding ⟨calm, taken⟩ => winding.step calm taken) started_winding

/-- When `stop(true)` has reset the switch and returned, every accepted task has been
executed if and only if every task was pushed while some worker had not left its loop. -/
theorem stop_executes_all_iff
    (path : Path (Taken (TaskPoolBase.next coreNum))
      (started coreNum maxTaskCount threadNum : SerialTaskPool P F C) actions pool)
    (graceful : ∀ action ∈ actions, action.Graceful stopper)
    (returned : pool.atomicSwitch.binit = false) :
    AllExecuted pool ↔ ∀ before action, Path.Takes (Taken (TaskPoolBase.next coreNum))
      (started coreNum maxTaskCount threadNum) actions before action → Attended before action := by
  have winding := winding_of_path path graceful
  obtain ⟨held, intact⟩ := winding.intact
  constructor
  · intro executed before action takes accepts
    by_contra nobody
    obtain ⟨front, back, after, rfl, reach, taken, rest⟩ := path.split_of_takes takes
    have calm : ∀ action ∈ back, action.Graceful stopper :=
      fun action member => graceful action (by simp [member])
    have earlier := winding_of_path reach fun action member => graceful action (by simp [member])
    have lost := abandoned_of_accepts (not_exists.mp nobody) accepts taken
    have now := earlier.step (graceful action (by simp)) taken
    obtain ⟨_, abandoned⟩ := (rest.guard calm).invariant
      (fun pool => Winding stopper pool ∧ Abandoned pool)
      (fun _ _ _ ⟨winding, abandoned⟩ ⟨calm, taken⟩ =>
        ⟨winding.step calm taken, winding.abandoned_step abandoned taken⟩) ⟨now, lost⟩
    have lengths := (executed.1.symm.trans intact.complete).length_eq
    rw [List.length_append] at lengths
    exact abandoned.waits (List.length_eq_zero_iff.mp (by omega))
  · intro attended
    have run := (path.guard graceful).guarded_of_takes Attended
      fun state action ⟨front, back, split, reach⟩ =>
        attended state action ⟨front, back, split, reach.mono fun _ _ _ step => step.2⟩
    obtain ⟨_, served⟩ := run.invariant
      (fun pool => Winding stopper pool ∧
        (pool.taskQueue.pending ≠ [] → ∃ thread, pool.Live thread))
      (fun _ _ _ ⟨winding, served⟩ ⟨fine, calm, taken⟩ =>
        ⟨winding.step calm taken, winding.served_step calm served fine taken⟩)
      ⟨started_winding, fun waits => absurd rfl waits⟩
    have gone := winding.gone (.inr returned)
    constructor
    · have nothing : pool.taskQueue.pending = [] := by
        by_contra waits
        obtain ⟨thread, live⟩ := served waits
        exact gone thread live
      simpa [nothing] using intact.complete
    · intro thread
      by_contra busy
      have running := winding.executing thread (Option.isSome_iff_ne_none.mpr busy)
      exact gone thread (by simp [TaskPoolBase.Live, running])

/-- A task is added, `stop(true)` is called while the worker executes it, and the worker
leaves once it has finished. -/
def oneTask : List (PoolAction (Nat × TaskItem Nat) (Fin 2)) :=
  List.flatten
    [[.call 1 (.addTask (5, some 50))], List.replicate 4 (.caller 1), List.replicate 5 (.worker 0),
      [.call 0 (.stop true)], List.replicate 5 (.caller 0), List.replicate 5 (.worker 0),
      List.replicate 5 (.caller 0)]

theorem stop_executes_all_iff_one_task :
    ∃ pool, Path (Taken (TaskPoolBase.next 1)) (started 1 0 1 : SerialTaskPool Nat Nat (Fin 2)) oneTask pool ∧
      pool.atomicSwitch.binit = false ∧
      (AllExecuted pool ↔ ∀ before action, Path.Takes (Taken (TaskPoolBase.next 1))
        (started 1 0 1 : SerialTaskPool Nat Nat (Fin 2)) oneTask before action → Attended before action) := by
  have runs : ∃ pool ∈ exec (TaskPoolBase.next 1) (started 1 0 1 : SerialTaskPool Nat Nat (Fin 2)) oneTask,
      pool.atomicSwitch.binit = false := by
    decide
  obtain ⟨pool, ends, returned⟩ := runs
  have path := exec_eq_some_iff.mp ends
  have graceful : ∀ action ∈ oneTask, action.Graceful 0 := by
    decide
  exact ⟨pool, path, returned, stop_executes_all_iff path graceful returned⟩

/-- A producer passes `has_started`, `stop(true)` sets the switch, the only worker leaves on
an empty queue, and then the task is accepted. -/
def lateTask : List (PoolAction (Nat × TaskItem Nat) (Fin 2)) :=
  List.flatten
    [[.call 1 (.addTask (5, some 50))], List.replicate 3 (.caller 1), [.call 0 (.stop true)],
      List.replicate 3 (.caller 0), List.replicate 4 (.worker 0), [.caller 1],
      List.replicate 7 (.caller 0)]

/-- `stop(true)` has returned, and the task has not been executed. -/
theorem stop_abandons_task :
    ∃ pool, Path (Taken (TaskPoolBase.next 1)) (started 1 0 1 : SerialTaskPool Nat Nat (Fin 2)) lateTask pool ∧
      pool.atomicSwitch.binit = false ∧ pool.caller 0 = .idle ∧
      pool.taskQueue.accepted = [(5, some 50)] ∧ ¬ AllExecuted pool := by
  have runs : ∃ pool ∈ exec (TaskPoolBase.next 1) (started 1 0 1 : SerialTaskPool Nat Nat (Fin 2)) lateTask,
      pool.atomicSwitch.binit = false ∧ pool.caller 0 = .idle ∧
        pool.taskQueue.accepted = [(5, some 50)] ∧ pool.taskQueue.started = [] := by
    decide
  obtain ⟨pool, ends, returned, idle, accepted, nothing⟩ := runs
  refine ⟨pool, exec_eq_some_iff.mp ends, returned, idle, accepted, ?_⟩
  intro executed
  have same := executed.1.length_eq
  simp [accepted, nothing] at same

end SerialTaskPool

end BTool.TaskPool
