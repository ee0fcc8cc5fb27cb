import Mathlib.Data.Fintype.Option
import BTool.TaskPool.Retirement
import BTool.TaskPool.SPMCSerialTaskPool
import BTool.TaskQueue.SPMCSerialSteps

/-! The graceful stop of a `SerialTaskPool` over a `SPMCSerialTaskQueue`. A worker leaves when it sees
the switch stopped and the counter not positive, and the counter is too low while a worker has
counted off a task that its producer has not counted yet. -/

namespace BTool.TaskPool

open BTool.Foundation BTool.TaskQueue BTool.TaskQueue.SPMCSerialTaskQueue

variable {P F C : Type}

/-- The task that a thread is about to add once the switch has been tested. -/
def CallerPc.adding {Add : Type} : CallerPc Add → Option Add
  | .addTest add _ => some add
  | .addTask add => some add
  | _ => none

namespace SPMCSerialTaskPool

/-- One thread may call `stop(true)`; the other calls are those of `add_task`. -/
def Action.Graceful (stopper : C) : Action P F C → Prop
  | .pool action => action.Graceful stopper
  | _ => True

/-- The only calls are those of `add_task`. -/
def Action.Adding : Action P F C → Prop
  | .pool action => action.Adding
  | _ => True

instance [DecidableEq C] (stopper : C) (action : Action P F C) :
    Decidable (action.Graceful stopper) := by
  cases action <;> unfold Action.Graceful <;> infer_instance

instance (action : Action P F C) : Decidable action.Adding := by
  cases action <;> unfold Action.Adding <;> infer_instance

/-- The counter does not overflow. -/
def InRange (pool : SPMCSerialTaskPool P F C) : Action P F C → Prop
  | .pool (.worker thread) => pool.taskQueue.state.InRange (.pop thread (pool.taskQueue.source thread))
  | .queue caller source => pool.taskQueue.state.InRange (.caller caller source)
  | _ => True

instance [DecidableEq P] [DecidableEq F] [DecidableEq C] (pool : SPMCSerialTaskPool P F C)
    (action : Action P F C) :
    Decidable (InRange pool action) := by
  unfold InRange
  split <;> infer_instance

/-- When the last worker leaves, no worker has counted off a task that its producer has not counted
yet. -/
def Covered (pool : SPMCSerialTaskPool P F C) : Action P F C → Prop
  | .pool (.worker thread) =>
    pool.worker thread = .emptyTest → pool.taskQueue.state.queue.notEmpty = false →
      (∀ other, pool.worker other ≠ .outside → other = thread) → ¬ pool.taskQueue.state.Overdrawn
  | _ => True

/-- What is kept until `stop(true)` has returned. -/
structure Kept [DecidableEq P] [DecidableEq F] [DecidableEq C] (stopper : C)
    (pool : SPMCSerialTaskPool P F C) : Prop where
  retiring : pool.Retiring stopper
  plain : ∀ caller, (pool.taskQueue.state.caller caller).plain = true
  nobody : pool.taskQueue.state.caller none = .outside
  adding : ∀ caller add, (pool.caller caller).adding = some add →
    add.1 = caller ∧ pool.taskQueue.state.caller (some caller) = .outside
  steady : pool.taskQueue.state.Steady
  inside : ∀ thread, pool.taskQueue.state.worker thread ≠ .outside → pool.worker thread = .popTask

variable [DecidableEq P] [DecidableEq F] [DecidableEq C] {pool after : SPMCSerialTaskPool P F C}
  {stopper caller : C} {thread coreNum threadNum : Nat} {action : Action P F C}

/-- The queue does not change. -/
private theorem Kept.around (kept : Kept stopper pool) (retiring : after.Retiring stopper)
    (same : after.taskQueue.state = pool.taskQueue.state)
    (adding : ∀ caller add, (after.caller caller).adding = some add →
      add.1 = caller ∧ pool.taskQueue.state.caller (some caller) = .outside)
    (inside : ∀ thread, pool.worker thread = .popTask →
      pool.taskQueue.state.worker thread ≠ .outside →
      after.worker thread = .popTask) : Kept stopper after := by
  refine ⟨retiring, ?_, ?_, ?_, ?_, ?_⟩
  · rw [same]
    exact kept.plain
  · rw [same]
    exact kept.nobody
  · rw [same]
    exact adding
  · rw [same]
    exact kept.steady
  · rw [same]
    exact fun thread busy => inside thread (kept.inside thread busy) busy

omit [DecidableEq P] [DecidableEq F] [DecidableEq C] in
/-- A call that adds no task goes on as such. -/
private theorem adding_elim {Pc Result Add : Type} {goes : Pc → CallerPc Add}
    {returns : Result → CallerPc Add}
    (progress : Progress Pc Result) (within : ∀ pc, (goes pc).adding = none)
    (after : ∀ result, (returns result).adding = none) :
    (progress.elim goes returns).adding = none := by
  cases progress with
  | goes pc => exact within pc
  | returns result => exact after result

/-- A step of a call that tests the switch goes on with the same task, and the others add none. -/
private theorem adding_callStep {after : TaskPoolBase (PoolQueue P F C) (C × P × TaskItem F) C}
    (taken : pool.callStep coreNum caller = some after) {add : C × P × TaskItem F}
    (adds : (after.caller caller).adding = some add) : (pool.caller caller).adding = some add := by
  cases here : pool.caller caller with
  | idle => simp [TaskPoolBase.callStep, here] at taken
  | addTest held pc =>
    simp only [TaskPoolBase.callStep, here, Option.some.injEq] at taken
    simp only [← taken, TaskPoolBase.moveCaller, Function.update_self] at adds
    cases answer : pool.atomicSwitch.hasStarted pc with
    | goes pc => simpa [answer, Progress.elim, CallerPc.adding] using adds
    | returns started =>
      cases started <;> simp [answer, Progress.elim, CallerPc.adding] at adds
      simpa [CallerPc.adding] using adds
  | init threadNum =>
    simp only [TaskPoolBase.callStep, here, Option.some.injEq] at taken
    simp only [← taken, TaskPoolBase.moveCaller, Function.update_self] at adds
    split at adds <;> cases adds
  | start threadNum pc =>
    simp only [TaskPoolBase.callStep, here, Option.some.injEq] at taken
    simp only [← taken, TaskPoolBase.moveCaller, Function.update_self] at adds
    rw [adding_elim _ (fun _ => rfl) (fun result => by cases result <;> rfl)] at adds
    cases adds
  | stop bwait pc =>
    simp only [TaskPoolBase.callStep, here, Option.some.injEq] at taken
    simp only [← taken, TaskPoolBase.moveCaller, Function.update_self] at adds
    rw [adding_elim _ (fun _ => rfl) (fun result => by cases result <;> rfl)] at adds
    cases adds
  | resetTest threadNum pc =>
    simp only [TaskPoolBase.callStep, here, Option.some.injEq] at taken
    simp only [← taken, TaskPoolBase.moveCaller, Function.update_self] at adds
    rw [adding_elim _ (fun _ => rfl) (fun result => by cases result <;> rfl)] at adds
    cases adds
  | reset pc =>
    simp only [TaskPoolBase.callStep, here, Option.some.injEq] at taken
    simp only [← taken, TaskPoolBase.moveCaller, Function.update_self] at adds
    rw [adding_elim _ (fun _ => rfl) (fun _ => rfl)] at adds
    cases adds
  | join threads =>
    cases threads with
    | nil =>
      simp only [TaskPoolBase.callStep, here, Option.some.injEq] at taken
      simp [← taken, TaskPoolBase.moveCaller, CallerPc.adding] at adds
    | cons first rest =>
      simp only [TaskPoolBase.callStep, here] at taken
      split at taken <;> cases taken
      simp [TaskPoolBase.moveCaller, CallerPc.adding] at adds
  | _ =>
    simp only [TaskPoolBase.callStep, here, Option.some.injEq] at taken
    simp [← taken, TaskPoolBase.moveCaller, CallerPc.adding] at adds

/-- A call begins. -/
private theorem Kept.called (kept : Kept stopper pool) {operation : Operation (C × P × TaskItem F)}
    (graceful : (.call caller operation : PoolAction (C × P × TaskItem F) C).Graceful stopper)
    (permitted : Permitted pool (.call caller operation))
    (taken : TaskPoolBase.next coreNum pool (.call caller operation) = some after) :
    Kept stopper after := by
  have retiring := kept.retiring.step graceful taken
  simp only [TaskPoolBase.next] at taken
  split at taken
  · cases taken
    refine kept.around retiring rfl (fun other add adds => ?_) fun thread here _ => here
    by_cases same : other = caller
    · subst same
      simp only [TaskPoolBase.moveCaller, Function.update_self] at adds
      cases operation with
      | addTask held =>
        obtain rfl : held = add := Option.some.inj adds
        exact permitted
      | _ => cases adds
    · simp only [TaskPoolBase.moveCaller, Function.update_of_ne same] at adds
      exact kept.adding other add adds
  · cases taken

private theorem state_stop (queue : PoolQueue P F C) : (stop queue true).state =
    queue.state.moveCaller none { queue.state.queue with bstop := true } .outside := by
  simp [stop, State.callStep, State.moveCaller]

/-- A call goes from the pool into the queue. -/
private theorem Kept.enters (kept : Kept stopper pool) {add : C × P × TaskItem F}
    (here : pool.caller caller = .addTask add)
    (taken : TaskPoolBase.next coreNum pool (.caller caller) = some after) :
    Kept stopper after := by
  have calm : (.caller caller : PoolAction (C × P × TaskItem F) C).Graceful stopper := trivial
  have retiring := kept.retiring.step calm taken
  simp only [TaskPoolBase.next, TaskPoolBase.callStep, here, Option.some.injEq] at taken
  subst taken
  obtain ⟨mine, outside⟩ := kept.adding caller add (by rw [here]; rfl)
  refine ⟨retiring, ?_, ?_, ?_, ?_, kept.inside⟩
  · intro other
    by_cases same : other = some add.1
    · simp [TaskPoolBase.moveCaller, TQueueType.addTask, addTask, State.moveCaller, same,
        SPMCSerialTaskQueue.CallerPc.plain]
    · simpa [TaskPoolBase.moveCaller, TQueueType.addTask, addTask, State.moveCaller,
        same] using kept.plain other
  · simpa [TaskPoolBase.moveCaller, TQueueType.addTask, addTask, State.moveCaller] using kept.nobody
  · intro other held adds
    by_cases same : other = caller
    · simp [TaskPoolBase.moveCaller, same, CallerPc.adding] at adds
    · simp only [TaskPoolBase.moveCaller, Function.update_of_ne same] at adds
      simpa [TaskPoolBase.moveCaller, TQueueType.addTask, addTask, State.moveCaller, mine,
        same] using
        kept.adding other held adds
  · rw [← mine] at outside
    apply kept.steady.moveCaller 0 <;>
      simp +contextual [outside, kept.steady.unset, CallerPc.cleared, CallerPc.task, CallerPc.uncounted]

/-- A call goes on in the pool. -/
private theorem Kept.calls (kept : Kept stopper pool)
    (taken : TaskPoolBase.next coreNum pool (.caller caller) = some after) :
    Kept stopper after := by
  have calm : (.caller caller : PoolAction (C × P × TaskItem F) C).Graceful stopper := trivial
  have retiring := kept.retiring.step calm taken
  have moved := TaskPoolBase.moved_of_callStep taken
  have adding (other : C) (add : C × P × TaskItem F) (adds : (after.caller other).adding = some add) :
      add.1 = other ∧ pool.taskQueue.state.caller (some other) = .outside := by
    apply kept.adding other add
    by_cases same : other = caller
    · subst same
      exact adding_callStep taken adds
    · rwa [TaskPoolBase.caller_of_moved moved, Function.update_of_ne same] at adds
  obtain ⟨⟨worker, _⟩, same | ⟨bwait, _, _, stops⟩ | ⟨add, here, _⟩⟩ :=
    TaskPoolBase.effect_of_graceful (kept.retiring.graceful caller) moved
  · exact kept.around retiring (by rw [same]) adding fun thread here _ => worker ▸ here
  · have state : after.taskQueue.state = pool.taskQueue.state.moveCaller none
        { pool.taskQueue.state.queue with bstop := true } .outside := by
      rw [stops]
      exact state_stop pool.taskQueue
    refine ⟨retiring, ?_, ?_, ?_, ?_, ?_⟩
    · rw [state]
      intro other
      by_cases same : other = none
      · simp [State.moveCaller, same, SPMCSerialTaskQueue.CallerPc.plain]
      · simpa [State.moveCaller, same] using kept.plain other
    · rw [state]
      simp [State.moveCaller]
    · rw [state]
      simpa [State.moveCaller] using adding
    · rw [state]
      apply kept.steady.moveCaller 0 <;>
        simp +contextual [kept.nobody, kept.steady.unset, CallerPc.cleared, CallerPc.task, CallerPc.uncounted]
    · rw [state, worker]
      exact kept.inside
  · exact kept.enters here taken

omit [DecidableEq C] in
/-- Entering `pop_task` changes nothing but the place of the worker. -/
private theorem entered_steady {queue : PoolQueue P F C} (steady : queue.state.Steady) :
    (entered queue thread).Steady := by
  unfold entered
  split
  · rename_i outside
    apply steady.moveWorker 0 <;> simp [outside, steady.unset, PopPc.cleared, PopPc.task, PopPc.uncounted]
  · exact steady

omit [DecidableEq C] in
private theorem entered_inRange {queue : PoolQueue P F C} {source : Option C}
    (inRange : queue.state.InRange (.pop thread source)) :
    (entered queue thread).InRange (.pop thread source) := by
  unfold entered
  split
  · simp [State.InRange, State.moveWorker]
  · exact inRange

omit [DecidableEq C] in
private theorem entered_facts (queue : PoolQueue P F C) (thread : Nat) :
    (entered queue thread).caller = queue.state.caller ∧
    (entered queue thread).queue = queue.state.queue ∧
      (entered queue thread).accepted = queue.state.accepted := by
  unfold entered
  split <;> exact ⟨rfl, rfl, rfl⟩

omit [DecidableEq C] in
private theorem worker_entered {queue : PoolQueue P F C} {other : Nat} (apart : other ≠ thread) :
    (entered queue thread).worker other = queue.state.worker other := by
  unfold entered
  split
  · exact Function.update_of_ne apart _ _
  · rfl

private theorem Kept.worked (kept : Kept stopper pool)
    (inRange : InRange pool (.pool (.worker thread)))
    (taken : TaskPoolBase.next coreNum pool (.worker thread) = some after) :
    Kept stopper after := by
  have calm : (.worker thread : PoolAction (C × P × TaskItem F) C).Graceful stopper := trivial
  have retiring := kept.retiring.step calm taken
  have worked := TaskPoolBase.worked_of_threadFun taken
  have around := worked.around
  have elsewhere (away : pool.worker thread ≠ .popTask) (other : Nat) (here : pool.worker other = .popTask) :
      after.worker other = .popTask := by
    have apart : other ≠ thread := by
      rintro rfl
      exact away here
    rw [around.worker other apart, here]
  cases worked with
  | @popped taskQueue more here popped =>
    obtain ⟨state, step, rfl, goesOn⟩ := popTask_eq_some popped
    obtain ⟨_, callers, _⟩ := State.onward_of_popStep step
    have sameCallers : state.caller = pool.taskQueue.state.caller :=
      callers.trans (entered_facts _ _).1
    refine ⟨retiring, ?_, ?_, ?_, ?_, ?_⟩
    · simpa [TaskPoolBase.moveWorker, sameCallers] using kept.plain
    · simpa [TaskPoolBase.moveWorker, sameCallers] using kept.nobody
    · simpa [TaskPoolBase.moveWorker, sameCallers] using kept.adding
    · exact (entered_steady kept.steady).popStep (entered_inRange inRange) step
    · intro other busy
      by_cases same : other = thread
      · subst same
        simp [TaskPoolBase.moveWorker, goesOn.mpr busy]
      · have unmoved : state.worker other = pool.taskQueue.state.worker other := by
          rw [State.worker_of_popStep step same]
          exact worker_entered same
        simp only [TaskPoolBase.moveWorker, Function.update_of_ne same]
        exact kept.inside other (unmoved ▸ busy)
  | _ here =>
    exact kept.around retiring rfl kept.adding fun other popping _ =>
      elsewhere (by simp [here]) other popping

/-- A call of `add_task` goes on in the queue. -/
private theorem Kept.queued (kept : Kept stopper pool) {caller source : Option C}
    (inRange : InRange pool (.queue caller source))
    (taken : next coreNum pool (.queue caller source) = some after) :
    Kept stopper after := by
  obtain ⟨state, step, rfl⟩ := Option.map_eq_some_iff.mp taken
  obtain ⟨others, plain⟩ := State.caller_of_callStep (kept.plain caller) step
  have busy : pool.taskQueue.state.caller caller ≠ .outside := by
    intro outside
    simp [State.callStep, outside] at step
  have allPlain (other : Option C) : (state.caller other).plain = true := by
    by_cases same : other = caller
    · exact same ▸ plain
    · rw [others other same]
      exact kept.plain other
  have unset : state.queue.bclear = false := by
    apply ((State.onward_of_callStep step).sets kept.steady.unset).resolve_right
    rintro ⟨other, clearing⟩
    have := allPlain other
    cases here : state.caller other <;>
      simp_all [SPMCSerialTaskQueue.CallerPc.plain, SPMCSerialTaskQueue.CallerPc.clearing]
  have unmoved {other : Option C} (outside : pool.taskQueue.state.caller other = .outside) :
      state.caller other = .outside := by
    rw [others other fun same => busy (same ▸ outside), outside]
  refine ⟨kept.retiring.requeue _, allPlain, unmoved kept.nobody, ?_,
    kept.steady.callStep inRange step unset, ?_⟩
  · intro other add adds
    obtain ⟨mine, outside⟩ := kept.adding other add adds
    exact ⟨mine, unmoved outside⟩
  · rw [State.workers_of_callStep (kept.plain caller) step]
    exact kept.inside

theorem Kept.step (kept : Kept stopper pool) (graceful : action.Graceful stopper)
    (inRange : InRange pool action)
    (taken : next coreNum pool action = some after) : Kept stopper after := by
  cases action with
  | pool action =>
    obtain ⟨permitted, taken⟩ := Option.ite_none_right_eq_some.mp taken
    cases action with
    | call caller operation => exact kept.called graceful permitted taken
    | caller caller => exact kept.calls taken
    | worker thread => exact kept.worked inRange taken
  | queue caller source => exact kept.queued inRange taken
  | turn thread source =>
    cases taken
    exact ⟨kept.retiring.requeue _, kept.plain, kept.nobody, kept.adding, kept.steady, kept.inside⟩

/-- Some of these tasks wait. -/
def Await (pool : SPMCSerialTaskPool P F C) (promised : List (AddedTask P F)) : Prop :=
  ∃ task ∈ promised, ∃ source, (source, task) ∈ pool.taskQueue.state.queue.waitTasks task.prop

/-- Accepted tasks stay accepted with a step, and none of them begins to wait. -/
theorem Kept.promised (kept : Kept stopper pool) (taken : next coreNum pool action = some after) :
    pool.taskQueue.state.accepted ⊆ after.taskQueue.state.accepted ∧
      ∀ promised ⊆ pool.taskQueue.state.accepted, Await after promised → Await pool promised := by
  have unchanged (accepted : after.taskQueue.state.accepted = pool.taskQueue.state.accepted)
      (waitTasks : after.taskQueue.state.queue.waitTasks = pool.taskQueue.state.queue.waitTasks) :
      pool.taskQueue.state.accepted ⊆ after.taskQueue.state.accepted ∧
        ∀ promised ⊆ pool.taskQueue.state.accepted, Await after promised → Await pool promised := by
    refine ⟨accepted ▸ List.Subset.refl _, fun promised _ await => ?_⟩
    obtain ⟨task, member, source, waits⟩ := await
    exact ⟨task, member, source, waitTasks ▸ waits⟩
  cases action with
  | pool action =>
    obtain ⟨_, taken⟩ := Option.ite_none_right_eq_some.mp taken
    cases action with
    | call caller operation =>
      simp only [TaskPoolBase.next] at taken
      split at taken <;> cases taken
      exact unchanged rfl rfl
    | caller caller =>
      obtain ⟨_, same | ⟨bwait, _, _, stops⟩ | ⟨add, _, adds⟩⟩ := TaskPoolBase.effect_of_graceful
        (kept.retiring.graceful caller) (TaskPoolBase.moved_of_callStep taken)
      · exact unchanged (by rw [same]) (by rw [same])
      · have state := state_stop pool.taskQueue
        rw [show stop pool.taskQueue true = after.taskQueue from stops.symm] at state
        exact unchanged (by rw [state]; rfl) (by rw [state]; rfl)
      · exact unchanged (by rw [adds]; rfl) (by rw [adds]; rfl)
    | worker thread =>
      cases TaskPoolBase.worked_of_threadFun taken with
      | popped here popped =>
        obtain ⟨state, step, rfl, _⟩ := popTask_eq_some popped
        obtain ⟨_, _, accepted⟩ := State.onward_of_popStep step
        obtain ⟨_, queue, same⟩ := entered_facts pool.taskQueue thread
        refine ⟨?_, fun promised _ await => ?_⟩
        · rw [← same, ← accepted]
          exact List.Subset.refl _
        · obtain ⟨task, member, source, waits⟩ := await
          refine ⟨task, member, source, ?_⟩
          rw [← queue]
          exact State.waits_of_popStep step waits
      | _ => exact unchanged rfl rfl
  | queue caller source =>
    obtain ⟨state, step, rfl⟩ := Option.map_eq_some_iff.mp taken
    refine ⟨(State.onward_of_callStep step).accepted, fun promised accepted await => ?_⟩
    obtain ⟨task, member, source, waits⟩ := await
    exact ⟨task, member, source,
      State.waits_of_callStep (kept.plain caller) kept.steady.apart step (accepted member) waits⟩
  | turn thread source =>
    cases taken
    exact unchanged rfl rfl

/-- As long as something promised waits, a worker stays. -/
theorem Kept.manned (kept : Kept stopper pool) (covered : Covered pool action)
    (taken : next coreNum pool action = some after) {promised : List (AddedTask P F)}
    (accepted : promised ⊆ pool.taskQueue.state.accepted) (waits : Await pool promised)
    (live : ∃ thread, pool.Live thread) : ∃ thread, after.Live thread := by
  cases action with
  | pool action =>
    obtain ⟨_, taken⟩ := Option.ite_none_right_eq_some.mp taken
    cases action with
    | call caller operation =>
      simp only [TaskPoolBase.next] at taken
      split at taken <;> cases taken
      exact live
    | caller caller =>
      obtain ⟨⟨worker, _⟩, _⟩ := TaskPoolBase.effect_of_graceful
        (kept.retiring.graceful caller) (TaskPoolBase.moved_of_callStep taken)
      obtain ⟨thread, live⟩ := live
      exact ⟨thread, by rwa [TaskPoolBase.Live, worker]⟩
    | worker thread =>
      have worked := TaskPoolBase.worked_of_threadFun taken
      by_cases another : ∃ other, pool.Live other ∧ other ≠ thread
      · obtain ⟨other, live, apart⟩ := another
        exact ⟨other, by rwa [TaskPoolBase.Live, worked.around.worker other apart]⟩
      -- The last worker would leave only if the counter hid the promised task.
      have last (other : Nat) (live : pool.Live other) : other = thread := by
        by_contra apart
        exact another ⟨other, live, apart⟩
      refine ⟨thread, ?_⟩
      cases worked with
      | drained here empty =>
        obtain ⟨task, member, source, waits⟩ := waits
        have nothing : pool.taskQueue.state.queue.notEmpty = false := by
          simpa [TQueueType.empty] using empty
        have filled := kept.steady.notEmpty (covered here nothing last) (accepted member) waits
        cases nothing.symm.trans filled
      | outdated here older =>
        have := kept.retiring.current thread (by simp [TaskPoolBase.Live, here])
        omega
      | @tested pc stoped => cases stoped <;> simp [TaskPoolBase.Live, TaskPoolBase.moveWorker]
      | @popped taskQueue more => cases more <;> simp [TaskPoolBase.Live, TaskPoolBase.moveWorker]
      | _ => simp [TaskPoolBase.Live, TaskPoolBase.moveWorker]
  | queue caller source =>
    obtain ⟨state, _, rfl⟩ := Option.map_eq_some_iff.mp taken
    exact live
  | turn thread source =>
    cases taken
    exact live

theorem started_kept {maxTaskCount : UInt64} {props : List P} :
    Kept stopper (started coreNum maxTaskCount props threadNum : SPMCSerialTaskPool P F C) where
  retiring := TaskPoolBase.created_retiring
  plain := fun _ => rfl
  nobody := rfl
  adding := fun _ _ adds => nomatch adds
  steady := (State.init_steady maxTaskCount 0).resetProps props
  inside := fun _ busy => absurd rfl busy

theorem serving_step (serving : pool.Serving) (adding : action.Adding)
    (taken : next coreNum pool action = some after) : after.Serving := by
  cases action with
  | pool action =>
    obtain ⟨_, taken⟩ := Option.ite_none_right_eq_some.mp taken
    exact serving.step adding taken
  | queue caller source =>
    obtain ⟨state, _, rfl⟩ := Option.map_eq_some_iff.mp taken
    exact serving.requeue _
  | turn thread source =>
    cases taken
    exact serving.requeue _

omit [DecidableEq P] [DecidableEq F] [DecidableEq C] in
theorem graceful_of_adding (adding : action.Adding) : action.Graceful stopper := by
  rcases action with (⟨caller, _ | _ | _ | _⟩ | _ | _) | _ | _ <;> trivial

/-- When `stop(true)` has returned, every task that had been accepted before it was called has been
executed, if the last worker does not leave on a counter that another worker has overdrawn. -/
theorem stop_executes_promised {maxTaskCount : UInt64} {props : List P}
    {called last : SPMCSerialTaskPool P F C} {front back : List (Action P F C)}
    (manned : 0 < TaskPoolBase.threadCount coreNum threadNum)
    (before : Path (Guarded (Taken (next coreNum)) fun pool action => action.Adding ∧ InRange pool action)
      (started coreNum maxTaskCount props threadNum) front called)
    (since : Path (Guarded (Taken (next coreNum)) fun pool action =>
        action.Graceful stopper ∧ InRange pool action ∧ Covered pool action) called back last)
    (returned : last.atomicSwitch.binit = false) :
    ∀ task ∈ called.taskQueue.state.accepted, task.func.isSome = true →
      task ∈ last.taskQueue.state.executed := by
  obtain ⟨kept, serving⟩ := before.invariant (fun pool => Kept stopper pool ∧ pool.Serving)
    (fun _ _ _ before step => by
      obtain ⟨kept, serving⟩ := before
      obtain ⟨⟨adding, inRange⟩, taken⟩ := step
      exact ⟨kept.step (graceful_of_adding adding) inRange taken, serving_step serving adding taken⟩)
    ⟨started_kept, TaskPoolBase.created_serving manned⟩
  obtain ⟨thread, stays, _⟩ := serving.manned
  have there : called.Live thread := by
    intro outside
    simp [outside, WorkerPc.staying] at stays
  obtain ⟨kept, accepted, served⟩ := since.invariant (fun pool => Kept stopper pool ∧
      called.taskQueue.state.accepted ⊆ pool.taskQueue.state.accepted ∧
      (Await pool called.taskQueue.state.accepted → ∃ thread, pool.Live thread))
    (fun _ _ _ before step => by
      obtain ⟨kept, accepted, served⟩ := before
      obtain ⟨⟨graceful, inRange, covered⟩, taken⟩ := step
      obtain ⟨grows, fewer⟩ := kept.promised taken
      refine ⟨kept.step graceful inRange taken, List.Subset.trans accepted grows, fun waits => ?_⟩
      have waits := fewer _ accepted waits
      exact kept.manned covered taken accepted waits (served waits))
    ⟨kept, List.Subset.refl _, fun _ => ⟨thread, there⟩⟩
  have gone := kept.retiring.gone (.inr returned)
  intro task member func
  rcases kept.steady.accepted task (accepted member) with none | done | ⟨source, waits⟩ | ⟨worker, has⟩
  · simp [none] at func
  · exact done
  · obtain ⟨thread, live⟩ := served ⟨task, member, source, waits⟩
    exact absurd live (gone thread)
  · have busy : last.taskQueue.state.worker worker ≠ .outside := by
      intro outside
      simp [outside, PopPc.task] at has
    exact absurd (by simp [TaskPoolBase.Live, kept.inside worker busy]) (gone worker)

omit [DecidableEq P] [DecidableEq F] [DecidableEq C] in
theorem covered_of_counted
    (counted : ∀ caller, (pool.taskQueue.state.caller caller).uncounted = false) :
    Covered pool action := by
  rcases action with (_ | _ | thread) | _ | _
  case pool.worker =>
    rintro _ _ _ ⟨caller, _, uncounted, _⟩
    simp [counted caller] at uncounted
  all_goals trivial

/-- A call of `add_task` until its task is enqueued. -/
def enqueues (caller : Fin 3) (prop func : Nat) : List (Action Nat Nat (Fin 3)) :=
  List.flatten
    [[.pool (.call caller (.addTask (caller, prop, some func)))],
      List.replicate 4 (.pool (.caller caller)), List.replicate 3 (.queue (some caller) none)]

/-- The worker takes the task of this producer, executes it and gives the slot back. -/
def pops (source : Fin 3) : List (Action Nat Nat (Fin 3)) :=
  .turn 0 (some source) :: List.replicate 15 (.pool (.worker 0))

/-- `stop(true)` sets the switch, the worker leaves, and the call returns. -/
def stops : List (Action Nat Nat (Fin 3)) :=
  List.flatten
    [[.pool (.call 0 (.stop true))], List.replicate 5 (.pool (.caller 0)),
      List.replicate 4 (.pool (.worker 0)), List.replicate 5 (.pool (.caller 0))]

theorem stop_executes_promised_one_task :
    ∃ called last : SPMCSerialTaskPool Nat Nat (Fin 3),
      exec (next 1) (started 1 0 [1] 1)
        (List.flatten [enqueues 1 1 50, List.replicate 3 (.queue (some 1) none), pops 1]) = some called ∧
      exec (next 1) called stops = some last ∧ ⟨0, 1, some 50⟩ ∈ called.taskQueue.state.accepted ∧
      ⟨0, 1, some 50⟩ ∈ last.taskQueue.state.executed := by
  have runs :
    ∃ called ∈ exec (checked (next 1) fun pool action => action.Adding ∧ InRange pool action)
      (started 1 0 [1] 1 : SPMCSerialTaskPool Nat Nat (Fin 3))
      (List.flatten [enqueues 1 1 50, List.replicate 3 (.queue (some 1) none), pops 1]),
      called.taskQueue.state.accepted = [⟨0, 1, some 50⟩] ∧
      ∃ last ∈ exec (checked (next 1) fun pool action => (action.Graceful 0 ∧ InRange pool action) ∧
          ∀ caller, (pool.taskQueue.state.caller caller).uncounted = false) called stops,
        last.atomicSwitch.binit = false := by
    decide
  obtain ⟨called, first, accepted, last, second, returned⟩ := runs
  have before := Path.of_checked first
  have since : Path (Guarded (Taken (next 1)) fun pool action =>
      action.Graceful 0 ∧ InRange pool action ∧ Covered pool action) called stops last := by
    apply (Path.of_checked second).mono
    intro pool action after ⟨⟨⟨graceful, inRange⟩, counted⟩, taken⟩
    exact ⟨⟨graceful, inRange, covered_of_counted counted⟩, taken⟩
  have member : ⟨0, 1, some 50⟩ ∈ called.taskQueue.state.accepted := by simp [accepted]
  refine ⟨called, last, exec_eq_some_iff.mpr (before.mono fun _ _ _ step => step.2),
    exec_eq_some_iff.mpr (since.mono fun _ _ _ step => step.2), member, ?_⟩
  exact stop_executes_promised (by decide) before since returned _ member rfl

/-- The worker counts off the task of producer 2 before this one counts it. -/
theorem stop_leaves_promised :
    ∃ called last : SPMCSerialTaskPool Nat Nat (Fin 3),
      Path (Guarded (Taken (next 1)) fun _ action => action.Adding) (started 1 0 [2, 1] 1)
        (List.flatten [enqueues 1 1 50, List.replicate 3 (.queue (some 1) none), enqueues 2 2 60, pops 2]) called ∧
      Path (Guarded (Taken (next 1)) fun _ action => action.Graceful 0) called stops last ∧
      last.atomicSwitch.binit = false ∧ last.caller 0 = .idle ∧
      ⟨0, 1, some 50⟩ ∈ called.taskQueue.state.accepted ∧
      ⟨0, 1, some 50⟩ ∉ last.taskQueue.state.executed := by
  have runs : ∃ called ∈ exec (checked (next 1) fun _ action => action.Adding)
      (started 1 0 [2, 1] 1 : SPMCSerialTaskPool Nat Nat (Fin 3))
      (List.flatten [enqueues 1 1 50, List.replicate 3 (.queue (some 1) none), enqueues 2 2 60, pops 2]),
      called.taskQueue.state.accepted = [⟨0, 1, some 50⟩] ∧
      ∃ last ∈ exec (checked (next 1) fun _ action => action.Graceful 0) called stops,
        last.atomicSwitch.binit = false ∧ last.caller 0 = .idle ∧
          last.taskQueue.state.executed = [⟨1, 2, some 60⟩] := by
    decide
  obtain ⟨called, first, accepted, last, second, returned, idle, executed⟩ := runs
  refine ⟨called, last, Path.of_checked first, Path.of_checked second, returned, idle, ?_, ?_⟩
  · simp [accepted]
  · simp [executed]

end SPMCSerialTaskPool

end BTool.TaskPool
