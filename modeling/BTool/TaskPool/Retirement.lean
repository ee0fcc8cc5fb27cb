import BTool.Foundation.Transition
import BTool.TaskPool.CallSteps

/-! A started `TaskPoolBase` over any queue type, whose only further calls are those of `add_task`
and of `stop(true)` by one thread: how long its workers stay, and when they have all left. -/

namespace BTool.TaskPool

open BTool.Foundation

variable {Queue Add C : Type}

/-- One thread may call `stop(true)`; the other calls are those of `add_task`. -/
def PoolAction.Graceful (stopper : C) : PoolAction Add C → Prop
  | .call who (.stop bwait) => who = stopper ∧ bwait = true
  | .call _ (.start _) => False
  | .call _ (.resetThreadNum _) => False
  | _ => True

instance [DecidableEq C] (stopper : C) (action : PoolAction Add C) :
    Decidable (action.Graceful stopper) := by
  rcases action with ⟨caller, _ | _ | _ | _⟩ | _ | _ <;> unfold PoolAction.Graceful <;> infer_instance

/-- The only calls are those of `add_task`. -/
def PoolAction.Adding : PoolAction Add C → Prop
  | .call _ (.addTask _) => True
  | .call _ _ => False
  | _ => True

instance (action : PoolAction Add C) : Decidable action.Adding := by
  rcases action with ⟨caller, _ | _ | _ | _⟩ | _ | _ <;> unfold PoolAction.Adding <;> infer_instance

namespace TaskPoolBase

variable [TQueueType Queue Add] [DecidableEq C] {pool after : TaskPoolBase Queue Add C} {stopper caller : C}
  {thread coreNum threadNum : Nat} {action : PoolAction Add C}

/-- What is kept while the only calls are those of `add_task` and of one `stop(true)`. -/
structure Retiring (stopper : C) (pool : TaskPoolBase Queue Add C) : Prop where
  quiet : ∀ caller, caller ≠ stopper → (pool.caller caller).quiet = true
  graceful : Everywhere (fun pc => pc.graceful = true) pool.caller
  owned : pool.Owned
  taken : Everywhere (fun pc => 3 ≤ pc.stage → pool.curThreads = []) pool.caller
  gone : Somewhere (fun pc => 4 ≤ pc.stage) pool.caller ∨ pool.atomicSwitch.binit = false →
    ∀ thread, ¬ pool.Live thread
  current : ∀ thread, pool.Live thread → pool.version thread = pool.curThreadVer

/-- A call that is not one of `start` or `reset_thread_num` creates no thread and leaves the
queue alone, stops it or adds a task. -/
theorem effect_of_graceful (graceful : (pool.caller caller).graceful = true)
    (moved : Moved coreNum pool caller after) :
    (after.worker = pool.worker ∧ after.version = pool.version ∧ after.curThreadVer = pool.curThreadVer) ∧
    (after.taskQueue = pool.taskQueue ∨
      (∃ bwait, pool.caller caller = .queueStop bwait ∧ bwait = true ∧
        after.taskQueue = TQueueType.stop pool.taskQueue true) ∨
      ∃ add, pool.caller caller = .addTask add ∧ after.taskQueue = TQueueType.addTask pool.taskQueue add) := by
  cases moved with
  | created here => simp [here, CallerPc.graceful] at graceful
  | queueStarted here => simp [here, CallerPc.graceful] at graceful
  | queueStopped here =>
    obtain rfl : _ = true := by simpa [here, CallerPc.graceful] using graceful
    exact ⟨⟨rfl, rfl, rfl⟩, .inr (.inl ⟨true, here, rfl, rfl⟩)⟩
  | added here => exact ⟨⟨rfl, rfl, rfl⟩, .inr (.inr ⟨_, here, rfl⟩)⟩
  | _ => exact ⟨⟨rfl, rfl, rfl⟩, .inl rfl⟩

omit [TQueueType Queue Add] [DecidableEq C] in
/-- Only one thread is ever in a `stop`. -/
theorem Retiring.sole (retiring : Retiring stopper pool) (loud : (pool.caller caller).quiet = false) :
    caller = stopper := by
  by_contra apart
  simp [retiring.quiet caller apart] at loud

private theorem Retiring.quiet_moved (retiring : Retiring stopper pool) (busy : pool.caller caller ≠ .idle)
    (moved : Moved coreNum pool caller after) (other : C) (apart : other ≠ stopper) :
    (after.caller other).quiet = true := by
  have before := retiring.quiet other apart
  by_cases same : other = caller
  · subst same
    cases moved with
    | along _ within => simpa [moveCaller] using (within.resolve_left busy).quiet before
    | added => simp [moveCaller, CallerPc.quiet]
    | created => simp [moveCaller, CallerPc.quiet]
    | refused => simp [moveCaller, CallerPc.quiet]
    | storeInit => simp [moveCaller, CallerPc.quiet]
    | started here _ =>
      have loud := (CallerPc.outer_of_starting here).1
      simp [(CallerPc.outer_of_quiet before).1] at loud
    | _ here => simp [here, CallerPc.quiet] at before
  · rw [caller_of_moved moved, Function.update_of_ne same]
    exact before

private theorem Retiring.graceful_moved (retiring : Retiring stopper pool) (busy : pool.caller caller ≠ .idle)
    (moved : Moved coreNum pool caller after) : Everywhere (fun pc => pc.graceful = true) after.caller := by
  have before := retiring.graceful caller
  cases moved with
  | along _ within => exact retiring.graceful.move ((within.resolve_left busy).graceful before)
  | started here _ => simp [(CallerPc.outer_of_starting here).1] at before
  | initialised here _ => simp [here, CallerPc.graceful] at before
  | queueStarted here => simp [here, CallerPc.graceful] at before
  | stopped here _ =>
    rw [here] at before
    exact retiring.graceful.move before
  | _ => exact retiring.graceful.move rfl

private theorem Retiring.taken_moved (retiring : Retiring stopper pool)
    (moved : Moved coreNum pool caller after) :
    Everywhere (fun pc => 3 ≤ pc.stage → after.curThreads = []) after.caller := by
  have before := retiring.taken caller
  cases moved with
  | along alike _ => exact retiring.taken.move (alike.stage ▸ before)
  | created here =>
    have graceful := retiring.graceful caller
    simp [here, CallerPc.graceful] at graceful
  | swapped => exact fun _ _ => rfl
  | joined here _ => exact retiring.taken.move fun _ => before (by simp [here, CallerPc.stage])
  | released here => exact retiring.taken.move fun _ => before (by simp [here, CallerPc.stage])
  | storeStart here => exact retiring.taken.move fun _ => before (by simp [here, CallerPc.stage])
  | storeStop here => exact retiring.taken.move fun _ => before (by simp [here, CallerPc.stage])
  | _ => exact retiring.taken.move fun late => by simp [CallerPc.stage] at late

omit [TQueueType Queue Add] [DecidableEq C] in
/-- When nothing is left to join, every thread that the pool created has left. -/
private theorem Retiring.gone_of_released (retiring : Retiring stopper pool)
    (here : pool.caller caller = .join []) : ¬ pool.Live thread := by
  intro live
  have mine : caller = stopper := retiring.sole (by simp [here, CallerPc.quiet])
  rcases retiring.owned thread live with inCur | ⟨other, joins⟩
  · simp [retiring.taken caller (by simp [here, CallerPc.stage])] at inCur
  · by_cases same : other = caller
    · subst same
      simp [here, CallerPc.joining] at joins
    · have outer := CallerPc.outer_of_quiet (retiring.quiet other (mine ▸ same))
      simp [outer.2.2.2.2.2] at joins

private theorem Retiring.gone_moved (retiring : Retiring stopper pool)
    (moved : Moved coreNum pool caller after)
    (reason : Somewhere (fun pc => 4 ≤ pc.stage) after.caller ∨ after.atomicSwitch.binit = false)
    (thread : Nat) : ¬ pool.Live thread := by
  rcases reason with found | unset
  · cases moved with
    | along alike _ => exact retiring.gone (.inl (found.back (by simp [alike.stage]))) thread
    | released here => exact retiring.gone_of_released here
    | storeStart here => exact retiring.gone (.inl (found.back (by simp [here, CallerPc.stage]))) thread
    | storeStop here => exact retiring.gone (.inl (found.back (by simp [here, CallerPc.stage]))) thread
    | _ => exact retiring.gone (.inl (found.back (by simp [CallerPc.stage]))) thread
  · rcases binit_of_moved moved unset with before | here
    · exact retiring.gone (.inr before) thread
    · exact retiring.gone (.inl ⟨caller, by simp [here, CallerPc.stage]⟩) thread

private theorem Retiring.moved (retiring : Retiring stopper pool) (moved : Moved coreNum pool caller after)
    (quiet : ∀ other, other ≠ stopper → (after.caller other).quiet = true)
    (graceful : Everywhere (fun pc => pc.graceful = true) after.caller) : Retiring stopper after := by
  obtain ⟨⟨worker, version, ver⟩, _⟩ := effect_of_graceful (retiring.graceful caller) moved
  have live (thread : Nat) : after.Live thread ↔ pool.Live thread := by simp [Live, worker]
  refine ⟨quiet, graceful, retiring.owned.moved moved, retiring.taken_moved moved, ?_, ?_⟩
  · intro reason thread
    rw [live]
    exact retiring.gone_moved moved reason thread
  · intro thread
    rw [live, version, ver]
    exact retiring.current thread

omit [DecidableEq C] in
theorem Retiring.worked (retiring : Retiring stopper pool) (worked : Worked pool thread after) :
    Retiring stopper after := by
  have around := worked.around
  refine ⟨?_, ?_, retiring.owned.worked worked, ?_, ?_, ?_⟩
  · rw [around.caller]
    exact retiring.quiet
  · rw [around.caller]
    exact retiring.graceful
  · rw [around.caller, around.curThreads]
    exact retiring.taken
  · rw [around.caller, around.atomicSwitch]
    exact fun reason other live => retiring.gone reason other (worked.live live)
  · rw [around.version, around.curThreadVer]
    exact fun other live => retiring.current other (worked.live live)

omit [TQueueType Queue Add] [DecidableEq C] in
/-- Something happens in the queue alone. -/
theorem Retiring.requeue (retiring : Retiring stopper pool) (taskQueue : Queue) :
    Retiring stopper { pool with taskQueue } :=
  ⟨retiring.quiet, retiring.graceful, retiring.owned, retiring.taken, retiring.gone, retiring.current⟩

theorem Retiring.step (retiring : Retiring stopper pool) (graceful : action.Graceful stopper)
    (taken : pool.next coreNum action = some after) : Retiring stopper after := by
  cases action with
  | call caller operation =>
    have moved := moved_of_call taken
    obtain rfl : pool.moveCaller caller operation.entry = after := by
      simp only [next] at taken
      split at taken
      · exact Option.some.inj taken
      · cases taken
    have entered : operation.entry.graceful = true ∧ (caller ≠ stopper → operation.entry.quiet = true) := by
      cases operation with
      | start => cases graceful
      | resetThreadNum => cases graceful
      | stop bwait => exact ⟨graceful.2, fun apart => absurd graceful.1 apart⟩
      | addTask add => exact ⟨rfl, fun _ => rfl⟩
    refine retiring.moved moved (fun other apart => ?_) (retiring.graceful.move entered.1)
    by_cases same : other = caller
    · subst same
      simpa [moveCaller] using entered.2 apart
    · simpa [moveCaller, same] using retiring.quiet other apart
  | caller caller =>
    have busy : pool.caller caller ≠ .idle := by
      intro here
      simp [next, callStep, here] at taken
    have moved := moved_of_callStep taken
    exact retiring.moved moved (retiring.quiet_moved busy moved) (retiring.graceful_moved busy moved)
  | worker thread => exact retiring.worked (worked_of_threadFun taken)

omit [TQueueType Queue Add] [DecidableEq C] in
/-- At first exactly the threads just created are running. -/
theorem mem_of_created {queue : Queue}
    (live : Live (({ construct queue with atomicSwitch := .started } :
      TaskPoolBase Queue Add C).createThread coreNum threadNum) thread) :
    thread ∈ List.range' 0 (threadCount coreNum threadNum) := by
  by_contra other
  exact live (if_neg other)

omit [TQueueType Queue Add] [DecidableEq C] in
theorem created_retiring {queue : Queue} :
    Retiring stopper (({ construct queue with atomicSwitch := .started } :
      TaskPoolBase Queue Add C).createThread coreNum threadNum) where
  quiet := fun _ _ => rfl
  graceful := fun _ => rfl
  owned := fun thread live => .inl (mem_of_created live)
  taken := fun _ late => absurd (show 3 ≤ 0 from late) (by decide)
  gone := by
    rintro (⟨_, late⟩ | unset)
    · exact absurd (show 4 ≤ 0 from late) (by decide)
    · cases unset
  current := fun thread live => if_pos (mem_of_created live)

/-- Nobody has called `stop`, and a worker stays in its loop. -/
structure Serving (pool : TaskPoolBase Queue Add C) : Prop where
  quiet : ∀ caller, (pool.caller caller).quiet = true
  started : pool.atomicSwitch = .started
  manned : ∃ thread, (pool.worker thread).staying = true ∧ pool.version thread = pool.curThreadVer

omit [TQueueType Queue Add] [DecidableEq C] in
theorem Serving.requeue (serving : pool.Serving) (taskQueue : Queue) : Serving { pool with taskQueue } :=
  ⟨serving.quiet, serving.started, serving.manned⟩

omit [TQueueType Queue Add] in
theorem Serving.moveCaller {pc : CallerPc Add} {taskQueue : Queue} (serving : pool.Serving)
    (quiet : pc.quiet = true) : Serving ({ pool with taskQueue }.moveCaller caller pc) := by
  refine ⟨fun other => ?_, serving.started, serving.manned⟩
  by_cases same : other = caller
  · subst same
    simpa [TaskPoolBase.moveCaller] using quiet
  · simpa [TaskPoolBase.moveCaller, same] using serving.quiet other

theorem Serving.step (serving : pool.Serving) (adding : action.Adding)
    (taken : pool.next coreNum action = some after) : after.Serving := by
  cases action with
  | call caller operation =>
    cases operation with
    | addTask add =>
      simp only [next] at taken
      split at taken
      · cases taken
        exact serving.moveCaller rfl
      · cases taken
    | _ => cases adding
  | caller caller =>
    have calm := serving.quiet caller
    cases here : pool.caller caller with
    | idle => simp [next, callStep, here] at taken
    | addTest add pc =>
      simp only [next, callStep, here, Option.some.injEq] at taken
      rw [← taken]
      apply serving.moveCaller
      cases pool.atomicSwitch.hasStarted pc with
      | goes pc => rfl
      | returns started => cases started <;> rfl
    | addTask add =>
      simp only [next, callStep, here, Option.some.injEq] at taken
      rw [← taken]
      exact serving.moveCaller rfl
    | _ => simp [here, CallerPc.quiet] at calm
  | worker thread =>
    have worked := worked_of_threadFun taken
    have around := worked.around
    refine ⟨around.caller ▸ serving.quiet, around.atomicSwitch.trans serving.started, ?_⟩
    obtain ⟨other, stays, current⟩ := serving.manned
    refine ⟨other, ?_, by rw [around.version, around.curThreadVer]; exact current⟩
    by_cases same : other = thread
    · subst same
      exact staying_worked serving.started current stays worked
    · rw [around.worker other same]
      exact stays

omit [TQueueType Queue Add] [DecidableEq C] in
theorem created_serving {queue : Queue} (manned : 0 < threadCount coreNum threadNum) :
    Serving (({ construct queue with atomicSwitch := .started } :
      TaskPoolBase Queue Add C).createThread coreNum threadNum) := by
  have member : 0 ∈ List.range' 0 (threadCount coreNum threadNum) := by simpa using manned
  refine ⟨fun _ => rfl, rfl, 0, ?_, if_pos member⟩
  rw [show TaskPoolBase.worker _ 0 = .stopTest .loadInit from if_pos member]
  rfl

end TaskPoolBase

end BTool.TaskPool
