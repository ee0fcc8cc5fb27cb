import Mathlib.Data.List.ReduceOption
import BTool.TaskPool.CallSteps
import BTool.TaskPool.ParallelTaskPool

/-! A `ParallelTaskPool` with a single worker, in its life inside of another pool: some threads
add tasks to it, then nobody does, and one more thread stops it and waits for the worker. -/

namespace BTool.TaskPool.ParallelTaskPool

open AtomicSwitch BTool.Foundation BTool.TaskQueue BTool.TaskQueue.ParallelTaskQueue

variable {F C : Type}

/-- The worker has gone, and the switch has been reset. -/
def Over (switch : AtomicSwitch) (gone : Prop) : Prop := switch.binit = false ∧ gone

/-- What holds where the thread that stops the pool is. -/
def StopFits (switch : AtomicSwitch) (gone : Prop) : CallerPc (Option C × TaskItem F) → Prop
  | .idle => switch = .started ∨ Over switch gone
  | .stop bwait _ => bwait = true ∧ switch = .started
  | .queueStop bwait => bwait = true ∧ switch.binit = true
  | .swap => switch.binit = true
  | .join threads => switch.binit = true ∧ (0 ∈ threads ∨ gone)
  | .reset _ => switch.binit = true ∧ gone
  | _ => False

/-- What holds where another thread is: it adds a task, or it deletes the pool. -/
def UserFits (closing : Prop) (switch : AtomicSwitch) (gone : Prop) (user : C) :
    CallerPc (Option C × TaskItem F) → Prop
  | .idle => True
  | .addTest add _ => add.1 = some user ∧ ¬ closing
  | .addTask add => add.1 = some user ∧ ¬ closing
  | .stop _ pc => pc = .loadInit ∧ Over switch gone
  | _ => False

/-- Once it is closing, nobody adds to the pool any more, and only then its worker leaves. -/
structure Sole (closing : Prop) (pool : ParallelTaskPool F (Option C)) : Prop where
  alone : ∀ thread, thread ≠ 0 → pool.worker thread = .outside
  current : pool.version 0 = pool.curThreadVer
  popping : ∀ thread, pool.worker thread ≠ .popTask → pool.taskQueue.popping thread = .outside
  stopper : StopFits pool.atomicSwitch (pool.worker 0 = .outside) (pool.caller none)
  listed : (pool.caller none).stage ≤ 2 → 0 ∈ pool.curThreads ∨ pool.worker 0 = .outside
  users : ∀ user,
    UserFits closing pool.atomicSwitch (pool.worker 0 = .outside) user (pool.caller (some user))
  silent : pool.taskQueue.adding none = .outside
  inside : ∀ user, pool.taskQueue.adding (some user) ≠ .outside → pool.caller (some user) = .idle
  opened : ¬ closing → pool.atomicSwitch = .started ∧ pool.caller none = .idle ∧
    pool.worker 0 ≠ .emptyTest ∧ pool.worker 0 ≠ .outside
  shut : closing → ∀ caller, pool.taskQueue.adding caller = .outside
  drained : pool.worker 0 = .outside → pool.taskQueue.tasks.queue.items = []

/-- The pool has been stopped. -/
def Ended (pool : ParallelTaskPool F (Option C)) : Prop :=
  Over pool.atomicSwitch (pool.worker 0 = .outside)

/-- The call of `stop` has not been made. -/
def Waiting (pool : ParallelTaskPool F (Option C)) : Prop :=
  pool.atomicSwitch = .started ∧ pool.caller none = .idle

/-- The call of `stop` has been made. -/
def Launched (pool : ParallelTaskPool F (Option C)) : Prop := pool.caller none = .idle → pool.Ended

/-- All that has been enqueued and can be called. -/
def pushed (pool : ParallelTaskPool F (Option C)) : List F :=
  pool.taskQueue.tasks.queue.pushed.reduceOption

/-- All of this that the worker has dequeued. -/
def taken (pool : ParallelTaskPool F (Option C)) : List F :=
  pool.taskQueue.tasks.queue.taken.reduceOption

/-- What the worker has dequeued and not yet executed to its end. -/
def executing (pool : ParallelTaskPool F (Option C)) : List F :=
  (pool.taskQueue.popping 0).task.toList

/-- What a thread has still to enqueue. -/
def pending (pool : ParallelTaskPool F (Option C)) (caller : Option C) : Option (TaskItem F) :=
  match pool.caller caller with
  | .addTest add _ => some add.2
  | .addTask add => some add.2
  | _ => (pool.taskQueue.adding caller).func

/-- What a step of a thread keeps, with the tasks that it enqueues or executes to their ends. -/
structure Kept (closing : Prop) (mover : Option C) (added executed : List F)
    (pool after : ParallelTaskPool F (Option C)) : Prop where
  sole : Sole closing after
  others : ∀ caller ≠ mover, after.caller caller = pool.caller caller ∧
    after.taskQueue.adding caller = pool.taskQueue.adding caller
  pushed : after.pushed = pool.pushed ++ added
  taken : ∀ done, done ++ pool.executing = pool.taken → done ++ executed ++ after.executing = after.taken

/-- A step that is not the call of `stop` leaves open whether it has been made. -/
structure Stays (pool after : ParallelTaskPool F (Option C)) : Prop where
  waiting : pool.Waiting → after.Waiting
  launched : pool.Launched → after.Launched
  ended : pool.Ended → after.Ended

section Fits

variable {switch switch' : AtomicSwitch} {gone gone' closing : Prop} {user : C}
  {pc : CallerPc (Option C × TaskItem F)}

theorem StopFits.mono (fits : StopFits switch gone pc) (leaves : gone → gone') :
    StopFits switch gone' pc := by
  cases pc with
  | idle => exact fits.imp_right fun ended => ⟨ended.1, leaves ended.2⟩
  | join threads => exact ⟨fits.1, fits.2.imp_right leaves⟩
  | reset pc => exact ⟨fits.1, leaves fits.2⟩
  | _ => exact fits

theorem UserFits.mono (fits : UserFits closing switch gone user pc)
    (ended : Over switch gone → Over switch' gone') : UserFits closing switch' gone' user pc := by
  cases pc with
  | stop bwait pc => exact ⟨fits.1, ended fits.2⟩
  | _ => exact fits

/-- A pool that has been stopped is not being stopped. -/
theorem StopFits.eq_idle (fits : StopFits switch gone pc) (ended : Over switch gone) : pc = .idle := by
  cases pc with
  | idle => rfl
  | stop bwait pc =>
    have := ended.1
    simp [fits.2, AtomicSwitch.started] at this
  | queueStop bwait => exact absurd ended.1 (by simp [fits.2])
  | swap => exact absurd ended.1 (by simp [show switch.binit = true from fits])
  | join threads => exact absurd ended.1 (by simp [fits.1])
  | reset pc => exact absurd ended.1 (by simp [fits.1])
  | _ => exact fits.elim

end Fits

section Steps

variable [DecidableEq F] [DecidableEq C] {pool after : ParallelTaskPool F (Option C)} {closing : Prop}
  {thread coreNum : Nat} {caller : C}

omit [DecidableEq F] [DecidableEq C] in
theorem Sole.eq_zero (sole : Sole closing pool) (live : pool.worker thread ≠ .outside) : thread = 0 := by
  by_contra apart
  exact live (sole.alone thread apart)

omit [DecidableEq F] [DecidableEq C] in
/-- The worker moves on. -/
theorem Sole.worker_moved (sole : Sole closing pool) {pc : WorkerPc} {taskQueue : State F (Option C) Nat}
    (live : pool.worker 0 ≠ .outside) (early : pc = .emptyTest ∨ pc = .outside → closing)
    (adding : taskQueue.adding = pool.taskQueue.adding)
    (others : ∀ other ≠ 0, taskQueue.popping other = pool.taskQueue.popping other)
    (idle : pc ≠ .popTask → taskQueue.popping 0 = .outside)
    (drained : pc = .outside → taskQueue.tasks.queue.items = []) :
    Sole closing ({ pool with taskQueue }.moveWorker 0 pc) where
  alone thread apart := (Function.update_of_ne apart _ _).trans (sole.alone thread apart)
  current := sole.current
  popping := by
    intro thread elsewhere
    by_cases here : thread = 0
    · subst here
      exact idle (by simpa [TaskPoolBase.moveWorker] using elsewhere)
    · apply (others thread here).trans
      exact sole.popping thread (by simpa [TaskPoolBase.moveWorker, here] using elsewhere)
  stopper := sole.stopper.mono fun gone => absurd gone live
  listed early := (sole.listed early).imp_right fun gone => absurd gone live
  users user := (sole.users user).mono fun ended => absurd ended.2 live
  silent := (congrFun adding none).trans sole.silent
  inside user elsewhere := sole.inside user (by rwa [← congrFun adding])
  opened open_ := by
    obtain ⟨started, stopper, _⟩ := sole.opened open_
    refine ⟨started, stopper, ?_⟩
    simp only [TaskPoolBase.moveWorker, Function.update_self]
    exact ⟨fun test => open_ (early (.inl test)), fun gone => open_ (early (.inr gone))⟩
  shut closed caller := (congrFun adding caller).trans (sole.shut closed caller)
  drained gone := drained (by simpa [TaskPoolBase.moveWorker] using gone)

private theorem Sole.worker_sole (sole : Sole closing pool) (taken : pool.threadFun thread = some after) :
    Sole closing after := by
  have worked := TaskPoolBase.worked_of_threadFun taken
  have live : pool.worker thread ≠ .outside := by
    cases worked <;> simp [*]
  obtain rfl := sole.eq_zero live
  have idle (elsewhere : pool.worker 0 ≠ .popTask) := sole.popping 0 elsewhere
  cases worked with
  | testing here goes =>
    exact sole.worker_moved live (by simp) rfl (fun _ _ => rfl) (fun _ => idle (by simp [here])) (by simp)
  | @tested pc stoped here answer =>
    refine sole.worker_moved live (fun early => ?_) rfl (fun _ _ => rfl) (fun _ => idle (by simp [here])) ?_
    · by_contra open_
      obtain ⟨started, _⟩ := sole.opened open_
      rw [started] at answer
      cases pc <;> simp [hasStoped, AtomicSwitch.started] at answer
      simp [answer] at early
    · split <;> simp
  | drained here empty =>
    refine sole.worker_moved live (fun _ => ?_) rfl (fun _ _ => rfl) (fun _ => idle (by simp [here])) fun _ => ?_
    · by_contra open_
      exact (sole.opened open_).2.2.1 here
    · apply notEmpty_eq_false.mp
      simpa [TQueueType.empty, ParallelTaskQueue.empty] using empty
  | pending here filled =>
    exact sole.worker_moved live (by simp) rfl (fun _ _ => rfl) (fun _ => idle (by simp [here])) (by simp)
  | outdated here older =>
    rw [sole.current] at older
    exact absurd older (Nat.lt_irrefl _)
  | current here =>
    exact sole.worker_moved live (by simp) rfl (fun _ _ => rfl) (fun _ => idle (by simp [here])) (by simp)
  | @popped taskQueue more here popped =>
    obtain ⟨tasks, stage, stepped, rfl, goes⟩ := popTask_eq_some popped
    refine sole.worker_moved live ?_ rfl (fun other apart => Function.update_of_ne apart _ _) ?_ ?_
    · split <;> simp
    · cases more with
      | true => simp
      | false => simpa [State.movePop] using goes
    · split <;> simp

/-- The task that a worker executes to its end with its next step. -/
private def ended : PopStage F → List F
  | .executing task => [task]
  | _ => []

omit [DecidableEq F] [DecidableEq C] in
/-- What is dequeued is executing, until it has been executed to its end. -/
private theorem popTask_books {queue rest : ParallelTaskQueue F} {place stage : PopStage F}
    (stepped : queue.popTask place = some (rest, stage)) :
    rest.queue.pushed = queue.queue.pushed ∧
      ∀ done, done ++ place.task.toList = queue.queue.taken.reduceOption →
        done ++ ended place ++ stage.task.toList = rest.queue.taken.reduceOption := by
  cases place with
  | outside => cases stepped
  | stopTest =>
    cases stepped
    refine ⟨rfl, fun done books => ?_⟩
    split <;> simpa [PopStage.task, ended] using books
  | wait =>
    simp only [ParallelTaskQueue.popTask] at stepped
    split at stepped <;> cases stepped
    exact ⟨rfl, fun done books => by simpa [PopStage.task, ended] using books⟩
  | emptyTest =>
    cases stepped
    refine ⟨rfl, fun done books => ?_⟩
    split <;> simpa [PopStage.task, ended] using books
  | dequeue =>
    simp only [ParallelTaskQueue.popTask] at stepped
    split at stepped <;> cases stepped
    · exact ⟨rfl, fun done books => by simpa [PopStage.task, ended] using books⟩
    · rename_i func journal dequeued
      refine ⟨Journal.pushed_dequeue dequeued, fun done books => ?_⟩
      rw [(Journal.dequeue_cases dequeued).2, List.reduceOption_append, ← books]
      cases func <;> simp [PopStage.task, ended]
  | notify popTask =>
    cases popTask with
    | none =>
      cases stepped
      exact ⟨rfl, fun done books => by simpa [PopStage.task, ended] using books⟩
    | some task =>
      cases stepped
      exact ⟨rfl, fun done books => by simpa [PopStage.task, ended] using books⟩
  | executing task =>
    cases stepped
    exact ⟨rfl, fun done books => by simpa [PopStage.task, ended] using books⟩

private theorem worker_books (taken : pool.threadFun 0 = some after) :
    after.pushed = pool.pushed ∧ ∀ done, done ++ pool.executing = pool.taken →
      done ++ pool.finished 0 ++ after.executing = after.taken := by
  have worked := TaskPoolBase.worked_of_threadFun taken
  by_cases here : pool.worker 0 = .popTask
  · cases worked with
    | @popped taskQueue more _ popped =>
      obtain ⟨tasks, stage, stepped, rfl, _⟩ := popTask_eq_some popped
      have finished : pool.finished 0 =
          ended (if pool.taskQueue.popping 0 = .outside then .stopTest else pool.taskQueue.popping 0) := by
        unfold ParallelTaskPool.finished
        rw [here]
        split
        · rename_i _ _ executing
          simp [executing, ended]
        · rename_i other
          split
          · rfl
          · cases place : pool.taskQueue.popping 0 <;> first | rfl | exact absurd place (other _ rfl)
      have task : (if pool.taskQueue.popping 0 = .outside then .stopTest
          else pool.taskQueue.popping 0).task = (pool.taskQueue.popping 0).task := by
        split
        · rename_i outside
          rw [outside]
          rfl
        · rfl
      obtain ⟨pushed, books⟩ := popTask_books stepped
      rw [task, ← finished] at books
      exact ⟨congrArg List.reduceOption pushed, by
        simpa [executing, ParallelTaskPool.taken, TaskPoolBase.moveWorker, State.movePop] using books⟩
    | _ there => simp [here] at there
  · have nothing : pool.finished 0 = [] := by
      unfold finished
      split
      · rename_i there _
        exact absurd there here
      · rfl
    rw [nothing]
    cases worked with
    | popped there _ => exact absurd there here
    | _ => exact ⟨rfl, fun done books => by rw [List.append_nil]; exact books⟩

theorem Sole.worker_step (sole : Sole closing pool) (taken : pool.threadFun thread = some after) :
    Kept closing none [] (pool.finished thread) pool after ∧ pool.Stays after := by
  have worked := TaskPoolBase.worked_of_threadFun taken
  have live : pool.worker thread ≠ .outside := by
    cases worked <;> simp [*]
  obtain rfl := sole.eq_zero live
  have around := worked.around
  obtain ⟨pushed, books⟩ := worker_books taken
  constructor
  · refine ⟨sole.worker_sole taken, fun caller _ => ⟨congrFun around.caller caller, ?_⟩, by simpa using pushed, books⟩
    cases worked with
    | popped _ popped =>
      obtain ⟨tasks, stage, _, rfl, _⟩ := popTask_eq_some popped
      rfl
    | _ => rfl
  · refine ⟨fun waiting => ?_, fun launched idle => ?_, fun ended => absurd ended.2 live⟩
    · rw [Waiting, around.atomicSwitch, around.caller]
      exact waiting
    · rw [around.caller] at idle
      exact absurd (launched idle).2 live

omit [DecidableEq F] in
/-- The thread that stops the pool moves on. -/
private theorem Sole.stopper_moved (sole : Sole closing pool) {atomicSwitch : AtomicSwitch} {curThreads : List Nat}
    {tasks : ParallelTaskQueue F} {pc : CallerPc (Option C × TaskItem F)} (closed : closing)
    (same : pool.Ended → atomicSwitch = pool.atomicSwitch)
    (queue : tasks.queue = pool.taskQueue.tasks.queue)
    (fits : StopFits atomicSwitch (pool.worker 0 = .outside) pc)
    (listed : pc.stage ≤ 2 → 0 ∈ curThreads ∨ pool.worker 0 = .outside) :
    Kept closing none [] [] pool ({ pool with
      atomicSwitch, curThreads, taskQueue := { pool.taskQueue with tasks } }.moveCaller none pc) where
  sole := by
    refine ⟨sole.alone, sole.current, sole.popping, ?_, ?_, fun user => ?_, sole.silent, fun user elsewhere => ?_,
      fun open_ => absurd closed open_, sole.shut, fun gone => ?_⟩
    · simpa [TaskPoolBase.moveCaller] using fits
    · simpa [TaskPoolBase.moveCaller] using listed
    · have ended (ended : pool.Ended) : Over atomicSwitch (pool.worker 0 = .outside) := by
        rw [same ended]
        exact ended
      simpa [TaskPoolBase.moveCaller] using (sole.users user).mono ended
    · simpa [TaskPoolBase.moveCaller] using sole.inside user elsewhere
    · simpa only [TaskPoolBase.moveCaller, queue] using sole.drained gone
  others caller apart := by simp [TaskPoolBase.moveCaller, apart]
  pushed := by simp [pushed, TaskPoolBase.moveCaller, queue]
  taken done books := by simpa [ParallelTaskPool.taken, executing, TaskPoolBase.moveCaller, queue] using books

omit [DecidableEq F] [DecidableEq C] in
private theorem queue_stop (queue : ParallelTaskQueue F) : (queue.stop true).queue = queue.queue := by
  unfold ParallelTaskQueue.stop
  split <;> rfl

/-- A `stop` that returns has ended the pool. -/
theorem Sole.stopper_step (sole : Sole closing pool) (taken : pool.callStep coreNum none = some after) :
    Kept closing none [] [] pool after ∧ pool.Stays after := by
  have fits := sole.stopper
  have listed := sole.listed
  have kept {atomicSwitch : AtomicSwitch} {curThreads : List Nat} {tasks : ParallelTaskQueue F}
      {pc : CallerPc (Option C × TaskItem F)} (busy : pool.caller none ≠ .idle)
      (queue : tasks.queue = pool.taskQueue.tasks.queue)
      (fits : StopFits atomicSwitch (pool.worker 0 = .outside) pc)
      (listed : pc.stage ≤ 2 → 0 ∈ curThreads ∨ pool.worker 0 = .outside)
      (ended : pc = .idle → Over atomicSwitch (pool.worker 0 = .outside)) :
      Kept closing none [] [] pool ({ pool with
        atomicSwitch, curThreads, taskQueue := { pool.taskQueue with tasks } }.moveCaller none pc) ∧
          pool.Stays ({ pool with
            atomicSwitch, curThreads, taskQueue := { pool.taskQueue with tasks } }.moveCaller none pc) := by
    have unended (ended : pool.Ended) : False := busy (sole.stopper.eq_idle ended)
    have closed : closing := by
      by_contra open_
      exact busy (sole.opened open_).2.1
    refine ⟨sole.stopper_moved closed (fun ended => (unended ended).elim) queue fits listed,
      fun waiting => absurd waiting.2 busy, fun _ idle => ?_, fun ended => (unended ended).elim⟩
    exact ended (by simpa [TaskPoolBase.moveCaller] using idle)
  cases place : pool.caller none with
  | idle => simp [TaskPoolBase.callStep, place] at taken
  | stop bwait pc =>
    have busy : pool.caller none ≠ .idle := by simp [place]
    rw [place] at fits listed
    obtain ⟨rfl, started⟩ := fits
    simp only [TaskPoolBase.callStep, place, started, Option.some.injEq] at taken
    rcases stop_started pc with ⟨later, goes⟩ | returns
    · rw [goes] at taken
      subst taken
      exact kept busy rfl ⟨rfl, rfl⟩ (fun _ => listed (by simp [CallerPc.stage])) (by rintro ⟨⟩)
    · rw [returns] at taken
      subst taken
      exact kept busy rfl ⟨rfl, rfl⟩ (fun _ => listed (by simp [CallerPc.stage])) (by rintro ⟨⟩)
  | queueStop bwait =>
    have busy : pool.caller none ≠ .idle := by simp [place]
    rw [place] at fits listed
    obtain ⟨rfl, set⟩ := fits
    simp only [TaskPoolBase.callStep, place, Option.some.injEq] at taken
    subst taken
    exact kept busy (queue_stop _) set (fun _ => listed (by simp [CallerPc.stage])) (by simp)
  | swap =>
    have busy : pool.caller none ≠ .idle := by simp [place]
    rw [place] at fits listed
    simp only [TaskPoolBase.callStep, place, Option.some.injEq] at taken
    subst taken
    exact kept busy rfl ⟨fits, listed (by simp [CallerPc.stage])⟩ (by simp [CallerPc.stage]) (by simp)
  | join threads =>
    have busy : pool.caller none ≠ .idle := by simp [place]
    rw [place] at fits
    obtain ⟨set, left⟩ := fits
    cases threads with
    | nil =>
      simp only [TaskPoolBase.callStep, place, Option.some.injEq] at taken
      subst taken
      exact kept busy rfl ⟨set, by simpa using left⟩ (by simp [CallerPc.stage]) (by simp)
    | cons thread rest =>
      simp only [TaskPoolBase.callStep, place] at taken
      split at taken
      · rename_i joined
        cases taken
        refine kept busy rfl ⟨set, ?_⟩ (by simp [CallerPc.stage]) (by simp)
        rcases left with member | gone
        · rcases List.mem_cons.mp member with rfl | later
          · exact .inr joined
          · exact .inl later
        · exact .inr gone
      · cases taken
  | reset pc =>
    have busy : pool.caller none ≠ .idle := by simp [place]
    rw [place] at fits
    obtain ⟨set, gone⟩ := fits
    simp only [TaskPoolBase.callStep, place, Option.some.injEq] at taken
    subst taken
    cases pc with
    | storeStart => exact kept busy rfl ⟨set, gone⟩ (fun _ => .inr gone) (by rintro ⟨⟩)
    | storeStop => exact kept busy rfl ⟨set, gone⟩ (fun _ => .inr gone) (by rintro ⟨⟩)
    | storeInit => exact kept busy rfl (.inr ⟨rfl, gone⟩) (fun _ => .inr gone) fun _ => ⟨rfl, gone⟩
  | _ =>
    rw [place] at fits
    exact fits.elim

omit [DecidableEq F] in
/-- Another thread moves on, and leaves the queue like this. -/
private theorem Sole.user_moved (sole : Sole closing pool) {user : C} {pc : CallerPc (Option C × TaskItem F)}
    {tasks : ParallelTaskQueue F} {stage : AddStage F} {added : List F}
    (fits : UserFits closing pool.atomicSwitch (pool.worker 0 = .outside) user pc)
    (inside : stage ≠ .outside → pc = .idle) (quiet : closing → stage = .outside)
    (drained : pool.worker 0 = .outside → tasks.queue.items = [])
    (pushed : tasks.queue.pushed.reduceOption = pool.pushed ++ added)
    (taken : tasks.queue.taken = pool.taskQueue.tasks.queue.taken) :
    Kept closing (some user) added [] pool ({ pool with
      taskQueue := pool.taskQueue.moveAdd (some user) tasks stage }.moveCaller (some user) pc) where
  sole := by
    refine ⟨sole.alone, sole.current, sole.popping, ?_, ?_, fun other => ?_, ?_, fun other => ?_, ?_, ?_, drained⟩
    · simpa [TaskPoolBase.moveCaller] using sole.stopper
    · simpa [TaskPoolBase.moveCaller] using sole.listed
    · by_cases here : other = user
      · subst here
        simpa [TaskPoolBase.moveCaller] using fits
      · simpa [TaskPoolBase.moveCaller, here] using sole.users other
    · simpa [State.moveAdd, TaskPoolBase.moveCaller] using sole.silent
    · by_cases here : other = user
      · subst here
        simpa [TaskPoolBase.moveCaller, State.moveAdd] using inside
      · simpa [TaskPoolBase.moveCaller, State.moveAdd, here] using sole.inside other
    · simpa [TaskPoolBase.moveCaller] using sole.opened
    · intro closed caller
      by_cases here : caller = some user
      · subst here
        simpa [TaskPoolBase.moveCaller, State.moveAdd] using quiet closed
      · simpa [TaskPoolBase.moveCaller, State.moveAdd, here] using sole.shut closed caller
  others caller apart := by simp [TaskPoolBase.moveCaller, State.moveAdd, apart]
  pushed := pushed
  taken done books := by
    simpa [ParallelTaskPool.taken, executing, TaskPoolBase.moveCaller, State.moveAdd, taken] using books

omit [DecidableEq F] in
private theorem Sole.user_stays {user : C} {pc : CallerPc (Option C × TaskItem F)}
    {taskQueue : State F (Option C) Nat} : pool.Stays ({ pool with taskQueue }.moveCaller (some user) pc) where
  waiting waiting := by simpa [Waiting, TaskPoolBase.moveCaller] using waiting
  launched launched idle := launched (by simpa [TaskPoolBase.moveCaller] using idle)
  ended := id

/-- Another thread goes on in its call, and brings nothing that it has not brought before. -/
theorem Sole.user_step (sole : Sole closing pool) {user : C}
    (taken : pool.callStep coreNum (some user) = some after) :
    Kept closing (some user) [] [] pool after ∧ pool.Stays after ∧
      ∀ func, after.pending (some user) = some func → pool.pending (some user) = some func := by
  have fits := sole.users user
  have outside (busy : pool.caller (some user) ≠ .idle) : pool.taskQueue.adding (some user) = .outside := by
    by_contra elsewhere
    exact busy (sole.inside user elsewhere)
  have moved {pc : CallerPc (Option C × TaskItem F)} (busy : pool.caller (some user) ≠ .idle)
      (fits : UserFits closing pool.atomicSwitch (pool.worker 0 = .outside) user pc) :
      Kept closing (some user) [] [] pool (pool.moveCaller (some user) pc) := by
    have same : pool.taskQueue.moveAdd (some user) pool.taskQueue.tasks .outside = pool.taskQueue := by
      rw [← outside busy]
      simp [State.moveAdd]
    have kept := sole.user_moved fits (fun elsewhere => absurd rfl elsewhere) (fun _ => rfl) sole.drained
      (List.append_nil _).symm rfl
    rwa [same] at kept
  cases place : pool.caller (some user) with
  | idle => simp [TaskPoolBase.callStep, place] at taken
  | addTest add pc =>
    have busy : pool.caller (some user) ≠ .idle := by simp [place]
    rw [place] at fits
    simp only [TaskPoolBase.callStep, place, Option.some.injEq] at taken
    subst taken
    rcases pool.atomicSwitch.hasStarted pc with later | _ | _
    · exact ⟨moved busy fits, user_stays, by simp [pending, TaskPoolBase.moveCaller, place, Progress.elim]⟩
    · refine ⟨moved busy trivial, user_stays, ?_⟩
      simp [pending, TaskPoolBase.moveCaller, outside busy, AddStage.func, Progress.elim]
    · exact ⟨moved busy fits, user_stays, by simp [pending, TaskPoolBase.moveCaller, place, Progress.elim]⟩
  | addTask add =>
    have busy : pool.caller (some user) ≠ .idle := by simp [place]
    rw [place] at fits
    obtain ⟨mine, open_⟩ := fits
    simp only [TaskPoolBase.callStep, place, Option.some.injEq, TQueueType.addTask, addTask, mine] at taken
    subst taken
    refine ⟨sole.user_moved trivial (fun _ => rfl) (fun closed => absurd closed open_) sole.drained
      (List.append_nil _).symm rfl, user_stays, ?_⟩
    simp [pending, TaskPoolBase.moveCaller, State.moveAdd, place, AddStage.func]
  | stop bwait pc =>
    have busy : pool.caller (some user) ≠ .idle := by simp [place]
    rw [place] at fits
    obtain ⟨rfl, unset, gone⟩ := fits
    simp only [TaskPoolBase.callStep, place, AtomicSwitch.stop, unset, Option.some.injEq] at taken
    subst taken
    refine ⟨moved busy trivial, user_stays, ?_⟩
    simp [pending, TaskPoolBase.moveCaller, outside busy, AddStage.func, Progress.elim]
  | _ =>
    rw [place] at fits
    exact fits.elim

omit [DecidableEq F] in
/-- A call that is in the queue goes on: it enqueues what it has brought, or brings it still. -/
theorem Sole.queue_step (sole : Sole closing pool) {user : C} (taken : pool.queueStep (some user) = some after) :
    Kept closing (some user) (pool.enqueued (some user)) [] pool after ∧ pool.Stays after ∧
      ((pool.enqueued (some user) = [] ∧
          ∀ func, after.pending (some user) = some func → pool.pending (some user) = some func) ∨
        ∃ func, pool.pending (some user) = some func ∧ pool.enqueued (some user) = func.toList ∧
          after.pending (some user) = none) := by
  obtain ⟨taskQueue, stepped, rfl⟩ := Option.map_eq_some_iff.mp taken
  obtain ⟨tasks, stage, added, rfl⟩ := State.add_cases stepped
  have busy : pool.taskQueue.adding (some user) ≠ .outside := by
    intro outside
    rw [outside] at added
    cases added
  have idle := sole.inside user busy
  have open_ : ¬ closing := fun closed => busy (sole.shut closed _)
  have stays : Function.update pool.caller (some user) .idle = pool.caller := by
    rw [← idle, Function.update_eq_self]
  have moved {added : List F} (pushed : tasks.queue.pushed.reduceOption = pool.pushed ++ added)
      (taken : tasks.queue.taken = pool.taskQueue.tasks.queue.taken) :
      Kept closing (some user) added [] pool
        { pool with taskQueue := pool.taskQueue.moveAdd (some user) tasks stage } := by
    have kept : Kept closing (some user) added [] pool ({ pool with
        taskQueue := pool.taskQueue.moveAdd (some user) tasks stage }.moveCaller (some user) .idle) :=
      sole.user_moved trivial (fun _ => rfl) (fun closed => absurd closed open_)
        (fun gone => absurd gone (sole.opened open_).2.2.2) pushed taken
    simpa only [TaskPoolBase.moveCaller, stays] using kept
  have brought : pool.pending (some user) = (pool.taskQueue.adding (some user)).func := by
    simp [pending, idle]
  have brings : pending { pool with taskQueue := pool.taskQueue.moveAdd (some user) tasks stage } (some user) =
      stage.func := by
    simp [pending, idle, State.moveAdd]
  rw [brought, brings]
  by_cases pushing : ∃ func, pool.taskQueue.adding (some user) = .enqueue func
  · obtain ⟨func, place⟩ := pushing
    have pushes : pool.enqueued (some user) = func.toList := by
      simp [enqueued, place]
    rw [place] at added
    cases added
    rw [pushes, place]
    refine ⟨moved ?_ rfl, ⟨id, id, id⟩, .inr ⟨func, rfl, rfl, rfl⟩⟩
    cases func <;> simp [pushed, List.reduceOption_append]
  · have nothing : pool.enqueued (some user) = [] := by
      unfold enqueued
      split
      · rename_i func place
        exact absurd ⟨func, place⟩ pushing
      · rfl
    rw [nothing]
    rcases addTask_cases added with ⟨func, place, _⟩ | ⟨rfl, still⟩
    · exact absurd ⟨func, place⟩ pushing
    · exact ⟨moved (List.append_nil _).symm rfl, ⟨id, id, id⟩, .inl ⟨rfl, still⟩⟩

/-- A thread that is in no call of the pool makes one. -/
theorem Sole.user_called (sole : Sole closing pool) {user : C} {operation : Operation (Option C × TaskItem F)}
    (out : pool.Out (some user)) (called : pool.next coreNum (.call (some user) operation) = some after)
    (fits : UserFits closing pool.atomicSwitch (pool.worker 0 = .outside) user operation.entry) :
    Kept closing (some user) [] [] pool after ∧ pool.Stays after := by
  obtain ⟨idle, outside⟩ := out
  simp only [TaskPoolBase.next, idle, Option.some.injEq] at called
  subst called
  have same : pool.taskQueue.moveAdd (some user) pool.taskQueue.tasks .outside = pool.taskQueue := by
    simp [← outside, State.moveAdd]
  have kept := sole.user_moved fits (fun elsewhere => absurd rfl elsewhere) (fun _ => rfl) sole.drained
    (List.append_nil _).symm rfl
  rw [same] at kept
  exact ⟨kept, user_stays⟩

/-- The call of `stop(true)`. -/
theorem Sole.stop_called (sole : Sole closing pool) (closed : closing) (waiting : pool.Waiting)
    (called : pool.next coreNum (.call none (.stop true)) = some after) :
    Kept closing none [] [] pool after ∧ after.Launched := by
  obtain ⟨started, idle⟩ := waiting
  simp only [TaskPoolBase.next, idle, Option.some.injEq] at called
  subst called
  refine ⟨sole.stopper_moved closed (fun _ => rfl) rfl ⟨rfl, started⟩
      fun _ => sole.listed (by simp [idle, CallerPc.stage]),
    fun idle => ?_⟩
  simp [TaskPoolBase.moveCaller, Operation.entry] at idle

omit [DecidableEq F] [DecidableEq C] in
/-- Once no thread is in a call of it any more, the pool may close. -/
theorem Sole.close {closing' : Prop} (sole : Sole closing pool) (out : ∀ user, pool.Out (some user))
    (closed : closing') : Sole closing' pool where
  alone := sole.alone
  current := sole.current
  popping := sole.popping
  stopper := sole.stopper
  listed := sole.listed
  users user := by
    rw [(out user).1]
    trivial
  silent := sole.silent
  inside := sole.inside
  opened open_ := absurd closed open_
  shut _ caller := by
    cases caller with
    | none => exact sole.silent
    | some user => exact (out user).2
  drained := sole.drained

end Steps

end BTool.TaskPool.ParallelTaskPool
