import BTool.TaskPool.ConcurrentLifeCycle

/-! Starting and stopping a `ConcurrentSerialTaskPool` over and over. A `stop(true)` lets the workers
empty their queues, but leaves the switch stopped for ever, so that no later `start` gets through. -/

namespace BTool.TaskPool.ConcurrentSerialTaskPool

open BTool.Foundation BTool.TaskQueue

variable {P F C : Type}

def ProducerPc.func : ProducerPc P F → Option (TaskItem F)
  | .outside => none
  | .startTest _ func _ => some func
  | .find _ func => some func
  | .enqueue _ func => some func

/-- Every function on its way to its execution is callable. -/
structure Plain (pool : ConcurrentSerialTaskPool P F C) : Prop where
  asked : ∀ caller func, (pool.caller caller).func = some func → func.isSome = true
  waiting : ∀ prop, ∀ entry ∈ pool.queues prop, entry.2.func.isSome = true
  running : ∀ thread task, pool.worker thread = .run task → task.func.isSome = true

/-- In a `start` that gets through, or after it. -/
def Launching (pool : ConcurrentSerialTaskPool P F C) : Prop :=
  match pool.control with
  | .idle => pool.atomicSwitch = .started
  | .init => pool.atomicSwitch ≠ stopped
  | .start _ => True
  | .sizeTest => True
  | .create _ => True
  | _ => False

/-- In a `stop(true)` that gets through, or after it. -/
def Closing (pool : ConcurrentSerialTaskPool P F C) : Prop :=
  match pool.control with
  | .stop true _ => pool.atomicSwitch = .started
  | .join _ => pool.atomicSwitch = stopped
  | .idle => pool.atomicSwitch = stopped
  | _ => False

/-- The task is executed, or a worker has it or will find it. -/
def Held (pool : ConcurrentSerialTaskPool P F C) (task : AddedTask P F) : Prop :=
  task ∈ pool.executed ∨ (∃ thread, pool.worker thread = .run task) ∨
    ((∃ source, (source, task) ∈ pool.queues task.prop) ∧
      ∃ thread, pool.que thread = some task.prop ∧ pool.worker thread ≠ .outside)

/-- A worker that stays serves this property. -/
structure Serving (pool : ConcurrentSerialTaskPool P F C) (thread : Nat) (prop : P) : Prop where
  started : pool.atomicSwitch = .started
  serves : pool.que thread = some prop
  stays : (pool.worker thread).staying = true
  plain : pool.Plain

/-- How far a worker that stays is from its next dequeue. -/
def WorkerPc.distance : WorkerPc P F → Nat
  | .initTest => 1
  | .run _ => 2
  | .stopTest .loadStop => 2
  | .stopTest .loadStart => 3
  | .stopTest .loadInit => 4
  | _ => 0

/-- How many steps a `start` has left. -/
def ControlPc.distance (props : List P) : ControlPc P → Nat
  | .create rest => rest.length + 1
  | .sizeTest => props.length + 2
  | .start .exchange => props.length + 3
  | .start .loadInit => props.length + 4
  | .start .loadStop => props.length + 5
  | .init => props.length + 6
  | _ => 0

variable [DecidableEq P] [DecidableEq F] [DecidableEq C]

/-- The pool is started, accepts what is added, and executes what it has accepted, unless that
had been discarded before. -/
structure Runs (coreNum : UInt32) (before pool : ConcurrentSerialTaskPool P F C) : Prop where
  started : pool.atomicSwitch = .started
  accepts : ∀ caller prop func, pool.caller caller = .outside → prop ∈ pool.props →
    ∃ last, Path (Taken (next coreNum)) pool (.add caller prop func :: List.replicate 5 (.caller caller)) last ∧
      last.accepted = pool.accepted ++ [⟨pool.added, prop, func⟩]
  executes : ∀ task ∈ pool.accepted, task ∉ before.accepted ∨ task ∉ before.dropped →
    ∃ actions last, (∀ action ∈ actions, action.Working) ∧
      Path (Taken (next coreNum)) pool actions last ∧
      task ∈ last.executed

variable {pool after : ConcurrentSerialTaskPool P F C} {caller source : C} {thread : Nat} {prop : P}
  {coreNum : UInt32} {action : Action P F C} {props : List P} {task : AddedTask P F}

section Launch

omit [DecidableEq P] [DecidableEq F] [DecidableEq C] in
/-- No worker empties its queue while the pool is being started. -/
theorem Launching.keeps (launching : pool.Launching) (orderly : pool.Orderly) (thread : Nat) :
    pool.worker thread ≠ .swap := by
  intro here
  have unset := orderly.swaps thread here
  have fits := orderly.fits
  have nobody (gone : pool.Gone) : False := nomatch here.symm.trans (gone thread)
  unfold Launching at launching
  cases control : pool.control with
  | idle =>
    simp only [control] at launching
    rw [launching] at unset
    cases unset
  | init =>
    simp only [control] at launching fits
    rcases fits with ⟨switch, _⟩ | ⟨_, gone⟩
    · rw [switch] at unset
      cases unset
    · exact nobody gone
  | start pc =>
    rw [control] at fits
    exact nobody fits.2
  | sizeTest =>
    rw [control] at fits
    exact nobody fits.2
  | create rest =>
    rw [control] at fits
    rw [fits.1] at unset
    cases unset
  | _ => simp [control] at launching

omit [DecidableEq C] in
/-- A call of `start` goes on, and comes closer to its end. -/
theorem Launching.controlStep (launching : pool.Launching) (orderly : pool.Orderly)
    (few : pool.props.length ≤ (maxThreadNum coreNum).toNat) (busy : pool.control ≠ .idle) :
    ∃ after, pool.controlStep coreNum = some after ∧ after.Launching ∧
      after.dropped = pool.dropped ∧
      after.control.distance pool.props < pool.control.distance pool.props := by
  have fits := orderly.fits
  unfold Launching at launching
  cases control : pool.control with
  | idle => exact absurd control busy
  | init =>
    simp only [control] at launching fits
    rcases fits with ⟨switch, _⟩ | ⟨switch | switch, _⟩
    · refine ⟨pool.moveControl .idle, ?_, switch, rfl, by simp [moveControl, ControlPc.distance]⟩
      simp only [ConcurrentSerialTaskPool.controlStep, control, switch]
      exact congrArg (fun atomicSwitch => some ({ pool with atomicSwitch }.moveControl .idle)) switch.symm
    · refine ⟨{ pool with atomicSwitch := ⟨true, false, false⟩ }.moveControl (.start .loadStop), ?_,
        ?_, rfl, ?_⟩
      · simp only [ConcurrentSerialTaskPool.controlStep, control, switch]
        rfl
      · exact trivial
      · simp [moveControl, ControlPc.distance]
    · exact absurd switch launching
  | start pc =>
    rw [control] at fits
    obtain ⟨switch, _⟩ := fits
    simp only [ConcurrentSerialTaskPool.controlStep, control, switch]
    cases pc with
    | loadStop =>
      refine ⟨_, rfl, ?_, rfl, ?_⟩ <;>
        simp [Launching, moveControl, ControlPc.distance, Progress.elim, AtomicSwitch.start]
    | loadInit =>
      refine ⟨_, rfl, ?_, rfl, ?_⟩ <;>
        simp [Launching, moveControl, ControlPc.distance, Progress.elim, AtomicSwitch.start]
    | exchange =>
      refine ⟨_, rfl, ?_, rfl, ?_⟩ <;>
        simp [Launching, moveControl, ControlPc.distance, Progress.elim, AtomicSwitch.start]
  | sizeTest =>
    refine ⟨pool.moveControl (.create pool.props), ?_, trivial, rfl,
      by simp [moveControl, ControlPc.distance]⟩
    simp only [ConcurrentSerialTaskPool.controlStep, control]
    rw [if_neg (by omega)]
  | create rest =>
    rw [control] at fits
    cases rest with
    | nil =>
      refine ⟨pool.moveControl .idle, ?_, fits.1, rfl, by simp [moveControl, ControlPc.distance]⟩
      simp only [ConcurrentSerialTaskPool.controlStep, control]
    | cons prop rest =>
      refine ⟨(pool.createThread prop).moveControl (.create rest), ?_, trivial, rfl, ?_⟩
      · simp only [ConcurrentSerialTaskPool.controlStep, control]
      · simp [moveControl, createThread, ControlPc.distance]
  | _ => simp [control] at launching

omit [DecidableEq P] [DecidableEq F] [DecidableEq C] in
theorem launching_congr (control : after.control = pool.control)
    (atomicSwitch : after.atomicSwitch = pool.atomicSwitch) :
    after.Launching ↔ pool.Launching := by
  simp only [Launching, control, atomicSwitch]

/-- Nothing that others do disturbs a `start`, or discards a task after it. -/
theorem Launching.next (launching : pool.Launching) (orderly : pool.Orderly)
    (few : pool.props.length ≤ (maxThreadNum coreNum).toNat) (within : action.Within)
    (taken : next coreNum pool action = some after) :
    after.Launching ∧ after.dropped = pool.dropped := by
  cases action with
  | start => exact within.elim
  | stop bwait => exact within.elim
  | control =>
    have busy : pool.control ≠ .idle := by
      intro idle
      simp [ConcurrentSerialTaskPool.next, ConcurrentSerialTaskPool.controlStep, idle] at taken
    obtain ⟨other, step, launched, dropped, _⟩ := launching.controlStep orderly few busy
    obtain rfl := Option.some.inj (step.symm.trans taken)
    exact ⟨launched, dropped⟩
  | add caller prop func =>
    obtain ⟨_, same⟩ := Option.ite_none_right_eq_some.mp taken
    cases same
    exact ⟨launching, rfl⟩
  | caller caller =>
    obtain ⟨control, atomicSwitch, _, dropped⟩ := kept_of_callerStep taken
    exact ⟨(launching_congr control atomicSwitch).mpr launching, dropped⟩
  | worker thread source =>
    obtain ⟨prop, _, worked⟩ := worked_of_workerStep taken
    cases worked with
    | swapped here => exact absurd here (launching.keeps orderly thread)
    | _ => exact ⟨launching, rfl⟩

/-- A `start` that gets through returns. -/
theorem Launching.returns (launching : pool.Launching) (orderly : pool.Orderly)
    (few : pool.props.length ≤ (maxThreadNum coreNum).toNat) :
    ∃ count last, Path (Taken (ConcurrentSerialTaskPool.next coreNum)) pool
      (List.replicate count .control) last ∧
      last.control = .idle := by
  induction left : pool.control.distance pool.props using Nat.strong_induction_on generalizing pool with
  | h left ih =>
    by_cases idle : pool.control = .idle
    · exact ⟨0, pool, .nil _, idle⟩
    · obtain ⟨after, step, launched, _, closer⟩ := launching.controlStep orderly few idle
      have same : after.props = pool.props := by
        have taken : ConcurrentSerialTaskPool.next coreNum pool .control = some after := step
        exact props_of_next taken
      have further :=
        ih _ (left ▸ closer) launched (orderly.controlStep few step) (same ▸ few) (by rw [same])
      obtain ⟨count, last, path, returned⟩ := further
      exact ⟨count + 1, last, .cons step path, returned⟩

end Launch

section Serve

omit [DecidableEq P] [DecidableEq F] in
theorem Plain.moveCaller (plain : pool.Plain) {pc : ProducerPc P F}
    (asked : ∀ func, pc.func = some func → func.isSome = true) :
    (pool.moveCaller caller pc).Plain := by
  refine ⟨fun other func asks => ?_, plain.waiting, plain.running⟩
  by_cases same : other = caller
  · simp only [ConcurrentSerialTaskPool.moveCaller, same, Function.update_self] at asks
    exact asked func asks
  · simp only [ConcurrentSerialTaskPool.moveCaller, Function.update_of_ne same] at asks
    exact plain.asked other func asks

omit [DecidableEq P] [DecidableEq F] [DecidableEq C] in
/-- A worker takes a step, and has no new task. -/
theorem Plain.advance (plain : pool.Plain) {pc : WorkerPc P F}
    {queues : P → ProducerQueue C (AddedTask P F)}
    {executed dropped : List (AddedTask P F)} (fewer : ∀ prop, queues prop ⊆ pool.queues prop)
    (running : ∀ task, pc = .run task → task.func.isSome = true) :
    Plain ({ pool with queues, executed, dropped }.moveWorker thread pc) := by
  refine ⟨plain.asked, fun prop entry waits => plain.waiting prop entry (fewer prop waits),
    fun other task runs => ?_⟩
  by_cases same : other = thread
  · simp only [ConcurrentSerialTaskPool.moveWorker, same, Function.update_self] at runs
    exact running task runs
  · simp only [ConcurrentSerialTaskPool.moveWorker, Function.update_of_ne same] at runs
    exact plain.running other task runs

theorem Plain.worked (plain : pool.Plain) (worked : Worked pool thread prop after) :
    after.Plain := by
  cases worked with
  | moves _ _ next _ _ _ =>
    exact plain.advance (fun _ => List.Subset.refl _) fun task runs => absurd runs (next task)
  | takes here dequeued =>
    obtain ⟨waits, rfl⟩ := ProducerQueue.tryDequeue_eq_item dequeued
    refine plain.advance (update_subset (List.erase_subset ..)) ?_
    rintro _ ⟨⟩
    exact plain.waiting prop _ waits
  | runs here callable => exact plain.advance (fun _ => List.Subset.refl _) nofun
  | swapped here => exact plain.advance (update_subset (List.nil_subset _)) nofun

omit [DecidableEq F] in
theorem Plain.callerStep (plain : pool.Plain) (taken : pool.callerStep caller = some after) :
    after.Plain := by
  have asked := plain.asked caller
  cases here : pool.caller caller with
  | outside => simp [ConcurrentSerialTaskPool.callerStep, here] at taken
  | startTest prop func pc =>
    simp only [ConcurrentSerialTaskPool.callerStep, here, Option.some.injEq] at taken
    rw [← taken]
    rw [here] at asked
    apply plain.moveCaller
    intro other
    cases pool.atomicSwitch.hasStarted pc with
    | goes pc => exact asked other
    | returns started =>
      cases started with
      | true => exact asked other
      | false => rintro ⟨⟩
  | find prop func =>
    simp only [ConcurrentSerialTaskPool.callerStep, here, Option.some.injEq] at taken
    rw [← taken]
    rw [here] at asked
    apply plain.moveCaller
    split
    · exact asked
    · rintro _ ⟨⟩
  | enqueue prop func =>
    simp only [ConcurrentSerialTaskPool.callerStep, here, Option.some.injEq] at taken
    rw [← taken]
    have enqueued : Plain { pool with
        queues :=
          Function.update pool.queues prop ((pool.queues prop).enqueue caller ⟨pool.added, prop, func⟩)
        added := pool.added + 1
        accepted := pool.accepted ++ [⟨pool.added, prop, func⟩] } := by
      refine ⟨plain.asked, fun other entry waits => ?_, plain.running⟩
      by_cases same : other = prop
      · subst same
        simp only [Function.update_self, ProducerQueue.enqueue, List.mem_append,
          List.mem_singleton] at waits
        rcases waits with before | rfl
        · exact plain.waiting other entry before
        · exact asked func (by rw [here]; rfl)
      · simp only [Function.update_of_ne same] at waits
        exact plain.waiting other entry waits
    apply enqueued.moveCaller
    intro func none
    cases none

omit [DecidableEq C] in
theorem Plain.controlStep (plain : pool.Plain) (taken : pool.controlStep coreNum = some after) :
    after.Plain := by
  have same (live : ∀ thread task, after.worker thread = .run task → pool.worker thread = .run task)
      (caller : after.caller = pool.caller) (queues : after.queues = pool.queues) : after.Plain :=
    ⟨caller ▸ plain.asked, queues ▸ plain.waiting,
      fun thread task runs => plain.running thread task (live thread task runs)⟩
  simp only [ConcurrentSerialTaskPool.controlStep] at taken
  split at taken
  case h_6 prop rest _ =>
    cases taken
    refine same (fun thread task runs => ?_) rfl rfl
    by_cases new : thread = pool.created
    · simp [moveControl, createThread, new] at runs
    · simpa only [moveControl, createThread, Function.update_of_ne new] using runs
  case h_10 =>
    obtain ⟨_, taken⟩ := Option.ite_none_right_eq_some.mp taken
    cases taken
    exact same (fun _ _ runs => runs) rfl rfl
  all_goals
    cases taken
    try exact same (fun _ _ runs => runs) rfl rfl

theorem Plain.next (plain : pool.Plain) (callable : action.Callable)
    (taken : next coreNum pool action = some after) :
    after.Plain := by
  cases action with
  | start =>
    obtain ⟨_, same⟩ := Option.ite_none_right_eq_some.mp taken
    cases same
    exact ⟨plain.asked, plain.waiting, plain.running⟩
  | stop bwait =>
    obtain ⟨_, same⟩ := Option.ite_none_right_eq_some.mp taken
    cases same
    exact ⟨plain.asked, plain.waiting, plain.running⟩
  | control => exact plain.controlStep taken
  | add caller prop func =>
    obtain ⟨_, same⟩ := Option.ite_none_right_eq_some.mp taken
    cases same
    apply plain.moveCaller
    rintro _ ⟨⟩
    exact callable
  | caller caller => exact plain.callerStep taken
  | worker thread source =>
    obtain ⟨prop, _, worked⟩ := worked_of_workerStep taken
    exact plain.worked worked

/-- A worker that is not at its dequeue comes closer to it. -/
theorem Serving.step (serving : pool.Serving thread prop) (away : pool.worker thread ≠ .tryDequeue)
    (source : C) :
    ∃ after, pool.workerStep thread source = some after ∧ after.Serving thread prop ∧
      after.queues = pool.queues ∧ pool.executed ⊆ after.executed ∧
      (after.worker thread).distance < (pool.worker thread).distance ∧
      ∀ task, pool.worker thread = .run task → task ∈ after.executed := by
  obtain ⟨started, serves, stays, plain⟩ := serving
  have moved {pc : WorkerPc P F} (stay : pc.staying = true) (idle : ∀ task, pc ≠ .run task)
    {executed : List (AddedTask P F)} :
      Serving ({ pool with executed }.moveWorker thread pc) thread prop :=
    ⟨started, serves, by simp [moveWorker, stay],
      plain.advance (fun _ => List.Subset.refl _) fun task runs => absurd runs (idle task)⟩
  unfold workerStep
  simp only [serves, Option.bind_some]
  cases here : pool.worker thread with
  | tryDequeue => exact absurd here away
  | run task =>
    refine ⟨{ pool with executed := pool.executed ++ [task] }.moveWorker thread .initTest, ?_,
      moved rfl (by simp), rfl,
      List.subset_append_left .., by simp [moveWorker, WorkerPc.distance], ?_⟩
    · simp only [plain.running thread task here, if_pos]
    · rintro _ ⟨⟩
      exact List.mem_append_right _ List.mem_cons_self
  | stopTest pc =>
    cases pc with
    | loadInit =>
      refine ⟨pool.moveWorker thread (.stopTest .loadStart), ?_, moved rfl (by simp), rfl,
        List.Subset.refl _, by simp [moveWorker, WorkerPc.distance], by simp⟩
      simp only [started]
      rfl
    | loadStart =>
      refine ⟨pool.moveWorker thread (.stopTest .loadStop), ?_, moved rfl (by simp), rfl,
        List.Subset.refl _, by simp [moveWorker, WorkerPc.distance], by simp⟩
      simp only [started]
      rfl
    | loadStop =>
      refine ⟨pool.moveWorker thread .initTest, ?_, moved rfl (by simp), rfl, List.Subset.refl _,
        by simp [moveWorker, WorkerPc.distance], by simp⟩
      simp only [started]
      rfl
  | initTest =>
    refine ⟨pool.moveWorker thread .tryDequeue, ?_, moved rfl (by simp), rfl, List.Subset.refl _,
      by simp [moveWorker, WorkerPc.distance], by simp⟩
    simp only [started]
    rfl
  | _ => simp [here, WorkerPc.staying] at stays

variable (coreNum) in
/-- By itself a worker that stays ends what it executes and comes to its dequeue. -/
theorem Serving.settle (serving : pool.Serving thread prop) (source : C) :
    ∃ count middle, Path (Taken (ConcurrentSerialTaskPool.next coreNum)) pool
        (List.replicate count (.worker thread source)) middle ∧
      middle.Serving thread prop ∧ middle.worker thread = .tryDequeue ∧
      middle.queues = pool.queues ∧
      pool.executed ⊆ middle.executed ∧ ∀ task, pool.worker thread = .run task →
      task ∈ middle.executed := by
  induction left : (pool.worker thread).distance using Nat.strong_induction_on generalizing pool with
  | h left ih =>
    by_cases there : pool.worker thread = .tryDequeue
    · exact ⟨0, pool, .nil _, serving, there, rfl, List.Subset.refl _, by simp [there]⟩
    · obtain ⟨after, step, serves, queues, executed, closer, ends⟩ := serving.step there source
      obtain ⟨count, middle, path, served, arrived, same, grows, _⟩ :=
        ih _ (left ▸ closer) serves rfl
      exact ⟨count + 1, middle, .cons step path, served, arrived, same.trans queues,
        List.Subset.trans executed grows, fun task runs => grows (ends task runs)⟩

variable (coreNum) in
/-- By itself a worker that stays executes all that waits for it. -/
theorem Serving.drain (serving : pool.Serving thread prop) (source : C) :
    ∃ actions last, (∀ action ∈ actions, action.Working) ∧
      Path (Taken (ConcurrentSerialTaskPool.next coreNum)) pool actions last ∧
      pool.executed ⊆ last.executed ∧
      (∀ task, pool.worker thread = .run task → task ∈ last.executed) ∧
      ∀ entry ∈ pool.queues prop, entry.2 ∈ last.executed := by
  induction waiting : pool.queues prop generalizing pool with
  | nil =>
    obtain ⟨count, middle, path, _, _, _, executed, ends⟩ := serving.settle coreNum source
    refine ⟨_, middle, fun action member => ?_, path, executed, ends, nofun⟩
    rw [List.eq_of_mem_replicate member]
    trivial
  | cons entry rest ih =>
    obtain ⟨count, middle, front, serves, arrived, queues, executed, ends⟩ :=
      serving.settle coreNum source
    obtain ⟨owner, task⟩ := entry
    have waits : middle.queues prop = (owner, task) :: rest := by rw [queues, waiting]
    have dequeued : (middle.queues prop).tryDequeue owner = .item task rest := by
      rw [waits]
      simp [ProducerQueue.tryDequeue, ofKey_cons]
    let taken :=
      { middle with queues := Function.update middle.queues prop rest }.moveWorker thread
      (.run task)
    have step :
        ConcurrentSerialTaskPool.next coreNum middle (.worker thread owner) = some taken := by
      simp only [ConcurrentSerialTaskPool.next, workerStep, serves.serves, Option.bind_some,
        arrived, dequeued]
      rfl
    have serves : taken.Serving thread prop := by
      have worked : Worked middle thread prop taken := .takes arrived dequeued
      exact ⟨serves.started, serves.serves, by simp [taken, moveWorker, WorkerPc.staying],
        serves.plain.worked worked⟩
    obtain ⟨actions, last, working, back, grows, now, others⟩ := ih serves (Function.update_self ..)
    refine ⟨_, last, ?_, front.append (.cons step back), List.Subset.trans executed grows,
      fun task runs => grows (ends task runs), ?_⟩
    · intro action member
      rcases List.mem_append.mp member with before | after
      · rw [List.eq_of_mem_replicate before]
        trivial
      · rcases List.mem_cons.mp after with rfl | later
        · trivial
        · exact working action later
    · intro entry member
      rcases List.mem_cons.mp member with rfl | later
      · exact now task (Function.update_self ..)
      · exact others entry later

end Serve

section Close

omit [DecidableEq P] [DecidableEq F] [DecidableEq C] in
theorem Closing.binit (closing : pool.Closing) : pool.atomicSwitch.binit = true := by
  unfold Closing at closing
  split at closing
  all_goals first | exact closing.elim | (rw [closing]; rfl)

omit [DecidableEq P] [DecidableEq F] [DecidableEq C] in
theorem closing_congr (control : after.control = pool.control)
    (atomicSwitch : after.atomicSwitch = pool.atomicSwitch) :
    after.Closing ↔ pool.Closing := by
  simp only [Closing, control, atomicSwitch]

omit [DecidableEq C] in
/-- A call of `stop(true)` goes on, and touches neither a worker nor a queue. -/
theorem Closing.controlStep (closing : pool.Closing)
    (taken : pool.controlStep coreNum = some after) :
    after.Closing ∧ after.executed = pool.executed ∧ after.worker = pool.worker ∧
    after.queues = pool.queues ∧
      after.que = pool.que := by
  unfold Closing at closing
  cases control : pool.control with
  | idle => simp [ConcurrentSerialTaskPool.controlStep, control] at taken
  | stop bwait pc =>
    cases bwait with
    | false => simp [control] at closing
    | true =>
      simp only [control] at closing
      simp only [ConcurrentSerialTaskPool.controlStep, control, Option.some.injEq] at taken
      rw [← taken, closing]
      refine ⟨?_, rfl, rfl, rfl, rfl⟩
      rcases AtomicSwitch.stop_started pc with ⟨later, goes⟩ | returns
      · rw [goes]
        exact rfl
      · rw [returns]
        exact rfl
  | join threads =>
    simp only [control] at closing
    cases threads with
    | nil =>
      simp only [ConcurrentSerialTaskPool.controlStep, control, Option.some.injEq] at taken
      cases taken
      exact ⟨closing, rfl, rfl, rfl, rfl⟩
    | cons first rest =>
      simp only [ConcurrentSerialTaskPool.controlStep, control] at taken
      obtain ⟨_, taken⟩ := Option.ite_none_right_eq_some.mp taken
      cases taken
      exact ⟨closing, rfl, rfl, rfl, rfl⟩
  | _ => simp [control] at closing

omit [DecidableEq P] [DecidableEq F] [DecidableEq C] in
theorem Held.congr (held : pool.Held task) (executed : after.executed = pool.executed)
    (worker : after.worker = pool.worker) (queues : after.queues = pool.queues)
    (que : after.que = pool.que) :
    after.Held task := by
  unfold Held
  rwa [executed, worker, queues, que]

/-- While the switch is initialised a worker leaves no task behind. -/
theorem Held.worked (held : pool.Held task) (orderly : pool.Orderly)
    (set : pool.atomicSwitch.binit = true)
    (serves : pool.que thread = some prop) (worked : Worked pool thread prop after) :
    after.Held task := by
  have served {pc : WorkerPc P F} (there : pc ≠ .outside)
      (serving : ∃ other, pool.que other = some task.prop ∧ pool.worker other ≠ .outside) :
      ∃ other, pool.que other = some task.prop ∧
        Function.update pool.worker thread pc other ≠ .outside := by
    obtain ⟨other, serves, live⟩ := serving
    refine ⟨other, serves, ?_⟩
    by_cases same : other = thread
    · rwa [same, Function.update_self]
    · rwa [Function.update_of_ne same]
  cases worked with
  | @moves pc live idle next leaves swaps stays =>
    rcases held with done | runs | ⟨waits, serving⟩
    · exact .inl done
    · exact .inr (.inl (runs_elsewhere (idle task) runs))
    · refine .inr (.inr ⟨waits, ?_⟩)
      by_cases out : pc = .outside
      · obtain ⟨other, same, live⟩ := serving
        -- It leaves only if nothing waits for it, so it is another worker that serves the task.
        have apart : other ≠ thread := by
          rintro rfl
          obtain rfl : prop = task.prop := Option.some.inj (serves.symm.trans same)
          obtain ⟨source, waits⟩ := waits
          rw [(leaves out).2] at waits
          cases waits
        exact ⟨other, same, by simpa only [moveWorker, Function.update_of_ne apart] using live⟩
      · exact served out serving
  | @takes source other rest here dequeued =>
    rcases held with done | runs | ⟨waits, serving⟩
    · exact .inl done
    · exact .inr (.inl (runs_elsewhere (by simp [here]) runs))
    · by_cases same : task = other
      · exact .inr (.inl ⟨thread, by rw [same]; exact Function.update_self ..⟩)
      · exact .inr (.inr ⟨waits_taken dequeued same waits, served (by simp) serving⟩)
  | @runs other here _ =>
    rcases held with done | runs | ⟨waits, serving⟩
    · exact .inl (List.mem_append_left _ done)
    · by_cases same : task = other
      · exact .inl (List.mem_append_right _ (List.mem_singleton.mpr same))
      · refine .inr (.inl (runs_elsewhere ?_ runs))
        rw [here]
        exact fun both => same (WorkerPc.run.inj both).symm
    · exact .inr (.inr ⟨waits, served (by simp) serving⟩)
  | swapped here => cases set.symm.trans (orderly.swaps thread here)

omit [DecidableEq F] in
theorem Held.callerStep (held : pool.Held task) (taken : pool.callerStep caller = some after) :
    after.Held task := by
  simp only [ConcurrentSerialTaskPool.callerStep] at taken
  split at taken
  · cases taken
  · cases taken
    exact held
  · cases taken
    exact held
  · rename_i prop func _
    cases taken
    rcases held with done | runs | ⟨⟨source, waits⟩, serving⟩
    · exact .inl done
    · exact .inr (.inl runs)
    · refine .inr (.inr ⟨⟨source, ?_⟩, serving⟩)
      show (source, task) ∈ Function.update pool.queues prop _ task.prop
      by_cases same : task.prop = prop
      · rw [same, Function.update_self]
        exact List.mem_append_left _ (same ▸ waits)
      · rwa [Function.update_of_ne same]

/-- Until `stop(true)` returns, each task that waits has a worker. -/
theorem Closing.next (closing : pool.Closing) (orderly : pool.Orderly) (within : action.Within)
    (taken : next coreNum pool action = some after) :
    after.Closing ∧ (pool.Held task → after.Held task) := by
  cases action with
  | start => exact within.elim
  | stop bwait => exact within.elim
  | control =>
    obtain ⟨closed, executed, worker, queues, que⟩ := closing.controlStep taken
    exact ⟨closed, fun held => held.congr executed worker queues que⟩
  | add caller prop func =>
    obtain ⟨_, same⟩ := Option.ite_none_right_eq_some.mp taken
    cases same
    exact ⟨closing, id⟩
  | caller caller =>
    obtain ⟨control, atomicSwitch, _, _⟩ := kept_of_callerStep taken
    exact ⟨(closing_congr control atomicSwitch).mpr closing, fun held => held.callerStep taken⟩
  | worker thread source =>
    obtain ⟨prop, serves, worked⟩ := worked_of_workerStep taken
    refine ⟨?_, fun held => held.worked orderly closing.binit serves worked⟩
    cases worked <;> exact closing

theorem executed_of_next (taken : next coreNum pool action = some after) :
    pool.executed ⊆ after.executed := by
  cases action with
  | start =>
    obtain ⟨_, same⟩ := Option.ite_none_right_eq_some.mp taken
    cases same
    exact List.Subset.refl _
  | stop bwait =>
    obtain ⟨_, same⟩ := Option.ite_none_right_eq_some.mp taken
    cases same
    exact List.Subset.refl _
  | control =>
    simp only [ConcurrentSerialTaskPool.next, ConcurrentSerialTaskPool.controlStep] at taken
    split at taken
    case h_10 =>
      obtain ⟨_, same⟩ := Option.ite_none_right_eq_some.mp taken
      cases same
      exact List.Subset.refl _
    all_goals
      cases taken
      try exact List.Subset.refl _
  | add caller prop func =>
    obtain ⟨_, same⟩ := Option.ite_none_right_eq_some.mp taken
    cases same
    exact List.Subset.refl _
  | caller caller =>
    obtain ⟨_, _, executed, _⟩ := kept_of_callerStep taken
    rw [executed]
    exact List.Subset.refl _
  | worker thread source =>
    obtain ⟨prop, _, worked⟩ := worked_of_workerStep taken
    cases worked with
    | runs => exact List.subset_append_left ..
    | _ => exact List.Subset.refl _

end Close

section Restart

/-- What is kept in every run of calls of `add_task` with callable functions, `start` and `stop`. -/
private theorem kept_of_path {front : List (Action P F C)}
    (few : props.length ≤ (maxThreadNum coreNum).toNat)
    (path : Path (Guarded (Taken (next coreNum)) fun _ action => action.Callable) (construct props) front pool) :
    pool.Orderly ∧ pool.Plain ∧ pool.props.length ≤ (maxThreadNum coreNum).toNat := by
  apply path.invariant fun pool => pool.Orderly ∧ pool.Plain ∧
    pool.props.length ≤ (maxThreadNum coreNum).toNat
  · intro before action after ⟨orderly, plain, few⟩ ⟨callable, taken⟩
    exact ⟨orderly.next few taken, plain.next callable taken, props_of_next taken ▸ few⟩
  · exact ⟨construct_orderly, ⟨nofun, nofun, nofun⟩, few⟩

/-- A started pool accepts a task whose property it has. -/
theorem accepts_of_started (started : pool.atomicSwitch = .started) {func : TaskItem F}
    (outside : pool.caller caller = .outside) (member : prop ∈ pool.props) :
    ∃ last, Path (Taken (ConcurrentSerialTaskPool.next coreNum)) pool
        (.add caller prop func :: List.replicate 5 (.caller caller)) last ∧
      last.accepted = pool.accepted ++ [⟨pool.added, prop, func⟩] := by
  apply Exists.imp fun last => And.imp_left exec_eq_some_iff.mp
  simp [exec, ConcurrentSerialTaskPool.next, outside, moveCaller,
    ConcurrentSerialTaskPool.callerStep, started,
    AtomicSwitch.started, AtomicSwitch.hasStarted, Progress.elim, member, List.replicate]

/-- A pool that has been started executes what it has accepted and not discarded. -/
theorem executes_of_started (orderly : pool.Orderly) (plain : pool.Plain)
    (started : pool.atomicSwitch = .started)
    (idle : pool.control = .idle) [Inhabited C] (accepted : task ∈ pool.accepted)
    (kept : task ∉ pool.dropped) :
    ∃ actions last, (∀ action ∈ actions, action.Working) ∧
      Path (Taken (ConcurrentSerialTaskPool.next coreNum)) pool actions last ∧
      task ∈ last.executed := by
  have fits := orderly.fits
  rw [idle] at fits
  rcases fits with ⟨_, manned⟩ | ⟨past, _⟩
  · rcases orderly.accepted task accepted with done | dropped | ⟨source, waits⟩ | ⟨thread, runs⟩
    · exact ⟨[], pool, nofun, .nil _, done⟩
    · exact absurd dropped kept
    · obtain ⟨_, member, _⟩ := orderly.homed task.prop _ waits
      obtain ⟨thread, serves, stays⟩ := manned task.prop member
      have serving : pool.Serving thread task.prop := ⟨started, serves, stays, plain⟩
      obtain ⟨actions, last, working, path, _, _, executed⟩ := serving.drain coreNum source
      exact ⟨actions, last, working, path, executed _ waits⟩
    · obtain ⟨prop, _, serves⟩ := orderly.serves thread (by simp [runs])
      have serving : pool.Serving thread prop :=
        ⟨started, serves, by simp [runs, WorkerPc.staying], plain⟩
      obtain ⟨actions, last, working, path, _, executed, _⟩ := serving.drain coreNum default
      exact ⟨actions, last, working, path, executed task runs⟩
  · rcases past with switch | switch <;> cases started.symm.trans switch

/-- A `start` behind which no `stop(true)` has got through returns, and then the pool runs. -/
theorem runs_of_start [Inhabited C] {before last : ConcurrentSerialTaskPool P F C} {back : List (Action P F C)}
    (orderly : before.Orderly) (plain : before.Plain)
    (few : before.props.length ≤ (maxThreadNum coreNum).toNat) (unset : before.atomicSwitch.bstop = false)
    (kinds : ∀ action ∈ back, action.Within ∧ action.Callable)
    (run : Path (Taken (next coreNum)) before (.start :: back) last) :
    (∃ count called, Path (Taken (next coreNum)) last (List.replicate count .control) called ∧
      called.control = .idle) ∧ (last.control = .idle → Runs coreNum before last) := by
  cases run with
  | cons head tail =>
    have began := head
    obtain ⟨_, same⟩ := Option.ite_none_right_eq_some.mp head
    cases same
    have callable : (.start : Action P F C).Callable := trivial
    have launching : (before.moveControl .init).Launching := by
      show before.atomicSwitch ≠ stopped
      intro past
      rw [past] at unset
      cases unset
    obtain ⟨launched, orderly', plain', few', dropped⟩ := (tail.guard kinds).invariant
      (fun pool => pool.Launching ∧ pool.Orderly ∧ pool.Plain ∧
        pool.props.length ≤ (maxThreadNum coreNum).toNat ∧ pool.dropped = before.dropped)
      (fun first action second ⟨launching, orderly, plain, few, dropped⟩ ⟨⟨within, callable⟩, taken⟩ => by
        obtain ⟨launched, same⟩ := launching.next orderly few within taken
        exact ⟨launched, orderly.next few taken, plain.next callable taken,
          props_of_next taken ▸ few, same.trans dropped⟩)
      ⟨launching, orderly.next few began, plain.next callable began, few, rfl⟩
    refine ⟨launched.returns orderly' few', fun idle => ?_⟩
    have started : last.atomicSwitch = .started := by simpa only [Launching, idle] using launched
    refine ⟨started, fun caller prop func outside member => accepts_of_started started outside member, ?_⟩
    intro task accepted kept
    refine executes_of_started orderly' plain' started idle accepted ?_
    rw [dropped]
    exact kept.elim (fun new old => new (orderly.discarded old)) id

omit [DecidableEq P] [DecidableEq F] [DecidableEq C] in
/-- What a started pool has accepted and not discarded is still in hand when it is stopped. -/
theorem held_of_started {before : ConcurrentSerialTaskPool P F C} (orderly : before.Orderly)
    (returned : before.control = .idle) (started : before.atomicSwitch = .started)
    (accepted : task ∈ before.accepted) (kept : task ∉ before.dropped) :
    (before.moveControl (.stop true .loadInit)).Held task := by
  have fits := orderly.fits
  rw [returned] at fits
  rcases orderly.accepted task accepted with done | dropped | ⟨source, waits⟩ | runs
  · exact .inl done
  · exact absurd dropped kept
  · obtain ⟨_, member, _⟩ := orderly.homed task.prop _ waits
    rcases fits with ⟨_, manned⟩ | ⟨past, _⟩
    · obtain ⟨thread, serves, stays⟩ := manned task.prop member
      refine .inr (.inr ⟨⟨source, waits⟩, thread, serves, fun outside => ?_⟩)
      have outside : before.worker thread = .outside := outside
      simp [outside, WorkerPc.staying] at stays
    · rcases past with switch | switch <;> cases started.symm.trans switch
  · exact .inr (.inl runs)

/-- A `stop(true)` of a started pool that has returned leaves nothing that was accepted. -/
theorem executed_of_stop {before last : ConcurrentSerialTaskPool P F C} {back : List (Action P F C)}
    (orderly : before.Orderly) (few : before.props.length ≤ (maxThreadNum coreNum).toNat)
    (returned : before.control = .idle) (started : before.atomicSwitch = .started)
    (kinds : ∀ action ∈ back, action.Within)
    (run : Path (Taken (next coreNum)) before (.stop true :: back) last) (idle : last.control = .idle)
    (accepted : task ∈ before.accepted) (kept : task ∉ before.dropped) : task ∈ last.executed := by
  have held := held_of_started orderly returned started accepted kept
  cases run with
  | cons head tail =>
    have began := head
    obtain ⟨_, same⟩ := Option.ite_none_right_eq_some.mp head
    cases same
    obtain ⟨closed, orderly', _, held'⟩ := (tail.guard kinds).invariant
      (fun pool => pool.Closing ∧ pool.Orderly ∧ pool.props.length ≤ (maxThreadNum coreNum).toNat ∧
        pool.Held task)
      (fun first action second ⟨closing, orderly, few, held⟩ ⟨within, taken⟩ => by
        obtain ⟨closed, holds⟩ := closing.next orderly within taken
        exact ⟨closed, orderly.next few taken, props_of_next taken ▸ few, holds held⟩)
      ⟨started, orderly.next few began, few, held⟩
    have past : last.atomicSwitch = stopped := by simpa only [Closing, idle] using closed
    have fits := orderly'.fits
    rw [idle] at fits
    rcases fits with ⟨switch, _⟩ | ⟨_, gone⟩
    · cases past.symm.trans switch
    · rcases held' with done | ⟨thread, runs⟩ | ⟨_, thread, _, live⟩
      · exact done
      · cases runs.symm.trans (gone thread)
      · exact absurd (gone thread) live

omit [DecidableEq P] [DecidableEq F] [DecidableEq C] in
/-- What a pool that is not started has accepted has been executed or discarded, if its queues are empty. -/
theorem executed_of_empty {before : ConcurrentSerialTaskPool P F C} (orderly : before.Orderly)
    (returned : before.control = .idle) (idle : before.atomicSwitch ≠ .started)
    (nothing : ∀ prop, before.queues prop = []) (accepted : task ∈ before.accepted)
    (kept : task ∉ before.dropped) : task ∈ before.executed := by
  have fits := orderly.fits
  rw [returned] at fits
  rcases orderly.accepted task accepted with done | dropped | ⟨source, waits⟩ | ⟨thread, runs⟩
  · exact done
  · exact absurd dropped kept
  · rw [nothing] at waits
    cases waits
  · rcases fits with ⟨switch, _⟩ | ⟨_, gone⟩
    · exact absurd switch idle
    · cases runs.symm.trans (gone thread)

/-- In every run of calls of `start`, `stop` and `add_task`: a `start` behind which no `stop(true)` has
got through returns, and then the pool runs; and when a `stop(true)` of a started pool has returned,
what had been accepted before and not discarded has been executed. -/
theorem restarts_and_drains [Inhabited C] {front : List (Action P F C)}
    {before : ConcurrentSerialTaskPool P F C} (few : props.length ≤ (maxThreadNum coreNum).toNat)
    (path : Path (Guarded (Taken (next coreNum)) fun _ action => action.Callable) (construct props) front before)
    (returned : before.control = .idle) :
    (before.atomicSwitch.bstop = false → ∀ back last,
      (∀ action ∈ back, action.Within ∧ action.Callable) →
      Path (Taken (next coreNum)) before (.start :: back) last →
        (∃ count called, Path (Taken (next coreNum)) last (List.replicate count .control) called ∧
          called.control = .idle) ∧
        (last.control = .idle → Runs coreNum before last)) ∧
    (before.atomicSwitch = .started ∨ (∀ prop, before.queues prop = []) →
      ∀ back last, (∀ action ∈ back, action.Within) →
        Path (Taken (next coreNum)) before (.stop true :: back) last → last.control = .idle →
          ∀ task ∈ before.accepted, task ∉ before.dropped → task ∈ last.executed) := by
  obtain ⟨orderly, plain, few⟩ := kept_of_path few path
  refine ⟨fun unset back last kinds run => runs_of_start orderly plain few unset kinds run, ?_⟩
  intro covered back last kinds run idle task accepted kept
  by_cases started : before.atomicSwitch = .started
  · exact executed_of_stop orderly few returned started kinds run idle accepted kept
  · have grows : before.executed ⊆ last.executed := run.invariant (fun pool => before.executed ⊆ pool.executed)
      (fun _ _ _ old taken => List.Subset.trans old (executed_of_next taken)) (List.Subset.refl _)
    exact grows (executed_of_empty orderly returned started (covered.resolve_left started) accepted kept)

/-- `start`, and a call of `add_task` that is accepted. -/
def startsAndAdds : List (Action Nat Nat (Fin 2)) :=
  List.flatten [.start :: List.replicate 7 .control, .add 0 5 (some 50) :: List.replicate 5 (.caller 0)]

/-- `stop(true)`, with the one worker. -/
def stopsAndWaits : List (Action Nat Nat (Fin 2)) :=
  List.flatten
    [.stop true :: List.replicate 3 .control, List.replicate 8 (.worker 0 0),
    List.replicate 2 .control]

theorem restarts_and_drains_one_task :
    ∃ before last called : ConcurrentSerialTaskPool Nat Nat (Fin 2),
      exec (next 1) (construct [5]) startsAndAdds = some before ∧
      exec (next 1) before stopsAndWaits = some last ∧
      ⟨0, 5, some 50⟩ ∈ before.accepted ∧ ⟨0, 5, some 50⟩ ∈ last.executed ∧
      exec (next 1) (construct [5]) (.start :: List.replicate 7 .control) = some called ∧
      Runs 1 (construct [5]) called := by
  have runs : ∃ before ∈ exec (checked (next 1) fun _ action => action.Callable)
      (construct [5] : ConcurrentSerialTaskPool Nat Nat (Fin 2)) startsAndAdds,
      before.control = .idle ∧ before.atomicSwitch = .started ∧
      before.accepted = [⟨0, 5, some 50⟩] ∧
        before.dropped = [] ∧ ∃ last ∈ exec (next 1) before stopsAndWaits,
        last.control = .idle := by
    decide
  have launches :
    ∃ called ∈ exec (next 1) (construct [5] : ConcurrentSerialTaskPool Nat Nat (Fin 2))
      (.start :: List.replicate 7 .control), called.control = .idle := by
    decide
  obtain ⟨before, front, returned, started, accepted, dropped, last, back, idle⟩ := runs
  obtain ⟨called, launch, launched⟩ := launches
  have path := Path.of_checked front
  have member : ⟨0, 5, some 50⟩ ∈ before.accepted := by simp [accepted]
  refine ⟨before, last, called, exec_eq_some_iff.mpr (path.mono fun _ _ _ step => step.2), back,
    member, ?_, launch, ?_⟩
  · exact (restarts_and_drains (by decide) path returned).2 (.inl started) _ last (by decide)
      (exec_eq_some_iff.mp back) idle _ member (by simp [dropped])
  · exact ((restarts_and_drains (by decide) (.nil (construct [5])) rfl).1 rfl _ called (by decide)
      (exec_eq_some_iff.mp launch)).2 launched

/-- After a `stop(true)` the next `start` returns, and the pool is still stopped. -/
theorem start_after_stop_refused :
    ∃ last : ConcurrentSerialTaskPool Nat Nat (Fin 2),
      exec (next 1) (construct [5])
        (List.flatten [startsAndAdds, stopsAndWaits, [.start, .control]]) = some last ∧
      last.control = .idle ∧ last.atomicSwitch.bstop = true ∧ last.consumers = [] ∧
      ∃ refused, exec (next 1) last [.add 0 5 (some 60), .caller 0] = some refused ∧
        refused.caller 0 = .outside ∧
        refused.accepted = last.accepted := by
  have runs : ∃ last ∈ exec (next 1) (construct [5] : ConcurrentSerialTaskPool Nat Nat (Fin 2))
      (List.flatten [startsAndAdds, stopsAndWaits, [.start, .control]]),
      last.control = .idle ∧ last.atomicSwitch.bstop = true ∧ last.consumers = [] ∧
      ∃ refused ∈ exec (next 1) last [.add 0 5 (some 60), .caller 0], refused.caller 0 = .outside ∧
        refused.accepted = last.accepted := by
    decide
  exact runs

end Restart

end BTool.TaskPool.ConcurrentSerialTaskPool
