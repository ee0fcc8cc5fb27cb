import BTool.Foundation.Monitor
import BTool.TaskQueue.LastThreads

/-! The threads around a `LastTaskQueue` finish what has been begun.

Each step that is not a vain look at the queue uses up some of what is left to do, and as long as
anything is left one of the threads can take such a step: a sleeper that could go on is woken, or
somebody is on the way to wake it. -/

namespace BTool.TaskQueue.LastTaskQueue

open BTool.Foundation

variable {P F W Q : Type} [DecidableEq P] [DecidableEq W] [DecidableEq Q]

/-- Only callable functions are added. -/
def ThreadAction.Callable : ThreadAction P F W Q → Prop
  | .addTask _ _ func => func.isSome = true
  | _ => True

instance (action : ThreadAction P F W Q) : Decidable action.Callable := by
  induction action using ThreadAction.casesOn <;> unfold ThreadAction.Callable <;> infer_instance

/-- A step of a thread that is already in a member function of the queue. -/
def ThreadAction.Resumes : ThreadAction P F W Q → Prop
  | .addTask _ _ _ => False
  | .removeProp _ _ => False
  | .clear => False
  | .stop _ => False
  | .start _ => False
  | _ => True

instance (action : ThreadAction P F W Q) : Decidable action.Resumes := by
  induction action using ThreadAction.casesOn <;> unfold ThreadAction.Resumes <;> infer_instance

namespace CallerPc

/-- The function that a caller has still to add. -/
def func : CallerPc P F → Option (TaskItem F)
  | .adding _ func => some func
  | .holding _ func => some func
  | _ => none

def holds : CallerPc P F → Bool
  | .holding _ _ => true
  | _ => false

/-- The caller is about to add a task or to wake another one. -/
def relieves : CallerPc P F → Bool
  | .adding _ _ => true
  | .holding _ _ => true
  | .removed => true
  | _ => false

/-- How many steps the caller may cause: an added task takes three, up to the notification behind it. -/
def left : CallerPc P F → Nat
  | .outside => 0
  | .adding _ _ => 6
  | .holding _ _ => 5
  | .added => 1
  | .removed => 1
  | .started => 2
  | .starting => 1

end CallerPc

def WorkerPc.left : WorkerPc → Nat
  | .entering => 0
  | .executing => 2
  | .notifying => 1

namespace Threads

/-- Nothing waits, and nobody is in a member function but workers that look for a task. -/
structure Finished (threads : Threads P F W Q) : Prop where
  tasks : threads.queue.waitProps = []
  callers : ∀ caller, threads.caller caller = .outside
  workers : ∀ worker, threads.worker worker = .entering

/-- The step has got somewhere: it has not looked at the queue in vain, nor is it a spurious wake-up. -/
def goesOn (after : Threads P F W Q) : ThreadAction P F W Q → Bool
  | .lock caller => after.mtx = some caller
  | .popBegin worker => after.worker worker = .executing
  | .wakeCaller _ => false
  | .wakeWorker _ => false
  | _ => true

/-- How many steps of a run have got somewhere. -/
def advances (threads : Threads P F W Q) : List (ThreadAction P F W Q) → Nat
  | [] => 0
  | action :: actions =>
    match threads.next action with
    | none => 0
    | some after => (after.goesOn action).toNat + after.advances actions

/-- What waits is listed as it is filed, and `m_mtx` is kept by who is past its wait. -/
structure Secured (threads : Threads P F W Q) : Prop where
  listed : threads.queue.Listed
  held : ∀ caller, threads.mtx = some caller ↔ (threads.caller caller).holds = true

/-- And sleepers are where they sleep, the executing workers are those that the queue knows, and nobody carries an
empty function. -/
structure Wired (threads : Threads P F W Q) : Prop extends Secured threads where
  agrees : threads.sections.Agrees
  executing : ∀ worker, (threads.sections.running worker).isSome = true ↔
    threads.worker worker = .executing
  worker : ∀ worker ∈ threads.notEmpty.waiters, threads.worker worker = .entering
  caller : ∀ caller ∈ threads.notFull.waiters, ∃ prop func, threads.caller caller = .adding prop func
  callable : ∀ caller func, (threads.caller caller).func = some func → func.isSome = true

/-- A worker is awake, or a caller is about to wake one. -/
def WorkerUp (threads : Threads P F W Q) : Prop :=
  (∃ worker, worker ∉ threads.notEmpty.waiters) ∨ ∃ caller, threads.caller caller = .added

/-- A task waits, a worker is on its way to announce a free slot, or a caller is awake that adds a
task or wakes another caller. -/
def CallerUp (threads : Threads P F W Q) : Prop :=
  threads.queue.waitProps ≠ [] ∨ (∃ worker, threads.worker worker ≠ .entering) ∨
    ∃ caller, caller ∉ threads.notFull.waiters ∧ (threads.caller caller).relieves = true

/-- Nobody sleeps over a stop, a waiting task has a worker see to it, and so for blocked callers. -/
structure Lively (threads : Threads P F W Q) : Prop where
  stopped : threads.queue.bstop = true → threads.notFull.waiters = ∅
  workers : threads.queue.waitProps ≠ [] → threads.WorkerUp
  callers : ∀ caller ∈ threads.notFull.waiters, threads.CallerUp

variable {threads after : Threads P F W Q} {action : ThreadAction P F W Q} {maxTaskCount : UInt64}
  {actions : List (ThreadAction P F W Q)} {worker : W} {caller : Q} {prop : P} {func : TaskItem F}

section Wiring

omit [DecidableEq W] in
/-- One caller moves, with its section if it goes through one. -/
private theorem Secured.moveCaller (secured : Secured threads) {queue : LastTaskQueue P F} {mtx : Option Q}
    {notFull : CondVar Q} {notEmpty : CondVar W} {pc : CallerPc P F} (listed : queue.Listed)
    (held : mtx = some caller ↔ pc.holds = true)
    (others : ∀ other, other ≠ caller → (mtx = some other ↔ threads.mtx = some other)) :
    Secured ({ threads with sections.queue := queue, mtx, notFull, notEmpty }.moveCaller caller pc) where
  listed := listed
  held := by
    intro other
    by_cases here : other = caller
    · subst here
      simpa [Threads.moveCaller] using held
    · simpa [Threads.moveCaller, here, others other here] using secured.held other

omit [DecidableEq W] in
/-- A caller moves and has the lock as before. -/
private theorem Secured.step_aside (secured : Secured threads) {queue : LastTaskQueue P F}
    {notFull : CondVar Q} {notEmpty : CondVar W} {pc : CallerPc P F} (listed : queue.Listed)
    (same : pc.holds = (threads.caller caller).holds) :
    Secured ({ threads with sections.queue := queue, notFull, notEmpty }.moveCaller caller pc) :=
  secured.moveCaller listed (by rw [same]; exact secured.held caller) fun _ _ => Iff.rfl

omit [DecidableEq W] [DecidableEq Q] in
theorem init_secured : Secured (init maxTaskCount : Threads P F W Q) where
  listed := State.init_listed
  held := by simp [init, CallerPc.holds]

theorem secured_step (secured : Secured threads) (taken : threads.next action = some after) : Secured after := by
  have listed := secured.listed
  cases action with
  | addTask caller prop func =>
    obtain ⟨here, rfl | rfl⟩ := addTask_cases taken
    · exact secured
    · exact secured.step_aside listed (by rw [here]; rfl)
  | lock caller =>
    obtain ⟨prop, func, here, free, awake, ⟨_, rfl⟩ | ⟨_, _, rfl⟩⟩ := lock_cases taken
    · refine secured.moveCaller listed (by simp [CallerPc.holds]) fun other apart => ?_
      simp [free, Ne.symm apart]
    · exact ⟨listed, secured.held⟩
  | push caller =>
    obtain ⟨prop, func, here, outcome⟩ := push_cases taken
    have mine : threads.mtx = some caller := (secured.held caller).mpr (by rw [here]; rfl)
    have others (other : Q) (apart : other ≠ caller) : none = some other ↔ threads.mtx = some other := by
      simp [mine, Ne.symm apart]
    rcases outcome with ⟨_, rfl⟩ | ⟨_, rfl⟩
    · exact secured.moveCaller listed (by simp [CallerPc.holds]) others
    · exact secured.moveCaller listed.setTask (by simp [CallerPc.holds]) others
  | notifyNotEmpty caller woken =>
    obtain ⟨here, notEmpty, notified, rfl⟩ := notifyNotEmpty_cases taken
    exact secured.step_aside listed (by rw [here]; rfl)
  | removeProp caller prop =>
    obtain ⟨here, _, rfl⟩ := removeProp_cases taken
    exact secured.step_aside listed.removeProp (by rw [here]; rfl)
  | notifyRemoved caller woken =>
    obtain ⟨here, notFull, notified, rfl⟩ := notifyRemoved_cases taken
    exact secured.step_aside listed (by rw [here]; rfl)
  | clear =>
    obtain ⟨_, rfl⟩ := clear_cases taken
    exact ⟨.clearInner, secured.held⟩
  | stop bwait =>
    obtain ⟨_, rfl | ⟨_, rfl⟩⟩ := stop_cases taken
    · exact secured
    · exact ⟨listed.stop bwait, secured.held⟩
  | start caller =>
    obtain ⟨here, rfl | ⟨_, rfl⟩⟩ := start_cases taken
    · exact secured
    · exact secured.step_aside ⟨listed.nodup, listed.keys⟩ (by rw [here]; rfl)
  | notifyStarted caller =>
    rcases notifyStarted_cases taken with ⟨here, rfl⟩ | ⟨here, rfl⟩ <;>
      exact secured.step_aside listed (by rw [here]; rfl)
  | popBegin worker =>
    obtain ⟨here, _, awake, ⟨_, rfl⟩ | ⟨sections, begun, rfl⟩⟩ := begin_cases taken
    · exact ⟨listed, secured.held⟩
    · exact ⟨State.listed_step listed begun, secured.held⟩
  | popFinish worker =>
    obtain ⟨here, _, sections, finished, rfl⟩ := finish_cases taken
    exact ⟨State.listed_step listed finished, secured.held⟩
  | notifyNotFull worker woken =>
    obtain ⟨here, notFull, notified, rfl⟩ := notifyNotFull_cases taken
    exact ⟨listed, secured.held⟩
  | wakeCaller caller =>
    obtain ⟨notFull, woken, rfl⟩ := wakeCaller_cases taken
    exact ⟨listed, secured.held⟩
  | wakeWorker worker =>
    obtain ⟨notEmpty, woken, rfl⟩ := wakeWorker_cases taken
    exact ⟨listed, secured.held⟩

omit [DecidableEq W] in
/-- What is done to the waiting tasks leaves the running ones alone. -/
private theorem agrees_of_paired {state : State P F W} {queue : LastTaskQueue P F} (agrees : state.Agrees)
    (paired : queue.Paired) (same : queue.curPopProps = state.queue.curPopProps) :
    State.Agrees { state with queue } where
  paired := paired
  exact := by simpa [State.marks, same] using agrees.exact
  exclusive := by simpa [State.marks, same] using agrees.exclusive

omit [DecidableEq W] in
/-- One caller moves, with its section if it goes through one. -/
private theorem Wired.moveCaller (wired : Wired threads) {queue : LastTaskQueue P F} {mtx : Option Q}
    {notFull : CondVar Q} {notEmpty : CondVar W} {pc : CallerPc P F}
    (secured : Secured ({ threads with sections.queue := queue, mtx, notFull, notEmpty }.moveCaller caller pc))
    (paired : queue.Paired) (same : queue.curPopProps = threads.queue.curPopProps)
    (awake : caller ∉ threads.notFull.waiters)
    (fewer : notFull.waiters ⊆ threads.notFull.waiters)
    (fewerWorkers : notEmpty.waiters ⊆ threads.notEmpty.waiters)
    (callable : ∀ func, pc.func = some func → func.isSome = true) :
    Wired ({ threads with sections.queue := queue, mtx, notFull, notEmpty }.moveCaller caller pc) where
  toSecured := secured
  agrees := agrees_of_paired wired.agrees paired same
  executing := wired.executing
  worker := fun other asleep => wired.worker other (fewerWorkers asleep)
  caller := by
    intro other asleep
    have apart : other ≠ caller := by
      rintro rfl
      exact awake (fewer asleep)
    obtain ⟨prop, func, here⟩ := wired.caller other (fewer asleep)
    exact ⟨prop, func, by simpa [Threads.moveCaller, apart] using here⟩
  callable := by
    intro other func carries
    by_cases here : other = caller
    · subst here
      simp only [Threads.moveCaller, Function.update_self] at carries
      exact callable func carries
    · simp only [Threads.moveCaller, Function.update_of_ne here] at carries
      exact wired.callable other func carries

omit [DecidableEq W] [DecidableEq Q] in
private theorem Wired.awake (wired : Wired threads)
    (elsewhere : ∀ prop func, threads.caller caller ≠ .adding prop func) :
    caller ∉ threads.notFull.waiters := by
  intro asleep
  obtain ⟨prop, func, here⟩ := wired.caller caller asleep
  exact elsewhere prop func here

omit [DecidableEq W] [DecidableEq Q] in
private theorem Wired.worker_awake (wired : Wired threads) (busy : threads.worker worker ≠ .entering) :
    worker ∉ threads.notEmpty.waiters :=
  fun asleep => busy (wired.worker worker asleep)

omit [DecidableEq Q] in
/-- One worker moves, with its section if it goes through one. -/
private theorem Wired.moveWorker (wired : Wired threads) {sections : State P F W}
    {notFull : CondVar Q} {pc : WorkerPc} (agrees : sections.Agrees)
    (awake : worker ∉ threads.notEmpty.waiters)
    (others : ∀ other, other ≠ worker →
      (sections.running other).isSome = (threads.sections.running other).isSome)
    (here : (sections.running worker).isSome = true ↔ pc = .executing)
    (fewer : notFull.waiters ⊆ threads.notFull.waiters) :
    Wired ({ threads with sections, notFull }.moveWorker worker pc) where
  listed := agrees.paired.toListed
  held := wired.held
  agrees := agrees
  executing := by
    intro other
    by_cases same : other = worker
    · subst same
      simpa [Threads.moveWorker] using here
    · simpa [Threads.moveWorker, same, others other same] using wired.executing other
  worker := by
    intro other asleep
    have apart : other ≠ worker := by
      rintro rfl
      exact awake asleep
    simpa [Threads.moveWorker, apart] using wired.worker other asleep
  caller := fun other asleep => wired.caller other (fewer asleep)
  callable := wired.callable

omit [DecidableEq W] in
/-- A caller that does not sleep moves without a section. -/
private theorem Wired.step_aside (wired : Wired threads) {notFull : CondVar Q} {notEmpty : CondVar W}
    {pc : CallerPc P F} (secured : Secured ({ threads with notFull, notEmpty }.moveCaller caller pc))
    (elsewhere : ∀ prop func, threads.caller caller ≠ .adding prop func)
    (fewer : notFull.waiters ⊆ threads.notFull.waiters)
    (fewerWorkers : notEmpty.waiters ⊆ threads.notEmpty.waiters)
    (callable : ∀ func, pc.func = some func → func.isSome = true) :
    Wired ({ threads with notFull, notEmpty }.moveCaller caller pc) :=
  wired.moveCaller secured wired.agrees.paired rfl (wired.awake elsewhere) fewer fewerWorkers callable

omit [DecidableEq W] [DecidableEq Q] in
/-- Fewer threads sleep. -/
private theorem Wired.wake (wired : Wired threads) {notFull : CondVar Q} {notEmpty : CondVar W}
    (fewer : notFull.waiters ⊆ threads.notFull.waiters)
    (fewerWorkers : notEmpty.waiters ⊆ threads.notEmpty.waiters) :
    Wired { threads with notFull, notEmpty } where
  listed := wired.listed
  held := wired.held
  agrees := wired.agrees
  executing := wired.executing
  worker := fun other asleep => wired.worker other (fewerWorkers asleep)
  caller := fun other asleep => wired.caller other (fewer asleep)
  callable := wired.callable

omit [DecidableEq W] [DecidableEq Q] in
theorem init_wired : Wired (init maxTaskCount : Threads P F W Q) where
  toSecured := init_secured
  agrees := State.init_agrees
  executing := by simp [init, State.init]
  worker := by simp [init, CondVar.empty]
  caller := by simp [init, CondVar.empty]
  callable := by simp [init, CallerPc.func]

omit [DecidableEq Q] in
/-- The sections of `pop_task` of one worker leave the others as they are. -/
private theorem isSome_running_apart {sections : State P F W} {inner : Action P F W}
    (pops : inner = .popBegin worker ∨ inner = .popFinish worker)
    (taken : threads.sections.next inner = some sections) (other : W) (apart : other ≠ worker) :
    (sections.running other).isSome = (threads.sections.running other).isSome := by
  rcases pops with rfl | rfl
  · obtain ⟨_, ⟨_, rfl⟩ | ⟨prop, _, rfl⟩⟩ := State.popBegin_cases taken
    · rfl
    · simp [State.take, apart]
  · obtain ⟨current, _, rfl⟩ := State.popFinish_cases taken
    simp [apart]

theorem wired_step (wired : Wired threads) (callable : action.Callable)
    (taken : threads.next action = some after) : Wired after := by
  have secured := secured_step wired.toSecured taken
  have paired := wired.agrees.paired
  cases action with
  | addTask caller prop func =>
    obtain ⟨here, rfl | rfl⟩ := addTask_cases taken
    · exact wired
    · refine wired.step_aside secured (by simp [here]) (Finset.Subset.refl _) (Finset.Subset.refl _) ?_
      intro func' carries
      cases carries
      exact callable
  | lock caller =>
    obtain ⟨prop, func, here, free, awake, ⟨_, rfl⟩ | ⟨_, _, rfl⟩⟩ := lock_cases taken
    · refine wired.moveCaller secured paired rfl awake (Finset.Subset.refl _) (Finset.Subset.refl _) ?_
      intro func' carries
      cases carries
      exact wired.callable caller func (by rw [here]; rfl)
    · refine ⟨secured, wired.agrees, wired.executing, wired.worker, ?_, wired.callable⟩
      intro other asleep
      rcases CondVar.waiters_wait.mp asleep with rfl | before
      · exact ⟨prop, func, here⟩
      · exact wired.caller other before
  | push caller =>
    obtain ⟨prop, func, here, outcome⟩ := push_cases taken
    have awake : caller ∉ threads.notFull.waiters := wired.awake (by simp [here])
    have isCallable := wired.callable caller func (by rw [here]; rfl)
    rcases outcome with ⟨_, rfl⟩ | ⟨_, rfl⟩
    · exact wired.moveCaller secured paired rfl awake (Finset.Subset.refl _) (Finset.Subset.refl _)
        (by simp [CallerPc.func])
    · exact wired.moveCaller secured (paired.setTask isCallable) rfl awake (Finset.Subset.refl _)
        (Finset.Subset.refl _) (by simp [CallerPc.func])
  | notifyNotEmpty caller woken =>
    obtain ⟨here, notEmpty, notified, rfl⟩ := notifyNotEmpty_cases taken
    exact wired.step_aside secured (by simp [here]) (Finset.Subset.refl _) (CondVar.notifyOne_subset notified)
      (by simp [CallerPc.func])
  | removeProp caller prop =>
    obtain ⟨here, free, rfl⟩ := removeProp_cases taken
    exact wired.moveCaller secured paired.removeProp rfl (wired.awake (by simp [here])) (Finset.Subset.refl _)
      (Finset.Subset.refl _) (by simp [CallerPc.func])
  | notifyRemoved caller woken =>
    obtain ⟨here, notFull, notified, rfl⟩ := notifyRemoved_cases taken
    exact wired.step_aside secured (by simp [here]) (CondVar.notifyOne_subset notified) (Finset.Subset.refl _)
      (by simp [CallerPc.func])
  | clear =>
    obtain ⟨_, rfl⟩ := clear_cases taken
    exact ⟨secured, agrees_of_paired wired.agrees .clearInner rfl, wired.executing,
      by simp [wakeAll, CondVar.empty], by simp [wakeAll, CondVar.empty], wired.callable⟩
  | stop bwait =>
    obtain ⟨_, rfl | ⟨_, rfl⟩⟩ := stop_cases taken
    · exact wired
    · refine ⟨secured, agrees_of_paired wired.agrees (paired.stop bwait) ?_, wired.executing,
        by simp [wakeAll, CondVar.empty], by simp [wakeAll, CondVar.empty], wired.callable⟩
      unfold LastTaskQueue.stop
      split
      · rfl
      · cases bwait <;> rfl
  | start caller =>
    obtain ⟨here, rfl | ⟨_, rfl⟩⟩ := start_cases taken
    · exact wired
    · exact wired.moveCaller secured ⟨⟨paired.nodup, paired.keys⟩, paired.callable⟩ rfl
        (wired.awake (by simp [here])) (Finset.Subset.refl _) (Finset.Subset.refl _) (by simp [CallerPc.func])
  | notifyStarted caller =>
    rcases notifyStarted_cases taken with ⟨here, rfl⟩ | ⟨here, rfl⟩
    · exact wired.step_aside secured (by simp [here]) (Finset.empty_subset _) (Finset.Subset.refl _)
        (by simp [CallerPc.func])
    · exact wired.step_aside secured (by simp [here]) (Finset.Subset.refl _) (Finset.empty_subset _)
        (by simp [CallerPc.func])
  | popBegin worker =>
    obtain ⟨here, _, awake, ⟨_, rfl⟩ | ⟨sections, begun, rfl⟩⟩ := begin_cases taken
    · refine ⟨secured, wired.agrees, wired.executing, ?_, wired.caller, wired.callable⟩
      intro other asleep
      rcases CondVar.waiters_wait.mp asleep with rfl | before
      · exact here
      · exact wired.worker other before
    · have callable : Action.Callable (.popBegin worker : Action P F W) := trivial
      refine wired.moveWorker (wired.agrees.step callable begun) awake
        (isSome_running_apart (.inl rfl) begun) ?_ (Finset.Subset.refl _)
      cases (sections.running worker).isSome <;> simp
  | popFinish worker =>
    obtain ⟨here, _, sections, finished, rfl⟩ := finish_cases taken
    have callable : Action.Callable (.popFinish worker : Action P F W) := trivial
    refine wired.moveWorker (wired.agrees.step callable finished) (wired.worker_awake (by simp [here]))
      (isSome_running_apart (.inr rfl) finished) ?_ (Finset.Subset.refl _)
    obtain ⟨current, _, rfl⟩ := State.popFinish_cases finished
    simp
  | notifyNotFull worker woken =>
    obtain ⟨here, notFull, notified, rfl⟩ := notifyNotFull_cases taken
    refine wired.moveWorker wired.agrees (wired.worker_awake (by simp [here])) (fun _ _ => rfl) ?_
      (CondVar.notifyOne_subset notified)
    simp [wired.executing, here]
  | wakeCaller caller =>
    obtain ⟨notFull, woken, rfl⟩ := wakeCaller_cases taken
    exact wired.wake (CondVar.notifyOne_subset woken) (Finset.Subset.refl _)
  | wakeWorker worker =>
    obtain ⟨notEmpty, woken, rfl⟩ := wakeWorker_cases taken
    exact wired.wake (Finset.Subset.refl _) (CondVar.notifyOne_subset woken)

end Wiring

section Liveliness

omit [DecidableEq W] in
/-- A caller moves that is not about to wake a worker. -/
private theorem WorkerUp.moveCaller (up : threads.WorkerUp) {sections : State P F W} {mtx : Option Q}
    {notFull : CondVar Q} {pc : CallerPc P F} (silent : threads.caller caller ≠ .added) :
    WorkerUp ({ threads with sections, mtx, notFull }.moveCaller caller pc) := by
  rcases up with awake | ⟨other, wakes⟩
  · exact .inl awake
  · have apart : other ≠ caller := by
      rintro rfl
      exact silent wakes
    exact .inr ⟨other, by simpa [Threads.moveCaller, apart] using wakes⟩

omit [DecidableEq W] in
/-- A caller moves that does not see to the other callers. -/
private theorem CallerUp.moveCaller (up : threads.CallerUp) {sections : State P F W} {mtx : Option Q}
    {notEmpty : CondVar W} {pc : CallerPc P F} (idle : (threads.caller caller).relieves = false)
    (tasks : sections.queue.waitProps = threads.queue.waitProps) :
    CallerUp ({ threads with sections, mtx, notEmpty }.moveCaller caller pc) := by
  rcases up with waits | announces | ⟨relief, awake, sees⟩
  · exact .inl (tasks.symm ▸ waits)
  · exact .inr (.inl announces)
  · have apart : relief ≠ caller := by
      rintro rfl
      rw [idle] at sees
      cases sees
    exact .inr (.inr ⟨relief, awake, by simpa [Threads.moveCaller, apart] using sees⟩)

/-- A queue that is full has a waiting task. -/
private theorem waits_of_full {queue : LastTaskQueue P F} (full : queue.notFull = false) :
    queue.waitProps ≠ [] := by
  intro nothing
  simp only [LastTaskQueue.notFull, LastTaskQueue.size, nothing, List.length_nil, Bool.or_eq_false_iff,
    decide_eq_false_iff_not] at full
  have zero : queue.maxTaskCount.toNat = 0 := by omega
  exact full.1 (UInt64.toNat_inj.mp zero)

omit [DecidableEq Q] in
/-- With callable functions only, a worker that takes a task executes it. -/
private theorem isSome_running_take (wired : Wired threads)
    (first : threads.queue.waitProps.find? (fun prop => prop ∉ threads.queue.curPopProps) = some prop) :
    ((threads.sections.take worker prop).running worker).isSome = true := by
  obtain ⟨task, found⟩ := wired.agrees.waiting_task (List.mem_of_find?_eq_some first)
  simp [State.take, found]

theorem lively_step [Nonempty W] (lively : Lively threads) (wired : Wired threads)
    (taken : threads.next action = some after) : Lively after := by
  obtain ⟨someone⟩ := ‹Nonempty W›
  cases action with
  | addTask caller prop func =>
    obtain ⟨here, rfl | rfl⟩ := addTask_cases taken
    · exact lively
    · exact ⟨lively.stopped, fun waits => (lively.workers waits).moveCaller (by simp [here]),
        fun other asleep => (lively.callers other asleep).moveCaller (by rw [here]; rfl) rfl⟩
  | lock caller =>
    obtain ⟨prop, func, here, _, awake, ⟨_, rfl⟩ | ⟨opened, full, rfl⟩⟩ := lock_cases taken
    · refine ⟨lively.stopped, fun waits => (lively.workers waits).moveCaller (by simp [here]),
        fun _ _ => .inr (.inr ⟨caller, awake, ?_⟩)⟩
      simp [Threads.moveCaller, CallerPc.relieves]
    · refine ⟨fun stopped => ?_, lively.workers, fun _ _ => .inl (waits_of_full full)⟩
      cases opened.symm.trans stopped
  | push caller =>
    obtain ⟨prop, func, here, ⟨stopped, rfl⟩ | ⟨opened, rfl⟩⟩ := push_cases taken
    · have nobody := lively.stopped stopped
      refine ⟨lively.stopped, fun waits => (lively.workers waits).moveCaller (by simp [here]),
        fun other asleep => ?_⟩
      simp [Threads.moveCaller, nobody] at asleep
    · refine ⟨fun stopped => ?_, fun _ => .inr ⟨caller, by simp [Threads.moveCaller]⟩,
        fun _ _ => .inl (waits_setTask wired.listed)⟩
      cases opened.symm.trans stopped
  | notifyNotEmpty caller woken =>
    obtain ⟨here, notEmpty, notified, rfl⟩ := notifyNotEmpty_cases taken
    have up : ∃ worker, worker ∉ notEmpty.waiters := by
      rcases CondVar.notifyOne_cases notified with ⟨_, nobody, rfl⟩ | ⟨sleeper, _, _, same⟩
      · exact ⟨someone, by simp [nobody]⟩
      · exact ⟨sleeper, by simp [same]⟩
    exact ⟨lively.stopped, fun _ => .inl up,
      fun other asleep => (lively.callers other asleep).moveCaller (by rw [here]; rfl) rfl⟩
  | removeProp caller prop =>
    obtain ⟨here, _, rfl⟩ := removeProp_cases taken
    have awake : caller ∉ threads.notFull.waiters := wired.awake (by simp [here])
    refine ⟨lively.stopped, fun waits => ?_,
      fun _ _ => .inr (.inr ⟨caller, awake, by simp [Threads.moveCaller, CallerPc.relieves]⟩)⟩
    have before : threads.queue.waitProps ≠ [] := by
      intro nothing
      simp [Threads.moveCaller, setQueue, LastTaskQueue.removeProp, nothing] at waits
    exact (lively.workers before).moveCaller (by simp [here])
  | notifyRemoved caller woken =>
    obtain ⟨here, notFull, notified, rfl⟩ := notifyRemoved_cases taken
    refine ⟨fun stopped => ?_, fun waits => (lively.workers waits).moveCaller (by simp [here]),
      fun other asleep => ?_⟩
    · exact Finset.subset_empty.mp (lively.stopped stopped ▸ CondVar.notifyOne_subset notified)
    · rcases CondVar.notifyOne_cases notified with ⟨_, nobody, rfl⟩ | ⟨sleeper, _, slept, same⟩
      · simp [Threads.moveCaller, nobody] at asleep
      · obtain ⟨prop, func, adds⟩ := wired.caller sleeper slept
        have apart : sleeper ≠ caller := by
          rintro rfl
          simp [here] at adds
        refine .inr (.inr ⟨sleeper, by simp [Threads.moveCaller, same], ?_⟩)
        simp [Threads.moveCaller, apart, adds, CallerPc.relieves]
  | clear =>
    obtain ⟨_, rfl⟩ := clear_cases taken
    exact ⟨fun _ => rfl, fun waits => absurd rfl waits, by simp [wakeAll, CondVar.empty]⟩
  | stop bwait =>
    obtain ⟨_, rfl | ⟨_, rfl⟩⟩ := stop_cases taken
    · exact lively
    · exact ⟨fun _ => rfl, fun _ => .inl ⟨someone, by simp [wakeAll, CondVar.empty]⟩,
        by simp [wakeAll, CondVar.empty]⟩
  | start caller =>
    obtain ⟨here, rfl | ⟨stopped, rfl⟩⟩ := start_cases taken
    · exact lively
    · exact ⟨fun _ => lively.stopped stopped,
        fun waits => (lively.workers waits).moveCaller (by simp [here]),
        fun other asleep => (lively.callers other asleep).moveCaller (by rw [here]; rfl) rfl⟩
  | notifyStarted caller =>
    rcases notifyStarted_cases taken with ⟨here, rfl⟩ | ⟨here, rfl⟩
    · exact ⟨fun _ => rfl, fun waits => (lively.workers waits).moveCaller (by simp [here]),
        by simp [Threads.moveCaller, CondVar.empty]⟩
    · exact ⟨lively.stopped, fun _ => .inl ⟨someone, by simp [Threads.moveCaller, CondVar.empty]⟩,
        fun other asleep => (lively.callers other asleep).moveCaller (by rw [here]; rfl) rfl⟩
  | popBegin worker =>
    obtain ⟨here, _, awake, ⟨nothing, rfl⟩ | ⟨sections, begun, rfl⟩⟩ := begin_cases taken
    · exact ⟨lively.stopped, fun waits => absurd nothing waits, lively.callers⟩
    · obtain ⟨idle, ⟨_, rfl⟩ | ⟨prop, first, rfl⟩⟩ := State.popBegin_cases begun
      · refine ⟨lively.stopped, fun _ => .inl ⟨worker, awake⟩, fun other asleep => ?_⟩
        have same : threads.moveWorker worker
            (if (threads.sections.running worker).isSome then .executing else .entering) = threads := by
          simp [Threads.moveWorker, idle, ← here]
        exact same.symm ▸ lively.callers other asleep
      · refine ⟨lively.stopped, fun _ => .inl ⟨worker, awake⟩,
          fun _ _ => .inr (.inl ⟨worker, ?_⟩)⟩
        simp [Threads.moveWorker, isSome_running_take wired first]
  | popFinish worker =>
    obtain ⟨here, _, sections, finished, rfl⟩ := finish_cases taken
    obtain ⟨current, _, rfl⟩ := State.popFinish_cases finished
    exact ⟨lively.stopped, fun _ => .inl ⟨worker, wired.worker_awake (by simp [here])⟩,
      fun _ _ => .inr (.inl ⟨worker, by simp [Threads.moveWorker]⟩)⟩
  | notifyNotFull worker woken =>
    obtain ⟨here, notFull, notified, rfl⟩ := notifyNotFull_cases taken
    refine ⟨fun stopped => ?_, fun _ => .inl ⟨worker, wired.worker_awake (by simp [here])⟩,
      fun other asleep => ?_⟩
    · exact Finset.subset_empty.mp (lively.stopped stopped ▸ CondVar.notifyOne_subset notified)
    · rcases CondVar.notifyOne_cases notified with ⟨_, nobody, rfl⟩ | ⟨sleeper, _, slept, same⟩
      · simp [Threads.moveWorker, nobody] at asleep
      · obtain ⟨prop, func, adds⟩ := wired.caller sleeper slept
        refine .inr (.inr ⟨sleeper, by simp [Threads.moveWorker, same], ?_⟩)
        simp [Threads.moveWorker, adds, CallerPc.relieves]
  | wakeCaller caller =>
    obtain ⟨notFull, woken, rfl⟩ := wakeCaller_cases taken
    have fewer := CondVar.notifyOne_subset woken
    refine ⟨fun stopped => Finset.subset_empty.mp (lively.stopped stopped ▸ fewer), lively.workers,
      fun other asleep => ?_⟩
    rcases lively.callers other (fewer asleep) with waits | announces | ⟨relief, awake, sees⟩
    · exact .inl waits
    · exact .inr (.inl announces)
    · exact .inr (.inr ⟨relief, fun sleeps => awake (fewer sleeps), sees⟩)
  | wakeWorker worker =>
    obtain ⟨notEmpty, woken, rfl⟩ := wakeWorker_cases taken
    have fewer := CondVar.notifyOne_subset woken
    refine ⟨lively.stopped, fun waits => ?_, lively.callers⟩
    rcases lively.workers waits with ⟨other, awake⟩ | wakes
    · exact .inl ⟨other, fun sleeps => awake (fewer sleeps)⟩
    · exact .inr wakes

omit [DecidableEq P] [DecidableEq W] [DecidableEq Q] in
theorem init_lively [DecidableEq P] [Nonempty W] : Lively (init maxTaskCount : Threads P F W Q) where
  stopped := fun _ => rfl
  workers := fun waits => absurd rfl waits
  callers := by simp [init, CondVar.empty]

end Liveliness

section Progress

/-- Some thread that is in a member function can take a step that gets somewhere. -/
def CanGoOn (threads : Threads P F W Q) : Prop :=
  ∃ action after, action.Resumes ∧ threads.next action = some after ∧ after.goesOn action = true

/-- Whoever has the lock can leave it. -/
private theorem goes_on_held (wired : Wired threads) (held : threads.mtx = some caller) : threads.CanGoOn := by
  have holds := (wired.held caller).mp held
  cases here : threads.caller caller with
  | holding prop func => exact ⟨.push caller, _, trivial, by simp only [next, here]; rfl, rfl⟩
  | _ =>
    rw [here] at holds
    cases holds

/-- With the lock free a worker that has a task, or has had one, can go on. -/
private theorem goes_on_busy (wired : Wired threads) (free : threads.mtx = none)
    (busy : threads.worker worker ≠ .entering) : threads.CanGoOn := by
  cases here : threads.worker worker with
  | entering => exact absurd here busy
  | executing =>
    obtain ⟨current, isRunning⟩ := Option.isSome_iff_exists.mp ((wired.executing worker).mpr here)
    exact ⟨.popFinish worker, _, trivial, by simp only [next, here, free, State.next, isRunning]; rfl, rfl⟩
  | notifying =>
    obtain ⟨woken, notFull, notified⟩ := threads.notFull.exists_notifyOne
    exact ⟨.notifyNotFull worker woken, _, trivial, by simp only [next, here, notified]; rfl, rfl⟩

/-- A caller that is behind its section can go on. -/
private theorem goes_on_notifying (wired : Wired threads) (free : threads.mtx = none)
    (inside : threads.caller caller ≠ .outside)
    (behind : ∀ prop func, threads.caller caller ≠ .adding prop func) : threads.CanGoOn := by
  cases here : threads.caller caller with
  | outside => exact absurd here inside
  | adding prop func => exact absurd here (behind prop func)
  | holding prop func =>
    have held := (wired.held caller).mpr (by rw [here]; rfl)
    rw [free] at held
    cases held
  | added =>
    obtain ⟨woken, notEmpty, notified⟩ := threads.notEmpty.exists_notifyOne
    exact ⟨.notifyNotEmpty caller woken, _, trivial, by simp only [next, here, notified]; rfl, rfl⟩
  | removed =>
    obtain ⟨woken, notFull, notified⟩ := threads.notFull.exists_notifyOne
    exact ⟨.notifyRemoved caller woken, _, trivial, by simp only [next, here, notified]; rfl, rfl⟩
  | started => exact ⟨.notifyStarted caller, _, trivial, by simp only [next, here]; rfl, rfl⟩
  | starting => exact ⟨.notifyStarted caller, _, trivial, by simp only [next, here]; rfl, rfl⟩

/-- With nobody executing, a worker that is awake takes a waiting task. -/
private theorem goes_on_begin (wired : Wired threads) (free : threads.mtx = none)
    (idle : ∀ worker, threads.worker worker = .entering) (awake : worker ∉ threads.notEmpty.waiters)
    (waits : threads.queue.waitProps ≠ []) : threads.CanGoOn := by
  have nobody (worker : W) : threads.sections.running worker = none := by
    have still := (wired.executing worker).not.mpr (by simp [idle worker])
    simpa using still
  obtain ⟨prop, first⟩ : ∃ prop,
      threads.queue.waitProps.find? (fun prop => prop ∉ threads.queue.curPopProps) = some prop := by
    obtain ⟨prop, member⟩ := List.exists_mem_of_ne_nil _ waits
    refine Option.isSome_iff_exists.mp (List.find?_isSome.mpr ⟨prop, member, ?_⟩)
    have quiet : ¬ threads.sections.Busy prop := by
      rintro ⟨worker, task, isRunning⟩
      simp [nobody worker] at isRunning
    simpa using wired.agrees.busy_iff.not.mpr quiet
  obtain ⟨task, found⟩ := wired.agrees.waiting_task (List.mem_of_find?_eq_some first)
  have takes := popBegin_of_find? first
  rw [found] at takes
  have taken : threads.next (.popBegin worker) = some
      ({ threads with sections := threads.sections.take worker prop }.moveWorker worker .executing) := by
    simp [next, idle worker, free, awake, takes, State.next, nobody, State.take, found]
  exact ⟨.popBegin worker, _, trivial, taken, by simp [goesOn, moveWorker]⟩

omit [DecidableEq W] in
/-- With nobody behind a section and nobody able to pass the wait of `add_task`, a task waits. -/
private theorem waits_of_blocked (lively : Lively threads) (unfinished : ¬ threads.Finished)
    (idle : ∀ worker, threads.worker worker = .entering)
    (blocked : ∀ caller, caller ∉ threads.notFull.waiters → threads.caller caller ≠ .outside →
      (threads.queue.bstop || threads.queue.notFull) = false) : threads.queue.waitProps ≠ [] := by
  intro nothing
  have room : threads.queue.notFull = true := by
    by_contra full
    exact waits_of_full (by simpa using full) nothing
  have sleeps (caller : Q) (inside : threads.caller caller ≠ .outside) :
      caller ∈ threads.notFull.waiters := by
    by_contra awake
    simpa [room] using blocked caller awake inside
  obtain ⟨caller, inside⟩ : ∃ caller, threads.caller caller ≠ .outside := by
    by_contra nobody
    exact unfinished ⟨nothing, by simpa using nobody, idle⟩
  rcases lively.callers caller (sleeps caller inside) with waits | ⟨worker, busy⟩ | ⟨relief, awake, sees⟩
  · exact waits nothing
  · exact busy (idle worker)
  · refine awake (sleeps relief fun outside => ?_)
    rw [outside] at sees
    cases sees

/-- As long as anything is left, somebody can go on. -/
theorem goes_on (wired : Wired threads) (lively : Lively threads) (unfinished : ¬ threads.Finished) :
    threads.CanGoOn := by
  cases free : threads.mtx with
  | some caller => exact goes_on_held wired free
  | none =>
    by_cases idle : ∀ worker, threads.worker worker = .entering
    · by_cases behind : ∃ caller, threads.caller caller ≠ .outside ∧
          ∀ prop func, threads.caller caller ≠ .adding prop func
      · obtain ⟨caller, inside, apart⟩ := behind
        exact goes_on_notifying wired free inside apart
      · have adds (caller : Q) (inside : threads.caller caller ≠ .outside) :
            ∃ prop func, threads.caller caller = .adding prop func := by
          simpa using not_and.mp (not_exists.mp behind caller) inside
        by_cases blocked : ∀ caller, caller ∉ threads.notFull.waiters →
            threads.caller caller ≠ .outside → (threads.queue.bstop || threads.queue.notFull) = false
        · have waits := waits_of_blocked lively unfinished idle blocked
          rcases lively.workers waits with ⟨worker, awake⟩ | ⟨caller, wakes⟩
          · exact goes_on_begin wired free idle awake waits
          · obtain ⟨prop, func, here⟩ := adds caller (by simp [wakes])
            simp [wakes] at here
        · push Not at blocked
          obtain ⟨caller, awake, inside, passes⟩ := blocked
          obtain ⟨prop, func, here⟩ := adds caller inside
          have taken : threads.next (.lock caller) = some
              ({ threads with mtx := some caller }.moveCaller caller (.holding prop func)) := by
            simp [next, here, free, awake, passes]
          exact ⟨.lock caller, _, trivial, taken, by simp [goesOn, moveCaller]⟩
    · obtain ⟨worker, busy⟩ := not_forall.mp idle
      exact goes_on_busy wired free busy

end Progress

section Bound

/-- So many more steps can get somewhere: what the callers and the workers have to do, and three for
each task that waits. -/
def Left (threads : Threads P F W Q) (count : Nat) : Prop :=
  ∃ callers workers, Total CallerPc.left threads.caller callers ∧
    Total WorkerPc.left threads.worker workers ∧
    count = callers + workers + 3 * threads.queue.waitProps.length

variable {count : Nat}

omit [DecidableEq W] [DecidableEq Q] in
private theorem Left.change (left : Left threads count) {sections : State P F W}
    {notFull : CondVar Q} {notEmpty : CondVar W} :
    ∃ now, Left { threads with sections, notFull, notEmpty } now := by
  obtain ⟨callers, workers, ofCallers, ofWorkers, _⟩ := left
  exact ⟨_, callers, workers, ofCallers, ofWorkers, rfl⟩

omit [DecidableEq W] in
/-- A caller moves on, with its section if it goes through one. -/
private theorem Left.moveCaller (left : Left threads count) {sections : State P F W} {mtx : Option Q}
    {notFull : CondVar Q} {notEmpty : CondVar W} (caller : Q) (pc : CallerPc P F) :
    ∃ now, Left ({ threads with sections, mtx, notFull, notEmpty }.moveCaller caller pc) now ∧
      ∀ spent, pc.left + 3 * sections.queue.waitProps.length + spent ≤
          (threads.caller caller).left + 3 * threads.sections.queue.waitProps.length →
        now + spent ≤ count := by
  obtain ⟨callers, workers, ofCallers, ofWorkers, rfl⟩ := left
  obtain ⟨callers', ofCallers', moved⟩ := ofCallers.move caller pc
  refine ⟨_, ⟨callers', workers, ofCallers', ofWorkers, rfl⟩, fun spent enough => ?_⟩
  dsimp only [Threads.moveCaller, Threads.queue]
  omega

omit [DecidableEq Q] in
private theorem Left.moveWorker (left : Left threads count) {sections : State P F W}
    {notFull : CondVar Q} (worker : W) (pc : WorkerPc) :
    ∃ now, Left ({ threads with sections, notFull }.moveWorker worker pc) now ∧
      ∀ spent, pc.left + 3 * sections.queue.waitProps.length + spent ≤
          (threads.worker worker).left + 3 * threads.sections.queue.waitProps.length →
        now + spent ≤ count := by
  obtain ⟨callers, workers, ofCallers, ofWorkers, rfl⟩ := left
  obtain ⟨workers', ofWorkers', moved⟩ := ofWorkers.move worker pc
  refine ⟨_, ⟨callers, workers', ofCallers, ofWorkers', rfl⟩, fun spent enough => ?_⟩
  dsimp only [Threads.moveWorker, Threads.queue]
  omega

private theorem length_setTask (queue : LastTaskQueue P F) (prop : P) (func : TaskItem F) :
    (queue.setTask prop func).waitProps.length ≤ queue.waitProps.length + 1 := by
  simp only [setTask]
  split <;> simp

/-- Each step of a thread that is already in a member function uses up what is left, if it gets
somewhere, and adds nothing to it. -/
theorem left_step (left : Left threads count) (taken : threads.next action = some after) :
    ∃ now, Left after now ∧ (action.Resumes → now + (after.goesOn action).toNat ≤ count) := by
  cases action with
  | addTask caller prop func =>
    obtain ⟨_, rfl | rfl⟩ := addTask_cases taken
    · exact ⟨count, left, by simp [ThreadAction.Resumes]⟩
    · obtain ⟨now, isLeft, _⟩ := left.moveCaller caller (.adding prop func)
      exact ⟨now, isLeft, by simp [ThreadAction.Resumes]⟩
  | lock caller =>
    obtain ⟨prop, func, here, free, _, ⟨_, rfl⟩ | ⟨_, _, rfl⟩⟩ := lock_cases taken
    · obtain ⟨now, isLeft, spend⟩ := left.moveCaller caller (.holding prop func)
      refine ⟨now, isLeft, fun _ => spend _ ?_⟩
      have passed : goesOn ({ threads with mtx := some caller }.moveCaller caller (.holding prop func))
          (.lock caller : ThreadAction P F W Q) = true := by simp [goesOn, moveCaller]
      rw [here, passed]
      simp only [CallerPc.left, Bool.toNat_true]
      omega
    · exact ⟨count, left, by simp [goesOn, free]⟩
  | push caller =>
    obtain ⟨prop, func, here, ⟨_, rfl⟩ | ⟨_, rfl⟩⟩ := push_cases taken
    · obtain ⟨now, isLeft, spend⟩ := left.moveCaller caller .outside
      exact ⟨now, isLeft, fun _ => spend 1 (by simp only [here, CallerPc.left]; omega)⟩
    · obtain ⟨now, isLeft, spend⟩ := left.moveCaller caller .added
      have grows : (threads.queue.setTask prop func).waitProps.length ≤
          threads.sections.queue.waitProps.length + 1 := length_setTask threads.queue prop func
      exact ⟨now, isLeft, fun _ => spend 1 (by simp only [here, CallerPc.left]; omega)⟩
  | notifyNotEmpty caller woken =>
    obtain ⟨here, notEmpty, _, rfl⟩ := notifyNotEmpty_cases taken
    obtain ⟨now, isLeft, spend⟩ := left.moveCaller caller .outside
    exact ⟨now, isLeft, fun _ => spend 1 (by simp only [here, CallerPc.left]; omega)⟩
  | removeProp caller prop =>
    obtain ⟨_, _, rfl⟩ := removeProp_cases taken
    obtain ⟨now, isLeft, _⟩ := left.moveCaller caller .removed
    exact ⟨now, isLeft, by simp [ThreadAction.Resumes]⟩
  | notifyRemoved caller woken =>
    obtain ⟨here, notFull, _, rfl⟩ := notifyRemoved_cases taken
    obtain ⟨now, isLeft, spend⟩ := left.moveCaller caller .outside
    exact ⟨now, isLeft, fun _ => spend 1 (by simp only [here, CallerPc.left]; omega)⟩
  | clear =>
    obtain ⟨_, rfl⟩ := clear_cases taken
    obtain ⟨now, isLeft⟩ := left.change
    exact ⟨now, isLeft, by simp [ThreadAction.Resumes]⟩
  | stop bwait =>
    obtain ⟨_, rfl | ⟨_, rfl⟩⟩ := stop_cases taken
    · exact ⟨count, left, by simp [ThreadAction.Resumes]⟩
    · obtain ⟨now, isLeft⟩ := left.change
      exact ⟨now, isLeft, by simp [ThreadAction.Resumes]⟩
  | start caller =>
    obtain ⟨_, rfl | ⟨_, rfl⟩⟩ := start_cases taken
    · exact ⟨count, left, by simp [ThreadAction.Resumes]⟩
    · obtain ⟨now, isLeft, _⟩ := left.moveCaller caller .started
      exact ⟨now, isLeft, by simp [ThreadAction.Resumes]⟩
  | notifyStarted caller =>
    rcases notifyStarted_cases taken with ⟨here, rfl⟩ | ⟨here, rfl⟩
    · obtain ⟨now, isLeft, spend⟩ := left.moveCaller caller .starting
      exact ⟨now, isLeft, fun _ => spend 1 (by simp only [here, CallerPc.left]; omega)⟩
    · obtain ⟨now, isLeft, spend⟩ := left.moveCaller caller .outside
      exact ⟨now, isLeft, fun _ => spend 1 (by simp only [here, CallerPc.left]; omega)⟩
  | popBegin worker =>
    obtain ⟨here, _, _, ⟨_, rfl⟩ | ⟨sections, begun, rfl⟩⟩ := begin_cases taken
    · exact ⟨count, left, by simp [goesOn, here]⟩
    · obtain ⟨idle, ⟨_, rfl⟩ | ⟨prop, first, rfl⟩⟩ := State.popBegin_cases begun
      · have same : threads.moveWorker worker
            (if (threads.sections.running worker).isSome then .executing else .entering) = threads := by
          simp [Threads.moveWorker, idle, ← here]
        rw [same]
        exact ⟨count, left, by simp [goesOn, here]⟩
      · have fewer : (threads.sections.take worker prop).queue.waitProps.length + 1 =
            threads.sections.queue.waitProps.length := by
          have member := List.mem_of_find?_eq_some first
          have long := List.length_pos_of_mem member
          simp only [State.take, withdraw, List.length_erase_of_mem member]
          omega
        obtain ⟨now, isLeft, spend⟩ := left.moveWorker worker
          (if ((threads.sections.take worker prop).running worker).isSome then .executing else .entering)
        refine ⟨now, isLeft, fun _ => (Nat.add_le_add_left (Bool.toNat_le _) now).trans (spend 1 ?_)⟩
        split <;> simp only [here, WorkerPc.left] <;> omega
  | popFinish worker =>
    obtain ⟨here, _, sections, finished, rfl⟩ := finish_cases taken
    obtain ⟨current, _, rfl⟩ := State.popFinish_cases finished
    obtain ⟨now, isLeft, spend⟩ := left.moveWorker worker .notifying
    exact ⟨now, isLeft, fun _ => spend 1 (by simp only [here, WorkerPc.left, popFinish]; omega)⟩
  | notifyNotFull worker woken =>
    obtain ⟨here, notFull, notified, rfl⟩ := notifyNotFull_cases taken
    obtain ⟨now, isLeft, spend⟩ := left.moveWorker worker .entering
    exact ⟨now, isLeft, fun _ => spend 1 (by simp only [here, WorkerPc.left]; omega)⟩
  | wakeCaller caller =>
    obtain ⟨notFull, _, rfl⟩ := wakeCaller_cases taken
    exact ⟨count, left, fun _ => Nat.le_refl _⟩
  | wakeWorker worker =>
    obtain ⟨notEmpty, _, rfl⟩ := wakeWorker_cases taken
    exact ⟨count, left, fun _ => Nat.le_refl _⟩

/-- The steps of a continuation that get somewhere are among those that were left. -/
theorem advances_le {more : List (ThreadAction P F W Q)} {final : Threads P F W Q}
    (path : Path (Taken next) threads more final) (resumes : ∀ action ∈ more, action.Resumes)
    (left : Left threads count) : ∃ now, Left final now ∧ now + threads.advances more ≤ count := by
  induction path generalizing count with
  | nil state => exact ⟨count, left, Nat.le_refl _⟩
  | @cons before second _ action more head _ ih =>
    obtain ⟨now, isLeft, spend⟩ := left_step left head
    obtain ⟨last, isLast, rest⟩ := ih (fun action member => resumes action (by simp [member])) isLeft
    have first := spend (resumes action (by simp))
    refine ⟨last, isLast, ?_⟩
    simp only [advances, show before.next action = some second from head]
    omega

end Bound

/-- After any run a number of steps is left, of which every continuation without new calls takes at
most so many that get somewhere, and until nothing waits and nobody is in a member function any
more, some thread can take such a step. -/
theorem drains_of_path [Nonempty W] (callable : ∀ action ∈ actions, action.Callable)
    (path : Path (Taken next) (init maxTaskCount : Threads P F W Q) actions threads) :
    ∃ bound, ∀ more final, Path (Taken next) threads more final → (∀ action ∈ more, action.Resumes) →
      threads.advances more ≤ bound ∧ (final.Finished ∨ final.CanGoOn) := by
  have kept {first last : Threads P F W Q} {run : List (ThreadAction P F W Q)}
      (start : Wired first ∧ Lively first ∧ ∃ count, Left first count)
      (path : Path (Taken next) first run last) (callable : ∀ action ∈ run, action.Callable) :
      Wired last ∧ Lively last ∧ ∃ count, Left last count := by
    refine (path.guard callable).invariant
      (fun threads => Wired threads ∧ Lively threads ∧ ∃ count, Left threads count) ?_ start
    rintro before action after ⟨wired, lively, count, left⟩ ⟨isCallable, taken⟩
    obtain ⟨now, isLeft, _⟩ := left_step left taken
    exact ⟨wired_step wired isCallable taken, lively_step lively wired taken, now, isLeft⟩
  have start : Wired (init maxTaskCount : Threads P F W Q) ∧ Lively (init maxTaskCount : Threads P F W Q) ∧
      ∃ count, Left (init maxTaskCount : Threads P F W Q) count :=
    ⟨init_wired, init_lively, _, 0, 0, .zero fun _ => rfl, .zero fun _ => rfl, rfl⟩
  obtain ⟨wired, lively, count, left⟩ := kept start path callable
  refine ⟨count, fun more final onward resumes => ⟨?_, ?_⟩⟩
  · obtain ⟨now, _, spent⟩ := advances_le onward resumes left
    omega
  · have plain : ∀ action ∈ more, action.Callable := by
      intro action member
      have isResumed := resumes action member
      cases action with
      | addTask caller prop func => cases isResumed
      | _ => trivial
    obtain ⟨wired, lively, _⟩ := kept ⟨wired, lively, count, left⟩ onward plain
    exact or_iff_not_imp_left.mpr (goes_on wired lively)

/-- One slot, a worker asleep and two callers: the second blocks on the full queue. -/
theorem drains_of_path_one_slot :
    ∃ threads : Threads Nat Nat (Fin 1) (Fin 2), ∃ bound, ∀ more final,
      Path (Taken next) threads more final → (∀ action ∈ more, action.Resumes) →
        threads.advances more ≤ bound ∧ (final.Finished ∨ final.CanGoOn) := by
  have runs : ∃ threads, threads ∈ exec next (init 1 : Threads Nat Nat (Fin 1) (Fin 2))
      [.popBegin 0, .addTask 0 1 (some 10), .lock 0, .push 0, .addTask 1 2 (some 11), .lock 1] :=
    Option.isSome_iff_exists.mp (by decide)
  obtain ⟨threads, ends⟩ := runs
  exact ⟨threads, drains_of_path (by decide) (exec_eq_some_iff.mp ends)⟩

end Threads

end BTool.TaskQueue.LastTaskQueue
