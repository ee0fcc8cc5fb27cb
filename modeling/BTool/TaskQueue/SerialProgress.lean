import BTool.TaskQueue.SerialThreads

/-! No wake-up is lost: a begin section frees a slot that is announced only by the finish
section, and a finish section readies a property without waking anybody, yet there is
always somebody awake to go on. -/

namespace BTool.TaskQueue.SerialTaskQueue

open BTool.Foundation

variable {P F W Q : Type} [DecidableEq P] [DecidableEq F] [DecidableEq W] [DecidableEq Q]
  {threads after : Threads P F W Q} {action : ThreadAction P F W Q} {held : Finset P}
  {maxTaskCount : UInt64} {actions : List (ThreadAction P F W Q)} {worker : W} {producer : Q}

/-- Only callable functions are added. -/
def ThreadAction.Callable : ThreadAction P F W Q → Prop
  | .call _ _ func => func.isSome = true
  | _ => True

instance (action : ThreadAction P F W Q) : Decidable action.Callable := by
  cases action <;> unfold ThreadAction.Callable <;> infer_instance

namespace Threads

/-- Every thread that has work is asleep, while a task waits or a producer is blocked. -/
structure Stuck (threads : Threads P F W Q) : Prop where
  workers : ∀ worker, worker ∈ threads.notEmpty.waiters
  producers : ∀ producer, threads.producer producer = .outside ∨
    producer ∈ threads.notFull.waiters
  work : threads.sections.pending ≠ [] ∨ ∃ producer, producer ∈ threads.notFull.waiters

/-- Sleepers are where they sleep, the executing workers are those that the queue knows,
and nobody carries an empty function. -/
structure Wired (threads : Threads P F W Q) : Prop where
  executing : ∀ worker, (threads.sections.running worker).isSome = true ↔
    threads.worker worker = .executing
  worker : ∀ worker ∈ threads.notEmpty.waiters, threads.worker worker = .entering
  producer : ∀ producer ∈ threads.notFull.waiters,
    ∃ prop func, threads.producer producer = .slow prop func
  callable : ∀ producer func, (threads.producer producer).func = some func → func.isSome = true

/-- A worker is awake, or a producer is about to wake one. -/
def WorkerUp (threads : Threads P F W Q) : Prop :=
  (∃ worker, worker ∉ threads.notEmpty.waiters) ∨
    ∃ producer, threads.producer producer = .notifying

/-- A task waits, a worker is on its way to announce a free slot, or a producer is awake
in the slow path. -/
def ProducerUp (threads : Threads P F W Q) : Prop :=
  threads.sections.pending ≠ [] ∨ (∃ worker, threads.worker worker ≠ .entering) ∨
    ∃ producer prop func, threads.producer producer = .slow prop func ∧
      producer ∉ threads.notFull.waiters

/-- Whenever a worker could go on, somebody sees to it, and so for blocked producers. -/
structure Lively (threads : Threads P F W Q) : Prop where
  workers : threads.queue.notEmpty = true → threads.WorkerUp
  producers : ∀ producer ∈ threads.notFull.waiters, threads.ProducerUp

omit [DecidableEq F] [DecidableEq W] [DecidableEq Q] in
theorem init_wired : Wired (init maxTaskCount : Threads P F W Q) where
  executing := by simp [init, State.init]
  worker := by simp [init, CondVar.empty]
  producer := by simp [init, CondVar.empty]
  callable := by simp [init, ProducerPc.func]

omit [DecidableEq F] [DecidableEq W] in
/-- Moving one producer keeps the wiring when its new place is in order. -/
private theorem Wired.moveProducer (wired : Wired threads) {pc : ProducerPc P F}
    (awake : producer ∉ threads.notFull.waiters)
    (callable : ∀ func, pc.func = some func → func.isSome = true) :
    Wired (threads.moveProducer producer pc) where
  executing := wired.executing
  worker := wired.worker
  producer := by
    intro other asleep
    have apart : other ≠ producer := by
      rintro rfl
      exact awake asleep
    obtain ⟨prop, func, here⟩ := wired.producer other asleep
    exact ⟨prop, func, by simpa [Threads.moveProducer, apart] using here⟩
  callable := by
    intro other func carries
    by_cases here : other = producer
    · subst here
      simp only [Threads.moveProducer, Function.update_self] at carries
      exact callable func carries
    · simp only [Threads.moveProducer, Function.update_of_ne here] at carries
      exact wired.callable other func carries

omit [DecidableEq F] [DecidableEq W] [DecidableEq Q] in
private theorem Wired.awake_of_ne_slow (wired : Wired threads)
    (notSlow : ∀ prop func, threads.producer producer ≠ .slow prop func) :
    producer ∉ threads.notFull.waiters := by
  intro asleep
  obtain ⟨prop, func, here⟩ := wired.producer producer asleep
  exact notSlow prop func here

omit [DecidableEq F] [DecidableEq W] [DecidableEq Q] in
private theorem Wired.awake_of_ne_entering (wired : Wired threads)
    (busy : threads.worker worker ≠ .entering) : worker ∉ threads.notEmpty.waiters :=
  fun asleep => busy (wired.worker worker asleep)

omit [DecidableEq F] [DecidableEq W] in
private theorem Wired.accept (wired : Wired threads) {prop : P} {func : TaskItem F}
    (awake : producer ∉ threads.notFull.waiters) :
    Wired ({ threads with sections := threads.sections.accept prop func }.moveProducer producer
      .notifying) := by
  have added : Wired { threads with sections := threads.sections.accept prop func } :=
    ⟨wired.executing, wired.worker, wired.producer, wired.callable⟩
  exact added.moveProducer awake (by simp [ProducerPc.func])

omit [DecidableEq F] [DecidableEq Q] in
/-- Moving one worker, with its section if it goes through one. -/
private theorem Wired.moveWorker (wired : Wired threads) {sections : State P F W}
    {notFull : CondVar Q} {pc : WorkerPc} (awake : worker ∉ threads.notEmpty.waiters)
    (others : ∀ other, other ≠ worker →
      (sections.running other).isSome = (threads.sections.running other).isSome)
    (here : (sections.running worker).isSome = true ↔ pc = .executing)
    (fewer : notFull.waiters ⊆ threads.notFull.waiters) :
    Wired ({ threads with sections, notFull }.moveWorker worker pc) where
  executing := by
    intro other
    by_cases same : other = worker
    · subst same
      simpa [Threads.moveWorker] using here
    · simpa [Threads.moveWorker, same, others other same] using wired.executing other
  worker := by
    intro other asleep
    have apart : other ≠ worker := by
      rintro rfl
      exact awake asleep
    simpa [Threads.moveWorker, apart] using wired.worker other asleep
  producer := fun other asleep => wired.producer other (fewer asleep)
  callable := wired.callable

theorem wired_step (wired : Wired threads) (opened : threads.queue.bstop = false)
    (callable : action.Callable) (taken : threads.next action = some after) : Wired after := by
  cases action with
  | call producer prop func =>
    obtain ⟨here, rfl | rfl⟩ := call_cases taken
    · exact wired
    · apply wired.moveProducer (wired.awake_of_ne_slow (by simp [here]))
      intro func' carries
      cases carries
      exact callable
  | fastTest producer =>
    obtain ⟨prop, func, here, rfl⟩ := fastTest_cases taken
    have isCallable := wired.callable producer func (by rw [here]; rfl)
    apply wired.moveProducer (wired.awake_of_ne_slow (by simp [here]))
    intro func' carries
    split at carries <;> cases carries <;> exact isCallable
  | tryLock producer locked =>
    obtain ⟨prop, func, here, ⟨_, pushed⟩ | ⟨_, rfl⟩⟩ := tryLock_cases taken
    · obtain ⟨_, rfl⟩ := push_cases opened pushed
      exact wired.accept (wired.awake_of_ne_slow (by simp [here]))
    · have isCallable := wired.callable producer func (by rw [here]; rfl)
      apply wired.moveProducer (wired.awake_of_ne_slow (by simp [here]))
      intro func' carries
      cases carries
      exact isCallable
  | lock producer =>
    obtain ⟨prop, func, here, awake, ⟨_, pushed⟩ | ⟨_, rfl⟩⟩ := lock_cases opened taken
    · obtain ⟨_, rfl⟩ := push_cases opened pushed
      exact wired.accept awake
    · refine ⟨wired.executing, wired.worker, ?_, wired.callable⟩
      intro other asleep
      rcases CondVar.waiters_wait.mp asleep with rfl | before
      · exact ⟨prop, func, here⟩
      · exact wired.producer other before
  | notifyNotEmpty producer woken =>
    obtain ⟨here, notEmpty, notified, rfl⟩ := notifyNotEmpty_cases taken
    have fewer := CondVar.notifyOne_subset notified
    have woke : Wired { threads with notEmpty } :=
      ⟨wired.executing, fun other asleep => wired.worker other (fewer asleep), wired.producer,
        wired.callable⟩
    exact woke.moveProducer (wired.awake_of_ne_slow (by simp [here])) (by simp [ProducerPc.func])
  | popBegin worker =>
    obtain ⟨here, awake, ⟨_, rfl⟩ | ⟨sections, begun, rfl⟩⟩ := begin_cases taken
    · refine ⟨wired.executing, ?_, wired.producer, wired.callable⟩
      intro other asleep
      rcases CondVar.waiters_wait.mp asleep with rfl | before
      · exact here
      · exact wired.worker other before
    · refine wired.moveWorker awake (fun other apart => State.isSome_running_popBegin begun apart) ?_
        (Finset.Subset.refl _)
      cases (sections.running worker).isSome <;> simp
  | popFinish worker =>
    obtain ⟨here, sections, finished, rfl⟩ := finish_cases taken
    have running := State.isSome_running_popFinish finished
    refine wired.moveWorker (wired.awake_of_ne_entering (by simp [here])) ?_ ?_
      (Finset.Subset.refl _)
    · intro other apart
      simp [running, apart]
    · simp [running]
  | notifyNotFull worker woken =>
    obtain ⟨here, notFull, notified, rfl⟩ := notifyNotFull_cases taken
    refine wired.moveWorker (wired.awake_of_ne_entering (by simp [here])) (fun _ _ => rfl) ?_
      (CondVar.notifyOne_subset notified)
    simp [wired.executing, here]

/-- The queue stays settled: the threads add callable functions only. -/
theorem settled_step (settled : Settled threads.sections held) (wired : Wired threads)
    (taken : threads.next action = some after) : ∃ held, Settled after.sections held := by
  rcases sections_of_next settled.opened taken with same | ⟨inner, stepped, which⟩
  · exact ⟨held, same ▸ settled⟩
  · have plain : inner.Plain := by
      rcases which with ⟨worker, rfl | rfl⟩ | ⟨producer, prop, func, carries, rfl⟩
      · trivial
      · trivial
      · exact wired.callable producer func carries
    exact ⟨_, settled.step plain stepped⟩

omit [DecidableEq F] [DecidableEq W] [DecidableEq Q] in
/-- A queue that is full has a waiting task. -/
private theorem pending_of_full (steady : Steady threads.sections held)
    (full : threads.queue.notFull = false) : threads.sections.pending ≠ [] := by
  intro nothing
  have count : threads.queue.approxSize = 0 := by
    rw [show threads.queue.approxSize = _ from steady.counted, nothing]
    rfl
  simp only [SerialTaskQueue.notFull, count, Bool.or_eq_false_iff, decide_eq_false_iff_not,
    UInt64.lt_iff_toNat_lt] at full
  have zero : threads.queue.maxTaskCount.toNat = 0 := by
    have bound := full.2
    simp only [UInt64.toNat_zero] at bound
    omega
  exact full.1 (UInt64.toNat_inj.mp zero)

omit [DecidableEq F] [DecidableEq W] in
/-- Queue, workers and sleeping producers unchanged, a producer may move outside the slow
path. -/
private theorem Lively.moveProducer (lively : Lively threads) {pc : ProducerPc P F}
    (notSlow : ∀ prop func, threads.producer producer ≠ .slow prop func)
    (notNotifying : threads.producer producer ≠ .notifying) :
    Lively (threads.moveProducer producer pc) where
  workers := by
    intro runnable
    rcases lively.workers runnable with awake | ⟨other, notifies⟩
    · exact .inl awake
    · have apart : other ≠ producer := by
        rintro rfl
        exact notNotifying notifies
      exact .inr ⟨other, by simpa [Threads.moveProducer, apart] using notifies⟩
  producers := by
    intro other asleep
    rcases lively.producers other asleep with waits | announces | ⟨slow, prop, func, here, awake⟩
    · exact .inl waits
    · exact .inr (.inl announces)
    · have apart : slow ≠ producer := by
        rintro rfl
        exact notSlow prop func here
      exact .inr (.inr ⟨slow, prop, func, by simpa [Threads.moveProducer, apart] using here, awake⟩)

omit [DecidableEq F] [DecidableEq W] in
/-- After a push a task waits and its producer is about to wake a worker. -/
private theorem lively_accept {prop : P} {func : TaskItem F} :
    Lively ({ threads with sections := threads.sections.accept prop func }.moveProducer producer
      .notifying) where
  workers := fun _ => .inr ⟨producer, by simp [Threads.moveProducer]⟩
  producers := fun _ _ => .inl (by simp [Threads.moveProducer, State.accept])

omit [DecidableEq Q] in
/-- In an open queue with callable functions, a worker that does not sleep gets a task. -/
private theorem isSome_running_take (settled : Settled threads.sections held)
    {sections : State P F W} (begun : threads.sections.next (.popBegin worker) = some sections) :
    (sections.running worker).isSome = true := by
  obtain ⟨_, ⟨returns, _⟩ | ⟨prop, func, queue, takes, rfl⟩⟩ := State.popBegin_cases begun
  · have opened := settled.opened
    rw [(popBegin_returns returns).1] at opened
    cases opened
  · obtain ⟨first, _⟩ := settled.consistent.tracks.popBegin takes
    have callable := settled.carried.callable _ (List.mem_of_find?_eq_some first)
    simpa [State.take] using callable

theorem lively_step [Nonempty W] (lively : Lively threads) (wired : Wired threads)
    (settled : Settled threads.sections held) (taken : threads.next action = some after) :
    Lively after := by
  have opened := settled.opened
  cases action with
  | call producer prop func =>
    obtain ⟨here, rfl | rfl⟩ := call_cases taken
    · exact lively
    · exact lively.moveProducer (by simp [here]) (by simp [here])
  | fastTest producer =>
    obtain ⟨prop, func, here, rfl⟩ := fastTest_cases taken
    exact lively.moveProducer (by simp [here]) (by simp [here])
  | tryLock producer locked =>
    obtain ⟨prop, func, here, ⟨_, pushed⟩ | ⟨_, rfl⟩⟩ := tryLock_cases taken
    · obtain ⟨_, rfl⟩ := push_cases opened pushed
      exact lively_accept
    · exact lively.moveProducer (by simp [here]) (by simp [here])
  | lock producer =>
    obtain ⟨prop, func, here, awake, ⟨_, pushed⟩ | ⟨full, rfl⟩⟩ := lock_cases opened taken
    · obtain ⟨_, rfl⟩ := push_cases opened pushed
      exact lively_accept
    · have waits := pending_of_full settled.toSteady full
      exact ⟨lively.workers, fun _ _ => .inl waits⟩
  | notifyNotEmpty producer woken =>
    obtain ⟨here, notEmpty, notified, rfl⟩ := notifyNotEmpty_cases taken
    have up : ∃ worker, worker ∉ notEmpty.waiters := by
      rcases CondVar.notifyOne_cases notified with ⟨_, nobody, rfl⟩ | ⟨sleeper, _, _, same⟩
      · obtain ⟨worker⟩ := ‹Nonempty W›
        exact ⟨worker, by simp [nobody]⟩
      · exact ⟨sleeper, by simp [same]⟩
    refine ⟨fun _ => .inl up, ?_⟩
    intro other asleep
    rcases lively.producers other asleep with waits | announces | ⟨slow, prop, func, at_slow, awake⟩
    · exact .inl waits
    · exact .inr (.inl announces)
    · have apart : slow ≠ producer := by
        rintro rfl
        simp [here] at at_slow
      refine .inr (.inr ⟨slow, prop, func, ?_, awake⟩)
      simpa [Threads.moveProducer, apart] using at_slow
  | popBegin worker =>
    obtain ⟨here, awake, ⟨waits, rfl⟩ | ⟨sections, begun, rfl⟩⟩ := begin_cases taken
    · have nothing : threads.queue.notEmpty = false := (popBegin_waits waits).2
      refine ⟨fun runnable => ?_, lively.producers⟩
      rw [show (Threads.queue _).notEmpty = _ from nothing] at runnable
      cases runnable
    · refine ⟨fun _ => .inl ⟨worker, awake⟩, fun _ _ => .inr (.inl ⟨worker, ?_⟩)⟩
      have runs := isSome_running_take settled begun
      simp [Threads.moveWorker, runs]
  | popFinish worker =>
    obtain ⟨here, sections, finished, rfl⟩ := finish_cases taken
    have awake : worker ∉ threads.notEmpty.waiters := wired.awake_of_ne_entering (by simp [here])
    exact ⟨fun _ => .inl ⟨worker, awake⟩,
      fun _ _ => .inr (.inl ⟨worker, by simp [Threads.moveWorker]⟩)⟩
  | notifyNotFull worker woken =>
    obtain ⟨here, notFull, notified, rfl⟩ := notifyNotFull_cases taken
    have awake : worker ∉ threads.notEmpty.waiters := wired.awake_of_ne_entering (by simp [here])
    refine ⟨fun _ => .inl ⟨worker, awake⟩, ?_⟩
    intro producer asleep
    rcases CondVar.notifyOne_cases notified with ⟨_, nobody, rfl⟩ | ⟨sleeper, _, slept, same⟩
    · simp [Threads.moveWorker, nobody] at asleep
    · obtain ⟨prop, func, at_slow⟩ := wired.producer sleeper slept
      exact .inr (.inr ⟨sleeper, prop, func, at_slow, by simp [Threads.moveWorker, same]⟩)

omit [DecidableEq F] [DecidableEq W] [DecidableEq Q] in
theorem init_lively [Nonempty W] : Lively (init maxTaskCount : Threads P F W Q) where
  workers := by
    obtain ⟨worker⟩ := ‹Nonempty W›
    exact fun _ => .inl ⟨worker, by simp [init, CondVar.empty]⟩
  producers := by simp [init, CondVar.empty]

omit [DecidableEq F] [DecidableEq W] [DecidableEq Q] in
/-- With every thread asleep nobody is executing, so a waiting task could start, and somebody
would have been awake for it. -/
theorem Lively.not_stuck (lively : Lively threads) (wired : Wired threads)
    (settled : Settled threads.sections held) : ¬ threads.Stuck := by
  intro stuck
  have waits : threads.sections.pending ≠ [] := by
    rcases stuck.work with waits | ⟨producer, asleep⟩
    · exact waits
    · rcases lively.producers producer asleep with waits | ⟨worker, busy⟩ | ⟨slow, prop, func, here, awake⟩
      · exact waits
      · exact absurd (stuck.workers worker) (wired.awake_of_ne_entering busy)
      · rcases stuck.producers slow with outside | sleeping
        · simp [here] at outside
        · exact absurd sleeping awake
  have idle : threads.queue.curProps = ∅ := by
    refine Finset.eq_empty_of_forall_notMem fun prop inside => ?_
    obtain ⟨worker, current, isRunning, _, _⟩ := settled.carried.carried prop (settled.covered inside)
    have executes := (wired.executing worker).mp (by simp [isRunning])
    simp [wired.worker worker (stuck.workers worker)] at executes
  have runnable : threads.queue.notEmpty = true := by
    obtain ⟨entry, member⟩ := List.exists_mem_of_ne_nil _ waits
    refine (settled.consistent.tracks.notEmpty_iff settled.covered).mpr ⟨entry.1, ?_, ?_⟩
    · exact List.mem_map.mpr ⟨entry, member, rfl⟩
    · simp [show threads.sections.queue.curProps = ∅ from idle]
  rcases lively.workers runnable with ⟨worker, awake⟩ | ⟨producer, notifies⟩
  · exact awake (stuck.workers worker)
  · rcases stuck.producers producer with outside | sleeping
    · simp [notifies] at outside
    · exact wired.awake_of_ne_slow (by simp [notifies]) sleeping

/-- However producers and workers interleave, and whichever sleeper a notification wakes,
they never all sleep over a waiting task or a blocked producer. -/
theorem never_stuck [Nonempty W]
    (path : Path (Taken Threads.next) (init maxTaskCount : Threads P F W Q) actions threads)
    (callable : ∀ action ∈ actions, action.Callable) : ¬ threads.Stuck := by
  obtain ⟨⟨held, settled⟩, wired, lively⟩ := (path.guard callable).invariant
    (fun threads => (∃ held, Settled threads.sections held) ∧ Wired threads ∧ Lively threads)
    (fun before action after ⟨⟨held, settled⟩, wired, lively⟩ ⟨isCallable, taken⟩ =>
      ⟨settled_step settled wired taken, wired_step wired settled.opened isCallable taken,
        lively_step lively wired settled taken⟩)
    ⟨⟨∅, init_settled⟩, init_wired, init_lively⟩
  exact lively.not_stuck wired settled

/-- One slot, one worker asleep on the empty queue and two producers: the worker is woken,
one producer blocks on the full queue, and it can go on after the first finish. -/
theorem never_stuck_one_slot :
    ∃ threads, Path (Taken Threads.next) (init 1 : Threads Nat Nat (Fin 1) (Fin 2))
      [.popBegin 0, .call 0 1 (some 10), .fastTest 0, .tryLock 0 true, .call 1 1 (some 11),
        .fastTest 1, .lock 1] threads ∧ ¬ threads.Stuck := by
  have runs : ∃ threads, threads ∈ exec Threads.next (init 1 : Threads Nat Nat (Fin 1) (Fin 2))
      [.popBegin 0, .call 0 1 (some 10), .fastTest 0, .tryLock 0 true, .call 1 1 (some 11),
        .fastTest 1, .lock 1] := by
    exact Option.isSome_iff_exists.mp (by decide)
  obtain ⟨threads, ends⟩ := runs
  have path := exec_eq_some_iff.mp ends
  exact ⟨threads, path, never_stuck path (by decide)⟩

end Threads

end BTool.TaskQueue.SerialTaskQueue
