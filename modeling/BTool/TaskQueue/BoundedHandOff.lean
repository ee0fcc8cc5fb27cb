import BTool.TaskQueue.ParallelWakeup

/-! The bounded hand-off of a `SingleThreadParallelTaskQueue`: any number of producers, which
keep the lock through `add_task`, and one worker, which dequeues and notifies without it. -/

namespace BTool.TaskQueue.ParallelTaskQueue

open BTool.Foundation

variable {F Q : Type} [DecidableEq Q]

namespace Threads

variable {threads after : Threads F Q Unit} {action : ThreadAction F Q Unit}
  {maxTaskCount : UInt64} {actions : List (ThreadAction F Q Unit)}

/-- The producer sleeps on `m_cv_not_full`, or is about to. -/
def Blocked (threads : Threads F Q Unit) (producer : Q) : Prop :=
  producer ∈ threads.notFull.waiters ∨ threads.place (.inl producer) = .sleep

/-- The producer has been woken, or has the lock, and has still to test or to enqueue. -/
def Bound (threads : Threads F Q Unit) (producer : Q) : Prop :=
  (threads.place (.inl producer) = .asleep ∧ producer ∉ threads.notFull.waiters) ∨
    threads.place (.inl producer) = .test ∨ threads.sections.phase (.inl producer) = .acting

/-- A producer sleeps although there is room, the worker sleeps, and no notification is pending:
nobody has been woken and not tested yet, and nobody is on the way to notify the worker. -/
structure HandOffStuck (threads : Threads F Q Unit) : Prop where
  sleeper : ∃ producer, producer ∈ threads.notFull.waiters
  room : threads.tasks.notFull = true
  worker : () ∈ threads.notEmpty.waiters
  settled : ∀ producer, ¬ threads.Bound producer
  silent : ∀ producer, threads.sections.phase (.inl producer) ≠ .notifying

/-- A notification that finds no producer asleep is no loss: the queue still holds tasks, some
producer is bound to enqueue, or no producer is about to fall asleep. -/
def Unhurried (threads : Threads F Q Unit) : ThreadAction F Q Unit → Prop
  | .notifyNotFull _ none => threads.tasks.queue.items ≠ [] ∨ (∃ producer, threads.Bound producer) ∨
      ∀ producer, threads.place (.inl producer) ≠ .sleep
  | _ => True

instance (threads : Threads F Q Unit) (producer : Q) : Decidable (threads.Bound producer) := by
  unfold Bound
  infer_instance

instance [Fintype Q] [DecidableEq F] (threads : Threads F Q Unit) (action : ThreadAction F Q Unit) :
    Decidable (threads.Unhurried action) := by
  rcases action with _ | _ | _ | _ | _ | ⟨worker, _ | woken⟩ <;> unfold Unhurried <;> infer_instance

/-- A blocked producer has a task to be dequeued, a bound producer, or a notification to come. -/
def Fed (threads : Threads F Q Unit) : Prop :=
  (∃ producer, threads.Blocked producer) → threads.tasks.queue.items ≠ [] ∨
    (∃ producer, threads.Bound producer) ∨ threads.sections.phase (.inr ()) = .notifying

/-- The queue is within its maximum, and whoever is to enqueue still finds room. -/
structure Bounded (maxTaskCount : UInt64) (threads : Threads F Q Unit) : Prop where
  capacity : threads.tasks.maxTaskCount = maxTaskCount
  within : threads.tasks.queue.items.length ≤ maxTaskCount.toNat
  room : ∀ producer, threads.sections.phase (.inl producer) = .acting →
    threads.tasks.queue.items.length < maxTaskCount.toNat

end Threads

section Moves

variable {queue after : ParallelTaskQueue F} {first second : Phase}

theorem AddMove.capacity_eq (move : AddMove queue first after second) :
    after.maxTaskCount = queue.maxTaskCount := by
  cases move <;> rfl

theorem PopMove.capacity_eq (move : PopMove queue first after second) :
    after.maxTaskCount = queue.maxTaskCount := by
  cases move <;> rfl

/-- A worker only takes from the queue. -/
theorem PopMove.length_le (move : PopMove queue first after second) :
    after.queue.items.length ≤ queue.queue.items.length := by
  cases move with
  | take func rest taken => simp [(Journal.dequeue_cases taken).1]
  | _ => exact Nat.le_refl _

theorem PopMove.eq_of_silent (move : PopMove queue first after second) (silent : second ≠ .notifying) :
    after = queue := by
  cases move <;> first | rfl | exact absurd rfl silent

/-- A producer enqueues one task, and notifies next, or leaves the queue as it was. -/
theorem AddMove.length_cases (move : AddMove queue first after second) :
    (after = queue ∧ second ≠ .notifying) ∨
      (first = .acting ∧ second = .notifying ∧
        after.queue.items.length = queue.queue.items.length + 1) := by
  cases move with
  | push func => exact .inr ⟨rfl, rfl, by simp⟩
  | _ => exact .inl ⟨rfl, by simp⟩

end Moves

namespace Threads

variable {threads after : Threads F Q Unit} {action : ThreadAction F Q Unit}
  {maxTaskCount : UInt64} {actions : List (ThreadAction F Q Unit)} {thread : Q ⊕ Unit}

omit [DecidableEq Q] in
private theorem Bounded.keep (bounded : Bounded maxTaskCount threads)
    (same : after.tasks = threads.tasks)
    (acting : ∀ producer, after.sections.phase (.inl producer) = .acting →
      threads.sections.phase (.inl producer) = .acting ∨ threads.tasks.notFull = true)
    (limited : maxTaskCount ≠ 0) : Bounded maxTaskCount after where
  capacity := by rw [same, bounded.capacity]
  within := by rw [same]; exact bounded.within
  room := by
    intro producer acts
    rw [same]
    rcases acting producer acts with before | notFull
    · exact bounded.room producer before
    · have limited' : threads.tasks.maxTaskCount ≠ 0 := by rw [bounded.capacity]; exact limited
      exact bounded.capacity ▸ (notFull_iff limited').mp notFull

/-- Elsewhere than in its wait, only the producer that has the lock may fill the queue. -/
private theorem Bounded.act (bounded : Bounded maxTaskCount threads) (wired : Wired true threads)
    (limited : maxTaskCount ≠ 0) {phase : Phase}
    (unwaiting : threads.sections.phase thread ≠ .waiting)
    (move : Move threads.tasks thread (threads.sections.phase thread) after.tasks phase)
    (now : after.sections.phase = Function.update threads.sections.phase thread phase) :
    Bounded maxTaskCount after := by
  rcases thread with producer | worker
  · rcases move with move | _
    rcases move.length_cases with ⟨same, _⟩ | ⟨acting, notifying, grows⟩
    · refine bounded.keep same (fun other acts => .inl ?_) limited
      by_cases here : other = producer
      · subst here
        rw [now, Function.update_self] at acts
        have move' : Move threads.tasks (.inl other : Q ⊕ Unit) _ after.tasks phase := .add move
        exact move'.acting_of unwaiting (.inl acts)
      · have apart : (.inl other : Q ⊕ Unit) ≠ .inl producer := by simpa using here
        rwa [now, Function.update_of_ne apart] at acts
    · have room := bounded.room producer acting
      refine ⟨?_, by omega, fun other acts => ?_⟩
      · rw [move.capacity_eq, bounded.capacity]
      · have apart : (.inl other : Q ⊕ Unit) ≠ .inl producer := by
          intro here
          rw [here, now, Function.update_self, notifying] at acts
          cases acts
        rw [now, Function.update_of_ne apart] at acts
        have first : threads.Holds true (.inl other) := .inr (.inr ⟨rfl, rfl, .inl acts⟩)
        have second : threads.Holds true (.inl producer) := .inr (.inr ⟨rfl, rfl, .inl acting⟩)
        exact absurd (wired.alone first second) apart
  · rcases move with _ | move
    have shrinks := move.length_le
    refine ⟨?_, by have := bounded.within; omega, fun producer acts => ?_⟩
    · rw [move.capacity_eq, bounded.capacity]
    · have before := bounded.room producer (by simpa [now] using acts)
      omega

theorem Bounded.step (bounded : Bounded maxTaskCount threads) (wired : Wired true threads)
    (limited : maxTaskCount ≠ 0) (change : Change true threads action after) :
    Bounded maxTaskCount after := by
  -- a producer that is not the one to move acts just as before
  have others {phases : Q ⊕ Unit → Phase} {thread : Q ⊕ Unit} {phase : Phase}
      (now : phases = Function.update threads.sections.phase thread phase) (other : phase ≠ .acting)
      (producer : Q) (acts : phases (.inl producer) = .acting) :
      threads.sections.phase (.inl producer) = .acting := by
    by_cases here : .inl producer = thread
    · rw [now, here, Function.update_self] at acts
      exact absurd acts other
    · rwa [now, Function.update_of_ne here] at acts
  cases change with
  | callAdd producer func sections was same now =>
    exact bounded.keep same (fun other acts => .inl (others now (by simp) other acts)) limited
  | callPop worker sections was same now =>
    exact bounded.keep same (fun other acts => .inl (others now (by simp) other acts)) limited
  | step thread sections phase unwaiting silent inside move now =>
    exact bounded.act wired limited unwaiting move now
  | quit thread sections unwaiting silent move now =>
    exact bounded.act wired limited unwaiting move now
  | lock thread waits free place => exact bounded.keep rfl (fun _ => .inl) limited
  | enter thread sections waits place ready same now =>
    refine bounded.keep same (fun producer acts => ?_) limited
    by_cases here : .inl producer = thread
    · subst here
      exact .inr ready
    · left
      simpa [moveTo, now, here] using acts
  | fail thread waits place unready => exact bounded.keep rfl (fun _ => .inl) limited
  | sleep thread waits place =>
    exact bounded.keep (by simp [moveTo, unlock]) (fun _ acts => .inl (by simpa [moveTo, unlock] using acts))
      limited
  | notifyNotEmpty producer woken notEmpty sections was notified same now =>
    exact bounded.keep same (fun other acts => .inl (others now (by simp) other acts)) limited
  | notifyNotFull worker woken notFull sections phase was notified same final now =>
    refine bounded.keep same (fun other acts => .inl (others now ?_ other acts)) limited
    rcases final with rfl | rfl <;> simp

omit [DecidableEq Q] in
/-- A producer outside of its wait is bound only where it acts. -/
private theorem Wired.bound_iff (wired : Wired true threads) {producer : Q}
    (elsewhere : threads.sections.phase (.inl producer) ≠ .waiting) :
    threads.Bound producer ↔ threads.sections.phase (.inl producer) = .acting := by
  simp [Bound, wired.place_eq_lock elsewhere]

omit [DecidableEq Q] in
private theorem Fed.keep (fed : Fed threads) (blocked : ∀ producer, after.Blocked producer →
      ∃ other, threads.Blocked other)
    (items : threads.tasks.queue.items ≠ [] → after.tasks.queue.items ≠ [])
    (bound : ∀ producer, threads.Bound producer → after.Bound producer)
    (notifying : threads.sections.phase (.inr ()) = .notifying →
      after.sections.phase (.inr ()) = .notifying) : Fed after := by
  rintro ⟨producer, blocks⟩
  rcases fed (blocked producer blocks) with nonempty | ⟨other, binds⟩ | notifies
  · exact .inl (items nonempty)
  · exact .inr (.inl ⟨other, bound other binds⟩)
  · exact .inr (.inr (notifying notifies))

/-- Elsewhere than in its wait, a thread that makes a producer unbound has enqueued, and one
that takes a task is to notify. -/
private theorem Fed.act (fed : Fed threads) (wired : Wired true threads) {phase : Phase}
    (unwaiting : threads.sections.phase thread ≠ .waiting)
    (silent : threads.sections.phase thread ≠ .notifying)
    (move : Move threads.tasks thread (threads.sections.phase thread) after.tasks phase)
    (now : after.sections.phase = Function.update threads.sections.phase thread phase)
    (place : after.place = threads.place) (notFull : after.notFull = threads.notFull) : Fed after := by
  have blocked (producer : Q) (blocks : after.Blocked producer) : ∃ other, threads.Blocked other :=
    ⟨producer, by simpa [Blocked, place, notFull] using blocks⟩
  rcases thread with producer | worker
  · rcases move with move | _
    rcases move.length_cases with ⟨same, quiet⟩ | ⟨_, _, grows⟩
    · refine fed.keep blocked (by rw [same]; exact id) (fun other binds => ?_) (by simp [now])
      by_cases here : other = producer
      · subst here
        have acts := (wired.bound_iff unwaiting).mp binds
        rw [acts] at move
        have still : phase = .acting := by
          generalize after.tasks = tasks at move
          cases move with
          | test => rfl
          | push func => exact absurd rfl quiet
        exact .inr (.inr (by rw [now, Function.update_self, still]))
      · have apart : (.inl other : Q ⊕ Unit) ≠ .inl producer := by simpa using here
        simpa [Bound, place, notFull, now, apart] using binds
    · intro _
      left
      apply List.ne_nil_of_length_pos
      omega
  · by_cases notifies : phase = .notifying
    · intro _
      exact .inr (.inr (by rw [now, Function.update_self, notifies]))
    · refine fed.keep blocked ?_ (fun other binds => ?_) fun before => absurd before silent
      · rcases move with _ | move
        rw [move.eq_of_silent notifies]
        exact id
      · simpa [Bound, place, notFull, now] using binds

omit [DecidableEq Q] in
/-- Whoever acts elsewhere than in its wait is not among the bound producers. -/
private theorem Wired.still_bound [DecidableEq Q] (wired : Wired true threads) {producer other : Q}
    {phase : Phase} (unwaiting : threads.sections.phase (.inl producer) ≠ .waiting)
    (idle : threads.sections.phase (.inl producer) ≠ .acting)
    (now : after.sections.phase = Function.update threads.sections.phase (.inl producer) phase)
    (place : after.place = threads.place) (notFull : after.notFull = threads.notFull)
    (binds : threads.Bound other) : after.Bound other := by
  have apart : other ≠ producer := by
    rintro rfl
    exact idle ((wired.bound_iff unwaiting).mp binds)
  have differ : (.inl other : Q ⊕ Unit) ≠ .inl producer := by simpa using apart
  simpa [Bound, place, notFull, now, differ] using binds

theorem Fed.step (fed : Fed threads) (wired : Wired true threads)
    (bounded : Bounded maxTaskCount threads) (limited : maxTaskCount ≠ 0)
    (unhurried : threads.Unhurried action) (change : Change true threads action after) :
    Fed after := by
  cases change with
  | callAdd producer func sections was same now =>
    refine fed.keep (fun other blocks => ⟨other, blocks⟩) (by simp [tasks, same])
      (fun other binds => ?_) (by simp [now])
    exact wired.still_bound (by simp [was]) (by simp [was]) now rfl rfl binds
  | callPop worker sections was same now =>
    refine fed.keep (fun other blocks => ⟨other, blocks⟩) (by simp [tasks, same])
      (fun other binds => ?_) (fun notifies => ?_)
    · simpa [Bound, now] using binds
    · simp [was] at notifies
  | step thread sections phase unwaiting silent inside move now =>
    exact fed.act wired unwaiting silent move now rfl rfl
  | quit thread sections unwaiting silent move now =>
    exact fed.act wired unwaiting silent move now rfl rfl
  | lock thread waits free place =>
    rcases thread with producer | worker
    · intro _
      exact .inr (.inl ⟨producer, .inr (.inl (Function.update_self ..))⟩)
    · refine fed.keep (fun other blocks => ⟨other, ?_⟩) id (fun other binds => ?_) id
      · simpa [Blocked, moveTo] using blocks
      · simpa [Bound, moveTo] using binds
  | enter thread sections waits place ready same now =>
    rcases thread with producer | worker
    · intro _
      exact .inr (.inl ⟨producer, .inr (.inr (by simp [moveTo, now]))⟩)
    · refine fed.keep (fun other blocks => ⟨other, ?_⟩) (by simp [moveTo, tasks, same])
        (fun other binds => ?_) (fun notifies => ?_)
      · simpa [Blocked, moveTo] using blocks
      · simpa [Bound, moveTo, now] using binds
      · simp [waits] at notifies
  | fail thread waits place unready =>
    rcases thread with producer | worker
    · intro _
      left
      have capacity := bounded.capacity
      have limited' : threads.tasks.maxTaskCount ≠ 0 := by rw [capacity]; exact limited
      have full : ¬ threads.tasks.queue.items.length < threads.tasks.maxTaskCount.toNat := by
        rw [← notFull_iff limited']
        simpa [State.ready] using unready
      have positive : threads.tasks.maxTaskCount.toNat ≠ 0 := by
        intro zero
        exact limited' (UInt64.toNat_inj.mp zero)
      have nonempty : 0 < threads.tasks.queue.items.length := by omega
      exact List.ne_nil_of_length_pos nonempty
    · refine fed.keep (fun other blocks => ⟨other, ?_⟩) id (fun other binds => ?_) id
      · simpa [Blocked, moveTo] using blocks
      · simpa [Bound, moveTo] using binds
  | sleep thread waits place =>
    rcases thread with producer | worker
    · refine fed.keep (fun _ _ => ⟨producer, .inr place⟩) id (fun other binds => ?_) id
      have apart : other ≠ producer := by
        rintro rfl
        simp [Bound, place, waits] at binds
      simpa [Bound, moveTo, unlock, fallAsleep, apart] using binds
    · refine fed.keep (fun other blocks => ⟨other, ?_⟩) id (fun other binds => ?_) id
      · simpa [Blocked, moveTo, unlock, fallAsleep] using blocks
      · simpa [Bound, moveTo, unlock, fallAsleep] using binds
  | notifyNotEmpty producer woken notEmpty sections was notified same now =>
    refine fed.keep (fun other blocks => ⟨other, blocks⟩) (by simp [tasks, unlock, same])
      (fun other binds => ?_) (by simp [unlock, now])
    exact wired.still_bound (by simp [was]) (by simp [was]) now rfl rfl binds
  | notifyNotFull worker woken notFull sections phase was notified same final now =>
    rcases CondVar.notifyOne_cases notified with ⟨rfl, nobody, rfl⟩ | ⟨sleeper, rfl, asleep, fewer⟩
    · rintro ⟨producer, blocks⟩
      rcases unhurried with nonempty | ⟨other, binds⟩ | nowhere
      · exact .inl (by simpa [tasks, same] using nonempty)
      · exact .inr (.inl ⟨other, by simpa [Bound, now] using binds⟩)
      · rcases blocks with asleep | sleeps
        · simp [nobody] at asleep
        · exact absurd sleeps (nowhere producer)
    · intro _
      have place := wired.asleep (.inl sleeper) asleep
      exact .inr (.inl ⟨sleeper, .inl ⟨place, by simp [fewer]⟩⟩)

omit [DecidableEq Q] in
theorem init_bounded : Bounded maxTaskCount (init maxTaskCount : Threads F Q Unit) where
  capacity := rfl
  within := Nat.zero_le _
  room := by
    intro producer acts
    simp [init, State.init, State.phase, AddStage.phase] at acts

omit [DecidableEq Q] in
theorem init_fed : Fed (init maxTaskCount : Threads F Q Unit) := by
  rintro ⟨producer, blocks⟩
  simp [Blocked, init, CondVar.empty] at blocks

theorem bounded_of_path (limited : maxTaskCount ≠ 0)
    (path : Path (Taken (next true)) (init maxTaskCount) actions threads) :
    Wired true threads ∧ Bounded maxTaskCount threads := by
  refine path.invariant (fun threads => Wired true threads ∧ Bounded maxTaskCount threads) ?_
    ⟨init_wired maxTaskCount, init_bounded⟩
  intro before action after ⟨wired, bounded⟩ taken
  have change := next_change wired.opened taken
  exact ⟨wired.step change, bounded.step wired limited change⟩

theorem attended_of_kept (path : Path (Taken (next true)) (init maxTaskCount) actions threads) :
    Attended threads := by
  apply attended_of_path
  apply path.guarded_of_invariant (Wired true)
  · exact fun _ _ _ wired taken => wired.step (next_change wired.opened taken)
  · exact fun _ _ _ wired taken => wired.lossless_of_kept () (next_change wired.opened taken)
  · exact init_wired maxTaskCount

theorem fed_of_path (limited : maxTaskCount ≠ 0)
    (path : Path (Guarded (Taken (next true)) Unhurried) (init maxTaskCount) actions threads) :
    Fed threads := by
  have all := path.invariant
    (fun threads => (Wired true threads ∧ Bounded maxTaskCount threads) ∧ Fed threads)
    (fun _ _ _ ⟨⟨wired, bounded⟩, fed⟩ ⟨unhurried, taken⟩ =>
      have change := next_change wired.opened taken
      ⟨⟨wired.step change, bounded.step wired limited change⟩,
        fed.step wired bounded limited unhurried change⟩)
    ⟨⟨init_wired maxTaskCount, init_bounded⟩, init_fed⟩
  exact all.2

/-- The queue of a `SingleThreadParallelTaskQueue` stays within its maximum in every run, and in
a run whose notifications are all unhurried no producer is left asleep beside an idle worker. -/
theorem hand_off_of_unhurried (limited : maxTaskCount ≠ 0) :
    (∀ (actions : List (ThreadAction F Q Unit)) threads,
      Path (Taken (next true)) (init maxTaskCount) actions threads →
      threads.tasks.size ≤ maxTaskCount.toNat) ∧
    ∀ (actions : List (ThreadAction F Q Unit)) threads,
      Path (Guarded (Taken (next true)) Unhurried) (init maxTaskCount) actions threads →
      ¬ threads.HandOffStuck := by
  refine ⟨fun actions threads path => (bounded_of_path limited path).2.within, ?_⟩
  intro actions threads path stuck
  have free : Path (Taken (next true)) (init maxTaskCount) actions threads :=
    path.mono fun _ _ _ step => step.2
  have wired := (bounded_of_path limited free).1
  obtain ⟨sleeper, asleep⟩ := stuck.sleeper
  rcases fed_of_path limited path ⟨sleeper, .inl asleep⟩ with nonempty | ⟨producer, binds⟩ | notifies
  · rcases attended_of_kept free nonempty with ⟨worker, up⟩ | ⟨producer, notifies⟩
    · exact up.1 stuck.worker
    · exact stuck.silent producer notifies
  · exact stuck.settled producer binds
  · have place := wired.asleep (.inr ()) stuck.worker
    have waits := wired.waiting (.inr ()) (by simp [place])
    simp [waits] at notifies

/-- A task is added to a queue with a maximum of one, and taken while the next is waited for. -/
def handOver : List (ThreadAction Nat (Fin 1) Unit) :=
  List.flatten
    [[.callAdd 0 (some 5), .step (.inl 0)], List.replicate 2 (.wait (.inl 0)),
      List.replicate 2 (.step (.inl 0)), [.notifyNotEmpty 0 none, .callPop (), .step (.inr ())],
      List.replicate 2 (.wait (.inr ())), [.step (.inr ()), .callAdd 0 (some 6), .step (.inl 0)],
      List.replicate 2 (.wait (.inl 0))]

/-- The producer falls asleep before the worker notifies it. -/
def soonEnough : List (ThreadAction Nat (Fin 1) Unit) :=
  handOver ++ [.wait (.inl 0), .step (.inr ()), .notifyNotFull () (some 0), .step (.inr ())]

theorem hand_off_soon_enough :
    ∃ threads, Path (Guarded (Taken (next true)) Unhurried) (init 1) soonEnough threads ∧
      threads.tasks.size ≤ (1 : UInt64).toNat ∧ ¬ threads.HandOffStuck := by
  have runs : (exec (checked (next true) Unhurried) (init 1) soonEnough).isSome = true := by
    decide
  obtain ⟨threads, ends⟩ := Option.isSome_iff_exists.mp runs
  have path := Path.of_checked ends
  have free : Path (Taken (next true)) (init 1) soonEnough threads :=
    path.mono fun _ _ _ step => step.2
  exact ⟨threads, path, (hand_off_of_unhurried (by decide)).1 _ _ free,
    (hand_off_of_unhurried (by decide)).2 _ _ path⟩

/-- The worker notifies before the producer falls asleep, and waits for the next task. -/
def tooLate : List (ThreadAction Nat (Fin 1) Unit) :=
  handOver ++ List.flatten
    [[.step (.inr ()), .notifyNotFull () none, .step (.inr ()), .wait (.inl 0), .callPop (),
      .step (.inr ())], List.replicate 3 (.wait (.inr ()))]

theorem hand_off_stuck_too_late :
    ∃ threads : Threads Nat (Fin 1) Unit,
      Path (Taken (next true)) (init 1) tooLate threads ∧ threads.HandOffStuck := by
  have runs : ∃ threads ∈ exec (next true) (init 1) tooLate,
      0 ∈ threads.notFull.waiters ∧ threads.tasks.notFull = true ∧ () ∈ threads.notEmpty.waiters ∧
        (∀ producer, ¬ threads.Bound producer) ∧
        ∀ producer, threads.sections.phase (.inl producer) ≠ .notifying := by
    decide
  obtain ⟨threads, ends, sleeper, room, worker, settled, silent⟩ := runs
  exact ⟨threads, exec_eq_some_iff.mp ends, ⟨0, sleeper⟩, room, worker, settled, silent⟩

end Threads

end BTool.TaskQueue.ParallelTaskQueue
