import Mathlib.Data.Fintype.Basic
import BTool.Foundation.Transition
import BTool.TaskQueue.ParallelThreads

/-! Wake-ups on the consumer side of a `ParallelTaskQueue`.

A producer enqueues and notifies without the lock, so its notification may come after a
worker has found the queue empty and before that worker has fallen asleep. -/

namespace BTool.TaskQueue.ParallelTaskQueue

open BTool.Foundation

variable {F Q W : Type} [DecidableEq Q] [DecidableEq W]

namespace Threads

/-- There are tasks, and everybody who could see to them sleeps or is outside. -/
structure Stuck (threads : Threads F Q W) : Prop where
  nonempty : threads.tasks.queue.items ≠ []
  opened : threads.tasks.bstop = false
  sleeper : ∃ worker, worker ∈ threads.notEmpty.waiters
  workers : ∀ worker, worker ∈ threads.notEmpty.waiters
  producers : ∀ producer, threads.sections.adding producer = .outside

/-- The worker will test the queue again. -/
def Up (threads : Threads F Q W) (worker : W) : Prop :=
  ¬ threads.Asleep (.inr worker) ∧ threads.place (.inr worker) ≠ .sleep

/-- A notification that finds no worker asleep is no loss: the queue is empty again, another
producer has still to notify, or some worker is not about to fall asleep. -/
def Lossless (threads : Threads F Q W) : ThreadAction F Q W → Prop
  | .notifyNotEmpty producer none => threads.tasks.queue.items = [] ∨
      (∃ other, other ≠ producer ∧ threads.sections.adding other = .notify) ∨
      ∃ worker, threads.place (.inr worker) ≠ .sleep
  | _ => True

instance [Fintype Q] [Fintype W] [DecidableEq F] (threads : Threads F Q W)
    (action : ThreadAction F Q W) : Decidable (threads.Lossless action) := by
  rcases action with _ | _ | _ | _ | ⟨producer, _ | woken⟩ | _ <;> unfold Lossless <;> infer_instance

/-- A worker whose test has failed falls asleep before anything else happens. -/
def AtOnce (threads : Threads F Q W) (action : ThreadAction F Q W) : Prop :=
  ∀ worker, threads.place (.inr worker) = .sleep → action = .wait (.inr worker)

/-- Tasks have a worker that is up, or a producer that is about to notify. -/
def Attended (threads : Threads F Q W) : Prop :=
  threads.tasks.queue.items ≠ [] → (∃ worker, threads.Up worker) ∨
    ∃ producer, threads.sections.phase (.inl producer) = .notifying

variable {threads after : Threads F Q W} {keepsLock : Bool} {action : ThreadAction F Q W}

omit [DecidableEq Q] [DecidableEq W] in
private theorem notifying_iff {state : State F Q W} {producer : Q} :
    state.phase (.inl producer) = .notifying ↔ state.adding producer = .notify := by
  cases here : state.adding producer <;> simp [State.phase, AddStage.phase, here]

omit [DecidableEq Q] [DecidableEq W] in
/-- A worker that is somewhere else than in its wait is up. -/
private theorem Wired.up (wired : Wired keepsLock threads) {worker : W}
    (elsewhere : threads.sections.phase (.inr worker) ≠ .waiting) : threads.Up worker := by
  have place := wired.place_eq_lock elsewhere
  refine ⟨fun sleeps => ?_, by simp [place]⟩
  simp [wired.asleep _ sleeps] at place

omit [DecidableEq Q] [DecidableEq W] in
private theorem Attended.keep (attended : Attended threads)
    (fewer : after.tasks.queue.items ≠ [] → threads.tasks.queue.items ≠ [])
    (up : ∀ worker, threads.Up worker → after.Up worker)
    (notifying : ∀ producer, threads.sections.phase (.inl producer) = .notifying →
      after.sections.phase (.inl producer) = .notifying) : Attended after := by
  intro nonempty
  rcases attended (fewer nonempty) with ⟨worker, isUp⟩ | ⟨producer, notifies⟩
  · exact .inl ⟨worker, up worker isUp⟩
  · exact .inr ⟨producer, notifying producer notifies⟩

/-- What a thread does elsewhere than in its wait leaves tasks attended. -/
private theorem Attended.act (attended : Attended threads) (wired : Wired keepsLock threads)
    {thread : Q ⊕ W} {phase : Phase} (unwaiting : threads.sections.phase thread ≠ .waiting)
    (silent : threads.sections.phase thread ≠ .notifying)
    (move : Move threads.tasks thread (threads.sections.phase thread) after.tasks phase)
    (now : after.sections.phase = Function.update threads.sections.phase thread phase)
    (up : ∀ worker, after.Up worker ↔ threads.Up worker) : Attended after := by
  have notifying (producer : Q) (notifies : threads.sections.phase (.inl producer) = .notifying) :
      after.sections.phase (.inl producer) = .notifying := by
    have apart : .inl producer ≠ thread := by
      rintro rfl
      exact silent notifies
    rwa [now, Function.update_of_ne apart]
  rcases thread with producer | worker
  · by_cases pushes : phase = .notifying
    · intro _
      right
      exact ⟨producer, by rw [now, Function.update_self, pushes]⟩
    · refine attended.keep ?_ (fun worker => (up worker).mpr) notifying
      rw [move.eq_of_add pushes]
      exact id
  · intro _
    exact .inl ⟨worker, (up worker).mpr (wired.up unwaiting)⟩

theorem Attended.step (attended : Attended threads) (wired : Wired keepsLock threads)
    (lossless : threads.Lossless action) (change : Change keepsLock threads action after) :
    Attended after := by
  cases change with
  | callAdd producer func sections was same now =>
    refine attended.keep (by simp [tasks, same]) (fun worker => id) fun other notifies => ?_
    have apart : (.inl other : Q ⊕ W) ≠ .inl producer := by
      intro here
      simp [here, was] at notifies
    simpa [now, Function.update_of_ne apart] using notifies
  | callPop worker sections was same now =>
    refine attended.keep (by simp [tasks, same]) (fun worker => id) fun other notifies => ?_
    simpa [now] using notifies
  | step thread sections phase unwaiting silent inside move now =>
    exact attended.act wired unwaiting silent move now fun worker => Iff.rfl
  | quit thread sections unwaiting silent move now =>
    exact attended.act wired unwaiting silent move now fun worker => Iff.rfl
  | lock thread waits free place =>
    refine attended.keep id (fun worker up => ⟨up.1, ?_⟩) (fun _ => id)
    by_cases here : .inr worker = thread
    · simp [moveTo, here]
    · simpa [moveTo, here] using up.2
  | enter thread sections waits place ready same now =>
    refine attended.keep (by simp [moveTo, tasks, same]) (fun worker up => ⟨up.1, ?_⟩) ?_
    · by_cases here : .inr worker = thread
      · simp [moveTo, here]
      · simpa [moveTo, here] using up.2
    · intro producer notifies
      have apart : .inl producer ≠ thread := by
        rintro rfl
        simp [waits] at notifies
      simpa [moveTo, now, apart] using notifies
  | fail thread waits place unready =>
    rcases thread with producer | worker
    · refine attended.keep id (fun worker up => ⟨up.1, ?_⟩) (fun _ => id)
      simpa [moveTo] using up.2
    · intro nonempty
      exact absurd (notEmpty_eq_false.mp unready) nonempty
  | sleep thread waits place =>
    refine attended.keep (by simp [moveTo, unlock]) (fun worker up => ?_) (by simp [moveTo, unlock])
    have apart : .inr worker ≠ thread := by
      rintro rfl
      exact up.2 place
    unfold Up
    rw [asleep_fallAsleep, place_fallAsleep]
    refine ⟨?_, by simpa [moveTo, unlock, apart] using up.2⟩
    rintro (here | sleeps)
    · exact apart here
    · exact up.1 sleeps
  | notifyNotEmpty producer woken notEmpty sections was notified same now =>
    intro nonempty
    rcases CondVar.notifyOne_cases notified with ⟨rfl, nobody, rfl⟩ | ⟨sleeper, rfl, asleep, fewer⟩
    · rcases lossless with isEmpty | ⟨other, apart, notifies⟩ | ⟨worker, place⟩
      · exact absurd (by simpa [tasks, unlock, same] using isEmpty) nonempty
      · right
        refine ⟨other, ?_⟩
        have differ : (.inl other : Q ⊕ W) ≠ .inl producer := by simpa using apart
        simpa [unlock, now, differ] using notifying_iff.mpr notifies
      · left
        refine ⟨worker, ?_, place⟩
        simp [Asleep, unlock, nobody]
    · left
      have place := wired.asleep (.inr sleeper) asleep
      exact ⟨sleeper, by simp [Asleep, unlock, fewer], by simp [unlock, place]⟩
  | notifyNotFull worker woken notFull sections phase was notified same final now =>
    refine attended.keep (by simp [tasks, same]) (fun _ => id) fun producer notifies => ?_
    simpa [now] using notifies

omit [DecidableEq Q] [DecidableEq W] in
theorem init_attended (maxTaskCount : UInt64) :
    Attended (init maxTaskCount : Threads F Q W) := by
  intro nonempty
  exact absurd rfl nonempty

variable {maxTaskCount : UInt64} {actions : List (ThreadAction F Q W)}

theorem attended_of_path
    (path : Path (Guarded (Taken (next keepsLock)) Lossless) (init maxTaskCount) actions threads) :
    Attended threads := by
  have both := path.invariant (fun threads => Wired keepsLock threads ∧ Attended threads)
    (fun _ _ _ ⟨wired, attended⟩ ⟨lossless, taken⟩ =>
      have change := next_change wired.opened taken
      ⟨wired.step change, attended.step wired lossless change⟩)
    ⟨init_wired maxTaskCount, init_attended maxTaskCount⟩
  exact both.2

omit [DecidableEq Q] [DecidableEq W] in
theorem Attended.not_stuck (attended : Attended threads) : ¬ threads.Stuck := by
  intro stuck
  rcases attended stuck.nonempty with ⟨worker, up⟩ | ⟨producer, notifies⟩
  · exact up.1 (stuck.workers worker)
  · have outside := stuck.producers producer
    simp [State.phase, outside, AddStage.phase] at notifies

omit [DecidableEq Q] [DecidableEq W] in
/-- Two workers are never both about to fall asleep, so with two no notification is a loss. -/
theorem Wired.lossless (wired : Wired keepsLock threads) {first second : W}
    (different : first ≠ second) (action : ThreadAction F Q W) : threads.Lossless action := by
  rcases action with _ | _ | _ | _ | ⟨producer, _ | woken⟩ | _ <;> try trivial
  refine .inr (.inr ?_)
  by_contra all
  have sleeping (worker : W) : threads.place (.inr worker) = .sleep := by
    by_contra other
    exact all ⟨worker, other⟩
  have same := wired.alone (.inr (.inl (sleeping first))) (.inr (.inl (sleeping second)))
  exact different (Sum.inr.inj same)

/-- With two workers no wake-up is lost. -/
theorem not_stuck_of_two_workers {first second : W} (different : first ≠ second)
    (path : Path (Taken (next keepsLock)) (init maxTaskCount) actions threads) : ¬ threads.Stuck := by
  apply Attended.not_stuck
  apply attended_of_path
  apply path.guarded_of_invariant (Wired keepsLock)
  · exact fun _ _ _ wired taken => wired.step (next_change wired.opened taken)
  · exact fun _ action _ wired _ => wired.lossless different action
  · exact init_wired maxTaskCount

/-- With the lock kept until the notification is given, no notification is a loss. -/
theorem Wired.lossless_of_kept (wired : Wired true threads) (worker : W)
    (change : Change true threads action after) : threads.Lossless action := by
  cases change with
  | notifyNotEmpty producer woken notEmpty sections was notified same now =>
    cases woken with
    | some woken => trivial
    | none =>
      refine .inr (.inr ⟨worker, fun sleeping => ?_⟩)
      have keeps : threads.Holds true (.inl producer) := .inr (.inr ⟨rfl, rfl, .inr was⟩)
      cases wired.alone keeps (.inr (.inl sleeping))
  | _ => trivial

omit [DecidableEq Q] [DecidableEq W] in
/-- Nothing is lost where a worker falls asleep as soon as its test has failed. -/
theorem AtOnce.lossless (atOnce : threads.AtOnce action) (worker : W) : threads.Lossless action := by
  rcases action with _ | _ | _ | _ | ⟨producer, _ | woken⟩ | _ <;> try trivial
  refine .inr (.inr ⟨worker, fun sleeping => ?_⟩)
  cases atOnce worker sleeping

/-- Were the test and the falling asleep one step, no wake-up would be lost. -/
theorem not_stuck_of_atOnce
    (path : Path (Guarded (Taken (next keepsLock)) AtOnce) (init maxTaskCount) actions threads) :
    ¬ threads.Stuck := by
  intro stuck
  obtain ⟨worker, _⟩ := stuck.sleeper
  have lossless : Path (Guarded (Taken (next keepsLock)) Lossless) (init maxTaskCount) actions threads :=
    path.mono fun _ _ _ ⟨atOnce, taken⟩ => ⟨atOnce.lossless worker, taken⟩
  exact (attended_of_path lossless).not_stuck stuck

/-- No wake-up of a worker is lost in a run whose notifications are all lossless. -/
theorem not_stuck_of_lossless
    (path : Path (Guarded (Taken (next false)) Lossless) (init maxTaskCount) actions threads) :
    ¬ threads.Stuck :=
  (attended_of_path path).not_stuck

/-- A worker and a producer: the worker sleeps when the notification comes. -/
def wokenInTime : List (ThreadAction Nat (Fin 1) (Fin 1)) :=
  List.flatten
    [[.callPop 0, .step (.inr 0)], List.replicate 3 (.wait (.inr 0)),
      [.callAdd 0 (some 5), .step (.inl 0)], List.replicate 2 (.wait (.inl 0)),
      List.replicate 2 (.step (.inl 0)), [.notifyNotEmpty 0 (some 0)]]

theorem not_stuck_in_time :
    ∃ threads, Path (Guarded (Taken (next false)) Lossless) (init 0) wokenInTime threads ∧
      threads.tasks.queue.items = [some 5] ∧ ¬ threads.Stuck := by
  have runs : ∃ threads ∈ exec (checked (next false) Lossless) (init 0) wokenInTime,
      threads.tasks.queue.items = [some 5] := by
    decide
  obtain ⟨threads, ends, items⟩ := runs
  have path := Path.of_checked ends
  exact ⟨threads, path, items, not_stuck_of_lossless path⟩

/-- The same worker has found the queue empty and is about to fall asleep. -/
def wokenTooSoon : List (ThreadAction Nat (Fin 1) (Fin 1)) :=
  List.flatten
    [[.callAdd 0 (some 5), .step (.inl 0)], List.replicate 2 (.wait (.inl 0)),
      [.callPop 0, .step (.inr 0)], List.replicate 2 (.wait (.inr 0)),
      List.replicate 2 (.step (.inl 0)), [.notifyNotEmpty 0 none, .wait (.inr 0)]]

/-- The notification comes between the worker's test and its falling asleep, and the task stays. -/
theorem stuck_too_soon :
    ∃ threads : Threads Nat (Fin 1) (Fin 1),
      Path (Taken (next false)) (init 0) wokenTooSoon threads ∧ threads.Stuck := by
  have runs : ∃ threads ∈ exec (next false) (init 0) wokenTooSoon,
      threads.tasks.queue.items ≠ [] ∧ threads.tasks.bstop = false ∧
        (∀ worker, worker ∈ threads.notEmpty.waiters) ∧
        ∀ producer, threads.sections.adding producer = .outside := by
    decide
  obtain ⟨threads, ends, nonempty, opened, workers, producers⟩ := runs
  exact ⟨threads, exec_eq_some_iff.mp ends, nonempty, opened, ⟨0, workers 0⟩, workers, producers⟩

end Threads

end BTool.TaskQueue.ParallelTaskQueue
