import BTool.TaskQueue.SerialThreads

/-! The number of waiting tasks against the maximum, whoever tests it and when. -/

namespace BTool.TaskQueue.SerialTaskQueue.Threads

open BTool.Foundation

variable {P F W Q : Type} [DecidableEq P] [DecidableEq F] [DecidableEq W] [DecidableEq Q]
  {threads after : Threads P F W Q} {action : ThreadAction P F W Q} {held : Finset P}
  {maxTaskCount : UInt64} {actions : List (ThreadAction P F W Q)}

/-- The waiting tasks do not exceed the maximum. -/
def WithinMax (threads : Threads P F W Q) : Prop :=
  threads.sections.pending.length ≤ threads.queue.maxTaskCount.toNat

/-- A producer that gets the lock on the fast path still finds the queue not full. -/
def StillNotFull (threads : Threads P F W Q) : ThreadAction P F W Q → Prop
  | .tryLock _ true => threads.queue.notFull = true
  | _ => True

omit [DecidableEq F] [DecidableEq W] [DecidableEq Q] in
/-- Within a positive maximum, `not_full` is the exact test for one more task. -/
theorem notFull_iff (steady : Steady threads.sections held) (limited : threads.queue.maxTaskCount ≠ 0)
    (within : threads.WithinMax) : threads.queue.notFull = true ↔
      threads.sections.pending.length + 1 ≤ threads.queue.maxTaskCount.toNat := by
  have small : threads.sections.pending.length < 2 ^ 64 :=
    Nat.lt_of_le_of_lt within (UInt64.toNat_lt _)
  have exactly : threads.queue.approxSize.toNat = threads.sections.pending.length := by
    rw [show threads.queue.approxSize = _ from steady.counted]
    exact UInt64.toNat_ofNat_of_lt' small
  simp only [SerialTaskQueue.notFull, limited, decide_false, Bool.false_or, decide_eq_true_eq,
    UInt64.lt_iff_toNat_lt, exactly]
  omega

/-- Begin and finish sections add no waiting task. -/
private theorem length_pending_le {state state' : State P F W} {worker : W} {inner : Action P F W}
    (which : inner = .popBegin worker ∨ inner = .popFinish worker)
    (taken : state.next inner = some state') : state'.pending.length ≤ state.pending.length := by
  rcases which with rfl | rfl
  · obtain ⟨_, ⟨_, rfl⟩ | ⟨prop, func, queue, _, rfl⟩⟩ := State.popBegin_cases taken
    · exact Nat.le_refl _
    · exact List.length_erase_le
  · obtain ⟨current, queue, _, _, rfl⟩ := State.popFinish_cases taken
    exact Nat.le_refl _

/-- From within the maximum, a step leads beyond it just when the fast path pushes into a
full queue. -/
theorem withinMax_step (steady : Steady threads.sections held)
    (limited : threads.queue.maxTaskCount ≠ 0) (within : threads.WithinMax)
    (taken : threads.next action = some after) :
    (after.WithinMax ↔ threads.StillNotFull action) ∧
      after.queue.maxTaskCount = threads.queue.maxTaskCount := by
  have opened := steady.opened
  have room := notFull_iff steady limited within
  cases action with
  | call producer prop func =>
    obtain ⟨_, rfl | rfl⟩ := call_cases taken <;> exact ⟨iff_of_true within trivial, rfl⟩
  | fastTest producer =>
    obtain ⟨prop, func, _, rfl⟩ := fastTest_cases taken
    exact ⟨iff_of_true within trivial, rfl⟩
  | tryLock producer locked =>
    obtain ⟨prop, func, _, ⟨rfl, pushed⟩ | ⟨rfl, rfl⟩⟩ := tryLock_cases taken
    · obtain ⟨_, rfl⟩ := push_cases opened pushed
      refine ⟨?_, rfl⟩
      simp only [StillNotFull, room]
      simp [WithinMax, moveProducer, State.accept, pushTask]
    · exact ⟨iff_of_true within trivial, rfl⟩
  | lock producer =>
    obtain ⟨prop, func, _, _, ⟨notFull, pushed⟩ | ⟨_, rfl⟩⟩ := lock_cases opened taken
    · obtain ⟨_, rfl⟩ := push_cases opened pushed
      refine ⟨iff_of_true ?_ trivial, rfl⟩
      have bound := room.mp notFull
      simpa [WithinMax, moveProducer, State.accept, pushTask] using bound
    · exact ⟨iff_of_true within trivial, rfl⟩
  | notifyNotEmpty producer woken =>
    obtain ⟨_, notEmpty, _, rfl⟩ := notifyNotEmpty_cases taken
    exact ⟨iff_of_true within trivial, rfl⟩
  | popBegin worker =>
    obtain ⟨_, _, ⟨_, rfl⟩ | ⟨sections, begun, rfl⟩⟩ := begin_cases taken
    · exact ⟨iff_of_true within trivial, rfl⟩
    · have same := State.maxTaskCount_next begun
      have fewer := length_pending_le (.inl rfl) begun
      refine ⟨iff_of_true ?_ trivial, same⟩
      exact (same ▸ Nat.le_trans fewer within : _ ≤ sections.queue.maxTaskCount.toNat)
  | popFinish worker =>
    obtain ⟨_, sections, finished, rfl⟩ := finish_cases taken
    have same := State.maxTaskCount_next finished
    have fewer := length_pending_le (.inr rfl) finished
    refine ⟨iff_of_true ?_ trivial, same⟩
    exact (same ▸ Nat.le_trans fewer within : _ ≤ sections.queue.maxTaskCount.toNat)
  | notifyNotFull worker woken =>
    obtain ⟨_, notFull, _, rfl⟩ := notifyNotFull_cases taken
    exact ⟨iff_of_true within trivial, rfl⟩

/-- With a positive maximum, the waiting tasks stay within it all along a run if and only
if every push of the fast path in it still finds the queue not full. -/
theorem within_max_iff (limited : maxTaskCount ≠ 0)
    (path : Path (Taken next) (init maxTaskCount) actions threads) :
    (∀ visited, Path.Visits (Taken next) (init maxTaskCount) actions visited →
        visited.sections.pending.length ≤ maxTaskCount.toNat) ↔
      ∀ before action, Path.Takes (Taken next) (init maxTaskCount) actions before action →
        before.StillNotFull action := by
  refine path.visits_iff_all_takes
    (fun threads => (∃ held, Steady threads.sections held) ∧
      threads.queue.maxTaskCount = maxTaskCount) ?_ ?_ ?_
  · rintro before action after ⟨⟨held, steady⟩, same⟩ within taken
    obtain ⟨exactly, same'⟩ := withinMax_step steady (same ▸ limited) (by rwa [WithinMax, same]) taken
    rw [WithinMax, same', same] at exactly
    exact ⟨exactly, fun _ => ⟨steady_step steady taken, same'.trans same⟩⟩
  · exact Nat.zero_le _
  · exact ⟨⟨∅, init_steady maxTaskCount⟩, rfl⟩

/-- Two producers see room for one task, and both push. -/
theorem fast_path_exceeds_max :
    ∃ threads, Path (Taken next) (init 1 : Threads Nat Nat (Fin 1) (Fin 2))
      [.call 0 1 (some 10), .call 1 2 (some 20), .fastTest 0, .fastTest 1, .tryLock 0 true,
        .tryLock 1 true] threads ∧
      ¬ threads.sections.pending.length ≤ (1 : UInt64).toNat := by
  have runs : ∃ threads ∈ exec next (init 1 : Threads Nat Nat (Fin 1) (Fin 2))
      [.call 0 1 (some 10), .call 1 2 (some 20), .fastTest 0, .fastTest 1, .tryLock 0 true,
        .tryLock 1 true], ¬ threads.sections.pending.length ≤ (1 : UInt64).toNat := by
    decide
  obtain ⟨threads, ends, exceeds⟩ := runs
  exact ⟨threads, exec_eq_some_iff.mp ends, exceeds⟩

/-- The second producer tests after the first has pushed, and waits. -/
theorem within_max_iff_one_waits :
    (∀ visited, Path.Visits (Taken next) (init 1 : Threads Nat Nat (Fin 1) (Fin 2))
        [.call 0 1 (some 10), .call 1 2 (some 20), .fastTest 0, .tryLock 0 true, .fastTest 1,
          .lock 1] visited → visited.sections.pending.length ≤ (1 : UInt64).toNat) ↔
      ∀ before action, Path.Takes (Taken next) (init 1 : Threads Nat Nat (Fin 1) (Fin 2))
        [.call 0 1 (some 10), .call 1 2 (some 20), .fastTest 0, .tryLock 0 true, .fastTest 1,
          .lock 1] before action → before.StillNotFull action := by
  have runs : (exec next (init 1 : Threads Nat Nat (Fin 1) (Fin 2))
      [.call 0 1 (some 10), .call 1 2 (some 20), .fastTest 0, .tryLock 0 true, .fastTest 1,
        .lock 1]).isSome = true := by
    decide
  obtain ⟨_, ends⟩ := Option.isSome_iff_exists.mp runs
  exact within_max_iff (by decide) (exec_eq_some_iff.mp ends)

end BTool.TaskQueue.SerialTaskQueue.Threads
