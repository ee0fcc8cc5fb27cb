import BTool.Foundation.Locals
import BTool.TaskPool.LockFreeRotateSerialTaskPool
import BTool.TaskPool.Rotation

/-! The graceful stop of a `LockFreeRotateSerialTaskPool`: a worker that has seen the flag
drains its queue once more, but an empty function ends a drain as an empty queue does. -/

namespace BTool.TaskPool

open BTool.Foundation BTool.TaskQueue

namespace LockFreeRotateSerialTaskPool

variable {P F C : Type} {index : P → Nat} {pool after : LockFreeRotateSerialTaskPool P F C}
  {rotation grown : Rotation P F WorkerPc} {thread : Nat} {action : Action P F C}
  {actions : List (Action P F C)}

/-- `stop` is called once, as `stop(true)`. -/
def Graceful (pool : LockFreeRotateSerialTaskPool P F C) : Action P F C → Prop
  | .stop _ bwait => bwait = true ∧ pool.stops = .before
  | _ => True

instance (pool : LockFreeRotateSerialTaskPool P F C) (action : Action P F C) :
    Decidable (Graceful pool action) := by
  cases action <;> unfold Graceful <;> infer_instance

/-- The last drain of a worker does not end with an empty function that promised tasks follow. -/
def DrainsAll (pool : LockFreeRotateSerialTaskPool P F C) : Action P F C → Prop
  | .worker thread => pool.worker thread = .popTask true → pool.lanes.EndsClean thread
  | _ => True

def rotate (pool : LockFreeRotateSerialTaskPool P F C) : Rotation P F WorkerPc :=
  ⟨pool.threadNum, pool.stopping, pool.lanes, pool.worker, pool.stops⟩

/-- What a caller knows of the pool. -/
def CallerFits (index : P → Nat) (rotation : Rotation P F WorkerPc) : CallerPc P F → Prop
  | .idle => True
  | .stopTest lane prop _ => index prop = lane ∧ lane < rotation.threadNum
  | .addTask lane prop _ => index prop = lane ∧ lane < rotation.threadNum
  | .returnTrue entry => entry ∈ (rotation.lanes.queues (index entry.prop)).pushed
  | .storeStop bwait => bwait = true ∧ rotation.stops ≠ .before
  | .clear _ => False
  | .join thread => ∀ other < thread, rotation.worker other = .returned

/-- What a worker knows of the pool. -/
def WorkerFits (rotation : Rotation P F WorkerPc) (thread : Nat) : WorkerPc → Prop
  | .popTask last => rotation.lanes.executing thread = none ∧
      (last = true → rotation.stopping = true)
  | .executing last => last = true → rotation.stopping = true
  | .stopTest => rotation.lanes.executing thread = none
  | .returned => True

structure Fits (index : P → Nat) (pool : LockFreeRotateSerialTaskPool P F C) : Prop where
  mapped : ∀ prop lane, pool.propIndex prop = some lane → index prop = lane ∧ lane < pool.threadNum
  callers : Everywhere (CallerFits index pool.rotate) pool.caller
  workers : ∀ thread, WorkerFits pool.rotate thread (pool.worker thread)

theorem CallerFits.mono {pc : CallerPc P F} (fits : CallerFits index rotation pc)
    (grows : rotation.Grows .returned grown) : CallerFits index grown pc := by
  cases pc with
  | idle => trivial
  | stopTest lane prop func => exact ⟨fits.1, grows.threadNum ▸ fits.2⟩
  | addTask lane prop func => exact ⟨fits.1, grows.threadNum ▸ fits.2⟩
  | returnTrue entry => exact grows.pushed _ entry fits
  | storeStop bwait => exact ⟨fits.1, grows.called fits.2⟩
  | clear lane => exact fits
  | join thread => exact fun other below => grows.returned other (fits other below)

theorem WorkerFits.mono {pc : WorkerPc} (fits : WorkerFits rotation thread pc)
    (grows : rotation.Grows .returned grown)
    (executing : grown.lanes.executing thread = rotation.lanes.executing thread) :
    WorkerFits grown thread pc := by
  cases pc with
  | popTask last => exact ⟨executing.trans fits.1, fun isLast => grows.stopping (fits.2 isLast)⟩
  | executing last => exact fun isLast => grows.stopping (fits isLast)
  | stopTest => exact executing.trans fits
  | returned => trivial

/-- A worker's step is a move that keeps everybody informed. -/
theorem Fits.worker_step (fits : Fits index pool) (sound : pool.rotate.Sound index .returned)
    (taken : pool.threadWorker thread = some after) :
    Fits index after ∧ pool.rotate.Move index .returned (some thread)
      (pool.worker thread = .popTask true → pool.lanes.EndsClean thread) after.rotate := by
  have moved {lanes : Lanes P F} {pc : WorkerPc} {fine : Prop}
      (move : pool.rotate.Move index .returned (some thread) fine
        ({ pool with lanes }.moveWorker thread pc).rotate)
      (knows : WorkerFits ({ pool with lanes }.moveWorker thread pc).rotate thread pc) :
      Fits index ({ pool with lanes }.moveWorker thread pc) := by
    refine ⟨fits.mapped, fun caller => (fits.callers caller).mono move.grows, fun other => ?_⟩
    by_cases same : other = thread
    · subst same
      simpa [moveWorker] using knows
    · have apart : some thread ≠ some other := fun here => same (Option.some.inj here).symm
      have there := (fits.workers other).mono move.grows (move.frame apart).2
      simpa [moveWorker, same] using there
  have below (running : pool.worker thread ≠ .returned) : thread < pool.threadNum := by
    by_contra outside
    exact running (sound.beyond thread (Nat.le_of_not_lt outside))
  have knows := fits.workers thread
  cases place : pool.worker thread with
  | popTask last =>
    simp only [threadWorker, place, Option.some.injEq] at taken
    rw [place] at knows
    obtain ⟨idle, seen⟩ := knows
    have running : pool.worker thread ≠ .returned := by simp [place]
    subst taken
    by_cases goesOn : ((pool.lanes.popTask thread).executing thread).isSome
    · have move : pool.rotate.Move index .returned (some thread) True
          ({ pool with lanes := pool.lanes.popTask thread }.moveWorker thread
            (.executing last)).rotate :=
        .work (below running) running (by simp) (.popTask idle)
      have clean := Lanes.endsClean_of_executing goesOn
      rw [if_pos goesOn]
      exact ⟨moved move seen, move.of_iff (by simp [clean])⟩
    · have nothing := Option.not_isSome_iff_eq_none.mp goesOn
      rw [if_neg goesOn]
      cases last with
      | true =>
        have move : pool.rotate.Move index .returned (some thread)
            ((pool.lanes.popTask thread).OwesNothing thread)
            ({ pool with lanes := pool.lanes.popTask thread }.moveWorker thread .returned).rotate :=
          .leave (below running) running (.popTask idle) nothing (seen rfl)
        refine ⟨moved move trivial, move.of_iff ?_⟩
        rw [Lanes.owesNothing_popTask nothing]
        simp
      | false =>
        have move : pool.rotate.Move index .returned (some thread) True
            ({ pool with lanes := pool.lanes.popTask thread }.moveWorker thread .stopTest).rotate :=
          .work (below running) running (by simp) (.popTask idle)
        exact ⟨moved move nothing, move.of_iff (by simp)⟩
  | executing last =>
    simp only [threadWorker, place, Option.some.injEq] at taken
    rw [place] at knows
    have running : pool.worker thread ≠ .returned := by simp [place]
    subst taken
    have move : pool.rotate.Move index .returned (some thread) True
        ({ pool with lanes := pool.lanes.finish thread }.moveWorker thread (.popTask last)).rotate :=
      .work (below running) running (by simp) .finish
    refine ⟨moved move ⟨?_, knows⟩, move.of_iff (by simp)⟩
    simp [rotate, moveWorker, Lanes.finish]
  | stopTest =>
    simp only [threadWorker, place, Option.some.injEq] at taken
    rw [place] at knows
    have running : pool.worker thread ≠ .returned := by simp [place]
    subst taken
    have move : pool.rotate.Move index .returned (some thread) True
        (pool.moveWorker thread (.popTask pool.stopping)).rotate :=
      .work (below running) running (by simp) .keep
    exact ⟨moved move ⟨knows, id⟩, move.of_iff (by simp)⟩
  | returned => simp [threadWorker, place] at taken

variable [DecidableEq C]

/-- A caller moves on with a move of no worker. -/
theorem Fits.caller_moved (fits : Fits index pool) {caller : C} {pc : CallerPc P F} {fine : Prop}
    {lanes : Lanes P F} {stopping : Bool} {stops : Stops}
    (move : pool.rotate.Move index .returned none fine
      ({ pool with lanes, stopping, stops }.moveCaller caller pc).rotate)
    (knows : CallerFits index ({ pool with lanes, stopping, stops }.moveCaller caller pc).rotate pc) :
    Fits index ({ pool with lanes, stopping, stops }.moveCaller caller pc) := by
  refine ⟨fits.mapped, ?_, fun thread => ?_⟩
  · have grown := fun other => (fits.callers other).mono move.grows
    exact Everywhere.move grown knows
  · exact (fits.workers thread).mono move.grows (move.frame (by simp)).2

theorem Fits.call_step (fits : Fits index pool) {caller : C}
    (taken : pool.callStep caller = some after) :
    Fits index after ∧ pool.rotate.Move index .returned none True after.rotate := by
  have knows := fits.callers caller
  have stay {pc : CallerPc P F} : pool.rotate.Move index .returned none True
      (pool.moveCaller caller pc).rotate := .keep
  cases place : pool.caller caller with
  | idle => simp [callStep, place] at taken
  | stopTest lane prop func =>
    simp only [callStep, place, Option.some.injEq] at taken
    rw [place] at knows
    subst taken
    refine ⟨fits.caller_moved stay ?_, stay⟩
    split
    · trivial
    · exact knows
  | addTask lane prop func =>
    simp only [callStep, place, Option.some.injEq] at taken
    rw [place] at knows
    obtain ⟨home, below⟩ := knows
    subst taken
    refine ⟨fits.caller_moved (.addTask home below) ?_, .addTask home below⟩
    simp [CallerFits, rotate, moveCaller, Lanes.pushed_addTask, home]
  | returnTrue entry =>
    simp only [callStep, place, Option.some.injEq] at taken
    rw [place] at knows
    subst taken
    by_cases early : pool.stops = .before
    · rw [if_pos early]
      exact ⟨fits.caller_moved (.promise early knows) trivial, .promise early knows⟩
    · rw [if_neg early]
      exact ⟨fits.caller_moved stay trivial, stay⟩
  | storeStop bwait =>
    simp only [callStep, place, Option.some.injEq] at taken
    rw [place] at knows
    obtain ⟨rfl, called⟩ := knows
    subst taken
    refine ⟨fits.caller_moved (.storeStop called) ?_, .storeStop called⟩
    intro other below
    exact absurd below (Nat.not_lt_zero other)
  | clear lane =>
    rw [place] at knows
    exact knows.elim
  | join thread =>
    rw [place] at knows
    simp only [callStep, place] at taken
    split at taken
    · split at taken
      · rename_i returned
        obtain rfl := Option.some.inj taken
        refine ⟨fits.caller_moved stay fun other below => ?_, stay⟩
        rcases Nat.lt_succ_iff_lt_or_eq.mp below with earlier | rfl
        · exact knows other earlier
        · exact returned
      · cases taken
    · rename_i done
      obtain rfl := Option.some.inj taken
      have all : ∀ other < pool.rotate.threadNum, pool.rotate.worker other = .returned :=
        fun other below => knows other (Nat.lt_of_lt_of_le below (Nat.le_of_not_lt done))
      exact ⟨fits.caller_moved (.joined all) trivial, .joined all⟩

theorem Fits.step [DecidableEq P] (fits : Fits index pool) (sound : pool.rotate.Sound index .returned)
    (graceful : Graceful pool action) (taken : pool.next action = some after) :
    Fits index after ∧
      ∃ mover, pool.rotate.Move index .returned mover (DrainsAll pool action) after.rotate := by
  cases action with
  | addTask caller prop func =>
    simp only [next] at taken
    split at taken
    · split at taken
      · obtain rfl := Option.some.inj taken
        exact ⟨fits, none, .keep⟩
      · rename_i lane known
        obtain rfl := Option.some.inj taken
        exact ⟨fits.caller_moved .keep (fits.mapped prop lane known), none, .keep⟩
    · cases taken
  | stop caller bwait =>
    simp only [next] at taken
    split at taken
    · obtain rfl := Option.some.inj taken
      exact ⟨fits.caller_moved .stop ⟨graceful.1, by simp [rotate, moveCaller]⟩, none, .stop⟩
    · cases taken
  | caller caller =>
    obtain ⟨fitsAfter, move⟩ := fits.call_step taken
    exact ⟨fitsAfter, none, move⟩
  | worker thread =>
    obtain ⟨fitsAfter, move⟩ := fits.worker_step sound taken
    exact ⟨fitsAfter, some thread, move⟩

variable [DecidableEq P] {coreNum threadNum : Nat} {value : P → Nat} {props : List P}

omit [DecidableEq C] in
theorem construct_fits (built : construct coreNum threadNum value props = some pool) :
    Fits (fun prop => value prop % rotateThreadNum coreNum threadNum props) pool ∧
      pool.rotate.Sound (fun prop => value prop % rotateThreadNum coreNum threadNum props) .returned ∧
        pool.stops = .before := by
  simp only [construct] at built
  split at built
  · cases built
  · rename_i sane
    obtain rfl := Option.some.inj built
    refine ⟨⟨?_, fun _ => trivial, fun thread => ?_⟩, Rotation.sound_of_new (by simp), rfl⟩
    · intro prop lane found
      obtain ⟨registered, rfl⟩ := rotatePropIndex_eq_some found
      refine ⟨rfl, Nat.mod_lt _ (Nat.pos_of_ne_zero fun zero => sane ⟨zero, ?_⟩)⟩
      exact List.ne_nil_of_mem registered
    · simp only
      split
      · exact ⟨rfl, fun last => by cases last⟩
      · trivial

/-- Tasks of one property are executed one at a time, in order, and once each. When `stop(true)`
has returned, those promised before have been executed if and only if no last drain ended with an
empty function in front of one of them. -/
theorem drains_all_iff (built : construct coreNum threadNum value props = some pool)
    (path : Path (Guarded (Taken next) Graceful) pool actions after) :
    after.lanes.InOrder ∧ after.lanes.executed.Nodup ∧ after.lanes.Exclusive ∧
      (after.stops = .returned →
        (after.lanes.Fulfilled ↔ ∀ state action, Path.Takes (Taken next) pool actions state action →
          DrainsAll state action)) := by
  obtain ⟨fits, sound, new⟩ := construct_fits built
  exact Rotation.executes_all_iff rotate (Fits _)
    (fun _ _ _ fits sound graceful taken => fits.step sound graceful taken) fits sound new path

/-- A pool of one thread for the property 5. -/
def onePool : LockFreeRotateSerialTaskPool Nat Nat (Fin 2) where
  threadNum := 1
  propIndex := rotatePropIndex id [5] 1
  stopping := false
  lanes := .construct
  worker := fun thread => if thread < 1 then .popTask false else .returned
  caller := fun _ => .idle
  stops := .before

/-- A task is added and executed, another one is added, and `stop(true)` waits for it. -/
def twoTasks : List (Action Nat Nat (Fin 2)) :=
  List.flatten
    [[.addTask 1 5 (some 50)], List.replicate 3 (.caller 1), List.replicate 3 (.worker 0),
      [.addTask 1 5 (some 51)], List.replicate 3 (.caller 1), [.stop 0 true, .caller 0],
      List.replicate 4 (.worker 0), List.replicate 2 (.caller 0)]

theorem drains_all_iff_two_tasks :
    ∃ pool : LockFreeRotateSerialTaskPool Nat Nat (Fin 2), pool.stops = .returned ∧
      pool.lanes.promised.length = 2 ∧ pool.lanes.InOrder ∧ pool.lanes.executed.Nodup ∧
        pool.lanes.Exclusive ∧
          (pool.lanes.Fulfilled ↔ ∀ state action,
            Path.Takes (Taken next) onePool twoTasks state action → DrainsAll state action) := by
  have runs : ∃ pool ∈ exec (checked next Graceful) onePool twoTasks,
      pool.stops = .returned ∧ pool.lanes.promised.length = 2 := by
    decide
  obtain ⟨pool, ends, returned, two⟩ := runs
  have built : construct 1 1 id [5] = some onePool := rfl
  obtain ⟨inOrder, once, exclusive, all⟩ := drains_all_iff built (Path.of_checked ends)
  exact ⟨pool, returned, two, inOrder, once, exclusive, all returned⟩

/-- Two empty functions and a task are added; each drain of the worker ends with an empty
function. -/
def emptyFunctions : List (Action Nat Nat (Fin 2)) :=
  List.flatten
    [[.addTask 1 5 none], List.replicate 3 (.caller 1), [.addTask 1 5 none],
      List.replicate 3 (.caller 1), [.addTask 1 5 (some 50)], List.replicate 3 (.caller 1),
      [.stop 0 true, .caller 0], List.replicate 3 (.worker 0), List.replicate 2 (.caller 0)]

/-- `stop(true)` has returned, and the task has not been executed. -/
theorem drain_loses_task :
    ∃ pool, construct 1 1 id [5] = some onePool ∧
      Path (Guarded (Taken next) Graceful) onePool emptyFunctions pool ∧ pool.stops = .returned ∧
        (⟨2, 5, some 50⟩ : Entry Nat Nat) ∈ pool.lanes.promised ∧ ¬ pool.lanes.Fulfilled := by
  have runs : ∃ pool ∈ exec (checked next Graceful) onePool emptyFunctions,
      pool.stops = .returned ∧ (⟨2, 5, some 50⟩ : Entry Nat Nat) ∈ pool.lanes.promised ∧
        (⟨2, 5, some 50⟩ : Entry Nat Nat) ∉ pool.lanes.executed := by
    decide
  obtain ⟨pool, ends, returned, promised, lost⟩ := runs
  refine ⟨pool, rfl, Path.of_checked ends, returned, promised, fun fulfilled => ?_⟩
  exact lost (fulfilled _ promised rfl)

end LockFreeRotateSerialTaskPool

end BTool.TaskPool
