import BTool.Foundation.Locals
import BTool.TaskPool.ConditionRotateSerialTaskPool
import BTool.TaskPool.Rotation

/-! The graceful stop of a `ConditionRotateSerialTaskPool`: a worker drains its queue and then
looks at the flag, so it may leave behind what was added and promised in between. -/

namespace BTool.TaskPool

open BTool.Foundation BTool.TaskQueue

namespace ConditionRotateSerialTaskPool

variable {P F C : Type} {index : P → Nat} {pool after : ConditionRotateSerialTaskPool P F C}
  {rotation grown : Rotation P F WorkerPc} {thread : Nat} {action : Action P F C}
  {actions : List (Action P F C)}

/-- `stop` is called once, as `stop(true)`. -/
def Graceful (pool : ConditionRotateSerialTaskPool P F C) : Action P F C → Prop
  | .stop _ bwait => bwait = true ∧ pool.stops = .before
  | _ => True

instance (pool : ConditionRotateSerialTaskPool P F C) (action : Action P F C) :
    Decidable (Graceful pool action) := by
  induction action using Action.casesOn <;> unfold Graceful <;> infer_instance

/-- A worker that leaves after its drain leaves nothing promised in its queue, and one that leaves
its wait does not do so on an empty function that promised tasks follow. -/
def LeavesNothing (pool : ConditionRotateSerialTaskPool P F C) : Action P F C → Prop
  | .worker thread =>
    (pool.worker thread = .stopTest → pool.stopping = true → pool.lanes.OwesNothing thread) ∧
      (pool.worker thread = .test → pool.stopping = true → pool.lanes.EndsClean thread)
  | _ => True

def rotate (pool : ConditionRotateSerialTaskPool P F C) : Rotation P F WorkerPc :=
  ⟨pool.threadNum, pool.stopping, pool.lanes, pool.worker, pool.stops⟩

/-- What a caller knows of the pool. -/
def CallerFits (index : P → Nat) (rotation : Rotation P F WorkerPc) : CallerPc P F → Prop
  | .idle => True
  | .addTask lane prop _ => index prop = lane ∧ lane < rotation.threadNum
  | .notifyOne _ entry => entry ∈ (rotation.lanes.queues (index entry.prop)).pushed
  | .returnTrue entry => entry ∈ (rotation.lanes.queues (index entry.prop)).pushed
  | .stopLock bwait => bwait = true ∧ rotation.stops ≠ .before
  | .storeStop bwait => bwait = true ∧ rotation.stops ≠ .before
  | .clear _ => False
  | .notifyAll => True
  | .join thread => ∀ other < thread, rotation.worker other = .returned

/-- Only a worker at its task executes one. -/
def WorkerFits (rotation : Rotation P F WorkerPc) (thread : Nat) (pc : WorkerPc) : Prop :=
  pc ≠ .executing → rotation.lanes.executing thread = none

structure Fits (index : P → Nat) (pool : ConditionRotateSerialTaskPool P F C) : Prop where
  mapped : ∀ prop lane, pool.propIndex prop = some lane → index prop = lane ∧ lane < pool.threadNum
  callers : Everywhere (CallerFits index pool.rotate) pool.caller
  workers : ∀ thread, WorkerFits pool.rotate thread (pool.worker thread)

theorem CallerFits.mono {pc : CallerPc P F} (fits : CallerFits index rotation pc)
    (grows : rotation.Grows .returned grown) : CallerFits index grown pc := by
  cases pc with
  | idle => trivial
  | addTask lane prop func => exact ⟨fits.1, grows.threadNum ▸ fits.2⟩
  | notifyOne lane entry => exact grows.pushed _ entry fits
  | returnTrue entry => exact grows.pushed _ entry fits
  | stopLock bwait => exact ⟨fits.1, grows.called fits.2⟩
  | storeStop bwait => exact ⟨fits.1, grows.called fits.2⟩
  | clear lane => exact fits
  | notifyAll => trivial
  | join thread => exact fun other below => grows.returned other (fits other below)

/-- A worker moves on. -/
theorem Fits.worker_moved (fits : Fits index pool) {pc : WorkerPc} {fine : Prop} {lanes : Lanes P F}
    {readyMtx : Option (C ⊕ Nat)} {readyCv : CondVar Nat}
    (move : pool.rotate.Move index .returned (some thread) fine
      ({ pool with lanes, readyMtx, readyCv }.moveWorker thread pc).rotate)
    (knows : WorkerFits ({ pool with lanes, readyMtx, readyCv }.moveWorker thread pc).rotate thread pc) :
    Fits index ({ pool with lanes, readyMtx, readyCv }.moveWorker thread pc) := by
  refine ⟨fits.mapped, fun caller => (fits.callers caller).mono move.grows, fun other => ?_⟩
  by_cases same : other = thread
  · subst same
    simpa [moveWorker] using knows
  · intro elsewhere
    have apart : some thread ≠ some other := fun here => same (Option.some.inj here).symm
    rw [(move.frame apart).2]
    apply fits.workers other
    simpa [moveWorker, same] using elsewhere

/-- A worker takes a step that does not touch the queues. -/
theorem Fits.worker_waits (fits : Fits index pool) (sound : pool.rotate.Sound index .returned)
    {pc : WorkerPc} {readyMtx : Option (C ⊕ Nat)} {readyCv : CondVar Nat} {fine : Prop}
    (running : pool.worker thread ≠ .returned) (idle : pool.worker thread ≠ .executing)
    (stays : pc ≠ .returned) (harmless : fine) :
    Fits index ({ pool with readyMtx, readyCv }.moveWorker thread pc) ∧
      pool.rotate.Move index .returned (some thread) fine
        ({ pool with readyMtx, readyCv }.moveWorker thread pc).rotate := by
  have below : thread < pool.threadNum := by
    by_contra outside
    exact running (sound.beyond thread (Nat.le_of_not_lt outside))
  have move : pool.rotate.Move index .returned (some thread) True
      ({ pool with readyMtx, readyCv }.moveWorker thread pc).rotate := .work below running stays .keep
  exact ⟨fits.worker_moved move fun _ => fits.workers thread idle, move.of_iff (iff_of_true trivial harmless)⟩

/-- A worker's step is a move that keeps everybody informed. -/
theorem Fits.worker_step (fits : Fits index pool) (sound : pool.rotate.Sound index .returned)
    (taken : pool.threadWorker thread = some after) :
    Fits index after ∧ pool.rotate.Move index .returned (some thread)
      ((pool.worker thread = .stopTest → pool.stopping = true → pool.lanes.OwesNothing thread) ∧
        (pool.worker thread = .test → pool.stopping = true → pool.lanes.EndsClean thread))
      after.rotate := by
  have below (running : pool.worker thread ≠ .returned) : thread < pool.threadNum := by
    by_contra outside
    exact running (sound.beyond thread (Nat.le_of_not_lt outside))
  have knows := fits.workers thread
  cases place : pool.worker thread with
  | lock =>
    simp only [threadWorker, place, lockWorker] at taken
    split at taken <;> cases taken
    exact fits.worker_waits sound (by simp [place]) (by simp [place]) (by simp) (by simp)
  | test =>
    simp only [threadWorker, place, Option.some.injEq] at taken
    rw [place] at knows
    have running : pool.worker thread ≠ .returned := by simp [place]
    have idle := knows (by simp)
    subst taken
    by_cases goesOn : ((pool.lanes.popTask thread).executing thread).isSome
    · have pc : pool.testPc thread = .executing := by simp [testPc, goesOn]
      have move : pool.rotate.Move index .returned (some thread) True
          ({ pool with lanes := pool.lanes.popTask thread, readyMtx := none }.moveWorker thread
            .executing).rotate :=
        .work (below running) running (by simp) (.popTask idle)
      have clean := Lanes.endsClean_of_executing goesOn
      rw [pc]
      exact ⟨fits.worker_moved move (absurd rfl ·), move.of_iff (by simp [clean])⟩
    · have nothing := Option.not_isSome_iff_eq_none.mp goesOn
      by_cases seen : pool.stopping = true
      · have pc : pool.testPc thread = .returned := by simp [testPc, goesOn, seen]
        have move : pool.rotate.Move index .returned (some thread)
            ((pool.lanes.popTask thread).OwesNothing thread)
            ({ pool with lanes := pool.lanes.popTask thread, readyMtx := none }.moveWorker thread
              .returned).rotate :=
          .leave (below running) running (.popTask idle) nothing seen
        rw [pc]
        refine ⟨fits.worker_moved move fun _ => nothing, move.of_iff ?_⟩
        rw [Lanes.owesNothing_popTask nothing]
        simp [seen]
      · have stays : pool.testPc thread ≠ .returned := by
          unfold testPc
          split_ifs <;> simp
        have move {readyMtx : Option (C ⊕ Nat)} : pool.rotate.Move index .returned (some thread) True
            ({ pool with lanes := pool.lanes.popTask thread, readyMtx }.moveWorker thread
              (pool.testPc thread)).rotate :=
          .work (below running) running stays (.popTask idle)
        exact ⟨fits.worker_moved move fun _ => nothing, move.of_iff (by simp [seen])⟩
  | sleep =>
    simp only [threadWorker, place, Option.some.injEq] at taken
    subst taken
    exact fits.worker_waits sound (by simp [place]) (by simp [place]) (by simp) (by simp)
  | asleep =>
    simp only [threadWorker, place, lockWorker] at taken
    split at taken
    · cases taken
    · split at taken <;> cases taken
      exact fits.worker_waits sound (by simp [place]) (by simp [place]) (by simp) (by simp)
  | executing =>
    simp only [threadWorker, place, Option.some.injEq] at taken
    have running : pool.worker thread ≠ .returned := by simp [place]
    subst taken
    have move : pool.rotate.Move index .returned (some thread) True
        ({ pool with lanes := pool.lanes.finish thread }.moveWorker thread .popTask).rotate :=
      .work (below running) running (by simp) .finish
    refine ⟨fits.worker_moved move fun _ => ?_, move.of_iff (by simp)⟩
    simp [rotate, moveWorker, Lanes.finish]
  | popTask =>
    simp only [threadWorker, place, Option.some.injEq] at taken
    rw [place] at knows
    have running : pool.worker thread ≠ .returned := by simp [place]
    have idle := knows (by simp)
    subst taken
    have move {pc : WorkerPc} (stays : pc ≠ .returned) :
        pool.rotate.Move index .returned (some thread) True
          ({ pool with lanes := pool.lanes.popTask thread }.moveWorker thread pc).rotate :=
      .work (below running) running stays (.popTask idle)
    by_cases goesOn : ((pool.lanes.popTask thread).executing thread).isSome
    · rw [if_pos goesOn]
      exact ⟨fits.worker_moved (move (by simp)) (absurd rfl ·), (move (by simp)).of_iff (by simp)⟩
    · have nothing := Option.not_isSome_iff_eq_none.mp goesOn
      rw [if_neg goesOn]
      exact ⟨fits.worker_moved (move (by simp)) fun _ => nothing, (move (by simp)).of_iff (by simp)⟩
  | stopTest =>
    simp only [threadWorker, place, Option.some.injEq] at taken
    rw [place] at knows
    have running : pool.worker thread ≠ .returned := by simp [place]
    have idle := knows (by simp)
    subst taken
    by_cases seen : pool.stopping = true
    · have move : pool.rotate.Move index .returned (some thread) (pool.lanes.OwesNothing thread)
          (pool.moveWorker thread .returned).rotate :=
        .leave (below running) running .keep idle seen
      rw [if_pos seen]
      exact ⟨fits.worker_moved move fun _ => idle, move.of_iff (by simp [seen])⟩
    · rw [if_neg seen]
      exact fits.worker_waits sound (by simp [place]) (by simp [place]) (by simp) (by simp [seen])
  | returned => simp [threadWorker, place] at taken

variable [DecidableEq C]

/-- A caller moves on with a move of no worker. -/
theorem Fits.caller_moved (fits : Fits index pool) {caller : C} {pc : CallerPc P F} {fine : Prop}
    {lanes : Lanes P F} {stopping : Bool} {readyMtx : Option (C ⊕ Nat)} {readyCv : CondVar Nat} {stops : Stops}
    (move : pool.rotate.Move index .returned none fine
      ({ pool with lanes, stopping, readyMtx, readyCv, stops }.moveCaller caller pc).rotate)
    (knows : CallerFits index
      ({ pool with lanes, stopping, readyMtx, readyCv, stops }.moveCaller caller pc).rotate pc) :
    Fits index ({ pool with lanes, stopping, readyMtx, readyCv, stops }.moveCaller caller pc) := by
  refine ⟨fits.mapped, ?_, fun thread elsewhere => ?_⟩
  · have grown := fun other => (fits.callers other).mono move.grows
    exact Everywhere.move grown knows
  · have nobody : none ≠ some thread := by simp
    rw [(move.frame nobody).2]
    exact fits.workers thread elsewhere

theorem Fits.call_step (fits : Fits index pool) {caller : C} (taken : pool.callStep caller = some after) :
    Fits index after ∧ pool.rotate.Move index .returned none True after.rotate := by
  have knows := fits.callers caller
  cases place : pool.caller caller with
  | idle => simp [callStep, place] at taken
  | addTask lane prop func =>
    simp only [callStep, place, Option.some.injEq] at taken
    rw [place] at knows
    obtain ⟨home, below⟩ := knows
    subst taken
    refine ⟨fits.caller_moved (.addTask home below) ?_, .addTask home below⟩
    simp [CallerFits, rotate, moveCaller, Lanes.pushed_addTask, home]
  | notifyOne lane entry => simp [callStep, place] at taken
  | returnTrue entry =>
    simp only [callStep, place, Option.some.injEq] at taken
    rw [place] at knows
    subst taken
    by_cases early : pool.stops = .before
    · rw [if_pos early]
      exact ⟨fits.caller_moved (.promise early knows) trivial, .promise early knows⟩
    · rw [if_neg early]
      exact ⟨fits.caller_moved .keep trivial, .keep⟩
  | stopLock bwait =>
    simp only [callStep, place] at taken
    rw [place] at knows
    split at taken <;> cases taken
    exact ⟨fits.caller_moved .keep knows, .keep⟩
  | storeStop bwait =>
    simp only [callStep, place, Option.some.injEq] at taken
    rw [place] at knows
    obtain ⟨rfl, called⟩ := knows
    subst taken
    exact ⟨fits.caller_moved (.storeStop called) trivial, .storeStop called⟩
  | clear lane =>
    rw [place] at knows
    exact knows.elim
  | notifyAll =>
    simp only [callStep, place, Option.some.injEq] at taken
    subst taken
    refine ⟨fits.caller_moved .keep ?_, .keep⟩
    intro other below
    exact absurd below (Nat.not_lt_zero other)
  | join thread =>
    rw [place] at knows
    simp only [callStep, place] at taken
    split at taken
    · split at taken
      · rename_i returned
        obtain rfl := Option.some.inj taken
        refine ⟨fits.caller_moved .keep fun other below => ?_, .keep⟩
        rcases Nat.lt_succ_iff_lt_or_eq.mp below with earlier | rfl
        · exact knows other earlier
        · exact returned
      · cases taken
    · rename_i done
      obtain rfl := Option.some.inj taken
      have all : ∀ other < pool.rotate.threadNum, pool.rotate.worker other = .returned :=
        fun other below => knows other (Nat.lt_of_lt_of_le below (Nat.le_of_not_lt done))
      exact ⟨fits.caller_moved (.joined all) trivial, .joined all⟩

theorem Fits.step [DecidableEq P] (fits : Fits index pool) (sound : pool.rotate.Sound index .returned)
    (graceful : Graceful pool action) (taken : pool.next action = some after) :
    Fits index after ∧
      ∃ mover, pool.rotate.Move index .returned mover (LeavesNothing pool action) after.rotate := by
  cases action with
  | addTask caller prop func =>
    simp only [next] at taken
    split at taken
    · split at taken
      · obtain rfl := Option.some.inj taken
        exact ⟨fits, none, .keep⟩
      · rename_i lane known
        obtain rfl := Option.some.inj taken
        exact ⟨fits.caller_moved .keep (fits.mapped prop lane known), none, .keep⟩
    · cases taken
  | stop caller bwait =>
    simp only [next] at taken
    split at taken
    · obtain rfl := Option.some.inj taken
      exact ⟨fits.caller_moved .stop ⟨graceful.1, by simp [rotate, moveCaller]⟩, none, .stop⟩
    · cases taken
  | caller caller =>
    obtain ⟨fitsAfter, move⟩ := fits.call_step taken
    exact ⟨fitsAfter, none, move⟩
  | notifyOne caller woken =>
    have knows := fits.callers caller
    simp only [next] at taken
    split at taken
    · rename_i lane entry place
      rw [place] at knows
      obtain ⟨readyCv, _, rfl⟩ := Option.map_eq_some_iff.mp taken
      exact ⟨fits.caller_moved .keep knows, none, .keep⟩
    · cases taken
  | worker thread =>
    obtain ⟨fitsAfter, move⟩ := fits.worker_step sound taken
    exact ⟨fitsAfter, some thread, move⟩

variable [DecidableEq P] {coreNum threadNum : Nat} {value : P → Nat} {props : List P}

omit [DecidableEq C] in
theorem construct_fits (built : construct coreNum threadNum value props = some pool) :
    Fits (fun prop => value prop % rotateThreadNum coreNum threadNum props) pool ∧
      pool.rotate.Sound (fun prop => value prop % rotateThreadNum coreNum threadNum props) .returned ∧
        pool.stops = .before := by
  simp only [construct] at built
  split at built
  · cases built
  · rename_i sane
    obtain rfl := Option.some.inj built
    refine ⟨⟨?_, fun _ => trivial, fun _ _ => rfl⟩, Rotation.sound_of_new (by simp), rfl⟩
    intro prop lane found
    obtain ⟨registered, rfl⟩ := rotatePropIndex_eq_some found
    refine ⟨rfl, Nat.mod_lt _ (Nat.pos_of_ne_zero fun zero => sane ⟨zero, ?_⟩)⟩
    exact List.ne_nil_of_mem registered

/-- Tasks of one property are executed one at a time, in order, and once each. When `stop(true)`
has returned, those promised before have been executed if and only if every worker left nothing
promised in its queue. -/
theorem leaves_nothing_iff (built : construct coreNum threadNum value props = some pool)
    (path : Path (Guarded (Taken next) Graceful) pool actions after) :
    after.lanes.InOrder ∧ after.lanes.executed.Nodup ∧ after.lanes.Exclusive ∧
      (after.stops = .returned →
        (after.lanes.Fulfilled ↔ ∀ state action, Path.Takes (Taken next) pool actions state action →
          LeavesNothing state action)) := by
  obtain ⟨fits, sound, new⟩ := construct_fits built
  exact Rotation.executes_all_iff rotate (Fits _)
    (fun _ _ _ fits sound graceful taken => fits.step sound graceful taken) fits sound new path

/-- A pool of one thread for the property 5. -/
def onePool : ConditionRotateSerialTaskPool Nat Nat (Fin 2) where
  threadNum := 1
  propIndex := rotatePropIndex id [5] 1
  stopping := false
  lanes := .construct
  readyMtx := none
  readyCv := .empty
  worker := fun thread => if thread < 1 then .lock else .returned
  caller := fun _ => .idle
  stops := .before

/-- A task is added while nobody sleeps. -/
def addAwake (func : Nat) : List (Action Nat Nat (Fin 2)) :=
  [.addTask 1 5 (some func), .caller 1, .notifyOne 1 none, .caller 1]

/-- A task is executed, the worker drains its queue and is at the flag. -/
def firstTask : List (Action Nat Nat (Fin 2)) := addAwake 50 ++ List.replicate 4 (.worker 0)

/-- The second task is added after the worker has looked at the flag. -/
def secondInTime : List (Action Nat Nat (Fin 2)) :=
  List.flatten
    [firstTask, [.worker 0], addAwake 51, [.stop 0 true], List.replicate 3 (.caller 0),
      List.replicate 5 (.worker 0), List.replicate 2 (.caller 0)]

theorem leaves_nothing_iff_in_time :
    ∃ pool : ConditionRotateSerialTaskPool Nat Nat (Fin 2), pool.stops = .returned ∧
      pool.lanes.promised.length = 2 ∧ pool.lanes.InOrder ∧ pool.lanes.executed.Nodup ∧
        pool.lanes.Exclusive ∧
          (pool.lanes.Fulfilled ↔ ∀ state action,
            Path.Takes (Taken next) onePool secondInTime state action → LeavesNothing state action) := by
  have runs : ∃ pool ∈ exec (checked next Graceful) onePool secondInTime,
      pool.stops = .returned ∧ pool.lanes.promised.length = 2 := by
    decide
  obtain ⟨pool, ends, returned, two⟩ := runs
  have built : construct 1 1 id [5] = some onePool := rfl
  obtain ⟨inOrder, once, exclusive, all⟩ := leaves_nothing_iff built (Path.of_checked ends)
  exact ⟨pool, returned, two, inOrder, once, exclusive, all returned⟩

/-- The second task is added, and `stop(true)` called, before the worker looks at the flag. -/
def secondTooLate : List (Action Nat Nat (Fin 2)) :=
  List.flatten
    [firstTask, addAwake 51, [.stop 0 true], List.replicate 3 (.caller 0), [.worker 0],
      List.replicate 2 (.caller 0)]

/-- `stop(true)` has returned, and the second task has not been executed. -/
theorem worker_leaves_task :
    ∃ pool, construct 1 1 id [5] = some onePool ∧
      Path (Guarded (Taken next) Graceful) onePool secondTooLate pool ∧ pool.stops = .returned ∧
        (⟨1, 5, some 51⟩ : Entry Nat Nat) ∈ pool.lanes.promised ∧ ¬ pool.lanes.Fulfilled := by
  have runs : ∃ pool ∈ exec (checked next Graceful) onePool secondTooLate,
      pool.stops = .returned ∧ (⟨1, 5, some 51⟩ : Entry Nat Nat) ∈ pool.lanes.promised ∧
        (⟨1, 5, some 51⟩ : Entry Nat Nat) ∉ pool.lanes.executed := by
    decide
  obtain ⟨pool, ends, returned, promised, left⟩ := runs
  refine ⟨pool, rfl, Path.of_checked ends, returned, promised, fun fulfilled => ?_⟩
  exact left (fulfilled _ promised rfl)

end ConditionRotateSerialTaskPool

end BTool.TaskPool
