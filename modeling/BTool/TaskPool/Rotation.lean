import BTool.Foundation.Transition
import BTool.TaskPool.Lanes

/-! What `ConditionRotateSerialTaskPool` and `LockFreeRotateSerialTaskPool` have in common: each
worker empties the queue of its number, leaves after the stop flag has been set, and `stop`
waits for all of them. The pools differ in what a worker looks at before it leaves. -/

namespace BTool.TaskPool

open BTool.Foundation BTool.TaskQueue

variable {P F Pc : Type}

/-- What a worker does to the queues in one step. -/
inductive Lanes.Worked (lanes : Lanes P F) (thread : Nat) : Lanes P F → Prop where
  | keep : Worked lanes thread lanes
  | popTask (idle : lanes.executing thread = none) : Worked lanes thread (lanes.popTask thread)
  | finish : Worked lanes thread (lanes.finish thread)

namespace Lanes.Worked

variable {index : P → Nat} {lanes after : Lanes P F} {thread other : Nat}

theorem orderly (worked : Worked lanes thread after) (before : lanes.Orderly index) : after.Orderly index := by
  cases worked with
  | keep => exact before
  | popTask idle => exact before.popTask idle
  | finish => exact before.finish

theorem pushed (worked : Worked lanes thread after) (lane : Nat) :
    (after.queues lane).pushed = (lanes.queues lane).pushed := by
  cases worked with
  | keep => rfl
  | popTask idle => exact Lanes.pushed_popTask lane
  | finish => rfl

theorem executing (worked : Worked lanes thread after) (apart : other ≠ thread) :
    after.executing other = lanes.executing other := by
  cases worked with
  | keep => rfl
  | popTask idle => exact Lanes.executing_popTask apart
  | finish => simp [Lanes.finish, apart]

theorem owesNothing (worked : Worked lanes thread after) (apart : other ≠ thread) :
    after.OwesNothing other ↔ lanes.OwesNothing other := by
  cases worked with
  | keep => exact Iff.rfl
  | popTask idle => exact Lanes.owesNothing_popTask_of_ne apart
  | finish => exact Iff.rfl

end Lanes.Worked

structure Rotation (P F Pc : Type) where
  threadNum : Nat
  stopping : Bool
  lanes : Lanes P F
  worker : Nat → Pc
  stops : Stops

namespace Rotation

/-- What a step does, by the worker that takes it if one does, and what has to hold for it to
leave nothing promised behind. -/
inductive Move (index : P → Nat) (returned : Pc) (rotation : Rotation P F Pc) :
    Option Nat → Prop → Rotation P F Pc → Prop where
  | keep : Move index returned rotation none True rotation
  | addTask {lane : Nat} {prop : P} {func : TaskItem F} (home : index prop = lane)
      (below : lane < rotation.threadNum) :
      Move index returned rotation none True { rotation with lanes := rotation.lanes.addTask lane prop func }
  | promise {entry : Entry P F} (before : rotation.stops = .before)
      (member : entry ∈ (rotation.lanes.queues (index entry.prop)).pushed) :
      Move index returned rotation none True { rotation with lanes := rotation.lanes.promise entry }
  | stop : Move index returned rotation none True { rotation with stops := .called }
  | storeStop (called : rotation.stops ≠ .before) :
      Move index returned rotation none True { rotation with stopping := true }
  | joined (all : ∀ thread < rotation.threadNum, rotation.worker thread = returned) :
      Move index returned rotation none True { rotation with stops := .returned }
  | work {thread : Nat} {pc : Pc} {lanes : Lanes P F} (below : thread < rotation.threadNum)
      (running : rotation.worker thread ≠ returned) (stays : pc ≠ returned)
      (worked : rotation.lanes.Worked thread lanes) :
      Move index returned rotation (some thread) True
        { rotation with lanes, worker := Function.update rotation.worker thread pc }
  | leave {thread : Nat} {lanes : Lanes P F} (below : thread < rotation.threadNum)
      (running : rotation.worker thread ≠ returned) (worked : rotation.lanes.Worked thread lanes)
      (idle : lanes.executing thread = none) (seen : rotation.stopping = true) :
      Move index returned rotation (some thread) (lanes.OwesNothing thread)
        { rotation with lanes, worker := Function.update rotation.worker thread returned }

structure Sound (index : P → Nat) (returned : Pc) (rotation : Rotation P F Pc) : Prop where
  orderly : rotation.lanes.Orderly index
  within : ∀ lane, rotation.threadNum ≤ lane → (rotation.lanes.queues lane).pushed = []
  beyond : ∀ thread, rotation.threadNum ≤ thread → rotation.worker thread = returned
  idle : ∀ thread, rotation.worker thread = returned → rotation.lanes.executing thread = none
  seen : ∀ thread < rotation.threadNum, rotation.worker thread = returned → rotation.stopping = true
  quiet : rotation.stops = .before → rotation.stopping = false
  joined : rotation.stops = .returned → ∀ thread < rotation.threadNum, rotation.worker thread = returned

/-- A worker that has returned leaves nothing promised in its queue. -/
def Settled (returned : Pc) (rotation : Rotation P F Pc) : Prop :=
  ∀ thread < rotation.threadNum, rotation.worker thread = returned → rotation.lanes.OwesNothing thread

/-- What becomes true of a pool stays true. -/
structure Grows (returned : Pc) (before after : Rotation P F Pc) : Prop where
  threadNum : after.threadNum = before.threadNum
  pushed : ∀ lane, ∀ entry ∈ (before.lanes.queues lane).pushed, entry ∈ (after.lanes.queues lane).pushed
  returned : ∀ thread, before.worker thread = returned → after.worker thread = returned
  called : before.stops ≠ .before → after.stops ≠ .before
  stopping : before.stopping = true → after.stopping = true

variable {index : P → Nat} {returned : Pc} {rotation after : Rotation P F Pc} {mover : Option Nat}
  {fine : Prop}

theorem Move.of_iff {same : Prop} (move : Move index returned rotation mover fine after)
    (iff : fine ↔ same) : Move index returned rotation mover same after :=
  propext iff ▸ move

theorem Move.grows (move : Move index returned rotation mover fine after) : Grows returned rotation after := by
  cases move with
  | keep => exact ⟨rfl, fun _ _ => id, fun _ => id, id, id⟩
  | @addTask lane prop func home below =>
    refine ⟨rfl, fun other entry member => ?_, fun _ => id, id, id⟩
    rw [Lanes.pushed_addTask]
    split
    · rename_i here
      exact List.mem_append_left _ (here ▸ member)
    · exact member
  | promise before member => exact ⟨rfl, fun _ _ => id, fun _ => id, id, id⟩
  | stop => exact ⟨rfl, fun _ _ => id, fun _ => id, fun _ => by simp, id⟩
  | storeStop called => exact ⟨rfl, fun _ _ => id, fun _ => id, id, fun _ => rfl⟩
  | joined all => exact ⟨rfl, fun _ _ => id, fun _ => id, fun _ => by simp, id⟩
  | @work thread pc lanes below running stays worked =>
    refine ⟨rfl, fun lane entry member => (worked.pushed lane).symm ▸ member, fun other left => ?_, id, id⟩
    have apart : other ≠ thread := by
      rintro rfl
      exact running left
    simpa [apart] using left
  | @leave thread lanes below running worked idle seen =>
    refine ⟨rfl, fun lane entry member => (worked.pushed lane).symm ▸ member, fun other left => ?_, id, id⟩
    by_cases same : other = thread
    · simp [same]
    · simpa [same] using left

/-- The other workers stay where they are, and go on with what they execute. -/
theorem Move.frame (move : Move index returned rotation mover fine after) {thread : Nat}
    (other : mover ≠ some thread) : after.worker thread = rotation.worker thread ∧
      after.lanes.executing thread = rotation.lanes.executing thread := by
  cases move with
  | @work mover pc lanes below running stays worked =>
    have apart : thread ≠ mover := fun same => other (congrArg some same.symm)
    exact ⟨Function.update_of_ne apart _ _, worked.executing apart⟩
  | @leave mover lanes below running worked idle seen =>
    have apart : thread ≠ mover := fun same => other (congrArg some same.symm)
    exact ⟨Function.update_of_ne apart _ _, worked.executing apart⟩
  | _ => exact ⟨rfl, rfl⟩

/-- No worker leaves before `stop` is called. -/
theorem Sound.not_returned (sound : Sound index returned rotation) (before : rotation.stops = .before)
    {thread : Nat} (below : thread < rotation.threadNum) : rotation.worker thread ≠ returned := by
  intro left
  have stopping := sound.seen thread below left
  rw [sound.quiet before] at stopping
  cases stopping

theorem Sound.step (sound : Sound index returned rotation)
    (move : Move index returned rotation mover fine after) : Sound index returned after := by
  obtain ⟨orderly, within, beyond, idle, seen, quiet, joined⟩ := sound
  cases move with
  | keep => exact ⟨orderly, within, beyond, idle, seen, quiet, joined⟩
  | @addTask lane prop func home below =>
    refine ⟨orderly.addTask home, fun other outside => ?_, beyond, idle, seen, quiet, joined⟩
    have apart : other ≠ lane := by
      simp only at outside
      omega
    rw [Lanes.pushed_addTask, if_neg apart]
    exact within other outside
  | promise before member =>
    exact ⟨orderly.promise member, within, beyond, idle, seen, quiet, joined⟩
  | stop => exact ⟨orderly, within, beyond, idle, seen, by simp, by simp⟩
  | storeStop called =>
    exact ⟨orderly, within, beyond, idle, fun _ _ _ => rfl, fun before => absurd before called, joined⟩
  | joined all => exact ⟨orderly, within, beyond, idle, seen, by simp, fun _ => all⟩
  | @work thread pc lanes below running stays worked =>
    have elsewhere {other : Nat} (left : Function.update rotation.worker thread pc other = returned) :
        other ≠ thread ∧ rotation.worker other = returned := by
      by_cases same : other = thread
      · rw [same, Function.update_self] at left
        exact absurd left stays
      · rw [Function.update_of_ne same] at left
        exact ⟨same, left⟩
    refine ⟨worked.orderly orderly, ?_, ?_, ?_, ?_, quiet, ?_⟩
    · exact fun lane outside => (worked.pushed lane).trans (within lane outside)
    · intro other outside
      have apart : other ≠ thread := by
        simp only at outside
        omega
      exact (Function.update_of_ne apart _ _).trans (beyond other outside)
    · intro other left
      obtain ⟨apart, was⟩ := elsewhere left
      exact (worked.executing apart).trans (idle other was)
    · exact fun other below left => seen other below (elsewhere left).2
    · intro done
      exact absurd (joined done thread below) running
  | @leave thread lanes below running worked idleAfter stopping =>
    refine ⟨worked.orderly orderly, ?_, ?_, ?_, fun _ _ _ => stopping, quiet, ?_⟩
    · exact fun lane outside => (worked.pushed lane).trans (within lane outside)
    · intro other outside
      by_cases same : other = thread
      · simp [same]
      · exact (Function.update_of_ne same _ _).trans (beyond other outside)
    · intro other left
      by_cases same : other = thread
      · rwa [same]
      · simp only [Function.update_of_ne same] at left
        exact (worked.executing same).trans (idle other left)
    · intro done
      exact absurd (joined done thread below) running

/-- A step leaves nothing promised behind exactly when it is fine. -/
theorem Sound.settled_step (sound : Sound index returned rotation)
    (move : Move index returned rotation mover fine after) :
    Settled returned after ↔ Settled returned rotation ∧ fine := by
  cases move with
  | keep => exact (and_iff_left trivial).symm
  | @addTask lane prop func home below =>
    refine Iff.trans ?_ (and_iff_left trivial).symm
    apply forall₃_congr
    intro thread _ _
    exact sound.orderly.owesNothing_addTask thread
  | promise before member =>
    refine Iff.trans ?_ (and_iff_left trivial).symm
    apply iff_of_true
    · intro thread below left
      exact absurd left (sound.not_returned before below)
    · intro thread below left
      exact absurd left (sound.not_returned before below)
  | stop => exact (and_iff_left trivial).symm
  | storeStop called => exact (and_iff_left trivial).symm
  | joined all => exact (and_iff_left trivial).symm
  | @work thread pc lanes below running stays worked =>
    refine Iff.trans (forall₂_congr fun other _ => ?_) (and_iff_left trivial).symm
    by_cases same : other = thread
    · subst same
      simp [stays, running]
    · simp [same, worked.owesNothing same]
  | @leave thread lanes below running worked idle seen =>
    constructor
    · intro settled
      refine ⟨fun other within left => ?_, settled thread below (Function.update_self ..)⟩
      have apart : other ≠ thread := by
        rintro rfl
        exact running left
      apply (worked.owesNothing apart).mp
      exact settled other within ((Function.update_of_ne apart _ _).trans left)
    · rintro ⟨settled, owes⟩ other within left
      by_cases same : other = thread
      · rwa [same]
      · simp only [Function.update_of_ne same] at left
        exact (worked.owesNothing same).mpr (settled other within left)

/-- When `stop` has returned, every promised task has been executed exactly when no worker has left
one behind. -/
theorem Sound.fulfilled_iff (sound : Sound index returned rotation) (done : rotation.stops = .returned) :
    rotation.lanes.Fulfilled ↔ Settled returned rotation := by
  have gone := sound.joined done
  have idle (thread : Nat) : rotation.lanes.executing thread = none := by
    apply sound.idle
    rcases Nat.lt_or_ge thread rotation.threadNum with below | outside
    · exact gone thread below
    · exact sound.beyond thread outside
  rw [sound.orderly.fulfilled_iff idle sound.within]
  apply forall₂_congr
  intro thread below
  exact ⟨fun owes _ => owes, fun settled => settled (gone thread below)⟩

/-- A pool that starts with no tasks and all its workers. -/
theorem sound_of_new {threadNum : Nat} {start : Pc} (different : start ≠ returned) :
    Sound index returned ⟨threadNum, false, (.construct : Lanes P F),
      fun thread => if thread < threadNum then start else returned, .before⟩ where
  orderly := Lanes.construct_orderly
  within := fun _ _ => rfl
  beyond := fun thread outside => if_neg (Nat.not_lt.mpr outside)
  idle := fun _ _ => rfl
  seen := by
    intro thread below left
    simp only [if_pos below] at left
    exact absurd left different
  quiet := fun _ => rfl
  joined := by simp

/-- The run of a pool each of whose steps is such a move: the tasks of a property are executed one
at a time, in order, and once each, and when `stop` has returned, those promised before it was called
have been executed if and only if every step has been fine. -/
theorem executes_all_iff {Pool Action : Type} [DecidableEq P] {next : Pool → Action → Option Pool}
    {guard fine : Pool → Action → Prop} (rotate : Pool → Rotation P F Pc) (fits : Pool → Prop)
    (kept : ∀ before action after, fits before → (rotate before).Sound index returned →
      guard before action → next before action = some after →
        fits after ∧ ∃ mover, Move index returned (rotate before) mover (fine before action) (rotate after))
    {pool after : Pool} {actions : List Action} (begins : fits pool)
    (sound : (rotate pool).Sound index returned) (new : (rotate pool).stops = .before)
    (path : Path (Guarded (Taken next) guard) pool actions after) :
    (rotate after).lanes.InOrder ∧ (rotate after).lanes.executed.Nodup ∧ (rotate after).lanes.Exclusive ∧
      ((rotate after).stops = .returned → ((rotate after).lanes.Fulfilled ↔
        ∀ state action, Path.Takes (Taken next) pool actions state action → fine state action)) := by
  have moves (before : Pool) (action : Action) (after : Pool)
      (both : fits before ∧ (rotate before).Sound index returned) (guarded : guard before action)
      (taken : next before action = some after) :
      (fits after ∧ (rotate after).Sound index returned) ∧
        ((rotate after).Settled returned ↔ (rotate before).Settled returned ∧ fine before action) := by
    obtain ⟨fitsAfter, mover, move⟩ := kept before action after both.1 both.2 guarded taken
    exact ⟨⟨fitsAfter, both.2.step move⟩, both.2.settled_step move⟩
  have ends := (path.invariant (fun pool => fits pool ∧ (rotate pool).Sound index returned)
    (fun before action after both step => (moves before action after both step.1 step.2).1)
    ⟨begins, sound⟩).2
  refine ⟨ends.orderly.inOrder, ends.orderly.nodup, ends.orderly.exclusive, fun done => ?_⟩
  rw [ends.fulfilled_iff done]
  apply path.iff_takes _ moves ⟨begins, sound⟩
  intro thread below left
  exact absurd left (sound.not_returned new below)

end Rotation

end BTool.TaskPool
