import BTool.TaskPool.TaskPoolBase
import BTool.TaskQueue.SerialSections

/-! A `SerialTaskPool` is a `TaskPoolBase` over a `SerialTaskQueue`. -/

namespace BTool.TaskPool

open BTool.TaskQueue BTool.TaskQueue.SerialTaskQueue

variable {P F C : Type} [DecidableEq P] [DecidableEq F]

namespace SerialTaskPool

/-- The tests of the capacity and the waits of `add_task` only delay its section. -/
def addTask (state : State P F Nat) (add : P × TaskItem F) : State P F Nat :=
  (state.next (.addTask add.1 add.2)).getD state

def popTask (state : State P F Nat) (thread : Nat) : Option (State P F Nat × Bool) :=
  match state.running thread with
  | none => (state.next (.popBegin thread)).map fun after => (after, (after.running thread).isSome)
  | some _ => (state.next (.popFinish thread)).map fun after => (after, false)

variable {state after : State P F Nat} {thread : Nat} {more : Bool}

theorem next_addTask (add : P × TaskItem F) :
    state.next (.addTask add.1 add.2) = some (addTask state add) := rfl

/-- A step of `pop_task` is one of its two sections. -/
theorem popTask_cases (popped : popTask state thread = some (after, more)) :
    (state.running thread = none ∧ state.next (.popBegin thread) = some after ∧
        more = (after.running thread).isSome) ∨
      ((state.running thread).isSome = true ∧ state.next (.popFinish thread) = some after ∧
        more = false) := by
  unfold popTask at popped
  split at popped
  · rename_i free
    obtain ⟨reached, begun, same⟩ := Option.map_eq_some_iff.mp popped
    cases same
    exact .inl ⟨free, begun, rfl⟩
  · rename_i current busy
    obtain ⟨reached, finished, same⟩ := Option.map_eq_some_iff.mp popped
    cases same
    exact .inr ⟨by simp [busy], finished, rfl⟩

theorem bstop_popTask (popped : popTask state thread = some (after, more)) :
    after.queue.bstop = state.queue.bstop := by
  rcases popTask_cases popped with ⟨_, begun, _⟩ | ⟨_, finished, _⟩
  · obtain ⟨_, ⟨_, rfl⟩ | ⟨prop, func, queue, takes, rfl⟩⟩ := State.popBegin_cases begun
    · rfl
    · exact (popBegin_frame takes).2.2.2.1
  · obtain ⟨current, queue, _, finishes, rfl⟩ := State.popFinish_cases finished
    exact (popFinish_frame finishes).2.1

theorem bstop_addTask (add : P × TaskItem F) :
    (addTask state add).queue.bstop = state.queue.bstop := by
  rcases State.addTask_cases (next_addTask add) with ⟨_, same⟩ | ⟨_, same⟩ <;> rw [same]
  rfl

omit [DecidableEq F] in
theorem bstop_stop (bwait : Bool) : (state.queue.stop bwait).bstop = true := by
  unfold SerialTaskQueue.stop
  split
  · assumption
  · cases bwait <;> rfl

instance : TQueueType (State P F Nat) (P × TaskItem F) where
  bstop state := state.queue.bstop
  empty state := state.queue.empty
  start state := (state.next .start).getD state
  stop state bwait := (state.next (.stop bwait)).getD state
  addTask := addTask
  popTask := popTask
  bstop_start _ := rfl
  bstop_stop _ bwait := bstop_stop bwait
  bstop_addTask _ add := bstop_addTask add
  bstop_popTask := bstop_popTask

end SerialTaskPool

/-- A `SerialTaskPool` whose callers are `C`. -/
abbrev SerialTaskPool (P F C : Type) [DecidableEq P] : Type :=
  TaskPoolBase (State P F Nat) (P × TaskItem F) C

end BTool.TaskPool
