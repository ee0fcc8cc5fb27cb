import BTool.TaskQueue.LatestTask
import BTool.TaskQueue.ParallelTaskQueue
import BTool.TaskQueue.SerialRefinement

/-! What it means for the callers of `wait()` that `empty()` is true, in three queues: a
`SerialTaskQueue` keeps a task in its deque while it executes, a `LastTaskQueue` only marks
the property, and a `ParallelTaskQueue` forgets the task. -/

namespace BTool.TaskQueue

open BTool.Foundation

variable {P F W Q : Type} [DecidableEq P] [DecidableEq W] [DecidableEq Q]

namespace SerialTaskQueue

/-- No task waits or executes. -/
def State.Drained (state : State P F W) : Prop :=
  state.pending = [] ∧ ∀ worker, state.running worker = none

variable [DecidableEq F] {state : State P F W} {held : Finset P} {maxTaskCount : UInt64}
  {actions : List (Action P F W)}

omit [DecidableEq F] [DecidableEq W] in
/-- An executing task has its deque, so the queue is not empty. -/
theorem Intact.drained (intact : Intact state held) (empty : state.queue.empty = true) :
    state.Drained := by
  refine ⟨intact.consistent.tracks.pending_eq_nil empty, fun worker => ?_⟩
  cases isRunning : state.running worker with
  | none => rfl
  | some current =>
    have attached := intact.attached worker current isRunning
    have inside := intact.consistent.attached worker current isRunning attached
    have stands := intact.consistent.tracks.mem_keys.mpr (.inl inside)
    have nothing : state.queue.waitTasks.keys.card = 0 := by
      simpa [SerialTaskQueue.empty, size] using empty
    rw [Finset.card_eq_zero] at nothing
    simp [← Finmap.mem_keys, nothing] at stands

theorem drained_of_path (plain : ∀ action ∈ actions, action.Plain)
    (path : Path (Taken State.next) (.init maxTaskCount) actions state)
    (empty : state.queue.empty = true) : state.Drained := by
  have ⟨_, intact⟩ := (path.guard plain).invariant (fun state => ∃ held, Intact state held)
    (fun _ _ _ ⟨held, intact⟩ ⟨isPlain, taken⟩ =>
      ⟨heldAfter _ held _, intact.step isPlain.lasting.sparing taken⟩)
    ⟨∅, init_settled.toIntact⟩
  exact intact.drained empty

end SerialTaskQueue

namespace LastTaskQueue

/-- Adds of callable functions, and the two sections of `pop_task`. -/
def Action.Plain : Action P F W → Prop
  | .addTask _ func => func.isSome = true
  | .popBegin _ => True
  | .popFinish _ => True
  | _ => False

instance (action : Action P F W) : Decidable action.Plain := by
  induction action using Action.casesOn <;> unfold Action.Plain <;> infer_instance

omit [DecidableEq P] [DecidableEq W] in
theorem Action.Plain.callable {action : Action P F W} (plain : action.Plain) : action.Callable := by
  cases action with
  | addTask prop func => exact plain
  | _ => trivial

namespace State

def Drained (state : State P F W) : Prop :=
  (∀ prop, prop ∉ state.queue.waitTasks) ∧ ∀ worker, state.running worker = none

/-- The queue shows as empty only once nothing waits or executes. -/
def Honest (state : State P F W) : Prop := state.queue.empty = true → state.Drained

/-- A begin section does not take the only waiting property. -/
def LeavesWaiting (state : State P F W) : Action P F W → Prop
  | .popBegin _ => ∀ prop, state.queue.waitProps = [prop] → state.Busy prop
  | _ => True

variable {state after : State P F W} {action : Action P F W} {maxTaskCount : UInt64}
  {actions : List (Action P F W)}

omit [DecidableEq W] in
theorem empty_iff : state.queue.empty = true ↔ state.queue.waitProps = [] := by
  simp [LastTaskQueue.empty, notEmpty]

theorem Agrees.honest_step (agrees : state.Agrees) (honest : state.Honest) (plain : action.Plain)
    (taken : state.next action = some after) : after.Honest ↔ state.LeavesWaiting action := by
  cases action with
  | addTask prop func =>
    refine iff_of_true ?_ trivial
    rcases addTask_cases taken with ⟨_, rfl⟩ | ⟨_, rfl⟩
    · exact honest
    · exact fun empty => absurd (empty_iff.mp empty) (waits_setTask agrees.paired.toListed)
  | popBegin worker =>
    obtain ⟨free, ⟨none, rfl⟩ | ⟨prop, found, rfl⟩⟩ := popBegin_cases taken
    · refine iff_of_true honest fun prop only => ?_
      have blocked := List.find?_eq_none.mp none prop (by simp [only])
      rw [← agrees.busy_iff]
      simpa using blocked
    · have member := List.mem_of_find?_eq_some found
      by_cases only : state.queue.waitProps = [prop]
      · refine iff_of_false (fun honest' => ?_) (fun leaves => ?_)
        · obtain ⟨task, filed⟩ := agrees.waiting_task member
          have drained := honest' (empty_iff.mpr (by simp [take, withdraw, only]))
          have idle := drained.2 worker
          simp [take, filed] at idle
        · obtain ⟨_, _, _, idle, _⟩ := agrees.find?_iff.mp found
          exact idle (leaves prop only)
      · refine iff_of_true (fun empty => ?_) (fun other single => ?_)
        · have nothing := empty_iff.mp empty
          have rest := List.perm_cons_erase member
          simp only [take, withdraw] at nothing
          rw [nothing] at rest
          exact absurd (List.perm_singleton.mp rest) only
        · rw [single, List.mem_singleton] at member
          exact absurd (member ▸ single) only
  | popFinish worker =>
    obtain ⟨current, isRunning, rfl⟩ := popFinish_cases taken
    refine iff_of_true (fun empty => ?_) trivial
    have drained := honest (empty_iff.mpr (empty_iff.mp empty))
    simp [drained.2 worker] at isRunning
  | removeProp prop => cases plain
  | clear => cases plain
  | stop bwait => cases plain
  | start => cases plain

theorem honest_iff (plain : ∀ action ∈ actions, action.Plain)
    (path : Path (Taken next) (init maxTaskCount) actions state) :
    (∀ visited, Path.Visits (Taken next) (init maxTaskCount) actions visited → visited.Honest) ↔
      ∀ visited action, Path.Takes (Taken next) (init maxTaskCount) actions visited action →
        visited.LeavesWaiting action := by
  refine path.visits_iff_takes State.Agrees ?_ plain ?_ init_agrees
  · intro before action after agrees honest isPlain taken
    exact ⟨agrees.honest_step honest isPlain taken, fun _ => agrees.step isPlain.callable taken⟩
  · intro _
    exact ⟨by simp [init, construct, Finmap.notMem_empty], fun _ => rfl⟩

end State

end LastTaskQueue

namespace ParallelTaskQueue

variable {F Q W : Type} [DecidableEq Q] [DecidableEq W]

/-- Only callable functions are added. -/
def Action.Plain : Action F Q W → Prop
  | .callAdd _ func => func.isSome = true
  | _ => True

namespace State

def Drained (state : State F Q W) : Prop :=
  state.tasks.queue.items = [] ∧ ∀ worker, (state.popping worker).task = none

def Honest (state : State F Q W) : Prop := state.tasks.empty = true → state.Drained

/-- A worker does not dequeue the only task. -/
def LeavesTask (state : State F Q W) : Action F Q W → Prop
  | .pop worker => state.popping worker = .dequeue → ∀ task, state.tasks.queue.items ≠ [some task]
  | _ => True

/-- Every function in the queue or in the hands of a producer can be called. -/
structure Callable (state : State F Q W) : Prop where
  items : ∀ func ∈ state.tasks.queue.items, func.isSome = true
  producers : ∀ producer func, (state.adding producer).func = some func → func.isSome = true

variable {state after : State F Q W} {action : Action F Q W} {maxTaskCount : UInt64}
  {actions : List (Action F Q W)}

omit [DecidableEq Q] [DecidableEq W] in
theorem empty_iff : state.tasks.empty = true ↔ state.tasks.queue.items = [] := by
  rw [ParallelTaskQueue.empty, Bool.not_eq_true', notEmpty_eq_false]

omit [DecidableEq Q] [DecidableEq W] in
theorem init_callable : Callable (init maxTaskCount : State F Q W) where
  items := by simp [init, construct, Journal.empty]
  producers := by simp [init, AddStage.func]

omit [DecidableEq W] in
private theorem Callable.moveAdd (callable : state.Callable) {producer : Q}
    {tasks : ParallelTaskQueue F} {stage : AddStage F}
    (items : ∀ func ∈ tasks.queue.items, func.isSome = true)
    (carries : ∀ func, stage.func = some func → func.isSome = true) :
    (state.moveAdd producer tasks stage).Callable where
  items := items
  producers := by
    intro other func carried
    by_cases here : other = producer
    · subst here
      exact carries func (by simpa [State.moveAdd] using carried)
    · exact callable.producers other func (by simpa [State.moveAdd, here] using carried)

theorem Callable.step (callable : state.Callable) (plain : action.Plain)
    (taken : state.next action = some after) : after.Callable := by
  cases action with
  | callAdd producer func =>
    obtain ⟨_, rfl⟩ := callAdd_cases taken
    refine callable.moveAdd callable.items fun other carried => ?_
    cases carried
    exact plain
  | add producer =>
    obtain ⟨tasks, stage, stepped, rfl⟩ := add_cases taken
    have carries := callable.producers producer
    rcases addTask_cases stepped with ⟨func, pushes, rfl, rfl⟩ | ⟨rfl, kept⟩
    · refine callable.moveAdd (fun other member => ?_) (by simp [AddStage.func])
      rcases List.mem_append.mp member with before | new
      · exact callable.items other before
      · rw [List.mem_singleton.mp new]
        exact carries func (by rw [pushes]; rfl)
    · refine callable.moveAdd callable.items fun func carried => ?_
      exact carries func (kept func carried)
  | callPop worker =>
    obtain ⟨_, rfl⟩ := callPop_cases taken
    exact ⟨callable.items, callable.producers⟩
  | pop worker =>
    obtain ⟨tasks, stage, stepped, rfl⟩ := pop_cases taken
    refine ⟨fun func member => callable.items func ?_, callable.producers⟩
    rcases popTask_cases stepped with ⟨_, ⟨_, rfl, _⟩ | ⟨first, split, _⟩⟩ | ⟨_, rfl, _⟩
    · exact member
    · exact split ▸ List.mem_cons_of_mem first member
    · exact member

theorem honest_step (honest : state.Honest) (callable : state.Callable)
    (taken : state.next action = some after) : after.Honest ↔ state.LeavesTask action := by
  -- a worker that keeps the queue as it is holds no task that it did not hold before
  have keep {worker : W} {stage : PopStage F} (same : stage.task = none ∨
      stage.task = (state.popping worker).task) : (state.movePop worker state.tasks stage).Honest := by
    intro empty
    obtain ⟨nothing, idle⟩ := honest empty
    refine ⟨nothing, fun other => ?_⟩
    by_cases here : other = worker
    · subst here
      rcases same with none | same
      · simpa [movePop] using none
      · simpa [movePop, same] using idle other
    · simpa [movePop, here] using idle other
  cases action with
  | callAdd producer func =>
    obtain ⟨_, rfl⟩ := callAdd_cases taken
    exact iff_of_true honest trivial
  | add producer =>
    obtain ⟨tasks, stage, stepped, rfl⟩ := add_cases taken
    refine iff_of_true ?_ trivial
    rcases addTask_cases stepped with ⟨func, _, _, rfl⟩ | ⟨rfl, _⟩
    · intro empty
      have nothing := empty_iff.mp empty
      simp [moveAdd] at nothing
    · exact honest
  | callPop worker =>
    obtain ⟨_, rfl⟩ := callPop_cases taken
    exact iff_of_true (keep (.inl rfl)) trivial
  | pop worker =>
    obtain ⟨tasks, stage, stepped, rfl⟩ := pop_cases taken
    rcases popTask_cases stepped with
      ⟨there, ⟨nothing, rfl, rfl⟩ | ⟨func, split, rfl⟩⟩ | ⟨elsewhere, rfl, same⟩
    · exact iff_of_true (keep (.inl rfl)) fun _ task only => by simp [nothing] at only
    · obtain ⟨task, rfl⟩ := Option.isSome_iff_exists.mp (callable.items func (by simp [split]))
      by_cases last : tasks.queue.items = []
      · refine iff_of_false (fun honest' => ?_) (fun leaves => ?_)
        · have idle := (honest' (empty_iff.mpr last)).2 worker
          simp [movePop, PopStage.task] at idle
        · exact leaves there task (by rw [split, last])
      · refine iff_of_true (fun empty => absurd (empty_iff.mp empty) last) fun _ other only => ?_
        rw [split] at only
        exact last (List.cons.inj only).2
    · exact iff_of_true (keep same) fun there => absurd there elsewhere

theorem honest_iff (plain : ∀ action ∈ actions, action.Plain)
    (path : Path (Taken next) (init maxTaskCount) actions state) :
    (∀ visited, Path.Visits (Taken next) (init maxTaskCount) actions visited → visited.Honest) ↔
      ∀ visited action, Path.Takes (Taken next) (init maxTaskCount) actions visited action →
        visited.LeavesTask action := by
  refine path.visits_iff_takes State.Callable ?_ plain ?_ init_callable
  · intro before action after callable honest isPlain taken
    exact ⟨honest_step honest callable taken, fun _ => callable.step isPlain taken⟩
  · intro _
    exact ⟨rfl, fun _ => rfl⟩

end State

end ParallelTaskQueue

variable [DecidableEq F]

/-- A `SerialTaskQueue` that shows as empty has no task waiting or executing, after any adds of
callable functions, begins and finishes. The other two queues show as empty only when drained, all
along a run, exactly if no step of the run takes their only waiting task. -/
theorem drained_when_empty_iff :
    (∀ (maxTaskCount : UInt64) (actions : List (SerialTaskQueue.Action P F W))
      (last : SerialTaskQueue.State P F W), (∀ action ∈ actions, action.Plain) →
      Path (Taken SerialTaskQueue.State.next) (.init maxTaskCount) actions last →
      last.queue.empty = true → last.Drained) ∧
    (∀ (maxTaskCount : UInt64) (actions : List (LastTaskQueue.Action P F W))
      (last : LastTaskQueue.State P F W), (∀ action ∈ actions, action.Plain) →
      Path (Taken LastTaskQueue.State.next) (.init maxTaskCount) actions last →
      ((∀ state, Path.Visits (Taken LastTaskQueue.State.next) (.init maxTaskCount) actions state →
          state.queue.empty = true → state.Drained) ↔
        ∀ state action, Path.Takes (Taken LastTaskQueue.State.next) (.init maxTaskCount) actions
          state action → state.LeavesWaiting action)) ∧
    (∀ (maxTaskCount : UInt64) (actions : List (ParallelTaskQueue.Action F Q W))
      (last : ParallelTaskQueue.State F Q W), (∀ action ∈ actions, action.Plain) →
      Path (Taken ParallelTaskQueue.State.next) (.init maxTaskCount) actions last →
      ((∀ state, Path.Visits (Taken ParallelTaskQueue.State.next) (.init maxTaskCount) actions state →
          state.tasks.empty = true → state.Drained) ↔
        ∀ state action, Path.Takes (Taken ParallelTaskQueue.State.next) (.init maxTaskCount) actions
          state action → state.LeavesTask action)) := by
  refine ⟨?_, ?_, ?_⟩
  · intro maxTaskCount actions last plain path
    exact SerialTaskQueue.drained_of_path plain path
  · intro maxTaskCount actions last plain path
    exact LastTaskQueue.State.honest_iff plain path
  · intro maxTaskCount actions last plain path
    exact ParallelTaskQueue.State.honest_iff plain path

/-- One task, taken and finished. -/
def oneSerial : List (SerialTaskQueue.Action Nat Nat (Fin 1)) :=
  [.addTask 1 (some 10), .popBegin 0, .popFinish 0]

/-- The task of one of two properties, taken and finished. -/
def oneOfTwo : List (LastTaskQueue.Action Nat Nat (Fin 1)) :=
  [.addTask 1 (some 10), .addTask 2 (some 20), .popBegin 0, .popFinish 0]

/-- One of two tasks, taken and finished. -/
def oneParallel : List (ParallelTaskQueue.Action Nat (Fin 1) (Fin 1)) :=
  List.flatten
    [[.callAdd 0 (some 5)], List.replicate 5 (.add 0), [.callAdd 0 (some 6)],
      List.replicate 5 (.add 0), [.callPop 0], List.replicate 6 (.pop 0)]

instance (action : ParallelTaskQueue.Action F Q W) : Decidable action.Plain := by
  cases action <;> unfold ParallelTaskQueue.Action.Plain <;> infer_instance

theorem drained_when_empty_iff_one_task :
    (∃ last : SerialTaskQueue.State Nat Nat (Fin 1),
      Path (Taken SerialTaskQueue.State.next) (.init 0) oneSerial last ∧ last.Drained) ∧
    ((∀ state : LastTaskQueue.State Nat Nat (Fin 1),
        Path.Visits (Taken LastTaskQueue.State.next) (.init 0) oneOfTwo state →
        state.queue.empty = true → state.Drained) ↔
      ∀ state action, Path.Takes (Taken LastTaskQueue.State.next)
        (.init 0 : LastTaskQueue.State Nat Nat (Fin 1)) oneOfTwo state action →
        state.LeavesWaiting action) ∧
    ((∀ state : ParallelTaskQueue.State Nat (Fin 1) (Fin 1),
        Path.Visits (Taken ParallelTaskQueue.State.next) (.init 0) oneParallel state →
        state.tasks.empty = true → state.Drained) ↔
      ∀ state action, Path.Takes (Taken ParallelTaskQueue.State.next)
        (.init 0 : ParallelTaskQueue.State Nat (Fin 1) (Fin 1)) oneParallel state action →
        state.LeavesTask action) := by
  obtain ⟨serial, last, parallel⟩ := @drained_when_empty_iff Nat Nat (Fin 1) (Fin 1) _ _ _ _
  refine ⟨?_, ?_, ?_⟩
  · have runs : ∃ state ∈ exec SerialTaskQueue.State.next
        (.init 0 : SerialTaskQueue.State Nat Nat (Fin 1)) oneSerial, state.queue.empty = true := by
      decide
    obtain ⟨state, ends, empty⟩ := runs
    have path := exec_eq_some_iff.mp ends
    exact ⟨state, path, serial 0 oneSerial state (by decide) path empty⟩
  · have runs : (exec LastTaskQueue.State.next (.init 0 : LastTaskQueue.State Nat Nat (Fin 1))
        oneOfTwo).isSome = true := by
      decide
    obtain ⟨state, ends⟩ := Option.isSome_iff_exists.mp runs
    exact last 0 oneOfTwo state (by decide) (exec_eq_some_iff.mp ends)
  · have runs : (exec ParallelTaskQueue.State.next
        (.init 0 : ParallelTaskQueue.State Nat (Fin 1) (Fin 1)) oneParallel).isSome = true := by
      decide
    obtain ⟨state, ends⟩ := Option.isSome_iff_exists.mp runs
    exact parallel 0 oneParallel state (by decide) (exec_eq_some_iff.mp ends)

/-- One task added to a `ParallelTaskQueue`, and dequeued by a worker. -/
def dequeueOnly : List (ParallelTaskQueue.Action Nat (Fin 1) (Fin 1)) :=
  List.flatten
    [[.callAdd 0 (some 5)], List.replicate 5 (.add 0), [.callPop 0], List.replicate 5 (.pop 0)]

/-- The only task is executing, and the queue that it was taken from shows as empty. -/
theorem empty_while_executing :
    (∃ state : LastTaskQueue.State Nat Nat (Fin 1),
      Path (Taken LastTaskQueue.State.next) (.init 0) [.addTask 1 (some 10), .popBegin 0] state ∧
      state.queue.empty = true ∧ state.running 0 = some (1, 10) ∧ ¬ state.Drained) ∧
    ∃ state : ParallelTaskQueue.State Nat (Fin 1) (Fin 1),
      Path (Taken ParallelTaskQueue.State.next) (.init 0) dequeueOnly state ∧
      state.tasks.empty = true ∧ state.popping 0 = .executing 5 ∧ ¬ state.Drained := by
  constructor
  · have runs : ∃ state ∈ exec LastTaskQueue.State.next
        (.init 0 : LastTaskQueue.State Nat Nat (Fin 1)) [.addTask 1 (some 10), .popBegin 0],
        state.queue.empty = true ∧ state.running 0 = some (1, 10) := by
      decide
    obtain ⟨state, ends, empty, running⟩ := runs
    refine ⟨state, exec_eq_some_iff.mp ends, empty, running, fun drained => ?_⟩
    simp [drained.2 0] at running
  · have runs : ∃ state ∈ exec ParallelTaskQueue.State.next
        (.init 0 : ParallelTaskQueue.State Nat (Fin 1) (Fin 1)) dequeueOnly,
        state.tasks.empty = true ∧ state.popping 0 = .executing 5 := by
      decide
    obtain ⟨state, ends, empty, executing⟩ := runs
    refine ⟨state, exec_eq_some_iff.mp ends, empty, executing, fun drained => ?_⟩
    have idle := drained.2 0
    simp [executing, ParallelTaskQueue.PopStage.task] at idle

end BTool.TaskQueue
