import BTool.Foundation.Marks
import BTool.TaskQueue.LastTaskQueue
import BTool.TaskQueue.SerialSections

/-! The running sets `m_cur_props` and `m_cur_pop_props` against the tasks that workers
have taken: `pop_task` marks a property in its first section and unmarks it in its second,
which it only comes to when the function it took can be called. -/

namespace BTool.TaskQueue

open BTool.Foundation

variable {P F W : Type} [DecidableEq P] [DecidableEq F] [DecidableEq W]

namespace SerialTaskQueue

variable {state after : State P F W} {action : Action P F W} {queue after' : SerialTaskQueue P F}
  {prop : P} {func : TaskItem F}

/-- The sections of `add_task`, `pop_task` and `remove_prop`. -/
def Action.Ordinary : Action P F W → Prop
  | .clear => False
  | .stop _ => False
  | .start => False
  | _ => True

instance (action : Action P F W) : Decidable action.Ordinary := by
  induction action using Action.casesOn <;> unfold Action.Ordinary <;> infer_instance

/-- The running set, and who executes which property. -/
def State.marks (state : State P F W) : Marks P W :=
  ⟨state.queue.curProps, fun worker => (state.running worker).map Running.prop⟩

/-- A begin section that goes on finds a callable function at the front of the deque of
the first waiting property that may be popped. -/
def FindsCallable (state : State P F W) : Action P F W → Prop
  | .popBegin _ => state.queue.notEmpty = true →
      ∃ prop task rest, state.queue.waitProps.props.find? state.queue.waitProps.ready = some prop ∧
        state.queue.waitTasks.lookup prop = some (some task :: rest)
  | _ => True

omit [DecidableEq F] in
/-- The property a begin section takes is the first that may be popped, and the function
is the front of its deque, or empty when it has none. -/
theorem popBegin_source (takes : queue.popBegin = .takes prop func after') :
    queue.waitProps.props.find? queue.waitProps.ready = some prop ∧
      func = ((queue.waitTasks.lookup prop).bind List.head?).getD none := by
  unfold popBegin at takes
  split at takes
  · cases takes
  split at takes
  · cases takes
  split at takes
  · cases takes
  rename_i popped
  split at takes
  · cases takes
  have first := WaitProps.find?_of_popFront popped
  dsimp only at takes
  split at takes
  · rename_i found
    cases takes
    exact ⟨first, by simp [found]⟩
  · cases takes
  · rename_i found
    cases takes
    exact ⟨first, by simp [found]⟩

omit [DecidableEq P] [DecidableEq F] [DecidableEq W] in
private theorem front_isSome {tasks : Option (List (TaskItem F))} :
    ((tasks.bind List.head?).getD none).isSome = true ↔
      ∃ task rest, tasks = some (some task :: rest) := by
  rcases tasks with _ | _ | ⟨_ | task, rest⟩ <;> simp

omit [DecidableEq F] [DecidableEq W] in
private theorem busy_detach {running : W → Option (Running P F)} (worker : W) :
    (detach queue running worker).map Running.prop = (running worker).map Running.prop := by
  cases found : running worker <;> simp [detach, found]

/-- Only a begin section that finds no callable function marks a property for nobody. -/
theorem marks_change (ordinary : action.Ordinary) (taken : state.next action = some after) :
    ∃ fine, state.marks.Change fine after.marks ∧ (fine = true ↔ FindsCallable state action) := by
  cases action with
  | addTask prop func =>
    refine ⟨true, ?_, by simp [FindsCallable]⟩
    rcases State.addTask_cases taken with ⟨_, rfl⟩ | ⟨_, rfl⟩ <;> exact .same _
  | popBegin worker =>
    obtain ⟨isFree, ⟨begun, rfl⟩ | ⟨prop, func, queue, begun, rfl⟩⟩ := State.popBegin_cases taken
    · exact ⟨true, .same _, by simp [FindsCallable, (popBegin_returns begun).2]⟩
    · obtain ⟨unmarked, seen, marks, _⟩ := popBegin_frame begun
      obtain ⟨first, source⟩ := popBegin_source begun
      refine ⟨func.isSome, ?_, ?_⟩
      · have idle : state.marks.busy worker = none := by simp [State.marks, isFree]
        have change := Marks.Change.take state.marks worker prop func idle unmarked
        simpa [State.marks, State.take, marks, Marks.busy_update, Function.comp_def] using change
      · rw [source, front_isSome]
        constructor
        · rintro ⟨task, rest, found⟩ _
          exact ⟨prop, task, rest, first, found⟩
        · intro finds
          obtain ⟨prop', task, rest, first', found⟩ := finds seen
          obtain rfl : prop = prop' := Option.some.inj (first.symm.trans first')
          exact ⟨task, rest, found⟩
  | popFinish worker =>
    obtain ⟨current, queue, isRunning, finished, rfl⟩ := State.popFinish_cases taken
    have used : state.marks.busy worker = some current.prop := by simp [State.marks, isRunning]
    have release := Marks.Change.release state.marks worker current.prop used
    refine ⟨true, ?_, by simp [FindsCallable]⟩
    simpa [State.marks, State.finish, (popFinish_frame finished).1, busy_detach, Marks.busy_update]
      using release
  | removeProp prop =>
    cases taken
    refine ⟨true, ?_, by simp [FindsCallable]⟩
    have unchanged := Marks.Change.same state.marks
    simpa [State.marks, busy_detach, SerialTaskQueue.removeProp] using unchanged
  | clear => cases ordinary
  | stop bwait => cases ordinary
  | start => cases ordinary

end SerialTaskQueue

namespace LastTaskQueue

variable {state after : State P F W} {action : Action P F W}

def Action.Ordinary : Action P F W → Prop
  | .clear => False
  | .stop _ => False
  | .start => False
  | _ => True

instance (action : Action P F W) : Decidable action.Ordinary := by
  induction action using Action.casesOn <;> unfold Action.Ordinary <;> infer_instance

def State.marks (state : State P F W) : Marks P W :=
  ⟨state.queue.curPopProps, fun worker => (state.running worker).map Prod.fst⟩

omit [DecidableEq P] [DecidableEq F] [DecidableEq W] in
private theorem getD_isSome {item : Option (TaskItem F)} :
    (item.getD none).isSome = true ↔ ∃ task, item = some (some task) := by
  rcases item with _ | _ | task <;> simp

/-- A begin section that finds a waiting property which is not running finds a callable
function for it. -/
def FindsCallable (state : State P F W) : Action P F W → Prop
  | .popBegin _ => ∀ prop,
      state.queue.waitProps.find? (fun prop => prop ∉ state.queue.curPopProps) = some prop →
        ∃ task, state.queue.waitTasks.lookup prop = some (some task)
  | _ => True

omit [DecidableEq F] in
/-- Only a begin section that finds no callable function marks a property for nobody. -/
theorem marks_change (ordinary : action.Ordinary) (taken : state.next action = some after) :
    ∃ fine, state.marks.Change fine after.marks ∧ (fine = true ↔ FindsCallable state action) := by
  cases action with
  | addTask prop func =>
    refine ⟨true, ?_, by simp [FindsCallable]⟩
    rcases State.addTask_cases taken with ⟨_, rfl⟩ | ⟨_, rfl⟩ <;> exact .same _
  | popBegin worker =>
    obtain ⟨isFree, ⟨nothing, rfl⟩ | ⟨prop, first, rfl⟩⟩ := State.popBegin_cases taken
    · refine ⟨true, .same _, iff_of_true rfl fun prop found => ?_⟩
      rw [nothing] at found
      cases found
    · have unmarked : prop ∉ state.queue.curPopProps := by simpa using List.find?_some first
      refine ⟨((state.queue.waitTasks.lookup prop).getD none).isSome, ?_, ?_⟩
      · have idle : state.marks.busy worker = none := by simp [State.marks, isFree]
        have change := Marks.Change.take state.marks worker prop
          ((state.queue.waitTasks.lookup prop).getD none) idle unmarked
        simpa [State.marks, State.take, withdraw, Marks.busy_update, Function.comp_def] using change
      · rw [getD_isSome]
        constructor
        · rintro ⟨task, found⟩ other first'
          obtain rfl : prop = other := Option.some.inj (first.symm.trans first')
          exact ⟨task, found⟩
        · exact fun finds => finds prop first
  | popFinish worker =>
    obtain ⟨current, isRunning, rfl⟩ := State.popFinish_cases taken
    have used : state.marks.busy worker = some current.1 := by simp [State.marks, isRunning]
    have release := Marks.Change.release state.marks worker current.1 used
    refine ⟨true, ?_, by simp [FindsCallable]⟩
    simpa [State.marks, popFinish, Marks.busy_update] using release
  | removeProp prop =>
    cases taken
    exact ⟨true, .same _, by simp [FindsCallable]⟩
  | clear => cases ordinary
  | stop bwait => cases ordinary
  | start => cases ordinary

end LastTaskQueue

/-- In either queue the running set is exact in every state of a run of adds, begins,
finishes and removals if and only if every begin section of the run finds a callable
function. -/
theorem running_set_exact_iff :
    (∀ (maxTaskCount : UInt64) (actions : List (SerialTaskQueue.Action P F W))
      (last : SerialTaskQueue.State P F W), (∀ action ∈ actions, action.Ordinary) →
      Path (Taken SerialTaskQueue.State.next) (.init maxTaskCount) actions last →
      ((∀ state, Path.Visits (Taken SerialTaskQueue.State.next) (.init maxTaskCount) actions state →
          state.marks.Exact) ↔
        ∀ state action, Path.Takes (Taken SerialTaskQueue.State.next) (.init maxTaskCount) actions
          state action → SerialTaskQueue.FindsCallable state action)) ∧
    (∀ (maxTaskCount : UInt64) (actions : List (LastTaskQueue.Action P F W))
      (last : LastTaskQueue.State P F W), (∀ action ∈ actions, action.Ordinary) →
      Path (Taken LastTaskQueue.State.next) (.init maxTaskCount) actions last →
      ((∀ state, Path.Visits (Taken LastTaskQueue.State.next) (.init maxTaskCount) actions state →
          state.marks.Exact) ↔
        ∀ state action, Path.Takes (Taken LastTaskQueue.State.next) (.init maxTaskCount) actions
          state action → LastTaskQueue.FindsCallable state action)) := by
  constructor
  · intro maxTaskCount actions last ordinary path
    refine path.visits_iff_takes (fun state => state.marks.Exclusive) ?_ ordinary ?_ ?_
    · intro before action after exclusive tight isOrdinary taken
      obtain ⟨fine, change, same⟩ := SerialTaskQueue.marks_change isOrdinary taken
      obtain ⟨tight', exclusive'⟩ := change.exact_iff tight exclusive
      exact ⟨tight'.trans same, fun still => exclusive' (tight'.mp still)⟩
    · intro prop
      simp [SerialTaskQueue.State.marks, SerialTaskQueue.State.init, SerialTaskQueue.construct]
    · intro first second prop used
      simp [SerialTaskQueue.State.marks, SerialTaskQueue.State.init] at used
  · intro maxTaskCount actions last ordinary path
    refine path.visits_iff_takes (fun state => state.marks.Exclusive) ?_ ordinary ?_ ?_
    · intro before action after exclusive tight isOrdinary taken
      obtain ⟨fine, change, same⟩ := LastTaskQueue.marks_change isOrdinary taken
      obtain ⟨tight', exclusive'⟩ := change.exact_iff tight exclusive
      exact ⟨tight'.trans same, fun still => exclusive' (tight'.mp still)⟩
    · intro prop
      simp [LastTaskQueue.State.marks, LastTaskQueue.State.init, LastTaskQueue.construct]
    · intro first second prop used
      simp [LastTaskQueue.State.marks, LastTaskQueue.State.init] at used

/-- An empty function is taken and not called: its property is marked for nobody. -/
theorem empty_function_stays_marked :
    (∃ state, Path (Taken SerialTaskQueue.State.next)
      (.init 0 : SerialTaskQueue.State Nat Nat (Fin 1)) [.addTask 1 none, .popBegin 0] state ∧
      1 ∈ state.queue.curProps ∧ state.running 0 = none ∧ ¬ state.marks.Exact) ∧
    (∃ state, Path (Taken LastTaskQueue.State.next)
      (.init 0 : LastTaskQueue.State Nat Nat (Fin 1)) [.addTask 1 none, .popBegin 0] state ∧
      1 ∈ state.queue.curPopProps ∧ state.running 0 = none ∧ ¬ state.marks.Exact) := by
  constructor
  · have runs : ∃ state ∈ exec SerialTaskQueue.State.next
        (.init 0 : SerialTaskQueue.State Nat Nat (Fin 1)) [.addTask 1 none, .popBegin 0],
        1 ∈ state.queue.curProps ∧ state.running 0 = none := by
      decide
    obtain ⟨state, ends, marked, idle⟩ := runs
    refine ⟨state, exec_eq_some_iff.mp ends, marked, idle, ?_⟩
    intro tight
    obtain ⟨worker, used⟩ := (tight 1).mp marked
    simp [SerialTaskQueue.State.marks, Subsingleton.elim worker 0, idle] at used
  · have runs : ∃ state ∈ exec LastTaskQueue.State.next
        (.init 0 : LastTaskQueue.State Nat Nat (Fin 1)) [.addTask 1 none, .popBegin 0],
        1 ∈ state.queue.curPopProps ∧ state.running 0 = none := by
      decide
    obtain ⟨state, ends, marked, idle⟩ := runs
    refine ⟨state, exec_eq_some_iff.mp ends, marked, idle, ?_⟩
    intro tight
    obtain ⟨worker, used⟩ := (tight 1).mp marked
    simp [LastTaskQueue.State.marks, Subsingleton.elim worker 0, idle] at used

/-- One task that is started, removed from and finished, in both queues. -/
theorem running_set_exact_iff_one_task :
    ((∀ state, Path.Visits (Taken SerialTaskQueue.State.next)
        (.init 0 : SerialTaskQueue.State Nat Nat (Fin 1))
        [.addTask 1 (some 10), .popBegin 0, .removeProp 1, .popFinish 0] state →
        state.marks.Exact) ↔
      ∀ state action, Path.Takes (Taken SerialTaskQueue.State.next)
        (.init 0 : SerialTaskQueue.State Nat Nat (Fin 1))
        [.addTask 1 (some 10), .popBegin 0, .removeProp 1, .popFinish 0] state action →
        SerialTaskQueue.FindsCallable state action) ∧
    ((∀ state, Path.Visits (Taken LastTaskQueue.State.next)
        (.init 0 : LastTaskQueue.State Nat Nat (Fin 1))
        [.addTask 1 (some 10), .popBegin 0, .removeProp 1, .popFinish 0] state →
        state.marks.Exact) ↔
      ∀ state action, Path.Takes (Taken LastTaskQueue.State.next)
        (.init 0 : LastTaskQueue.State Nat Nat (Fin 1))
        [.addTask 1 (some 10), .popBegin 0, .removeProp 1, .popFinish 0] state action →
        LastTaskQueue.FindsCallable state action) := by
  have serial : (exec SerialTaskQueue.State.next (.init 0 : SerialTaskQueue.State Nat Nat (Fin 1))
      [.addTask 1 (some 10), .popBegin 0, .removeProp 1, .popFinish 0]).isSome = true := by
    decide
  have last : (exec LastTaskQueue.State.next (.init 0 : LastTaskQueue.State Nat Nat (Fin 1))
      [.addTask 1 (some 10), .popBegin 0, .removeProp 1, .popFinish 0]).isSome = true := by
    decide
  obtain ⟨_, serialEnds⟩ := Option.isSome_iff_exists.mp serial
  obtain ⟨_, lastEnds⟩ := Option.isSome_iff_exists.mp last
  exact ⟨running_set_exact_iff.1 0 _ _ (by decide) (exec_eq_some_iff.mp serialEnds),
    running_set_exact_iff.2 0 _ _ (by decide) (exec_eq_some_iff.mp lastEnds)⟩

end BTool.TaskQueue
