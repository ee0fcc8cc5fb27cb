import BTool.TaskQueue.RunningSet

/-! Which task a `LastTaskQueue` starts.

A property waits at most once, with the task added for it last, and the properties that
wait stand in the order in which they began to. -/

namespace BTool.TaskQueue

open BTool.Foundation

namespace LastTaskQueue

variable {P F W : Type} [DecidableEq P] [DecidableEq W]

/-- Every function that is added can be called. -/
def Action.Callable : Action P F W → Prop
  | .addTask _ func => func.isSome = true
  | _ => True

instance (action : Action P F W) : Decidable action.Callable := by
  induction action using Action.casesOn <;> unfold Action.Callable <;> infer_instance

/-- A section of `pop_task`. -/
def Action.Pops : Action P F W → Prop
  | .popBegin _ => True
  | .popFinish _ => True
  | _ => False

/-- The list and the map of what waits have the same properties, each once. -/
structure Listed (queue : LastTaskQueue P F) : Prop where
  nodup : queue.waitProps.Nodup
  keys : ∀ prop, prop ∈ queue.waitProps ↔ prop ∈ queue.waitTasks

/-- And every function that waits can be called. -/
structure Paired (queue : LastTaskQueue P F) : Prop extends Listed queue where
  callable : ∀ prop item, queue.waitTasks.lookup prop = some item → item.isSome = true

section Paired

variable {queue : LastTaskQueue P F} {prop : P} {func : TaskItem F}

theorem waitProps_setTask (listed : queue.Listed) : (queue.setTask prop func).waitProps =
    if prop ∈ queue.waitProps then queue.waitProps else queue.waitProps ++ [prop] := by
  by_cases waiting : prop ∈ queue.waitProps
  · have found := Finmap.lookup_isSome.mpr ((listed.keys prop).mp waiting)
    simp [setTask, waiting, Option.isSome_iff_ne_none.mp found]
  · have missing := Finmap.lookup_eq_none.mpr (fun inside => waiting ((listed.keys prop).mpr inside))
    simp [setTask, waiting, missing]

theorem waits_setTask (listed : queue.Listed) : (queue.setTask prop func).waitProps ≠ [] := by
  rw [waitProps_setTask listed]
  split
  · rename_i inside
    exact List.ne_nil_of_mem inside
  · simp

theorem Listed.setTask (listed : queue.Listed) : (queue.setTask prop func).Listed where
  nodup := by
    rw [waitProps_setTask listed]
    split
    · exact listed.nodup
    · rename_i absent
      exact listed.nodup.append (List.nodup_singleton prop) (by simpa using absent)
  keys := by
    intro other
    rw [waitProps_setTask listed]
    have same := listed.keys other
    split <;> rename_i waiting <;> by_cases here : other = prop <;>
      simp_all [LastTaskQueue.setTask, Finmap.mem_insert]

theorem Listed.withdraw (listed : queue.Listed) : (queue.withdraw prop).Listed where
  nodup := listed.nodup.erase prop
  keys := by
    intro other
    simp [LastTaskQueue.withdraw, listed.nodup.mem_erase_iff, listed.keys, Finmap.mem_erase]

theorem Listed.removeProp (listed : queue.Listed) : (queue.removeProp prop).Listed where
  nodup := listed.nodup.filter _
  keys := by
    intro other
    simp [LastTaskQueue.removeProp, listed.keys, Finmap.mem_erase, and_comm]

theorem Listed.clearInner : queue.clearInner.Listed where
  nodup := List.nodup_nil
  keys := by simp [LastTaskQueue.clearInner, Finmap.notMem_empty]

theorem Listed.stop (listed : queue.Listed) (bwait : Bool) : (queue.stop bwait).Listed := by
  unfold LastTaskQueue.stop
  split
  · exact listed
  · cases bwait
    · exact .clearInner
    · exact ⟨listed.nodup, listed.keys⟩

/-- What waits now waited before. -/
private theorem Paired.of_lookup {after : LastTaskQueue P F} (paired : queue.Paired) (listed : after.Listed)
    (kept : ∀ prop item, after.waitTasks.lookup prop = some item → queue.waitTasks.lookup prop = some item) :
    after.Paired :=
  ⟨listed, fun prop item found => paired.callable prop item (kept prop item found)⟩

theorem Paired.setTask (paired : queue.Paired) (callable : func.isSome = true) :
    (queue.setTask prop func).Paired := by
  refine ⟨paired.toListed.setTask, fun other item found => ?_⟩
  by_cases here : other = prop
  · subst here
    simp only [LastTaskQueue.setTask, Finmap.lookup_insert, Option.some.injEq] at found
    exact found ▸ callable
  · simp only [LastTaskQueue.setTask, Finmap.lookup_insert_of_ne _ here] at found
    exact paired.callable other item found

private theorem lookup_of_erase {tasks : Finmap fun _ : P => TaskItem F} {other : P}
    (found : (tasks.erase prop).lookup other = some func) : tasks.lookup other = some func := by
  by_cases here : other = prop
  · subst here
    simp at found
  · rwa [Finmap.lookup_erase_ne here] at found

theorem Paired.removeProp (paired : queue.Paired) : (queue.removeProp prop).Paired :=
  paired.of_lookup paired.toListed.removeProp fun _ _ found => lookup_of_erase found

theorem Paired.clearInner : queue.clearInner.Paired := ⟨.clearInner, by simp [LastTaskQueue.clearInner]⟩

theorem Paired.stop (paired : queue.Paired) (bwait : Bool) : (queue.stop bwait).Paired := by
  refine paired.of_lookup (paired.toListed.stop bwait) fun other item found => ?_
  unfold LastTaskQueue.stop at found
  split at found
  · exact found
  · cases bwait
    · simp [LastTaskQueue.clearInner] at found
    · exact found

end Paired

namespace State

/-- Some worker executes a task of the property. -/
def Busy (state : State P F W) (prop : P) : Prop :=
  ∃ worker task, state.running worker = some (prop, task)

/-- The first waiting property that is not executing. -/
def FirstIdle (state : State P F W) (prop : P) : Prop :=
  ∃ front back, state.queue.waitProps = front ++ prop :: back ∧ ¬ state.Busy prop ∧
    ∀ other ∈ front, state.Busy other

/-- An accepted `add_task` of the property. -/
def Adds (prop : P) (state : State P F W) (action : Action P F W) : Prop :=
  state.queue.bstop = false ∧ ∃ func, action = .addTask prop func

/-- A removal of the property, or of everything. -/
def Drops (prop : P) (state : State P F W) : Action P F W → Prop
  | .removeProp other => other = prop
  | .clear => True
  | .stop bwait => bwait = false ∧ state.queue.bstop = false
  | _ => False

/-- A begin section in which the worker takes this task to execute it. -/
def Starts (worker : W) (prop : P) (task : F) (state : State P F W) (action : Action P F W) : Prop :=
  action = .popBegin worker ∧
    ∃ after, state.next action = some after ∧ after.running worker = some (prop, task)

/-- Nothing has been added for the property after this task. -/
def Recent (maxTaskCount : UInt64) (actions : List (Action P F W)) (prop : P) (task : F) : Prop :=
  ∃ front back before after, actions = front ++ .addTask prop (some task) :: back ∧
    Path (Taken next) (init maxTaskCount) front before ∧ before.queue.bstop = false ∧
    before.next (.addTask prop (some task)) = some after ∧
    ¬ Path.Meets (Taken next) (Adds prop) after back

/-- One property has been waiting without a break since the other did not wait. -/
def WaitsLonger (maxTaskCount : UInt64) (actions : List (Action P F W)) (first second : P) : Prop :=
  ∃ front back state, actions = front ++ back ∧
    Path (Taken next) (init maxTaskCount) front state ∧ second ∉ state.queue.waitProps ∧
    ∀ later, Path.Visits (Taken next) state back later → first ∈ later.queue.waitProps

/-- The pops of a continuation of the run may have the worker start the task. -/
def Startable (state : State P F W) (worker : W) (prop : P) (task : F) : Prop :=
  ∃ more final, Path (Taken next) state more final ∧ (∀ action ∈ more, action.Pops) ∧
    Path.Meets (Taken next) (Starts worker prop task) state more

/-- What waits is paired, and the running set is exact. -/
structure Agrees (state : State P F W) : Prop where
  paired : state.queue.Paired
  exact : state.marks.Exact
  exclusive : state.marks.Exclusive

variable {state after : State P F W} {action : Action P F W} {prop : P}

omit [DecidableEq W] in
theorem Agrees.busy_iff (agrees : state.Agrees) :
    prop ∈ state.queue.curPopProps ↔ state.Busy prop := by
  have same := agrees.exact prop
  simpa [marks, Busy] using same

omit [DecidableEq W] in
/-- The task of a waiting property, which is never an empty function. -/
theorem Agrees.waiting_task (agrees : state.Agrees) (waiting : prop ∈ state.queue.waitProps) :
    ∃ task, state.queue.waitTasks.lookup prop = some (some task) := by
  have filed := (agrees.paired.keys prop).mp waiting
  obtain ⟨item, found⟩ := Option.isSome_iff_exists.mp (Finmap.lookup_isSome.mpr filed)
  obtain ⟨task, rfl⟩ := Option.isSome_iff_exists.mp (agrees.paired.callable prop item found)
  exact ⟨task, found⟩

omit [DecidableEq W] in
/-- A begin section never finds an empty function. -/
theorem Agrees.findsCallable (agrees : state.Agrees) : FindsCallable state action := by
  cases action with
  | popBegin worker =>
    intro prop first
    exact agrees.waiting_task (List.mem_of_find?_eq_some first)
  | _ => trivial

private theorem marks_of_not_ordinary (other : ¬ action.Ordinary)
    (taken : state.next action = some after) : after.marks = state.marks := by
  cases action with
  | clear =>
    cases taken
    rfl
  | stop bwait =>
    cases taken
    simp only [marks, stop]
    split
    · rfl
    · cases bwait <;> rfl
  | start =>
    cases taken
    rfl
  | _ => exact absurd trivial other

theorem Agrees.marks_step (agrees : state.Agrees) (taken : state.next action = some after) :
    after.marks.Exact ∧ after.marks.Exclusive := by
  by_cases ordinary : action.Ordinary
  · obtain ⟨fine, change, same⟩ := marks_change ordinary taken
    obtain ⟨tight, exclusive⟩ := change.exact_iff agrees.exact agrees.exclusive
    have isFine := same.mpr agrees.findsCallable
    exact ⟨tight.mpr isFine, exclusive isFine⟩
  · rw [marks_of_not_ordinary ordinary taken]
    exact ⟨agrees.exact, agrees.exclusive⟩

theorem listed_step (listed : state.queue.Listed) (taken : state.next action = some after) : after.queue.Listed := by
  cases action with
  | addTask prop func =>
    rcases addTask_cases taken with ⟨_, rfl⟩ | ⟨_, rfl⟩
    · exact listed
    · exact listed.setTask
  | popBegin worker =>
    obtain ⟨_, ⟨_, rfl⟩ | ⟨prop, _, rfl⟩⟩ := popBegin_cases taken
    · exact listed
    · exact listed.withdraw
  | popFinish worker =>
    obtain ⟨current, _, rfl⟩ := popFinish_cases taken
    exact ⟨listed.nodup, listed.keys⟩
  | removeProp prop =>
    cases taken
    exact listed.removeProp
  | clear =>
    cases taken
    exact .clearInner
  | stop bwait =>
    cases taken
    exact listed.stop bwait
  | start =>
    cases taken
    exact ⟨listed.nodup, listed.keys⟩

/-- The task filed under a property changes by an accepted add, a removal or a start. -/
theorem lookup_step (taken : state.next action = some after) (prop : P) :
    (∃ func, action = .addTask prop func ∧ state.queue.bstop = false ∧
        after.queue.waitTasks.lookup prop = some func) ∨
      (¬ Adds prop state action ∧
        (after.queue.waitTasks.lookup prop = state.queue.waitTasks.lookup prop ∨
          after.queue.waitTasks.lookup prop = none ∧ (Drops prop state action ∨
            ∃ worker, action = .popBegin worker ∧ after = state.take worker prop))) := by
  cases action with
  | addTask other func =>
    rcases addTask_cases taken with ⟨stopped, rfl⟩ | ⟨opened, rfl⟩
    · refine .inr ⟨?_, .inl rfl⟩
      rintro ⟨opened, _⟩
      simp [stopped] at opened
    · by_cases here : prop = other
      · subst here
        exact .inl ⟨func, rfl, opened, Finmap.lookup_insert _⟩
      · refine .inr ⟨?_, .inl (Finmap.lookup_insert_of_ne _ here)⟩
        rintro ⟨_, func', same⟩
        cases same
        exact here rfl
  | popBegin worker =>
    refine .inr ⟨by simp [Adds], ?_⟩
    obtain ⟨_, ⟨_, rfl⟩ | ⟨other, _, rfl⟩⟩ := popBegin_cases taken
    · exact .inl rfl
    · by_cases here : prop = other
      · subst here
        exact .inr ⟨Finmap.lookup_erase _ _, .inr ⟨worker, rfl, rfl⟩⟩
      · exact .inl (Finmap.lookup_erase_ne here)
  | popFinish worker =>
    obtain ⟨current, _, rfl⟩ := popFinish_cases taken
    exact .inr ⟨by simp [Adds], .inl rfl⟩
  | removeProp other =>
    cases taken
    refine .inr ⟨by simp [Adds], ?_⟩
    by_cases here : prop = other
    · subst here
      exact .inr ⟨Finmap.lookup_erase _ _, .inl rfl⟩
    · exact .inl (Finmap.lookup_erase_ne here)
  | clear =>
    cases taken
    exact .inr ⟨by simp [Adds], .inr ⟨Finmap.lookup_empty _, .inl trivial⟩⟩
  | stop bwait =>
    cases taken
    refine .inr ⟨by simp [Adds], ?_⟩
    unfold stop
    split
    · exact .inl rfl
    · rename_i opened
      cases bwait
      · exact .inr ⟨Finmap.lookup_empty _, .inl ⟨rfl, by simpa using opened⟩⟩
      · exact .inl rfl
  | start =>
    cases taken
    exact .inr ⟨by simp [Adds], .inl rfl⟩

theorem Agrees.step (agrees : state.Agrees) (callable : action.Callable)
    (taken : state.next action = some after) : after.Agrees := by
  obtain ⟨tight, exclusive⟩ := agrees.marks_step taken
  refine ⟨⟨listed_step agrees.paired.toListed taken, fun prop item found => ?_⟩, tight, exclusive⟩
  obtain ⟨func, rfl, _, added⟩ | ⟨_, same | ⟨gone, _⟩⟩ := lookup_step taken prop
  · obtain rfl := Option.some.inj (added.symm.trans found)
    exact callable
  · exact agrees.paired.callable prop item (same ▸ found)
  · cases gone.symm.trans found

/-- The list of what waits grows at its end, by a property that did not wait, or it shrinks. -/
theorem waitProps_step (listed : state.queue.Listed) (taken : state.next action = some after) :
    after.queue.waitProps.Sublist state.queue.waitProps ∨
      ∃ prop, prop ∉ state.queue.waitProps ∧
        after.queue.waitProps = state.queue.waitProps ++ [prop] := by
  cases action with
  | addTask prop func =>
    rcases addTask_cases taken with ⟨_, rfl⟩ | ⟨_, rfl⟩
    · exact .inl (.refl _)
    · have now : (state.queue.setTask prop func).waitProps = _ := waitProps_setTask listed
      split at now
      · exact .inl (now ▸ .refl _)
      · rename_i absent
        exact .inr ⟨prop, absent, now⟩
  | popBegin worker =>
    obtain ⟨_, ⟨_, rfl⟩ | ⟨prop, _, rfl⟩⟩ := popBegin_cases taken
    · exact .inl (.refl _)
    · exact .inl List.erase_sublist
  | popFinish worker =>
    obtain ⟨current, _, rfl⟩ := popFinish_cases taken
    exact .inl (.refl _)
  | removeProp prop =>
    cases taken
    exact .inl List.filter_sublist
  | clear =>
    cases taken
    exact .inl (List.nil_sublist _)
  | stop bwait =>
    cases taken
    left
    unfold stop
    split
    · exact .refl _
    · cases bwait
      · exact List.nil_sublist _
      · exact .refl _
  | start =>
    cases taken
    exact .inl (.refl _)

variable {maxTaskCount : UInt64} {actions : List (Action P F W)} {task : F} {first second : P}

theorem Recent.snoc (recent : Recent maxTaskCount actions prop task)
    (path : Path (Taken next) (init maxTaskCount) actions state) (quiet : ¬ Adds prop state action) :
    Recent maxTaskCount (actions ++ [action]) prop task := by
  obtain ⟨front, back, before, middle, rfl, toAdd, opened, added, none⟩ := recent
  refine ⟨front, back ++ [action], before, middle, by simp, toAdd, opened, added, ?_⟩
  have rest : Path (Taken next) middle back state := by
    have path' : Path (Taken next) (init maxTaskCount)
        ((front ++ [.addTask prop (some task)]) ++ back) state := by simpa using path
    exact (toAdd.snoc added).rest path'
  rw [Path.meets_snoc rest]
  exact fun met => met.elim none quiet

theorem WaitsLonger.snoc (waits : WaitsLonger maxTaskCount actions first second)
    (path : Path (Taken next) (init maxTaskCount) actions state)
    (taken : state.next action = some after) (still : first ∈ after.queue.waitProps) :
    WaitsLonger maxTaskCount (actions ++ [action]) first second := by
  obtain ⟨front, back, before, rfl, reached, absent, always⟩ := waits
  refine ⟨front, back ++ [action], before, by simp, reached, absent, fun later visits => ?_⟩
  rcases Path.visits_snoc.mp visits with early | final
  · exact always later early
  · have now : Path (Taken next) before (back ++ [action]) after := (reached.rest path).snoc taken
    rwa [now.eq_of_path final]

/-- What is known of a run: its state agrees, the properties wait in the order in which they
began to, and each waits with the task added for it last. -/
structure Settled (maxTaskCount : UInt64) (actions : List (Action P F W)) (state : State P F W) :
    Prop where
  agrees : state.Agrees
  ordered : state.queue.waitProps.Pairwise (WaitsLonger maxTaskCount actions)
  recent : ∀ prop task, state.queue.waitTasks.lookup prop = some (some task) →
    Recent maxTaskCount actions prop task

theorem Settled.step (settled : Settled maxTaskCount actions state) (callable : action.Callable)
    (path : Path (Taken next) (init maxTaskCount) actions state)
    (taken : state.next action = some after) :
    Settled maxTaskCount (actions ++ [action]) after where
  agrees := settled.agrees.step callable taken
  ordered := by
    have keep {first second : P} (still : first ∈ after.queue.waitProps)
        (waits : WaitsLonger maxTaskCount actions first second) := waits.snoc path taken still
    rcases waitProps_step settled.agrees.paired.toListed taken with shrinks | ⟨prop, absent, grows⟩
    · have before := settled.ordered.sublist shrinks
      exact before.imp_of_mem fun member _ waits => keep member waits
    · rw [grows, List.pairwise_append]
      refine ⟨?_, List.pairwise_singleton _ _, ?_⟩
      · exact settled.ordered.imp_of_mem fun member _ waits => keep (by simp [grows, member]) waits
      · intro first member second same
        obtain rfl := List.mem_singleton.mp same
        refine ⟨actions, [action], state, rfl, path, absent, fun later visits => ?_⟩
        rcases Path.visits_cons.mp visits with rfl | ⟨reached, step, front, back, split, final⟩
        · exact member
        · obtain ⟨rfl, rfl⟩ := List.append_eq_nil_iff.mp split.symm
          cases final
          obtain rfl := Option.some.inj (step.symm.trans taken)
          simp [grows, member]
  recent := by
    intro prop task found
    rcases lookup_step taken prop with ⟨func, rfl, opened, now⟩ | ⟨quiet, same | ⟨gone, _⟩⟩
    · obtain rfl := Option.some.inj (now.symm.trans found)
      exact ⟨actions, [], state, after, rfl, path, opened, taken, Path.not_meets_nil⟩
    · exact (settled.recent prop task (same ▸ found)).snoc path quiet
    · simp [gone] at found

omit [DecidableEq W] in
theorem init_listed : (init maxTaskCount : State P F W).queue.Listed :=
  ⟨List.nodup_nil, by simp [init, construct, Finmap.notMem_empty]⟩

omit [DecidableEq W] in
theorem init_agrees : Agrees (init maxTaskCount : State P F W) where
  paired := ⟨init_listed, by simp [init, construct]⟩
  exact := by simp [Marks.Exact, marks, init, construct]
  exclusive := by
    intro first second prop used
    simp [marks, init] at used

theorem settled_of_path (callable : ∀ action ∈ actions, action.Callable)
    (path : Path (Taken next) (init maxTaskCount) actions state) :
    Settled maxTaskCount actions state := by
  refine (path.guard callable).history (Settled maxTaskCount) ⟨init_agrees, ?_, ?_⟩ ?_
  · exact List.Pairwise.nil
  · simp [init, construct]
  · intro done before action after front settled step
    obtain ⟨isCallable, taken⟩ := step
    exact settled.step isCallable (front.mono fun _ _ _ step => step.2) taken

omit [DecidableEq W] in
theorem Agrees.find?_iff (agrees : state.Agrees) :
    state.queue.waitProps.find? (fun prop => prop ∉ state.queue.curPopProps) = some prop ↔
      state.FirstIdle prop := by
  rw [List.find?_eq_some_iff_append]
  constructor
  · rintro ⟨idle, front, back, split, blocked⟩
    refine ⟨front, back, split, ?_, fun other member => ?_⟩
    · rw [← agrees.busy_iff]
      simpa using idle
    · rw [← agrees.busy_iff]
      simpa using blocked other member
  · rintro ⟨front, back, split, idle, blocked⟩
    refine ⟨?_, front, back, split, fun other member => ?_⟩
    · rw [← agrees.busy_iff] at idle
      simpa using idle
    · have busy := blocked other member
      rw [← agrees.busy_iff] at busy
      simpa using busy

theorem Settled.starts (settled : Settled maxTaskCount actions state) {worker : W}
    (starts : Starts worker prop task state (.popBegin worker)) :
    state.FirstIdle prop ∧ Recent maxTaskCount actions prop task := by
  obtain ⟨_, after, taken, running⟩ := starts
  obtain ⟨free, ⟨_, rfl⟩ | ⟨other, found, rfl⟩⟩ := popBegin_cases taken
  · simp [free] at running
  · obtain ⟨task', filed⟩ := settled.agrees.waiting_task (List.mem_of_find?_eq_some found)
    simp only [take, filed, Option.getD_some, Option.map_some, Function.update_self,
      Option.some.injEq, Prod.mk.injEq] at running
    obtain ⟨rfl, rfl⟩ := running
    exact ⟨settled.agrees.find?_iff.mp found, settled.recent _ _ filed⟩

theorem Agrees.starts_of_firstIdle (agrees : state.Agrees) {worker : W}
    (free : state.running worker = none) (idle : state.FirstIdle prop) :
    ∃ task, Starts worker prop task state (.popBegin worker) := by
  have found := agrees.find?_iff.mpr idle
  obtain ⟨task, filed⟩ := agrees.waiting_task (List.mem_of_find?_eq_some found)
  refine ⟨task, rfl, state.take worker prop, ?_, ?_⟩
  · simp [next, free, popBegin_of_find? found, take]
  · simp [take, filed]

/-- A waiting task stays until it is started, superseded or dropped. -/
theorem fate (path : Path (Taken next) state actions after)
    (waiting : state.queue.waitTasks.lookup prop = some (some task)) :
    Path.Meets (Taken next) (Adds prop) state actions ∨
      Path.Meets (Taken next) (Drops prop) state actions ∨
      (∃ worker, Path.Meets (Taken next) (Starts worker prop task) state actions) ∨
      after.queue.waitTasks.lookup prop = some (some task) := by
  induction path with
  | nil _ => exact .inr (.inr (.inr waiting))
  | @cons before second _ action _ head _ ih =>
    rcases lookup_step head prop with ⟨func, same, opened, _⟩ | ⟨_, kept | ⟨_, dropped | started⟩⟩
    · exact .inl (.now ⟨opened, func, same⟩)
    · rcases ih (kept.trans waiting) with added | dropped | ⟨worker, started⟩ | still
      · exact .inl (.later head added)
      · exact .inr (.inl (.later head dropped))
      · exact .inr (.inr (.inl ⟨worker, .later head started⟩))
      · exact .inr (.inr (.inr still))
    · exact .inr (.inl (.now dropped))
    · obtain ⟨worker, rfl, rfl⟩ := started
      refine .inr (.inr (.inl ⟨worker, .now ⟨rfl, _, head, ?_⟩⟩))
      simp [take, waiting]

theorem Startable.later {middle : State P F W} {worker : W} {more : List (Action P F W)}
    (startable : middle.Startable worker prop task) (path : Path (Taken next) state more middle)
    (pops : ∀ action ∈ more, action.Pops) : state.Startable worker prop task := by
  obtain ⟨rest, final, onward, pops', met⟩ := startable
  refine ⟨more ++ rest, final, path.append onward, ?_, path.meets_append met⟩
  intro action member
  exact (List.mem_append.mp member).elim (pops action) (pops' action)

/-- What waits, as it was, with no other task executing. -/
structure Relieves (state middle : State P F W) : Prop where
  agrees : middle.Agrees
  waitProps : middle.queue.waitProps = state.queue.waitProps
  waitTasks : middle.queue.waitTasks = state.queue.waitTasks
  running : ∀ worker entry, middle.running worker = some entry → state.running worker = some entry

omit [DecidableEq W] in
theorem Relieves.trans {middle : State P F W} (front : state.Relieves middle)
    (back : middle.Relieves after) : state.Relieves after where
  agrees := back.agrees
  waitProps := back.waitProps.trans front.waitProps
  waitTasks := back.waitTasks.trans front.waitTasks
  running := fun worker entry now => front.running worker entry (back.running worker entry now)

/-- A worker may finish the task it executes. -/
private theorem Agrees.release (agrees : state.Agrees) (worker : W) :
    ∃ more middle, Path (Taken next) state more middle ∧ (∀ action ∈ more, action.Pops) ∧
      state.Relieves middle ∧ middle.running worker = none := by
  cases busy : state.running worker with
  | none => exact ⟨[], state, .nil _, by simp, ⟨agrees, rfl, rfl, fun _ _ same => same⟩, busy⟩
  | some current =>
    let middle : State P F W :=
      ⟨state.queue.popFinish current.1, Function.update state.running worker none⟩
    have taken : state.next (.popFinish worker) = some middle := by simp [next, busy, middle]
    have relieves : state.Relieves middle := by
      refine ⟨agrees.step (by trivial) taken, rfl, rfl, fun other entry now => ?_⟩
      by_cases here : other = worker
      · simp [middle, here] at now
      · simpa [middle, here] using now
    exact ⟨[.popFinish worker], middle, .cons taken (.nil _), by simp [Action.Pops], relieves,
      Function.update_self ..⟩

private theorem Agrees.rest (agrees : state.Agrees) (worker : W) (prop : P) :
    ∃ more middle, Path (Taken next) state more middle ∧ (∀ action ∈ more, action.Pops) ∧
      state.Relieves middle ∧ middle.running worker = none ∧ ¬ middle.Busy prop := by
  obtain ⟨one, first, toFirst, popsOne, relieved, idle⟩ := agrees.release worker
  by_cases busy : first.Busy prop
  · obtain ⟨owner, task, owns⟩ := busy
    obtain ⟨two, second, toSecond, popsTwo, relieved', idle'⟩ := relieved.agrees.release owner
    refine ⟨one ++ two, second, toFirst.append toSecond, ?_, relieved.trans relieved', ?_, ?_⟩
    · intro action member
      exact (List.mem_append.mp member).elim (popsOne action) (popsTwo action)
    · apply Option.eq_none_iff_forall_ne_some.mpr
      intro entry now
      simp [relieved'.running worker entry now] at idle
    · rintro ⟨user, other, uses⟩
      have before := relieved'.running user _ uses
      have same : user = owner := by
        apply relieved.agrees.exclusive user owner prop <;> simp [marks, before, owns]
      simp [same, idle'] at uses
  · exact ⟨one, first, toFirst, popsOne, relieved, idle, busy⟩

/-- Any worker may come to start what waits, after whatever waits before it. -/
theorem Agrees.startable (agrees : state.Agrees)
    (waiting : state.queue.waitTasks.lookup prop = some (some task)) (worker : W) :
    state.Startable worker prop task := by
  induction count : state.queue.waitProps.length using Nat.strong_induction_on generalizing state with
  | _ size ih =>
    obtain ⟨more, middle, path, pops, relieved, free, idle⟩ := agrees.rest worker prop
    apply Startable.later _ path pops
    have filed : middle.queue.waitTasks.lookup prop = some (some task) := by
      rw [relieved.waitTasks, waiting]
    have listed : prop ∈ middle.queue.waitProps :=
      (relieved.agrees.paired.keys prop).mpr (Finmap.lookup_isSome.mp (by simp [filed]))
    have passes : (middle.queue.waitProps.find? fun prop => prop ∉ middle.queue.curPopProps).isSome := by
      rw [List.find?_isSome]
      exact ⟨prop, listed, by simpa [relieved.agrees.busy_iff] using idle⟩
    obtain ⟨other, found⟩ := Option.isSome_iff_exists.mp passes
    obtain ⟨task', begins⟩ :=
      relieved.agrees.starts_of_firstIdle free (relieved.agrees.find?_iff.mp found)
    obtain ⟨_, after, taken, runs⟩ := begins
    obtain ⟨_, ⟨nothing, _⟩ | ⟨first, found', rfl⟩⟩ := popBegin_cases taken
    · cases nothing.symm.trans found
    obtain rfl : first = other := Option.some.inj (found'.symm.trans found)
    by_cases here : prop = first
    · subst here
      refine ⟨[.popBegin worker], _, .cons taken (.nil _), by simp [Action.Pops], .now ⟨rfl, _, taken, ?_⟩⟩
      simp [take, filed]
    · have kept : (middle.take worker first).queue.waitTasks.lookup prop = some (some task) := by
        simp [take, withdraw, Finmap.lookup_erase_ne here, filed]
      have present := List.mem_of_find?_eq_some found
      have shorter : (middle.take worker first).queue.waitProps.length < size := by
        have positive := List.length_pos_of_mem present
        have length := List.length_erase_of_mem present
        have same := congrArg List.length relieved.waitProps
        simp only [take, withdraw]
        omega
      have callable : (Action.popBegin worker : Action P F W).Callable := trivial
      have agreesNow := relieved.agrees.step callable taken
      have rest := ih _ shorter agreesNow kept rfl
      exact rest.later (.cons taken (.nil _)) (by simp [Action.Pops])

/-- In every run of a `LastTaskQueue` to which callable functions are added, the list of waiting
properties is duplicate-free, holds the keys of the map, and is in the order in which they began
to wait; a begin section starts the first that is not executing with the task added for it last;
no property has two tasks executing; and an accepted task that has been neither superseded nor
dropped nor started still waits, and any worker may come to start it. -/
theorem latest_task_started {last : State P F W}
    (path : Path (Taken next) (init maxTaskCount) actions last)
    (callable : ∀ action ∈ actions, action.Callable) :
    (last.queue.waitProps.Nodup ∧ ∀ prop, prop ∈ last.queue.waitProps ↔ prop ∈ last.queue.waitTasks) ∧
    last.queue.waitProps.Pairwise (WaitsLonger maxTaskCount actions) ∧
    (∀ worker prop, last.running worker = none → last.FirstIdle prop →
      ∃ task, Starts worker prop task last (.popBegin worker)) ∧
    (∀ worker prop task, Starts worker prop task last (.popBegin worker) →
      last.FirstIdle prop ∧ Recent maxTaskCount actions prop task) ∧
    (∀ first second prop task other, last.running first = some (prop, task) →
      last.running second = some (prop, other) → first = second) ∧
    ∀ front back prop task before after, actions = front ++ .addTask prop (some task) :: back →
      Path (Taken next) (init maxTaskCount) front before →
      before.queue.bstop = false → before.next (.addTask prop (some task)) = some after →
      Path.Meets (Taken next) (Adds prop) after back ∨
      Path.Meets (Taken next) (Drops prop) after back ∨
      (∃ worker, Path.Meets (Taken next) (Starts worker prop task) after back) ∨
      (last.queue.waitTasks.lookup prop = some (some task) ∧
        ∀ worker, last.Startable worker prop task) := by
  have settled := settled_of_path callable path
  have paired := settled.agrees.paired
  refine ⟨⟨paired.nodup, paired.keys⟩, settled.ordered, ?_, ?_, ?_, ?_⟩
  · intro worker prop free idle
    exact settled.agrees.starts_of_firstIdle free idle
  · intro worker prop task starts
    exact settled.starts starts
  · intro first second prop task other one two
    apply settled.agrees.exclusive first second prop
    · simp [marks, one]
    · simp [marks, two]
  · rintro front back prop task before after rfl reached opened added
    have rest : Path (Taken next) after back last := by
      apply (reached.snoc added).rest
      simpa using path
    have waiting : after.queue.waitTasks.lookup prop = some (some task) := by
      rcases addTask_cases added with ⟨stopped, _⟩ | ⟨_, rfl⟩
      · simp [opened] at stopped
      · exact Finmap.lookup_insert _
    rcases fate rest waiting with superseded | dropped | started | still
    · exact .inl superseded
    · exact .inr (.inl dropped)
    · exact .inr (.inr (.inl started))
    · exact .inr (.inr (.inr ⟨still, settled.agrees.startable still⟩))

/-- Two tasks of one property of which the second replaces the first, and is started. -/
theorem latest_task_started_replaced : ∃ last : State Nat Nat (Fin 1),
    Path (Taken next) (init 0) [.addTask 1 (some 10), .addTask 2 (some 20),
      .addTask 1 (some 11), .popBegin 0] last ∧
    last.running 0 = some (1, 11) ∧ last.queue.waitProps.Nodup ∧
    ∀ prop, prop ∈ last.queue.waitProps ↔ prop ∈ last.queue.waitTasks := by
  have runs : ∃ last ∈ exec next (init 0 : State Nat Nat (Fin 1))
      [.addTask 1 (some 10), .addTask 2 (some 20), .addTask 1 (some 11), .popBegin 0],
      last.running 0 = some (1, 11) := by
    decide
  obtain ⟨last, ends, running⟩ := runs
  have path := exec_eq_some_iff.mp ends
  obtain ⟨⟨nodup, keys⟩, _⟩ := latest_task_started path (by decide)
  exact ⟨last, path, running, nodup, keys⟩

end State

end LastTaskQueue

end BTool.TaskQueue
