import BTool.TaskQueue.SerialSections

/-! With callable functions only, every moved-out task is being executed: what the deques
then hold, and when `not_empty` tells the truth about the node list. -/

namespace BTool.TaskQueue.SerialTaskQueue

open BTool.Foundation

variable {P F W : Type} [DecidableEq P] [DecidableEq F] [DecidableEq W]
  {state after : State P F W} {held : Finset P} {action : Action P F W} {prop : P}
  {func : TaskItem F} {worker : W} {maxTaskCount : UInt64} {actions : List (Action P F W)}

/-- Only callable functions are added. -/
def Action.Callable : Action P F W → Prop
  | .addTask _ func => func.isSome = true
  | _ => True

instance (action : Action P F W) : Decidable action.Callable := by
  induction action using Action.casesOn <;> unfold Action.Callable <;> infer_instance

/-- Every waiting function is callable, and whoever took the task of a held property is
still executing it. -/
structure Carried (state : State P F W) (held : Finset P) : Prop where
  callable : ∀ entry ∈ state.pending, entry.2.isSome = true
  carried : ∀ prop ∈ held, state.Attached prop

omit [DecidableEq F] [DecidableEq W] in
theorem init_carried : Carried (State.init maxTaskCount : State P F W) ∅ :=
  ⟨by simp [State.init], by simp⟩

omit [DecidableEq F] [DecidableEq W] in
/-- A task stays attached as long as the deque of its property stands. -/
private theorem attached_of_detach {queue : SerialTaskQueue P F}
    {running : W → Option (Running P F)} {accepted started pending : List (P × TaskItem F)}
    {current : Running P F} (isRunning : running worker = some current)
    (attached : current.attached = true) (stands : current.prop ∈ queue.waitTasks) :
    (⟨queue, detach queue running, accepted, started, pending⟩ : State P F W).Attached
      current.prop :=
  ⟨worker, _, detach_eq_some.mpr ⟨current, isRunning, rfl⟩, rfl, by simp [attached, stands]⟩

theorem Carried.step (carried : Carried state held) (consistent : Consistent state held)
    (guarded : NoAddToOrphan state action) (callable : action.Callable)
    (taken : state.next action = some after) : Carried after (heldAfter state held action) := by
  have consistent' := consistent.step guarded taken
  have stands (prop : P) (inside : prop ∈ heldAfter state held action) :
      prop ∈ after.queue.waitTasks := consistent'.tracks.mem_keys.mpr (.inl inside)
  cases action with
  | addTask prop func =>
    rcases State.addTask_cases taken with ⟨_, rfl⟩ | ⟨_, rfl⟩
    · exact carried
    · refine ⟨?_, carried.carried⟩
      intro entry member
      rcases List.mem_append.mp member with before | new
      · exact carried.callable entry before
      · rw [List.mem_singleton.mp new]
        exact callable
  | popBegin worker =>
    obtain ⟨free, ⟨begun, rfl⟩ | ⟨prop, func, queue, begun, rfl⟩⟩ := State.popBegin_cases taken
    · simpa only [heldAfter, begun] using carried
    · have first := (consistent.tracks.popBegin begun).1
      have isCallable := carried.callable _ (List.mem_of_find?_eq_some first)
      obtain ⟨task, rfl⟩ := Option.isSome_iff_exists.mp isCallable
      simp only [heldAfter, begun]
      refine ⟨fun entry member => carried.callable entry (List.mem_of_mem_erase member), ?_⟩
      intro other inside
      rcases Finset.mem_insert.mp inside with rfl | before
      · exact ⟨worker, ⟨other, task, true⟩, by simp [State.take], rfl, rfl⟩
      · obtain ⟨holder, current, isRunning, same, attached⟩ := carried.carried other before
        have apart : holder ≠ worker := by
          rintro rfl
          simp [isRunning] at free
        exact ⟨holder, current, by simpa [State.take, apart] using isRunning, same, attached⟩
  | popFinish worker =>
    obtain ⟨current, queue, isRunning, finished, rfl⟩ := State.popFinish_cases taken
    simp only [heldAfter, isRunning] at stands ⊢
    refine ⟨carried.callable, ?_⟩
    intro prop inside
    obtain ⟨different, before⟩ := Finset.mem_erase.mp inside
    obtain ⟨holder, another, found, rfl, attached⟩ := carried.carried prop before
    have apart : holder ≠ worker := by
      rintro rfl
      rw [isRunning] at found
      cases found
      exact different rfl
    have kept : Function.update state.running worker none holder = some another := by
      simpa [apart] using found
    exact attached_of_detach kept attached (stands _ inside)
  | removeProp removed =>
    cases taken
    refine ⟨fun entry member => carried.callable entry (List.mem_filter.mp member).1, ?_⟩
    intro prop inside
    obtain ⟨holder, current, isRunning, rfl, attached⟩ :=
      carried.carried prop (Finset.mem_of_mem_erase inside)
    exact attached_of_detach isRunning attached (stands _ inside)
  | clear =>
    cases taken
    exact ⟨fun _ member => absurd member (List.not_mem_nil), fun _ inside =>
      absurd inside (Finset.notMem_empty _)⟩
  | stop bwait =>
    cases taken
    constructor
    · intro entry member
      dsimp only at member
      split at member
      · exact carried.callable entry member
      · cases member
    · intro prop inside
      have before : prop ∈ held := by
        simp only [heldAfter] at inside
        split at inside
        · exact inside
        · cases inside
      obtain ⟨holder, current, isRunning, rfl, attached⟩ := carried.carried prop before
      exact attached_of_detach isRunning attached (stands _ inside)
  | start =>
    cases taken
    exact ⟨carried.callable, carried.carried⟩

theorem carried_of_careful (path : Path Careful (State.init maxTaskCount) actions state)
    (callable : ∀ action ∈ actions, action.Callable) :
    ∃ held, Consistent state held ∧ Carried state held :=
  (path.guard callable).invariant
    (fun state => ∃ held, Consistent state held ∧ Carried state held)
    (fun _ _ _ ⟨held, consistent, carried⟩ ⟨isCallable, guarded, taken⟩ =>
      ⟨heldAfter _ held _, consistent.step guarded taken,
        carried.step consistent guarded isCallable taken⟩)
    ⟨∅, init_consistent maxTaskCount, init_carried⟩

omit [DecidableEq F] [DecidableEq W] in
theorem Carried.mem_held_iff (carried : Carried state held) (consistent : Consistent state held) :
    prop ∈ held ↔ state.Attached prop := by
  constructor
  · exact carried.carried prop
  · rintro ⟨worker, current, isRunning, rfl, attached⟩
    exact consistent.attached worker current isRunning attached

/-- Every waiting task is in its deque, behind the place of the task that is executing,
and the lengths of the deques agree with the counts of the nodes. -/
structure State.Retains (state : State P F W) : Prop where
  waiting : ∀ prop, ofKey prop state.pending <:+ state.queue.deque prop
  attached : ∀ prop, state.Attached prop →
    (state.queue.deque prop).length = state.queue.waitProps.countOf prop + 1
  idle : ∀ prop, ¬ state.Attached prop →
    (state.queue.deque prop).length = state.queue.waitProps.countOf prop

omit [DecidableEq F] [DecidableEq W] in
private theorem length_deque (consistent : Consistent state held) :
    (state.queue.deque prop).length =
      (slot held prop : List (TaskItem F)).length + state.queue.waitProps.countOf prop := by
  rw [consistent.tracks.deque, List.length_append, WaitProps.countOf_eq, consistent.tracks.props,
    length_ofKey]

/-- In a careful run of callable functions no task leaves its deque before it starts,
unless its property is removed. -/
theorem retains_of_careful (path : Path Careful (State.init maxTaskCount) actions state)
    (callable : ∀ action ∈ actions, action.Callable) : state.Retains := by
  obtain ⟨held, consistent, carried⟩ := carried_of_careful path callable
  refine ⟨?_, ?_, ?_⟩
  · intro prop
    rw [consistent.tracks.deque]
    exact List.suffix_append _ _
  · intro prop attached
    have inside : prop ∈ held := (carried.mem_held_iff consistent).mpr attached
    rw [length_deque consistent, slot, if_pos inside, List.length_singleton, Nat.add_comm]
  · intro prop idle
    have outside : prop ∉ held := fun inside => idle ((carried.mem_held_iff consistent).mp inside)
    rw [length_deque consistent, slot, if_neg outside, List.length_nil, Nat.zero_add]

/-- A task added after `remove_prop`, while the removed property is still executing, is
dropped by the finish section of the task executing then. -/
theorem finish_drops_added_task :
    ∃ state, Path (Taken State.next) (State.init 0 : State Nat Nat (Fin 1))
      [.addTask 1 (some 10), .popBegin 0, .removeProp 1, .addTask 1 (some 11), .popFinish 0] state ∧
      state.pending = [(1, some 11)] ∧ state.queue.deque 1 = [] ∧ ¬ state.Retains := by
  have runs : ∃ state ∈ exec State.next (State.init 0 : State Nat Nat (Fin 1))
      [.addTask 1 (some 10), .popBegin 0, .removeProp 1, .addTask 1 (some 11), .popFinish 0],
      state.pending = [(1, some 11)] ∧ state.queue.deque 1 = [] := by
    decide
  obtain ⟨state, ends, pending, deque⟩ := runs
  refine ⟨state, exec_eq_some_iff.mp ends, pending, deque, ?_⟩
  intro retains
  have suffix := retains.waiting 1
  rw [pending, deque] at suffix
  exact absurd suffix (by decide)

/-- The same sections with the finish before the second `add_task`. -/
theorem retains_after_finish :
    ∃ state, exec (checked State.next NoAddToOrphan) (State.init 0 : State Nat Nat (Fin 1))
      [.addTask 1 (some 10), .popBegin 0, .removeProp 1, .popFinish 0, .addTask 1 (some 11)] =
        some state ∧ state.pending = [(1, some 11)] ∧ state.Retains := by
  have runs : ∃ state ∈ exec (checked State.next NoAddToOrphan)
      (State.init 0 : State Nat Nat (Fin 1))
      [.addTask 1 (some 10), .popBegin 0, .removeProp 1, .popFinish 0, .addTask 1 (some 11)],
      state.pending = [(1, some 11)] := by
    decide
  obtain ⟨state, ends, pending⟩ := runs
  exact ⟨state, ends, pending, retains_of_careful (Path.of_checked ends) (by decide)⟩

/-- Besides, no property is removed while it is marked as running. -/
def SparesRunning (state : State P F W) (action : Action P F W) : Prop :=
  NoAddToOrphan state action ∧
    match action with
    | .removeProp prop => prop ∉ state.queue.curProps
    | _ => True

instance [Fintype W] (state : State P F W) (action : Action P F W) :
    Decidable (SparesRunning state action) := by
  induction action using Action.casesOn <;> unfold SparesRunning <;> infer_instance

/-- Then every property marked as running still has its deque. -/
theorem covered_step (covered : state.queue.curProps ⊆ held) (guarded : SparesRunning state action)
    (taken : state.next action = some after) : after.queue.curProps ⊆ heldAfter state held action := by
  cases action with
  | addTask prop func =>
    rcases State.addTask_cases taken with ⟨_, rfl⟩ | ⟨_, rfl⟩ <;> exact covered
  | popBegin worker =>
    obtain ⟨_, ⟨begun, rfl⟩ | ⟨prop, func, queue, begun, rfl⟩⟩ := State.popBegin_cases taken
    · simpa only [heldAfter, begun] using covered
    · obtain ⟨_, _, marks, _⟩ := popBegin_frame begun
      simp only [heldAfter, begun, State.take, marks]
      exact Finset.insert_subset_insert _ covered
  | popFinish worker =>
    obtain ⟨current, queue, isRunning, finished, rfl⟩ := State.popFinish_cases taken
    simp only [heldAfter, isRunning, State.finish, (popFinish_frame finished).1]
    exact Finset.erase_subset_erase _ covered
  | removeProp prop =>
    cases taken
    intro other running
    have different : other ≠ prop := fun same => guarded.2 (same ▸ running)
    exact Finset.mem_erase.mpr ⟨different, covered running⟩
  | clear =>
    cases taken
    exact Finset.Subset.refl _
  | stop bwait =>
    cases taken
    simp only [heldAfter, SerialTaskQueue.stop]
    by_cases stopped : state.queue.bstop = true
    · simpa only [stopped, if_true, Bool.true_or] using covered
    · cases bwait with
      | true => simpa [stopped] using covered
      | false => simp [stopped, SerialTaskQueue.clearInner]
  | start =>
    cases taken
    exact covered

/-- `not_empty` and the node list agree on whether a worker has something to do. -/
structure State.SeesWork (state : State P F W) : Prop where
  popped : state.queue.notEmpty = true → ∃ prop waitProps func rest,
    state.queue.waitProps.popFront = some (prop, waitProps) ∧ prop ∉ state.queue.curProps ∧
      (prop, func) ∈ state.pending ∧ state.queue.waitTasks.lookup prop = some (func :: rest)
  awake : state.queue.waitProps.HasCanPop → state.queue.notEmpty = true

/-- Sparing running properties, `not_empty` holds exactly when a node may be popped. -/
theorem seesWork_of_sparing
    (path : Path (Guarded (Taken State.next) SparesRunning) (State.init maxTaskCount) actions state) :
    state.SeesWork := by
  have kept := path.invariant
    (fun state => ∃ held, Consistent state held ∧ state.queue.curProps ⊆ held)
    (fun _ _ _ ⟨held, consistent, covered⟩ ⟨guarded, taken⟩ =>
      ⟨heldAfter _ held _, consistent.step guarded.1 taken,
        covered_step covered guarded taken⟩)
    ⟨∅, init_consistent maxTaskCount, Finset.Subset.refl _⟩
  obtain ⟨held, consistent, covered⟩ := kept
  have tracks := consistent.tracks
  constructor
  · intro notEmpty
    have eligible := (tracks.notEmpty_iff covered).mp notEmpty
    obtain ⟨prop, func, waitProps, rest, popped, idle, filed, found⟩ :=
      tracks.exists_popFront eligible
    exact ⟨prop, waitProps, func, rest, popped, idle, mem_ofKey.mp (by simp [filed]), found⟩
  · intro can
    have eligible := tracks.exists_ready_iff.mp (WaitProps.hasCanPop_iff.mp can)
    exact (tracks.notEmpty_iff covered).mpr eligible

/-- `remove_prop` of a running property leaves its mark without a deque, and the sizes
that `not_empty` compares hide the next task of another property. -/
theorem removed_mark_hides_task :
    ∃ state, Path (Taken State.next) (State.init 0 : State Nat Nat (Fin 2))
      [.addTask 1 (some 10), .popBegin 0, .removeProp 1, .addTask 2 (some 20)] state ∧
      state.queue.waitProps.ready 2 = true ∧ state.queue.notEmpty = false ∧ ¬ state.SeesWork := by
  have runs : ∃ state ∈ exec State.next (State.init 0 : State Nat Nat (Fin 2))
      [.addTask 1 (some 10), .popBegin 0, .removeProp 1, .addTask 2 (some 20)],
      state.queue.waitProps.ready 2 = true ∧ state.queue.notEmpty = false := by
    decide
  obtain ⟨state, ends, ready, asleep⟩ := runs
  refine ⟨state, exec_eq_some_iff.mp ends, ready, asleep, ?_⟩
  intro sees
  have awake := sees.awake (WaitProps.hasCanPop_iff.mpr ⟨2, ready⟩)
  rw [asleep] at awake
  cases awake

/-- Removing a property that waits but does not run is harmless. -/
theorem seesWork_after_remove :
    ∃ state, exec (checked State.next SparesRunning) (State.init 0 : State Nat Nat (Fin 2))
      [.addTask 1 (some 10), .popBegin 0, .addTask 2 (some 20), .removeProp 2,
        .addTask 2 (some 21)] = some state ∧ state.queue.notEmpty = true ∧ state.SeesWork := by
  have runs : ∃ state ∈ exec (checked State.next SparesRunning)
      (State.init 0 : State Nat Nat (Fin 2))
      [.addTask 1 (some 10), .popBegin 0, .addTask 2 (some 20), .removeProp 2,
        .addTask 2 (some 21)], state.queue.notEmpty = true := by
    decide
  obtain ⟨state, ends, notEmpty⟩ := runs
  exact ⟨state, ends, notEmpty, seesWork_of_sparing (Path.of_checked ends)⟩

end BTool.TaskQueue.SerialTaskQueue
