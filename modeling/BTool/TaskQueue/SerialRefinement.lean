import BTool.TaskQueue.SerialRetention

/-! What a `SerialTaskQueue` is for: a flat list of the waiting tasks in the order they
were added, from which a worker starts the earliest one whose property is not executing.
The queue with its three structures refines this list, section by section. -/

namespace BTool.TaskQueue

open BTool.Foundation SerialTaskQueue

variable {P F W : Type} [DecidableEq P] [DecidableEq F] [DecidableEq W]

/-- The specification: who executes what, and what waits in which order. -/
structure FlatQueue (P F W : Type) where
  waiting : List (P × F)
  executing : W → Option (P × F)

namespace FlatQueue

def init : FlatQueue P F W := ⟨[], fun _ => none⟩

/-- The waiting tasks, as the queue stores them. -/
def items (flat : FlatQueue P F W) : List (P × TaskItem F) :=
  flat.waiting.map fun entry => (entry.1, some entry.2)

omit [DecidableEq P] [DecidableEq F] [DecidableEq W] in
theorem keys_items (flat : FlatQueue P F W) :
    flat.items.map Prod.fst = flat.waiting.map Prod.fst := by
  simp [items, Function.comp_def]

/-- A task of the property is executing. -/
def Busy (flat : FlatQueue P F W) (prop : P) : Prop :=
  ∃ worker task, flat.executing worker = some (prop, task)

inductive Step : FlatQueue P F W → Action P F W → FlatQueue P F W → Prop where
  | addTask (flat : FlatQueue P F W) (prop : P) (task : F) :
      Step flat (.addTask prop (some task)) { flat with waiting := flat.waiting ++ [(prop, task)] }
  | popBegin (flat : FlatQueue P F W) (worker : W) (prop : P) (task : F) (front back : List (P × F))
      (free : flat.executing worker = none) (split : flat.waiting = front ++ (prop, task) :: back)
      (eligible : ¬ flat.Busy prop) (earliest : ∀ entry ∈ front, flat.Busy entry.1) :
      Step flat (.popBegin worker)
        { waiting := front ++ back
          executing := Function.update flat.executing worker (some (prop, task)) }
  | popFinish (flat : FlatQueue P F W) (worker : W) (current : P × F)
      (executing : flat.executing worker = some current) :
      Step flat (.popFinish worker)
        { flat with executing := Function.update flat.executing worker none }

end FlatQueue

namespace SerialTaskQueue

variable {state after : State P F W} {flat : FlatQueue P F W} {held : Finset P}
  {action : Action P F W} {maxTaskCount : UInt64} {actions : List (Action P F W)}

/-- The actions of the specification. -/
def Action.Plain : Action P F W → Prop
  | .addTask _ func => func.isSome = true
  | .popBegin _ => True
  | .popFinish _ => True
  | _ => False

instance (action : Action P F W) : Decidable action.Plain := by
  induction action using Action.casesOn <;> unfold Action.Plain <;> infer_instance

/-- The three structures of the queue store the flat list: nodes in its order, deques with
a moved-out front for the busy properties, marks for exactly these. -/
structure Refines (state : State P F W) (flat : FlatQueue P F W) : Prop where
  running : ∀ worker, (state.running worker).map (fun current => (current.prop, current.task)) =
    flat.executing worker
  curProps : ∀ prop, prop ∈ state.queue.curProps ↔ flat.Busy prop
  props : state.queue.waitProps.props = flat.waiting.map Prod.fst
  ready : ∀ prop, state.queue.waitProps.ready prop = true ↔
    prop ∈ flat.waiting.map Prod.fst ∧ ¬ flat.Busy prop
  busy : ∀ prop, flat.Busy prop →
    state.queue.deque prop = none :: (ofKey prop flat.waiting).map some
  idle : ∀ prop, ¬ flat.Busy prop →
    state.queue.deque prop = (ofKey prop flat.waiting).map some

/-- What is kept as long as no deque is taken away, also in a stopped queue: nothing is
orphaned, and every accepted task has been started or still waits. -/
structure Intact (state : State P F W) (held : Finset P) : Prop where
  consistent : Consistent state held
  attached : ∀ worker current, state.running worker = some current → current.attached = true
  complete : state.accepted.Perm (state.started ++ state.pending)

/-- What is kept besides in an open queue: every mark has its deque, and the counter is the
number of waiting tasks, modulo its size. -/
structure Steady (state : State P F W) (held : Finset P) : Prop extends Intact state held where
  covered : state.queue.curProps ⊆ held
  opened : state.queue.bstop = false
  counted : state.queue.approxSize = UInt64.ofNat state.pending.length

/-- What is kept besides when the functions are callable. -/
structure Settled (state : State P F W) (held : Finset P) : Prop extends Steady state held where
  carried : Carried state held
  logged : ∀ prop, ofKey prop state.accepted = ofKey prop state.started ++ ofKey prop state.pending

omit [DecidableEq F] [DecidableEq W] in
theorem init_settled : Settled (State.init maxTaskCount : State P F W) ∅ where
  consistent := init_consistent maxTaskCount
  attached := by simp [State.init]
  complete := List.Perm.refl _
  covered := Finset.Subset.refl _
  opened := rfl
  counted := rfl
  carried := init_carried
  logged := by simp [State.init]

/-- The sections that take no deque away. -/
def Action.Sparing : Action P F W → Prop
  | .addTask _ _ => True
  | .popBegin _ => True
  | .popFinish _ => True
  | .stop bwait => bwait = true
  | .start => True
  | _ => False

/-- Those of them that leave the queue open. -/
def Action.Lasting : Action P F W → Prop
  | .addTask _ _ => True
  | .popBegin _ => True
  | .popFinish _ => True
  | _ => False

omit [DecidableEq P] [DecidableEq F] [DecidableEq W] in
theorem Action.Plain.lasting (plain : action.Plain) : action.Lasting := by
  cases action with
  | addTask prop func => trivial
  | _ => exact plain

omit [DecidableEq P] [DecidableEq F] [DecidableEq W] in
theorem Action.Plain.callable (plain : action.Plain) : action.Callable := by
  cases action with
  | addTask prop func => exact plain
  | _ => trivial

omit [DecidableEq P] [DecidableEq F] [DecidableEq W] in
theorem Action.Lasting.sparing (lasting : action.Lasting) : action.Sparing := by
  cases action with
  | stop bwait => cases lasting
  | start => cases lasting
  | _ => exact lasting

omit [DecidableEq F] [DecidableEq W] in
theorem Intact.noAddToOrphan (intact : Intact state held) : NoAddToOrphan state action := by
  cases action with
  | addTask prop func =>
    right
    rintro ⟨worker, current, isRunning, _, orphan⟩
    simp [intact.attached worker current isRunning] at orphan
  | _ => trivial

omit [DecidableEq F] [DecidableEq W] in
/-- A task whose property keeps its deque stays attached to it. -/
private theorem attached_of_stands {queue : SerialTaskQueue P F}
    {running : W → Option (Running P F)}
    (before : ∀ worker current, running worker = some current → current.attached = true ∧
      current.prop ∈ queue.waitTasks) (worker : W) (current : Running P F)
    (isRunning : detach queue running worker = some current) : current.attached = true := by
  obtain ⟨earlier, found, rfl⟩ := detach_eq_some.mp isRunning
  obtain ⟨attached, stands⟩ := before worker earlier found
  simp [attached, stands]

theorem Intact.step (intact : Intact state held) (sparing : action.Sparing)
    (taken : state.next action = some after) : Intact after (heldAfter state held action) := by
  have consistent := intact.consistent.step intact.noAddToOrphan taken
  cases action with
  | addTask prop func =>
    obtain ⟨stopped, rfl⟩ | ⟨_, rfl⟩ := State.addTask_cases taken
    · exact intact
    · refine ⟨consistent, intact.attached, ?_⟩
      simp only [State.accept]
      rw [← List.append_assoc]
      exact intact.complete.append_right _
  | popBegin worker =>
    obtain ⟨_, ⟨begun, rfl⟩ | ⟨prop, func, queue, begun, rfl⟩⟩ := State.popBegin_cases taken
    · simpa only [heldAfter, begun] using intact
    · have member := List.mem_of_find?_eq_some (intact.consistent.tracks.popBegin begun).1
      refine ⟨consistent, ?_, ?_⟩
      · intro other current isRunning
        by_cases same : other = worker
        · subst same
          simp only [State.take, Function.update_self] at isRunning
          obtain ⟨task, _, rfl⟩ := Option.map_eq_some_iff.mp isRunning
          rfl
        · simp only [State.take, Function.update_of_ne same] at isRunning
          exact intact.attached other current isRunning
      · have erased := List.perm_cons_erase member
        simp only [State.take]
        rw [List.append_assoc]
        exact intact.complete.trans (erased.append_left _)
  | popFinish worker =>
    obtain ⟨current, queue, isRunning, finished, rfl⟩ := State.popFinish_cases taken
    refine ⟨consistent, attached_of_stands ?_, intact.complete⟩
    intro other before earlier
    have apart : other ≠ worker := by
      rintro rfl
      simp at earlier
    rw [Function.update_of_ne apart] at earlier
    have attached := intact.attached other before earlier
    have inside := intact.consistent.attached other before earlier attached
    have different : before.prop ≠ current.prop := fun shared =>
      apart (intact.consistent.exclusive other worker before current earlier isRunning shared)
    refine ⟨attached, consistent.tracks.mem_keys.mpr (.inl ?_)⟩
    simpa only [heldAfter, isRunning] using Finset.mem_erase.mpr ⟨different, inside⟩
  | stop bwait =>
    obtain rfl : bwait = true := sparing
    cases taken
    refine ⟨consistent, attached_of_stands ?_, by simpa using intact.complete⟩
    intro worker current isRunning
    have attached := intact.attached worker current isRunning
    have inside := intact.consistent.attached worker current isRunning attached
    refine ⟨attached, consistent.tracks.mem_keys.mpr (.inl ?_)⟩
    simpa [heldAfter] using inside
  | start =>
    cases taken
    exact ⟨consistent, intact.attached, intact.complete⟩
  | removeProp prop => cases sparing
  | clear => cases sparing

omit [DecidableEq F] [DecidableEq W] in
theorem Steady.sparesRunning (steady : Steady state held) (lasting : action.Lasting) :
    SparesRunning state action := by
  refine ⟨steady.noAddToOrphan, ?_⟩
  cases action with
  | removeProp prop => cases lasting
  | clear => cases lasting
  | stop bwait => cases lasting
  | start => cases lasting
  | _ => trivial

theorem Steady.step (steady : Steady state held) (lasting : action.Lasting)
    (taken : state.next action = some after) : Steady after (heldAfter state held action) := by
  have intact := steady.toIntact.step lasting.sparing taken
  have covered := covered_step steady.covered (steady.sparesRunning lasting) taken
  cases action with
  | addTask prop func =>
    obtain ⟨stopped, rfl⟩ | ⟨_, rfl⟩ := State.addTask_cases taken
    · exact steady
    · refine ⟨intact, covered, steady.opened, ?_⟩
      have counted := steady.counted
      simp [State.accept, pushTask, counted]
  | popBegin worker =>
    obtain ⟨_, ⟨begun, rfl⟩ | ⟨prop, func, queue, begun, rfl⟩⟩ := State.popBegin_cases taken
    · simpa only [heldAfter, begun] using steady
    · obtain ⟨_, _, _, sameStop, count, _⟩ := popBegin_frame begun
      have member := List.mem_of_find?_eq_some (steady.consistent.tracks.popBegin begun).1
      refine ⟨intact, covered, sameStop.trans steady.opened, ?_⟩
      have positive : 0 < state.pending.length := List.length_pos_of_mem member
      simp only [State.take]
      rw [count, steady.counted, List.length_erase_of_mem member, UInt64.ofNat_sub positive]
      rfl
  | popFinish worker =>
    obtain ⟨current, queue, isRunning, finished, rfl⟩ := State.popFinish_cases taken
    obtain ⟨_, sameStop, count, _⟩ := popFinish_frame finished
    exact ⟨intact, covered, sameStop.trans steady.opened, count.trans steady.counted⟩
  | removeProp prop => cases lasting
  | clear => cases lasting
  | stop bwait => cases lasting
  | start => cases lasting

/-- Along plain sections the logs agree for each property by itself. -/
theorem Settled.step (settled : Settled state held) (plain : action.Plain)
    (taken : state.next action = some after) : Settled after (heldAfter state held action) := by
  have steady := settled.toSteady.step plain.lasting taken
  have carried := settled.carried.step settled.consistent settled.noAddToOrphan plain.callable taken
  cases action with
  | addTask prop func =>
    obtain ⟨stopped, rfl⟩ | ⟨_, rfl⟩ := State.addTask_cases taken
    · exact settled
    · refine ⟨steady, carried, fun other => ?_⟩
      simp [State.accept, settled.logged]
  | popBegin worker =>
    obtain ⟨_, ⟨begun, rfl⟩ | ⟨prop, func, queue, begun, rfl⟩⟩ := State.popBegin_cases taken
    · simpa only [heldAfter, begun] using settled
    · have first := (settled.consistent.tracks.popBegin begun).1
      obtain ⟨rest, filed⟩ := ofKey_of_find? (fun prop => prop ∉ state.queue.curProps) first
      refine ⟨steady, carried, fun other => ?_⟩
      simp only [State.take]
      rw [settled.logged, ofKey_append, ofKey_erase filed, ofKey_cons, ofKey_nil]
      by_cases same : other = prop
      · subst same
        simp [filed]
      · simp [same, Ne.symm same]
  | popFinish worker =>
    obtain ⟨current, queue, isRunning, finished, rfl⟩ := State.popFinish_cases taken
    exact ⟨steady, carried, settled.logged⟩
  | removeProp prop => cases plain
  | clear => cases plain
  | stop bwait => cases plain
  | start => cases plain

/-- The flat list holds the same waiting tasks, and the same workers are busy with the
same ones. -/
structure Matches (state : State P F W) (flat : FlatQueue P F W) : Prop where
  waiting : flat.items = state.pending
  running : ∀ worker, (state.running worker).map (fun current => (current.prop, current.task)) =
    flat.executing worker

omit [DecidableEq F] [DecidableEq W] in
theorem Settled.running_iff (settled : Settled state held) (same : Matches state flat) (prop : P) :
    prop ∈ state.queue.curProps ↔ flat.Busy prop := by
  have marks : prop ∈ state.queue.curProps ↔ prop ∈ held :=
    ⟨fun running => settled.covered running, fun inside => settled.consistent.tracks.running inside⟩
  rw [marks, settled.carried.mem_held_iff settled.consistent]
  constructor
  · rintro ⟨worker, current, isRunning, rfl, _⟩
    exact ⟨worker, current.task, by rw [← same.running, isRunning]; rfl⟩
  · rintro ⟨worker, task, executing⟩
    rw [← same.running] at executing
    obtain ⟨current, isRunning, pair⟩ := Option.map_eq_some_iff.mp executing
    obtain ⟨rfl, _⟩ := Prod.mk.inj pair
    exact ⟨worker, current, isRunning, rfl, settled.attached worker current isRunning⟩

omit [DecidableEq F] [DecidableEq W] in
theorem Settled.refines (settled : Settled state held) (same : Matches state flat) :
    Refines state flat := by
  have tracks := settled.consistent.tracks
  have running := settled.running_iff same
  have keys : state.pending.map Prod.fst = flat.waiting.map Prod.fst := by
    rw [← same.waiting, FlatQueue.keys_items]
  have filed (prop : P) : ofKey prop state.pending = (ofKey prop flat.waiting).map some := by
    rw [← same.waiting]
    exact ofKey_map some
  have marks (prop : P) : flat.Busy prop ↔ prop ∈ held := by
    rw [← running]
    exact ⟨fun inside => settled.covered inside, fun inside => tracks.running inside⟩
  refine ⟨same.running, running, by rw [tracks.props, keys], ?_, ?_, ?_⟩
  · intro prop
    rw [tracks.ready, keys, running]
  · intro prop busy
    rw [tracks.deque, slot, if_pos ((marks prop).mp busy), filed]
    rfl
  · intro prop idle
    rw [tracks.deque, slot, if_neg (fun inside => idle ((marks prop).mpr inside)), filed]
    rfl

/-- Each section of the queue is the step of the specification with the same action. -/
theorem Settled.simulates (settled : Settled state held) (same : Matches state flat)
    (plain : action.Plain) (taken : state.next action = some after) :
    ∃ flat', FlatQueue.Step flat action flat' ∧ Matches after flat' := by
  cases action with
  | addTask prop func =>
    obtain ⟨task, rfl⟩ := Option.isSome_iff_exists.mp plain
    obtain ⟨stopped, _⟩ | ⟨_, rfl⟩ := State.addTask_cases taken
    · simp [settled.opened] at stopped
    · refine ⟨_, .addTask flat prop task, ?_, same.running⟩
      simp [State.accept, FlatQueue.items, ← same.waiting]
  | popBegin worker =>
    obtain ⟨free, ⟨begun, rfl⟩ | ⟨prop, func, queue, begun, rfl⟩⟩ := State.popBegin_cases taken
    · have stopped := (popBegin_returns begun).1
      simp [settled.opened] at stopped
    · have first := (settled.consistent.tracks.popBegin begun).1
      obtain ⟨eligible, front, back, split, earlier⟩ := List.find?_eq_some_iff_append.mp first
      obtain ⟨front', rest', parts, rfl, tail⟩ := List.map_eq_append_iff.mp (same.waiting.trans split)
      obtain ⟨⟨prop', task⟩, back', rfl, pair, rfl⟩ := List.map_eq_cons_iff.mp tail
      obtain ⟨rfl, rfl⟩ := Prod.mk.inj pair
      have idle : ¬ flat.Busy prop' := by
        rw [← settled.running_iff same]
        simpa using eligible
      have busy : ∀ entry ∈ front', flat.Busy entry.1 := by
        intro entry member
        rw [← settled.running_iff same]
        simpa using earlier _ (List.mem_map.mpr ⟨entry, member, rfl⟩)
      have isFree : flat.executing worker = none := by
        rw [← same.running, Option.map_eq_none_iff]
        exact free
      refine ⟨_, .popBegin flat worker prop' task front' back' isFree parts idle busy, ?_, ?_⟩
      · simp only [State.take]
        rw [split, List.erase_append_right, List.erase_cons_head]
        · simp [FlatQueue.items]
        · intro member
          obtain ⟨entry, inside, equal⟩ := List.mem_map.mp member
          exact idle ((Prod.mk.inj equal).1 ▸ busy entry inside)
      · intro other
        by_cases here : other = worker
        · subst here
          simp [State.take]
        · simp [State.take, here, ← same.running]
  | popFinish worker =>
    obtain ⟨current, queue, isRunning, finished, rfl⟩ := State.popFinish_cases taken
    refine ⟨_, .popFinish flat worker (current.prop, current.task)
      (by rw [← same.running, isRunning]; rfl), same.waiting, ?_⟩
    intro other
    by_cases here : other = worker
    · subst here
      simp [State.finish, detach]
    · simp [State.finish, detach, here, ← same.running, Function.comp_def]
  | removeProp prop => cases plain
  | clear => cases plain
  | stop bwait => cases plain
  | start => cases plain

omit [DecidableEq F] [DecidableEq W] in
theorem Settled.notEmpty_iff (settled : Settled state held) (same : Matches state flat) :
    state.queue.notEmpty = true ↔ ∃ entry ∈ flat.waiting, ¬ flat.Busy entry.1 := by
  have running := settled.running_iff same
  rw [settled.consistent.tracks.notEmpty_iff settled.covered, ← same.waiting, flat.keys_items]
  constructor
  · rintro ⟨prop, waits, idle⟩
    obtain ⟨entry, member, rfl⟩ := List.mem_map.mp waits
    exact ⟨entry, member, by rwa [← running]⟩
  · rintro ⟨entry, member, idle⟩
    exact ⟨entry.1, List.mem_map.mpr ⟨entry, member, rfl⟩, by rwa [running]⟩

/-- A free worker may begin exactly when the queue reports that it is not empty. -/
theorem Settled.begin_iff (settled : Settled state held) {worker : W}
    (free : state.running worker = none) :
    (state.next (.popBegin worker)).isSome = true ↔ state.queue.notEmpty = true := by
  have tracks := settled.consistent.tracks
  have opened := settled.opened
  simp only [State.next, free, Option.isSome_none, Bool.false_eq_true, if_false]
  constructor
  · intro enabled
    cases begun : state.queue.popBegin with
    | waits => simp [begun] at enabled
    | undefined => simp [begun] at enabled
    | returns => simp [(popBegin_returns begun).1] at opened
    | takes prop func queue => exact (popBegin_frame begun).2.1
  · intro seen
    obtain ⟨prop, func, queue, begun⟩ :=
      tracks.exists_takes ((tracks.notEmpty_iff settled.covered).mp seen) seen
    simp [begun]

/-- Every run of accepted callable tasks, begins and finishes is a run of the flat list,
which the three structures store; hence the order, exclusion and accounting of tasks. -/
theorem refines_flat (path : Path (Taken State.next) (State.init maxTaskCount) actions state)
    (plain : ∀ action ∈ actions, action.Plain) :
    ∃ flat, Path FlatQueue.Step FlatQueue.init actions flat ∧ Refines state flat ∧
      (state.queue.notEmpty = true ↔ ∃ entry ∈ flat.waiting, ¬ flat.Busy entry.1) ∧
      (∀ worker, state.running worker = none →
        ((state.next (.popBegin worker)).isSome = true ↔
          ∃ entry ∈ flat.waiting, ¬ flat.Busy entry.1)) ∧
      state.Exclusive ∧
      (∀ prop, ofKey prop state.accepted =
        ofKey prop state.started ++ (ofKey prop flat.waiting).map some) ∧
      state.accepted.Perm (state.started ++ flat.items) := by
  obtain ⟨flat, run, held, settled, same⟩ := (path.guard plain).simulate
    FlatQueue.Step
    (fun state flat => ∃ held, Settled state held ∧ Matches state flat)
    (fun before action after flat ⟨held, settled, same⟩ ⟨isPlain, taken⟩ => by
      obtain ⟨flat', step, same'⟩ := settled.simulates same isPlain taken
      exact ⟨flat', step, _, settled.step isPlain taken, same'⟩)
    (⟨∅, init_settled, rfl, fun _ => rfl⟩ :
      ∃ held, Settled (State.init maxTaskCount) held ∧ Matches (State.init maxTaskCount) FlatQueue.init)
  refine ⟨flat, run, settled.refines same, settled.notEmpty_iff same, ?_,
    settled.consistent.exclusive, ?_, ?_⟩
  · intro worker free
    rw [settled.begin_iff free, settled.notEmpty_iff same]
  · intro prop
    rw [settled.logged, ← same.waiting]
    exact congrArg _ (ofKey_map some)
  · rw [same.waiting]
    exact settled.complete

/-- Two properties and two workers: the second task of the first property waits. -/
theorem refines_flat_two_workers :
    ∃ state, exec State.next (State.init 0 : State Nat Nat (Fin 2))
      [.addTask 1 (some 10), .addTask 1 (some 11), .addTask 2 (some 20), .popBegin 0, .popBegin 1] =
        some state ∧ state.started = [(1, some 10), (2, some 20)] ∧
      ∃ flat, Refines state flat ∧ state.accepted.Perm (state.started ++ flat.items) := by
  have runs : ∃ state ∈ exec State.next (State.init 0 : State Nat Nat (Fin 2))
      [.addTask 1 (some 10), .addTask 1 (some 11), .addTask 2 (some 20), .popBegin 0, .popBegin 1],
      state.started = [(1, some 10), (2, some 20)] := by
    decide
  obtain ⟨state, ends, started⟩ := runs
  obtain ⟨flat, _, refines, _, _, _, _, complete⟩ :=
    refines_flat (exec_eq_some_iff.mp ends) (by decide)
  exact ⟨state, ends, started, flat, refines, complete⟩

end SerialTaskQueue

end BTool.TaskQueue
