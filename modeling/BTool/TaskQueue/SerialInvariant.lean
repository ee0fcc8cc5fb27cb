import Mathlib.Data.List.Find
import BTool.Foundation.KeyedList
import BTool.TaskQueue.SerialTaskQueue

/-! How the three structures of a `SerialTaskQueue` agree with one list of waiting
tasks, and how every section keeps them in agreement. -/

namespace BTool.TaskQueue.SerialTaskQueue

open BTool.Foundation

variable {P F : Type} [DecidableEq P] {queue after : SerialTaskQueue P F} {held : Finset P}
  {pending : List (P × TaskItem F)} {prop other : P} {func : TaskItem F} {bwait : Bool}

/-- What a finish section does to the rest of the queue. -/
theorem popFinish_frame (finished : queue.popFinish prop = some after) :
    after.curProps = queue.curProps.erase prop ∧ after.bstop = queue.bstop ∧
      after.approxSize = queue.approxSize ∧ after.maxTaskCount = queue.maxTaskCount := by
  obtain ⟨waitTasks, _, same⟩ := Option.bind_eq_some_iff.mp finished
  cases same
  exact ⟨rfl, rfl, rfl, rfl⟩

/-- What a begin section that takes a task does to the rest of the queue. -/
theorem popBegin_frame (takes : queue.popBegin = .takes prop func after) :
    prop ∉ queue.curProps ∧ queue.notEmpty = true ∧
      after.curProps = insert prop queue.curProps ∧ after.bstop = queue.bstop ∧
      after.approxSize = queue.approxSize - 1 ∧ after.maxTaskCount = queue.maxTaskCount := by
  unfold popBegin at takes
  split at takes
  · cases takes
  split at takes
  · cases takes
  rename_i seen
  split at takes
  · cases takes
  split at takes
  · cases takes
  rename_i idle
  have notEmpty : queue.notEmpty = true := by simpa using seen
  dsimp only at takes
  split at takes <;> cases takes
  · exact ⟨idle, notEmpty, rfl, rfl, rfl, rfl⟩
  · exact ⟨idle, notEmpty, rfl, rfl, rfl, rfl⟩

/-- A begin section returns without a task only in a stopped queue with nothing to do. -/
theorem popBegin_returns (returns : queue.popBegin = .returns) :
    queue.bstop = true ∧ queue.notEmpty = false := by
  unfold popBegin at returns
  split at returns
  · cases returns
  · rename_i goes
    split at returns
    · rename_i nothing
      have empty : queue.notEmpty = false := by simpa using nothing
      exact ⟨by simpa [empty] using goes, empty⟩
    · split at returns
      · cases returns
      · split at returns
        · cases returns
        · dsimp only at returns
          split at returns <;> cases returns

theorem popBegin_waits (waits : queue.popBegin = .waits) :
    queue.bstop = false ∧ queue.notEmpty = false := by
  unfold popBegin at waits
  split at waits
  · rename_i asleep
    simpa using asleep
  · split at waits
    · cases waits
    · split at waits
      · cases waits
      · split at waits
        · cases waits
        · dsimp only at waits
          split at waits <;> cases waits

/-- What stands at the front of the deque of a property whose task was moved out. -/
def slot (held : Finset P) (prop : P) : List (TaskItem F) := if prop ∈ held then [none] else []

/-- The queue stores the waiting tasks `pending`, and the properties `held` still have
the moved-out task at the front of their deque. -/
structure Tracks (queue : SerialTaskQueue P F) (held : Finset P)
    (pending : List (P × TaskItem F)) : Prop where
  deque : ∀ prop, queue.deque prop = slot held prop ++ ofKey prop pending
  stored : ∀ prop, queue.waitTasks.lookup prop ≠ some []
  props : queue.waitProps.props = pending.map Prod.fst
  ready : ∀ prop, queue.waitProps.ready prop = true ↔
    prop ∈ pending.map Prod.fst ∧ prop ∉ queue.curProps
  running : held ⊆ queue.curProps

theorem construct_tracks (maxTaskCount : UInt64) :
    Tracks (construct maxTaskCount : SerialTaskQueue P F) ∅ [] where
  deque := by simp [SerialTaskQueue.deque, construct, slot]
  stored := by simp [construct]
  props := rfl
  ready := by simp [construct]
  running := Finset.empty_subset _

theorem Tracks.mem_keys (tracks : Tracks queue held pending) :
    prop ∈ queue.waitTasks ↔ prop ∈ held ∨ prop ∈ pending.map Prod.fst := by
  have stands : prop ∈ queue.waitTasks ↔ queue.deque prop ≠ [] := by
    rw [← Finmap.lookup_isSome]
    cases found : queue.waitTasks.lookup prop with
    | none => simp [SerialTaskQueue.deque, found]
    | some tasks =>
      have present : tasks ≠ [] := fun empty => tracks.stored prop (empty ▸ found)
      simp [SerialTaskQueue.deque, found, present]
  have nothing : ofKey prop pending = [] ↔ prop ∉ pending.map Prod.fst := ofKey_eq_nil
  rw [stands, tracks.deque]
  by_cases inside : prop ∈ held
  · simp [slot, inside]
  · simp only [slot, inside, if_false, List.nil_append, ne_eq, nothing, false_or, not_not]

theorem Tracks.lookup (tracks : Tracks queue held pending) (member : prop ∈ queue.waitTasks) :
    queue.waitTasks.lookup prop = some (slot held prop ++ ofKey prop pending) := by
  obtain ⟨tasks, found⟩ := Option.isSome_iff_exists.mp (Finmap.lookup_isSome.mpr member)
  have same := tracks.deque prop
  rw [SerialTaskQueue.deque, found, Option.getD_some] at same
  rw [found, same]

/-- An accepted task joins the waiting ones; it is ready when it is the first of its
property and no task of the property is running. -/
theorem Tracks.pushTask (tracks : Tracks queue held pending) :
    Tracks (queue.pushTask prop func) held (pending ++ [(prop, func)]) where
  deque := by
    intro other
    by_cases same : other = prop
    · subst same
      have before := tracks.deque other
      simp only [SerialTaskQueue.deque] at before
      simp [SerialTaskQueue.pushTask, SerialTaskQueue.deque, before, ofKey_cons]
    · have before := tracks.deque other
      simp only [SerialTaskQueue.deque] at before
      simp [SerialTaskQueue.pushTask, SerialTaskQueue.deque, Finmap.lookup_insert_of_ne _ same,
        before, ofKey_cons, Ne.symm same]
  stored := by
    intro other
    by_cases same : other = prop
    · subst same
      simp [SerialTaskQueue.pushTask]
    · rw [SerialTaskQueue.pushTask, Finmap.lookup_insert_of_ne _ same]
      exact tracks.stored other
  props := by simp [SerialTaskQueue.pushTask, tracks.props]
  ready := by
    intro other
    have kept : (queue.pushTask prop func).curProps = queue.curProps := rfl
    rw [kept, SerialTaskQueue.pushTask, WaitProps.ready_pushBack, tracks.props]
    split
    · rename_i first
      obtain ⟨rfl, absent⟩ := first
      have nothing : ofKey other pending = [] := ofKey_eq_nil.mpr absent
      by_cases running : other ∈ queue.curProps
      · simp [running]
      · have notHeld : other ∉ held := fun inside => running (tracks.running inside)
        simp [running, tracks.deque, slot, notHeld, nothing]
    · rename_i notFirst
      have same : other ∈ (pending ++ [(prop, func)]).map Prod.fst ↔
          other ∈ pending.map Prod.fst := by
        rw [List.map_append, List.mem_append]
        refine or_iff_left_of_imp fun last => ?_
        by_contra absent
        have equal : other = prop := by simpa using last
        exact notFirst ⟨equal, equal ▸ absent⟩
      rw [tracks.ready, same]
  running := tracks.running

theorem clearInner_tracks (queue : SerialTaskQueue P F) :
    Tracks queue.clearInner ∅ [] where
  deque := by simp [SerialTaskQueue.deque, SerialTaskQueue.clearInner, slot]
  stored := by simp [SerialTaskQueue.clearInner]
  props := by simp [SerialTaskQueue.clearInner]
  ready := by simp [SerialTaskQueue.clearInner]
  running := Finset.empty_subset _

theorem Tracks.setStop (tracks : Tracks queue held pending) (bstop : Bool) :
    Tracks { queue with bstop } held pending :=
  ⟨tracks.deque, tracks.stored, tracks.props, tracks.ready, tracks.running⟩

/-- Removing a property takes its waiting tasks and its deque, but not its running mark. -/
theorem Tracks.removeProp (tracks : Tracks queue held pending) :
    Tracks (queue.removeProp prop) (held.erase prop)
      (pending.filter fun entry => entry.1 ≠ prop) where
  deque := by
    intro other
    have before := tracks.deque other
    simp only [SerialTaskQueue.deque] at before
    rw [ofKey_filter_ne]
    by_cases same : other = prop
    · subst same
      simp [SerialTaskQueue.removeProp, SerialTaskQueue.deque, slot]
    · simp [SerialTaskQueue.removeProp, SerialTaskQueue.deque, Finmap.lookup_erase_ne same, before,
        slot, same]
  stored := by
    intro other
    by_cases same : other = prop
    · subst same
      simp [SerialTaskQueue.removeProp]
    · rw [SerialTaskQueue.removeProp, Finmap.lookup_erase_ne same]
      exact tracks.stored other
  props := by
    simp only [SerialTaskQueue.removeProp, WaitProps.props_removeProp, tracks.props]
    rw [List.filter_map]
    rfl
  ready := by
    intro other
    have kept : (queue.removeProp prop).curProps = queue.curProps := rfl
    have keys : (pending.filter fun entry => entry.1 ≠ prop).map Prod.fst =
        (pending.map Prod.fst).filter fun entry => entry ≠ prop := by
      rw [List.filter_map]
      rfl
    rw [kept, SerialTaskQueue.removeProp, WaitProps.ready_removeProp, keys, List.mem_filter,
      Bool.and_eq_true, tracks.ready]
    simp only [decide_eq_true_eq]
    tauto
  running := (Finset.erase_subset _ _).trans tracks.running

/-- What remains to be said of a finish section once its deque has been dealt with. -/
private theorem Tracks.finished (tracks : Tracks queue held pending)
    (waitTasks : Finmap (fun _ : P => List (TaskItem F)))
    (deque : ∀ other, (waitTasks.lookup other).getD [] =
      slot (held.erase prop) other ++ ofKey other pending)
    (stored : ∀ other, waitTasks.lookup other ≠ some []) :
    Tracks { queue with
      waitTasks
      curProps := queue.curProps.erase prop
      waitProps := queue.waitProps.resetProp prop } (held.erase prop) pending where
  deque := deque
  stored := stored
  props := by rw [WaitProps.props_resetProp, tracks.props]
  ready := by
    intro other
    rw [WaitProps.ready_resetProp, Bool.or_eq_true, tracks.ready, decide_eq_true_eq, tracks.props]
    by_cases same : other = prop
    · subst same
      have left : other ∉ queue.curProps.erase other := Finset.notMem_erase _ _
      tauto
    · simp only [same, false_and, or_false, Finset.mem_erase, ne_eq, not_false_eq_true, true_and]
  running := Finset.erase_subset_erase _ tracks.running

/-- A finish section drops the moved-out task, if its deque still stands, and makes the
next task of the property ready. -/
theorem Tracks.popFinish (tracks : Tracks queue held pending)
    (stands : prop ∈ held ∨ prop ∉ queue.waitTasks) :
    ∃ after, queue.popFinish prop = some after ∧ Tracks after (held.erase prop) pending := by
  have elsewhere {other : P} (different : other ≠ prop) : (queue.waitTasks.lookup other).getD [] =
      slot (held.erase prop) other ++ ofKey other pending := by
    have before := tracks.deque other
    simpa [SerialTaskQueue.deque, slot, different] using before
  rcases stands with inside | gone
  · have present : prop ∈ queue.waitTasks := tracks.mem_keys.mpr (.inl inside)
    have found : queue.waitTasks.lookup prop = some (none :: ofKey prop pending) := by
      simpa [slot, inside] using tracks.lookup present
    by_cases last : ofKey prop pending = []
    · refine ⟨_, by simp [SerialTaskQueue.popFinish, popFrontTask, found, last, removeCurProp],
        tracks.finished (queue.waitTasks.erase prop) ?_ ?_⟩
      · intro other
        by_cases same : other = prop
        · subst same
          simp [slot, last]
        · rw [Finmap.lookup_erase_ne same]
          exact elsewhere same
      · intro other
        by_cases same : other = prop
        · subst same
          simp
        · rw [Finmap.lookup_erase_ne same]
          exact tracks.stored other
    · refine ⟨_, by simp [SerialTaskQueue.popFinish, popFrontTask, found, last, removeCurProp],
        tracks.finished (queue.waitTasks.insert prop (ofKey prop pending)) ?_ ?_⟩
      · intro other
        by_cases same : other = prop
        · subst same
          simp [slot]
        · rw [Finmap.lookup_insert_of_ne _ same]
          exact elsewhere same
      · intro other
        by_cases same : other = prop
        · subst same
          simpa using last
        · rw [Finmap.lookup_insert_of_ne _ same]
          exact tracks.stored other
  · have missing : queue.waitTasks.lookup prop = none := Finmap.lookup_eq_none.mpr gone
    have absent : prop ∉ held ∧ prop ∉ pending.map Prod.fst := by
      rw [tracks.mem_keys, not_or] at gone
      exact gone
    refine ⟨_, by simp [SerialTaskQueue.popFinish, popFrontTask, missing, removeCurProp],
      tracks.finished queue.waitTasks ?_ tracks.stored⟩
    intro other
    by_cases same : other = prop
    · subst same
      simp [missing, slot, ofKey_eq_nil.mpr absent.2]
    · exact elsewhere same

/-- Nothing waits in an empty queue. -/
theorem Tracks.pending_eq_nil (tracks : Tracks queue held pending) (empty : queue.empty = true) :
    pending = [] := by
  by_contra waits
  obtain ⟨entry, member⟩ := List.exists_mem_of_ne_nil _ waits
  have stands : entry.1 ∈ queue.waitTasks.keys :=
    Finmap.mem_keys.mpr (tracks.mem_keys.mpr (.inr (List.mem_map.mpr ⟨entry, member, rfl⟩)))
  have none : queue.waitTasks.keys.card = 0 := by simpa [SerialTaskQueue.empty, size] using empty
  simp [Finset.card_eq_zero.mp none] at stands

/-- With no property marked as running beyond those held, the sizes that `not_empty`
compares tell whether a waiting task may start. -/
theorem Tracks.notEmpty_iff (tracks : Tracks queue held pending)
    (covered : queue.curProps ⊆ held) :
    queue.notEmpty = true ↔ ∃ prop, prop ∈ pending.map Prod.fst ∧ prop ∉ queue.curProps := by
  have within : queue.curProps ⊆ queue.waitTasks.keys := fun prop running =>
    Finmap.mem_keys.mpr (tracks.mem_keys.mpr (.inl (covered running)))
  have sizes : queue.notEmpty = true ↔ queue.curProps.card < queue.waitTasks.keys.card := by
    have nonempty : queue.empty = false ↔ queue.waitTasks.keys.card ≠ 0 := by simp [empty, size]
    rw [notEmpty, Bool.and_eq_true, Bool.not_eq_true', nonempty, decide_eq_true_eq, size]
    omega
  rw [sizes]
  constructor
  · intro fewer
    obtain ⟨prop, stands, idle⟩ := Finset.exists_mem_notMem_of_card_lt_card fewer
    have kept := tracks.mem_keys.mp (Finmap.mem_keys.mp stands)
    exact ⟨prop, kept.resolve_left fun inside => idle (tracks.running inside), idle⟩
  · rintro ⟨prop, waits, idle⟩
    have stands : prop ∈ queue.waitTasks.keys :=
      Finmap.mem_keys.mpr (tracks.mem_keys.mpr (.inr waits))
    exact Finset.card_lt_card (Finset.ssubset_iff_subset_ne.mpr
      ⟨within, fun same => idle (same ▸ stands)⟩)

theorem Tracks.exists_ready_iff (tracks : Tracks queue held pending) :
    (∃ prop, queue.waitProps.ready prop = true) ↔
      ∃ prop, prop ∈ pending.map Prod.fst ∧ prop ∉ queue.curProps :=
  exists_congr tracks.ready

/-- When a waiting task may start, `pop_front` finds a node, and the deque of its property
has a waiting task at the front. -/
theorem Tracks.exists_popFront (tracks : Tracks queue held pending)
    (eligible : ∃ prop, prop ∈ pending.map Prod.fst ∧ prop ∉ queue.curProps) :
    ∃ prop func waitProps rest, queue.waitProps.popFront = some (prop, waitProps) ∧
      prop ∉ queue.curProps ∧ ofKey prop pending = func :: rest ∧
      queue.waitTasks.lookup prop = some (func :: rest) := by
  obtain ⟨ready, isReady⟩ := tracks.exists_ready_iff.mpr eligible
  cases popped : queue.waitProps.popFront with
  | none => simp [WaitProps.popFront_eq_none.mp popped ready] at isReady
  | some pair =>
    obtain ⟨prop, waitProps⟩ := pair
    have first := WaitProps.find?_of_popFront popped
    obtain ⟨waits, idle⟩ := (tracks.ready prop).mp (List.find?_some first)
    have notHeld : prop ∉ held := fun inside => idle (tracks.running inside)
    have found := tracks.lookup (tracks.mem_keys.mpr (.inr waits))
    obtain ⟨func, rest, filed⟩ := List.exists_cons_of_ne_nil
      (fun nothing => ofKey_eq_nil.mp nothing waits : ofKey prop pending ≠ [])
    rw [slot, if_neg notHeld, List.nil_append, filed] at found
    exact ⟨prop, func, waitProps, rest, rfl, idle, filed, found⟩

/-- If the queue sees the task as well, a begin section takes one. -/
theorem Tracks.exists_takes (tracks : Tracks queue held pending)
    (eligible : ∃ prop, prop ∈ pending.map Prod.fst ∧ prop ∉ queue.curProps)
    (seen : queue.notEmpty = true) :
    ∃ prop func after, queue.popBegin = .takes prop func after := by
  obtain ⟨prop, func, waitProps, rest, popped, idle, _, found⟩ := tracks.exists_popFront eligible
  exact ⟨prop, func, _, by simp [SerialTaskQueue.popBegin, seen, popped, idle, found]; rfl⟩

section Begin

variable [DecidableEq F]

/-- A begin section takes the earliest task whose property is not running. -/
theorem Tracks.popBegin (tracks : Tracks queue held pending)
    (takes : queue.popBegin = .takes prop func after) :
    pending.find? (fun entry => entry.1 ∉ queue.curProps) = some (prop, func) ∧
      Tracks after (insert prop held) (pending.erase (prop, func)) := by
  unfold SerialTaskQueue.popBegin at takes
  split at takes
  · cases takes
  split at takes
  · cases takes
  split at takes
  · cases takes
  rename_i front waitProps popped
  split at takes
  · cases takes
  rename_i notRunning
  have first := WaitProps.find?_of_popFront popped
  have waits : front ∈ pending.map Prod.fst := by
    rw [← tracks.props]
    exact List.mem_of_find?_eq_some first
  have notHeld : front ∉ held := fun inside => notRunning (tracks.running inside)
  have found := tracks.lookup (tracks.mem_keys.mpr (.inr waits))
  rw [slot, if_neg notHeld, List.nil_append] at found
  obtain ⟨item, rest, filed⟩ := List.exists_cons_of_ne_nil
    (fun nothing => ofKey_eq_nil.mp nothing waits : ofKey front pending ≠ [])
  rw [filed] at found
  simp only [found] at takes
  cases takes
  have ready : pending.find? (fun entry => decide (entry.1 ∉ queue.curProps)) =
      some (prop, func) := by
    refine find?_of_keys (fun other => decide (other ∉ queue.curProps)) ?_ filed
    rw [← first, tracks.props]
    refine List.find?_congr ?_
    intro other member
    have same := tracks.ready other
    by_cases running : other ∈ queue.curProps <;> simp_all
  refine ⟨ready, ⟨?_, ?_, ?_, ?_, ?_⟩⟩
  · intro other
    rw [ofKey_erase filed]
    by_cases same : other = prop
    · subst same
      simp [SerialTaskQueue.deque, slot]
    · have before := tracks.deque other
      simp only [SerialTaskQueue.deque] at before
      simp [SerialTaskQueue.deque, Finmap.lookup_insert_of_ne _ same, before, slot, same]
  · intro other
    by_cases same : other = prop
    · subst same
      simp
    · rw [Finmap.lookup_insert_of_ne _ same]
      exact tracks.stored other
  · rw [WaitProps.props_popFront popped, tracks.props, keys_erase filed]
  · intro other
    rw [WaitProps.ready_popFront popped, Bool.and_eq_true, tracks.ready, keys_erase filed,
      decide_eq_true_eq, Finset.mem_insert, not_or]
    by_cases same : other = prop
    · simp [same]
    · rw [List.mem_erase_of_ne same]
      tauto
  · exact Finset.insert_subset_insert _ tracks.running

end Begin

end BTool.TaskQueue.SerialTaskQueue
