import BTool.Timer.TimerIndex
import BTool.Timer.TimerManager

/-! The waits of a `TimerManager`. One wait is armed for the front of the queue, or a completion is on
its way to a handler that will arm one; `clear` forgets the completion that it causes itself. -/

namespace BTool.Timer

open BTool.Foundation

namespace TimerQueue

variable {queue : TimerQueue} {id address front intervalMs : Nat} {loopCount : Int}
    {timePoint : Int}

/-- The front of the queue is in the map of all tasks. -/
theorem Indexed.front_held (indexed : queue.Indexed) (isFront : queue.front = some front) :
    queue.allTimerMap.find? (queue.task front).id = some front := by
  obtain ⟨slot, key, found, _⟩ := SlotMap.front?_eq_some isFront
  have held := ((indexed.slotted slot key front).mp found).1
  rwa [(indexed.keyed key front held).1]

/-- An id that is invalid or in use is refused. -/
theorem insert_eq_none (refused : (queue.insert intervalMs loopCount id timePoint).2 = none) :
    (queue.insert intervalMs loopCount id timePoint).1 = queue := by
  unfold TimerQueue.insert at refused ⊢
  split
  · rfl
  · split
    · rfl
    · rename_i valid fresh
      simp [valid, fresh] at refused

theorem insert_eq_some
    (inserted : (queue.insert intervalMs loopCount id timePoint).2 = some address) :
    id ≠ invalidTid ∧ address = queue.allocated ∧
      (∀ other, other ≠ address →
        (queue.insert intervalMs loopCount id timePoint).1.task other = queue.task other) ∧
      ∀ other, (queue.insert intervalMs loopCount id timePoint).1.allTimerMap.find? other =
        if other = id then some address else queue.allTimerMap.find? other := by
  unfold TimerQueue.insert at inserted ⊢
  split at inserted
  · cases inserted
  · split at inserted
    · cases inserted
    · rename_i valid fresh
      cases inserted
      rw [if_neg valid, if_neg fresh]
      refine ⟨valid, rfl, fun other apart => ?_, fun other => ?_⟩
      · simp [change, apart]
      · simp [OrderedMap.find?_insert]

/-- The first task is the front. -/
theorem Indexed.front_insert (indexed : queue.Indexed) (nothing : queue.empty = true)
    (valid : id ≠ invalidTid) :
    ∃ item, (queue.insert intervalMs loopCount id timePoint).2 = some item ∧
      (queue.insert intervalMs loopCount id timePoint).1.front = some item := by
  have absent := OrderedMap.isEmpty_iff.mp nothing
  cases inserted : (queue.insert intervalMs loopCount id timePoint).2 with
  | none => simp [TimerQueue.insert, valid, absent] at inserted
  | some item =>
    obtain ⟨_, _, _, held⟩ := insert_eq_some inserted
    have filled : (queue.insert intervalMs loopCount id timePoint).1.empty = false := by
      by_contra none
      have := OrderedMap.isEmpty_iff.mp (by simpa [empty] using none) id
      rw [held, if_pos rfl] at this
      cases this
    obtain ⟨front, isFront, there, _⟩ := indexed.insert.front_spec filled
    rw [held, absent] at there
    split at there
    · cases there
      exact ⟨item, rfl, isFront⟩
    · cases there

/-- The front stays when another task is erased. -/
theorem Indexed.front_erase (indexed : queue.Indexed) (isFront : queue.front = some front)
    (apart : (queue.erase id).2 ≠ some front) :
    (queue.erase id).1.front = some front ∧
      ((queue.erase id).1.task front).timePoint = (queue.task front).timePoint := by
  unfold TimerQueue.erase at apart ⊢
  cases held : queue.allTimerMap.find? id with
  | none => exact ⟨isFront, rfl⟩
  | some address =>
    simp only [held] at apart
    have other : front ≠ address := fun same => apart (congrArg some same.symm)
    refine ⟨?_, by simp [removeFromPartQueue, removeFromAllMap, TimerQueue.change, other]⟩
    apply indexed.filled.remove.front?_keep isFront
    · intro slot key found
      rw [SlotMap.lookup_remove, if_neg, found]
      rintro ⟨_, rfl⟩
      exact other (Option.some.inj ((((indexed.slotted slot key front).mp found).1).symm.trans held))
    · intro slot key found
      rw [SlotMap.lookup_remove] at found
      split at found
      · cases found
      · exact found

theorem empty_erase (nothing : queue.empty = true) : (queue.erase id).1.empty = true := by
  have absent := OrderedMap.isEmpty_iff.mp nothing id
  rw [TimerQueue.erase, absent]
  exact nothing

/-- The front stays when another time point is cleared. -/
theorem Indexed.front_clearPointTimer (indexed : queue.Indexed) (isFront : queue.front = some front)
    (apart : front ∉ (queue.clearPointTimer timePoint).2) :
    (queue.clearPointTimer timePoint).1.front = some front ∧
      ((queue.clearPointTimer timePoint).1.task front).timePoint = (queue.task front).timePoint := by
  unfold TimerQueue.clearPointTimer at apart ⊢
  cases found : queue.timerPartQueue.find? timePoint with
  | none => exact ⟨isFront, rfl⟩
  | some slot =>
    simp only [found] at apart
    obtain ⟨slots, _, objects, _⟩ := foldl_clearItem slot.entries queue
    refine ⟨?_, (objects front).2⟩
    simp only [TimerQueue.front, slots]
    apply indexed.filled.erase.front?_keep isFront
    · intro other key there
      rw [SlotMap.lookup_erase, if_neg, there]
      rintro rfl
      rw [SlotMap.lookup, found, Option.bind_some, OrderedMap.find?_eq_some_iff] at there
      exact apart (List.mem_map.mpr ⟨_, there, rfl⟩)
    · intro other key there
      rw [SlotMap.lookup_erase] at there
      split at there
      · cases there
      · exact there

theorem empty_clearPointTimer (nothing : queue.empty = true) :
    (queue.clearPointTimer timePoint).1.empty = true := by
  have absent := OrderedMap.isEmpty_iff.mp nothing
  unfold TimerQueue.clearPointTimer
  split
  · exact nothing
  · rename_i slot found
    obtain ⟨_, _, _, held⟩ := foldl_clearItem slot.entries queue
    apply OrderedMap.isEmpty_iff.mpr
    intro id
    simp [held, absent]

end TimerQueue

namespace TimerManager

/-- At most one wait is outstanding, and one completion is on its way or the wait is for the front. -/
structure Sole (manager : TimerManager) : Prop where
  outstanding : manager.armed.length + manager.pending.length ≤ 1
  aimed : manager.timerQueue.empty = false → manager.pending ≠ [] ∨
    ∃ front wait, manager.timerQueue.front = some front ∧ manager.armed = [wait] ∧
      wait.timePoint = (manager.timerQueue.task front).timePoint

/-- What `m_cur_task` says about the queue and the waits. -/
structure Tracked (manager : TimerManager) : Prop where
  indexed : manager.timerQueue.Indexed
  idle : manager.curTask = none → manager.timerQueue.empty = true ∧ manager.armed = []
  aimed : manager.pending = [] → ∀ task, manager.curTask = some task →
    manager.timerQueue.front = some task ∧
      manager.armed = [⟨task, (manager.timerQueue.task task).timePoint⟩]

/-- An `insert` finds `m_cur_task` null only when no completion is on its way, or the ids have wrapped
around to the invalid one. -/
def Fine (manager : TimerManager) : Action → Prop
  | .insert _ _ _ =>
    manager.curTask = none → manager.pending = [] ∨ manager.getNextTimerId = invalidTid
  | _ => True

variable {manager after : TimerManager} {action : Action} {timerQueue : TimerQueue}
    {spaceMillsecond : UInt64}

theorem Tracked.sole (tracked : manager.Tracked)
    (outstanding : manager.armed.length + manager.pending.length ≤ 1) :
    manager.Sole := by
  refine ⟨outstanding, fun filled => ?_⟩
  by_cases none : manager.pending = []
  · cases current : manager.curTask with
    | none => cases filled.symm.trans (tracked.idle current).1
    | some task =>
      obtain ⟨isFront, armed⟩ := tracked.aimed none task current
      exact .inr ⟨task, _, isFront, armed, rfl⟩
  · exact .inl none

/-- A completion on its way is the only one, and no wait is armed. -/
theorem Sole.only (sole : manager.Sole) {completion : Wait × WaitError}
    (member : completion ∈ manager.pending) :
    manager.armed = [] ∧ manager.pending.erase completion = [] := by
  have outstanding := sole.outstanding
  have some : 0 < manager.pending.length := List.length_pos_of_mem member
  refine ⟨List.length_eq_zero_iff.mp (by omega), List.length_eq_zero_iff.mp ?_⟩
  rw [List.length_erase_of_mem member]
  omega

@[simp] theorem outstanding_cancelWaits :
    manager.cancelWaits.armed.length + manager.cancelWaits.pending.length =
      manager.armed.length + manager.pending.length := by
  simp [cancelWaits, Nat.add_comm]

/-- The queue changes behind the current task. -/
theorem Tracked.requeue (tracked : manager.Tracked) {nextId : Nat} (indexed : timerQueue.Indexed)
    (emptier : manager.curTask = none → timerQueue.empty = true)
    (same : ∀ task, manager.curTask = some task → manager.timerQueue.front = some task →
      timerQueue.front = some task ∧
      (timerQueue.task task).timePoint = (manager.timerQueue.task task).timePoint) :
    Tracked { manager with nextId, timerQueue } := by
  refine ⟨indexed, fun none => ⟨emptier none, (tracked.idle none).2⟩, fun none task current => ?_⟩
  obtain ⟨isFront, armed⟩ := tracked.aimed none task current
  obtain ⟨front, time⟩ := same task current isFront
  exact ⟨front, by rw [armed, time]⟩

/-- The queue changes, and the wait of the current task is cancelled. -/
theorem Tracked.cancel (tracked : manager.Tracked) {nextId : Nat} (indexed : timerQueue.Indexed)
    (emptier : manager.curTask = none → timerQueue.empty = true) :
    Tracked ({ manager with nextId, timerQueue } : TimerManager).cancelWaits := by
  refine ⟨indexed, fun none => ⟨emptier none, rfl⟩, fun none task current => ?_⟩
  obtain ⟨before, nothing⟩ := List.append_eq_nil_iff.mp none
  obtain ⟨_, armed⟩ := tracked.aimed before task current
  rw [armed] at nothing
  cases nothing

/-- A wait is armed for a task where no other is outstanding. -/
theorem start_tracked (manager : TimerManager) {task : Nat} (indexed : manager.timerQueue.Indexed)
    (isFront : manager.timerQueue.front = some task)
    (armed : manager.armed = []) (pending : manager.pending = []) :
    ({ manager with curTask := some task }.start task).Tracked ∧
      ({ manager with curTask := some task }.start task).armed.length +
        ({ manager with curTask := some task }.start task).pending.length ≤ 1 := by
  refine ⟨⟨indexed, nofun, fun _ other current => ?_⟩,
    by simp [TimerManager.start, cancelWaits, armed, pending]⟩
  obtain rfl := Option.some.inj current
  exact ⟨isFront, rfl⟩

theorem Tracked.insert (tracked : manager.Tracked) (sole : manager.Sole) {intervalMs : UInt32}
    {loopCount timePoint : Int} (fine : manager.Fine (.insert intervalMs loopCount timePoint)) :
    (manager.insert intervalMs loopCount timePoint).1.Tracked ∧
      (manager.insert intervalMs loopCount timePoint).1.armed.length +
        (manager.insert intervalMs loopCount timePoint).1.pending.length ≤ 1 := by
  have indexed : (manager.insertTask intervalMs loopCount timePoint).1.Indexed :=
    tracked.indexed.insert
  unfold TimerManager.insert
  simp only
  cases made : (manager.insertTask intervalMs loopCount timePoint).2 with
  | none =>
    have same : (manager.insertTask intervalMs loopCount timePoint).1 = manager.timerQueue :=
      TimerQueue.insert_eq_none made
    refine ⟨tracked.requeue indexed (fun none => same ▸ (tracked.idle none).1)
      fun task current isFront => ?_, sole.outstanding⟩
    rw [same]
    exact ⟨isFront, rfl⟩
  | some item =>
    obtain ⟨valid, fresh, kept, _⟩ := TimerQueue.insert_eq_some made
    simp only
    split
    · rename_i none
      obtain ⟨nothing, armed⟩ := tracked.idle none
      obtain ⟨address, again, isFront⟩ :
          ∃ item, (manager.insertTask intervalMs loopCount timePoint).2 = some item ∧
          (manager.insertTask intervalMs loopCount timePoint).1.front = some item :=
        tracked.indexed.front_insert nothing valid
      obtain rfl := Option.some.inj (made.symm.trans again)
      exact start_tracked { manager with
        nextId := manager.getNextTimerId
        timerQueue := (manager.insertTask intervalMs loopCount timePoint).1 } indexed isFront armed
        ((fine none).resolve_right valid)
    · rename_i busy
      split
      · exact ⟨tracked.cancel indexed fun none => absurd none busy,
          outstanding_cancelWaits.trans_le sole.outstanding⟩
      · rename_i ahead
        refine ⟨tracked.requeue indexed (fun none => absurd none busy)
          fun task current isFront => ?_, sole.outstanding⟩
        have apart : task ≠ item := by
          rintro rfl
          have below := (tracked.indexed.keyed _ task (tracked.indexed.front_held isFront)).2
          omega
        refine ⟨?_, by rw [insertTask, kept task apart]⟩
        rw [← current]
        simpa using (not_ne_iff.mp ahead).symm

/-- Where a completion is on its way and `m_cur_task` is null, an `insert` arms a wait beside it. -/
theorem Tracked.insert_beside (tracked : manager.Tracked) {intervalMs : UInt32}
    {loopCount timePoint : Int} (idle : manager.curTask = none) (pending : manager.pending ≠ [])
    (valid : manager.getNextTimerId ≠ invalidTid) :
    ¬ (manager.insert intervalMs loopCount timePoint).1.Sole := by
  obtain ⟨nothing, armed⟩ := tracked.idle idle
  obtain ⟨item, made, _⟩ :
    ∃ item, (manager.insertTask intervalMs loopCount timePoint).2 = some item ∧
      (manager.insertTask intervalMs loopCount timePoint).1.front = some item :=
    tracked.indexed.front_insert nothing valid
  intro sole
  have outstanding := sole.outstanding
  have waiting : 0 < manager.pending.length := List.length_pos_of_ne_nil pending
  simp only [TimerManager.insert, made, idle, if_true, TimerManager.start, cancelWaits, armed,
    List.map_nil, List.append_nil, List.nil_append, List.length_singleton] at outstanding
  omega

theorem Tracked.erase (tracked : manager.Tracked) (sole : manager.Sole) {timerId : Nat} :
    (manager.erase timerId).Tracked ∧
      (manager.erase timerId).armed.length + (manager.erase timerId).pending.length ≤ 1 := by
  have indexed : (manager.timerQueue.erase timerId).1.Indexed := tracked.indexed.erase
  have emptier (none : manager.curTask = none) :
      (manager.timerQueue.erase timerId).1.empty = true :=
    TimerQueue.empty_erase (tracked.idle none).1
  unfold TimerManager.erase
  simp only
  split
  · exact ⟨tracked.cancel indexed emptier, outstanding_cancelWaits.trans_le sole.outstanding⟩
  · rename_i other
    refine ⟨tracked.requeue indexed emptier fun task current isFront => ?_, sole.outstanding⟩
    apply tracked.indexed.front_erase isFront
    intro same
    exact other ⟨by simp [same], same.trans current.symm⟩

theorem Sole.clear (sole : manager.Sole) :
    manager.clear.Tracked ∧ manager.clear.armed.length + manager.clear.pending.length ≤ 1 := by
  refine ⟨⟨TimerQueue.clear_indexed, fun _ => ⟨rfl, rfl⟩, nofun⟩, ?_⟩
  simpa [TimerManager.clear, cancelWaits, Nat.add_comm] using sole.outstanding

theorem Tracked.clearPointTimer (tracked : manager.Tracked) (sole : manager.Sole)
    {timePoint : Int} :
    (manager.clearPointTimer timePoint).Tracked ∧
      (manager.clearPointTimer timePoint).armed.length +
        (manager.clearPointTimer timePoint).pending.length ≤ 1 := by
  have indexed : (manager.timerQueue.clearPointTimer timePoint).1.Indexed :=
    tracked.indexed.clearPointTimer
  have emptier (none : manager.curTask = none) :
      (manager.timerQueue.clearPointTimer timePoint).1.empty = true :=
    TimerQueue.empty_clearPointTimer (tracked.idle none).1
  unfold TimerManager.clearPointTimer
  simp only
  split
  · exact ⟨tracked.cancel indexed emptier, outstanding_cancelWaits.trans_le sole.outstanding⟩
  · rename_i others
    refine ⟨tracked.requeue indexed emptier fun task current isFront => ?_, sole.outstanding⟩
    apply tracked.indexed.front_clearPointTimer isFront
    intro member
    exact others ⟨task, member, current⟩

/-- The handler of the only completion arms the front of what it leaves of the queue. -/
theorem handler_tracked {error : WaitError} {wait : Wait} (before : manager.timerQueue.Indexed)
    (armed : manager.armed = []) (pending : manager.pending = []) :
    (manager.handler error wait).Tracked ∧
      (manager.handler error wait).armed.length + (manager.handler error wait).pending.length ≤ 1 := by
  have indexed : (manager.handleQueue error wait).Indexed := by
    cases error with
    | success => exact before.loopPointTimer
    | operationAborted => exact before
    | other => exact before.erase
  unfold TimerManager.handler
  simp only
  split
  · rename_i nothing
    exact ⟨⟨indexed, fun _ => ⟨nothing, armed⟩, nofun⟩, by simp [armed, pending]⟩
  · rename_i filled
    obtain ⟨front, isFront, _⟩ := indexed.front_spec (by simpa using filled)
    simp only [isFront]
    exact start_tracked { manager with curTask := none, timerQueue := manager.handleQueue error wait } indexed
      isFront armed pending

/-- Each step from a state with at most one wait outstanding leads to such a state, exactly if it is fine. -/
theorem sole_step (tracked : manager.Tracked) (sole : manager.Sole)
    (taken : manager.next action = some after) :
    (after.Sole ↔ manager.Fine action) ∧ (after.Sole → after.Tracked) := by
  have always (fine : manager.Fine action)
      (both : after.Tracked ∧ after.armed.length + after.pending.length ≤ 1) :
      (after.Sole ↔ manager.Fine action) ∧ (after.Sole → after.Tracked) :=
    ⟨iff_of_true (both.1.sole both.2) fine, fun _ => both.1⟩
  cases action with
  | insert intervalMs loopCount timePoint =>
    cases taken
    by_cases fine : manager.Fine (.insert intervalMs loopCount timePoint)
    · exact always fine (tracked.insert sole fine)
    · have fails := fine
      unfold Fine at fails
      push Not at fails
      obtain ⟨none, pending, valid⟩ := fails
      have beside : ¬ (manager.insert intervalMs loopCount timePoint).1.Sole :=
        tracked.insert_beside none pending valid
      exact ⟨iff_of_false beside fine, fun sole => absurd sole beside⟩
  | erase timerId =>
    cases taken
    exact always trivial (tracked.erase sole)
  | clear =>
    cases taken
    exact always trivial sole.clear
  | clearPointTimer timePoint =>
    cases taken
    exact always trivial (tracked.clearPointTimer sole)
  | complete error =>
    obtain ⟨⟨armed, _⟩, same⟩ := Option.ite_none_right_eq_some.mp taken
    cases same
    have outstanding := sole.outstanding
    refine always trivial
      ⟨⟨tracked.indexed, fun none => absurd (tracked.idle none).2 armed, fun nothing => ?_⟩, ?_⟩
    · have := List.append_eq_nil_iff.mp nothing
      exact absurd (List.map_eq_nil_iff.mp this.2) armed
    · simpa [Nat.add_comm] using outstanding
  | handle wait error =>
    obtain ⟨member, same⟩ := Option.ite_none_right_eq_some.mp taken
    cases same
    obtain ⟨armed, pending⟩ := sole.only member
    exact always trivial (handler_tracked tracked.indexed armed pending)

/-- The handler of the only completion leaves none on its way. -/
theorem Sole.pending_handle (sole : manager.Sole) {wait : Wait} {error : WaitError}
    (taken : manager.next (.handle wait error) = some after) : after.pending = [] := by
  obtain ⟨member, same⟩ := Option.ite_none_right_eq_some.mp taken
  cases same
  obtain ⟨armed, pending⟩ := sole.only member
  unfold handler
  simp only
  split
  · exact pending
  · split
    · exact pending
    · simp [start, cancelWaits, armed, pending]

/-- In every run, at most one wait is outstanding all along, and for the front of the queue unless its
completion is on its way, exactly if each `insert` that finds `m_cur_task` null finds no completion on
its way. Then no handler leaves a completion to another. -/
theorem sole_iff_fine {actions : List Action} {last : TimerManager}
    (path : Path (Taken next) (construct spaceMillsecond) actions last) :
    ((∀ manager, Path.Visits (Taken next) (construct spaceMillsecond) actions manager → manager.Sole) ↔
      ∀ manager action, Path.Takes (Taken next) (construct spaceMillsecond) actions manager action →
        manager.Fine action) ∧
    ∀ (manager after : TimerManager) (wait : Wait) (error : WaitError), manager.Sole →
      manager.next (.handle wait error) = some after → after.pending = [] := by
  constructor
  · refine path.visits_iff_all_takes Tracked ?_ ?_ ?_
    · intro before action after tracked sole taken
      exact sole_step tracked sole taken
    · exact ⟨by simp [construct], fun filled => nomatch filled⟩
    · exact ⟨TimerQueue.construct_indexed, fun _ => ⟨rfl, rfl⟩, nofun⟩
  · intro manager after wait error sole taken
    exact sole.pending_handle taken

/-- An earlier timer is inserted, and the wait of the later one is cancelled for it. -/
theorem sole_iff_fine_two_timers :
    ((∀ manager, Path.Visits (Taken next) (construct 0)
        [.insert 0 1 5, .insert 0 1 3, .handle ⟨0, 5⟩ .operationAborted,
          .complete .success] manager → manager.Sole) ↔
      ∀ manager action, Path.Takes (Taken next) (construct 0)
        [.insert 0 1 5, .insert 0 1 3, .handle ⟨0, 5⟩ .operationAborted,
          .complete .success] manager action →
          manager.Fine action) ∧
    ∀ (manager after : TimerManager) (wait : Wait) (error : WaitError), manager.Sole →
      manager.next (.handle wait error) = some after → after.pending = [] := by
  have runs : (exec next (construct 0)
      [.insert 0 1 5, .insert 0 1 3, .handle ⟨0, 5⟩ .operationAborted,
        .complete .success]).isSome := by
    decide
  obtain ⟨last, run⟩ := Option.isSome_iff_exists.mp runs
  exact sole_iff_fine (exec_eq_some_iff.mp run)

/-- Behind `clear`, an `insert` arms a second wait. The handler of the first cancels it and arms a
third, and so on. -/
theorem insert_behind_clear :
    ∃ cleared later : TimerManager,
      exec next (construct 0) [.insert 0 1 5, .clear, .insert 0 1 7] = some cleared ∧
      cleared.armed = [⟨1, 7⟩] ∧ cleared.pending = [(⟨0, 5⟩, .operationAborted)] ∧
      exec next cleared [.handle ⟨0, 5⟩ .operationAborted] = some later ∧
      later.armed = [⟨1, 7⟩] ∧ later.pending = [(⟨1, 7⟩, .operationAborted)] ∧
      (exec next later [.handle ⟨1, 7⟩ .operationAborted]).map (fun last => (last.armed, last.pending)) =
        some (later.armed, later.pending) := by
  have runs : ∃ cleared ∈ exec next (construct 0) [.insert 0 1 5, .clear, .insert 0 1 7],
      cleared.armed = [⟨1, 7⟩] ∧ cleared.pending = [(⟨0, 5⟩, .operationAborted)] ∧
      ∃ later ∈ exec next cleared [.handle ⟨0, 5⟩ .operationAborted],
        later.armed = [⟨1, 7⟩] ∧ later.pending = [(⟨1, 7⟩, .operationAborted)] ∧
        (exec next later [.handle ⟨1, 7⟩ .operationAborted]).map (fun last => (last.armed, last.pending)) =
          some (later.armed, later.pending) := by
    decide
  obtain ⟨cleared, run, armed, pending, later, rest, again⟩ := runs
  exact ⟨cleared, later, run, armed, pending, rest, again⟩

end TimerManager

end BTool.Timer
