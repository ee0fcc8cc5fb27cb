import BTool.Foundation.Transition
import BTool.Timer.TimerQueue

/-! The two maps of a `TimerQueue` agree: a task is in the slot of its own time point, and there
only. So the front of the queue is a task with the least time point. -/

namespace BTool.Timer

open BTool.Foundation

namespace TimerTask

variable {task : TimerTask}

@[simp] theorem cancel_id : task.cancel.id = task.id := rfl

@[simp] theorem cancel_timePoint : task.cancel.timePoint = task.timePoint := rfl

@[simp] theorem loopOnceTime_id : task.loopOnceTime.id = task.id := rfl

@[simp] theorem loopOnceCount_id : task.loopOnceCount.id = task.id := by
  unfold loopOnceCount
  split
  · rfl
  · split <;> rfl

@[simp] theorem loopOnceCount_timePoint : task.loopOnceCount.timePoint = task.timePoint := by
  unfold loopOnceCount
  split
  · rfl
  · split <;> rfl

end TimerTask

namespace TimerQueue

/-- What the two maps and the task objects are to each other. -/
structure Indexed (queue : TimerQueue) : Prop where
  keyed : ∀ id address, queue.allTimerMap.find? id = some address →
    (queue.task address).id = id ∧ address < queue.allocated
  slotted : ∀ timePoint id address, queue.timerPartQueue.lookup timePoint id = some address ↔
    queue.allTimerMap.find? id = some address ∧ (queue.task address).timePoint = timePoint
  filled : queue.timerPartQueue.Filled

variable {queue after : TimerQueue} {id address : Nat} {task : TimerTask} {timePoint : Int}
    {operation : Operation}

theorem construct_indexed : construct.Indexed := ⟨nofun, by simp [construct], .empty⟩

/-- A change of an object that keeps its id and its time point. -/
theorem Indexed.change (indexed : queue.Indexed) (sameId : task.id = (queue.task address).id)
    (sameTime : task.timePoint = (queue.task address).timePoint) :
    (queue.change address task).Indexed := by
  have kept (other : Nat) : ((queue.change address task).task other).id = (queue.task other).id ∧
      ((queue.change address task).task other).timePoint = (queue.task other).timePoint := by
    by_cases same : other = address
    · subst same
      simpa [TimerQueue.change] using ⟨sameId, sameTime⟩
    · simp [TimerQueue.change, same]
  refine ⟨fun id other held => ?_, fun timePoint id other => ?_, indexed.filled⟩
  · rw [(kept other).1]
    exact indexed.keyed id other held
  · rw [(kept other).2]
    exact indexed.slotted timePoint id other

/-- A task is taken out of both maps. -/
theorem Indexed.removed (indexed : queue.Indexed)
    (held : queue.allTimerMap.find? id = some address) :
    ((queue.removeFromAllMap id).removeFromPartQueue id (queue.task address).timePoint).Indexed := by
  refine ⟨fun other address held => ?_, fun timePoint other found => ?_, indexed.filled.remove⟩
  · simp only [removeFromPartQueue, removeFromAllMap, OrderedMap.find?_erase] at held
    split at held
    · cases held
    · exact indexed.keyed other address held
  · simp only [removeFromPartQueue, removeFromAllMap, SlotMap.lookup_remove, OrderedMap.find?_erase]
    by_cases same : other = id
    · subst same
      simp only [and_true, if_true, reduceCtorEq, false_and, iff_false]
      split
      · nofun
      · rename_i apart
        intro there
        obtain ⟨again, time⟩ := (indexed.slotted timePoint other found).mp there
        obtain rfl : found = address := Option.some.inj (again.symm.trans held)
        exact apart time.symm
    · simp only [same, and_false, if_false]
      exact indexed.slotted timePoint other found

/-- A task is moved to the slot of its new time point. -/
theorem Indexed.moved (indexed : queue.Indexed) (held : queue.allTimerMap.find? id = some address)
    (sameId : task.id = id) :
    (((queue.removeFromPartQueue id (queue.task address).timePoint).change address task).putIntoPartQueue
      address).Indexed := by
  have self :
      ((queue.removeFromPartQueue id (queue.task address).timePoint).change address task).task address = task :=
    Function.update_self ..
  rw [putIntoPartQueue, self, sameId]
  refine ⟨fun other found has => ?_, fun timePoint other found => ?_, indexed.filled.remove.put⟩
  · refine ⟨?_, (indexed.keyed other found has).2⟩
    show (Function.update queue.task address task found).id = other
    by_cases same : found = address
    · subst same
      rw [Function.update_self, sameId, ← (indexed.keyed id found held).1,
        (indexed.keyed other found has).1]
    · rw [Function.update_of_ne same]
      exact (indexed.keyed other found has).1
  · show SlotMap.lookup _ _ _ = _ ↔ queue.allTimerMap.find? other = some found ∧
      (Function.update queue.task address task found).timePoint = timePoint
    rw [SlotMap.lookup_put, TimerQueue.change, removeFromPartQueue, SlotMap.lookup_remove]
    by_cases same : other = id
    · subst same
      rw [held]
      simp only [and_true]
      by_cases here : timePoint = task.timePoint
      · rw [if_pos here]
        constructor
        · rintro ⟨⟩
          exact ⟨rfl, by rw [Function.update_self, here]⟩
        · exact fun both => both.1
      · rw [if_neg here]
        refine iff_of_false ?_ ?_
        · split
          · nofun
          · rename_i apart
            intro there
            obtain ⟨again, time⟩ := (indexed.slotted timePoint other found).mp there
            obtain rfl : found = address := Option.some.inj (again.symm.trans held)
            exact apart time.symm
        · rintro ⟨⟨⟩, time⟩
          rw [Function.update_self] at time
          exact here time.symm
    · simp only [same, and_false, if_false]
      rw [indexed.slotted timePoint other found]
      apply and_congr_right
      intro has
      have apart : found ≠ address := by
        rintro rfl
        exact same ((indexed.keyed other found has).1.symm.trans (indexed.keyed id found held).1)
      rw [Function.update_of_ne apart]

theorem Indexed.insert (indexed : queue.Indexed) {intervalMs : Nat} {loopCount : Int} :
    (queue.insert intervalMs loopCount id timePoint).1.Indexed := by
  unfold TimerQueue.insert
  split
  · exact indexed
  · split
    · exact indexed
    · rename_i absent
      have fresh : queue.allTimerMap.find? id = none := by simpa using absent
      have old {other found : Nat} (has : queue.allTimerMap.find? other = some found) :
          found ≠ queue.allocated :=
        Nat.ne_of_lt (indexed.keyed other found has).2
      refine ⟨fun other found has => ?_, fun time other found => ?_, indexed.filled.put⟩
      · simp only [OrderedMap.find?_insert] at has
        split at has
        · rename_i same
          cases has
          simp [TimerQueue.change, TimerTask.construct, same]
        · obtain ⟨named, below⟩ := indexed.keyed other found has
          simp only [TimerQueue.change, Function.update_of_ne (old has)]
          exact ⟨named, by omega⟩
      · simp only [TimerQueue.change, SlotMap.lookup_put, OrderedMap.find?_insert]
        by_cases same : other = id
        · subst same
          simp only [and_true, if_true]
          have none : queue.timerPartQueue.lookup time other = none := by
            by_contra there
            obtain ⟨address, there⟩ := Option.ne_none_iff_exists'.mp there
            cases fresh.symm.trans ((indexed.slotted time other address).mp there).1
          constructor
          · intro there
            split at there
            · rename_i here
              cases there
              simp [here]
            · cases none.symm.trans there
          · rintro ⟨⟨⟩, here⟩
            rw [Function.update_self] at here
            rw [if_pos here.symm]
        · simp only [same, and_false, if_false]
          rw [indexed.slotted time other found]
          apply and_congr_right
          intro has
          rw [Function.update_of_ne (old has)]

theorem Indexed.erase (indexed : queue.Indexed) : (queue.erase id).1.Indexed := by
  unfold TimerQueue.erase
  split
  · exact indexed
  · rename_i address held
    have changed : (queue.change address (queue.task address).cancel).Indexed :=
      indexed.change rfl rfl
    exact changed.removed held

theorem clear_indexed : queue.clear.Indexed := ⟨nofun, by simp [clear], .empty⟩

/-- What the loop of `clear_point_timer` leaves of the map of all tasks. -/
theorem foldl_clearItem (entries : List (Nat × Nat)) (queue : TimerQueue) :
    (entries.foldl clearItem queue).timerPartQueue = queue.timerPartQueue ∧
      (entries.foldl clearItem queue).allocated = queue.allocated ∧
      (∀ address, ((entries.foldl clearItem queue).task address).id = (queue.task address).id ∧
        ((entries.foldl clearItem queue).task address).timePoint = (queue.task address).timePoint) ∧
      ∀ id, (entries.foldl clearItem queue).allTimerMap.find? id =
        if ∃ entry ∈ entries, (queue.task entry.2).id = id then none else queue.allTimerMap.find? id := by
  induction entries generalizing queue with
  | nil => simp
  | cons entry rest ih =>
    obtain ⟨slots, allocated, objects, held⟩ := ih (queue.clearItem entry)
    have kept (address : Nat) :
      ((queue.clearItem entry).task address).id = (queue.task address).id ∧
        ((queue.clearItem entry).task address).timePoint = (queue.task address).timePoint := by
      by_cases same : address = entry.2
      · simp [clearItem, change, removeFromAllMap, same]
      · simp [clearItem, change, removeFromAllMap, same]
    refine ⟨slots, allocated, fun address => ?_, fun id => ?_⟩
    · rw [List.foldl_cons, (objects address).1, (objects address).2, (kept address).1,
        (kept address).2]
      exact ⟨rfl, rfl⟩
    · rw [List.foldl_cons, held id]
      simp only [kept, List.mem_cons, exists_eq_or_imp]
      have erased : (queue.clearItem entry).allTimerMap.find? id =
          if id = (queue.task entry.2).id then none else queue.allTimerMap.find? id := by
        rw [clearItem, removeFromAllMap, OrderedMap.find?_erase]
        simp only [change, Function.update_self, TimerTask.cancel_id]
      rw [erased]
      by_cases later : ∃ other ∈ rest, (queue.task other.2).id = id
      · rw [if_pos later, if_pos (.inr later)]
      · rw [if_neg later]
        simp only [later, or_false, eq_comm (a := id)]

theorem Indexed.clearPointTimer (indexed : queue.Indexed) :
    (queue.clearPointTimer timePoint).1.Indexed := by
  unfold TimerQueue.clearPointTimer
  cases found : queue.timerPartQueue.find? timePoint with
  | none => exact indexed
  | some slot =>
    obtain ⟨slots, allocated, objects, held⟩ := foldl_clearItem slot.entries queue
    have slotOf {id address : Nat} (has : queue.allTimerMap.find? id = some address) :
        (∃ entry ∈ slot.entries, (queue.task entry.2).id = id) ↔
        (queue.task address).timePoint = timePoint := by
      have looked (id address : Nat) : queue.timerPartQueue.lookup timePoint id = some address ↔
          (id, address) ∈ slot.entries := by
        rw [SlotMap.lookup, found, Option.bind_some, OrderedMap.find?_eq_some_iff]
      constructor
      · rintro ⟨⟨other, item⟩, member, same⟩
        obtain ⟨there, time⟩ :=
          (indexed.slotted timePoint other item).mp ((looked other item).mpr member)
        obtain rfl : other = id := (indexed.keyed other item there).1.symm.trans same
        rwa [← Option.some.inj (there.symm.trans has)]
      · intro here
        exact ⟨(id, address), (looked id address).mp ((indexed.slotted timePoint id address).mpr ⟨has, here⟩),
          (indexed.keyed id address has).1⟩
    refine ⟨fun id address has => ?_, fun time id address => ?_, ?_⟩
    · simp only [held] at has
      split at has
      · cases has
      · simp only [(objects address).1, allocated]
        exact indexed.keyed id address has
    · simp only [slots, SlotMap.lookup_erase, held, (objects address).2]
      constructor
      · intro there
        split at there
        · cases there
        · rename_i apart
          obtain ⟨has, here⟩ := (indexed.slotted time id address).mp there
          rw [if_neg fun inside => apart (here.symm.trans ((slotOf has).mp inside))]
          exact ⟨has, here⟩
      · rintro ⟨has, here⟩
        split at has
        · cases has
        · rename_i apart
          rw [if_neg fun same => apart ((slotOf has).mpr (here.trans same))]
          exact (indexed.slotted time id address).mpr ⟨has, here⟩
    · simp only [slots]
      exact indexed.filled.erase

/-- One round of the loop of `loop_point_timer`, over a task that is in the map of all tasks. -/
theorem Indexed.loopItem (indexed : queue.Indexed)
    (held : queue.allTimerMap.find? id = some address) :
    (queue.loopItem (id, address)).Indexed ∧
      ∀ other, other ≠ id → (queue.loopItem (id, address)).allTimerMap.find? other =
        queue.allTimerMap.find? other := by
  have named : (queue.task address).id = id := (indexed.keyed id address held).1
  have given : (queue.addTask address).Indexed := ⟨indexed.keyed, indexed.slotted, indexed.filled⟩
  have counted :
      ((queue.addTask address).change address (queue.task address).loopOnceCount).Indexed :=
    given.change TimerTask.loopOnceCount_id TimerTask.loopOnceCount_timePoint
  have self :
    ((queue.addTask address).change address (queue.task address).loopOnceCount).task address =
      (queue.task address).loopOnceCount := Function.update_self ..
  have sameId :
      (queue.task address).loopOnceCount.id = id := by rw [TimerTask.loopOnceCount_id, named]
  have laterId : (queue.task address).loopOnceCount.loopOnceTime.id = id := sameId
  have moved := counted.moved held laterId
  have removed := counted.removed held
  rw [self] at moved removed
  unfold TimerQueue.loopItem
  simp only [self, sameId]
  split
  · refine ⟨removed, fun other apart => ?_⟩
    exact OrderedMap.find?_erase.trans (if_neg apart)
  · exact ⟨moved, fun other _ => rfl⟩

/-- The loop goes over a copy of the slot, whose tasks stay in the map until their turn. -/
theorem Indexed.foldl_loopItem {entries : List (Nat × Nat)} (indexed : queue.Indexed)
    (once : (entries.map Prod.fst).Nodup)
    (held : ∀ entry ∈ entries, queue.allTimerMap.find? entry.1 = some entry.2) :
    (entries.foldl TimerQueue.loopItem queue).Indexed := by
  induction entries generalizing queue with
  | nil => exact indexed
  | cons entry rest ih =>
    obtain ⟨fresh, once⟩ := List.nodup_cons.mp once
    obtain ⟨looped, kept⟩ := indexed.loopItem (held entry List.mem_cons_self)
    apply ih looped once
    intro other member
    have apart : other.1 ≠ entry.1 := by
      intro same
      exact fresh (List.mem_map.mpr ⟨other, member, same⟩)
    rw [kept other.1 apart]
    exact held other (List.mem_cons_of_mem _ member)

theorem Indexed.loopPointTimer (indexed : queue.Indexed) :
    (queue.loopPointTimer timePoint).Indexed := by
  unfold TimerQueue.loopPointTimer
  split
  · exact indexed
  · rename_i slot found
    apply indexed.foldl_loopItem slot.keys_nodup
    rintro ⟨id, address⟩ member
    apply ((indexed.slotted timePoint id address).mp _).1
    rw [SlotMap.lookup, found, Option.bind_some, OrderedMap.find?_eq_some_iff]
    exact member

theorem Indexed.next (indexed : queue.Indexed) (taken : queue.next operation = some after) :
    after.Indexed := by
  cases operation with
  | insert intervalMs loopCount id timePoint =>
    cases taken
    exact indexed.insert
  | erase timerId =>
    cases taken
    exact indexed.erase
  | clear =>
    cases taken
    exact clear_indexed
  | clearPointTimer timePoint =>
    cases taken
    exact indexed.clearPointTimer
  | loopPointTimer timePoint =>
    cases taken
    exact indexed.loopPointTimer

/-- With anything in the queue its front is a task with the least time point. -/
theorem Indexed.front_spec (indexed : queue.Indexed) (filled : queue.empty = false) :
    ∃ address, queue.front = some address ∧ queue.allTimerMap.find? (queue.task address).id = some address ∧
      ∀ id other, queue.allTimerMap.find? id = some other →
        (queue.task address).timePoint ≤ (queue.task other).timePoint := by
  have any : ∃ id address, queue.allTimerMap.find? id = some address := by
    by_contra nothing
    push Not at nothing
    have := OrderedMap.isEmpty_iff.mpr fun id => Option.eq_none_iff_forall_ne_some.mpr (nothing id)
    cases filled.symm.trans this
  obtain ⟨id, address, held⟩ := any
  have there : queue.timerPartQueue.lookup (queue.task address).timePoint id = some address :=
    (indexed.slotted _ id address).mpr ⟨held, rfl⟩
  obtain ⟨least, first, front, isFront, found, below⟩ := indexed.filled.front?_spec there
  obtain ⟨has, time⟩ := (indexed.slotted least first front).mp found
  refine ⟨front, isFront, by rwa [(indexed.keyed first front has).1], fun other item held => ?_⟩
  rw [time]
  exact below _ other item ((indexed.slotted _ other item).mpr ⟨held, rfl⟩)

/-- After any calls: a task is in the map of all tasks exactly if it is in the slot of its time point,
every task is in one slot, no slot is empty, and the front is a task with the least time point. -/
theorem maps_agree {operations : List Operation} {queue : TimerQueue}
    (path : Path (Taken next) construct operations queue) :
    (∀ id address, queue.allTimerMap.find? id = some address ↔ (queue.task address).id = id ∧
      queue.timerPartQueue.lookup (queue.task address).timePoint id = some address) ∧
    (∀ id, (queue.allTimerMap.find? id).isSome → ∃! timePoint,
      (queue.timerPartQueue.lookup timePoint id).isSome) ∧
    (∀ timePoint id, (queue.timerPartQueue.lookup timePoint id).isSome → (queue.allTimerMap.find? id).isSome) ∧
    queue.timerPartQueue.Filled ∧
    (queue.empty = false → ∃ address, queue.front = some address ∧
      queue.allTimerMap.find? (queue.task address).id = some address ∧
      ∀ id other, queue.allTimerMap.find? id = some other →
        (queue.task address).timePoint ≤ (queue.task other).timePoint) := by
  have indexed : queue.Indexed :=
    path.invariant Indexed (fun _ _ _ indexed taken => indexed.next taken)
    construct_indexed
  refine ⟨fun id address => ?_, fun id held => ?_, fun timePoint id there => ?_, indexed.filled,
    indexed.front_spec⟩
  · constructor
    · intro held
      exact ⟨(indexed.keyed id address held).1, (indexed.slotted _ id address).mpr ⟨held, rfl⟩⟩
    · rintro ⟨_, there⟩
      exact ((indexed.slotted _ id address).mp there).1
  · obtain ⟨address, held⟩ := Option.isSome_iff_exists.mp held
    refine ⟨(queue.task address).timePoint, ?_, fun timePoint there => ?_⟩
    · simp only [(indexed.slotted _ id address).mpr ⟨held, rfl⟩, Option.isSome_some]
    · obtain ⟨other, there⟩ := Option.isSome_iff_exists.mp there
      obtain ⟨again, time⟩ := (indexed.slotted timePoint id other).mp there
      rw [← time, Option.some.inj (again.symm.trans held)]
  · obtain ⟨address, there⟩ := Option.isSome_iff_exists.mp there
    rw [((indexed.slotted timePoint id address).mp there).1]
    rfl

/-- A task is executed once, another for ever, and a third is erased. -/
theorem maps_agree_three_tasks :
    ∃ queue, exec next construct
        [.insert 10 1 1 5, .insert 10 0 2 5, .insert 0 1 3 7, .loopPointTimer 5, .erase 3] = some queue ∧
      ∃ address, queue.front = some address ∧
        queue.allTimerMap.find? (queue.task address).id = some address ∧
        (queue.task address).id = 2 ∧ (queue.task address).timePoint = 10000005 := by
  have runs : ∃ queue ∈ exec next construct
      [.insert 10 1 1 5, .insert 10 0 2 5, .insert 0 1 3 7, .loopPointTimer 5, .erase 3],
      queue.empty = false ∧ queue.front = some 1 ∧ (queue.task 1).id = 2 ∧
      (queue.task 1).timePoint = 10000005 := by
    decide
  obtain ⟨queue, run, filled, isFront, named, time⟩ := runs
  obtain ⟨address, front, held, _⟩ := (maps_agree (exec_eq_some_iff.mp run)).2.2.2.2 filled
  obtain rfl := Option.some.inj (front.symm.trans isFront)
  exact ⟨queue, run, 1, front, held, named, time⟩

end TimerQueue

end BTool.Timer
