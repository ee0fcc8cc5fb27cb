import BTool.Timer.TimerIndex

/-! The calls of one timer that the task pool is given over a run: the time points of a periodic timer,
one for each firing of its slot. -/

namespace BTool.Timer

open BTool.Foundation

/-- A timer that has been inserted, with the address of its task object. -/
structure InsertedTimer where
  address : Nat
  id : Nat
  intervalMs : Nat
  loopCount : Int
  start : Int

namespace InsertedTimer

/-- The time points of the first calls. -/
def timePoints (timer : InsertedTimer) (count : Nat) : List Int :=
  (List.range count).map fun (index : Nat) => timer.start + index * (1000000 * timer.intervalMs)

/-- There is a call after so many calls. A timer with a negative loop count is executed once. -/
def Lasts (timer : InsertedTimer) (count : Nat) : Prop :=
  timer.loopCount = 0 ∨ (count : Int) < max timer.loopCount 1

theorem Lasts.of_le {timer : InsertedTimer} {less more : Nat} (lasts : timer.Lasts more) (le : less ≤ more) :
    timer.Lasts less := by
  unfold Lasts at *
  omega

theorem timePoints_succ (timer : InsertedTimer) (count : Nat) : timer.timePoints (count + 1) =
    timer.timePoints count ++ [timer.start + count * (1000000 * timer.intervalMs)] := by
  rw [timePoints, List.range_succ, List.map_append]
  rfl

end InsertedTimer

namespace TimerTask

variable {task : TimerTask}

/-- A task that is executed for ever is not counted. -/
theorem loopOnceCount_forever (forever : task.loopCount = 0) : task.loopOnceCount = task := by
  simp [loopOnceCount, needNext, forever]

theorem loopOnceCount_counted (more : task.loopIndex < task.loopCount) (counted : task.loopCount ≠ 0) :
    task.loopOnceCount = { task with loopIndex := task.loopIndex + 1 } := by
  simp [loopOnceCount, needNext, more, counted]

theorem loopOnceCount_negative (less : task.loopCount < 0) (fresh : task.loopIndex = 0) :
    task.loopOnceCount = task := by
  have apart : task.loopCount ≠ 0 := by omega
  have past : ¬ 0 < task.loopCount := by omega
  simp [loopOnceCount, needNext, fresh, apart, past]

end TimerTask

namespace TimerQueue

/-- The time points of the calls of one task object. -/
def calls (queue : TimerQueue) (address : Nat) : List Int :=
  (queue.taskPool.filter fun call => call.1 = address).map Prod.snd

/-- The operation fires a slot that has the timer. -/
def Fires (timer : InsertedTimer) (queue : TimerQueue) : Operation → Prop
  | .loopPointTimer timePoint => queue.timerPartQueue.lookup timePoint timer.id = some timer.address
  | _ => False

instance (timer : InsertedTimer) (queue : TimerQueue) (operation : Operation) :
    Decidable (Fires timer queue operation) := by
  cases operation <;> unfold Fires <;> infer_instance

/-- The operation takes the timer out by its id, or clears a slot that has it. -/
def Drops (timer : InsertedTimer) (queue : TimerQueue) : Operation → Prop
  | .erase timerId => timerId = timer.id ∧ queue.allTimerMap.find? timer.id = some timer.address
  | .clearPointTimer timePoint => queue.timerPartQueue.lookup timePoint timer.id = some timer.address
  | _ => False

/-- How often the operations of a run fire a slot that has the timer. -/
def firings (timer : InsertedTimer) : TimerQueue → List Operation → Nat
  | _, [] => 0
  | queue, operation :: operations =>
    (if Fires timer queue operation then 1 else 0) +
      match queue.next operation with
      | none => 0
      | some after => firings timer after operations

/-- What the queue has of a timer after so many firings. -/
structure Tracks (timer : InsertedTimer) (queue : TimerQueue) (count : Nat) : Prop where
  calls : queue.calls timer.address = timer.timePoints count
  allocated : timer.address < queue.allocated
  named : (queue.task timer.address).id = timer.id
  bound : timer.loopCount ≠ 0 → (count : Int) ≤ max timer.loopCount 1
  scheduled : queue.allTimerMap.find? timer.id = some timer.address →
    (queue.task timer.address).loopCount = timer.loopCount ∧
    (queue.task timer.address).interval = timer.intervalMs ∧
    (queue.task timer.address).timePoint = timer.start + count * (1000000 * timer.intervalMs) ∧
    (timer.loopCount ≠ 0 → (queue.task timer.address).loopIndex = count) ∧ timer.Lasts count

/-- Nothing that concerns a timer changes. -/
structure Apart (timer : InsertedTimer) (before after : TimerQueue) : Prop where
  task : after.task timer.address = before.task timer.address
  held : after.allTimerMap.find? timer.id = some timer.address ↔
    before.allTimerMap.find? timer.id = some timer.address
  calls : after.calls timer.address = before.calls timer.address
  allocated : before.allocated ≤ after.allocated

variable {timer : InsertedTimer} {queue before middle after : TimerQueue} {count : Nat}
  {operation : Operation}

theorem Apart.refl : Apart timer queue queue := ⟨rfl, .rfl, rfl, Nat.le_refl _⟩

theorem Apart.trans (first : Apart timer before middle) (second : Apart timer middle after) :
    Apart timer before after :=
  ⟨second.task.trans first.task, second.held.trans first.held, second.calls.trans first.calls,
    Nat.le_trans first.allocated second.allocated⟩

theorem Apart.tracks (apart : Apart timer before after) (tracks : Tracks timer before count) :
    Tracks timer after count := by
  refine ⟨apart.calls.trans tracks.calls, Nat.lt_of_lt_of_le tracks.allocated apart.allocated, ?_,
    tracks.bound, ?_⟩
  · rw [apart.task, tracks.named]
  · rw [apart.held, apart.task]
    exact tracks.scheduled

theorem calls_snoc {address other : Nat} {timePoint : Int} :
    ({ queue with taskPool := queue.taskPool ++ [(other, timePoint)] } : TimerQueue).calls address =
      queue.calls address ++ if other = address then [timePoint] else [] := by
  unfold calls
  rw [List.filter_append, List.map_append]
  split
  · rename_i same
    simp [same]
  · rename_i apart
    simp [apart]

/-- What a round of the loop does: a call, the counting, and the move to the next time point or the end. -/
theorem loopItem_fields (queue : TimerQueue) (entry : Nat × Nat) :
    let counted := (queue.task entry.2).loopOnceCount
    let after := queue.loopItem entry
    after.taskPool = queue.taskPool ++ [(entry.2, (queue.task entry.2).timePoint)] ∧
      after.allocated = queue.allocated ∧
      after.task = Function.update queue.task entry.2
        (if counted.needNext then counted.loopOnceTime else counted) ∧
      after.allTimerMap =
        if counted.needNext then queue.allTimerMap else queue.allTimerMap.erase counted.id := by
  have self : ((queue.addTask entry.2).change entry.2 (queue.task entry.2).loopOnceCount).task entry.2 =
      (queue.task entry.2).loopOnceCount := Function.update_self ..
  unfold loopItem
  simp only [self]
  cases next : (queue.task entry.2).loopOnceCount.needNext with
  | true =>
    refine ⟨rfl, rfl, ?_, rfl⟩
    exact Function.update_idem ..
  | false => exact ⟨rfl, rfl, rfl, rfl⟩

theorem loopItem_ids (queue : TimerQueue) (entry : Nat × Nat) (address : Nat) :
    ((queue.loopItem entry).task address).id = (queue.task address).id := by
  obtain ⟨_, _, tasks, _⟩ := queue.loopItem_fields entry
  rw [tasks]
  by_cases same : address = entry.2
  · rw [same, Function.update_self]
    split
    · rw [TimerTask.loopOnceTime_id, TimerTask.loopOnceCount_id]
    · rw [TimerTask.loopOnceCount_id]
  · rw [Function.update_of_ne same]

theorem calls_loopItem (queue : TimerQueue) (entry : Nat × Nat) (address : Nat) :
    (queue.loopItem entry).calls address =
      queue.calls address ++ if entry.2 = address then [(queue.task entry.2).timePoint] else [] := by
  rw [← calls_snoc]
  unfold calls
  rw [(queue.loopItem_fields entry).1]

/-- A round of the loop over another task leaves the timer alone, even if the task has the id of a timer
that is gone. -/
theorem apart_loopItem {entry : Nat × Nat} (other : entry.2 ≠ timer.address)
    (otherId : (queue.task entry.2).id = timer.id →
      queue.allTimerMap.find? timer.id ≠ some timer.address) :
    Apart timer queue (queue.loopItem entry) := by
  obtain ⟨_, allocated, tasks, all⟩ := queue.loopItem_fields entry
  refine ⟨?_, ?_, ?_, Nat.le_of_eq allocated.symm⟩
  · rw [tasks, Function.update_of_ne other.symm]
  · rw [all]
    split
    · rfl
    · rw [OrderedMap.find?_erase, TimerTask.loopOnceCount_id]
      split
      · rename_i same
        exact iff_of_false nofun (otherId same.symm)
      · rfl
  · rw [calls_loopItem, if_neg other, List.append_nil]

theorem foldl_loopItem_ids (entries : List (Nat × Nat)) (queue : TimerQueue) (address : Nat) :
    ((entries.foldl loopItem queue).task address).id = (queue.task address).id := by
  induction entries generalizing queue with
  | nil => rfl
  | cons entry rest ih => rw [List.foldl_cons, ih, loopItem_ids]

theorem foldl_loopItem_allocated (entries : List (Nat × Nat)) (queue : TimerQueue) :
    (entries.foldl loopItem queue).allocated = queue.allocated := by
  induction entries generalizing queue with
  | nil => rfl
  | cons entry rest ih => rw [List.foldl_cons, ih, (queue.loopItem_fields entry).2.1]

theorem apart_foldl_loopItem {entries : List (Nat × Nat)}
    (others : ∀ entry ∈ entries, entry.2 ≠ timer.address ∧ ((queue.task entry.2).id = timer.id →
      queue.allTimerMap.find? timer.id ≠ some timer.address)) :
    Apart timer queue (entries.foldl loopItem queue) := by
  induction entries generalizing queue with
  | nil => exact .refl
  | cons entry rest ih =>
    obtain ⟨other, otherId⟩ := others entry List.mem_cons_self
    have first := apart_loopItem other otherId
    refine first.trans (ih fun later member => ?_)
    obtain ⟨apart, sameId⟩ := others later (List.mem_cons_of_mem _ member)
    refine ⟨apart, fun same holds => ?_⟩
    rw [loopItem_ids] at same
    exact sameId same (first.held.mp holds)

/-- The counting of a task that has had its calls so far: whether it is executed again. -/
theorem counting_of_lasts {task : TimerTask} (isCount : task.loopCount = timer.loopCount)
    (isIndex : timer.loopCount ≠ 0 → task.loopIndex = count) (lasts : timer.Lasts count) :
    task.loopOnceCount.loopCount = timer.loopCount ∧ task.loopOnceCount.interval = task.interval ∧
      (task.loopOnceCount.needNext = true ↔ timer.Lasts (count + 1)) ∧
      (timer.Lasts (count + 1) → timer.loopCount ≠ 0 → task.loopOnceCount.loopIndex = (count + 1 : Nat)) := by
  unfold InsertedTimer.Lasts at *
  obtain forever | counted := eq_or_ne timer.loopCount 0
  · rw [TimerTask.loopOnceCount_forever (isCount.trans forever)]
    refine ⟨isCount, rfl, ?_, fun _ counted => absurd forever counted⟩
    simp [TimerTask.needNext, isCount, forever]
  have index := isIndex counted
  by_cases less : timer.loopCount < 0
  · rw [TimerTask.loopOnceCount_negative (by omega) (by omega)]
    refine ⟨isCount, rfl, ?_, by omega⟩
    simp only [TimerTask.needNext, isCount, index, beq_eq_false_iff_ne.mpr counted, Bool.false_or,
      decide_eq_true_eq]
    omega
  · rw [TimerTask.loopOnceCount_counted (by omega) (by omega)]
    refine ⟨isCount, rfl, ?_, fun _ _ => ?_⟩
    · simp only [TimerTask.needNext, isCount, index, beq_eq_false_iff_ne.mpr counted, Bool.false_or,
        decide_eq_true_eq]
      omega
    · dsimp only
      omega

/-- A round of the loop over the timer is one more call of it; it stays in the queue, at its next time
point, exactly if there is one. -/
theorem tracks_loopItem (tracks : Tracks timer queue count)
    (held : queue.allTimerMap.find? timer.id = some timer.address) :
    Tracks timer (queue.loopItem (timer.id, timer.address)) (count + 1) ∧
      ((queue.loopItem (timer.id, timer.address)).allTimerMap.find? timer.id = some timer.address ↔
        timer.Lasts (count + 1)) := by
  obtain ⟨isCount, isInterval, isPoint, isIndex, lasts⟩ := tracks.scheduled held
  obtain ⟨sameCount, sameInterval, again, nextIndex⟩ := counting_of_lasts isCount isIndex lasts
  obtain ⟨_, allocated, tasks, all⟩ := queue.loopItem_fields (timer.id, timer.address)
  have isCalls : (queue.loopItem (timer.id, timer.address)).calls timer.address =
      timer.timePoints (count + 1) := by
    rw [calls_loopItem, if_pos rfl, tracks.calls, timer.timePoints_succ, isPoint]
  have isTask : (queue.loopItem (timer.id, timer.address)).task timer.address =
      if (queue.task timer.address).loopOnceCount.needNext then
        (queue.task timer.address).loopOnceCount.loopOnceTime
      else (queue.task timer.address).loopOnceCount := by
    rw [tasks, Function.update_self]
  have isHeld : (queue.loopItem (timer.id, timer.address)).allTimerMap.find? timer.id = some timer.address ↔
      timer.Lasts (count + 1) := by
    rw [all, ← again]
    split
    · rename_i next
      exact iff_of_true held next
    · rename_i ends
      rw [OrderedMap.find?_erase, TimerTask.loopOnceCount_id, tracks.named, if_pos rfl]
      exact iff_of_false nofun ends
  refine ⟨⟨isCalls, by rw [allocated]; exact tracks.allocated, ?_, ?_, fun stays => ?_⟩, isHeld⟩
  · rw [loopItem_ids, tracks.named]
  · intro counted
    obtain forever | less := lasts
    · exact absurd forever counted
    · omega
  · have more := isHeld.mp stays
    rw [isTask, if_pos (again.mpr more)]
    refine ⟨sameCount, sameInterval.trans isInterval, ?_, nextIndex more, more⟩
    change (queue.task timer.address).loopOnceCount.timePoint +
      1000000 * ((queue.task timer.address).loopOnceCount.interval : Int) = _
    rw [TimerTask.loopOnceCount_timePoint, sameInterval, isInterval, isPoint, Int.natCast_add, Int.add_mul,
      Int.natCast_one, Int.one_mul, Int.add_assoc]

/-- The timer is fired once with its slot, and left alone with any other. -/
theorem tracks_loopPointTimer (timePoint : Int) (indexed : queue.Indexed)
    (tracks : Tracks timer queue count) :
    if queue.timerPartQueue.lookup timePoint timer.id = some timer.address then
      Tracks timer (queue.loopPointTimer timePoint) (count + 1) ∧
        ((queue.loopPointTimer timePoint).allTimerMap.find? timer.id = some timer.address ↔
          timer.Lasts (count + 1))
    else Apart timer queue (queue.loopPointTimer timePoint) := by
  unfold loopPointTimer
  cases found : queue.timerPartQueue.find? timePoint with
  | none =>
    have nothing : queue.timerPartQueue.lookup timePoint timer.id = none := by
      rw [SlotMap.lookup, found]
      rfl
    rw [nothing, if_neg (by simp)]
    exact .refl
  | some slot =>
    have looked (id address : Nat) : queue.timerPartQueue.lookup timePoint id = some address ↔
        (id, address) ∈ slot.entries := by
      rw [SlotMap.lookup, found, Option.bind_some, OrderedMap.find?_eq_some_iff]
    have named (entry : Nat × Nat) (member : entry ∈ slot.entries) : (queue.task entry.2).id = entry.1 :=
      (indexed.keyed entry.1 entry.2
        ((indexed.slotted timePoint entry.1 entry.2).mp ((looked entry.1 entry.2).mpr member)).1).1
    split
    · rename_i fires
      have held := ((indexed.slotted timePoint timer.id timer.address).mp fires).1
      obtain ⟨front, back, split⟩ := List.append_of_mem ((looked timer.id timer.address).mp fires)
      have once : (front ++ (timer.id, timer.address) :: back).map Prod.fst |>.Nodup := by
        rw [← split]
        exact slot.keys_nodup
      -- The others of the slot have other ids, and so other addresses.
      have others (entry : Nat × Nat) (member : entry ∈ front ++ back) :
          entry.2 ≠ timer.address ∧ (queue.task entry.2).id ≠ timer.id := by
        have inside : entry ∈ slot.entries := by
          rw [split]
          simp only [List.mem_append, List.mem_cons] at member ⊢
          tauto
        have apart : entry.1 ≠ timer.id := by
          intro same
          rw [List.map_append, List.map_cons, List.nodup_middle, ← List.map_append] at once
          exact (List.nodup_cons.mp once).1 (List.mem_map.mpr ⟨entry, member, same⟩)
        refine ⟨fun same => ?_, fun same => ?_⟩
        · have isId := named entry inside
          rw [same, tracks.named] at isId
          exact apart isId.symm
        · exact apart ((named entry inside).symm.trans same)
      dsimp only
      rw [split, List.foldl_append, List.foldl_cons]
      have ahead : Apart timer queue (front.foldl loopItem queue) :=
        apart_foldl_loopItem fun entry member =>
          ⟨(others entry (List.mem_append_left _ member)).1,
            fun same => absurd same (others entry (List.mem_append_left _ member)).2⟩
      obtain ⟨fired, stays⟩ := tracks_loopItem (ahead.tracks tracks) (ahead.held.mpr held)
      have behind : Apart timer ((front.foldl loopItem queue).loopItem (timer.id, timer.address))
          (back.foldl loopItem ((front.foldl loopItem queue).loopItem (timer.id, timer.address))) := by
        refine apart_foldl_loopItem fun entry member => ?_
        obtain ⟨apart, otherId⟩ := others entry (List.mem_append_right _ member)
        rw [loopItem_ids, foldl_loopItem_ids]
        exact ⟨apart, fun same => absurd same otherId⟩
      exact ⟨behind.tracks fired, behind.held.trans stays⟩
    · rename_i quiet
      refine apart_foldl_loopItem fun entry member => ⟨fun same => ?_, fun same holds => ?_⟩
      · have isId := named entry member
        rw [same, tracks.named] at isId
        refine quiet ((looked timer.id timer.address).mpr ?_)
        rw [isId, ← same]
        exact member
      · have there := (looked entry.1 entry.2).mpr member
        have isId : entry.1 = timer.id := (named entry member).symm.trans same
        have has := ((indexed.slotted timePoint entry.1 entry.2).mp there).1
        rw [isId] at has there
        exact quiet (there.trans (has.symm.trans holds))

/-- A timer that is taken out keeps the calls it has had. -/
theorem Tracks.dropped (tracks : Tracks timer before count)
    (calls : after.calls timer.address = before.calls timer.address)
    (allocated : after.allocated = before.allocated)
    (named : (after.task timer.address).id = (before.task timer.address).id)
    (gone : after.allTimerMap.find? timer.id ≠ some timer.address) : Tracks timer after count := by
  refine ⟨calls.trans tracks.calls, ?_, named.trans tracks.named, tracks.bound, fun held => absurd held gone⟩
  rw [allocated]
  exact tracks.allocated

theorem apart_insert {intervalMs id : Nat} {loopCount timePoint : Int} (tracks : Tracks timer queue count) :
    Apart timer queue (queue.insert intervalMs loopCount id timePoint).1 := by
  unfold insert
  split
  · exact .refl
  · split
    · exact .refl
    · rename_i absent
      have fresh : queue.allTimerMap.find? id = none := by simpa using absent
      have older : timer.address ≠ queue.allocated := Nat.ne_of_lt tracks.allocated
      refine ⟨Function.update_of_ne older .., ?_, rfl, Nat.le_succ _⟩
      simp only [OrderedMap.find?_insert]
      split
      · rename_i same
        rw [same, fresh]
        simp [older.symm]
      · rfl

/-- A timer is erased by its id, and left alone otherwise. -/
theorem tracks_erase (timerId : Nat) (indexed : queue.Indexed) (tracks : Tracks timer queue count) :
    Tracks timer (queue.erase timerId).1 count ∧
      ((queue.erase timerId).1.allTimerMap.find? timer.id = some timer.address ↔
        queue.allTimerMap.find? timer.id = some timer.address ∧ ¬ Drops timer queue (.erase timerId)) := by
  unfold erase
  cases found : queue.allTimerMap.find? timerId with
  | none =>
    refine ⟨tracks, (and_iff_left ?_).symm⟩
    rintro ⟨rfl, held⟩
    cases found.symm.trans held
  | some address =>
    by_cases same : timerId = timer.id
    · have gone : (((queue.change address (queue.task address).cancel).removeFromAllMap
          timerId).removeFromPartQueue timerId
          ((queue.change address (queue.task address).cancel).task address).timePoint).allTimerMap.find? timer.id =
          none :=
        OrderedMap.find?_erase.trans (if_pos same.symm)
      refine ⟨tracks.dropped rfl rfl ?_ (by rw [gone]; nofun), ?_⟩
      · change (Function.update queue.task address _ timer.address).id = _
        by_cases here : timer.address = address
        · rw [here, Function.update_self, TimerTask.cancel_id]
        · rw [Function.update_of_ne here]
      · rw [gone]
        exact iff_of_false nofun fun kept => kept.2 ⟨same, kept.1⟩
    · have other : timer.address ≠ address := by
        intro here
        have isId := (indexed.keyed timerId address found).1
        rw [← here, tracks.named] at isId
        exact same isId.symm
      have apart : Apart timer queue (((queue.change address (queue.task address).cancel).removeFromAllMap
          timerId).removeFromPartQueue timerId
          ((queue.change address (queue.task address).cancel).task address).timePoint) := by
        refine ⟨Function.update_of_ne other .., ?_, rfl, Nat.le_refl _⟩
        simp only [removeFromPartQueue, removeFromAllMap, change, OrderedMap.find?_erase,
          if_neg (Ne.symm same)]
      exact ⟨apart.tracks tracks, apart.held.trans (and_iff_left fun drops => same drops.1).symm⟩

theorem foldl_clearItem_calls (entries : List (Nat × Nat)) (queue : TimerQueue) (address : Nat) :
    (entries.foldl clearItem queue).calls address = queue.calls address := by
  induction entries generalizing queue with
  | nil => rfl
  | cons entry rest ih => exact ih (queue.clearItem entry)

theorem foldl_clearItem_task {entries : List (Nat × Nat)} {address : Nat}
    (others : ∀ entry ∈ entries, entry.2 ≠ address) :
    (entries.foldl clearItem queue).task address = queue.task address := by
  induction entries generalizing queue with
  | nil => rfl
  | cons entry rest ih =>
    rw [List.foldl_cons, ih fun later member => others later (List.mem_cons_of_mem _ member)]
    exact Function.update_of_ne (others entry List.mem_cons_self).symm ..

/-- A timer is taken out with its slot, and left alone with any other. -/
theorem tracks_clearPointTimer (timePoint : Int) (indexed : queue.Indexed)
    (tracks : Tracks timer queue count) :
    Tracks timer (queue.clearPointTimer timePoint).1 count ∧
      ((queue.clearPointTimer timePoint).1.allTimerMap.find? timer.id = some timer.address ↔
        queue.allTimerMap.find? timer.id = some timer.address ∧
          ¬ Drops timer queue (.clearPointTimer timePoint)) := by
  unfold clearPointTimer Drops
  cases found : queue.timerPartQueue.find? timePoint with
  | none =>
    have nothing : queue.timerPartQueue.lookup timePoint timer.id = none := by
      rw [SlotMap.lookup, found]
      rfl
    dsimp only
    rw [nothing]
    exact ⟨tracks, (and_iff_left (by simp)).symm⟩
  | some slot =>
    obtain ⟨_, allocated, objects, held⟩ := foldl_clearItem slot.entries queue
    have looked (id address : Nat) : queue.timerPartQueue.lookup timePoint id = some address ↔
        (id, address) ∈ slot.entries := by
      rw [SlotMap.lookup, found, Option.bind_some, OrderedMap.find?_eq_some_iff]
    have kept (entry : Nat × Nat) (member : entry ∈ slot.entries) :
        queue.allTimerMap.find? entry.1 = some entry.2 ∧ (queue.task entry.2).id = entry.1 := by
      have holds :=
        ((indexed.slotted timePoint entry.1 entry.2).mp ((looked entry.1 entry.2).mpr member)).1
      exact ⟨holds, (indexed.keyed entry.1 entry.2 holds).1⟩
    dsimp only
    rw [held timer.id]
    by_cases inside : queue.timerPartQueue.lookup timePoint timer.id = some timer.address
    · have member := (looked timer.id timer.address).mp inside
      have cleared : ∃ entry ∈ slot.entries, (queue.task entry.2).id = timer.id :=
        ⟨_, member, tracks.named⟩
      refine ⟨tracks.dropped (foldl_clearItem_calls ..) allocated (objects timer.address).1 ?_, ?_⟩
      · dsimp only
        rw [held timer.id, if_pos cleared]
        simp
      · rw [if_pos cleared]
        exact iff_of_false (by simp) fun both => both.2 inside
    · rw [and_iff_left inside]
      have others (entry : Nat × Nat) (member : entry ∈ slot.entries) : entry.2 ≠ timer.address := by
        intro same
        have isId := (kept entry member).2
        rw [same, tracks.named] at isId
        refine inside ((looked timer.id timer.address).mpr ?_)
        rw [isId, ← same]
        exact member
      have stays : (if ∃ entry ∈ slot.entries, (queue.task entry.2).id = timer.id then none
          else queue.allTimerMap.find? timer.id) = some timer.address ↔
          queue.allTimerMap.find? timer.id = some timer.address := by
        split
        · rename_i cleared
          obtain ⟨entry, member, isId⟩ := cleared
          obtain ⟨has, named⟩ := kept entry member
          rw [← named.symm.trans isId, has]
          exact iff_of_false (by simp) fun same => others entry member (Option.some.inj same)
        · rfl
      have apart : Apart timer queue { slot.entries.foldl clearItem queue with
          timerPartQueue := (slot.entries.foldl clearItem queue).timerPartQueue.erase timePoint } := by
        refine ⟨foldl_clearItem_task others, ?_, foldl_clearItem_calls .., Nat.le_of_eq allocated.symm⟩
        rw [held timer.id]
        exact stays
      exact ⟨apart.tracks tracks, stays⟩

/-- A step of the queue, other than its `clear`: what it is to the timer. -/
theorem tracks_next (tracks : Tracks timer before count) (indexed : before.Indexed)
    (kept : operation ≠ .clear) (taken : before.next operation = some after) :
    Tracks timer after (count + if Fires timer before operation then 1 else 0) ∧
      (after.allTimerMap.find? timer.id = some timer.address ↔
        before.allTimerMap.find? timer.id = some timer.address ∧ ¬ Drops timer before operation ∧
          (Fires timer before operation → timer.Lasts (count + 1))) := by
  cases operation with
  | insert intervalMs loopCount id timePoint =>
    cases taken
    have apart : Apart timer before (before.insert intervalMs loopCount id timePoint).1 := apart_insert tracks
    refine ⟨?_, ?_⟩
    · rw [if_neg (by exact not_false)]
      exact apart.tracks tracks
    · simp only [Drops, Fires, not_false_eq_true, false_implies, and_true]
      exact apart.held
  | erase timerId =>
    cases taken
    obtain ⟨later, held⟩ := tracks_erase timerId indexed tracks
    refine ⟨?_, ?_⟩
    · rw [if_neg (by exact not_false)]
      exact later
    · simp only [Fires, false_implies, and_true]
      exact held
  | clear => exact absurd rfl kept
  | clearPointTimer timePoint =>
    cases taken
    obtain ⟨later, held⟩ := tracks_clearPointTimer timePoint indexed tracks
    refine ⟨?_, ?_⟩
    · rw [if_neg (by exact not_false)]
      exact later
    · simp only [Fires, false_implies, and_true]
      exact held
  | loopPointTimer timePoint =>
    cases taken
    have moved := tracks_loopPointTimer timePoint indexed tracks
    have noDrops : ¬ Drops timer before (.loopPointTimer timePoint) := id
    by_cases fires : Fires timer before (.loopPointTimer timePoint)
    · have held := ((indexed.slotted timePoint timer.id timer.address).mp fires).1
      rw [if_pos (show before.timerPartQueue.lookup timePoint timer.id = some timer.address from fires)] at moved
      rw [if_pos fires]
      simp only [held, fires, noDrops, not_false_eq_true, true_and, forall_const]
      exact moved
    · rw [if_neg (show ¬ before.timerPartQueue.lookup timePoint timer.id = some timer.address from fires)] at moved
      rw [if_neg fires]
      simp only [fires, noDrops, not_false_eq_true, false_implies, and_true]
      exact ⟨moved.tracks tracks, moved.held⟩

/-- A timer that is in the queue, after operations other than `clear`: it has been called once for each firing,
and is in the queue as long as it lasts and is not taken out. -/
theorem tracks_run (tracks : Tracks timer queue count) (indexed : queue.Indexed)
    {operations : List Operation} {last : TimerQueue} (kept : .clear ∉ operations)
    (path : Path (Taken next) queue operations last) :
    Tracks timer last (count + firings timer queue operations) ∧
      (last.allTimerMap.find? timer.id = some timer.address ↔
        queue.allTimerMap.find? timer.id = some timer.address ∧
          ¬ Path.Meets (Taken next) (Drops timer) queue operations ∧
          timer.Lasts (count + firings timer queue operations)) := by
  induction path generalizing count with
  | nil state =>
    refine ⟨tracks, (and_iff_left_of_imp fun held => ?_).symm⟩
    exact ⟨Path.not_meets_nil, (tracks.scheduled held).2.2.2.2⟩
  | @cons before after _ operation operations head rest ih =>
    obtain ⟨notClear, keptRest⟩ : .clear ≠ operation ∧ .clear ∉ operations := by simpa using kept
    obtain ⟨stepped, stays⟩ := tracks_next tracks indexed (Ne.symm notClear) head
    obtain ⟨later, held⟩ := ih stepped (indexed.next head) keptRest
    have split : firings timer before (operation :: operations) =
        (if Fires timer before operation then 1 else 0) + firings timer after operations := by
      rw [firings, show before.next operation = some after from head]
    rw [split, Path.meets_cons head, ← Nat.add_assoc, held, stays, not_or]
    refine ⟨later, ?_, ?_⟩
    · rintro ⟨⟨holds, drops, _⟩, never, lasts⟩
      exact ⟨holds, ⟨drops, never⟩, lasts⟩
    · rintro ⟨holds, ⟨drops, never⟩, lasts⟩
      refine ⟨⟨holds, drops, fun fires => ?_⟩, never, lasts⟩
      rw [if_pos fires] at lasts
      exact lasts.of_le (Nat.le_add_right ..)

/-- A timer that is no longer in the queue is not fired. -/
theorem firings_of_gone (tracks : Tracks timer queue count) (indexed : queue.Indexed)
    (gone : queue.allTimerMap.find? timer.id ≠ some timer.address) {operations : List Operation}
    {last : TimerQueue} (kept : .clear ∉ operations) (path : Path (Taken next) queue operations last) :
    firings timer queue operations = 0 := by
  induction path with
  | nil state => rfl
  | @cons before after _ operation operations head rest ih =>
    obtain ⟨notClear, keptRest⟩ : .clear ≠ operation ∧ .clear ∉ operations := by simpa using kept
    have quiet : ¬ Fires timer before operation := by
      cases operation with
      | loopPointTimer timePoint =>
        exact fun fires => gone ((indexed.slotted timePoint timer.id timer.address).mp fires).1
      | _ => exact id
    obtain ⟨stepped, stays⟩ := tracks_next tracks indexed (Ne.symm notClear) head
    rw [if_neg quiet, Nat.add_zero] at stepped
    have still := ih stepped (indexed.next head) (fun held => gone (stays.mp held).1) keptRest
    rw [firings, if_neg quiet, show before.next operation = some after from head, Nat.zero_add]
    exact still

/-- Only task objects are called. -/
theorem calls_unallocated (path : Path (Taken next) construct operations queue) :
    queue.Indexed ∧ ∀ address, queue.allocated ≤ address → queue.calls address = [] := by
  refine path.invariant (fun queue => queue.Indexed ∧ ∀ address, queue.allocated ≤ address →
    queue.calls address = []) ?_ ⟨construct_indexed, fun _ _ => rfl⟩
  rintro before operation after ⟨indexed, fresh⟩ taken
  refine ⟨indexed.next taken, ?_⟩
  cases operation with
  | insert intervalMs loopCount id timePoint =>
    cases taken
    unfold insert
    split
    · exact fresh
    · split
      · exact fresh
      · exact fun address unused => fresh address (Nat.le_of_succ_le unused)
  | erase timerId =>
    cases taken
    unfold erase
    split
    · exact fresh
    · exact fresh
  | clear =>
    cases taken
    exact fun _ _ => rfl
  | clearPointTimer timePoint =>
    cases taken
    unfold clearPointTimer
    split
    · exact fresh
    · rename_i slot _
      obtain ⟨_, allocated, _⟩ := foldl_clearItem slot.entries before
      intro address unused
      exact (foldl_clearItem_calls slot.entries before address).trans (fresh address (allocated ▸ unused))
  | loopPointTimer timePoint =>
    cases taken
    intro address unused
    unfold loopPointTimer at unused ⊢
    cases found : before.timerPartQueue.find? timePoint with
    | none =>
      simp only [found] at unused ⊢
      exact fresh address unused
    | some slot =>
      simp only [found] at unused ⊢
      have used (entry : Nat × Nat) (member : entry ∈ slot.entries) : entry.2 < before.allocated := by
        refine (indexed.keyed entry.1 entry.2 ((indexed.slotted timePoint entry.1 entry.2).mp ?_).1).2
        rw [SlotMap.lookup, found, Option.bind_some, OrderedMap.find?_eq_some_iff]
        exact member
      rw [foldl_loopItem_allocated] at unused
      have apart : Apart ⟨address, 0, 0, 0, 0⟩ before (slot.entries.foldl loopItem before) := by
        refine apart_foldl_loopItem fun entry member => ⟨Nat.ne_of_lt ?_, fun _ holds => ?_⟩
        · exact Nat.lt_of_lt_of_le (used entry member) unused
        · exact Nat.not_le_of_lt (indexed.keyed 0 address holds).2 unused
      exact apart.calls.trans (fresh address unused)

/-- A timer that has just been inserted has had no calls. -/
theorem tracks_insert {intervalMs id address : Nat} {loopCount timePoint : Int}
    (fresh : ∀ address, queue.allocated ≤ address → queue.calls address = [])
    (inserted : (queue.insert intervalMs loopCount id timePoint).2 = some address) :
    Tracks ⟨address, id, intervalMs, loopCount, timePoint⟩
        (queue.insert intervalMs loopCount id timePoint).1 0 ∧
      (queue.insert intervalMs loopCount id timePoint).1.allTimerMap.find? id = some address := by
  unfold insert at inserted ⊢
  split at inserted
  · cases inserted
  · split at inserted
    · cases inserted
    · rename_i valid absent
      obtain rfl := Option.some.inj inserted
      rw [if_neg valid, if_neg absent]
      have self : Function.update queue.task queue.allocated
          (TimerTask.construct intervalMs loopCount id timePoint) queue.allocated =
          TimerTask.construct intervalMs loopCount id timePoint := Function.update_self ..
      refine ⟨⟨fresh _ (Nat.le_refl _), Nat.lt_succ_self _, ?_, ?_, fun _ => ?_⟩, ?_⟩
      · exact congrArg TimerTask.id self
      · intro _
        dsimp only
        omega
      · simp only [change, self]
        refine ⟨rfl, rfl, ?_, fun _ => rfl, ?_⟩
        · simp [TimerTask.construct]
        · exact .inr (lt_sup_of_lt_right Int.zero_lt_one)
      · rw [OrderedMap.find?_insert, if_pos rfl]

/-- The calls of a timer that has been inserted: one for each firing of its slot, each an interval after the one
before it, and no more of them than its loop count. It is in the slot of its next time point until it is taken
out, or has had its calls; from then on it is in neither map and is not called again. -/
theorem calls_of_inserted {earlier operations : List Operation} {queue last : TimerQueue}
    {intervalMs id address : Nat} {loopCount timePoint : Int}
    (path : Path (Taken next) construct earlier queue)
    (inserted : (queue.insert intervalMs loopCount id timePoint).2 = some address)
    (kept : .clear ∉ operations)
    (run : Path (Taken next) (queue.insert intervalMs loopCount id timePoint).1 operations last) :
    let timer : InsertedTimer := ⟨address, id, intervalMs, loopCount, timePoint⟩
    let first := (queue.insert intervalMs loopCount id timePoint).1
    let count := firings timer first operations
    last.calls address = timer.timePoints count ∧
    (1 ≤ loopCount → count ≤ loopCount) ∧
    (¬ Path.Meets (Taken next) (Drops timer) first operations ∧ timer.Lasts count →
      last.allTimerMap.find? id = some address ∧ ∀ other, last.timerPartQueue.lookup other id = some address ↔
        other = timePoint + count * (1000000 * intervalMs)) ∧
    (Path.Meets (Taken next) (Drops timer) first operations ∨ ¬ timer.Lasts count →
      (∀ other, last.allTimerMap.find? other ≠ some address) ∧
      (∀ slot other, last.timerPartQueue.lookup slot other ≠ some address) ∧
      ∀ later final, .clear ∉ later → Path (Taken next) last later final →
        final.calls address = last.calls address) := by
  intro timer first count
  obtain ⟨indexed, fresh⟩ := calls_unallocated path
  have indexedFirst : first.Indexed := indexed.insert
  have indexedLast : last.Indexed :=
    run.invariant Indexed (fun _ _ _ indexed taken => indexed.next taken) indexedFirst
  obtain ⟨tracks, held⟩ : Tracks timer first 0 ∧ first.allTimerMap.find? id = some address :=
    tracks_insert fresh inserted
  obtain ⟨tracksLast, heldLast⟩ := tracks_run tracks indexedFirst kept run
  rw [Nat.zero_add] at tracksLast heldLast
  have isHeld : last.allTimerMap.find? id = some address ↔
      ¬ Path.Meets (Taken next) (Drops timer) first operations ∧ timer.Lasts count :=
    heldLast.trans (and_iff_right held)
  refine ⟨tracksLast.calls, fun positive => ?_, fun stays => ?_, fun ended => ?_⟩
  · have bound := tracksLast.bound (show loopCount ≠ 0 by omega)
    change (count : Int) ≤ max loopCount 1 at bound
    omega
  · have holds := isHeld.mpr stays
    refine ⟨holds, fun other => (indexedLast.slotted other id address).trans ?_⟩
    rw [(tracksLast.scheduled holds).2.2.1, and_iff_right holds]
    exact eq_comm
  · have gone : last.allTimerMap.find? id ≠ some address := by
      rw [Ne, isHeld]
      tauto
    have nowhere (other : Nat) : last.allTimerMap.find? other ≠ some address := by
      intro there
      have isId := (indexedLast.keyed other address there).1
      rw [show (last.task address).id = id from tracksLast.named] at isId
      exact gone (isId ▸ there)
    refine ⟨nowhere, fun slot other there => ?_, fun later final keptLater more => ?_⟩
    · exact nowhere other ((indexedLast.slotted slot other address).mp there).1
    · have still := (tracks_run tracksLast indexedLast keptLater more).1.calls
      rw [firings_of_gone tracksLast indexedLast gone keptLater more] at still
      exact still.trans tracksLast.calls.symm

/-- A timer of two calls, beside one that is erased between them. -/
theorem calls_of_inserted_twice : ∃ queue last,
    exec next construct [.insert 10 0 2 5] = some queue ∧
    exec next (queue.insert 10 2 1 5).1 [.loopPointTimer 5, .erase 2, .loopPointTimer 10000005] = some last ∧
    last.calls 1 = [5, 10000005] ∧ (∀ other, last.allTimerMap.find? other ≠ some 1) ∧
    (∀ slot other, last.timerPartQueue.lookup slot other ≠ some 1) := by
  have first : ∃ queue ∈ exec next construct [.insert 10 0 2 5], (queue.insert 10 2 1 5).2 = some 1 ∧
      ∃ last ∈ exec next (queue.insert 10 2 1 5).1
        [.loopPointTimer 5, .erase 2, .loopPointTimer 10000005],
        firings ⟨1, 1, 10, 2, 5⟩ (queue.insert 10 2 1 5).1
          [.loopPointTimer 5, .erase 2, .loopPointTimer 10000005] = 2 := by
    decide
  obtain ⟨queue, reached, inserted, last, run, twice⟩ := first
  obtain ⟨calls, _, _, gone⟩ :=
    calls_of_inserted (exec_eq_some_iff.mp reached) inserted (by decide) (exec_eq_some_iff.mp run)
  rw [twice] at calls gone
  obtain ⟨nowhere, slots, _⟩ := gone (.inr (by unfold InsertedTimer.Lasts; decide))
  exact ⟨queue, last, reached, run, calls, nowhere, slots⟩

end TimerQueue

end BTool.Timer
