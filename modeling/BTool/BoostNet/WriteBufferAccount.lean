import BTool.BoostNet.WriteBuffer

/-! The size of a write buffer against the sizes of its items. What an item grows by is not counted,
but is subtracted with the rest of the item when it is popped. -/

namespace BTool.BoostNet

open BTool.Foundation BTool.Foundation.Path

/-- The sizes of the items together. -/
def totalSize (items : List MemoryStream) : Nat := (items.map MemoryStream.bufferSize).sum

theorem totalSize_append (front back : List MemoryStream) :
    totalSize (front ++ back) = totalSize front + totalSize back := by
  simp [totalSize]

theorem totalSize_cons (item : MemoryStream) (items : List MemoryStream) :
    totalSize (item :: items) = item.bufferSize + totalSize items := rfl

theorem totalSize_singleton (item : MemoryStream) : totalSize [item] = item.bufferSize := by
  simp [totalSize]

namespace BufferRun

/-- The size is that of the items, in the 64 bits of a `size_t`. -/
def Accounted (run : BufferRun) : Prop :=
  run.buffer.allLen = UInt64.ofNat (totalSize run.buffer.sendItems)

/-- Nothing is added to an item that is in the queue. -/
def Counted (run : BufferRun) : BufferCall → Prop
  | .appendTail msg maxPackageSize => msg = [] ∨ ¬ run.buffer.Extending msg maxPackageSize
  | _ => True

instance (run : BufferRun) : Decidable run.Accounted := by
  unfold Accounted
  infer_instance

variable {run before after : BufferRun} {defaultSize poolSize : Nat}

private theorem ofNat_add_eq_iff {count more : Nat} (small : more < 2 ^ 64) :
    UInt64.ofNat count = UInt64.ofNat (count + more) ↔ more = 0 := by
  rw [← UInt64.toNat_inj, UInt64.toNat_ofNat', UInt64.toNat_ofNat']
  omega

/-- A step keeps the size exact if and only if it is counted. -/
private theorem exact_step {call : BufferCall} (accounted : before.Accounted)
    (change : before.Change call after) : after.Accounted ↔ before.Counted call := by
  rw [Accounted] at accounted
  cases change with
  | @fresh _ msg obj freePool new _ _ _ =>
    refine iff_of_true ?_ ?_
    · simp only [Accounted, WriteBuffer.appendStream]
      rw [totalSize_append, totalSize_singleton, UInt64.ofNat_add, accounted]
    · rcases new with rfl | ⟨maxPackageSize, rfl, new⟩
      · trivial
      · exact .inr new
  | @extended msg _ front item item' small extending items _ _ size =>
    rw [items, totalSize_append, totalSize_singleton] at accounted
    simp only [Accounted, Counted, extending, not_true_eq_false, or_false]
    rw [accounted, totalSize_append, totalSize_singleton, size, ← Nat.add_assoc, ofNat_add_eq_iff small]
    exact List.length_eq_zero_iff
  | @popped msg buffer popped =>
    refine iff_of_true ?_ trivial
    obtain ⟨items, size, _⟩ := WriteBuffer.popFront_eq_some popped
    rw [items, totalSize_cons, UInt64.ofNat_add] at accounted
    rw [Accounted, size, accounted, UInt64.add_comm, UInt64.add_sub_cancel]
  | released _ => exact iff_of_true accounted trivial
  | cleared => exact iff_of_true rfl trivial

/-- In every run the size of the buffer is that of its items all along if and only if no bytes are
added to an item that is in the queue. -/
theorem accounted_iff_counted {calls : List BufferCall} {last : BufferRun}
    (path : Path (Taken (next defaultSize)) (start defaultSize poolSize) calls last) :
    (∀ run, Visits (Taken (next defaultSize)) (start defaultSize poolSize) calls run → run.Accounted) ↔
      ∀ run call, Takes (Taken (next defaultSize)) (start defaultSize poolSize) calls run call →
        run.Counted call := by
  refine path.visits_iff_all_takes (Streams MemoryStream.Usable) ?_ rfl
    (streams_start poolSize (.ofCapacity defaultSize))
  intro before call after usable accounted taken
  have change := usable.change taken
  exact ⟨exact_step accounted change, fun _ => change.usable usable⟩

/-- A message is popped between two others, which are in streams of their own. -/
theorem accounted_iff_counted_three_messages :
    let calls : List BufferCall :=
      [.append [1, 2], .appendTail [3] 3, .popFront, .append [4], .release 0, .popFront]
    (∀ run, Visits (Taken (next 8)) (start 8 2) calls run → run.Accounted) ↔
      ∀ run call, Takes (Taken (next 8)) (start 8 2) calls run call → run.Counted call := by
  intro calls
  have runs : (exec (next 8) (start 8 2) calls).isSome := by decide
  obtain ⟨last, run⟩ := Option.isSome_iff_exists.mp runs
  exact accounted_iff_counted (exec_eq_some_iff.mp run)

/-- The two bytes that an item has grown by are not counted when they come, but when they go. -/
theorem not_accounted_grown_item :
    ∃ grown popped, exec (next 4) (start 4 1) [.append [1], .appendTail [2, 3] 0] = some grown ∧
      grown.buffer.allLen = 1 ∧ totalSize grown.buffer.sendItems = 3 ∧ ¬ grown.Accounted ∧
      grown.next 4 .popFront = some popped ∧ popped.buffer.sendItems = [] ∧
      popped.buffer.allLen = 0 - 2 ∧ ¬ popped.Accounted :=
  ⟨_, _, rfl, rfl, rfl, by decide, rfl, rfl, rfl, by decide⟩

end BufferRun

end BTool.BoostNet
