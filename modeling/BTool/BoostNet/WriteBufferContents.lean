import BTool.BoostNet.WriteBuffer

/-! What a write buffer hands on. A message that goes on with an item is laid over the front of it,
unless the item was appended without any bytes. -/

namespace BTool.BoostNet

open BTool.Foundation BTool.Foundation.Path

namespace BufferRun

/-- The bytes of the popped items and of those in the queue are the messages that were appended. -/
def Conserved (run : BufferRun) : Prop :=
  ∃ sent queued : List (List UInt8), run.popped = sent.map some ∧
    run.buffer.sendItems.map MemoryStream.bytes = queued.map some ∧
    sent.flatten ++ queued.flatten = run.appended.flatten

/-- A message that goes on with an item finds its offset at its end. -/
def Smooth (run : BufferRun) : BufferCall → Prop
  | .appendTail msg maxPackageSize =>
    msg = [] ∨ ¬ run.buffer.Extending msg maxPackageSize ∨
      ∃ item ∈ run.buffer.sendItems.getLast?, item.offset = item.bufferSize
  | _ => True

instance (run : BufferRun) (call : BufferCall) : Decidable (run.Smooth call) := by
  cases call with
  | appendTail msg maxPackageSize =>
    unfold Smooth
    cases run.buffer.sendItems.getLast? <;> infer_instance
  | _ => exact .isTrue trivial

variable {run before after : BufferRun} {defaultSize poolSize : Nat}

/-- What is known of the streams where nothing has been laid over anything. -/
structure Sound (stream : MemoryStream) : Prop where
  usable : stream.Usable
  formed : stream.Formed

theorem Streams.mono {holds weaker : MemoryStream → Prop} (streams : run.Streams holds)
    (weaken : ∀ stream, holds stream → weaker stream) : run.Streams weaker where
  free obj member := weaken obj (streams.free obj member)
  queued item member := weaken item (streams.queued item member)
  held obj member := weaken obj (streams.held obj member)

/-- A message that goes on smoothly comes behind the bytes of its item. -/
private theorem append_sound {item after : MemoryStream} {msg old : List UInt8} (sound : Sound item)
    (smooth : msg = [] ∨ item.offset = item.bufferSize) (has : item.bytes = some old)
    (appended : item.append msg = some after) (usable : after.Usable) :
    Sound after ∧ after.bytes = some (old ++ msg) := by
  rcases smooth with rfl | atEnd
  · cases appended
    exact ⟨sound, by rw [List.append_nil]; exact has⟩
  · obtain ⟨after', appended', extended⟩ := MemoryStream.append_extends msg ⟨sound.formed, atEnd⟩
    obtain rfl : after' = after := Option.some.inj (appended'.symm.trans appended)
    exact ⟨⟨usable, extended.atEnd.formed⟩, extended.bytes_eq_some has⟩

/-- A smooth step conserves the messages. -/
private theorem conserved_step {call : BufferCall} (sound : before.Streams Sound)
    (conserved : before.Conserved) (smooth : before.Smooth call) (change : before.Change call after) :
    after.Streams Sound ∧ after.Conserved := by
  obtain ⟨sent, queued, popped, items, whole⟩ := conserved
  cases change with
  | @fresh _ msg obj freePool new pool usable filled =>
    obtain ⟨formed, bytes⟩ := filled fun obj member => (sound.free obj member).formed
    refine ⟨sound.append pool ⟨usable, formed⟩, sent, queued ++ [msg], popped, ?_, ?_⟩
    · simp only [WriteBuffer.appendStream, List.map_append, items, List.map_cons, List.map_nil, bytes]
    · simp only [List.flatten_append, List.flatten_singleton, ← whole, List.append_assoc]
  | @extended msg maxPackageSize front item item' small extending split appended usable size =>
    have last : before.buffer.sendItems.getLast? = some item := by
      rw [split]
      exact List.getLast?_concat
    have atEnd : msg = [] ∨ item.offset = item.bufferSize := by
      rcases smooth with nothing | new | ⟨other, isLast, atEnd⟩
      · exact .inl nothing
      · exact absurd extending new
      · obtain rfl := Option.some.inj (last.symm.trans isLast)
        exact .inr atEnd
    rw [split, List.map_append] at items
    obtain ⟨heads, tail, rfl, front', last'⟩ := List.map_eq_append_iff.mp items.symm
    obtain ⟨old, rfl, has⟩ := List.map_eq_singleton_iff.mp last'
    obtain ⟨sound', bytes⟩ :=
      append_sound (sound.queued item (split ▸ List.mem_concat_self)) atEnd has.symm appended usable
    refine ⟨sound.extend split sound', sent, heads ++ [old ++ msg], popped, ?_, ?_⟩
    · simp only [List.map_append, List.map_cons, List.map_nil, front', bytes]
    · simp only [List.flatten_append, List.flatten_singleton, ← whole, List.append_assoc]
  | @popped msg buffer isPopped =>
    obtain ⟨split, _, _⟩ := WriteBuffer.popFront_eq_some isPopped
    rw [split, List.map_cons] at items
    obtain ⟨first, rest, rfl, has, behind⟩ := List.map_eq_cons_iff.mp items.symm
    refine ⟨sound.popFront isPopped, sent ++ [first], rest, ?_, behind.symm, ?_⟩
    · simp only [List.map_append, List.map_cons, List.map_nil, popped, has]
    · rw [← whole]
      simp
  | released here => exact ⟨sound.release here, sent, queued, popped, items, whole⟩
  | cleared => exact ⟨sound.clear, [], [], rfl, rfl, rfl⟩

/-- In every run in which messages go on with items smoothly, what has been popped and what is in the
queue is what has been appended, in order. -/
theorem conserved_of_smooth {calls : List BufferCall} {last : BufferRun}
    (path : Path (Guarded (Taken (next defaultSize)) Smooth) (start defaultSize poolSize) calls last) :
    last.Conserved := by
  have fresh : Sound (.ofCapacity defaultSize) :=
    ⟨.ofCapacity defaultSize, (MemoryStream.atEnd_ofCapacity defaultSize).formed⟩
  have both := path.invariant (fun run => run.Streams Sound ∧ run.Conserved) ?_
    ⟨streams_start poolSize fresh, [], [], rfl, rfl, rfl⟩
  · exact both.2
  · rintro before call after ⟨sound, conserved⟩ ⟨smooth, taken⟩
    have change := (sound.mono fun stream sound => sound.usable).change taken
    exact conserved_step sound conserved smooth change

/-- The stream of the first message comes back for one that is appended in three parts, of which the
first is empty. -/
theorem conserved_of_smooth_three_parts :
    ∃ last, Path (Guarded (Taken (next 4)) Smooth) (start 4 1)
        [.append [1, 2], .popFront, .release 0, .append [], .appendTail [3] 0, .appendTail [4, 5] 9,
          .popFront] last ∧
      last.popped = [some [1, 2], some [3, 4, 5]] ∧ last.Conserved := by
  have runs : ∃ last ∈ exec (checked (next 4) Smooth) (start 4 1)
      [.append [1, 2], .popFront, .release 0, .append [], .appendTail [3] 0, .appendTail [4, 5] 9,
        .popFront], last.popped = [some [1, 2], some [3, 4, 5]] := by
    decide
  obtain ⟨last, run, popped⟩ := runs
  exact ⟨last, of_checked run, popped, conserved_of_smooth (of_checked run)⟩

/-- A byte that goes on with two is laid over the first of them, and the item ends with what its
stream held before. -/
theorem not_conserved_append_tail :
    ∃ last, exec (next 4) (start 4 1)
        [.append [7, 7, 7, 7], .popFront, .release 0, .append [1, 2], .appendTail [9] 0, .popFront] =
          some last ∧
      last.appended.flatten = [7, 7, 7, 7, 1, 2, 9] ∧
      last.popped = [some [7, 7, 7, 7], some [9, 2, 7]] ∧ ¬ last.Conserved := by
  refine ⟨_, rfl, rfl, rfl, ?_⟩
  rintro ⟨sent, queued, popped, items, whole⟩
  have isSent : sent = [[7, 7, 7, 7], [9, 2, 7]] :=
    List.map_injective_iff.mpr (fun _ _ same => Option.some.inj same) popped.symm
  have isQueued : queued = [] := List.map_eq_nil_iff.mp items.symm
  subst isSent isQueued
  exact absurd whole (by decide)

end BufferRun

end BTool.BoostNet
