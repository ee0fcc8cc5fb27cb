import BTool.BoostNet.StreamStorage
import BTool.Foundation.Transition

/-! `WriteBuffer`: messages that wait to be sent, each in a stream that is taken from a pool or made
for it, and that goes back to the pool when it has been sent. -/

namespace BTool.BoostNet

open BTool.Foundation

structure WriteBuffer where
  freePool : List MemoryStream
  sendItems : List MemoryStream
  allLen : UInt64
deriving DecidableEq

namespace WriteBuffer

def construct (defaultSize poolSize : Nat) : WriteBuffer :=
  ⟨List.replicate poolSize (.ofCapacity defaultSize), [], 0⟩

/-- The stream with the message, and the buffer without it. -/
def acquire (defaultSize : Nat) (buffer : WriteBuffer) (msg : List UInt8) :
    Option (MemoryStream × WriteBuffer) :=
  match buffer.freePool with
  | obj :: freePool => do
    let obj ← if 0 < msg.length then obj.load msg else some obj.clear
    some (obj, { buffer with freePool })
  | [] => do
    let obj ← MemoryStream.empty.loadWithin msg defaultSize
    some (obj, buffer)

/-- `append` of a stream. -/
def appendStream (buffer : WriteBuffer) (memoryStream : MemoryStream) : WriteBuffer :=
  { buffer with
    allLen := buffer.allLen + UInt64.ofNat memoryStream.bufferSize
    sendItems := buffer.sendItems ++ [memoryStream] }

/-- `append` of a message. It returns true. -/
def append (defaultSize : Nat) (buffer : WriteBuffer) (msg : List UInt8) : Option WriteBuffer := do
  let (memoryStream, buffer) ← acquire defaultSize buffer msg
  some (buffer.appendStream memoryStream)

/-- It returns true. -/
def appendTail (defaultSize : Nat) (buffer : WriteBuffer) (msg : List UInt8) (maxPackageSize : Nat) :
    Option WriteBuffer :=
  match buffer.sendItems.getLast? with
  | none => append defaultSize buffer msg
  | some item =>
    if maxPackageSize ≠ 0 ∧ maxPackageSize ≤ item.bufferSize + msg.length then append defaultSize buffer msg
    else do
      let item ← item.append msg
      some { buffer with sendItems := buffer.sendItems.dropLast ++ [item] }

/-- The first of the items. There is to be one. -/
def popFront (buffer : WriteBuffer) : Option (MemoryStream × WriteBuffer) :=
  match buffer.sendItems with
  | [] => none
  | msg :: sendItems =>
    some (msg, { buffer with sendItems, allLen := buffer.allLen - UInt64.ofNat msg.bufferSize })

def clear (buffer : WriteBuffer) : WriteBuffer :=
  { freePool := buffer.freePool ++ buffer.sendItems, sendItems := [], allLen := 0 }

def release (buffer : WriteBuffer) (obj : MemoryStream) : WriteBuffer :=
  { buffer with freePool := buffer.freePool ++ [obj] }

end WriteBuffer

namespace MemoryStream

/-- What is known of any stream of a write buffer. -/
structure Usable (stream : MemoryStream) : Prop where
  block : stream.block.length = stream.capacity
  offset : stream.offset ≤ stream.capacity
  owned : stream.autoDelete

variable {stream : MemoryStream}

theorem Usable.empty : MemoryStream.empty.Usable := ⟨rfl, Nat.le_refl _, rfl⟩

theorem Usable.ofCapacity (capacity : Nat) : (ofCapacity capacity).Usable :=
  ⟨Block.length_alloc, Nat.zero_le _, rfl⟩

theorem Usable.loadWithin (usable : stream.Usable) (msg : List UInt8) (capacity : Nat) :
    ∃ after, stream.loadWithin msg capacity = some after ∧ after.Usable ∧ after.Formed ∧
      after.bytes = some msg := by
  obtain ⟨after, loaded, formed, _, _, owned', bytes⟩ :=
    loadWithin_eq_some msg capacity usable.block (.inl usable.owned)
  exact ⟨after, loaded, ⟨formed.block, formed.within, owned'⟩, formed, bytes⟩

theorem Usable.clear (usable : stream.Usable) : stream.clear.Usable := by
  unfold MemoryStream.clear
  split
  · exact ⟨usable.block, Nat.zero_le _, usable.owned⟩
  · exact ⟨usable.block, Nat.zero_le _, usable.owned⟩

/-- A stream that is cleared is empty. Where it has no block it was before. -/
theorem Usable.bytes_clear (usable : stream.Usable) (formed : stream.Formed) :
    stream.clear.Formed ∧ stream.clear.bytes = some [] := by
  unfold MemoryStream.clear
  split
  · exact ⟨⟨formed.block, Nat.zero_le _, Nat.le_refl _⟩, bytes_eq_some.mpr ⟨rfl, rfl⟩⟩
  · rename_i noBlock
    have null : stream.buffer = none := by
      cases pointer : stream.buffer with
      | none => rfl
      | some cells => exact absurd ⟨by rw [pointer]; rfl, usable.owned⟩ noBlock
    have size : stream.bufferSize = 0 := by
      have within := formed.size
      rw [← formed.block, MemoryStream.block, null] at within
      exact Nat.le_zero.mp within
    exact ⟨⟨formed.block, formed.size, Nat.zero_le _⟩, bytes_eq_some.mpr ⟨size, rfl⟩⟩

theorem Usable.append (usable : stream.Usable) (msg : List UInt8) :
    ∃ after, stream.append msg = some after ∧ after.Usable ∧
      after.bufferSize = stream.bufferSize + msg.length := by
  obtain ⟨after, appended, size, _, block, offset, owned, _⟩ :=
    append_eq_some msg usable.block usable.offset
  exact ⟨after, appended, ⟨block, offset, owned usable.owned⟩, size⟩

end MemoryStream

namespace WriteBuffer

variable {buffer after : WriteBuffer} {msg : List UInt8} {maxPackageSize : Nat}

/-- An append takes a stream of the pool, or makes one, and puts it with the message behind the
others. -/
theorem append_eq_some (defaultSize : Nat) (msg : List UInt8)
    (usable : ∀ obj ∈ buffer.freePool, obj.Usable) :
    ∃ obj freePool, buffer.append defaultSize msg = some ({ buffer with freePool }.appendStream obj) ∧
      freePool <:+ buffer.freePool ∧ obj.Usable ∧
      ((∀ obj ∈ buffer.freePool, obj.Formed) → obj.Formed ∧ obj.bytes = some msg) := by
  obtain ⟨pool, sendItems, allLen⟩ := buffer
  cases pool with
  | nil =>
    obtain ⟨obj, loaded, usable', formed, bytes⟩ := MemoryStream.Usable.empty.loadWithin msg defaultSize
    refine ⟨obj, [], ?_, List.suffix_refl _, usable', fun _ => ⟨formed, bytes⟩⟩
    simp [append, acquire, loaded]
  | cons obj pool =>
    have usableObj := usable obj List.mem_cons_self
    by_cases some' : 0 < msg.length
    · obtain ⟨after, loaded, usable', formed, bytes⟩ :=
        usableObj.loadWithin msg 0
      rw [← MemoryStream.load_eq_loadWithin] at loaded
      refine ⟨after, pool, ?_, List.suffix_cons .., usable', fun _ => ⟨formed, bytes⟩⟩
      simp [append, acquire, some', loaded]
    · have nothing : msg = [] := List.eq_nil_of_length_eq_zero (Nat.eq_zero_of_not_pos some')
      subst nothing
      refine ⟨obj.clear, pool, rfl, List.suffix_cons .., usableObj.clear, fun allFormed => ?_⟩
      exact usableObj.bytes_clear (allFormed obj List.mem_cons_self)

/-- `append_tail` goes on with the last item. -/
def Extending (buffer : WriteBuffer) (msg : List UInt8) (maxPackageSize : Nat) : Prop :=
  ∃ item ∈ buffer.sendItems.getLast?,
    ¬ (maxPackageSize ≠ 0 ∧ maxPackageSize ≤ item.bufferSize + msg.length)

instance : Decidable (buffer.Extending msg maxPackageSize) := by
  unfold Extending
  cases buffer.sendItems.getLast? with
  | none => exact .isFalse (by simp)
  | some item =>
    exact decidable_of_iff (¬ (maxPackageSize ≠ 0 ∧ maxPackageSize ≤ item.bufferSize + msg.length)) (by simp)

theorem appendTail_of_extending (defaultSize : Nat) (extending : buffer.Extending msg maxPackageSize)
    (usable : ∀ item ∈ buffer.sendItems, item.Usable) :
    ∃ front item item', buffer.sendItems = front ++ [item] ∧ item.append msg = some item' ∧
      item'.Usable ∧ item'.bufferSize = item.bufferSize + msg.length ∧
      buffer.appendTail defaultSize msg maxPackageSize = some { buffer with sendItems := front ++ [item'] } := by
  obtain ⟨item, last, room⟩ := extending
  have split : buffer.sendItems = buffer.sendItems.dropLast ++ [item] :=
    (List.dropLast_append_getLast? item last).symm
  have member : item ∈ buffer.sendItems := List.mem_of_getLast? last
  obtain ⟨item', appended, usable', size⟩ := (usable item member).append msg
  refine ⟨buffer.sendItems.dropLast, item, item', split, appended, usable', size, ?_⟩
  rw [appendTail, last]
  simp only
  rw [if_neg room, appended]
  rfl

theorem appendTail_of_not_extending (defaultSize : Nat)
    (new : ¬ buffer.Extending msg maxPackageSize) :
    buffer.appendTail defaultSize msg maxPackageSize = buffer.append defaultSize msg := by
  cases last : buffer.sendItems.getLast? with
  | none => rw [appendTail, last]
  | some item =>
    rw [appendTail, last]
    exact if_pos (by_contra fun room => new ⟨item, last, room⟩)

theorem popFront_eq_some {item : MemoryStream} (popped : buffer.popFront = some (item, after)) :
    buffer.sendItems = item :: after.sendItems ∧
      after.allLen = buffer.allLen - UInt64.ofNat item.bufferSize ∧ after.freePool = buffer.freePool := by
  cases items : buffer.sendItems with
  | nil => simp [popFront, items] at popped
  | cons item rest =>
    simp only [popFront, items, Option.some.injEq, Prod.mk.injEq] at popped
    obtain ⟨rfl, rfl⟩ := popped
    exact ⟨rfl, rfl, rfl⟩

end WriteBuffer

/-- The operations on a write buffer. -/
inductive BufferCall where
  | append (msg : List UInt8)
  | appendTail (msg : List UInt8) (maxPackageSize : Nat)
  | popFront
  /-- One of the streams that have been popped is given back. -/
  | release (index : Nat)
  | clear
deriving DecidableEq

/-- A write buffer in use: the streams that have been popped and not given back, and, since it was
cleared, what has been popped and what has been appended. -/
structure BufferRun where
  buffer : WriteBuffer
  held : List MemoryStream
  popped : List (Option (List UInt8))
  appended : List (List UInt8)
deriving DecidableEq

namespace BufferRun

def start (defaultSize poolSize : Nat) : BufferRun := ⟨.construct defaultSize poolSize, [], [], []⟩

/-- A length is a `size_t`, and there is something to pop. -/
def next (defaultSize : Nat) (run : BufferRun) : BufferCall → Option BufferRun
  | .append msg =>
    if msg.length < 2 ^ 64 then do
      let buffer ← run.buffer.append defaultSize msg
      some { run with buffer, appended := run.appended ++ [msg] }
    else none
  | .appendTail msg maxPackageSize =>
    if msg.length < 2 ^ 64 then do
      let buffer ← run.buffer.appendTail defaultSize msg maxPackageSize
      some { run with buffer, appended := run.appended ++ [msg] }
    else none
  | .popFront => do
    let (msg, buffer) ← run.buffer.popFront
    some { run with buffer, held := run.held ++ [msg], popped := run.popped ++ [msg.bytes] }
  | .release index => do
    let obj ← run.held[index]?
    some { run with buffer := run.buffer.release obj, held := run.held.eraseIdx index }
  | .clear => some { run with buffer := run.buffer.clear, popped := [], appended := [] }

/-- Something is known of all the streams. -/
structure Streams (holds : MemoryStream → Prop) (run : BufferRun) : Prop where
  free : ∀ obj ∈ run.buffer.freePool, holds obj
  queued : ∀ item ∈ run.buffer.sendItems, holds item
  held : ∀ obj ∈ run.held, holds obj

variable {run after : BufferRun} {defaultSize : Nat} {holds : MemoryStream → Prop}

theorem streams_start (poolSize : Nat) (fresh : holds (.ofCapacity defaultSize)) :
    (start defaultSize poolSize).Streams holds where
  free obj member := by
    rw [List.eq_of_mem_replicate member]
    exact fresh
  queued item member := by simp [start, WriteBuffer.construct] at member
  held obj member := by simp [start] at member

theorem Streams.popFront (streams : run.Streams holds) {msg : MemoryStream} {buffer : WriteBuffer}
    (popped : run.buffer.popFront = some (msg, buffer)) :
    Streams holds { run with buffer, held := run.held ++ [msg], popped := run.popped ++ [msg.bytes] } := by
  obtain ⟨items, _, pool⟩ := WriteBuffer.popFront_eq_some popped
  refine ⟨fun obj member => ?_, fun other member => ?_, fun obj member => ?_⟩
  · exact streams.free obj (pool ▸ member)
  · exact streams.queued other (items ▸ List.mem_cons_of_mem _ member)
  · rcases List.mem_append.mp member with before | new
    · exact streams.held obj before
    · rw [List.mem_singleton.mp new]
      exact streams.queued msg (items ▸ List.mem_cons_self)

theorem Streams.release (streams : run.Streams holds) {index : Nat} {obj : MemoryStream}
    (here : run.held[index]? = some obj) :
    Streams holds { run with buffer := run.buffer.release obj, held := run.held.eraseIdx index } := by
  refine ⟨fun other member => ?_, streams.queued, fun other member => ?_⟩
  · rcases List.mem_append.mp member with before | new
    · exact streams.free other before
    · rw [List.mem_singleton.mp new]
      exact streams.held obj (List.mem_of_getElem? here)
  · exact streams.held other (List.mem_of_mem_eraseIdx member)

theorem Streams.clear (streams : run.Streams holds) :
    Streams holds { run with buffer := run.buffer.clear, popped := [], appended := [] } := by
  refine ⟨fun obj member => ?_, fun item member => (List.not_mem_nil member).elim, streams.held⟩
  rcases List.mem_append.mp member with free | queued
  · exact streams.free obj free
  · exact streams.queued obj queued

theorem Streams.append (streams : run.Streams holds) {msg : List UInt8} {obj : MemoryStream}
    {freePool : List MemoryStream} (pool : freePool <:+ run.buffer.freePool) (new : holds obj) :
    Streams holds { run with
      buffer := { run.buffer with freePool }.appendStream obj, appended := run.appended ++ [msg] } := by
  refine ⟨fun other member => streams.free other (pool.subset member), fun item member => ?_, streams.held⟩
  rcases List.mem_append.mp member with before | last
  · exact streams.queued item before
  · rw [List.mem_singleton.mp last]
    exact new

theorem Streams.extend (streams : run.Streams holds) {msg : List UInt8} {front : List MemoryStream}
    {item item' : MemoryStream} (items : run.buffer.sendItems = front ++ [item]) (new : holds item') :
    Streams holds { run with
      buffer := { run.buffer with sendItems := front ++ [item'] }, appended := run.appended ++ [msg] } := by
  refine ⟨streams.free, fun other member => ?_, streams.held⟩
  rcases List.mem_append.mp member with before | last
  · exact streams.queued other (items ▸ List.mem_append_left _ before)
  · rw [List.mem_singleton.mp last]
    exact new

/-- What an operation does, where all streams can be used. -/
inductive Change (run : BufferRun) : BufferCall → BufferRun → Prop where
  /-- The message is in a stream of its own. -/
  | fresh {call : BufferCall} {msg : List UInt8} {obj : MemoryStream} {freePool : List MemoryStream}
      (new : call = .append msg ∨
        ∃ maxPackageSize, call = .appendTail msg maxPackageSize ∧ ¬ run.buffer.Extending msg maxPackageSize)
      (pool : freePool <:+ run.buffer.freePool) (usable : obj.Usable)
      (filled : (∀ obj ∈ run.buffer.freePool, obj.Formed) → obj.Formed ∧ obj.bytes = some msg) :
      Change run call { run with
        buffer := { run.buffer with freePool }.appendStream obj, appended := run.appended ++ [msg] }
  /-- The message goes on with the last of the items. -/
  | extended {msg : List UInt8} {maxPackageSize : Nat} {front : List MemoryStream}
      {item item' : MemoryStream} (small : msg.length < 2 ^ 64)
      (extending : run.buffer.Extending msg maxPackageSize)
      (items : run.buffer.sendItems = front ++ [item]) (appended : item.append msg = some item')
      (usable : item'.Usable) (size : item'.bufferSize = item.bufferSize + msg.length) :
      Change run (.appendTail msg maxPackageSize) { run with
        buffer := { run.buffer with sendItems := front ++ [item'] }, appended := run.appended ++ [msg] }
  | popped {msg : MemoryStream} {buffer : WriteBuffer} (popped : run.buffer.popFront = some (msg, buffer)) :
      Change run .popFront
        { run with buffer, held := run.held ++ [msg], popped := run.popped ++ [msg.bytes] }
  | released {index : Nat} {obj : MemoryStream} (here : run.held[index]? = some obj) :
      Change run (.release index)
        { run with buffer := run.buffer.release obj, held := run.held.eraseIdx index }
  | cleared : Change run .clear { run with buffer := run.buffer.clear, popped := [], appended := [] }

/-- What is called has a message of a possible length, or something to pop or to release. -/
def Callable (run : BufferRun) : BufferCall → Prop
  | .append msg => msg.length < 2 ^ 64
  | .appendTail msg _ => msg.length < 2 ^ 64
  | .popFront => run.buffer.sendItems ≠ []
  | .release index => index < run.held.length
  | .clear => True

/-- No operation that is called comes to a copy that leaves its blocks. -/
theorem Streams.callable (defaultSize : Nat) (usable : run.Streams MemoryStream.Usable) {call : BufferCall}
    (callable : run.Callable call) :
    ∃ after, run.next defaultSize call = some after ∧ run.Change call after := by
  cases call with
  | append msg =>
    have small : msg.length < 2 ^ 64 := callable
    obtain ⟨obj, pool, appended, suffix, usable', filled⟩ :=
      WriteBuffer.append_eq_some defaultSize msg usable.free
    refine ⟨_, ?_, .fresh (.inl rfl) suffix usable' filled⟩
    rw [next, if_pos small, appended]
    rfl
  | appendTail msg maxPackageSize =>
    have small : msg.length < 2 ^ 64 := callable
    by_cases extending : run.buffer.Extending msg maxPackageSize
    · obtain ⟨front, item, item', items, appended, usable', size, tail⟩ :=
        WriteBuffer.appendTail_of_extending defaultSize extending usable.queued
      refine ⟨_, ?_, .extended small extending items appended usable' size⟩
      rw [next, if_pos small, tail]
      rfl
    · obtain ⟨obj, pool, appended, suffix, usable', filled⟩ :=
        WriteBuffer.append_eq_some defaultSize msg usable.free
      refine ⟨_, ?_, .fresh (.inr ⟨maxPackageSize, rfl, extending⟩) suffix usable' filled⟩
      rw [next, if_pos small, WriteBuffer.appendTail_of_not_extending defaultSize extending, appended]
      rfl
  | popFront =>
    cases items : run.buffer.sendItems with
    | nil => exact absurd items callable
    | cons item rest =>
      have popped : run.buffer.popFront = some (item,
          { run.buffer with
            sendItems := rest, allLen := run.buffer.allLen - UInt64.ofNat item.bufferSize }) := by
        rw [WriteBuffer.popFront, items]
      exact ⟨_, by rw [next, popped]; rfl, .popped popped⟩
  | release index =>
    have below : index < run.held.length := callable
    have here : run.held[index]? = some run.held[index] := List.getElem?_eq_getElem below
    exact ⟨_, by rw [next, here]; rfl, .released here⟩
  | clear => exact ⟨_, rfl, .cleared⟩

theorem callable_of_next {call : BufferCall} (taken : run.next defaultSize call = some after) :
    run.Callable call := by
  cases call with
  | append msg =>
    simp only [next] at taken
    split at taken
    · assumption
    · cases taken
  | appendTail msg maxPackageSize =>
    simp only [next] at taken
    split at taken
    · assumption
    · cases taken
  | popFront =>
    intro nothing
    rw [next, WriteBuffer.popFront, nothing] at taken
    cases taken
  | release index =>
    obtain ⟨obj, here, _⟩ := Option.bind_eq_some_iff.mp taken
    exact (List.getElem?_eq_some_iff.mp here).1
  | clear => trivial

theorem Streams.change (usable : run.Streams MemoryStream.Usable) {call : BufferCall}
    (taken : run.next defaultSize call = some after) : run.Change call after := by
  obtain ⟨after', taken', change⟩ := usable.callable defaultSize (callable_of_next taken)
  obtain rfl : after' = after := Option.some.inj (taken'.symm.trans taken)
  exact change

theorem Change.usable {call : BufferCall} (change : run.Change call after)
    (usable : run.Streams MemoryStream.Usable) : after.Streams MemoryStream.Usable := by
  cases change with
  | fresh _ pool usable' _ => exact usable.append pool usable'
  | extended _ _ items _ usable' _ => exact usable.extend items usable'
  | popped popped => exact usable.popFront popped
  | released here => exact usable.release here
  | cleared => exact usable.clear

end BufferRun

end BTool.BoostNet
