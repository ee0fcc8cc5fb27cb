import Mathlib.Algebra.GroupWithZero.Nat
import BTool.Foundation.Block

/-! `MemoryStream`: a size, an offset and a capacity over a block of memory that the stream owns or
has been attached to. A result is missing where a copy would leave one of its blocks. -/

namespace BTool.BoostNet

open BTool.Foundation

structure MemoryStream where
  bufferSize : Nat
  offset : Nat
  capacity : Nat
  /-- Nothing for a null pointer. -/
  buffer : Option (Block UInt8)
  autoDelete : Bool
deriving DecidableEq

namespace MemoryStream

/-- The cells that the pointer leads to. -/
def block (stream : MemoryStream) : Block UInt8 := stream.buffer.getD []

def empty : MemoryStream := ⟨0, 0, 0, none, true⟩

def ofCapacity (capacity : Nat) : MemoryStream := ⟨0, 0, capacity, some (Block.alloc capacity), true⟩

/-- The memory of somebody else, as a constructor takes it without a copy. -/
def view (buffer : Block UInt8) : MemoryStream := ⟨buffer.length, 0, buffer.length, some buffer, false⟩

def ofBuffer (buffer : Block UInt8) (autoDelete : Bool) : Option MemoryStream :=
  if autoDelete then do
    let block ← (Block.alloc buffer.length).store 0 buffer
    some { view buffer with buffer := some block, autoDelete := true }
  else some (view buffer)

/-- The copy constructor. -/
def copyOf (rhs : MemoryStream) : Option MemoryStream :=
  if rhs.autoDelete then do
    let cells ← rhs.block.fetch 0 rhs.bufferSize
    let block ← (Block.alloc rhs.capacity).store 0 cells
    some { rhs with buffer := some block }
  else some rhs

def destroy (_ : MemoryStream) : MemoryStream := empty

/-- The assignment of another stream. -/
def assign (stream rhs : MemoryStream) : Option MemoryStream :=
  let freed := if stream.autoDelete then stream.destroy else stream
  let shared := { freed with
    bufferSize := rhs.bufferSize
    offset := rhs.offset
    capacity := rhs.capacity
    buffer := rhs.buffer
    autoDelete := rhs.autoDelete }
  if rhs.autoDelete then do
    let cells ← rhs.block.fetch 0 rhs.bufferSize
    let block ← (Block.alloc rhs.capacity).store 0 cells
    some { shared with buffer := some block }
  else some shared

def getResLength (stream : MemoryStream) : Nat := stream.bufferSize - stream.offset

def resetOffset (stream : MemoryStream) (offset : Nat) : MemoryStream := { stream with offset }

/-- `reset_offset` without an argument. -/
def resetOffsetEnd (stream : MemoryStream) : MemoryStream :=
  { stream with offset := stream.bufferSize }

def resetCapacity (stream : MemoryStream) (len : Nat) : Option MemoryStream :=
  if stream.autoDelete then
    if stream.capacity < len then
      match stream.buffer with
      | some block => some { stream with buffer := some (block.resize len), capacity := len }
      | none => some { stream with buffer := some (Block.alloc len), capacity := len }
    else some stream
  else do
    let cells ← stream.block.fetch 0 stream.capacity
    let block ← (Block.alloc len).store 0 cells
    some { stream with buffer := some block, autoDelete := true, capacity := len }

def attach (stream : MemoryStream) (src : Block UInt8) : MemoryStream :=
  { stream with
    bufferSize := src.length
    buffer := some src
    capacity := src.length
    offset := 0
    autoDelete := false }

def clone (stream : MemoryStream) : Option MemoryStream :=
  if stream.autoDelete then some stream
  else do
    let cells ← stream.block.fetch 0 stream.capacity
    let block ← (Block.alloc stream.capacity).store 0 cells
    some { stream with buffer := some block, autoDelete := true }

/-- Only the indexes are reset. -/
def clear (stream : MemoryStream) : MemoryStream :=
  if stream.buffer.isSome ∧ stream.autoDelete then { stream with bufferSize := 0, offset := 0 }
  else { stream with offset := 0 }

/-- A `memcpy` into the block of the stream. -/
def memcpy (stream : MemoryStream) (start : Nat) (bytes : List UInt8) : Option MemoryStream := do
  let block ← stream.block.store start (bytes.map some)
  some { stream with buffer := stream.buffer.map fun _ => block }

def load (stream : MemoryStream) (bytes : List UInt8) : Option MemoryStream := do
  let stream ← stream.resetCapacity bytes.length
  let stream ← stream.memcpy 0 bytes
  some { stream with bufferSize := bytes.length, offset := 0 }

/-- `load` with a capacity. -/
def loadWithin (stream : MemoryStream) (bytes : List UInt8) (capacity : Nat) : Option MemoryStream := do
  let stream ← stream.resetCapacity (max capacity bytes.length)
  let stream ← stream.memcpy 0 bytes
  some { stream with bufferSize := bytes.length, offset := 0 }

/-- The rounds of the loop that doubles the capacity until it is enough. -/
def reserveLoop : Nat → MemoryStream → Nat → Option MemoryStream
  | 0, stream, _ => some stream
  | rounds + 1, stream, newCapacity =>
    if stream.capacity < newCapacity then do
      let stream ← stream.resetCapacity (if stream.capacity = 0 then newCapacity else stream.capacity * 2)
      reserveLoop rounds stream newCapacity
    else some stream

/-- Every round adds to the capacity. -/
def reserve (stream : MemoryStream) (newCapacity : Nat) : Option MemoryStream :=
  reserveLoop newCapacity stream newCapacity

/-- `append` to a given place. -/
def appendAt (stream : MemoryStream) (bytes : List UInt8) (offset : Nat) : Option MemoryStream :=
  if bytes = [] then some stream
  else do
    let stream ← stream.reserve (offset + bytes.length)
    let stream ← stream.memcpy offset bytes
    some { stream with bufferSize := max stream.bufferSize (offset + bytes.length) }

/-- `append` to the place of the offset. -/
def append (stream : MemoryStream) (bytes : List UInt8) : Option MemoryStream :=
  if bytes = [] then some stream
  else do
    let stream ← stream.reserve (stream.offset + bytes.length)
    let stream ← stream.memcpy stream.offset bytes
    some { stream with
      offset := stream.offset + bytes.length
      bufferSize := stream.bufferSize + bytes.length }

/-- The cells at the offset, and the stream behind them where the offset is to move. -/
def read (stream : MemoryStream) (len : Nat) (offsetFlag : Bool) : Option (Block UInt8 × MemoryStream) :=
  if len = 0 then some ([], stream)
  else do
    let cells ← stream.block.fetch stream.offset len
    some (cells, if offsetFlag then { stream with offset := stream.offset + len } else stream)

/-- The bytes of the stream, where they lie in its block and have all been written. -/
def bytes (stream : MemoryStream) : Option (List UInt8) := do
  let cells ← stream.block.fetch 0 stream.bufferSize
  cells.values

/-- The block is as long as the capacity says, and the sizes are within it. -/
structure Formed (stream : MemoryStream) : Prop where
  block : stream.block.length = stream.capacity
  size : stream.bufferSize ≤ stream.capacity
  offset : stream.offset ≤ stream.bufferSize

theorem Formed.within {stream : MemoryStream} (formed : stream.Formed) : stream.offset ≤ stream.capacity :=
  Nat.le_trans formed.offset formed.size

/-- A stream with no less room, and with the same in the room that it had. -/
structure Grown (before after : MemoryStream) : Prop where
  size : after.bufferSize = before.bufferSize
  offset : after.offset = before.offset
  capacity : before.capacity ≤ after.capacity
  block : after.block.length = after.capacity
  kept : after.block.take before.capacity = before.block
  owned : before.autoDelete → after.autoDelete

variable {stream before middle after : MemoryStream} {bytes : List UInt8} {len start : Nat}

theorem Grown.refl (block : stream.block.length = stream.capacity) : Grown stream stream :=
  ⟨rfl, rfl, Nat.le_refl _, block, by rw [← block, List.take_length], id⟩

theorem Grown.trans (first : Grown before middle) (second : Grown middle after) :
    Grown before after := by
  refine ⟨second.size.trans first.size, second.offset.trans first.offset,
    Nat.le_trans first.capacity second.capacity, second.block, ?_, second.owned ∘ first.owned⟩
  rw [← first.kept, ← second.kept, List.take_take, Nat.min_eq_left first.capacity]

theorem Grown.formed (grown : Grown before after) (formed : before.Formed) : after.Formed where
  block := grown.block
  size := by rw [grown.size]; exact Nat.le_trans formed.size grown.capacity
  offset := by rw [grown.size, grown.offset]; exact formed.offset

theorem Grown.take (grown : Grown before after) (within : start ≤ before.capacity) :
    after.block.take start = before.block.take start := by
  rw [← grown.kept, List.take_take, Nat.min_eq_left within]

/-- A stream that owns its block gets a larger one. -/
private theorem resetCapacity_of_owned (owned : stream.autoDelete) (more : stream.capacity < len) :
    stream.resetCapacity len =
      some { stream with buffer := some (stream.block.resize len), capacity := len } := by
  rw [resetCapacity, if_pos owned, if_pos more]
  cases pointer : stream.buffer with
  | some cells => simp [MemoryStream.block, pointer]
  | none => simp [MemoryStream.block, pointer, Block.resize]

/-- A stream that was attached gets a block of its own, which begins like the old one. -/
private theorem resetCapacity_of_attached (attached : stream.autoDelete = false)
    (block : stream.block.length = stream.capacity) (room : stream.capacity ≤ len) :
    ∃ cells, stream.resetCapacity len =
        some { stream with buffer := some cells, autoDelete := true, capacity := len } ∧
      cells.length = len ∧ cells.take stream.capacity = stream.block := by
  have whole : stream.block.fetch 0 stream.capacity = some stream.block := by
    rw [Block.fetch_front (Nat.le_of_eq block.symm), ← block, List.take_length]
  obtain ⟨cells, stored, length, front⟩ := Block.store_alloc (block ▸ room)
  refine ⟨cells, ?_, length, block ▸ front⟩
  rw [resetCapacity, if_neg (by simp [attached]), whole]
  simp only [Option.bind_eq_bind, Option.bind_some, stored]

/-- A block of its own is too small for what a stream copies from the memory it was attached to. -/
theorem resetCapacity_eq_none (attached : stream.autoDelete = false)
    (block : stream.block.length = stream.capacity) (short : len < stream.capacity) :
    stream.resetCapacity len = none := by
  have whole : stream.block.fetch 0 stream.capacity = some stream.block := by
    rw [Block.fetch_front (Nat.le_of_eq block.symm), ← block, List.take_length]
  have outside : (Block.alloc len : Block UInt8).length < 0 + stream.block.length := by
    rw [Block.length_alloc]
    omega
  rw [resetCapacity, if_neg (by simp [attached]), whole]
  simp only [Option.bind_eq_bind, Option.bind_some, Block.store_eq_none outside, Option.bind_none]

/-- A stream gets more room, or a block of its own that has at least as much. -/
theorem resetCapacity_grown (block : stream.block.length = stream.capacity)
    (room : stream.autoDelete ∨ stream.capacity ≤ len) :
    ∃ after, stream.resetCapacity len = some after ∧ Grown stream after ∧
      after.capacity = max stream.capacity len ∧ after.autoDelete := by
  cases owned : stream.autoDelete with
  | true =>
    by_cases more : stream.capacity < len
    · refine ⟨_, resetCapacity_of_owned owned more, ⟨rfl, rfl, Nat.le_of_lt more, ?_, ?_, id⟩, ?_, owned⟩
      · exact Block.length_resize
      · have front : (stream.block.resize len).take stream.capacity = stream.block.take stream.capacity :=
          Block.take_resize (Nat.le_of_lt more) (Nat.le_of_eq block.symm)
        exact front.trans (by rw [← block, List.take_length])
      · exact (Nat.max_eq_right (Nat.le_of_lt more)).symm
    · exact ⟨stream, by rw [resetCapacity, if_pos owned, if_neg more], .refl block,
        (Nat.max_eq_left (Nat.le_of_not_lt more)).symm, owned⟩
  | false =>
    have larger := room.resolve_left (by simp [owned])
    obtain ⟨cells, reset, length, front⟩ := resetCapacity_of_attached owned block larger
    exact ⟨_, reset, ⟨rfl, rfl, larger, length, front, fun _ => rfl⟩, (Nat.max_eq_right larger).symm, rfl⟩

/-- The loop ends with enough room: each of its rounds adds some. -/
theorem reserveLoop_grown {rounds newCapacity : Nat} (block : stream.block.length = stream.capacity)
    (enough : newCapacity ≤ stream.capacity + rounds) :
    ∃ after, reserveLoop rounds stream newCapacity = some after ∧ Grown stream after ∧
      newCapacity ≤ after.capacity := by
  induction rounds generalizing stream with
  | zero => exact ⟨stream, rfl, .refl block, enough⟩
  | succ rounds ih =>
    by_cases short : stream.capacity < newCapacity
    · let larger := if stream.capacity = 0 then newCapacity else stream.capacity * 2
      have more : stream.capacity < larger := by
        simp only [larger]
        split <;> omega
      obtain ⟨grown, reset, isGrown, capacity, _⟩ :=
        resetCapacity_grown block (.inr (Nat.le_of_lt more))
      obtain ⟨after, looped, further, room⟩ := ih isGrown.block (by omega)
      refine ⟨after, ?_, isGrown.trans further, room⟩
      simp only [reserveLoop, if_pos short]
      rw [show stream.resetCapacity _ = some grown from reset]
      exact looped
    · exact ⟨stream, by simp [reserveLoop, short], .refl block, by omega⟩

theorem reserve_grown (newCapacity : Nat) (block : stream.block.length = stream.capacity) :
    ∃ after, stream.reserve newCapacity = some after ∧ Grown stream after ∧
      newCapacity ≤ after.capacity :=
  reserveLoop_grown block (Nat.le_add_left ..)

/-- A copy within the block writes its bytes behind what is in front of them. -/
theorem memcpy_eq_some (block : stream.block.length = stream.capacity)
    (inside : start + bytes.length ≤ stream.capacity) :
    ∃ after, stream.memcpy start bytes = some after ∧ after.bufferSize = stream.bufferSize ∧
      after.offset = stream.offset ∧ after.capacity = stream.capacity ∧
      after.autoDelete = stream.autoDelete ∧ after.block.length = after.capacity ∧
      after.block.take (start + bytes.length) = stream.block.take start ++ bytes.map some := by
  have fits : start + (bytes.map some).length ≤ stream.block.length := by
    rw [List.length_map, block]
    exact inside
  obtain ⟨stored, isStored⟩ := Option.isSome_iff_exists.mp (Block.isSome_store.mpr fits)
  have length := Block.length_of_store isStored
  have front := Block.take_of_store isStored
  rw [List.length_map] at front
  refine ⟨{ stream with buffer := stream.buffer.map fun _ => stored }, ?_, rfl, rfl, rfl, rfl, ?_⟩
  · rw [memcpy, isStored]
    rfl
  · have leads : MemoryStream.block { stream with buffer := stream.buffer.map fun _ => stored } = stored := by
      cases pointer : stream.buffer with
      | some cells => rfl
      | none =>
        have none : stream.block = [] := by rw [MemoryStream.block, pointer]; rfl
        rw [none] at length
        exact (List.eq_nil_of_length_eq_zero length).symm
    rw [leads, length]
    exact ⟨block, front⟩

theorem bytes_eq_some : stream.bytes = some bytes ↔
    stream.bufferSize = bytes.length ∧ stream.block.take bytes.length = bytes.map some := by
  constructor
  · intro are
    obtain ⟨cells, fetched, values⟩ := Option.bind_eq_some_iff.mp are
    have inside := Block.isSome_fetch.mp (Option.isSome_iff_exists.mpr ⟨cells, fetched⟩)
    rw [Nat.zero_add] at inside
    rw [Block.fetch_front inside] at fetched
    have front := Option.some.inj fetched
    rw [Block.values_eq_some.mp values] at front
    have size := congrArg List.length front
    rw [List.length_take, List.length_map, Nat.min_eq_left inside] at size
    exact ⟨size, size ▸ front⟩
  · rintro ⟨size, front⟩
    have length := congrArg List.length front
    rw [List.length_take, List.length_map] at length
    have inside : stream.bufferSize ≤ stream.block.length := by omega
    rw [MemoryStream.bytes, Block.fetch_front inside]
    exact Block.values_eq_some.mpr (size ▸ front)

theorem load_eq_loadWithin : stream.load bytes = stream.loadWithin bytes 0 := by
  rw [load, loadWithin, Nat.zero_max]

/-- Loaded bytes are all that the stream has. -/
theorem loadWithin_eq_some (bytes : List UInt8) (capacity : Nat)
    (block : stream.block.length = stream.capacity)
    (room : stream.autoDelete ∨ stream.capacity ≤ max capacity bytes.length) :
    ∃ after, stream.loadWithin bytes capacity = some after ∧ after.Formed ∧ after.offset = 0 ∧
      after.capacity = max stream.capacity (max capacity bytes.length) ∧ after.autoDelete ∧
      after.bytes = some bytes := by
  obtain ⟨grown, reset, isGrown, size, owned⟩ := resetCapacity_grown block room
  have fits : 0 + bytes.length ≤ grown.capacity := by omega
  obtain ⟨copied, copy, _, _, same, owner, block, front⟩ := memcpy_eq_some isGrown.block fits
  rw [Nat.zero_add, List.take_zero, List.nil_append] at front
  refine ⟨{ copied with bufferSize := bytes.length, offset := 0 }, ?_, ⟨block, ?_, Nat.zero_le _⟩, rfl,
    same.trans size, ?_, ?_⟩
  · rw [loadWithin, reset]
    simp only [Option.bind_eq_bind, Option.bind_some, copy]
  · simp only
    omega
  · exact owner.trans owned
  · exact bytes_eq_some.mpr ⟨rfl, front⟩

/-- An append lays the bytes over what comes behind the offset, and counts all of them. -/
theorem append_eq_some (bytes : List UInt8) (block : stream.block.length = stream.capacity)
    (within : stream.offset ≤ stream.capacity) :
    ∃ after, stream.append bytes = some after ∧
      after.bufferSize = stream.bufferSize + bytes.length ∧
      after.offset = stream.offset + bytes.length ∧ after.block.length = after.capacity ∧
      after.offset ≤ after.capacity ∧ (stream.autoDelete → after.autoDelete) ∧
      after.block.take after.offset = stream.block.take stream.offset ++ bytes.map some := by
  by_cases nothing : bytes = []
  · subst nothing
    exact ⟨stream, rfl, rfl, rfl, block, within, id, by simp⟩
  · obtain ⟨grown, reserved, isGrown, room⟩ :=
      reserve_grown (stream.offset + bytes.length) block
    have fits : grown.offset + bytes.length ≤ grown.capacity := isGrown.offset ▸ room
    obtain ⟨copied, copy, size, offset, capacity, owner, block, front⟩ := memcpy_eq_some isGrown.block fits
    refine ⟨{ copied with
        offset := copied.offset + bytes.length, bufferSize := copied.bufferSize + bytes.length },
      ?_, ?_, ?_, block, ?_, ?_, ?_⟩
    · rw [append, if_neg nothing, reserved]
      simp only [Option.bind_eq_bind, Option.bind_some, copy]
    · simp only [size, isGrown.size]
    · simp only [offset, isGrown.offset]
    · simp only [offset, capacity]
      exact fits
    · intro owned
      exact owner.trans (isGrown.owned owned)
    · rw [isGrown.offset, isGrown.take within] at front
      simp only [offset, isGrown.offset]
      exact front

/-- An append to a given place counts what it writes behind the end. -/
theorem appendAt_eq_some {offset : Nat} (formed : stream.Formed) (some' : bytes ≠ []) :
    ∃ after, stream.appendAt bytes offset = some after ∧ after.Formed ∧
      after.bufferSize = max stream.bufferSize (offset + bytes.length) := by
  obtain ⟨grown, reserved, isGrown, room⟩ :=
    reserve_grown (offset + bytes.length) formed.block
  obtain ⟨copied, copy, size, place, capacity, _, block, _⟩ := memcpy_eq_some isGrown.block room
  have within := formed.size
  have before := formed.offset
  have more := isGrown.capacity
  have sameSize := isGrown.size
  have samePlace := isGrown.offset
  refine ⟨{ copied with bufferSize := max copied.bufferSize (offset + bytes.length) },
    ?_, ⟨block, ?_, ?_⟩, ?_⟩
  · rw [appendAt, if_neg some', reserved]
    simp only [Option.bind_eq_bind, Option.bind_some, copy]
  · simp only
    omega
  · simp only
    omega
  · simp only
    omega

theorem clone_grown (block : stream.block.length = stream.capacity) :
    ∃ after, stream.clone = some after ∧ Grown stream after := by
  cases owned : stream.autoDelete with
  | true => exact ⟨stream, if_pos owned, .refl block⟩
  | false =>
    have whole : stream.block.fetch 0 stream.capacity = some stream.block := by
      rw [Block.fetch_front (Nat.le_of_eq block.symm), ← block, List.take_length]
    obtain ⟨cells, stored, length, front⟩ := Block.store_alloc (Nat.le_of_eq block)
    refine ⟨{ stream with buffer := some cells, autoDelete := true }, ?_,
      ⟨rfl, rfl, Nat.le_refl _, length, block ▸ front, fun _ => rfl⟩⟩
    rw [clone, if_neg (by simp [owned]), whole]
    simp only [Option.bind_eq_bind, Option.bind_some, stored]

theorem assign_eq_copyOf (rhs : MemoryStream) : stream.assign rhs = rhs.copyOf := rfl

theorem copyOf_eq_some (formed : stream.Formed) :
    ∃ after, stream.copyOf = some after ∧ after.Formed ∧ after.bufferSize = stream.bufferSize ∧
      after.capacity = stream.capacity ∧ after.offset = stream.offset := by
  cases owned : stream.autoDelete with
  | true =>
    have inside : stream.bufferSize ≤ stream.block.length := formed.block ▸ formed.size
    have short : (stream.block.take stream.bufferSize).length ≤ stream.capacity := by
      rw [List.length_take, Nat.min_eq_left inside]
      exact formed.size
    obtain ⟨cells, stored, length, _⟩ := Block.store_alloc short
    refine ⟨{ stream with buffer := some cells }, ?_, ⟨length, formed.size, formed.offset⟩, rfl, rfl, rfl⟩
    rw [copyOf, if_pos owned, Block.fetch_front inside]
    simp only [Option.bind_eq_bind, Option.bind_some, stored]
  | false => exact ⟨stream, if_neg (by simp [owned]), formed, rfl, rfl, rfl⟩

theorem read_eq_some (offsetFlag : Bool) (formed : stream.Formed)
    (within : stream.offset + len ≤ stream.bufferSize) :
    ∃ after, stream.read len offsetFlag = some ((stream.block.drop stream.offset).take len, after) ∧
      after = (if offsetFlag then { stream with offset := stream.offset + len } else stream) := by
  have size := formed.size
  have inside : stream.offset + len ≤ stream.block.length := by
    rw [formed.block]
    omega
  by_cases nothing : len = 0
  · subst nothing
    exact ⟨stream, by simp [read], by cases offsetFlag <;> rfl⟩
  · refine ⟨_, ?_, rfl⟩
    rw [read, if_neg nothing, Block.fetch_eq_some inside]
    rfl

/-- A stream that ends where the next bytes are to go. -/
structure AtEnd (stream : MemoryStream) : Prop where
  formed : stream.Formed
  offset : stream.offset = stream.bufferSize

/-- The stream goes on with these bytes. -/
structure Extends (before : MemoryStream) (bytes : List UInt8) (after : MemoryStream) : Prop where
  atEnd : after.AtEnd
  size : after.bufferSize = before.bufferSize + bytes.length
  contents : after.block.take after.bufferSize =
    before.block.take before.bufferSize ++ bytes.map some

variable {first second : List UInt8}

theorem Extends.refl (atEnd : stream.AtEnd) : Extends stream [] stream :=
  ⟨atEnd, rfl, by simp⟩

theorem Extends.trans (front : Extends before first middle) (back : Extends middle second after) :
    Extends before (first ++ second) after where
  atEnd := back.atEnd
  size := by rw [back.size, front.size, List.length_append, Nat.add_assoc]
  contents := by rw [back.contents, front.contents, List.map_append, List.append_assoc]

theorem append_extends (bytes : List UInt8) (atEnd : stream.AtEnd) :
    ∃ after, stream.append bytes = some after ∧ Extends stream bytes after := by
  obtain ⟨after, appended, size, offset, block, within, _, contents⟩ :=
    append_eq_some bytes atEnd.formed.block atEnd.formed.within
  have atEnd' : after.offset = after.bufferSize := by rw [size, offset, atEnd.offset]
  refine ⟨after, appended, ⟨⟨block, atEnd' ▸ within, Nat.le_of_eq atEnd'⟩, atEnd'⟩, size, ?_⟩
  rw [← atEnd', contents, atEnd.offset]

theorem atEnd_empty : empty.AtEnd := ⟨⟨rfl, Nat.le_refl _, Nat.le_refl _⟩, rfl⟩

theorem atEnd_ofCapacity (capacity : Nat) : (ofCapacity capacity).AtEnd :=
  ⟨⟨Block.length_alloc, Nat.zero_le _, Nat.le_refl _⟩, rfl⟩

/-- The bytes that a stream goes on with come behind those that it has. -/
theorem Extends.bytes_eq_some {old : List UInt8} (has : before.bytes = some old)
    (extended : Extends before first after) : after.bytes = some (old ++ first) := by
  obtain ⟨size, front⟩ := MemoryStream.bytes_eq_some.mp has
  have size' : after.bufferSize = (old ++ first).length := by
    rw [extended.size, size, List.length_append]
  have contents := extended.contents
  rw [size, front, size', ← List.map_append] at contents
  exact MemoryStream.bytes_eq_some.mpr ⟨size', contents⟩

end MemoryStream

end BTool.BoostNet
