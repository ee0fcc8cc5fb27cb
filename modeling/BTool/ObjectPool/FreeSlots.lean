import Mathlib.Data.List.Pairwise
import BTool.Foundation.LinkedChain
import BTool.Foundation.Transition
import BTool.ObjectPool.ObjectPoolNode

/-! The slots of an `ObjectPoolNode`: each of them is either free or has an object that is alive. -/

namespace BTool.ObjectPool

open BTool.Foundation BTool.Foundation.Path

variable {size block bytes freeList left i current count : Nat} {image after : List UInt8}

section LinkChunk

theorem store_eq_some_iff {place value : Nat} : store block bytes image place value = some after ↔
    (block ≤ place ∧ place + 8 ≤ block + bytes) ∧ Image.setWord image place value = after := by
  unfold store
  split
  next inside => rw [Option.some.injEq, and_iff_right inside]
  next outside => exact iff_of_false nofun fun both => outside both.1

/-- What the chunk has to have for the loop to come to its end. -/
theorem linkChunk_within (small : size < 2 ^ 63) (given : bytes < 2 ^ 63) (place : current + size = block + i * size)
    (linked : linkChunk size block bytes freeList left i current image = some after) :
    current + left * size + 8 ≤ block + bytes := by
  induction left generalizing i current image with
  | zero =>
    have inside := (store_eq_some_iff.mp linked).1
    omega
  | succ left ih =>
    obtain ⟨between, stored, later⟩ := Option.bind_eq_some_iff.mp linked
    have inside := (store_eq_some_iff.mp stored).1
    have next : block + mulSize i size = current + size := by
      rw [mulSize_eq (by omega), place]
    rw [next] at later
    have rest := ih (by rw [Nat.succ_mul]; omega) later
    rw [Nat.succ_mul]
    omega

/-- In a chunk that has room for all slots the loop links each of them to the next one. -/
theorem linkChunk_spec (wide : 8 ≤ size) (given : bytes < 2 ^ 63) (real : block ≠ 0)
    (inside : block + bytes ≤ image.length) (memory : image.length ≤ 2 ^ 64)
    (place : current + size = block + i * size) (first : block ≤ current)
    (room : current + (left + 1) * size ≤ block + bytes) :
    ∃ after, linkChunk size block bytes 0 left i current image = some after ∧ after.length = image.length ∧
      (∀ node, node + 8 ≤ current → Image.word after node = Image.word image node) ∧
      Threaded (Image.word after) 0 current (List.range' current (left + 1) size) := by
  induction left generalizing i current image with
  | zero =>
    have fits : current + 8 ≤ image.length := by omega
    refine ⟨_, store_eq_some_iff.mpr ⟨⟨first, by omega⟩, rfl⟩, Image.length_setWord fits, fun node before => ?_, ?_⟩
    · exact Image.word_setWord fits (.inl before)
    · exact ⟨rfl, by omega, Image.word_setWord_self fits (by decide)⟩
  | succ left ih =>
    rw [Nat.succ_mul, Nat.succ_mul] at room
    have fits : current + 8 ≤ image.length := by omega
    have next : block + mulSize i size = current + size := by
      rw [mulSize_eq (by omega), place]
    have length : (Image.setWord image current (current + size)).length = image.length := Image.length_setWord fits
    obtain ⟨after, linked, sameLength, frame, chain⟩ :=
      @ih (i + 1) (current + size) (Image.setWord image current (current + size)) (by omega) (by omega)
        (by rw [Nat.succ_mul]; omega) (by omega) (by rw [Nat.succ_mul]; omega)
    refine ⟨after, ?_, sameLength.trans length, fun node before => ?_, rfl, by omega, ?_⟩
    · rw [linkChunk, next]
      exact Option.bind_eq_some_iff.mpr ⟨_, store_eq_some_iff.mpr ⟨⟨first, by omega⟩, rfl⟩, linked⟩
    · rw [frame node (by omega), Image.word_setWord fits (.inl before)]
    · rw [frame current (by omega), Image.word_setWord_self fits (by omega)]
      exact chain

end LinkChunk

/-- All slots of some chunks. -/
def slots (size : Nat) (chunks : List Chunk) : List Nat :=
  chunks.flatMap fun chunk => List.range' chunk.block chunk.count size

/-- A chunk of so many slots: each has room for a pointer, the size of all is a size, and there is memory. -/
def Room (size count block : Nat) : Prop := 8 ≤ size ∧ size * count < 2 ^ 64 ∧ block ≠ 0

/-- Two chunks have no bytes in common. -/
def Chunk.Apart (size : Nat) (chunk other : Chunk) : Prop :=
  chunk.block + size * chunk.count ≤ other.block ∨ other.block + size * other.count ≤ chunk.block

namespace World

variable {world next : World} {chunk : Chunk} {slot other obj : Nat} {throws : Bool}

/-- No two slots have bytes in common. The free list comes to its end, no slot is in it twice or has an object
that is alive, and all slots are in it or have one. -/
structure Holds (size : Nat) (world : World) : Prop where
  running : world.running = true
  apart : ∀ slot ∈ slots size world.chunks, ∀ other ∈ slots size world.chunks, slot ≠ other →
    slot + size ≤ other ∨ other + size ≤ slot
  sound : ∃ free, Threaded (Image.word world.image) 0 world.pool.freeList free ∧ (free ++ world.live).Nodup ∧
    (free ++ world.live).Perm (slots size world.chunks)

/-- The chunks are apart in the memory, with slots that have room for a pointer. -/
structure Kept (size : Nat) (world : World) : Prop where
  memory : world.image.length ≤ 2 ^ 64
  within : ∀ chunk ∈ world.chunks, 8 ≤ size ∧ chunk.block ≠ 0 ∧
    chunk.block + size * chunk.count ≤ world.image.length
  apart : world.chunks.Pairwise (Chunk.Apart size)
  chunkSize : world.chunks ≠ [] → 1 ≤ world.pool.chunkSize

theorem mem_slots : slot ∈ slots size world.chunks ↔
    ∃ chunk ∈ world.chunks, ∃ index < chunk.count, slot = chunk.block + size * index := by
  simp only [slots, List.mem_flatMap, List.mem_range']

/-- A slot lies in its chunk. -/
theorem slot_within (size : Nat) {index : Nat} (inside : index < chunk.count) :
    chunk.block + size * index + size ≤ chunk.block + size * chunk.count := by
  have later := Nat.mul_le_mul_left size (Nat.succ_le_of_lt inside)
  rw [Nat.mul_succ] at later
  omega

section Slots

variable (kept : world.Kept size)

include kept

theorem Kept.slot_bounds (member : slot ∈ slots size world.chunks) :
    8 ≤ size ∧ slot ≠ 0 ∧ slot + size ≤ world.image.length := by
  obtain ⟨chunk, there, index, inside, rfl⟩ := mem_slots.mp member
  obtain ⟨wide, real, bound⟩ := kept.within chunk there
  have within := slot_within size inside
  exact ⟨wide, by omega, by omega⟩

/-- Two slots have no bytes in common. -/
theorem Kept.slots_apart (member : slot ∈ slots size world.chunks) (also : other ∈ slots size world.chunks)
    (differs : slot ≠ other) : slot + size ≤ other ∨ other + size ≤ slot := by
  obtain ⟨chunk, there, index, inside, rfl⟩ := mem_slots.mp member
  obtain ⟨second, too, later, within, rfl⟩ := mem_slots.mp also
  by_cases same : chunk = second
  · subst same
    rcases Nat.lt_trichotomy index later with before | rfl | behind
    · have step := Nat.mul_le_mul_left size (Nat.succ_le_of_lt before)
      rw [Nat.mul_succ] at step
      omega
    · exact absurd rfl differs
    · have step := Nat.mul_le_mul_left size (Nat.succ_le_of_lt behind)
      rw [Nat.mul_succ] at step
      omega
  · have symmetric : Std.Symm (Chunk.Apart size) := ⟨fun _ _ apart => apart.symm⟩
    have chunks := kept.apart.forall there too same
    have first := slot_within size inside
    have last := slot_within size within
    unfold Chunk.Apart at chunks
    omega

/-- A free slot has no bytes in common with an object. -/
theorem Kept.free_apart {free : List Nat} (nodup : (free ++ world.live).Nodup)
    (all : (free ++ world.live).Perm (slots size world.chunks)) (isFree : other ∈ free) (member : obj ∈ world.live) :
    obj + size ≤ other ∨ other + size ≤ obj := by
  refine kept.slots_apart (all.mem_iff.mp (List.mem_append_right _ member))
    (all.mem_iff.mp (List.mem_append_left _ isFree)) ?_
  rintro rfl
  exact (List.nodup_append.mp nodup).2.2 obj isFree obj member rfl

end Slots

section NewChunk

variable {newMemory : Nat} (some : 1 ≤ count) (gives : world.Gives size (mulSize size count) newMemory)

include some gives

theorem room_of_allocateNewChunk (small : size < 2 ^ 63)
    (made : world.allocateNewChunk size count newMemory = .some next) : Room size count newMemory := by
  unfold allocateNewChunk at made
  split at made
  next => cases made
  next real =>
    obtain ⟨image, linked, _⟩ := Option.map_eq_some_iff.mp made
    obtain ⟨given, _⟩ := gives.resolve_left real
    have within := linkChunk_within small given (by rw [Nat.one_mul]) linked
    obtain ⟨more, rfl⟩ := Nat.exists_eq_add_of_le' some
    rw [Nat.add_sub_cancel, Nat.mul_comm] at within
    have total : size * (more + 1) = size * more + size := Nat.mul_succ size more
    unfold mulSize at within given
    exact ⟨by omega, by omega, real⟩

/-- The slots of a new chunk are all free, and apart from the others. -/
theorem kept_allocateNewChunk (holds : world.Holds size) (kept : world.Kept size) (empty : world.pool.freeList = 0)
    (chunkSize : 1 ≤ world.pool.chunkSize) (room : Room size count newMemory) :
    ∃ after, world.allocateNewChunk size count newMemory = .some after ∧ after.Holds size ∧ after.Kept size ∧
      after.pool.freeList ≠ 0 := by
  obtain ⟨wide, fits, real⟩ := room
  obtain ⟨given, inside, apart⟩ := gives.resolve_left real
  obtain ⟨more, rfl⟩ := Nat.exists_eq_add_of_le' some
  have exact : mulSize size (more + 1) = size * (more + 1) := mulSize_eq fits
  rw [exact] at given inside apart
  have place : newMemory + size = newMemory + 1 * size := by rw [Nat.one_mul]
  have space : newMemory + (more + 1) * size ≤ newMemory + size * (more + 1) := by rw [Nat.mul_comm]
  obtain ⟨image, linked, length, _, chain⟩ :=
    linkChunk_spec wide given real inside kept.memory place (Nat.le_refl _) space
  obtain ⟨running, _, free, threaded, nodup, all⟩ := holds
  rw [empty] at threaded
  obtain rfl := threaded.eq_nil
  rw [List.nil_append] at nodup all
  let grown : World := { world with
    image, chunks := world.chunks ++ [⟨newMemory, more + 1⟩]
    pool := { world.pool with
      blocks := world.pool.blocks ++ [newMemory], freeList := newMemory, memory := newMemory
      capacity := addSize world.pool.capacity (more + 1) } }
  have made : world.allocateNewChunk size (more + 1) newMemory = .some grown := by
    rw [allocateNewChunk, if_neg real, exact, empty, Nat.add_sub_cancel, linked]
    rfl
  have grownKept : grown.Kept size := by
    refine ⟨?_, fun chunk member => ?_, ?_, fun _ => chunkSize⟩
    · rw [length]
      exact kept.memory
    · rw [length]
      rcases List.mem_append.mp member with old | new
      · exact kept.within chunk old
      · obtain rfl := List.mem_singleton.mp new
        exact ⟨wide, real, inside⟩
    · refine List.pairwise_append.mpr ⟨kept.apart, List.pairwise_singleton _ _, fun chunk old other new => ?_⟩
      obtain rfl := List.mem_singleton.mp new
      exact (apart chunk old).symm
  refine ⟨grown, made, ⟨running, fun _ member _ also => grownKept.slots_apart member also, _, chain, ?_, ?_⟩,
    grownKept, real⟩
  · refine List.nodup_append.mpr ⟨List.nodup_range' size (by omega), nodup, ?_⟩
    rintro slot fresh other old rfl
    obtain ⟨index, inChunk, rfl⟩ := List.mem_range'.mp fresh
    obtain ⟨chunk, there, place, inOld, same⟩ := mem_slots.mp (all.mem_iff.mp old)
    have new : newMemory + size * index + size ≤ newMemory + size * (more + 1) :=
      @slot_within ⟨newMemory, more + 1⟩ size index inChunk
    have before := slot_within size inOld
    have disjoint := apart chunk there
    omega
  · simp only [grown, slots, List.flatMap_append, List.flatMap_singleton]
    exact List.perm_append_comm.trans (List.Perm.append_right _ all)

end NewChunk

theorem Kept.popFree (kept : world.Kept size) (throws : Bool) : (world.popFree throws).Kept size :=
  ⟨kept.memory, kept.within, kept.apart, kept.chunkSize⟩

/-- A free slot has an object then, if the constructor of this does not throw. -/
theorem Holds.popFree_iff (holds : world.Holds size) (some : world.pool.freeList ≠ 0) :
    (world.popFree throws).Holds size ↔ throws = false := by
  obtain ⟨running, apart, free, threaded, nodup, all⟩ := holds
  obtain ⟨rest, rfl, remaining⟩ := threaded.pop some
  constructor
  · rintro ⟨_, _, others, chain, _, fewer⟩
    cases throws with
    | false => rfl
    | true =>
      obtain rfl : others = rest := remaining.eq chain
      -- the slot is neither free nor that of an object
      have lengths := (all.trans fewer.symm).length_eq
      simp [popFree] at lengths
  · rintro rfl
    have moved : (rest ++ world.pool.freeList :: world.live).Perm (world.pool.freeList :: rest ++ world.live) :=
      List.perm_middle
    exact ⟨running, apart, rest, remaining, moved.nodup_iff.mpr nodup, moved.trans all⟩

theorem Holds.live_mem_slots (holds : world.Holds size) (member : obj ∈ world.live) :
    obj ∈ slots size world.chunks := by
  obtain ⟨_, _, free, _, _, all⟩ := holds
  exact all.mem_iff.mp (List.mem_append_right _ member)

section Objects

variable (holds : world.Holds size) (kept : world.Kept size)

include holds kept

theorem Holds.free_small : world.pool.freeList < 2 ^ 64 := by
  obtain ⟨_, _, free, threaded, _, all⟩ := holds
  cases free with
  | nil =>
    have null : world.pool.freeList = 0 := threaded
    omega
  | cons first rest =>
    obtain ⟨same, _⟩ := threaded
    have bounds := kept.slot_bounds (all.mem_iff.mp (List.mem_append_left _ List.mem_cons_self))
    have memory := kept.memory
    rw [same]
    omega

/-- The slot of an object is free again. -/
theorem Holds.deallocate (member : obj ∈ world.live) :
    ∃ after, world.deallocate size obj = .some after ∧ after.Holds size ∧ after.Kept size := by
  obtain ⟨wide, real, inside⟩ := kept.slot_bounds (holds.live_mem_slots member)
  have small := holds.free_small kept
  have fits : obj + 8 ≤ world.image.length := by omega
  have length : (Image.setWord world.image obj world.pool.freeList).length = world.image.length :=
    Image.length_setWord fits
  let freed : World := { world with
    image := Image.setWord world.image obj world.pool.freeList
    live := world.live.erase obj, pool := { world.pool with freeList := obj } }
  have made : world.deallocate size obj = .some freed := by
    rw [World.deallocate, if_neg real, store_eq_some_iff.mpr ⟨⟨Nat.le_refl _, by omega⟩, rfl⟩]
    rfl
  obtain ⟨running, distinct, free, threaded, nodup, all⟩ := id holds
  have moved : (obj :: free ++ world.live.erase obj).Perm (free ++ world.live) :=
    List.perm_middle.symm.trans (List.Perm.append_left free (List.perm_cons_erase member).symm)
  have same (other : Nat) (isFree : other ∈ free) : Image.word freed.image other = Image.word world.image other := by
    have apart := kept.free_apart nodup all isFree member
    exact Image.word_setWord fits (by omega)
  have chain : Threaded (Image.word freed.image) 0 obj (obj :: free) :=
    threaded.push real (Image.word_setWord_self fits small) same
  refine ⟨freed, made, ⟨running, distinct, obj :: free, chain, moved.nodup_iff.mpr nodup, moved.trans all⟩,
    ⟨?_, ?_, kept.apart, kept.chunkSize⟩⟩
  · rw [length]
    exact kept.memory
  · rw [length]
    exact kept.within

/-- The bytes of an object are not those of a free slot. -/
theorem Holds.write (member : obj ∈ world.live) {offset : Nat} {bytes : List UInt8}
    (within : offset + bytes.length ≤ size) :
    Holds size { world with image := Image.overwrite world.image (obj + offset) bytes } ∧
      Kept size { world with image := Image.overwrite world.image (obj + offset) bytes } := by
  obtain ⟨wide, _, inside⟩ := kept.slot_bounds (holds.live_mem_slots member)
  have fits : obj + offset + bytes.length ≤ world.image.length := by omega
  have length : (Image.overwrite world.image (obj + offset) bytes).length = world.image.length :=
    Image.length_overwrite fits
  obtain ⟨running, distinct, free, threaded, nodup, all⟩ := id holds
  refine ⟨⟨running, distinct, free, threaded.congr fun other isFree => ?_, nodup, all⟩,
    ⟨?_, ?_, kept.apart, kept.chunkSize⟩⟩
  · have apart := kept.free_apart nodup all isFree member
    rw [Image.word, Image.piece_overwrite_of_apart fits (by omega)]
    rfl
  · rw [length]
    exact kept.memory
  · rw [length]
    exact kept.within

end Objects

/-- A chunk is made with room for all its slots, and an object with a constructor that does not throw. -/
def Fine (size : Nat) (world : World) : Action → Prop
  | .construct preallocate _ block => Room size preallocate block
  | .allocate block throws =>
    (world.pool.freeList = 0 → Room size world.pool.chunkSize block) ∧ throws = false
  | _ => True

theorem not_holds_settle_none : ¬ (world.settle none).Holds size := fun holds => Bool.false_ne_true holds.running

section Steps

variable (small : size < 2 ^ 63) (holds : world.Holds size) (kept : world.Kept size)

include small holds kept

theorem exact_construct {preallocate chunkSize block : Nat} (none : world.chunks = []) (some : 1 ≤ preallocate)
    (most : 1 ≤ chunkSize) (gives : world.Gives size (mulSize size preallocate) block) :
    let made := { world with pool := ⟨0, 0, chunkSize, preallocate, []⟩ }
    ((world.settle (made.allocateNewChunk size preallocate block)).Holds size ↔ Room size preallocate block) ∧
      ((world.settle (made.allocateNewChunk size preallocate block)).Holds size →
        (world.settle (made.allocateNewChunk size preallocate block)).Kept size) := by
  intro made
  have madeHolds : made.Holds size := by
    obtain ⟨running, _, free, _, _, all⟩ := holds
    rw [none] at all
    obtain ⟨_, nobody⟩ := List.append_eq_nil_iff.mp all.eq_nil
    refine ⟨running, ?_, [], rfl, ?_, ?_⟩
    · simp [made, none, slots]
    · simp [made, nobody]
    · simp [made, nobody, none, slots]
  have madeKept : made.Kept size := ⟨kept.memory, kept.within, kept.apart, fun _ => most⟩
  have madeGives : made.Gives size (mulSize size preallocate) block := gives
  by_cases room : Room size preallocate block
  · obtain ⟨after, same, afterHolds, afterKept, _⟩ :=
      kept_allocateNewChunk some madeGives madeHolds madeKept rfl most room
    rw [same]
    exact ⟨iff_of_true afterHolds room, fun _ => afterKept⟩
  · cases same : made.allocateNewChunk size preallocate block with
    | none => exact ⟨iff_of_false not_holds_settle_none room, fun after => absurd after not_holds_settle_none⟩
    | some after => exact absurd (room_of_allocateNewChunk some madeGives small same) room

theorem exact_allocate {block : Nat} (some : world.chunks ≠ [])
    (gives : world.Gives size (mulSize size world.pool.chunkSize) block) :
    ((world.settle (world.allocate size block throws)).Holds size ↔
        (world.pool.freeList = 0 → Room size world.pool.chunkSize block) ∧ throws = false) ∧
      ((world.settle (world.allocate size block throws)).Holds size →
        (world.settle (world.allocate size block throws)).Kept size) := by
  unfold allocate
  by_cases empty : world.pool.freeList = 0
  · rw [if_neg (not_not_intro empty)]
    by_cases room : Room size world.pool.chunkSize block
    · obtain ⟨after, same, afterHolds, afterKept, free⟩ :=
        kept_allocateNewChunk (kept.chunkSize some) gives holds kept empty (kept.chunkSize some) room
      rw [same]
      refine ⟨(afterHolds.popFree_iff free).trans ?_, fun _ => afterKept.popFree throws⟩
      exact (and_iff_right fun _ => room).symm
    · cases same : world.allocateNewChunk size world.pool.chunkSize block with
      | none =>
        exact ⟨iff_of_false not_holds_settle_none fun fine => room (fine.1 empty),
          fun after => absurd after not_holds_settle_none⟩
      | some after => exact absurd (room_of_allocateNewChunk (kept.chunkSize some) gives small same) room
  · rw [if_pos empty]
    refine ⟨(holds.popFree_iff empty).trans ?_, fun _ => kept.popFree throws⟩
    exact (and_iff_right fun null => absurd null empty).symm

/-- A step that is fine keeps every slot free or with an object, and no other one does. -/
theorem exact_step {action : Action} (taken : world.next size action = some next) :
    (next.Holds size ↔ world.Fine size action) ∧ (next.Holds size → next.Kept size) := by
  unfold World.next at taken
  rw [if_pos holds.running] at taken
  cases action with
  | construct preallocate chunkSize block =>
    obtain ⟨⟨none, first, _, most, _, gives⟩, same⟩ := Option.ite_none_right_eq_some.mp taken
    obtain rfl := Option.some.inj same
    exact exact_construct small holds kept none first most gives
  | allocate block throws =>
    obtain ⟨⟨first, gives⟩, same⟩ := Option.ite_none_right_eq_some.mp taken
    obtain rfl := Option.some.inj same
    exact exact_allocate small holds kept first gives
  | deallocate obj =>
    obtain ⟨⟨_, null | member⟩, same⟩ := Option.ite_none_right_eq_some.mp taken
    all_goals obtain rfl := Option.some.inj same
    · rw [deallocate, if_pos null]
      exact ⟨iff_of_true holds trivial, fun _ => kept⟩
    · obtain ⟨after, made, afterHolds, afterKept⟩ := holds.deallocate kept member
      rw [made]
      exact ⟨iff_of_true afterHolds trivial, fun _ => afterKept⟩
  | write obj offset bytes =>
    obtain ⟨⟨member, within⟩, same⟩ := Option.ite_none_right_eq_some.mp taken
    obtain rfl := Option.some.inj same
    obtain ⟨afterHolds, afterKept⟩ := holds.write kept member within
    exact ⟨iff_of_true afterHolds trivial, fun _ => afterKept⟩

end Steps

/-- In every run each slot of all chunks is free or has an object, and none is both, exactly if every chunk is made
with slots that have room for a pointer, a size that is one, and memory, and no constructor of an object throws. -/
theorem free_or_live_iff {actions : List Action} {last : World} (small : size < 2 ^ 63)
    (memory : image.length ≤ 2 ^ 64) (path : Path (Taken (World.next size)) (start image) actions last) :
    (∀ world, Visits (Taken (World.next size)) (start image) actions world → world.Holds size) ↔
      ∀ world action, Takes (Taken (World.next size)) (start image) actions world action →
        world.Fine size action := by
  refine path.visits_iff_all_takes (Kept size) (fun _ _ _ kept holds taken => exact_step small holds kept taken) ?_ ?_
  · exact ⟨rfl, nofun, [], rfl, List.nodup_nil, .nil⟩
  · exact ⟨memory, nofun, .nil, absurd rfl⟩

/-- Two slots in the first chunk and one in each of the others, for objects of ten bytes. -/
theorem free_or_live_iff_two :
    let actions : List Action := [.construct 2 1 1, .allocate 0 false, .write 1 0 [7, 7, 7, 7, 7, 7, 7, 7, 7, 7],
      .allocate 0 false, .allocate 25 false, .deallocate 11, .deallocate 1, .allocate 0 false]
    let image := List.replicate 40 0
    (∀ world, Visits (Taken (World.next 10)) (start image) actions world → world.Holds 10) ↔
      ∀ world action, Takes (Taken (World.next 10)) (start image) actions world action → world.Fine 10 action := by
  intro actions image
  have runs : (exec (World.next 10) (start image) actions).isSome := by decide
  obtain ⟨last, run⟩ := Option.isSome_iff_exists.mp runs
  exact free_or_live_iff (by decide) (by decide) (exec_eq_some_iff.mp run)

/-- A pointer does not fit into a slot of one byte. -/
theorem not_free_or_live : ¬ ∀ (size preallocate chunkSize : Nat) (image : List UInt8) (actions : List Action)
    (last : World), 1 ≤ size →
    Path (Taken (World.next size)) (start image) (.construct preallocate chunkSize 1 :: actions) last →
    last.Holds size := by
  intro always
  have stops : (exec (World.next 1) (start (List.replicate 40 0)) [.construct 4 4 1]).map (·.running) = some false := by
    decide
  obtain ⟨last, run, stopped⟩ := Option.map_eq_some_iff.mp stops
  have holds := always 1 4 4 _ [] last (Nat.le_refl 1) (exec_eq_some_iff.mp run)
  exact Bool.false_ne_true (stopped.symm.trans holds.running)

end World

end BTool.ObjectPool
