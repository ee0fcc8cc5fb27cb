import BTool.Foundation.Image
import BTool.Foundation.MemorySizes

/-! `ObjectPoolNode`: slots for objects in chunks of memory, with the list of the free ones in the slots.

The memory is an image, whose places are the addresses. What `malloc` gives is up to each call: a block that is
apart from the others, or the null pointer. An object is its slot, and changes the bytes of this as it likes. -/

namespace BTool.ObjectPool

open BTool.Foundation

structure ObjectPoolNode where
  freeList : Nat
  memory : Nat
  chunkSize : Nat
  capacity : Nat
  blocks : List Nat

/-- What a chunk has been made for: so many objects from a block on. -/
structure Chunk where
  block : Nat
  count : Nat

/-- A pool in a memory, with its chunks and the objects that are alive. -/
structure World where
  pool : ObjectPoolNode
  image : List UInt8
  chunks : List Chunk
  live : List Nat
  /-- The behaviour is defined so far. -/
  running : Bool

inductive Action where
  | construct (preallocate chunkSize block : Nat)
  /-- With the block for another chunk, and whether the constructor of the object throws. -/
  | allocate (block : Nat) (throws : Bool)
  | deallocate (obj : Nat)
  /-- An object changes some of its bytes. -/
  | write (obj offset : Nat) (bytes : List UInt8)

/-- A pointer in so many bytes from a block on. -/
def store (block bytes : Nat) (image : List UInt8) (place value : Nat) : Option (List UInt8) :=
  if block ≤ place ∧ place + 8 ≤ block + bytes then some (Image.setWord image place value) else none

/-- The loop that links the slots of a new chunk, and the last one to the free list. -/
def linkChunk (size block bytes freeList : Nat) : Nat → Nat → Nat → List UInt8 → Option (List UInt8)
  | 0, _, current, image => store block bytes image current freeList
  | left + 1, i, current, image => do
    let next := block + mulSize i size
    let image ← store block bytes image current next
    linkChunk size block bytes freeList left (i + 1) next image

namespace World

def start (image : List UInt8) : World := ⟨⟨0, 0, 0, 0, []⟩, image, [], [], true⟩

/-- What `malloc` may give. -/
def Gives (world : World) (size bytes block : Nat) : Prop :=
  block = 0 ∨ (bytes < 2 ^ 63 ∧ block + bytes ≤ world.image.length ∧
    ∀ chunk ∈ world.chunks, block + bytes ≤ chunk.block ∨ chunk.block + size * chunk.count ≤ block)

instance (world : World) (size bytes block : Nat) : Decidable (world.Gives size bytes block) :=
  inferInstanceAs (Decidable (_ ∨ _ ∧ _ ∧ _))

/-- `allocate_new_chunk`, which is undefined where a pointer is written elsewhere. -/
def allocateNewChunk (size : Nat) (world : World) (chunkSize newMemory : Nat) : Option World :=
  if newMemory = 0 then none
  else
    (linkChunk size newMemory (mulSize size chunkSize) world.pool.freeList (chunkSize - 1) 1 newMemory
      world.image).map fun image =>
      { world with
        image, chunks := world.chunks ++ [⟨newMemory, chunkSize⟩]
        pool := { world.pool with
          blocks := world.pool.blocks ++ [newMemory], freeList := newMemory, memory := newMemory
          capacity := addSize world.pool.capacity chunkSize } }

/-- The first free slot is taken off, before the constructor of the object is called. -/
def popFree (world : World) (throws : Bool) : World :=
  let ptr := world.pool.freeList
  { world with
    pool := { world.pool with freeList := Image.word world.image ptr }
    live := if throws then world.live else ptr :: world.live }

def allocate (size : Nat) (world : World) (block : Nat) (throws : Bool) : Option World :=
  if world.pool.freeList ≠ 0 then some (world.popFree throws)
  else (world.allocateNewChunk size world.pool.chunkSize block).map (·.popFree throws)

/-- The slot of an object is put in front of the free list. -/
def deallocate (size : Nat) (world : World) (obj : Nat) : Option World :=
  if obj = 0 then some world
  else
    (store obj size world.image obj world.pool.freeList).map fun image =>
      { world with image, live := world.live.erase obj, pool := { world.pool with freeList := obj } }

/-- Behaviour that is not defined is the end. -/
def settle (world : World) (after : Option World) : World := after.getD { world with running := false }

/-- A call of the pool, with what `malloc` may give and an object that is alive. -/
def next (size : Nat) (world : World) (action : Action) : Option World :=
  if world.running then
    match action with
    | .construct preallocate chunkSize block =>
      if world.chunks = [] ∧ 1 ≤ preallocate ∧ preallocate < 2 ^ 64 ∧ 1 ≤ chunkSize ∧ chunkSize < 2 ^ 64 ∧
          world.Gives size (mulSize size preallocate) block then
        let made := { world with pool := ⟨0, 0, chunkSize, preallocate, []⟩ }
        some (world.settle (made.allocateNewChunk size preallocate block))
      else none
    | .allocate block throws =>
      if world.chunks ≠ [] ∧ world.Gives size (mulSize size world.pool.chunkSize) block then
        some (world.settle (world.allocate size block throws))
      else none
    | .deallocate obj =>
      if world.chunks ≠ [] ∧ (obj = 0 ∨ obj ∈ world.live) then some (world.settle (world.deallocate size obj)) else none
    | .write obj offset bytes =>
      if obj ∈ world.live ∧ offset + bytes.length ≤ size then
        some { world with image := Image.overwrite world.image (obj + offset) bytes }
      else none
  else none

end World

end BTool.ObjectPool
