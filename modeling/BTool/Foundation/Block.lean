import Mathlib.Data.List.Basic

/-! Blocks of memory. A cell holds nothing until it is written, and a copy that would leave the
block has no result. -/

namespace BTool.Foundation

universe u

variable {Cell : Type u}

/-- The cells of a block, `none` where nothing was written. -/
abbrev Block (Cell : Type u) := List (Option Cell)

namespace Block

/-- A fresh block. -/
def alloc (len : Nat) : Block Cell := List.replicate len none

/-- A block of another size, with the front of the old one. -/
def resize (block : Block Cell) (len : Nat) : Block Cell :=
  block.take len ++ alloc (len - block.length)

/-- The cells of a range of the block. -/
def fetch (block : Block Cell) (start len : Nat) : Option (Block Cell) :=
  if start + len ≤ block.length then some ((block.drop start).take len) else none

/-- Cells laid over a range of the block. -/
def store (block : Block Cell) (start : Nat) (cells : Block Cell) : Option (Block Cell) :=
  if start + cells.length ≤ block.length then
    some (block.take start ++ cells ++ block.drop (start + cells.length))
  else none

/-- What was written, if all of it was. -/
def values : Block Cell → Option (List Cell)
  | [] => some []
  | none :: _ => none
  | some cell :: rest => (values rest).map (cell :: ·)

variable {block after cells : Block Cell} {start len : Nat}

theorem values_eq_some {values : List Cell} : block.values = some values ↔ block = values.map some := by
  induction block generalizing values with
  | nil => cases values <;> simp [Block.values]
  | cons cell rest ih =>
    cases cell with
    | none => cases values <;> simp [Block.values]
    | some cell => cases values <;> simp [Block.values, ih, and_comm]

@[simp] theorem length_alloc : (alloc len : Block Cell).length = len := List.length_replicate ..

@[simp] theorem length_resize : (block.resize len).length = len := by
  simp only [resize, List.length_append, List.length_take, length_alloc]
  omega

@[simp] theorem values_map (cells : List Cell) : Block.values (cells.map some) = some cells :=
  values_eq_some.mpr rfl

/-- What was in front stays there. -/
theorem take_resize (within : start ≤ len) (inside : start ≤ block.length) :
    (block.resize len).take start = block.take start := by
  unfold resize
  rw [List.take_append_of_le_length (by rw [List.length_take]; omega), List.take_take,
    Nat.min_eq_left within]

theorem fetch_eq_some (inside : start + len ≤ block.length) :
    block.fetch start len = some ((block.drop start).take len) := if_pos inside

theorem fetch_front (inside : len ≤ block.length) : block.fetch 0 len = some (block.take len) := by
  rw [fetch_eq_some (by rwa [Nat.zero_add]), List.drop_zero]

theorem fetch_middle (front rest : Block Cell) :
    (front ++ cells ++ rest).fetch front.length cells.length = some cells := by
  rw [fetch_eq_some (by simp only [List.length_append]; omega), List.append_assoc, List.drop_left,
    List.take_left]

theorem isSome_fetch : (block.fetch start len).isSome ↔ start + len ≤ block.length := by
  unfold fetch
  split <;> simp_all

theorem isSome_store : (block.store start cells).isSome ↔ start + cells.length ≤ block.length := by
  unfold store
  split <;> simp_all

theorem store_eq_some (inside : start + cells.length ≤ block.length) :
    block.store start cells = some (block.take start ++ cells ++ block.drop (start + cells.length)) :=
  if_pos inside

theorem store_eq_none (outside : block.length < start + cells.length) : block.store start cells = none :=
  if_neg (Nat.not_le_of_lt outside)

theorem inside_of_store (stored : block.store start cells = some after) :
    start + cells.length ≤ block.length := by
  rw [← isSome_store, stored]
  rfl

theorem length_of_store (stored : block.store start cells = some after) :
    after.length = block.length := by
  have inside := inside_of_store stored
  rw [store_eq_some inside] at stored
  cases stored
  simp only [List.length_append, List.length_take, List.length_drop]
  omega

/-- A store leaves what is in front of it, and the cells behind that are the new ones. -/
theorem take_of_store (stored : block.store start cells = some after) :
    after.take (start + cells.length) = block.take start ++ cells := by
  have inside := inside_of_store stored
  rw [store_eq_some inside] at stored
  cases stored
  have front : (block.take start ++ cells).length = start + cells.length := by
    rw [List.length_append, List.length_take]
    omega
  rw [List.take_append_of_le_length (Nat.le_of_eq front.symm), ← front, List.take_length]

/-- Cells laid into a fresh block are its front. -/
theorem store_alloc (room : cells.length ≤ len) : ∃ after, (alloc len).store 0 cells = some after ∧
    after.length = len ∧ after.take cells.length = cells := by
  have fits : 0 + cells.length ≤ (alloc len : Block Cell).length := by
    rwa [Nat.zero_add, length_alloc]
  obtain ⟨after, stored⟩ := Option.isSome_iff_exists.mp (isSome_store.mpr fits)
  have front := take_of_store stored
  rw [Nat.zero_add, List.take_zero, List.nil_append] at front
  exact ⟨after, stored, (length_of_store stored).trans length_alloc, front⟩

end Block

end BTool.Foundation
