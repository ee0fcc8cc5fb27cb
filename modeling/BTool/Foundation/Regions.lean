import Mathlib.Algebra.GroupWithZero.Nat
import BTool.Foundation.Image

/-! Regions of an image that are handed out one behind the other, and the cells that they hold. -/

namespace BTool.Foundation.Image

universe u

structure Region (Cell : Type u) where
  start : Nat
  cells : List Cell
deriving DecidableEq

/-- Where a region ends. -/
def Region.stop {Cell : Type u} (region : Region Cell) : Nat :=
  region.start + region.cells.length

/-- Regions one behind the other between two places of an image, each of which holds its cells. -/
structure Laid {Cell : Type} (image : List Cell) (base place : Nat) (regions : List (Region Cell)) :
    Prop where
  apart : regions.Pairwise fun region later => region.stop ≤ later.start
  behind : ∀ region ∈ regions, base ≤ region.start
  within : ∀ region ∈ regions, region.stop ≤ place
  holds : ∀ region ∈ regions, piece image region.start region.cells.length = region.cells

variable {Cell : Type} {image image' cells : List Cell} {base place : Nat} {regions : List (Region Cell)}
  {region : Region Cell}

theorem Laid.nil : Laid image base place [] :=
  ⟨.nil, nofun, nofun, nofun⟩

/-- Only what lies between the two places counts. -/
theorem Laid.congr (laid : Laid image base place regions)
    (same : ∀ start length, base ≤ start → start + length ≤ place →
      piece image' start length = piece image start length) : Laid image' base place regions := by
  refine ⟨laid.apart, laid.behind, laid.within, fun region member => ?_⟩
  rw [same _ _ (laid.behind region member) (laid.within region member)]
  exact laid.holds region member

/-- One more region begins where the others end. -/
theorem Laid.snoc (laid : Laid image base place regions) (later : base ≤ place)
    (holds : piece image place cells.length = cells) :
    Laid image base (place + cells.length) (regions ++ [⟨place, cells⟩]) := by
  have either {fact : Region Cell → Prop} (before : ∀ region ∈ regions, fact region)
      (last : fact ⟨place, cells⟩) : ∀ region ∈ regions ++ [⟨place, cells⟩], fact region := by
    intro region member
    rcases List.mem_append.mp member with earlier | now
    · exact before region earlier
    · rwa [List.mem_singleton.mp now]
  refine ⟨List.pairwise_append.mpr ⟨laid.apart, List.pairwise_singleton .., ?_⟩,
    either laid.behind later, either ?_ (Nat.le_refl _), either laid.holds holds⟩
  · intro region member last isLast
    rw [List.mem_singleton.mp isLast]
    exact laid.within region member
  · intro region member
    exact Nat.le_trans (laid.within region member) (Nat.le_add_right ..)

/-- Two different regions do not meet. -/
theorem Laid.apart_of_append {front back : List (Region Cell)}
    (laid : Laid image base place (front ++ region :: back)) :
    (∀ earlier ∈ front, earlier.stop ≤ region.start) ∧
      ∀ later ∈ back, region.stop ≤ later.start := by
  obtain ⟨_, behind, across⟩ := List.pairwise_append.mp laid.apart
  exact ⟨fun earlier member => across earlier member region List.mem_cons_self,
    fun later member => List.rel_of_pairwise_cons behind member⟩

/-- The cells of one region are exchanged. -/
theorem Laid.fill {front back : List (Region Cell)}
    (laid : Laid image base place (front ++ region :: back)) (same : cells.length = region.cells.length)
    (inside : place ≤ image.length) :
    Laid (overwrite image region.start cells) base place
      (front ++ { region with cells := cells } :: back) := by
  have split {fact : Region Cell → Prop} {middle : Region Cell} :
      (∀ other ∈ front ++ middle :: back, fact other) ↔
        (∀ other ∈ front, fact other) ∧ fact middle ∧ ∀ other ∈ back, fact other := by
    simp only [List.forall_mem_append, List.forall_mem_cons]
  obtain ⟨earlier, later⟩ := laid.apart_of_append
  obtain ⟨frontBehind, behind, backBehind⟩ := split.mp laid.behind
  obtain ⟨frontWithin, within, backWithin⟩ := split.mp laid.within
  obtain ⟨frontHolds, _, backHolds⟩ := split.mp laid.holds
  have fits : region.start + cells.length ≤ image.length := by
    unfold Region.stop at within
    omega
  have stop : ({ region with cells := cells } : Region Cell).stop = region.stop := by
    simp [Region.stop, same]
  obtain ⟨apartFront, apartBack, across⟩ := List.pairwise_append.mp laid.apart
  refine ⟨List.pairwise_append.mpr ⟨apartFront, ?_, ?_⟩, split.mpr ⟨frontBehind, behind, backBehind⟩,
    split.mpr ⟨frontWithin, stop ▸ within, backWithin⟩, split.mpr ⟨?_, piece_overwrite_self fits, ?_⟩⟩
  · exact List.pairwise_cons.mpr ⟨fun other member => stop ▸ later other member, apartBack.tail⟩
  · intro first isFirst second isSecond
    rcases List.mem_cons.mp isSecond with rfl | isSecond
    · exact earlier first isFirst
    · exact across first isFirst second (List.mem_cons_of_mem _ isSecond)
  · intro other member
    rw [piece_overwrite_of_apart fits (.inl (earlier other member))]
    exact frontHolds other member
  · intro other member
    have behind := later other member
    unfold Region.stop at behind
    rw [piece_overwrite_of_apart fits (.inr (by omega))]
    exact backHolds other member

/-- How many cells the regions have. -/
def total (regions : List (Region Cell)) : Nat := (regions.map fun region => region.cells.length).sum

/-- All that the regions have, one behind the other. -/
def contents (regions : List (Region Cell)) : List Cell := (regions.map Region.cells).flatten

private theorem Laid.tail {rest : List (Region Cell)} (laid : Laid image base place (region :: rest)) :
    Laid image region.stop place rest := by
  obtain ⟨first, apart⟩ := List.pairwise_cons.mp laid.apart
  exact ⟨apart, first, fun other member => laid.within other (List.mem_cons_of_mem _ member),
    fun other member => laid.holds other (List.mem_cons_of_mem _ member)⟩

private theorem Laid.total_le (laid : Laid image base place regions) (le : base ≤ place) :
    base + total regions ≤ place := by
  induction regions generalizing base with
  | nil => exact le
  | cons region rest ih =>
    have within := laid.within region List.mem_cons_self
    have behind := laid.behind region List.mem_cons_self
    have later := ih laid.tail within
    unfold Region.stop at later
    simp only [total, List.map_cons, List.sum_cons] at later ⊢
    omega

/-- Regions that have as many cells as there are between the two places leave nothing between them. -/
theorem Laid.whole (laid : Laid image base place regions) (fills : base + total regions = place) :
    piece image base (total regions) = contents regions := by
  induction regions generalizing base with
  | nil => simp [total, piece, contents]
  | cons region rest ih =>
    have within := laid.within region List.mem_cons_self
    have behind := laid.behind region List.mem_cons_self
    have later := laid.tail.total_le within
    have sum : total (region :: rest) = region.cells.length + total rest := List.sum_cons
    unfold Region.stop at later
    obtain rfl : region.start = base := by omega
    have holds := laid.holds region List.mem_cons_self
    have behindIt := ih laid.tail (by unfold Region.stop; omega)
    unfold Region.stop at behindIt
    rw [sum, ← piece_append_piece, holds, behindIt]
    rfl

end BTool.Foundation.Image
