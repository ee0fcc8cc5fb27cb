import Mathlib.Data.List.Basic

/-! Ranges of cells that lie one after the other behind an address. -/

namespace BTool.Foundation

universe u

variable {Cell : Type u} {memory other : Nat → Cell}

/-- The cells of a range. -/
def span (memory : Nat → Cell) (start : Nat) : Nat → List Cell
  | 0 => []
  | len + 1 => memory start :: span memory (start + 1) len

@[simp] theorem length_span (memory : Nat → Cell) (start len : Nat) :
    (span memory start len).length = len := by
  induction len generalizing start with
  | zero => rfl
  | succ len ih => rw [span, List.length_cons, ih]

theorem span_add (memory : Nat → Cell) (start front back : Nat) :
    span memory start (front + back) = span memory start front ++ span memory (start + front) back := by
  induction front generalizing start with
  | zero => rw [Nat.zero_add, Nat.add_zero, span, List.nil_append]
  | succ front ih =>
    rw [Nat.add_right_comm, span, span, ih, List.cons_append, Nat.add_right_comm start, Nat.add_assoc start]

/-- What lies in a range lies there part by part. -/
theorem span_eq_append {start len : Nat} {front back : List Cell} :
    span memory start len = front ++ back ↔ len = front.length + back.length ∧
      span memory start front.length = front ∧ span memory (start + front.length) back.length = back := by
  constructor
  · intro lies
    have size : len = front.length + back.length := by
      rw [← List.length_append, ← lies, length_span]
    subst size
    rw [span_add] at lies
    obtain ⟨isFront, isBack⟩ := List.append_inj lies (length_span ..)
    exact ⟨rfl, isFront, isBack⟩
  · rintro ⟨rfl, isFront, isBack⟩
    rw [span_add, isFront, isBack]

/-- The front of what lies in a range lies there too. -/
theorem span_of_prefix {start : Nat} {part whole : List Cell} (isPart : part <+: whole)
    (lies : span memory start whole.length = whole) : span memory start part.length = part := by
  obtain ⟨rest, rfl⟩ := isPart
  exact (span_eq_append.mp lies).2.1

end BTool.Foundation
