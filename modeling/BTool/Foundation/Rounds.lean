import Mathlib.Logic.Basic

/-! Loops, round by round: with which result a loop ends, and when it goes on for ever. -/

namespace BTool.Foundation

universe u v

/-- What a round of a loop comes to. -/
inductive Round (State : Type u) (Result : Type v) where
  | again (state : State)
  | ends (result : Result)

namespace Round

variable {State : Type u} {Result : Type v}

/-- The result, if the loop has ended after so many rounds. -/
def run (round : State → Round State Result) : Nat → State → Option Result
  | 0, _ => none
  | rounds + 1, state =>
    match round state with
    | .again after => run round rounds after
    | .ends result => some result

/-- The state after so many rounds, if the loop goes on as long as that. -/
def after (round : State → Round State Result) : Nat → State → Option State
  | 0, state => some state
  | rounds + 1, state =>
    match round state with
    | .again later => after round rounds later
    | .ends _ => none

/-- The loop ends with this result. -/
def Ends (round : State → Round State Result) (state : State) (result : Result) : Prop :=
  ∃ rounds, run round rounds state = some result

variable {round : State → Round State Result} {state later : State} {result other : Result}

theorem ends_of_ends (ended : round state = .ends other) : Ends round state result ↔ result = other := by
  constructor
  · rintro ⟨rounds, ran⟩
    cases rounds with
    | zero => cases ran
    | succ rounds =>
      rw [run, ended] at ran
      exact (Option.some.inj ran).symm
  · rintro rfl
    exact ⟨1, by rw [run, ended]⟩

theorem ends_of_again (goes : round state = .again later) :
    Ends round state result ↔ Ends round later result := by
  constructor
  · rintro ⟨rounds, ran⟩
    cases rounds with
    | zero => cases ran
    | succ rounds =>
      rw [run, goes] at ran
      exact ⟨rounds, ran⟩
  · rintro ⟨rounds, ran⟩
    exact ⟨rounds + 1, by rw [run, goes]; exact ran⟩

/-- A loop ends with one result at most. -/
theorem Ends.unique (first : Ends round state result) (second : Ends round state other) : result = other := by
  obtain ⟨rounds, ran⟩ := first
  induction rounds generalizing state with
  | zero => cases ran
  | succ rounds ih =>
    cases turn : round state with
    | again later =>
      rw [run, turn] at ran
      exact ih ((ends_of_again turn).mp second) ran
    | ends ended =>
      rw [run, turn] at ran
      exact (Option.some.inj ran).symm.trans ((ends_of_ends turn).mp second).symm

/-- A loop that goes on from every state of a kind, to one of that kind, does not end. -/
theorem not_ends (kind : State → Prop)
    (goes : ∀ state, kind state → ∃ later, round state = .again later ∧ kind later) (start : kind state) :
    ¬Ends round state result := by
  rintro ⟨rounds, ran⟩
  induction rounds generalizing state with
  | zero => cases ran
  | succ rounds ih =>
    obtain ⟨later, turn, keeps⟩ := goes state start
    rw [run, turn] at ran
    exact ih keeps ran

/-- A loop in which every round makes less of something ends. -/
theorem exists_ends (kind : State → Prop) (measure : State → Nat)
    (less : ∀ state later, kind state → round state = .again later → kind later ∧ measure later < measure state)
    (start : kind state) : ∃ result, Ends round state result := by
  induction size : measure state using Nat.strongRecOn generalizing state with
  | ind size ih =>
    cases turn : round state with
    | ends result => exact ⟨result, (ends_of_ends turn).mpr rfl⟩
    | again later =>
      obtain ⟨keeps, smaller⟩ := less state later start turn
      obtain ⟨result, ended⟩ := ih (measure later) (size ▸ smaller) keeps rfl
      exact ⟨result, (ends_of_again turn).mpr ended⟩

end Round

end BTool.Foundation
