import BTool.StringConvert.ReplaceAll
import BTool.StringConvert.SplitLaws

/-! For which arguments `Split`, `SplitAny` and `ReplaceAll` return. -/

namespace BTool.StringConvert

open BTool.Foundation

variable {input delimiter : Text}

theorem exists_returns_split_iff (small : input.length < 2 ^ 63) (delimiter : Text) (trims : Bool) :
    (∃ tokens, Returns (split input delimiter trims) tokens) ↔
      ∃ nonempty : delimiter ≠ [], trims = true → ¬ (wordSearch delimiter nonempty).Crowded input := by
  by_cases nonempty : delimiter ≠ []
  swap
  · obtain rfl := not_not.mp nonempty
    exact iff_of_false (fun ⟨tokens, returns⟩ => not_returns_split_nil input trims tokens returns)
      fun ⟨nonempty, _⟩ => nonempty rfl
  rw [exists_prop_of_true nonempty]
  cases trims with
  | false => exact iff_of_true ⟨_, (returns_split_iff nonempty input _).mpr rfl⟩ nofun
  | true =>
    simp only [returns_split_trimmed_iff nonempty small, exists_and_left, exists_eq, and_true, true_imp_iff]

theorem exists_returns_splitAny_iff (small : input.length < 2 ^ 63) (delimiter : Text) (trims : Bool) :
    (∃ tokens, Returns (splitAny input delimiter trims) tokens) ↔
      (trims = true → ¬ (anySearch delimiter).Crowded input) := by
  cases trims with
  | false => exact iff_of_true ⟨_, (returns_splitAny_iff input delimiter _).mpr rfl⟩ nofun
  | true =>
    have trimmed := returns_trimmed_iff small (ends_splitAny_iff input delimiter true)
    simp only [trimmed, exists_and_left, exists_eq, and_true, true_imp_iff]

/-- The loop of `Split` goes on for ever only where it looks for the empty text and keeps empty tokens. -/
theorem exists_ends_split_iff (input delimiter : Text) (trims : Bool) :
    (∃ outcome, Round.Ends (split input delimiter trims) ⟨0, []⟩ outcome) ↔ delimiter ≠ [] ∨ trims = true := by
  by_cases nonempty : delimiter ≠ []
  · exact iff_of_true ⟨_, (ends_split_iff nonempty input trims _).mpr rfl⟩ (.inl nonempty)
  obtain rfl := not_not.mp nonempty
  cases trims with
  | false => exact iff_of_false (fun ⟨_, ended⟩ => not_ends_split_nil input _ ended) (by simp)
  | true => exact iff_of_true ⟨none, (ends_split_nil_iff input none).mpr rfl⟩ (.inr rfl)

/-- `Split` and `ReplaceAll` do not return where they look for the empty text, nor `ReplaceAll` where it finds what it
puts in; and with trimming no token may be empty, which does not keep the loops from an end but is not defined. -/
theorem calls_return_iff (small : input.length < 2 ^ 63) (delimiter : Text) (trims : Bool) (str src dest : Text) :
    (((∃ tokens, Returns (split input delimiter trims) tokens) ↔
        ∃ nonempty : delimiter ≠ [], trims = true → ¬ (wordSearch delimiter nonempty).Crowded input) ∧
      ((∃ outcome, Round.Ends (split input delimiter trims) ⟨0, []⟩ outcome) ↔ delimiter ≠ [] ∨ trims = true)) ∧
    (((∃ tokens, Returns (splitAny input delimiter trims) tokens) ↔
        (trims = true → ¬ (anySearch delimiter).Crowded input)) ∧
      ∃ outcome, Round.Ends (splitAny input delimiter trims) ⟨0, []⟩ outcome) ∧
    ((∃ result, ReplaceReturns str src dest result) ↔
      src ≠ [] ∧ ¬ (src <:+: str ∧ src <:+: dest.drop src.length)) :=
  ⟨⟨exists_returns_split_iff small delimiter trims, exists_ends_split_iff input delimiter trims⟩,
    ⟨exists_returns_splitAny_iff small delimiter trims, _, (ends_splitAny_iff input delimiter trims _).mpr rfl⟩,
    exists_replaceReturns_iff str src dest⟩

/-- `a,,b` at `,` without trimming, and `aa` with `ba` for `a`. -/
theorem calls_return_iff_commas :
    (∃ tokens, Returns (split [97, 44, 44, 98] [44] false) tokens) ∧
    (∃ tokens, Returns (splitAny [97, 44, 44, 98] [44] false) tokens) ∧
    ¬ ∃ result, ReplaceReturns [97, 97] [97] [98, 97] result := by
  have small : ([97, 44, 44, 98] : Text).length < 2 ^ 63 := by decide
  obtain ⟨⟨whole, _⟩, ⟨any, _⟩, replaces⟩ := calls_return_iff small [44] false [97, 97] [97] [98, 97]
  exact ⟨whole.mpr ⟨by decide, nofun⟩, any.mpr nofun, fun returns => (replaces.mp returns).2 (by decide)⟩

/-- `ab` at the empty text; and `a` with `aa` for `a`, or anything for the empty text. -/
theorem not_calls_return : ¬ (∃ tokens, Returns (split [97, 98] [] false) tokens) ∧
    ¬ (∃ result, ReplaceReturns [97] [97] [97, 97] result) ∧ ¬ ∃ result, ReplaceReturns [97] [] [98] result := by
  refine ⟨fun ⟨tokens, returns⟩ => not_returns_split_nil _ false tokens returns, fun returns => ?_,
    fun ⟨result, returns⟩ => not_replaceReturns_nil _ _ result returns⟩
  exact ((exists_replaceReturns_iff ..).mp returns).2 (by decide)

end BTool.StringConvert
