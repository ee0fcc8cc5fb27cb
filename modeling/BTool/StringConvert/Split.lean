import BTool.Foundation.Rounds
import BTool.Foundation.TextPieces
import BTool.StringConvert.Trim

/-! `StringConvert::Split` and `StringConvert::SplitAny`: texts are split at a delimiter, or at every one of
some characters. -/

namespace BTool.StringConvert

open BTool.Foundation

/-- What the loops keep. -/
structure Splitting where
  start : Nat
  result : List Text
deriving DecidableEq

/-- A token is trimmed if that is asked for, and is pushed unless nothing is left of it then. -/
def pushToken (trims : Bool) (result : List Text) (token : Text) : Option (List Text) := do
  let token ← if trims then trim token else some token
  return if !trims || !token.isEmpty then result ++ [token] else result

/-- A round of either loop, with its search and the length of what is found. It ends with `none` where `Trim`
is not defined. -/
def splitRound (search : Nat → Option Nat) (width : Nat) (input : Text) (trims : Bool) (loop : Splitting) :
    Round Splitting (Option (List Text)) :=
  match search loop.start with
  | some last =>
    match pushToken trims loop.result ((input.drop loop.start).take (last - loop.start)) with
    | none => .ends none
    | some result => .again ⟨last + width, result⟩
  | none =>
    .ends (if loop.start < input.length then pushToken trims loop.result (input.drop loop.start)
      else some loop.result)

def split (input delimiter : Text) (trims : Bool) : Splitting → Round Splitting (Option (List Text)) :=
  splitRound (find input delimiter) delimiter.length input trims

/-- `find_first_of`. -/
def findFirstOf (text chars : Text) (pos : Nat) : Option Nat :=
  ((text.drop pos).findIdx? (· ∈ chars)).map (pos + ·)

def splitAny (input delimiter : Text) (trims : Bool) : Splitting → Round Splitting (Option (List Text)) :=
  splitRound (findFirstOf input delimiter) 1 input trims

/-- The call returns these tokens. -/
def Returns (round : Splitting → Round Splitting (Option (List Text))) (tokens : List Text) : Prop :=
  Round.Ends round ⟨0, []⟩ (some tokens)

/-- The pieces that become tokens: all, but not the last one if it is empty. -/
def tokensOf (pieces : List Text) : List Text :=
  if pieces.getLast? = some [] then pieces.dropLast else pieces

theorem tokensOf_singleton (piece : Text) : tokensOf [piece] = if piece = [] then [] else [piece] := by
  simp [tokensOf]

theorem tokensOf_cons {pieces : List Text} (more : pieces ≠ []) (piece : Text) :
    tokensOf (piece :: pieces) = piece :: tokensOf pieces := by
  rw [tokensOf, tokensOf, List.getLast?_cons_of_ne_nil more, List.dropLast_cons_of_ne_nil more]
  split <;> rfl

/-- Only an empty piece at the end is no token. -/
theorem tokensOf_append {pieces : List Text} (last : pieces.getLast? = some []) :
    tokensOf pieces ++ [[]] = pieces := by
  rw [tokensOf, if_pos last]
  exact List.dropLast_append_getLast? [] last

theorem mem_of_mem_tokensOf {pieces : List Text} {token : Text} (member : token ∈ tokensOf pieces) :
    token ∈ pieces := by
  unfold tokensOf at member
  split at member
  · exact List.mem_of_mem_dropLast member
  · exact member

/-- The rest of a loop pushes the tokens of the text that it has not seen. -/
theorem ends_splitRound_iff (search : Search UInt8) (trims : Bool) {input : Text} {round : Nat → Option Nat}
    (finds : ∀ start ≤ input.length, round start = (search.first (input.drop start)).map (start + ·))
    {start : Nat} (within : start ≤ input.length) (result : List Text) (outcome : Option (List Text)) :
    Round.Ends (splitRound round search.width input trims) ⟨start, result⟩ outcome ↔
      outcome = (tokensOf (search.pieces (input.drop start))).foldlM (pushToken trims) result := by
  induction rest : input.drop start using Search.induction search generalizing start result with
  | none text nothing =>
    have turn : splitRound round search.width input trims ⟨start, result⟩ = .ends
        (if start < input.length then pushToken trims result (input.drop start) else some result) := by
      rw [splitRound, finds start within, rest, nothing]
      rfl
    rw [Round.ends_of_ends turn, Search.pieces_of_none nothing, tokensOf_singleton, rest]
    by_cases inside : start < input.length
    · have some : text ≠ [] := by
        rw [← rest, Ne, List.drop_eq_nil_iff]
        omega
      rw [if_pos inside, if_neg some]
      simp
    · have none : text = [] := by
        rw [← rest, List.drop_eq_nil_iff]
        omega
      rw [if_neg inside, if_pos none]
      rfl
  | some text place found ih =>
    have fits := search.inside text place found
    rw [← rest, List.length_drop] at fits
    have behind : input.drop (start + place + search.width) = text.drop (place + search.width) := by
      rw [← rest, List.drop_drop, Nat.add_assoc]
    rw [Search.pieces_of_some found, tokensOf_cons (Search.pieces_ne_nil _), List.foldlM_cons]
    cases pushed : pushToken trims result (text.take place) with
    | none =>
      have turn : splitRound round search.width input trims ⟨start, result⟩ = .ends none := by
        rw [splitRound, finds start within, rest, found]
        simp only [Option.map_some, Nat.add_sub_cancel_left, pushed]
      exact Round.ends_of_ends turn
    | some result' =>
      have turn : splitRound round search.width input trims ⟨start, result⟩ =
          .again ⟨start + place + search.width, result'⟩ := by
        rw [splitRound, finds start within, rest, found]
        simp only [Option.map_some, Nat.add_sub_cancel_left, pushed]
      rw [Round.ends_of_again turn]
      exact ih (by omega) result' behind

/-- The pieces of `Split`. -/
theorem ends_split_iff {delimiter : Text} (nonempty : delimiter ≠ []) (input : Text) (trims : Bool)
    (outcome : Option (List Text)) : Round.Ends (split input delimiter trims) ⟨0, []⟩ outcome ↔
      outcome = (tokensOf (cuts delimiter input)).foldlM (pushToken trims) [] := by
  have loop := ends_splitRound_iff (wordSearch delimiter nonempty) trims (fun _ within => find_eq within)
    (Nat.zero_le input.length) [] outcome
  rw [List.drop_zero, ← cuts_eq nonempty] at loop
  exact loop

/-- The search for one of some characters. -/
def anySearch (chars : Text) : Search UInt8 where
  first text := text.findIdx? (· ∈ chars)
  width := 1
  positive := Nat.one_pos
  inside text place found := by
    obtain ⟨inside, _⟩ := List.findIdx?_eq_some_iff_getElem.mp found
    exact inside

/-- The pieces of `SplitAny`. -/
theorem ends_splitAny_iff (input delimiter : Text) (trims : Bool) (outcome : Option (List Text)) :
    Round.Ends (splitAny input delimiter trims) ⟨0, []⟩ outcome ↔
      outcome = (tokensOf ((anySearch delimiter).pieces input)).foldlM (pushToken trims) [] := by
  have finds : ∀ start ≤ input.length, findFirstOf input delimiter start =
      ((anySearch delimiter).first (input.drop start)).map (start + ·) := fun _ _ => rfl
  have loop := ends_splitRound_iff (anySearch delimiter) trims finds (Nat.zero_le input.length) [] outcome
  rw [List.drop_zero] at loop
  exact loop

/-- Without trimming every token is pushed. -/
theorem foldlM_push (tokens result : List Text) :
    tokens.foldlM (pushToken false) result = some (result ++ tokens) := by
  induction tokens generalizing result with
  | nil => rw [List.append_nil]; rfl
  | cons token tokens ih =>
    have pushed : pushToken false result token = some (result ++ [token]) := rfl
    rw [List.foldlM_cons, pushed, Option.bind_eq_bind, Option.bind_some, ih, List.append_assoc,
      List.singleton_append]

/-- With trimming there must not be an empty token. -/
theorem foldlM_push_trimmed_iff {tokens : List Text} (small : ∀ token ∈ tokens, token.length < 2 ^ 63)
    (result outcome : List Text) : tokens.foldlM (pushToken true) result = some outcome ↔
      [] ∉ tokens ∧ outcome = result ++ (tokens.map stripped).filter (!·.isEmpty) := by
  induction tokens generalizing result with
  | nil => simp [eq_comm]
  | cons token tokens ih =>
    rw [List.foldlM_cons]
    by_cases empty : token = []
    · subst empty
      rw [pushToken, if_pos rfl, trim_nil]
      simp
    · have pushed : pushToken true result token =
          some (result ++ ([token].map stripped).filter (!·.isEmpty)) := by
        rw [pushToken, if_pos rfl, trim_eq empty (small token (by simp))]
        cases isStripped : stripped token <;> simp [isStripped]
      rw [pushed, Option.bind_eq_bind, Option.bind_some, ih fun token member => small token (by simp [member])]
      rw [List.mem_cons, not_or, and_iff_right (Ne.symm empty), List.append_assoc, ← List.filter_append,
        ← List.map_append, List.singleton_append]

/-- A token is empty where a delimiter is found at the start, or directly behind another one. -/
theorem nil_mem_tokensOf_iff (search : Search UInt8) (input : Text) :
    [] ∈ tokensOf (search.pieces input) ↔ search.Crowded input := by
  induction input using Search.induction search with
  | none text nothing =>
    rw [Search.pieces_of_none nothing, tokensOf_singleton]
    refine iff_of_false ?_ (Search.not_crowded nothing)
    split
    · exact List.not_mem_nil
    · rename_i kept
      exact fun member => kept (List.mem_singleton.mp member).symm
  | some text place found ih =>
    have positive := search.positive
    have fits := search.inside text place found
    have first : [] = text.take place ↔ place = 0 := by
      rw [eq_comm, List.take_eq_nil_iff, or_iff_left_iff_imp]
      rintro rfl
      rw [List.length_nil] at fits
      omega
    rw [Search.pieces_of_some found, tokensOf_cons (Search.pieces_ne_nil _), List.mem_cons, first, ih,
      Search.crowded_iff found]

/-- What a call with trimming returns, and that it returns if no token is empty before it is trimmed. -/
theorem returns_trimmed_iff {search : Search UInt8} {input : Text} (small : input.length < 2 ^ 63)
    {round : Splitting → Round Splitting (Option (List Text))}
    (ends : ∀ outcome, Round.Ends round ⟨0, []⟩ outcome ↔
      outcome = (tokensOf (search.pieces input)).foldlM (pushToken true) []) (tokens : List Text) :
    Returns round tokens ↔ ¬ search.Crowded input ∧
      tokens = ((tokensOf (search.pieces input)).map stripped).filter (!·.isEmpty) := by
  have short : ∀ token ∈ tokensOf (search.pieces input), token.length < 2 ^ 63 := fun token member =>
    (Search.length_le_of_mem_pieces input token (mem_of_mem_tokensOf member)).trans_lt small
  rw [Returns, ends, eq_comm, foldlM_push_trimmed_iff short, nil_mem_tokensOf_iff, List.nil_append]

theorem find_nil {input : Text} {start : Nat} (within : start ≤ input.length) :
    find input [] start = some start := by
  rw [find_eq within, firstPlace_of_prefix List.nil_prefix]
  rfl

/-- The empty delimiter is found again where it is, and the empty tokens are pushed for ever. -/
theorem not_ends_split_nil (input : Text) (outcome : Option (List Text)) :
    ¬ Round.Ends (split input [] false) ⟨0, []⟩ outcome := by
  refine Round.not_ends (fun loop => loop.start ≤ input.length) ?_ (Nat.zero_le _)
  rintro ⟨start, result⟩ within
  refine ⟨⟨start, result ++ [[]]⟩, ?_, within⟩
  rw [split, splitRound, find_nil within]
  simp [pushToken]

/-- With trimming the first of them is trimmed, which is not defined. -/
theorem ends_split_nil_iff (input : Text) (outcome : Option (List Text)) :
    Round.Ends (split input [] true) ⟨0, []⟩ outcome ↔ outcome = none := by
  refine Round.ends_of_ends ?_
  rw [split, splitRound, find_nil (Nat.zero_le _)]
  simp [pushToken, trim_nil]

theorem not_returns_split_nil (input : Text) (trims : Bool) (tokens : List Text) :
    ¬ Returns (split input [] trims) tokens := by
  cases trims with
  | false => exact not_ends_split_nil input _
  | true => exact fun returns => nomatch (ends_split_nil_iff input _).mp returns

end BTool.StringConvert
