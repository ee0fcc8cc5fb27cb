import BTool.StringConvert.Split

/-! What the tokens of `Split` and `SplitAny` are: nothing of the text is lost without trimming, and with it
they are stripped where `Trim` is defined. -/

namespace BTool.StringConvert

open BTool.Foundation

variable {input delimiter : Text}

/-- The delimiters that are found one behind the other, of which the last one ends the text. -/
def EndsIn (delimiter input : Text) : Prop := input ≠ [] ∧ (cuts delimiter input).getLast? = some []

/-- The text and the delimiters between its tokens, with one more at the end where that is one. -/
structure SplitsAt (delimiter input : Text) (tokens : List Text) : Prop where
  free : ∀ token ∈ tokens, ¬ delimiter <:+: token
  joined : delimiter.intercalate tokens = input ∨
    delimiter <:+ input ∧ delimiter.intercalate tokens ++ delimiter = input
  whole : ¬EndsIn delimiter input → delimiter.intercalate tokens = input
  trailing : EndsIn delimiter input → delimiter.intercalate tokens ++ delimiter = input

/-- The longest pieces of a text in which none of the characters is, but not an empty one at its end. -/
structure SplitsAtAny (delimiter input : Text) (tokens : List Text) : Prop where
  free : ∀ token ∈ tokens, ∀ chr ∈ token, chr ∉ delimiter
  /-- One more than there are characters to split at, unless the text ends in one or is empty. -/
  number : tokens.length = input.countP (· ∈ delimiter) +
    if input.getLast?.all (· ∈ delimiter) then 0 else 1
  pieces : tokens = tokensOf (input.splitOnP (· ∈ delimiter))

theorem intercalate_append_nil {tokens : List Text} (some : tokens ≠ []) (delimiter : Text) :
    delimiter.intercalate (tokens ++ [[]]) = delimiter.intercalate tokens ++ delimiter := by
  induction tokens with
  | nil => exact absurd rfl some
  | cons token tokens ih =>
    cases tokens with
    | nil => simp
    | cons next tokens =>
      have more : next :: tokens ≠ [] := List.cons_ne_nil next tokens
      have longer : next :: tokens ++ [[]] ≠ [] := List.append_ne_nil_of_left_ne_nil more _
      rw [List.cons_append, List.intercalate_cons_of_ne_nil longer, ih more,
        List.intercalate_cons_of_ne_nil more]
      simp only [List.append_assoc]

/-- The pieces between the delimiters, joined again. -/
theorem splitsAt_cuts (nonempty : delimiter ≠ []) (input : Text) :
    SplitsAt delimiter input (tokensOf (cuts delimiter input)) := by
  have whole := intercalate_cuts nonempty input
  have free := not_infix_of_mem_cuts nonempty input
  by_cases last : (cuts delimiter input).getLast? = some []
  · have append := tokensOf_append last
    have freeTokens : ∀ token ∈ tokensOf (cuts delimiter input), ¬ delimiter <:+: token := fun token member =>
      free token (mem_of_mem_tokensOf member)
    cases tokens : tokensOf (cuts delimiter input) with
    | nil =>
      rw [tokens, List.nil_append] at append
      have empty : input = [] := by rw [← whole, ← append, List.intercalate_singleton]
      exact ⟨nofun, .inl empty.symm, fun _ => empty.symm, fun ends => absurd empty ends.1⟩
    | cons first rest =>
      have more : tokensOf (cuts delimiter input) ≠ [] := by simp [tokens]
      have joined := intercalate_append_nil more delimiter
      rw [append, whole, tokens] at joined
      have ends : EndsIn delimiter input := by
        refine ⟨fun empty => nonempty ?_, last⟩
        exact (List.append_eq_nil_iff.mp (joined.symm.trans empty)).2
      refine ⟨tokens ▸ freeTokens, .inr ⟨?_, joined.symm⟩, fun other => absurd ends other, fun _ => joined.symm⟩
      exact ⟨_, joined.symm⟩
  · have all : tokensOf (cuts delimiter input) = cuts delimiter input := if_neg last
    rw [all]
    exact ⟨free, .inl whole, fun _ => whole, fun ends => absurd ends.2 last⟩

/-- The text in front of the first of some characters has none of them. -/
theorem anySearch_found {text : Text} {place : Nat} (found : (anySearch delimiter).first text = some place) :
    ∃ chr ∈ delimiter, text = text.take place ++ chr :: text.drop (place + 1) ∧
      ∀ other ∈ text.take place, other ∉ delimiter := by
  obtain ⟨inside, isChr, first⟩ := List.findIdx?_eq_some_iff_getElem.mp found
  refine ⟨text[place], by simpa using isChr, ?_, ?_⟩
  · rw [← List.drop_eq_getElem_cons inside, List.take_append_drop]
  · intro other member
    obtain ⟨earlier, within, rfl⟩ := List.mem_iff_getElem.mp member
    rw [List.length_take] at within
    simpa using first earlier (by omega)

theorem anySearch_none {text : Text} (nothing : (anySearch delimiter).first text = none) :
    ∀ chr ∈ text, chr ∉ delimiter := by
  intro chr member
  simpa using List.findIdx?_eq_none_iff.mp nothing chr member

theorem pieces_anySearch (delimiter input : Text) :
    (anySearch delimiter).pieces input = input.splitOnP (· ∈ delimiter) := by
  induction input using Search.induction (anySearch delimiter) with
  | none text nothing =>
    rw [Search.pieces_of_none nothing, List.splitOnP_eq_singleton]
    exact fun chr member => decide_eq_false (anySearch_none nothing chr member)
  | some text place found ih =>
    obtain ⟨chr, isChr, split, free⟩ := anySearch_found found
    rw [Search.pieces_of_some found, ih]
    conv_rhs => rw [split]
    rw [List.splitOnP_append_cons_of_forall_mem (fun other member => decide_eq_false (free other member)) chr
      (decide_eq_true isChr)]
    rfl

/-- One piece more than there are characters to split at. -/
theorem length_pieces_anySearch (delimiter input : Text) :
    ((anySearch delimiter).pieces input).length = input.countP (· ∈ delimiter) + 1 := by
  induction input using Search.induction (anySearch delimiter) with
  | none text nothing =>
    have free : text.countP (· ∈ delimiter) = 0 := by
      rw [List.countP_eq_zero]
      exact fun chr member => by simpa using anySearch_none nothing chr member
    rw [Search.pieces_of_none nothing, free]
    rfl
  | some text place found ih =>
    obtain ⟨chr, isChr, split, free⟩ := anySearch_found found
    have front : (text.take place).countP (· ∈ delimiter) = 0 := by
      rw [List.countP_eq_zero]
      exact fun other member => by simpa using free other member
    rw [Search.pieces_of_some found, List.length_cons, ih]
    have here : decide (chr ∈ delimiter) = true := decide_eq_true isChr
    conv_rhs => rw [split, List.countP_append, front, List.countP_cons, here, if_pos rfl]
    rw [Nat.zero_add]
    rfl

/-- The last piece is empty where the text is, or ends in one of the characters. -/
theorem getLast?_pieces_anySearch (delimiter input : Text) :
    ((anySearch delimiter).pieces input).getLast? = some [] ↔ input.getLast?.all (· ∈ delimiter) = true := by
  induction input using Search.induction (anySearch delimiter) with
  | none text nothing =>
    have free := anySearch_none nothing
    rw [Search.pieces_of_none nothing, List.getLast?_singleton, Option.some.injEq]
    cases last : text.getLast? with
    | none => exact iff_of_true (List.getLast?_eq_none_iff.mp last) rfl
    | some chr =>
      have notChr : chr ∉ delimiter := free chr (List.mem_of_getLast? last)
      refine iff_of_false ?_ (by simpa using notChr)
      rintro rfl
      cases last
  | some text place found ih =>
    obtain ⟨chr, isChr, split, free⟩ := anySearch_found found
    have ends : text.getLast? = some ((text.drop (place + 1)).getLast?.getD chr) := by
      conv_lhs => rw [split, List.getLast?_append, List.getLast?_cons, Option.some_or]
    rw [Search.pieces_of_some found, List.getLast?_cons_of_ne_nil (Search.pieces_ne_nil _)]
    refine ih.trans ?_
    rw [ends]
    change (text.drop (place + 1)).getLast?.all _ = true ↔ _
    cases (text.drop (place + 1)).getLast? with
    | none => simpa using isChr
    | some other => rfl

/-- In no piece is one of the characters. -/
theorem free_of_mem_pieces (delimiter input : Text) :
    ∀ piece ∈ (anySearch delimiter).pieces input, ∀ chr ∈ piece, chr ∉ delimiter := by
  induction input using Search.induction (anySearch delimiter) with
  | none text nothing =>
    rw [Search.pieces_of_none nothing]
    intro piece member
    rw [List.mem_singleton.mp member]
    exact anySearch_none nothing
  | some text place found ih =>
    obtain ⟨_, _, _, free⟩ := anySearch_found found
    rw [Search.pieces_of_some found]
    exact List.forall_mem_cons.mpr ⟨free, ih⟩

theorem splitsAtAny_pieces (delimiter input : Text) :
    SplitsAtAny delimiter input (tokensOf ((anySearch delimiter).pieces input)) := by
  have number := length_pieces_anySearch delimiter input
  have last := getLast?_pieces_anySearch delimiter input
  refine ⟨?_, ?_, by rw [pieces_anySearch]⟩
  · exact fun token member => free_of_mem_pieces delimiter input token (mem_of_mem_tokensOf member)
  · unfold tokensOf
    by_cases ends : input.getLast?.all (· ∈ delimiter) = true
    · rw [if_pos (last.mpr ends), if_pos ends, List.length_dropLast, number]
      rfl
    · rw [if_neg (mt last.mp ends), if_neg ends]
      exact number

theorem returns_split_iff (nonempty : delimiter ≠ []) (input : Text) (tokens : List Text) :
    Returns (split input delimiter false) tokens ↔ tokens = tokensOf (cuts delimiter input) := by
  rw [Returns, ends_split_iff nonempty, foldlM_push, List.nil_append, Option.some.injEq]

theorem returns_splitAny_iff (input delimiter : Text) (tokens : List Text) :
    Returns (splitAny input delimiter false) tokens ↔ tokens = tokensOf ((anySearch delimiter).pieces input) := by
  rw [Returns, ends_splitAny_iff, foldlM_push, List.nil_append, Option.some.injEq]

/-- Without trimming `Split` and `SplitAny` return tokens, and lose nothing. -/
theorem split_loses_nothing (input delimiter : Text) :
    (delimiter ≠ [] → ∃ tokens, Returns (split input delimiter false) tokens ∧
      SplitsAt delimiter input tokens) ∧
    ∃ tokens, Returns (splitAny input delimiter false) tokens ∧ SplitsAtAny delimiter input tokens := by
  refine ⟨fun nonempty => ⟨_, ?_, splitsAt_cuts nonempty input⟩, _, ?_, splitsAtAny_pieces delimiter input⟩
  · exact (returns_split_iff nonempty input _).mpr rfl
  · exact (returns_splitAny_iff input delimiter _).mpr rfl

/-- `a,,b,` at `,`. -/
theorem split_loses_nothing_commas :
    (∃ tokens, Returns (split [97, 44, 44, 98, 44] [44] false) tokens ∧
      SplitsAt [44] [97, 44, 44, 98, 44] tokens) ∧
    ∃ tokens, Returns (splitAny [97, 44, 44, 98, 44] [44] false) tokens ∧
      SplitsAtAny [44] [97, 44, 44, 98, 44] tokens := by
  obtain ⟨whole, any⟩ := split_loses_nothing [97, 44, 44, 98, 44] [44]
  exact ⟨whole (by decide), any⟩

/-- The tokens are those that there are without trimming, which `Trim` strips; what is empty then is left out. -/
def TrimsTokens (input delimiter : Text) : Prop :=
  ∃ tokens, Returns (split input delimiter false) tokens ∧ (∀ token ∈ tokens, trim token = some (stripped token)) ∧
    Returns (split input delimiter true) ((tokens.map stripped).filter (!·.isEmpty))

theorem returns_split_trimmed_iff (nonempty : delimiter ≠ []) (small : input.length < 2 ^ 63) (tokens : List Text) :
    Returns (split input delimiter true) tokens ↔ ¬ (wordSearch delimiter nonempty).Crowded input ∧
      tokens = ((tokensOf (cuts delimiter input)).map stripped).filter (!·.isEmpty) := by
  have ends := ends_split_iff nonempty input true
  rw [cuts_eq nonempty] at ends ⊢
  exact returns_trimmed_iff small ends tokens

theorem trim_eq_stripped_iff {str : Text} (small : str.length < 2 ^ 63) :
    trim str = some (stripped str) ↔ str ≠ [] := by
  refine ⟨?_, fun nonempty => trim_eq nonempty small⟩
  rintro strips rfl
  cases trim_nil.symm.trans strips

theorem trimsTokens_iff (small : input.length < 2 ^ 63) : TrimsTokens input delimiter ↔
    ∃ nonempty : delimiter ≠ [], ¬ (wordSearch delimiter nonempty).Crowded input := by
  constructor
  · rintro ⟨tokens, returns, _, trims⟩
    have nonempty : delimiter ≠ [] := by
      rintro rfl
      exact not_returns_split_nil input false tokens returns
    exact ⟨nonempty, ((returns_split_trimmed_iff nonempty small _).mp trims).1⟩
  · rintro ⟨nonempty, apart⟩
    refine ⟨_, (returns_split_iff nonempty input _).mpr rfl, fun token member => ?_,
      (returns_split_trimmed_iff nonempty small _).mpr ⟨apart, rfl⟩⟩
    rw [cuts_eq nonempty] at member
    have short := Search.length_le_of_mem_pieces input token (mem_of_mem_tokensOf member)
    refine (trim_eq_stripped_iff (short.trans_lt small)).mpr ?_
    rintro rfl
    exact apart ((nil_mem_tokensOf_iff _ input).mp member)

/-- `Trim` strips every text but the empty one, and the tokens of `Split` unless one of them is that. -/
theorem trim_strips_iff (str input delimiter : Text) (small : str.length < 2 ^ 63) (smallInput : input.length < 2 ^ 63) :
    (trim str = some (stripped str) ↔ str ≠ []) ∧
      (TrimsTokens input delimiter ↔ ∃ nonempty : delimiter ≠ [], ¬ (wordSearch delimiter nonempty).Crowded input) :=
  ⟨trim_eq_stripped_iff small, trimsTokens_iff smallInput⟩

/-- A blank, and `a, b` at `,`. -/
theorem trim_strips_iff_commas : (trim [32] = some (stripped [32]) ↔ ([32] : Text) ≠ []) ∧
    (TrimsTokens [97, 44, 32, 98] [44] ↔
      ∃ nonempty : ([44] : Text) ≠ [], ¬ (wordSearch [44] nonempty).Crowded ([97, 44, 32, 98] : Text)) :=
  trim_strips_iff [32] [97, 44, 32, 98] [44] (by decide) (by decide)

/-- The empty text, and `a,,b` at `,`. -/
theorem not_trim_strips : ¬ (trim [] = some (stripped [])) ∧ ¬ TrimsTokens [97, 44, 44, 98] [44] := by
  refine ⟨fun strips => (trim_eq_stripped_iff (by decide)).mp strips rfl, fun trims => ?_⟩
  obtain ⟨nonempty, apart⟩ := (trimsTokens_iff (by decide)).mp trims
  have found : (wordSearch [44] nonempty).first ([97, 44, 44, 98] : Text) = some 1 :=
    (by decide : firstPlace ([44] : Text) [97, 44, 44, 98] = some 1)
  have again : (wordSearch [44] nonempty).first ([44, 98] : Text) = some 0 :=
    (by decide : firstPlace ([44] : Text) [44, 98] = some 0)
  exact apart ((Search.crowded_iff found).mpr (.inr ((Search.crowded_iff again).mpr (.inl rfl))))

end BTool.StringConvert
