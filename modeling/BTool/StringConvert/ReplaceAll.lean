import BTool.Foundation.Rounds
import BTool.Foundation.TextPieces
import BTool.StringConvert.Trim

/-! `StringConvert::ReplaceAll`, which replaces in place. The search goes on behind as many characters as were
replaced, and not behind what was put there. -/

namespace BTool.StringConvert

open BTool.Foundation

/-- What the loop keeps. -/
structure Replacing where
  ret : Text
  pos : Nat

def replaceAll (src dest : Text) (loop : Replacing) : Round Replacing Text :=
  match find loop.ret src loop.pos with
  | some pos => .again ⟨loop.ret.take pos ++ dest ++ loop.ret.drop (pos + src.length), pos + src.length⟩
  | none => .ends loop.ret

/-- The call returns this text. -/
def ReplaceReturns (str src dest result : Text) : Prop := Round.Ends (replaceAll src dest) ⟨str, 0⟩ result

/-- Where the text is that a round replaces. -/
def replacedAt (src dest : Text) (loop : Replacing) (round : Nat) : Option Nat :=
  (Round.after (replaceAll src dest) round loop).bind fun loop => find loop.ret src loop.pos

/-- Where the gap between a piece and the next one is, when the gaps before are filled. -/
def gap (dest : Text) (pieces : List Text) (round : Nat) : Option Nat :=
  if round + 1 < pieces.length then some (dest.intercalate (pieces.take (round + 1))).length else none

/-- The occurrences of `src` that follow one another in the text are replaced, and nothing else. -/
structure ReplacesOnce (str src dest : Text) : Prop where
  result : ReplaceReturns str src dest (dest.intercalate (cuts src str))
  places : ∀ round, replacedAt src dest ⟨str, 0⟩ round = gap dest (cuts src str) round

/-- Behind as many characters of `dest` as `src` has, the next occurrence is found and nothing before it, not even
in part in front of it; and behind the last one nothing. -/
structure Undisturbed (src dest : Text) (pieces : List Text) : Prop where
  between : ∀ piece ∈ pieces.dropLast, src.length ≤ dest.length + piece.length ∧
    ¬ src <:+: ((dest ++ piece).drop src.length ++ src).dropLast
  behind : ∀ piece ∈ pieces.getLast?, ¬ src <:+: (dest ++ piece).drop src.length

/-- The loop behind a replacement. -/
def replaced (src dest front rest : Text) : Replacing := ⟨front ++ dest ++ rest, front.length + src.length⟩

variable {src dest : Text}

theorem find_replaced (nonempty : src ≠ []) (dest front rest : Text) :
    find (replaced src dest front rest).ret src (replaced src dest front rest).pos =
      (firstPlace src ((dest ++ rest).drop src.length)).map (front.length + src.length + ·) := by
  rw [replaced, find_of_nonempty nonempty, List.append_assoc, List.drop_length_add_append]

/-- Nothing is found. -/
theorem replaceAll_of_none (dest : Text) {loop : Replacing} (nothing : find loop.ret src loop.pos = none) :
    replaceAll src dest loop = .ends loop.ret := by
  rw [replaceAll, nothing]

/-- Something is found, with a text in front of it and a text behind it. -/
theorem replaceAll_of_some (dest : Text) {loop : Replacing} {front rest : Text}
    (found : find loop.ret src loop.pos = some front.length) (split : loop.ret = front ++ src ++ rest) :
    replaceAll src dest loop = .again (replaced src dest front rest) := by
  rw [replaceAll, found]
  have taken : loop.ret.take front.length = front := by rw [split, List.append_assoc, List.take_left]
  have dropped : loop.ret.drop (front.length + src.length) = rest := by
    rw [split, ← List.length_append, List.drop_left]
  dsimp only
  rw [taken, dropped]
  rfl

theorem replaceAll_goes (dest : Text) {loop : Replacing} {place : Nat}
    (found : find loop.ret src loop.pos = some place) : replaceAll src dest loop = .again
      (replaced src dest (loop.ret.take place) (loop.ret.drop (place + src.length))) := by
  obtain ⟨_, inside, split⟩ := find_split found
  refine replaceAll_of_some dest (found.trans (congrArg some ?_)) split
  rw [List.length_take, Nat.min_eq_left (by omega)]

section Returns

/-- The empty text is found where it is. -/
theorem not_replaceReturns_nil (str dest result : Text) : ¬ ReplaceReturns str [] dest result := by
  refine Round.not_ends (fun loop => loop.pos ≤ loop.ret.length) ?_ (Nat.zero_le _)
  intro loop within
  have found : find loop.ret [] loop.pos = some loop.pos := by
    rw [find_eq within, firstPlace_of_prefix List.nil_prefix]
    rfl
  refine ⟨_, replaceAll_goes dest found, ?_⟩
  simp only [replaced, List.length_append, List.length_take, List.length_nil]
  omega

/-- What is put in has the text in it where the search goes on. -/
theorem not_ends_replaced (nonempty : src ≠ []) (within : src <:+: dest.drop src.length)
    (front rest result : Text) : ¬ Round.Ends (replaceAll src dest) (replaced src dest front rest) result := by
  refine Round.not_ends (fun loop => ∃ front rest, loop = replaced src dest front rest) ?_ ⟨front, rest, rfl⟩
  rintro _ ⟨front, rest, rfl⟩
  have positive := List.length_pos_iff.mpr nonempty
  have long := within.length_le
  rw [List.length_drop] at long
  obtain ⟨place, found, _⟩ := firstPlace_append rest within
  rw [← List.drop_append_of_le_length (by omega)] at found
  have foundInRet := find_replaced nonempty dest front rest
  rw [found, Option.map_some] at foundInRet
  exact ⟨_, replaceAll_goes dest foundInRet, _, _, rfl⟩

/-- What is found reaches into the text that was there, of which less is left. -/
theorem ends_replaced (nonempty : src ≠ []) (absent : ¬ src <:+: dest.drop src.length) (front rest : Text) :
    ∃ result, Round.Ends (replaceAll src dest) (replaced src dest front rest) result := by
  refine Round.exists_ends (fun loop => ∃ front rest, loop = replaced src dest front rest)
    (fun loop => loop.ret.length - loop.pos) ?_ ⟨front, rest, rfl⟩
  rintro _ later ⟨front, rest, rfl⟩ turn
  have positive := List.length_pos_iff.mpr nonempty
  have foundInRet := find_replaced nonempty dest front rest
  cases found : firstPlace src ((dest ++ rest).drop src.length) with
  | none =>
    rw [found] at foundInRet
    cases (replaceAll_of_none dest foundInRet).symm.trans turn
  | some place =>
    rw [found, Option.map_some] at foundInRet
    obtain ⟨_, inside, _⟩ := find_split foundInRet
    have reaches : (dest.drop src.length).length < place + src.length := by
      by_contra short
      obtain ⟨_, stands, _⟩ := firstPlace_eq_some_iff.mp found
      rw [List.drop_append, List.drop_append_of_le_length (by omega)] at stands
      refine absent ((List.prefix_of_prefix_length_le stands (List.prefix_append ..) ?_).isInfix.trans
        (List.drop_suffix ..).isInfix)
      rw [List.length_drop]
      omega
    cases (replaceAll_goes dest foundInRet).symm.trans turn
    refine ⟨⟨_, _, rfl⟩, ?_⟩
    simp only [replaced, List.length_append, List.length_take, List.length_drop] at inside reaches ⊢
    omega

/-- `ReplaceAll` returns unless it looks for the empty text, or replaces something by what has it again where the
search goes on. -/
theorem exists_replaceReturns_iff (str src dest : Text) : (∃ result, ReplaceReturns str src dest result) ↔
    src ≠ [] ∧ ¬ (src <:+: str ∧ src <:+: dest.drop src.length) := by
  by_cases nonempty : src ≠ []
  swap
  · obtain rfl := not_not.mp nonempty
    exact iff_of_false (fun ⟨result, returns⟩ => not_replaceReturns_nil str dest result returns)
      fun both => both.1 rfl
  rw [and_iff_right nonempty]
  have start : find str src 0 = _ := find_of_nonempty nonempty 0
  cases found : firstPlace src str with
  | none =>
    rw [List.drop_zero, found] at start
    have absent := firstPlace_eq_none_iff.mp found
    refine iff_of_true ⟨str, ?_⟩ fun both => absent both.1
    exact (Round.ends_of_ends (replaceAll_of_none dest start)).mpr rfl
  | some place =>
    rw [List.drop_zero, found, Option.map_some, Nat.zero_add] at start
    have stands : src <:+: str := exists_firstPlace_iff.mp ⟨place, found⟩
    have turn (result : Text) : ReplaceReturns str src dest result ↔ Round.Ends (replaceAll src dest)
        (replaced src dest (str.take place) (str.drop (place + src.length))) result :=
      Round.ends_of_again (replaceAll_goes dest start)
    simp only [turn, stands, true_and]
    constructor
    · rintro ⟨result, ended⟩ within
      exact not_ends_replaced nonempty within _ _ result ended
    · exact fun absent => ends_replaced nonempty absent _ _

end Returns

section Once

theorem gap_zero {pieces : List Text} (more : pieces ≠ []) (dest piece : Text) :
    gap dest (piece :: pieces) 0 = some piece.length := by
  have positive := List.length_pos_iff.mpr more
  rw [gap, List.length_cons, if_pos (by omega), List.take_succ_cons, List.take_zero, List.intercalate_singleton]

theorem gap_succ (dest piece : Text) (pieces : List Text) (round : Nat) :
    gap dest (piece :: pieces) (round + 1) = (gap dest pieces round).map (piece.length + dest.length + ·) := by
  unfold gap
  rw [List.length_cons]
  by_cases inside : round + 1 < pieces.length
  · have more : pieces.take (round + 1) ≠ [] := by
      rw [Ne, List.take_eq_nil_iff]
      rintro (none | rfl)
      · cases none
      · cases inside
    rw [if_pos inside, if_pos (by omega), List.take_succ_cons, List.intercalate_cons_of_ne_nil more,
      Option.map_some, List.length_append, List.length_append]
  · rw [if_neg inside, if_neg (by omega)]
    rfl

theorem gap_first {pieces : List Text} (more : pieces ≠ []) (front dest piece : Text) :
    (gap dest (piece :: pieces) 0).map ((front ++ dest).length + ·) = some (front ++ dest ++ piece).length := by
  rw [gap_zero more, Option.map_some, ← List.length_append]

theorem gap_later (front dest piece : Text) (pieces : List Text) (round : Nat) :
    (gap dest (piece :: pieces) (round + 1)).map ((front ++ dest).length + ·) =
      (gap dest pieces round).map ((front ++ dest ++ piece ++ dest).length + ·) := by
  rw [gap_succ, Option.map_map]
  congr 1
  funext offset
  simp only [Function.comp_apply, List.length_append]
  omega

theorem gap_singleton (dest piece : Text) (round : Nat) : gap dest [piece] round = none := by
  rw [gap, List.length_singleton, if_neg (by omega)]

theorem undisturbed_singleton {piece : Text} :
    Undisturbed src dest [piece] ↔ ¬ src <:+: (dest ++ piece).drop src.length := by
  refine ⟨fun whole => whole.behind piece rfl, fun absent => ⟨nofun, ?_⟩⟩
  intro other isOther
  obtain rfl := Option.some.inj isOther
  exact absent

theorem undisturbed_cons {piece : Text} {pieces : List Text} (more : pieces ≠ []) :
    Undisturbed src dest (piece :: pieces) ↔ (src.length ≤ dest.length + piece.length ∧
      ¬ src <:+: ((dest ++ piece).drop src.length ++ src).dropLast) ∧ Undisturbed src dest pieces := by
  have last : (piece :: pieces).getLast? = pieces.getLast? := List.getLast?_cons_of_ne_nil more
  constructor
  · rintro ⟨between, behind⟩
    rw [List.dropLast_cons_of_ne_nil more, List.forall_mem_cons] at between
    exact ⟨between.1, between.2, last ▸ behind⟩
  · rintro ⟨first, between, behind⟩
    refine ⟨?_, last.symm ▸ behind⟩
    rw [List.dropLast_cons_of_ne_nil more, List.forall_mem_cons]
    exact ⟨first, between⟩

/-- Behind a replacement, the next occurrence is what is found. -/
theorem find_replaced_iff (nonempty : src ≠ []) (dest front piece rest : Text) :
    find (replaced src dest front (piece ++ src ++ rest)).ret src
        (replaced src dest front (piece ++ src ++ rest)).pos = some (front ++ dest ++ piece).length ↔
      src.length ≤ dest.length + piece.length ∧
        ¬ src <:+: ((dest ++ piece).drop src.length ++ src).dropLast := by
  rw [find_replaced nonempty, Option.map_eq_some_iff]
  have split (fits : src.length ≤ dest.length + piece.length) :
      (dest ++ (piece ++ src ++ rest)).drop src.length =
        (dest ++ piece).drop src.length ++ src ++ rest := by
    rw [List.append_assoc, ← List.append_assoc dest, List.drop_append_of_le_length
      (by rwa [List.length_append]), List.append_assoc]
  have size (fits : src.length ≤ dest.length + piece.length) :
      front.length + src.length + ((dest ++ piece).drop src.length).length =
        (front ++ dest ++ piece).length := by
    simp only [List.length_append, List.length_drop]
    omega
  constructor
  · rintro ⟨place, found, isPlace⟩
    have fits : src.length ≤ dest.length + piece.length := by
      simp only [List.length_append] at isPlace
      omega
    have sized := size fits
    obtain rfl : place = ((dest ++ piece).drop src.length).length := by omega
    rw [split fits] at found
    have absent := not_infix_dropLast nonempty found
    rw [List.append_assoc, List.take_left] at absent
    exact ⟨fits, absent⟩
  · rintro ⟨fits, absent⟩
    refine ⟨((dest ++ piece).drop src.length).length, ?_, size fits⟩
    rw [split fits]
    exact firstPlace_append_word absent

theorem replacedAt_succ {loop later : Replacing} (turn : replaceAll src dest loop = .again later)
    (round : Nat) : replacedAt src dest loop (round + 1) = replacedAt src dest later round := by
  rw [replacedAt, Round.after, turn]
  rfl

theorem replacedAt_none {loop : Replacing} (nothing : find loop.ret src loop.pos = none) (dest : Text)
    (round : Nat) : replacedAt src dest loop round = none := by
  cases round with
  | zero => exact nothing
  | succ round =>
    rw [replacedAt, Round.after, replaceAll_of_none dest nothing]
    rfl

/-- A round replaces what is first to be replaced, and the rounds behind it replace the rest. -/
theorem replaces_iff_later {loop later : Replacing} {result : Text} {places : Nat → Option Nat}
    (turn : replaceAll src dest loop = .again later) (first : find loop.ret src loop.pos = places 0) :
    (Round.Ends (replaceAll src dest) loop result ∧ ∀ round, replacedAt src dest loop round = places round) ↔
      Round.Ends (replaceAll src dest) later result ∧
        ∀ round, replacedAt src dest later round = places (round + 1) := by
  rw [Round.ends_of_again turn]
  refine and_congr_right fun _ => ?_
  constructor
  · intro all round
    exact (replacedAt_succ turn round).symm.trans (all (round + 1))
  · intro all round
    cases round with
    | zero => exact first
    | succ round => exact (replacedAt_succ turn round).trans (all round)

/-- The rest of the loop behind a replacement fills the gaps of the rest of the text. -/
theorem fills_iff (nonempty : src ≠ []) (front rest : Text) :
    (Round.Ends (replaceAll src dest) (replaced src dest front rest)
        (front ++ dest ++ dest.intercalate (cuts src rest)) ∧
      ∀ round, replacedAt src dest (replaced src dest front rest) round =
        (gap dest (cuts src rest) round).map ((front ++ dest).length + ·)) ↔
      Undisturbed src dest (cuts src rest) := by
  induction rest using Search.induction (wordSearch src nonempty) generalizing front with
  | none text nothing =>
    rw [cuts_of_none nonempty nothing, undisturbed_singleton, List.intercalate_singleton]
    have start := find_replaced nonempty dest front text
    constructor
    · rintro ⟨_, places⟩
      have first : find _ src _ = _ := places 0
      rw [start, gap_singleton, Option.map_none, Option.map_eq_none_iff] at first
      exact firstPlace_eq_none_iff.mp first
    · intro absent
      rw [firstPlace_eq_none_iff.mpr absent, Option.map_none] at start
      refine ⟨(Round.ends_of_ends (replaceAll_of_none dest start)).mpr rfl, fun round => ?_⟩
      rw [gap_singleton, Option.map_none]
      exact replacedAt_none start dest round
  | some text place found ih =>
    have split := take_word_drop found
    have here := find_replaced_iff nonempty dest front (text.take place) (text.drop (place + src.length))
    rw [← split] at here
    have more := cuts_ne_nil nonempty (text.drop (place + src.length))
    rw [cuts_of_some nonempty found, undisturbed_cons more, ← here]
    by_cases first : find (replaced src dest front text).ret src (replaced src dest front text).pos =
      some (front ++ dest ++ text.take place).length
    swap
    · refine iff_of_false (fun both => first ?_) fun both => first both.1
      exact (both.2 0).trans (gap_first more ..)
    have parts : (replaced src dest front text).ret =
        front ++ dest ++ text.take place ++ src ++ text.drop (place + src.length) := by
      rw [List.append_assoc _ _ src, List.append_assoc, ← split]
      rfl
    have turn := replaceAll_of_some dest first parts
    have whole : front ++ dest ++
        dest.intercalate (text.take place :: cuts src (text.drop (place + src.length))) =
        front ++ dest ++ text.take place ++ dest ++
          dest.intercalate (cuts src (text.drop (place + src.length))) := by
      rw [List.intercalate_cons_of_ne_nil more]
      simp only [List.append_assoc]
    rw [and_iff_right first, replaces_iff_later turn (first.trans (gap_first more ..).symm), whole]
    simp only [gap_later]
    exact ih (front ++ dest ++ text.take place)

theorem replacesOnce_iff_both {str : Text} : ReplacesOnce str src dest ↔
    ReplaceReturns str src dest (dest.intercalate (cuts src str)) ∧
      ∀ round, replacedAt src dest ⟨str, 0⟩ round = gap dest (cuts src str) round :=
  ⟨fun once => ⟨once.result, once.places⟩, fun both => ⟨both.1, both.2⟩⟩

theorem replacesOnce_iff (nonempty : src ≠ []) (str : Text) :
    ReplacesOnce str src dest ↔ Undisturbed src dest (cuts src str).tail := by
  have start : find str src 0 = _ := find_of_nonempty nonempty 0
  cases found : firstPlace src str with
  | none =>
    rw [List.drop_zero, found] at start
    rw [replacesOnce_iff_both, cuts_of_none nonempty found, List.intercalate_singleton]
    refine iff_of_true ⟨?_, fun round => ?_⟩ ⟨nofun, nofun⟩
    · exact (Round.ends_of_ends (replaceAll_of_none dest start)).mpr rfl
    · rw [gap_singleton]
      exact replacedAt_none start dest round
  | some place =>
    rw [List.drop_zero, found, Option.map_some, Nat.zero_add] at start
    have inside := (firstPlace_eq_some_iff.mp found).1
    have front : (str.take place).length = place := by rw [List.length_take, Nat.min_eq_left inside]
    have turn : replaceAll src dest ⟨str, 0⟩ = .again _ := replaceAll_goes dest start
    have more := cuts_ne_nil nonempty (str.drop (place + src.length))
    have whole : dest.intercalate (str.take place :: cuts src (str.drop (place + src.length))) =
        str.take place ++ dest ++ dest.intercalate (cuts src (str.drop (place + src.length))) :=
      List.intercalate_cons_of_ne_nil more
    have first : find str src 0 =
        gap dest (str.take place :: cuts src (str.drop (place + src.length))) 0 := by
      rw [gap_zero more, front, start]
    rw [replacesOnce_iff_both, cuts_of_some nonempty found, List.tail_cons, whole, ReplaceReturns,
      replaces_iff_later turn first, ← fills_iff nonempty (str.take place)]
    simp only [gap_succ, List.length_append]

/-- Where `ReplaceAll` returns it has replaced the occurrences of `src` and nothing else exactly if the search, which
goes on too early or too late where `dest` is not as long as `src`, finds the same occurrences all the same. -/
theorem replaces_once_iff (nonempty : src ≠ []) (str : Text) :
    ((∃ result, ReplaceReturns str src dest result) → ReplacesOnce str src dest) ↔
      (src <:+: str ∧ src <:+: dest.drop src.length) ∨ Undisturbed src dest (cuts src str).tail := by
  rw [exists_replaceReturns_iff, and_iff_right nonempty, replacesOnce_iff nonempty, ← or_iff_not_imp_left]

/-- `a,b` with a blank behind the comma. -/
theorem replaces_once_iff_comma : ReplaceReturns [97, 44, 98] [44] [44, 32] [97, 44, 32, 98] ∧
    ((∃ result, ReplaceReturns [97, 44, 98] [44] [44, 32] result) → ReplacesOnce [97, 44, 98] [44] [44, 32]) := by
  refine ⟨⟨2, by decide⟩, (replaces_once_iff (by decide) _).mpr (.inr ?_)⟩
  have pieces : (cuts [44] [97, 44, 98] : List Text) = [[97], [98]] := by decide
  rw [pieces, List.tail_cons, undisturbed_singleton]
  decide

/-- `abab` with `x` for `ab`, where the second occurrence is missed; and `abb` with `xxa` for `ab`, where what is put
in is replaced with what is behind it. -/
theorem not_replaces_once :
    ReplaceReturns [97, 98, 97, 98] [97, 98] [120] [120, 97, 98] ∧
      ¬ ((∃ result, ReplaceReturns [97, 98, 97, 98] [97, 98] [120] result) →
        ReplacesOnce [97, 98, 97, 98] [97, 98] [120]) ∧
    ReplaceReturns [97, 98, 98] [97, 98] [120, 120, 97] [120, 120, 120, 120, 97] ∧
      ¬ ((∃ result, ReplaceReturns [97, 98, 98] [97, 98] [120, 120, 97] result) →
        ReplacesOnce [97, 98, 98] [97, 98] [120, 120, 97]) := by
  have missed : ReplaceReturns [97, 98, 97, 98] [97, 98] [120] [120, 97, 98] := ⟨2, by decide⟩
  have inserted : ReplaceReturns [97, 98, 98] [97, 98] [120, 120, 97] [120, 120, 120, 120, 97] := ⟨3, by decide⟩
  refine ⟨missed, fun once => ?_, inserted, fun once => ?_⟩
  · exact absurd ((once ⟨_, missed⟩).result.unique missed) (by decide)
  · exact absurd ((once ⟨_, inserted⟩).result.unique inserted) (by decide)

end Once

end BTool.StringConvert
