import BTool.PbMessage.JsonBoundary

/-! What is known of the JSON library, and what it means for a text that begins within the body of a
package: no document with a member `msg` begins there. -/

namespace BTool.PbMessage

open BTool.Foundation

/-- White space and comments. -/
inductive Blank : List UInt8 → Prop where
  | nil : Blank []
  | space {char : UInt8} {rest : List UInt8} (white : char ∈ ascii [' ', '\t', '\n', '\r'])
      (later : Blank rest) : Blank (char :: rest)
  | block (comment : List UInt8) {rest : List UInt8} (later : Blank rest) :
      Blank (ascii ['/', '*'] ++ comment ++ ascii ['*', '/'] ++ rest)
  | line (comment : List UInt8) {last : UInt8} {rest : List UInt8} (ends : last ∈ ascii ['\n', '\r'])
      (later : Blank rest) : Blank (ascii ['/', '/'] ++ comment ++ last :: rest)

/-- What stands between the quotes of a string. -/
inductive Literal : List UInt8 → Prop where
  | nil : Literal []
  | plain {char : UInt8} {rest : List UInt8} (isPlain : char ∉ ascii ['"', '\\']) (later : Literal rest) :
      Literal (char :: rest)
  | escaped {char : UInt8} {rest : List UInt8}
      (kind : char ∈ ascii ['"', '\\', '/', 'b', 'f', 'n', 'r', 't', 'u']) (later : Literal rest) :
      Literal (92 :: char :: rest)

/-- A text that begins, behind a byte order mark, white space and comments, with an object whose first
member has this name. -/
def BeginsWithMember (text name : List UInt8) : Prop :=
  ∃ mark front between literal rest, (mark = [] ∨ mark = [0xef, 0xbb, 0xbf]) ∧ Blank front ∧
    Blank between ∧ Literal literal ∧ (92 ∉ literal → name = literal) ∧
    text = mark ++ front ++ 123 :: (between ++ 34 :: (literal ++ 34 :: rest))

open NPPbJsonPackage in
/-- What JsonCpp documents, as far as these packages need it. -/
structure JsonCpp.Documented (json : JsonCpp) (items : List Item) : Prop where
  /-- The reader makes of a text the first document in it. -/
  readsBack : ∀ item ∈ items, ∀ rest, json.parse (encodePackage json item ++ rest) = some (document item)
  /-- The writer writes strings. -/
  literal : ∀ item ∈ items, Literal (bodyText json item)
  /-- The writer writes letters as themselves, and no escape has one of `m`, `s` and `g`. -/
  letters : ∀ item ∈ items,
    (commJsonMsg <:+: bodyText json item ↔ commJsonMsg <:+: cString item.sendMsg)
  /-- A text of which the reader makes an object with one member begins with one. -/
  begins : ∀ text name value, json.parse text = some (.object [(name, value)]) →
    BeginsWithMember text name

/-- The characters behind which the first quote of an object may stand. -/
def opening : List UInt8 := ascii [' ', '\t', '\n', '\r', '/', '{']

private theorem opening_of_white :
    ∀ char ∈ ascii [' ', '\t', '\n', '\r'], char ∈ opening ∧ char ≠ 123 := by decide +kernel

private theorem opening_of_line : ∀ char ∈ ascii ['\n', '\r'], char ∈ opening ∧ char ≠ 123 := by
  decide +kernel

theorem Blank.last {blank : List UInt8} (isBlank : Blank blank) :
    blank = [] ∨ ∃ front char, blank = front ++ [char] ∧ char ∈ opening ∧ char ≠ 123 := by
  induction isBlank with
  | nil => exact .inl rfl
  | @space char rest white _ ih =>
    rcases ih with rfl | ⟨front, last, rfl, isLast⟩
    · exact .inr ⟨[], char, rfl, opening_of_white char white⟩
    · exact .inr ⟨char :: front, last, rfl, isLast⟩
  | @block comment rest _ ih =>
    rcases ih with rfl | ⟨front, last, rfl, isLast⟩
    · exact .inr ⟨ascii ['/', '*'] ++ comment ++ ascii ['*'], 47, by simp [ascii], by decide⟩
    · exact .inr ⟨ascii ['/', '*'] ++ comment ++ ascii ['*', '/'] ++ front, last, by simp, isLast⟩
  | @line comment char rest ends _ ih =>
    rcases ih with rfl | ⟨front, last, rfl, isLast⟩
    · exact .inr ⟨ascii ['/', '/'] ++ comment, char, rfl, opening_of_line char ends⟩
    · exact .inr ⟨ascii ['/', '/'] ++ comment ++ char :: front, last, by simp, isLast⟩

/-- What follows a character that needs no escape is the text of a string again. -/
theorem Literal.behind {front back : List UInt8} (literal : Literal (front ++ 125 :: back)) :
    Literal back := by
  generalize whole : front ++ 125 :: back = text at literal
  induction literal generalizing front with
  | nil => simp at whole
  | @plain char rest _ later ih =>
    cases front with
    | nil =>
      obtain ⟨_, rfl⟩ := List.cons.inj whole
      exact later
    | cons symbol front => exact ih (List.cons.inj whole).2
  | @escaped char rest kind later ih =>
    match front, whole with
    | [], whole => exact absurd (List.cons.inj whole).1 (by decide)
    | [_], whole =>
      obtain ⟨rfl, _⟩ := List.cons.inj (List.cons.inj whole).2
      exact absurd kind (by decide)
    | _ :: _ :: front, whole => exact ih (List.cons.inj (List.cons.inj whole).2).2

/-- A quote behind these two characters and in front of this text is not the first of an object's first
name, unless that name is a comma or the object is a package or its message. -/
def Tame (before last : UInt8) (rest : List UInt8) : Prop :=
  last ∉ opening ∨ (∃ more, rest = 44 :: 34 :: more) ∨ (last = 123 ∧ (before = 125 ∨ before = 58))

/-- All quotes of a text are such, the text standing behind these two characters. -/
def Closed : UInt8 → UInt8 → List UInt8 → Prop
  | _, _, [] => True
  | before, last, char :: rest => (char = 34 → Tame before last rest) ∧ Closed last char rest

theorem closed_of_literal {literal rest : List UInt8} (isLiteral : Literal literal)
    (later : ∀ before last, Closed before last rest) (begins : ∃ more, rest = 44 :: 34 :: more)
    (before last : UInt8) : Closed before last (literal ++ 34 :: rest) := by
  induction isLiteral generalizing before last with
  | nil => exact ⟨fun _ => .inr (.inl begins), later _ _⟩
  | @plain char _ isPlain _ ih =>
    refine ⟨fun quote => absurd isPlain ?_, ih _ _⟩
    rw [quote]
    decide
  | @escaped char _ kind _ ih =>
    exact ⟨fun quote => absurd quote (by decide), fun _ => .inl (by decide), ih _ _⟩

/-- A part without quotes changes nothing. -/
theorem closed_append {part rest : List UInt8} (noQuote : 34 ∉ part)
    (later : ∀ before last, Closed before last rest) (before last : UInt8) :
    Closed before last (part ++ rest) := by
  induction part generalizing before last with
  | nil => exact later before last
  | cons char part ih =>
    rw [List.mem_cons, not_or] at noQuote
    exact ⟨fun quote => absurd quote.symm noQuote.1, ih noQuote.2 _ _⟩

namespace NPPbJsonPackage

variable {json : JsonCpp} {items : List Item} {rest : List UInt8}

theorem closed_decimal (number : Nat) (later : ∀ before last, Closed before last rest)
    (before last : UInt8) : Closed before last (decimal number ++ rest) :=
  closed_append (not_mem_decimal (by decide)) later before last

theorem closed_headText (item : Item) (later : ∀ before last, Closed before last rest)
    (before : UInt8) : Closed before 125 (headText item ++ 34 :: rest) := by
  have data (before last : UInt8) :
      Closed before last (ascii [',', '"', 'd', 'a', 't', 'a', '"', ':'] ++ 34 :: rest) := by
    simp [Closed, Tame, opening, ascii, later]
  have command {tail : List UInt8} (later : ∀ before last, Closed before last tail)
      (before last : UInt8) :
      Closed before last (ascii [',', '"', 'c', 'm', 'd', '"', ':'] ++ tail) := by
    simp [Closed, Tame, opening, ascii, later]
  have start {tail : List UInt8} (later : ∀ before last, Closed before last tail) :
      Closed before 125 (ascii ['{', '"', 'm', 's', 'g', '"', ':', '{', '"', 'c', 'h', 'k', '"', ':'] ++
        tail) := by
    simp [Closed, Tame, opening, ascii, later]
  simp only [headText, List.append_assoc]
  exact start (closed_decimal _ (command (closed_decimal _ data)))

theorem closed_footText (item : Item) (later : ∀ before, Closed before 125 rest)
    (before last : UInt8) : Closed before last (footText item ++ rest) := by
  have finish (before last : UInt8) : Closed before last (ascii ['}', '}'] ++ rest) := by
    simp [Closed, ascii, later]
  have start {tail : List UInt8} (later : ∀ before last, Closed before last tail) :
      Closed before last (ascii [',', '"', 'l', 'e', 'n', '"', ':'] ++ tail) := by
    simp [Closed, Tame, opening, ascii, later]
  simp only [footText, List.append_assoc]
  exact start (closed_decimal _ finish)

/-- Behind the text of a body. -/
theorem closed_behind {literal : List UInt8} (isLiteral : Literal literal) (item : Item)
    (later : ∀ before, Closed before 125 rest) (before last : UInt8) :
    Closed before last (literal ++ 34 :: (footText item ++ rest)) :=
  closed_of_literal isLiteral (closed_footText item later) ⟨_, rfl⟩ before last

/-- Packages one behind the other. -/
theorem closed_items (literal : ∀ item ∈ items, Literal (bodyText json item)) (before : UInt8) :
    Closed before 125 (items.flatMap (encodePackage json)) := by
  induction items generalizing before with
  | nil => trivial
  | cons item items ih =>
    have later := ih fun other member => literal other (List.mem_cons_of_mem _ member)
    simp only [List.flatMap_cons, encodePackage_eq, List.append_assoc, List.cons_append]
    exact closed_headText item (closed_behind (literal item List.mem_cons_self) item later) before

end NPPbJsonPackage

theorem Closed.tame {before last : UInt8} {front rest : List UInt8}
    (closed : Closed before last (front ++ 34 :: rest)) {more : List UInt8} {before' last' : UInt8}
    (ends : before :: last :: front = more ++ [before', last']) : Tame before' last' rest := by
  induction front generalizing before last more with
  | nil =>
    have ends : [] ++ [before, last] = more ++ [before', last'] := ends
    obtain ⟨_, same⟩ := List.append_inj' ends rfl
    cases same
    exact closed.1 rfl
  | cons char front ih =>
    cases more with
    | nil => simp at ends
    | cons symbol more => exact ih closed.2 (List.cons.inj ends).2

/-- What stands in front of the first name: a brace that belongs to no package, or a blank. -/
private theorem ends_of_front {mark front between : List UInt8}
    (isMark : mark = [] ∨ mark = [0xef, 0xbb, 0xbf]) (isFront : Blank front) (isBetween : Blank between) :
    ∃ more before last, (0 : UInt8) :: 0 :: (mark ++ front ++ 123 :: between) = more ++ [before, last] ∧
      last ∈ opening ∧ (last = 123 → before ≠ 125 ∧ before ≠ 58) := by
  rcases isBetween.last with rfl | ⟨between, char, rfl, isOpening, notBrace⟩
  · rcases isFront.last with rfl | ⟨front, char, rfl, isOpening, _⟩
    · rcases isMark with rfl | rfl
      · exact ⟨[0], 0, 123, rfl, by decide, fun _ => by decide⟩
      · exact ⟨[0, 0, 0xef, 0xbb], 0xbf, 123, rfl, by decide, fun _ => by decide⟩
    · refine ⟨0 :: 0 :: (mark ++ front), char, 123, by simp, by decide, fun _ => ?_⟩
      constructor
      · rintro rfl
        exact absurd isOpening (by decide)
      · rintro rfl
        exact absurd isOpening (by decide)
  · rcases List.eq_nil_or_concat between with rfl | ⟨between, before, rfl⟩
    · exact ⟨0 :: 0 :: (mark ++ front), 123, char, by simp, isOpening, fun same => absurd same notBrace⟩
    · exact ⟨0 :: 0 :: (mark ++ front ++ 123 :: between), before, char, by simp, isOpening,
        fun same => absurd same notBrace⟩

/-- A name that begins in such a text is a comma. -/
theorem eq_comma_of_begins {text name : List UInt8} (closed : ∀ before last, Closed before last text)
    (begins : BeginsWithMember text name) : name = [44] := by
  obtain ⟨mark, front, between, literal, rest, isMark, isFront, isBetween, isLiteral, isName, rfl⟩ :=
    begins
  obtain ⟨more, before, last, ends, isOpening, notPackage⟩ := ends_of_front isMark isFront isBetween
  have closed := closed 0 0
  rw [← List.cons_append, ← List.append_assoc] at closed
  rcases closed.tame ends with notOpening | ⟨rest', comma⟩ | ⟨isBrace, isPackage⟩
  · exact absurd isOpening notOpening
  · cases isLiteral with
    | nil => exact absurd (List.cons.inj comma).1 (by decide)
    | @plain char literal isPlain later =>
      obtain ⟨rfl, behind⟩ := List.cons.inj comma
      cases later with
      | nil => exact isName (by decide)
      | @plain char literal isPlain later =>
        obtain ⟨rfl, _⟩ := List.cons.inj behind
        exact absurd isPlain (by decide)
      | escaped kind later => exact absurd (List.cons.inj behind).1 (by decide)
    | escaped kind later => exact absurd (List.cons.inj comma).1 (by decide)
  · obtain ⟨notClosing, notColon⟩ := notPackage isBrace
    rcases isPackage with closing | colon
    · exact absurd closing notClosing
    · exact absurd colon notColon

end BTool.PbMessage
