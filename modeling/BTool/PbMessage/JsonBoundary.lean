import BTool.PbMessage.JsonPackage

/-! Where the search for `msg` and for braces puts the end of a package: at its own end where the text
of the body does not have `msg` in it, and within the body where it does. -/

namespace BTool.PbMessage

open BTool.Foundation

theorem mem_ascii_toDigits {number : Nat} {char : UInt8} (member : char ∈ decimal number) :
    48 ≤ char.toNat ∧ char.toNat ≤ 57 := by
  obtain ⟨digit, isDigit, rfl⟩ := List.mem_map.mp member
  have digits := Nat.isDigit_of_mem_toDigits (by decide) (by decide) isDigit
  rw [Char.isDigit_iff_toNat] at digits
  rw [UInt8.toNat_ofNat']
  simp at digits
  omega

theorem decimal_length_pos (number : Nat) : 0 < (decimal number).length := by
  rw [decimal, ascii, List.length_map]
  exact Nat.length_toDigits_pos

/-- A character that is no digit is not in a number. -/
theorem not_mem_decimal {number : Nat} {char : UInt8} (other : char.toNat < 48 ∨ 57 < char.toNat) :
    char ∉ decimal number := by
  intro member
  have digit := mem_ascii_toDigits member
  omega

namespace NPPbJsonPackage

variable {json : JsonCpp} {item : Item} {rest : List UInt8}

/-- What lies in front of the text of the body, up to the last character. -/
def headText (item : Item) : List UInt8 :=
  ascii ['{', '"', 'm', 's', 'g', '"', ':', '{', '"', 'c', 'h', 'k', '"', ':'] ++
    (decimal (generateChecksum item.sendMsg).toNat ++ ascii [',', '"', 'c', 'm', 'd', '"', ':'] ++
      decimal item.command.toNat ++ ascii [',', '"', 'd', 'a', 't', 'a', '"', ':'])

/-- What lies behind the text of the body, from the second character on. -/
def footText (item : Item) : List UInt8 :=
  ascii [',', '"', 'l', 'e', 'n', '"', ':'] ++ decimal item.pbLen ++ ascii ['}', '}']

/-- The text that the body has in the package. -/
def bodyText (json : JsonCpp) (item : Item) : List UInt8 := json.escape (cString item.sendMsg)

theorem encodePackage_eq (json : JsonCpp) (item : Item) : encodePackage json item =
    headText item ++ 34 :: (bodyText json item ++ 34 :: footText item) := by
  simp [encodePackage, writeObject, writeMember, JsonCpp.quoted, headText, footText, bodyText, ascii,
    commJsonMsg, commJsonChk, commJsonCommand, commJsonData, commJsonLen]

theorem length_headText (item : Item) : 31 ≤ (headText item).length := by
  have first := decimal_length_pos (generateChecksum item.sendMsg).toNat
  have second := decimal_length_pos item.command.toNat
  simp only [headText, List.length_append, ascii, List.length_map, List.length_cons, List.length_nil]
  omega

theorem headText_eq (item : Item) : ∃ more, headText item = 123 :: 34 :: (commJsonMsg ++ 34 :: more) :=
  ⟨_, by simp [headText, commJsonMsg, ascii]; rfl⟩

/-- Neither the end of the head nor the foot has a `g`. -/
theorem not_mem_headText_drop : 103 ∉ (headText item).drop 29 := by
  intro member
  rw [headText, List.drop_append, List.drop_eq_nil_of_le (by decide), List.nil_append] at member
  have member := List.mem_of_mem_drop member
  have digits (number : Nat) : 103 ∉ decimal number := not_mem_decimal (by decide)
  simp only [List.mem_append, digits] at member
  revert member
  decide

theorem not_mem_footText : 103 ∉ footText item := by
  have digits (number : Nat) : 103 ∉ decimal number := not_mem_decimal (by decide)
  simp only [footText, List.mem_append, digits]
  decide

/-- The head has no closing brace. -/
theorem brace_not_mem_headText : 125 ∉ headText item := by
  have digits (number : Nat) : 125 ∉ decimal number := not_mem_decimal (by decide)
  simp only [headText, List.mem_append, digits]
  decide

theorem length_encodePackage (json : JsonCpp) (item : Item) : (encodePackage json item).length =
    (headText item).length + 1 + (bodyText json item).length + 1 + (footText item).length := by
  simp only [encodePackage_eq, List.length_append, List.length_cons]
  omega

/-- The word begins two characters behind the brace of its package. -/
theorem find_first (json : JsonCpp) (item : Item) (rest : List UInt8) :
    find (encodePackage json item ++ rest) commJsonMsg 0 = some 2 := by
  obtain ⟨more, isHead⟩ := headText_eq item
  have here (behind : List UInt8) : firstPlace commJsonMsg (commJsonMsg ++ behind) = some 0 :=
    firstPlace_of_prefix (List.prefix_append ..)
  rw [find_eq (Nat.zero_le _), List.drop_zero, encodePackage_eq, isHead]
  simp only [List.cons_append, List.append_assoc]
  rw [firstPlace_cons (by decide) (by decide), firstPlace_cons (by decide) (by decide), here]
  rfl

theorem rfind_first (json : JsonCpp) (item : Item) (rest : List UInt8) :
    rfind (encodePackage json item ++ rest) (ascii ['{']) (some 2) = some 0 := by
  obtain ⟨more, isHead⟩ := headText_eq item
  have bound : min 2 (encodePackage json item ++ rest).length = 2 := by
    have := length_headText item
    rw [encodePackage_eq, List.length_append, List.length_append]
    omega
  have brace (behind : List UInt8) :
      lastPlace ([] ++ 123 :: (34 :: (commJsonMsg ++ behind))) [123] (0 + 2) = some 0 :=
    lastPlace_append_cons (by simp [commJsonMsg, ascii])
  rw [rfind, Option.getD_some, bound, encodePackage_eq, isHead]
  simp only [List.cons_append, List.append_assoc]
  exact brace _

/-- Behind the head, the word is looked for in the text of the body first. -/
theorem find_second (json : JsonCpp) (item : Item) (rest : List UInt8) :
    find (encodePackage json item ++ rest) commJsonMsg 29 =
      (firstPlace commJsonMsg (bodyText json item ++ 34 :: (footText item ++ rest))).map
        ((headText item).length + 1 + ·) := by
  have long := length_headText item
  have absent : ¬ commJsonMsg <:+: (headText item).drop 29 := fun stands =>
    not_mem_headText_drop (stands.subset (by decide))
  rw [find_eq (by rw [encodePackage_eq, List.length_append, List.length_append]; omega),
    encodePackage_eq, List.append_assoc, List.drop_append, Nat.sub_eq_zero_of_le (by omega),
    List.drop_zero, List.cons_append, List.append_assoc, List.cons_append,
    firstPlace_append_cons (by decide) (by decide) absent, Option.map_map, List.length_drop]
  congr 1
  funext place
  simp only [Function.comp_apply]
  omega

/-- What is behind a package: nothing, or another one. -/
def Follows (rest : List UInt8) : Prop :=
  rest = [] ∨ ∃ more, rest = 123 :: 34 :: (commJsonMsg ++ more)

/-- The word is found in the next package, if there is one. -/
theorem find_of_absent (absent : ¬ commJsonMsg <:+: bodyText json item) (follows : Follows rest) :
    find (encodePackage json item ++ rest) commJsonMsg 29 =
      if rest = [] then none else some ((encodePackage json item).length + 2) := by
  have notFoot : ¬ commJsonMsg <:+: footText item := fun stands =>
    not_mem_footText (stands.subset (by decide))
  rw [find_second, firstPlace_append_cons (by decide) (by decide) absent, Option.map_map]
  rcases follows with rfl | ⟨more, rfl⟩
  · rw [List.append_nil, firstPlace_eq_none (by decide) notFoot]
    rfl
  · rw [firstPlace_append_cons (by decide) (by decide) notFoot,
      firstPlace_cons (by decide) (by decide), firstPlace_of_prefix (List.prefix_append ..),
      length_encodePackage]
    simp only [Option.map_some, Function.comp_apply, if_neg (List.cons_ne_nil _ _)]
    congr 1
    omega

/-- The last brace up to there is that of the package itself. -/
theorem rfind_of_absent (absent : ¬ commJsonMsg <:+: bodyText json item) (follows : Follows rest) :
    rfind (encodePackage json item ++ rest) (ascii ['}'])
      (find (encodePackage json item ++ rest) commJsonMsg 29) =
        some ((encodePackage json item).length - 1) := by
  obtain ⟨front, isFront⟩ : ∃ front, encodePackage json item = front ++ [125] := by
    refine ⟨headText item ++ 34 :: (bodyText json item ++ 34 ::
      (ascii [',', '"', 'l', 'e', 'n', '"', ':'] ++ decimal item.pbLen ++ [125])), ?_⟩
    simp [encodePackage_eq, footText, ascii]
  have size : (encodePackage json item).length = front.length + 1 := by
    rw [isFront, List.length_append, List.length_singleton]
  rw [find_of_absent absent follows, rfind, size, Nat.add_sub_cancel]
  rcases follows with rfl | ⟨more, rfl⟩
  · rw [if_pos rfl, Option.getD_none, Nat.min_self, List.append_nil, size, isFront]
    exact lastPlace_append_cons (by simp)
  · have bound : min (front.length + 1 + 2)
        (encodePackage json item ++ 123 :: 34 :: (commJsonMsg ++ more)).length = front.length + 3 := by
      rw [List.length_append, size, List.length_cons, List.length_cons, List.length_append]
      have word : commJsonMsg.length = 3 := rfl
      omega
    rw [if_neg (List.cons_ne_nil _ _), Option.getD_some, bound, isFront, List.append_assoc]
    exact lastPlace_append_cons (by simp [commJsonMsg, ascii])

/-- Where the body has the word, the package seems to end in front of it: at a brace within the body, or
nowhere. -/
theorem rfind_of_present (present : commJsonMsg <:+: bodyText json item) (rest : List UInt8) :
    rfind (encodePackage json item ++ rest) (ascii ['}'])
        (find (encodePackage json item ++ rest) commJsonMsg 29) = none ∨
      ∃ front back, bodyText json item = front ++ 125 :: back ∧
        rfind (encodePackage json item ++ rest) (ascii ['}'])
          (find (encodePackage json item ++ rest) commJsonMsg 29) =
            some ((headText item).length + 1 + front.length) := by
  obtain ⟨place, found, within⟩ : ∃ place, firstPlace commJsonMsg
      (bodyText json item ++ 34 :: (footText item ++ rest)) = some place ∧
        place + commJsonMsg.length ≤ (bodyText json item).length := firstPlace_append _ present
  have word : commJsonMsg.length = 3 := rfl
  rw [find_second, found, Option.map_some, rfind, Option.getD_some, Nat.min_eq_left (by
    rw [List.length_append, length_encodePackage]
    omega)]
  cases last : lastPlace (encodePackage json item ++ rest) (ascii ['}'])
      ((headText item).length + 1 + place) with
  | none => exact .inl rfl
  | some brace =>
    obtain ⟨upTo, more, isMore⟩ := lastPlace_eq_some last
    have here : (headText item ++ 34 :: (bodyText json item ++ 34 :: footText item) ++ rest)[brace]? =
        some 125 := by
      rw [← encodePackage_eq, ← Nat.add_zero brace, ← List.getElem?_drop, ← isMore]
      rfl
    have behind : (headText item).length < brace := by
      rw [List.append_assoc] at here
      rcases Nat.lt_trichotomy brace (headText item).length with less | rfl | more
      · rw [List.getElem?_append_left less] at here
        exact absurd (List.mem_of_getElem? here) brace_not_mem_headText
      · rw [List.getElem?_append_right (Nat.le_refl _), Nat.sub_self] at here
        cases here
      · exact more
    obtain ⟨offset, rfl⟩ := Nat.exists_eq_add_of_lt behind
    have inside : (bodyText json item)[offset]? = some 125 := by
      rw [List.append_assoc, List.getElem?_append_right (by omega), List.cons_append,
        show (headText item).length + offset + 1 - (headText item).length = offset + 1 by omega,
        List.getElem?_cons_succ, List.append_assoc, List.getElem?_append_left (by omega)] at here
      exact here
    obtain ⟨bound, isBrace⟩ := List.getElem?_eq_some_iff.mp inside
    refine .inr ⟨(bodyText json item).take offset, (bodyText json item).drop (offset + 1), ?_, ?_⟩
    · rw [← isBrace, List.getElem_cons_drop, List.take_append_drop]
    · rw [List.length_take_of_le (Nat.le_of_lt bound), Nat.add_right_comm]

/-- Every package begins where it begins, and ends where the last brace is found. -/
theorem locate_eq (json : JsonCpp) (item : Item) (rest : List UInt8) (package : DecodePackage) :
    package.locate (encodePackage json item ++ rest) commJsonMsg =
      some { package with
        offset := package.offset % 2 ^ 64
        packLen := ((rfind (encodePackage json item ++ rest) (ascii ['}'])
          (find (encodePackage json item ++ rest) commJsonMsg 29)).getD (2 ^ 64 - 1) + 2 ^ 64 + 1) %
            2 ^ 64 } := by
  simp only [DecodePackage.locate, find_first, rfind_first, Option.bind_eq_bind, Option.bind_some,
    Nat.add_zero, Nat.sub_zero, commJsonMinPackageLen, Nat.zero_add]

/-- A body without the word leaves the package its own length. -/
theorem locate_of_absent (package : DecodePackage) (absent : ¬ commJsonMsg <:+: bodyText json item)
    (follows : Follows rest) (small : package.offset + (encodePackage json item).length < 2 ^ 64) :
    package.locate (encodePackage json item ++ rest) commJsonMsg =
      some { package with packLen := (encodePackage json item).length } := by
  have size := length_encodePackage json item
  have sum : ((encodePackage json item).length - 1 + 2 ^ 64 + 1) % 2 ^ 64 =
      (encodePackage json item).length := by omega
  rw [locate_eq, rfind_of_absent absent follows, Option.getD_some, sum, Nat.mod_eq_of_lt (by omega)]

/-- A body with the word leaves the package no length, or one that ends within the body. -/
theorem locate_of_present (package : DecodePackage) (present : commJsonMsg <:+: bodyText json item)
    (small : package.offset + (encodePackage json item).length < 2 ^ 64) (rest : List UInt8) :
    package.locate (encodePackage json item ++ rest) commJsonMsg = some { package with packLen := 0 } ∨
      ∃ front back, bodyText json item = front ++ 125 :: back ∧
        package.locate (encodePackage json item ++ rest) commJsonMsg =
          some { package with packLen := (headText item).length + 1 + front.length + 1 } := by
  have size := length_encodePackage json item
  have stays : package.offset % 2 ^ 64 = package.offset := Nat.mod_eq_of_lt (by omega)
  rw [locate_eq, stays]
  rcases rfind_of_present present rest with absent | ⟨front, back, isBody, found⟩
  · rw [absent]
    exact .inl rfl
  · have within : front.length < (bodyText json item).length := by
      rw [isBody, List.length_append, List.length_cons]
      omega
    have sum : ((headText item).length + 1 + front.length + 2 ^ 64 + 1) % 2 ^ 64 =
        (headText item).length + 1 + front.length + 1 := by omega
    refine .inr ⟨front, back, isBody, ?_⟩
    rw [found, Option.getD_some, sum]

end NPPbJsonPackage

end BTool.PbMessage
