import Mathlib.Data.List.TakeWhile
import BTool.PbMessage.JsonReading

/-! JSON packages one behind the other are decoded as they were encoded exactly where no body has the
letters `msg` in it. -/

namespace BTool.PbMessage

open BTool.Foundation

namespace NPPbJsonPackage

variable {json : JsonCpp} {items : List Item} {item : Item} {buffer rest : List UInt8} {offset : Nat}
  {package : DecodePackage}

open DecodePackage in
/-- The reader makes of a text an object whose one member is a message with the three members that
`vaild` looks for. -/
def Named (json : JsonCpp) (text memMsg : List UInt8) : Prop :=
  ∃ msg names, json.parse text = some (.object [(memMsg, msg)]) ∧ lower memMsg = commJsonMsg ∧
    msg.getMemberNames = some names ∧ (memberName names commJsonCommand).isSome ∧
    (memberName names commJsonData).isSome ∧ (memberName names commJsonChk).isSome

theorem Named.nonempty {text memMsg : List UInt8} (named : Named json text memMsg) : memMsg ≠ [] := by
  rintro rfl
  obtain ⟨_, _, _, isMsg, _⟩ := named
  exact absurd isMsg (by decide)

namespace DecodePackage

/-- A package that has been searched for at an offset, and not been found. -/
def unread (buffer : List UInt8) (offset : Nat) : DecodePackage :=
  { startingAt buffer offset with curResolveIsvaild := true }

/-- What `vaild` leaves of an encoded package of which it takes the length to be this. -/
def readAs (buffer : List UInt8) (offset packLen : Nat) (item : Item) : DecodePackage :=
  { unread buffer offset with
    packLen, command := item.command, body := cString item.sendMsg
    checksum := generateChecksum item.sendMsg, curIsvaild := true }

theorem asUInt?_number (value : UInt32) : (Json.number value.toNat).asUInt? = some value := by
  have small := value.toNat_lt
  have within : (0 : Int) ≤ value.toNat ∧ (value.toNat : Int) < 2 ^ 32 := by omega
  rw [Json.asUInt?, if_pos within, Int.toNat_natCast, UInt32.ofNat_toNat]

/-- Where all fields are there, all are read. -/
theorem readFields_eq {members : List (List UInt8 × Json)} {memCmd memData memChk body : List UInt8}
    {command checksum : UInt32} (isCommand : Json.member members memCmd = .number command.toNat)
    (isBody : Json.member members memData = .string body)
    (isChecksum : Json.member members memChk = .number checksum.toNat) (package : DecodePackage) :
    package.readFields members memCmd memData memChk =
      { package with command, body, checksum, curIsvaild := true } := by
  simp only [readFields, isCommand, isBody, isChecksum, asUInt?_number]

/-- The steps of `vaild` through a text that has all it looks for. -/
theorem resolve_eq {msg : Json} {members : List (List UInt8 × Json)}
    {memMsg memCmd memData memChk : List UInt8} {names : List (List UInt8)} {located : DecodePackage}
    (within : offset ≤ buffer.length)
    (reads : json.parse (buffer.drop offset) = some (.object [(memMsg, msg)]))
    (isMsg : lower memMsg = commJsonMsg) (hasNames : msg.getMemberNames = some names)
    (isCmd : memberName names commJsonCommand = some memCmd)
    (isData : memberName names commJsonData = some memData)
    (isChk : memberName names commJsonChk = some memChk)
    (found : (unread buffer offset).locate (buffer.drop offset) memMsg = some located)
    (isObject : msg = .object members) :
    (startingAt buffer offset).resolve json offset =
      located.readFields members memCmd memData memChk := by
  subst isObject
  have unread : { startingAt buffer offset with curIsvaild := false, curResolveIsvaild := true } =
      unread buffer offset := rfl
  have sameBuffer : (DecodePackage.unread buffer offset).buffer = buffer := rfl
  rw [resolve, unread]
  simp only [sameBuffer, if_neg (Nat.not_lt_of_le within), reads, isMsg, if_true, hasNames, isCmd, isData,
    isChk, found]

/-- Where the text is none of a package, nothing is read. -/
theorem resolve_unread
    (absent : ∀ memMsg, Named json (buffer.drop offset) memMsg →
      (unread buffer offset).locate (buffer.drop offset) memMsg = none) :
    (startingAt buffer offset).resolve json offset = unread buffer offset := by
  have unread : { startingAt buffer offset with curIsvaild := false, curResolveIsvaild := true } =
      unread buffer offset := rfl
  have sameBuffer : (DecodePackage.unread buffer offset).buffer = buffer := rfl
  rw [resolve, unread]
  simp only [sameBuffer]
  split
  · rfl
  · split
    · rename_i memMsg msg reads
      split
      · rename_i isMsg
        split
        · rfl
        · rename_i names hasNames
          split
          · rename_i isCmd isData isChk
            rw [absent memMsg ⟨msg, names, reads, isMsg, hasNames, by simp [isCmd], by simp [isData],
              by simp [isChk]⟩]
          · rfl
      · rfl
    · rfl

/-- A package is decoded where `vaild` leaves its offset in front of the end. -/
theorem decodes_of_resolve {resolved : DecodePackage}
    (isResolved : (startingAt buffer offset).resolve json offset = resolved)
    (done : resolved.curResolveIsvaild = true) :
    (startingAt buffer offset).decodes json =
      if resolved.offset = resolved.buffer.length then (false, resolved)
      else (true, { resolved with status := .decodeMsg }) := by
  have next : (startingAt buffer offset).hasNext json = (true, resolved) := by
    rw [← isResolved]
    rfl
  simp only [decodes, next, if_true, decodeMsg, vaild, done]

/-- The loop over a package that `vaild` finds in front of the end. -/
theorem decodeLoop_of_resolve {resolved : DecodePackage} {rounds : Nat}
    (isResolved : (startingAt buffer offset).resolve json offset = resolved)
    (done : resolved.curResolveIsvaild = true) (within : resolved.offset ≠ resolved.buffer.length) :
    decodeLoop json (rounds + 1) (startingAt buffer offset) =
      (decodeLoop json rounds (startingAt resolved.buffer ((resolved.offset + resolved.packLen) %
        2 ^ 64))).map (({ resolved with status := .decodeMsg } : DecodePackage).decoded :: ·) := by
  rw [decodeLoop, decodes_of_resolve isResolved done, if_neg within]
  rfl

/-- At the end of the text the loop ends. -/
theorem decodeLoop_end (json : JsonCpp) (buffer : List UInt8) (rounds : Nat) :
    decodeLoop json (rounds + 1) (startingAt buffer buffer.length) = some [] := by
  have nothing : (startingAt buffer buffer.length).resolve json buffer.length =
      unread buffer buffer.length := by
    refine resolve_unread fun memMsg named => ?_
    rw [List.drop_length, locate, find_eq (Nat.le_refl 0), List.drop_zero, firstPlace,
      if_neg named.nonempty]
    rfl
  have ended : (unread buffer buffer.length).offset = (unread buffer buffer.length).buffer.length := rfl
  rw [decodeLoop, decodes_of_resolve nothing rfl, if_pos ended]
  rfl

/-- Of an encoded package everything is read, with the length that the search gives. -/
theorem resolve_encoded (reads : json.parse (encodePackage json item ++ rest) = some (document item))
    (lies : buffer.drop offset = encodePackage json item ++ rest) {packLen : Nat}
    (located : (unread buffer offset).locate (encodePackage json item ++ rest) commJsonMsg =
      some { unread buffer offset with packLen }) :
    (startingAt buffer offset).resolve json offset = readAs buffer offset packLen item := by
  have within : offset ≤ buffer.length := by
    rcases Nat.le_total offset buffer.length with within | beyond
    · exact within
    · rw [List.drop_eq_nil_of_le beyond, encodePackage_eq] at lies
      simp at lies
  have names : memberName [commJsonChk, commJsonCommand, commJsonData, commJsonLen] commJsonCommand =
        some commJsonCommand ∧
      memberName [commJsonChk, commJsonCommand, commJsonData, commJsonLen] commJsonData =
        some commJsonData ∧
      memberName [commJsonChk, commJsonCommand, commJsonData, commJsonLen] commJsonChk =
        some commJsonChk := by decide
  rw [resolve_eq within (lies ▸ reads) (by decide) rfl names.1 names.2.1 names.2.2 (lies ▸ located) rfl]
  exact readFields_eq rfl rfl rfl _

end DecodePackage

open DecodePackage

/-- What an item is decoded to, with the length that the search gives it. -/
def sent (item : Item) (packageLength : Nat) : Decoded :=
  { command := item.command, body := item.sendMsg, checkSum := true, packageLength }

theorem cString_eq {text : List UInt8} (nulFree : 0 ∉ text) : cString text = text := by
  refine List.takeWhile_eq_self_iff.mpr fun char member => ?_
  rw [decide_eq_true_iff]
  rintro rfl
  exact nulFree member

/-- The text behind the offset is that of a package with something behind it. -/
structure Lies (json : JsonCpp) (buffer : List UInt8) (offset : Nat) (item : Item) (rest : List UInt8) :
    Prop where
  lies : buffer.drop offset = encodePackage json item ++ rest
  reads : json.parse (encodePackage json item ++ rest) = some (document item)
  small : buffer.length < 2 ^ 64
  nulFree : 0 ∉ item.sendMsg

theorem Lies.size (lies : Lies json buffer offset item rest) :
    buffer.length = offset + (encodePackage json item).length + rest.length ∧
      0 < (encodePackage json item).length := by
  have size := congrArg List.length lies.lies
  have long := length_encodePackage json item
  rw [List.length_drop, List.length_append] at size
  omega

/-- A package is decoded with its own fields, and the loop goes on where it seems to end. -/
theorem Lies.decodeLoop (lies : Lies json buffer offset item rest) {packLen : Nat}
    (located : (unread buffer offset).locate (encodePackage json item ++ rest) commJsonMsg =
      some { unread buffer offset with packLen }) (rounds : Nat) :
    decodeLoop json (rounds + 1) (startingAt buffer offset) =
      (decodeLoop json rounds (startingAt buffer ((offset + packLen) % 2 ^ 64))).map
        (sent item packLen :: ·) := by
  have within : offset ≠ buffer.length := by
    have := lies.size
    omega
  have decoded : ({ readAs buffer offset packLen item with status := .decodeMsg } :
      DecodePackage).decoded = sent item packLen := by
    have isBody := cString_eq lies.nulFree
    simp [DecodePackage.decoded, readAs, unread, startingAt, sent, getCommand, getBody, checkSum,
      getPackageLength, isBody]
  rw [decodeLoop_of_resolve (resolve_encoded lies.reads lies.lies located) rfl within, decoded]
  rfl

/-- A package without the word is decoded as it was encoded. -/
theorem Lies.decodeLoop_of_absent (lies : Lies json buffer offset item rest)
    (absent : ¬ commJsonMsg <:+: bodyText json item) (follows : Follows rest) (rounds : Nat) :
    NPPbJsonPackage.decodeLoop json (rounds + 1) (startingAt buffer offset) =
      (NPPbJsonPackage.decodeLoop json rounds
        (startingAt buffer (offset + (encodePackage json item).length))).map
          (sent item (encodePackage json item).length :: ·) := by
  have size := lies.size
  have small := lies.small
  have further : (offset + (encodePackage json item).length) % 2 ^ 64 =
      offset + (encodePackage json item).length := Nat.mod_eq_of_lt (by omega)
  have located := locate_of_absent (unread buffer offset) absent follows
    (by change offset + _ < _; omega)
  rw [lies.decodeLoop located, further]

/-- Where a text begins within a body, the first package of it fails its checksum. -/
theorem decodeLoop_within {back : List UInt8} (documented : json.Documented items)
    {all : List Item} (sub : ∀ item ∈ all, item ∈ items) (isLiteral : Literal back)
    (behind : buffer.drop offset = back ++ 34 :: (footText item ++ all.flatMap (encodePackage json)))
    {rounds : Nat} {decoded : List Decoded}
    (result : decodeLoop json rounds (startingAt buffer offset) = some decoded) :
    ∃ package ∈ decoded, package.checkSum = false := by
  have closed (before last : UInt8) : Closed before last (buffer.drop offset) := by
    rw [behind]
    exact closed_behind isLiteral item
      (closed_items fun item member => documented.literal item (sub item member)) before last
  have nothing : (startingAt buffer offset).resolve json offset = unread buffer offset := by
    refine resolve_unread fun memMsg ⟨msg, names, reads, isMsg, _⟩ => ?_
    rw [eq_comma_of_begins closed (documented.begins _ _ _ reads)] at isMsg
    exact absurd isMsg (by decide)
  have within : (unread buffer offset).offset ≠ (unread buffer offset).buffer.length := by
    intro same
    have same : offset = buffer.length := same
    rw [same, List.drop_length] at behind
    simp at behind
  cases rounds with
  | zero => cases result
  | succ rounds =>
    rw [decodeLoop_of_resolve nothing rfl within] at result
    obtain ⟨later, _, rfl⟩ := Option.map_eq_some_iff.mp result
    exact ⟨_, List.mem_cons_self, rfl⟩

/-- A package whose body has the word is followed by one that fails its checksum, if the loop ends at
all. -/
theorem Lies.decodeLoop_of_present (documented : json.Documented items) {all : List Item}
    (sub : ∀ item ∈ all, item ∈ items) (member : item ∈ items)
    (lies : Lies json buffer offset item (all.flatMap (encodePackage json)))
    (present : commJsonMsg <:+: bodyText json item) {rounds : Nat} {decoded : List Decoded}
    (result : NPPbJsonPackage.decodeLoop json rounds (startingAt buffer offset) = some decoded) :
    ∃ package ∈ decoded, package.checkSum = false := by
  have size := lies.size
  have small := lies.small
  rcases locate_of_present (unread buffer offset) present (by change offset + _ < _; omega)
    (all.flatMap (encodePackage json)) with located | ⟨front, back, isBody, located⟩
  · -- The length 0 leads to the same package again, so that the loop does not end.
    have again : (offset + 0) % 2 ^ 64 = offset := Nat.mod_eq_of_lt (by omega)
    have forever (rounds : Nat) :
        NPPbJsonPackage.decodeLoop json rounds (startingAt buffer offset) = none := by
      induction rounds with
      | zero => rfl
      | succ rounds ih => rw [lies.decodeLoop located, again, ih, Option.map_none]
    cases (forever rounds).symm.trans result
  · cases rounds with
    | zero => cases result
    | succ rounds =>
      have inside : (headText item).length + 1 + front.length + 1 ≤ (encodePackage json item).length := by
        have := congrArg List.length isBody
        rw [List.length_append, List.length_cons] at this
        rw [length_encodePackage]
        omega
      have further : (offset + ((headText item).length + 1 + front.length + 1)) % 2 ^ 64 =
          offset + ((headText item).length + 1 + front.length + 1) := Nat.mod_eq_of_lt (by omega)
      rw [lies.decodeLoop located, further] at result
      obtain ⟨later, isLater, rfl⟩ := Option.map_eq_some_iff.mp result
      have behind : buffer.drop (offset + ((headText item).length + 1 + front.length + 1)) =
          back ++ 34 :: (footText item ++ all.flatMap (encodePackage json)) := by
        have split : encodePackage json item ++ all.flatMap (encodePackage json) =
            (headText item ++ 34 :: (front ++ [125])) ++
              (back ++ 34 :: (footText item ++ all.flatMap (encodePackage json))) := by
          simp [encodePackage_eq, isBody]
        have size : (headText item ++ 34 :: (front ++ [125])).length =
            (headText item).length + 1 + front.length + 1 := by
          simp only [List.length_append, List.length_cons, List.length_nil]
          omega
        rw [← List.drop_drop, lies.lies, split, ← size, List.drop_left]
      obtain ⟨package, among, fails⟩ := decodeLoop_within documented sub
        (Literal.behind (isBody ▸ documented.literal item member)) behind isLater
      exact ⟨package, List.mem_cons_of_mem _ among, fails⟩

theorem follows_items (json : JsonCpp) (all : List Item) :
    Follows (all.flatMap (encodePackage json)) := by
  cases all with
  | nil => exact .inl rfl
  | cons item all =>
    obtain ⟨more, isHead⟩ := headText_eq item
    refine .inr ⟨34 :: more ++ 34 :: (bodyText json item ++ 34 :: footText item) ++
      all.flatMap (encodePackage json), ?_⟩
    rw [List.flatMap_cons, encodePackage_eq, isHead]
    simp only [List.cons_append, List.append_assoc]

section

variable (documented : json.Documented items) (nulFree : ∀ item ∈ items, 0 ∉ item.sendMsg)
  (small : buffer.length < 2 ^ 64) {all : List Item} (sub : ∀ item ∈ all, item ∈ items)
  (lies : buffer.drop offset = all.flatMap (encodePackage json)) (within : offset ≤ buffer.length)

include documented nulFree small sub lies within

/-- The loop over packages without the word decodes them all. -/
theorem decodeLoop_items (absent : ∀ item ∈ all, ¬ commJsonMsg <:+: bodyText json item) {rounds : Nat}
    (enough : all.length < rounds) :
    decodeLoop json rounds (startingAt buffer offset) =
      some (all.map fun item => sent item (encodePackage json item).length) := by
  obtain ⟨rounds, rfl⟩ : ∃ left, rounds = left + 1 := ⟨rounds - 1, by omega⟩
  induction all generalizing offset rounds with
  | nil =>
    have size := congrArg List.length lies
    rw [List.length_drop] at size
    obtain rfl : offset = buffer.length := Nat.le_antisymm within (Nat.le_of_sub_eq_zero size)
    exact decodeLoop_end json buffer rounds
  | cons item all ih =>
    have member : item ∈ items := sub item List.mem_cons_self
    have first : Lies json buffer offset item (all.flatMap (encodePackage json)) :=
      ⟨lies, documented.readsBack item member _, small, nulFree item member⟩
    have size := first.size
    rw [List.length_cons] at enough
    obtain ⟨rounds, rfl⟩ : ∃ left, rounds = left + 1 := ⟨rounds - 1, by omega⟩
    rw [first.decodeLoop_of_absent (absent item List.mem_cons_self) (follows_items json all), ih]
    · rfl
    · exact fun other among => sub other (List.mem_cons_of_mem _ among)
    · rw [← List.drop_drop, lies, List.flatMap_cons, List.drop_left]
    · omega
    · exact fun other among => absent other (List.mem_cons_of_mem _ among)
    · omega

/-- Where the loop decodes packages whose checksums are right, none of the bodies has the word. -/
theorem absent_of_decodeLoop {rounds : Nat} {decoded : List Decoded}
    (result : decodeLoop json rounds (startingAt buffer offset) = some decoded)
    (sums : ∀ package ∈ decoded, package.checkSum = true) :
    ∀ item ∈ all, ¬ commJsonMsg <:+: bodyText json item := by
  induction all generalizing offset rounds decoded with
  | nil => simp
  | cons item all ih =>
    have member : item ∈ items := sub item List.mem_cons_self
    have subset (other : Item) (among : other ∈ all) : other ∈ items :=
      sub other (List.mem_cons_of_mem _ among)
    have first : Lies json buffer offset item (all.flatMap (encodePackage json)) :=
      ⟨lies, documented.readsBack item member _, small, nulFree item member⟩
    have size := first.size
    have absent : ¬ commJsonMsg <:+: bodyText json item := by
      intro present
      obtain ⟨package, among, fails⟩ := first.decodeLoop_of_present documented subset member present result
      rw [sums package among] at fails
      cases fails
    cases rounds with
    | zero => cases result
    | succ rounds =>
      rw [first.decodeLoop_of_absent absent (follows_items json all)] at result
      obtain ⟨later, isLater, rfl⟩ := Option.map_eq_some_iff.mp result
      have rest := ih subset (by rw [← List.drop_drop, lies, List.flatMap_cons, List.drop_left]) (by omega)
        isLater fun package among => sums package (List.mem_cons_of_mem _ among)
      rintro other among
      rcases List.mem_cons.mp among with rfl | among
      · exact absent
      · exact rest other among

end

/-- The loop over packages one behind the other yields their commands and bodies in order, all of whose
checksums are right, and their lengths add up to that of the text. -/
def StreamsBack (json : JsonCpp) (items : List Item) : Prop :=
  ∃ rounds decoded, decodeLoop json rounds (create (items.flatMap (encodePackage json))) = some decoded ∧
    decoded.map (fun package => (package.command, package.body, package.checkSum)) =
      items.map (fun item => (item.command, item.sendMsg, true)) ∧
    (decoded.map Decoded.packageLength).sum = (items.flatMap (encodePackage json)).length

section

variable (documented : json.Documented items) (nulFree : ∀ item ∈ items, 0 ∉ item.sendMsg)
  (small : (items.flatMap (encodePackage json)).length < 2 ^ 64)

include documented nulFree small

theorem streamsBack_of_absent (absent : ∀ item ∈ items, ¬ commJsonMsg <:+: item.sendMsg) :
    StreamsBack json items := by
  refine ⟨items.length + 1, _, decodeLoop_items documented nulFree small (fun _ member => member) rfl
    (Nat.zero_le _) (fun item member => ?_) (Nat.lt_succ_self _), ?_, ?_⟩
  · rw [documented.letters item member, cString_eq (nulFree item member)]
    exact absent item member
  · rw [List.map_map]
    rfl
  · rw [List.map_map, List.length_flatMap]
    rfl

theorem absent_of_streamsBack (back : StreamsBack json items) :
    ∀ item ∈ items, ¬ commJsonMsg <:+: item.sendMsg := by
  obtain ⟨rounds, decoded, result, fields, _⟩ := back
  have sums : ∀ package ∈ decoded, package.checkSum = true := by
    intro package among
    have member : (package.command, package.body, package.checkSum) ∈
        items.map fun item => (item.command, item.sendMsg, true) := by
      rw [← fields]
      exact List.mem_map_of_mem among
    obtain ⟨item, _, same⟩ := List.mem_map.mp member
    exact (congrArg (fun triple => triple.2.2) same).symm
  intro item member present
  refine absent_of_decodeLoop documented nulFree small (fun _ member => member) rfl (Nat.zero_le _) result
    sums item member ?_
  rw [documented.letters item member, cString_eq (nulFree item member)]
  exact present

/-- A stream of packages is decoded as it was encoded if and only if no body has `msg` in it. -/
theorem streamsBack_iff :
    StreamsBack json items ↔ ∀ item ∈ items, ¬ commJsonMsg <:+: item.sendMsg :=
  ⟨absent_of_streamsBack documented nulFree small, streamsBack_of_absent documented nulFree small⟩

end

/-- A reader that knows one package, of a text that needs no escapes. -/
def reading (item : Item) : JsonCpp :=
  { escape := id
    parse := fun text =>
      if encodePackage ⟨id, fun _ => none⟩ item <+: text then some (document item) else none }

theorem encodePackage_reading (item other : Item) :
    encodePackage (reading item) other = encodePackage ⟨id, fun _ => none⟩ other := rfl

theorem documented_reading (item : Item) (plain : ∀ char ∈ cString item.sendMsg, char ∉ ascii ['"', '\\'])
    {items : List Item} (same : ∀ other ∈ items, other = item) : (reading item).Documented items := by
  refine ⟨?_, ?_, fun other _ => Iff.rfl, ?_⟩
  · intro other member rest
    rw [same other member]
    exact if_pos (List.prefix_append ..)
  · intro other member
    rw [same other member]
    change Literal (cString item.sendMsg)
    generalize cString item.sendMsg = text at plain
    induction text with
    | nil => exact .nil
    | cons char text ih =>
      exact .plain (plain char List.mem_cons_self) (ih fun other among =>
        plain other (List.mem_cons_of_mem _ among))
  · intro text name value reads
    obtain ⟨⟨more, rfl⟩, isDocument⟩ := Option.ite_none_right_eq_some.mp reads
    obtain ⟨rfl, _⟩ := Prod.mk.inj (List.cons.inj (Json.object.inj (Option.some.inj isDocument))).1
    obtain ⟨behind, isHead⟩ := headText_eq item
    have literal : Literal commJsonMsg := .plain (by decide) (.plain (by decide) (.plain (by decide) .nil))
    refine ⟨[], [], [], commJsonMsg, behind ++ 34 :: (bodyText (reading item) item ++
      34 :: footText item) ++ more, .inl rfl, .nil, .nil, literal, fun _ => rfl, ?_⟩
    rw [← encodePackage_reading item, encodePackage_eq, isHead]
    simp only [List.cons_append, List.append_assoc, List.nil_append]

/-- Two packages of one letter. -/
theorem streamsBack_letter : StreamsBack (reading ⟨1, [97], 3⟩) [⟨1, [97], 3⟩, ⟨1, [97], 3⟩] :=
  (streamsBack_iff (documented_reading _ (by decide +kernel) (by decide)) (by decide)
    (by decide)).mpr (by decide)

/-- A package with the body `msg` is decoded again and again. -/
theorem not_streamsBack_msg : ¬ ∀ (json : JsonCpp) (items : List Item), json.Documented items →
    (∀ item ∈ items, 0 ∉ item.sendMsg) → (items.flatMap (encodePackage json)).length < 2 ^ 64 →
      StreamsBack json items := by
  intro always
  have documented : (reading ⟨1, commJsonMsg, 3⟩).Documented [⟨1, commJsonMsg, 3⟩] :=
    documented_reading _ (by decide +kernel) (by decide)
  have nulFree : ∀ item ∈ ([⟨1, commJsonMsg, 3⟩] : List Item), 0 ∉ item.sendMsg := by decide
  have back := always _ _ documented nulFree (by decide)
  exact absent_of_streamsBack documented nulFree (by decide) back _ List.mem_cons_self (List.infix_refl _)

end NPPbJsonPackage

end BTool.PbMessage
