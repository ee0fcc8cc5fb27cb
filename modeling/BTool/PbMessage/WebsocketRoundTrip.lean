import Mathlib.Data.List.TakeWhile
import BTool.PbMessage.WebsocketBounds

/-! Websocket packages come back as they were encoded as long as their numbers fit into the fields, and a zero
comes behind the decoder for `strlen`. -/

namespace BTool.PbMessage.NPPbWebsocketPackage

open BTool.Foundation NPPbWebsocketPackage.DecodePackage
open NPPbJsonPackage (cString)

variable {cast : LexicalCast} {command : UInt32} {sendMsg : List UInt8} {pbLen : UInt64} {width : Nat}

/-- A text without zeros ends nowhere before its end. -/
theorem cString_nonzero {text : List UInt8} (nonzero : ∀ byte ∈ text, byte ≠ 0) : cString text = text :=
  List.takeWhile_eq_self_iff.mpr fun byte member => decide_eq_true (nonzero byte member)

theorem nonzero_of_isDigit {byte : UInt8} (isDigit : IsDigit byte) : byte ≠ 0 := by
  rintro rfl
  exact absurd isDigit (by decide)

theorem le_length_printDecimal (positive : 0 < width) (value : Int) :
    width ≤ (printDecimal width value).length := by
  unfold printDecimal
  split
  · rw [List.length_cons, length_zeroPadded]
    omega
  · rw [length_zeroPadded]
    omega

/-- A field holds the first characters of the text. -/
theorem printField_eq (positive : 0 < width) (value : Int32) :
    printField (width + 1) width width value = (printDecimal width value.toInt).take width := by
  have long := le_length_printDecimal positive value.toInt
  have full : ((printDecimal width value.toInt).take width).length = width := by
    rw [List.length_take, Nat.min_eq_left long]
  rw [printField, Nat.add_sub_cancel, List.take_left' full]

theorem length_printField (positive : 0 < width) (value : Int32) :
    (printField (width + 1) width width value).length = width := by
  rw [printField_eq positive, List.length_take, Nat.min_eq_left (le_length_printDecimal positive _)]

/-- A field for a number is read as it if it fits, and as a smaller one otherwise. -/
theorem safeConvert_printDecimal {Number : Type} {toNat : Number → Nat} {bits : Nat}
    {convert : List UInt8 → Option Number} (positive : 0 < width) (enough : 10 ^ width ≤ 2 ^ bits)
    (documented : ∀ text, (convert text).map toNat = wrappedNumber bits text) (number : Nat) :
    ∃ read, safeConvert convert ((printDecimal width (number : Int)).take width) = some read ∧
      (number < 10 ^ width → toNat read = number) ∧ (10 ^ width ≤ number → toNat read < number) := by
  have isDigits : ∀ byte ∈ (printDecimal width (number : Int)).take width, IsDigit byte :=
    fun _ => isDigit_of_mem_printDecimal
  have nonempty : (printDecimal width (number : Int)).take width ≠ [] := by
    rw [← List.length_pos_iff, length_take_printDecimal]
    exact positive
  have small := digitsNumber_lt isDigits
  rw [length_take_printDecimal] at small
  have converts := documented ((printDecimal width (number : Int)).take width)
  rw [wrappedNumber_digits nonempty isDigits (Nat.lt_of_lt_of_le small enough)] at converts
  obtain ⟨read, isRead, same⟩ := Option.map_eq_some_iff.mp converts
  refine ⟨read, ?_, ?_⟩
  · rw [safeConvert, cString_nonzero fun byte member => nonzero_of_isDigit (isDigits byte member)]
    exact isRead
  · rw [same]
    exact digitsNumber_take_printDecimal positive

/-- A field for a negative number is read as 0 or as one that is close to `2 ^ 64`. -/
theorem safeConvert_negative (documented : cast.Documented) {value : Int} (negative : value < 0) :
    ∃ read, safeConvert cast.sizeT ((printDecimal 4 value).take 4) = some read ∧
      (read.toNat = 0 ∨ 2 ^ 63 ≤ read.toNat) := by
  have isDigits : ∀ byte ∈ (zeroPadded 3 (decimalText value.natAbs)).take 3, IsDigit byte := fun _ member =>
    isDigit_of_mem_zeroPadded (fun _ => isDigit_of_mem_decimalText) (List.mem_of_mem_take member)
  have size : ((zeroPadded 3 (decimalText value.natAbs)).take 3).length = 3 := by
    rw [List.length_take, length_zeroPadded]
    omega
  have small := digitsNumber_lt isDigits
  rw [size] at small
  have text : (printDecimal 4 value).take 4 = 45 :: (zeroPadded 3 (decimalText value.natAbs)).take 3 := by
    rw [printDecimal, if_pos negative]
    rfl
  have nonzero : ∀ byte ∈ (printDecimal 4 value).take 4, byte ≠ 0 := by
    rw [text]
    rintro byte member rfl
    rcases List.mem_cons.mp member with sign | digit
    · exact absurd sign (by decide)
    · exact nonzero_of_isDigit (isDigits 0 digit) rfl
  have unsigned : unsignedNumber ((zeroPadded 3 (decimalText value.natAbs)).take 3) = some _ :=
    if_pos ⟨List.length_pos_iff.mp (by omega), isDigits⟩
  have converts := documented.sizeT ((printDecimal 4 value).take 4)
  rw [wrappedNumber, text, signedNumber, unsigned, Option.map_some, Option.bind_some, if_pos (by omega)]
    at converts
  obtain ⟨read, isRead, same⟩ := Option.map_eq_some_iff.mp converts
  refine ⟨read, ?_, by omega⟩
  rw [safeConvert, cString_nonzero nonzero, text]
  exact isRead

/-- A header is read as it was laid down. -/
theorem ofBytes_bytes {head : PackHeader} (first : head.command.length = 4)
    (second : head.pbBodyLength.length = 8) (third : head.checksum.length = 4)
    (fourth : head.bodyLength.length = 8) : PackHeader.ofBytes head.bytes = head := by
  obtain ⟨command, pbBodyLength, checksum, bodyLength⟩ := head
  dsimp only at first second third fourth
  unfold PackHeader.ofBytes PackHeader.bytes
  dsimp only
  congr 1
  · rw [List.append_assoc, List.append_assoc, List.take_left' first]
  · rw [List.append_assoc, List.append_assoc, List.drop_left' first, List.take_left' second]
  · rw [List.append_assoc, List.drop_left' (by rw [List.length_append]; omega), List.take_left' third]
  · rw [List.drop_left' (by simp only [List.length_append]; omega), List.take_of_length_le (by omega)]

/-- The fields of an encoded header have their sizes. -/
theorem ofBytes_encodeHeader (command : UInt32) (sendMsg : List UInt8) (pbLen : UInt64) :
    PackHeader.ofBytes (encodeHeader command sendMsg pbLen).bytes = encodeHeader command sendMsg pbLen :=
  ofBytes_bytes (length_printField (by decide) _) (length_printField (by decide) _)
    (length_printField (by decide) _) (length_printField (by decide) _)

theorem length_bytes_encodeHeader (command : UInt32) (sendMsg : List UInt8) (pbLen : UInt64) :
    (encodeHeader command sendMsg pbLen).bytes.length = headSize := by
  have four (value : Int32) : (printField 5 4 4 value).length = 4 := length_printField (by decide) value
  have eight (value : Int32) : (printField 9 8 8 value).length = 8 := length_printField (by decide) value
  simp only [PackHeader.bytes, encodeHeader, List.length_append, four, eight]
  rfl

theorem length_encodePackage (command : UInt32) (sendMsg : List UInt8) (pbLen : UInt64) :
    (encodePackage command sendMsg pbLen).length = headSize + sendMsg.length := by
  rw [encodePackage, List.length_append, length_bytes_encodeHeader]

/-- What `decode_msg` makes of a package: it is accepted, with this content, where each `strlen` comes to an
end. -/
structure Decodes (cast : LexicalCast) (command : UInt32) (sendMsg : List UInt8)
    (package : DecodePackage) : Prop where
  returned : (package.decodeMsg cast).returned = true
  command : ((package.decodeMsg cast).package.getCommand cast).toNat = command.toNat
  bodyLength : ((package.decodeMsg cast).package.getBodyLength cast).toNat = sendMsg.length
  body : (package.decodeMsg cast).package.getBody cast = some sendMsg
  checkSum : (package.decodeMsg cast).package.checkSum cast = true

section

variable {memory : Nat → UInt8}
  (lies : span memory 0 (encodePackage command sendMsg pbLen).length = encodePackage command sendMsg pbLen)

include lies

theorem head_of_lies (buffLen : UInt64) : (create (some memory) buffLen).readHead.head =
    encodeHeader command sendMsg pbLen := by
  obtain ⟨_, isHead, _⟩ := span_eq_append.mp lies
  rw [length_bytes_encodeHeader] at isHead
  change PackHeader.ofBytes (span memory 0 headSize) = _
  rw [isHead, ofBytes_encodeHeader]

theorem body_of_lies : span memory headSize sendMsg.length = sendMsg := by
  obtain ⟨_, _, isBody⟩ := span_eq_append.mp lies
  rwa [length_bytes_encodeHeader, Nat.zero_add] at isBody

end

private theorem toInt_toInt32 {number : UInt32} (small : number.toNat < 2 ^ 31) :
    number.toInt32.toInt = number.toNat := by
  rw [← Int32.toInt_toBitVec, UInt32.toBitVec_toInt32,
    BitVec.toInt_eq_toNat_of_lt (by rw [UInt32.toNat_toBitVec]; omega), UInt32.toNat_toBitVec]

private theorem toInt_neg {number : UInt32} (large : 2 ^ 31 ≤ number.toNat) : number.toInt32.toInt < 0 := by
  rw [← Int32.toInt_toBitVec, UInt32.toBitVec_toInt32, BitVec.toInt_neg_iff, UInt32.toNat_toBitVec]
  omega

/-- The command that a header is read as is the one encoded exactly if it has four digits at most. -/
theorem command_iff (documented : cast.Documented) :
    ((safeConvert cast.sizeT (encodeHeader command sendMsg pbLen).command).getD 0).toNat = command.toNat ↔
      command.toNat ≤ 9999 := by
  have limit := command.toNat_lt
  have isField : (encodeHeader command sendMsg pbLen).command =
      (printDecimal 4 command.toInt32.toInt).take 4 := printField_eq (by decide) _
  rw [isField]
  by_cases natural : command.toNat < 2 ^ 31
  · obtain ⟨read, isRead, small, large⟩ :=
      safeConvert_printDecimal (by decide : 0 < 4) (by decide) documented.sizeT command.toNat
    rw [toInt_toInt32 natural, isRead, Option.getD_some]
    constructor
    · intro same
      by_contra more
      have := large (by omega)
      omega
    · intro fits
      exact small (by omega)
  · obtain ⟨read, isRead, zero | huge⟩ := safeConvert_negative documented (toInt_neg (Nat.le_of_not_lt natural))
    all_goals
      rw [isRead, Option.getD_some]
      exact iff_of_false (by omega) (by omega)

theorem bodyLength_eq (short : sendMsg.length < 2 ^ 31) : (encodeHeader command sendMsg pbLen).bodyLength =
    (printDecimal 8 (sendMsg.length : Int)).take 8 := by
  have size : (UInt32.ofNat sendMsg.length).toNat = sendMsg.length := UInt32.toNat_ofNat_of_lt' (by
    change sendMsg.length < 2 ^ 32
    omega)
  have isInt : (UInt32.ofNat sendMsg.length).toInt32.toInt = sendMsg.length := by
    rw [toInt_toInt32 (by rw [size]; exact short), size]
  rw [← isInt]
  exact printField_eq (by decide) _

/-- The length of the body is read as it is if it has eight digits at most, and as a smaller one
otherwise. -/
theorem bodyLength_read (documented : cast.Documented) (short : sendMsg.length < 2 ^ 31) :
    ∃ read, safeConvert cast.sizeT (encodeHeader command sendMsg pbLen).bodyLength = some read ∧
      (sendMsg.length < 10 ^ 8 → read.toNat = sendMsg.length) ∧
      (10 ^ 8 ≤ sendMsg.length → read.toNat < sendMsg.length) := by
  rw [bodyLength_eq short]
  exact safeConvert_printDecimal (by decide) (by decide) documented.sizeT _

/-- The checksum fits into its field. -/
theorem checksum_read (documented : cast.Documented) :
    safeConvert cast.uint32 (encodeHeader command sendMsg pbLen).checksum = some (generateChecksum sendMsg) := by
  have small : (generateChecksum sendMsg).toNat < 256 := by
    unfold generateChecksum NPPbJsonPackage.generateChecksum
    rw [UInt32.toNat_mod]
    exact Nat.mod_lt _ (by decide)
  have isField : (encodeHeader command sendMsg pbLen).checksum =
      (printDecimal 4 ((generateChecksum sendMsg).toNat : Int)).take 4 := by
    rw [← toInt_toInt32 (by omega)]
    exact printField_eq (by decide) _
  obtain ⟨read, isRead, same, _⟩ :=
    safeConvert_printDecimal (by decide : 0 < 4) (by decide) documented.uint32 (generateChecksum sendMsg).toNat
  rw [isField, isRead, UInt32.toNat_inj.mp (same (by omega))]

theorem buffLen_encoded (short : sendMsg.length < 2 ^ 31) :
    (UInt64.ofNat (encodePackage command sendMsg pbLen).length).toNat = headSize + sendMsg.length := by
  rw [length_encodePackage]
  exact UInt64.toNat_ofNat_of_lt' (by change 24 + _ < 2 ^ 64; omega)

/-- A package that has been encoded has its header. -/
theorem vaild_encoded {memory : Nat → UInt8} (short : sendMsg.length < 2 ^ 31) :
    (create (some memory) (UInt64.ofNat (encodePackage command sendMsg pbLen).length)).vaild
      (UInt64.ofNat headSize) = true := by
  refine vaild_iff.mpr ⟨rfl, ?_⟩
  change (0 + headSize) % 2 ^ 64 ≤ (UInt64.ofNat (encodePackage command sendMsg pbLen).length).toNat
  rw [buffLen_encoded short]
  exact Nat.le_add_right headSize _

/-- A package that has been encoded is accepted, with the length that is read. -/
theorem decodeMsg_encoded {memory : Nat → UInt8} {read : UInt64} (short : sendMsg.length < 2 ^ 31)
    (lies : span memory 0 (encodePackage command sendMsg pbLen).length =
      encodePackage command sendMsg pbLen)
    (isRead : safeConvert cast.sizeT (encodeHeader command sendMsg pbLen).bodyLength = some read)
    (within : read.toNat ≤ sendMsg.length) :
    let package := create (some memory) (UInt64.ofNat (encodePackage command sendMsg pbLen).length)
    package.decodeMsg cast = { returned := true, copied := [(0, headSize)]
                               package := { package.readHead with
                                 packLen := UInt64.ofNat headSize + read, status := .decodeMsg } } := by
  intro package
  have size : package.buffLen.toNat = headSize + sendMsg.length := buffLen_encoded short
  have headLen : (UInt64.ofNat headSize).toNat = headSize := rfl
  have room : package.vaild (UInt64.ofNat headSize) = true := vaild_encoded short
  have whole : package.vaild (UInt64.ofNat headSize + read) = true := by
    refine vaild_iff.mpr ⟨rfl, ?_⟩
    rw [size, UInt64.toNat_add, headLen]
    change (0 + (24 + read.toNat) % 2 ^ 64) % 2 ^ 64 ≤ 24 + sendMsg.length
    omega
  have isHead : package.readHead.head = encodeHeader command sendMsg pbLen := head_of_lies lies _
  rw [DecodePackage.decodeMsg, if_pos room]
  simp only [isHead, isRead]
  exact if_pos whole

/-- A package is decoded exactly if its command has four digits at most and the length of its body eight. -/
theorem decodes_iff {memory : Nat → UInt8} (documented : cast.Documented) (short : sendMsg.length < 2 ^ 31)
    (lies : span memory 0 (encodePackage command sendMsg pbLen).length =
      encodePackage command sendMsg pbLen) :
    Decodes cast command sendMsg
        (create (some memory) (UInt64.ofNat (encodePackage command sendMsg pbLen).length)) ↔
      command.toNat ≤ 9999 ∧ sendMsg.length ≤ 99999999 := by
  obtain ⟨read, isRead, small, large⟩ := bodyLength_read documented short
  have within : read.toNat ≤ sendMsg.length := by omega
  have decoding := decodeMsg_encoded short lies isRead within
  have isHead := head_of_lies lies (UInt64.ofNat (encodePackage command sendMsg pbLen).length)
  dsimp only at decoding
  have isBytes : (create (some memory) (UInt64.ofNat (encodePackage command sendMsg pbLen).length)).bytesAt
      headSize sendMsg.length = sendMsg := body_of_lies lies
  have atStart : (create (some memory) (UInt64.ofNat (encodePackage command sendMsg pbLen).length)).offset =
      0 := rfl
  generalize create (some memory) (UInt64.ofNat (encodePackage command sendMsg pbLen).length) = package
    at decoding isHead isBytes atStart
  have isLength : (package.decodeMsg cast).package.getBodyLength cast = read := by
    rw [decoding, getBodyLength]
    change (safeConvert cast.sizeT package.readHead.head.bodyLength).getD 0 = read
    rw [isHead, isRead, Option.getD_some]
  have isCommand : (package.decodeMsg cast).package.getCommand cast =
      (safeConvert cast.sizeT (encodeHeader command sendMsg pbLen).command).getD 0 := by
    rw [decoding, ← isHead]
    rfl
  constructor
  · rintro ⟨_, sameCommand, sameLength, _, _⟩
    rw [isCommand] at sameCommand
    rw [isLength] at sameLength
    refine ⟨(command_iff documented).mp sameCommand, ?_⟩
    by_contra long
    have := large (by omega)
    omega
  · rintro ⟨fourDigits, eightDigits⟩
    have sameLength := small (by omega)
    have isBody : (package.decodeMsg cast).package.getBody cast = some sendMsg := by
      unfold getBody
      rw [isLength, decoding, sameLength]
      change some (package.bytesAt (package.offset.toNat + headSize) sendMsg.length) = some sendMsg
      rw [atStart, UInt64.toNat_zero, Nat.zero_add, isBytes]
    have isChecksum : (package.decodeMsg cast).package.head.checksum =
        (encodeHeader command sendMsg pbLen).checksum := by
      rw [decoding, ← isHead]
    refine ⟨by rw [decoding], ?_, by rw [isLength, sameLength], isBody, ?_⟩
    · rw [isCommand]
      exact (command_iff documented).mpr fourDigits
    · rw [DecodePackage.checkSum, isBody]
      dsimp only
      rw [isChecksum, checksum_read documented]
      exact beq_self_eq_true _

/-- The content of a package that has been decoded, as the functions read it. -/
structure Holds (cast : LexicalCast) (behind : List UInt8) (command : UInt32) (sendMsg : List UInt8)
    (package : DecodePackage) : Prop where
  command : (package.getCommandAt cast behind).map UInt64.toNat = some command.toNat
  bodyLength : (package.getBodyLengthAt cast behind).map UInt64.toNat = some sendMsg.length
  body : package.getBody cast = some sendMsg
  checkSum : package.checkSumAt cast behind = some true

/-- `decode_msg` comes to an end and accepts a package, with this content. -/
def ComesBack (cast : LexicalCast) (behind : List UInt8) (command : UInt32) (sendMsg : List UInt8)
    (package : DecodePackage) : Prop :=
  ∃ decoding, package.decodeMsgAt cast behind = some decoding ∧ decoding.returned = true ∧
    Holds cast behind command sendMsg decoding.package

/-- `SafeConvert` of a field, with what is behind the field. -/
theorem safeConvertAt_field {Number : Type} (convert : List UInt8 → Option Number) {field rest : List UInt8}
    {count : Nat} (size : field.length = count) : safeConvertAt convert (field ++ rest) count =
      if 0 ∈ field ++ rest then some (safeConvert convert field) else none := by
  unfold safeConvertAt strlen
  by_cases ends : 0 ∈ field ++ rest
  · rw [if_pos ends, if_pos ends, Option.map_some, safeConvert]
    have front : cString field <+: field := List.takeWhile_prefix _
    have start : cString field = field.take (cString field).length := List.prefix_iff_eq_take.mp front
    have split : cString (field ++ rest) =
        if (cString field).length = field.length then field ++ cString rest else cString field :=
      List.takeWhile_append
    rw [split]
    by_cases whole : (cString field).length = field.length
    · rw [if_pos whole, List.length_append, if_neg (by omega), List.take_left' size]
      rw [whole, List.take_length] at start
      rw [start]
    · have shorter := front.length_le
      rw [if_neg whole, if_pos (by omega), List.take_append_of_le_length shorter, ← start]
  · rw [if_neg ends, if_neg ends, Option.map_none]

/-- Where a zero comes behind a field, its `strlen` comes to an end. -/
theorem safeConvertAt_of_mem {Number : Type} {convert : List UInt8 → Option Number} {field rest : List UInt8}
    {count : Nat} (size : field.length = count) (zero : 0 ∈ rest) :
    safeConvertAt convert (field ++ rest) count = some (safeConvert convert field) := by
  rw [safeConvertAt_field convert size, if_pos (List.mem_append_right _ zero)]

/-- The digits of a header hold no zero. -/
theorem zero_not_mem_bodyLength (short : sendMsg.length < 2 ^ 31) :
    0 ∉ (encodeHeader command sendMsg pbLen).bodyLength := by
  rw [bodyLength_eq short]
  intro member
  exact nonzero_of_isDigit (isDigit_of_mem_printDecimal member) rfl

section

variable {package : DecodePackage} {behind : List UInt8}

/-- The fields of a header have their sizes. -/
structure PackHeader.Sized (head : PackHeader) : Prop where
  command : head.command.length = 4
  checksum : head.checksum.length = 4
  bodyLength : head.bodyLength.length = 8

theorem sized_encodeHeader : (encodeHeader command sendMsg pbLen).Sized :=
  ⟨length_printField (by decide) _, length_printField (by decide) _, length_printField (by decide) _⟩

/-- `decode_msg` reads the header, if it is there, and leaves it. -/
theorem head_decodeMsg (room : package.vaild (UInt64.ofNat headSize) = true) :
    (package.decodeMsg cast).package.head = package.readHead.head := by
  unfold decodeMsg
  rw [if_pos room]
  dsimp only
  split
  · rfl
  · split <;> rfl

/-- What the `strlen` of the length of the body comes to. -/
theorem decodeMsgAt_eq (room : package.vaild (UInt64.ofNat headSize) = true) (sized : package.readHead.head.Sized) :
    package.decodeMsgAt cast behind =
      if 0 ∈ package.readHead.head.bodyLength ++ behind then some (package.decodeMsg cast) else none := by
  unfold decodeMsgAt decodeMsg
  rw [if_pos room, if_pos room]
  dsimp only
  rw [safeConvertAt_field cast.sizeT sized.bodyLength]
  split
  · rfl
  · rfl

theorem getCommandAt_eq (sized : package.head.Sized) (zero : 0 ∈ behind) :
    package.getCommandAt cast behind = some (package.getCommand cast) := by
  have later : 0 ∈ package.head.pbBodyLength ++ (package.head.checksum ++ (package.head.bodyLength ++ behind)) := by
    simp [zero]
  simp only [getCommandAt, PackHeader.bytes, List.append_assoc, safeConvertAt_of_mem sized.command later]
  rfl

theorem getBodyLengthAt_eq (sized : package.head.Sized) (zero : 0 ∈ behind) :
    package.getBodyLengthAt cast behind = some (package.getBodyLength cast) := by
  rw [getBodyLengthAt, safeConvertAt_of_mem sized.bodyLength zero]
  rfl

theorem checkSumAt_eq (sized : package.head.Sized) (zero : 0 ∈ behind) :
    package.checkSumAt cast behind = some (package.checkSum cast) := by
  unfold checkSumAt checkSum getBody
  cases package.status with
  | decodeInit => rfl
  | decodeMsg =>
    dsimp only
    rw [List.append_assoc, safeConvertAt_of_mem sized.checksum (List.mem_append_right _ zero),
      getBodyLengthAt_eq sized zero]
    cases safeConvert cast.uint32 package.head.checksum <;> rfl

end

/-- Where no zero comes behind the package, the `strlen` of the length of the body reads on and on; else a package
comes back exactly if its command has four digits at most and the length of its body eight. -/
theorem comesBack_iff {memory : Nat → UInt8} {behind : List UInt8} (documented : cast.Documented)
    (short : sendMsg.length < 2 ^ 31)
    (lies : span memory 0 (encodePackage command sendMsg pbLen).length =
      encodePackage command sendMsg pbLen) :
    ComesBack cast behind command sendMsg
        (create (some memory) (UInt64.ofNat (encodePackage command sendMsg pbLen).length)) ↔
      command.toNat ≤ 9999 ∧ sendMsg.length ≤ 99999999 ∧ 0 ∈ behind := by
  have decodes := decodes_iff documented short lies
  have room : (create (some memory) (UInt64.ofNat (encodePackage command sendMsg pbLen).length)).vaild
      (UInt64.ofNat headSize) = true := vaild_encoded short
  have isHead := head_of_lies lies (UInt64.ofNat (encodePackage command sendMsg pbLen).length)
  generalize create (some memory) (UInt64.ofNat (encodePackage command sendMsg pbLen).length) = package
    at decodes room isHead
  have sized : package.readHead.head.Sized := by
    rw [isHead]
    exact sized_encodeHeader
  have decoding : package.decodeMsgAt cast behind =
      if 0 ∈ package.readHead.head.bodyLength ++ behind then some (package.decodeMsg cast) else none :=
    decodeMsgAt_eq room sized
  by_cases zero : 0 ∈ behind
  · rw [if_pos (List.mem_append_right _ zero)] at decoding
    have sizedAfter : (package.decodeMsg cast).package.head.Sized := by
      rw [head_decodeMsg room]
      exact sized
    have same : ComesBack cast behind command sendMsg package ↔ Decodes cast command sendMsg package := by
      constructor
      · rintro ⟨other, isOther, returned, holds⟩
        obtain rfl := Option.some.inj (decoding.symm.trans isOther)
        obtain ⟨isCommand, isLength, isBody, isSum⟩ := holds
        rw [getCommandAt_eq sizedAfter zero] at isCommand
        rw [getBodyLengthAt_eq sizedAfter zero] at isLength
        rw [checkSumAt_eq sizedAfter zero] at isSum
        exact ⟨returned, Option.some.inj isCommand, Option.some.inj isLength, isBody, Option.some.inj isSum⟩
      · rintro ⟨returned, isCommand, isLength, isBody, isSum⟩
        refine ⟨_, decoding, returned, ?_, ?_, isBody, ?_⟩
        · rw [getCommandAt_eq sizedAfter zero, Option.map_some, isCommand]
        · rw [getBodyLengthAt_eq sizedAfter zero, Option.map_some, isLength]
        · rw [checkSumAt_eq sizedAfter zero, isSum]
    rw [same, decodes, and_iff_left zero]
  · refine iff_of_false ?_ fun all => zero all.2.2
    rintro ⟨other, isOther, _⟩
    rw [isHead, if_neg fun member => ?_] at decoding
    · cases decoding.symm.trans isOther
    · exact (List.mem_append.mp member).elim (zero_not_mem_bodyLength short) zero

/-- A package of the command 7 and a body of two bytes, with a zero behind the decoder. -/
theorem comesBack_iff_seven : ComesBack boostCast [0] 7 [200, 1]
    (create (some fun index => (encodePackage 7 [200, 1] 2).getD index 0) 26) := by
  have lies : span (fun index => (encodePackage 7 [200, 1] 2).getD index 0) 0
      (encodePackage 7 [200, 1] 2).length = encodePackage 7 [200, 1] 2 := by decide +kernel
  have size : UInt64.ofNat (encodePackage 7 [200, 1] 2).length = 26 := by
    rw [length_encodePackage]
    rfl
  have back := (comesBack_iff documented_boostCast (by decide) lies).mpr
    ⟨by decide, by decide, List.mem_singleton_self 0⟩
  rwa [size] at back

/-- The command 12345 comes back as 1234. -/
theorem not_comesBack_five :
    (((create (some fun index => (encodePackage 12345 [] 0).getD index 0) 24).decodeMsgAt boostCast [0]).bind
      fun decoding => decoding.package.getCommandAt boostCast [0]) = some 1234 ∧
    ¬ ∀ (cast : LexicalCast) (command : UInt32) (sendMsg : List UInt8) (pbLen : UInt64)
      (memory : Nat → UInt8) (behind : List UInt8), cast.Documented → sendMsg.length < 2 ^ 31 →
      span memory 0 (encodePackage command sendMsg pbLen).length = encodePackage command sendMsg pbLen →
      0 ∈ behind → ComesBack cast behind command sendMsg
        (create (some memory) (UInt64.ofNat (encodePackage command sendMsg pbLen).length)) := by
  have isCommand :
      (((create (some fun index => (encodePackage 12345 [] 0).getD index 0) 24).decodeMsgAt boostCast [0]).bind
        fun decoding => decoding.package.getCommandAt boostCast [0]) = some 1234 := by
    decide +kernel
  refine ⟨isCommand, fun always => ?_⟩
  have back := always boostCast 12345 [] 0 (fun index => (encodePackage 12345 [] 0).getD index 0) [0]
    documented_boostCast (by decide) (by decide +kernel) (List.mem_singleton_self 0)
  have size : UInt64.ofNat (encodePackage 12345 [] 0).length = 24 := by
    rw [length_encodePackage]
    rfl
  rw [size] at back
  obtain ⟨decoding, isDecoding, _, holds⟩ := back
  rw [isDecoding, Option.bind_some] at isCommand
  have same := holds.command
  rw [isCommand] at same
  exact absurd same (by decide)

end BTool.PbMessage.NPPbWebsocketPackage
