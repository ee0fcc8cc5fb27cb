import BTool.PbMessage.MemoryPackage

/-! Packages that are encoded one behind the other are decoded again, also where the stream ends
within a further one. -/

namespace BTool.PbMessage

open BTool.Foundation

variable {headSize : Nat} {package : DecodePackage headSize} {behind sendMsg : List UInt8}
  {command : UInt16}

theorem length_encodePackage (behind : List UInt8) (command : UInt16) (sendMsg : List UInt8) :
    (encodePackage behind command sendMsg).length = 6 + behind.length + sendMsg.length + tailSize := by
  simp only [encodePackage, List.length_append, length_networkBytes, tailSize]

namespace DecodePackage

theorem vaild_iff {readLength : UInt32} : package.vaild readLength = true ↔
    (package.offset.toNat + readLength.toNat) % 2 ^ 32 ≤ package.buffLen.toNat := by
  unfold vaild
  rw [decide_eq_true_iff, UInt32.le_iff_toNat_le, UInt32.toNat_add]

/-- Where the sum stays below `2 ^ 32`, `vaild` compares the numbers themselves. -/
theorem vaild_iff_of_lt {readLength : UInt32}
    (small : package.offset.toNat + readLength.toNat < 2 ^ 32) : package.vaild readLength = true ↔
      package.offset.toNat + readLength.toNat ≤ package.buffLen.toNat := by
  rw [vaild_iff, Nat.mod_eq_of_lt small]

theorem vaild_ofNat_iff {readLength : Nat} (small : package.offset.toNat + readLength < 2 ^ 32) :
    package.vaild (UInt32.ofNat readLength) = true ↔
      package.offset.toNat + readLength ≤ package.buffLen.toNat := by
  have same : (UInt32.ofNat readLength).toNat = readLength := UInt32.toNat_ofNat_of_lt' (by
    change readLength < 2 ^ 32
    omega)
  rw [vaild_iff_of_lt (by rwa [same]), same]

section

variable (package)

@[simp] theorem readHead_memory : package.readHead.memory = package.memory := rfl

@[simp] theorem readHead_buffLen : package.readHead.buffLen = package.buffLen := rfl

@[simp] theorem readHead_offset : package.readHead.offset = package.offset := rfl

@[simp] theorem readTail_memory : package.readTail.memory = package.memory := rfl

@[simp] theorem readTail_offset : package.readTail.offset = package.offset := rfl

@[simp] theorem readTail_command : package.readTail.command = package.command := rfl

@[simp] theorem readTail_bodyLength : package.readTail.bodyLength = package.bodyLength := rfl

@[simp] theorem decodeNext_eq : package.decodeNext =
    startingAt headSize package.memory package.buffLen (package.offset + package.packLen) := rfl

end

/-- The first bytes of an encoded package are a header for its command, and for its length as long as
that is below `2 ^ 32`. -/
theorem readHead_encoded (layout : headSize = 6 + behind.length)
    (small : (encodePackage behind command sendMsg).length < 2 ^ 32)
    (lies : span package.memory package.offset.toNat 6 =
      networkBytes 2 command.toNat ++ networkBytes 4 (UInt32.ofNat sendMsg.length).toNat) :
    package.readHead.command = command ∧ package.readHead.bodyLength.toNat = sendMsg.length ∧
      package.readHead.packLen = UInt32.ofNat (encodePackage behind command sendMsg).length := by
  have size := length_encodePackage behind command sendMsg
  have whole : (UInt32.ofNat sendMsg.length).toNat = sendMsg.length := UInt32.toNat_ofNat_of_lt' (by
    change sendMsg.length < 2 ^ 32
    omega)
  obtain ⟨_, first, second⟩ := span_eq_append.mp lies
  simp only [length_networkBytes] at first second
  have isCommand : package.headCommand = command.toNat := by
    rw [headCommand, first]
    exact networkNumber_of_lt command.toNat_lt
  have isLength : package.headBodyLength = sendMsg.length := by
    rw [headBodyLength, second, whole]
    exact networkNumber_of_lt (by omega)
  refine ⟨?_, ?_, ?_⟩
  · rw [readHead, isCommand, UInt16.ofNat_toNat]
  · rw [readHead, isLength, whole]
  · have sum : headSize + sendMsg.length + tailSize = (encodePackage behind command sendMsg).length := by
      rw [size, layout]
    simp only [readHead, isLength, whole, sum]

/-- A whole package at the offset is decoded, and the next one begins behind it. -/
theorem decodes_encoded (package : DecodePackage headSize) (layout : headSize = 6 + behind.length)
    (fresh : package.status = .decodeInit)
    (lies : span package.memory package.offset.toNat (encodePackage behind command sendMsg).length =
      encodePackage behind command sendMsg)
    (inside : package.offset.toNat + (encodePackage behind command sendMsg).length ≤
      package.buffLen.toNat) :
    package.decodes.returned = true ∧
      package.decodes.package.decoded =
        { command := command.toNat, bodyLength := sendMsg.length, body := some sendMsg,
          checkSum := true } ∧
      package.decodes.package.decodeNext =
        startingAt headSize package.memory package.buffLen
          (package.offset + UInt32.ofNat (encodePackage behind command sendMsg).length) := by
  have size := length_encodePackage behind command sendMsg
  have bound := package.buffLen.toNat_lt
  -- The parts of the package, each where it lies.
  obtain ⟨_, front, tail⟩ := span_eq_append.mp lies
  obtain ⟨_, front, body⟩ := span_eq_append.mp front
  obtain ⟨_, head, _⟩ := span_eq_append.mp front
  simp only [List.length_append, length_networkBytes] at head body tail
  obtain ⟨isCommand, isLength, isPackLen⟩ := readHead_encoded layout (by omega) head
  have room : package.vaild (UInt32.ofNat (headSize + tailSize)) = true :=
    (vaild_ofNat_iff (by omega)).mpr (by omega)
  have whole : package.readHead.vaild package.readHead.packLen = true := by
    rw [isPackLen]
    exact (vaild_ofNat_iff (by rw [readHead_offset]; omega)).mpr inside
  have decoding : package.decodes.returned = true ∧
      package.decodes.package = package.readHead.readTail := by
    unfold decodes hasNext decodeMsg
    rw [fresh]
    simp only [room, whole, if_true, and_self]
  have isBody : package.readHead.readTail.getBody = some sendMsg := by
    have start : package.offset.toNat + headSize = package.offset.toNat + (2 + 4 + behind.length) := by
      omega
    simp only [getBody, readTail, readHead_memory, readHead_offset, isLength, start, body]
  have isTail : package.readHead.readTail.checksum = generateChecksum sendMsg := by
    have start : package.readHead.tailStart =
        package.offset.toNat + (2 + 4 + behind.length + sendMsg.length) := by
      rw [tailStart, isLength, readHead_offset]
      omega
    simp only [readTail, start, readHead_memory, tailSize, tail]
    rw [networkNumber_of_lt (generateChecksum sendMsg).toNat_lt, UInt16.ofNat_toNat]
  refine ⟨decoding.1, ?_, ?_⟩
  · rw [decoding.2, decoded, checkSum, isBody, isTail, getCommand, getBodyLength, readTail_command,
      readTail_bodyLength, isCommand, isLength, UInt16.toNat_toUInt32]
    simp only [beq_self_eq_true]
  · rw [decoding.2, decodeNext_eq, ← isPackLen]
    rfl

/-- A part of a package at the end of the buffer is not decoded. -/
theorem decodes_part (package : DecodePackage headSize) {part : List UInt8}
    (layout : headSize = 6 + behind.length) (fresh : package.status = .decodeInit)
    (small : package.offset.toNat + (encodePackage behind command sendMsg).length < 2 ^ 32)
    (isPart : part <+: encodePackage behind command sendMsg)
    (short : part.length < (encodePackage behind command sendMsg).length)
    (lies : span package.memory package.offset.toNat part.length = part)
    (finish : package.offset.toNat + part.length = package.buffLen.toNat) :
    package.decodes.returned = false ∧ package.decodes.package.offset = package.offset := by
  have size := length_encodePackage behind command sendMsg
  unfold decodes hasNext decodeMsg
  rw [fresh]
  simp only
  by_cases room : package.vaild (UInt32.ofNat (headSize + tailSize)) = true
  · have long := (vaild_ofNat_iff (by omega)).mp room
    have head : span package.memory package.offset.toNat 6 =
        networkBytes 2 command.toNat ++ networkBytes 4 (UInt32.ofNat sendMsg.length).toNat := by
      have fields : networkBytes 2 command.toNat ++ networkBytes 4 (UInt32.ofNat sendMsg.length).toNat <+:
          encodePackage behind command sendMsg := by
        simp only [encodePackage, List.append_assoc]
        exact ⟨_, by rw [List.append_assoc]⟩
      have six : (networkBytes 2 command.toNat ++
          networkBytes 4 (UInt32.ofNat sendMsg.length).toNat).length = 6 := by
        rw [List.length_append, length_networkBytes, length_networkBytes]
      have front := List.prefix_of_prefix_length_le fields isPart (by rw [six]; omega)
      simpa only [six] using span_of_prefix front lies
    obtain ⟨_, _, isPackLen⟩ := readHead_encoded layout (by omega) head
    have beyond : ¬ package.readHead.vaild package.readHead.packLen = true := by
      rw [isPackLen, vaild_ofNat_iff (by rw [readHead_offset]; omega), readHead_offset, readHead_buffLen]
      omega
    simp only [room, beyond, if_true, Bool.false_eq_true, if_false, readHead_offset, and_self]
  · simp only [room, Bool.false_eq_true, if_false, and_self]

end DecodePackage

/-- What a package of this content is decoded to. -/
def sent (command : UInt16) (sendMsg : List UInt8) : Decoded :=
  { command := command.toNat, bodyLength := sendMsg.length, body := some sendMsg, checkSum := true }

/-- Packages of a kind are decoded as they were encoded: whatever has been encoded one behind the
other, with a part of one more behind it, the loop decodes the whole packages and stands behind them. -/
def RoundTrips {Item : Type} (headSize : Nat) (encode : Item → List UInt8) (expected : Item → Decoded) :
    Prop :=
  ∀ (items : List Item) (last : Item) (part : List UInt8) (memory : Nat → UInt8) (rounds : Nat),
    part <+: encode last → part.length < (encode last).length →
    (items.flatMap encode ++ encode last).length < 2 ^ 32 →
    span memory 0 (items.flatMap encode ++ part).length = items.flatMap encode ++ part →
    items.length < rounds →
    ∃ final : DecodePackage headSize,
      decodeLoop rounds (.create headSize memory (UInt32.ofNat (items.flatMap encode ++ part).length)) =
        some (items.map expected, final) ∧
      final.getDealLen.toNat = (items.flatMap encode).length

/-- Bytes that `EncodePackage` laid down, and what they are decoded to. -/
def Encodes (headSize : Nat) (bytes : List UInt8) (decoded : Decoded) : Prop :=
  ∃ behind command sendMsg, headSize = 6 + List.length behind ∧
    bytes = encodePackage behind command sendMsg ∧ decoded = sent command sendMsg

/-- The loop from an offset on. -/
private theorem decodeLoop_from {Item : Type} {encode : Item → List UInt8} {expected : Item → Decoded}
    (encodes : ∀ item, Encodes headSize (encode item) (expected item)) {items : List Item} {last : Item}
    {part : List UInt8} {memory : Nat → UInt8} {buffLen offset : UInt32} {rounds : Nat}
    (isPart : part <+: encode last) (short : part.length < (encode last).length)
    (small : offset.toNat + (items.flatMap encode).length + (encode last).length < 2 ^ 32)
    (lies : span memory offset.toNat (items.flatMap encode ++ part).length =
      items.flatMap encode ++ part)
    (finish : offset.toNat + (items.flatMap encode ++ part).length = buffLen.toNat)
    (enough : items.length < rounds) :
    ∃ final : DecodePackage headSize,
      decodeLoop rounds (.startingAt headSize memory buffLen offset) = some (items.map expected, final) ∧
        final.offset.toNat = offset.toNat + (items.flatMap encode).length := by
  induction items generalizing offset rounds with
  | nil =>
    obtain ⟨rounds, rfl⟩ : ∃ left, rounds = left + 1 := ⟨rounds - 1, by omega⟩
    obtain ⟨behind, command, sendMsg, layout, isLast, _⟩ := encodes last
    rw [isLast] at isPart short small
    obtain ⟨ends, same⟩ := DecodePackage.decodes_part (.startingAt headSize memory buffLen offset)
      layout rfl small isPart short lies finish
    refine ⟨_, ?_, congrArg UInt32.toNat same⟩
    simp only [decodeLoop, ends, Bool.false_eq_true, if_false, List.map_nil]
  | cons item items ih =>
    rw [List.length_cons] at enough
    obtain ⟨rounds, rfl⟩ : ∃ left, rounds = left + 1 := ⟨rounds - 1, by omega⟩
    obtain ⟨behind, command, sendMsg, layout, isItem, isExpected⟩ := encodes item
    rw [List.flatMap_cons] at small lies finish ⊢
    rw [List.append_assoc] at lies finish
    rw [List.length_append] at small finish ⊢
    obtain ⟨_, first, later⟩ := span_eq_append.mp lies
    have bound := buffLen.toNat_lt
    rw [isItem] at small finish first later ⊢
    obtain ⟨decodes, isDecoded, isNext⟩ :=
      DecodePackage.decodes_encoded (.startingAt headSize memory buffLen offset) layout rfl first
        (by change offset.toNat + _ ≤ buffLen.toNat; omega)
    -- The rest of the stream lies behind the package, and no sum passes `2 ^ 32`.
    have next : (offset + UInt32.ofNat (encodePackage behind command sendMsg).length).toNat =
        offset.toNat + (encodePackage behind command sendMsg).length := by
      rw [UInt32.toNat_add, UInt32.toNat_ofNat', Nat.add_mod_mod, Nat.mod_eq_of_lt (by omega)]
    obtain ⟨final, runs, stands⟩ := ih (by omega) (next ▸ later) (by omega)
      (Nat.lt_of_succ_lt_succ enough)
    refine ⟨final, ?_, by omega⟩
    rw [decodeLoop, decodes, if_pos rfl, isNext, isDecoded]
    refine (congrArg (Option.map _) runs).trans ?_
    rw [List.map_cons, isExpected]
    rfl

/-- Packages of any kind that `EncodePackage` lays down come back. -/
private theorem roundTrips_of_encodes {Item : Type} {encode : Item → List UInt8}
    {expected : Item → Decoded} (encodes : ∀ item, Encodes headSize (encode item) (expected item)) :
    RoundTrips headSize encode expected := by
  intro items last part memory rounds isPart short small lies enough
  rw [List.length_append] at small
  have size : (UInt32.ofNat (items.flatMap encode ++ part).length).toNat =
      (items.flatMap encode ++ part).length := UInt32.toNat_ofNat_of_lt' (by
    change (items.flatMap encode ++ part).length < 2 ^ 32
    rw [List.length_append]
    omega)
  obtain ⟨final, runs, stands⟩ : ∃ final : DecodePackage headSize, decodeLoop rounds
      (.startingAt headSize memory (UInt32.ofNat (items.flatMap encode ++ part).length) 0) =
        some (items.map expected, final) ∧
        final.offset.toNat = (0 : UInt32).toNat + (items.flatMap encode).length :=
    decodeLoop_from encodes isPart short (by rw [UInt32.toNat_zero]; omega) lies
      (by rw [UInt32.toNat_zero, size, Nat.zero_add]) enough
  rw [UInt32.toNat_zero, Nat.zero_add] at stands
  exact ⟨final, runs, stands⟩

/-- The packages of both kinds come back from a stream. -/
theorem encodePackage_roundTrips :
    RoundTrips NPPbMemoryPackage.headSize
        (fun (command, sendMsg) => NPPbMemoryPackage.encodePackage command sendMsg)
        (fun (command, sendMsg) => sent command sendMsg) ∧
      RoundTrips NPPb3DESMemoryPackage.headSize
        (fun (command, sendMsg, pbLen) => NPPb3DESMemoryPackage.encodePackage command sendMsg pbLen)
        (fun (command, sendMsg, _) => sent command sendMsg) := by
  constructor
  · apply roundTrips_of_encodes
    rintro ⟨command, sendMsg⟩
    exact ⟨[], command, sendMsg, rfl, rfl, rfl⟩
  · apply roundTrips_of_encodes
    rintro ⟨command, sendMsg, pbLen⟩
    exact ⟨networkBytes 4 (UInt32.ofNat pbLen).toNat, command, sendMsg,
      by rw [length_networkBytes]; rfl, rfl, rfl⟩

/-- Two packages, and the header of a third. -/
theorem encodePackage_roundTrips_two :
    let stream := NPPbMemoryPackage.encodePackage 1 [200, 100] ++ NPPbMemoryPackage.encodePackage 2 [] ++
      [0, 3, 0, 0, 0, 1]
    ∃ final : DecodePackage NPPbMemoryPackage.headSize,
      decodeLoop 3 (.create _ (fun index => stream.getD index 0) 24) =
        some ([sent 1 [200, 100], sent 2 []], final) ∧ final.getDealLen.toNat = 18 :=
  encodePackage_roundTrips.1 [(1, [200, 100]), (2, [])] (3, [7]) [0, 3, 0, 0, 0, 1] _ 3
    (by decide) (by decide) (by decide) (by decide) (by decide)

end BTool.PbMessage
