import BTool.BoostNet.StreamCodec

/-! The parameters of a received message. They are read out of its content whatever the content says,
which is right where it says what it has. -/

namespace BTool.BoostNet

open BTool.Foundation

/-- `get_args_sizeof`: the fewest bytes that values of these types take. -/
def getArgsSizeof : List LeafType → Nat
  | [] => 0
  | .value size :: types => size + getArgsSizeof types
  | .memory :: types => 4 + getArgsSizeof types

/-- A status as it came, and the values, or nothing for those of the default constructor. -/
structure Params where
  status : UInt8
  values : Option (List Leaf)
deriving DecidableEq

namespace MemoryStream

/-- The stream of a message that has been received. -/
def received (content : List UInt8) : Option MemoryStream := empty.load content

def readStatus (msg : MemoryStream) : Option (UInt8 × MemoryStream) := do
  let (cells, msg) ← msg.read 1 true
  let bytes ← cells.values
  some (bytes.getD 0 0, msg)

/-- `get_req_params` of nothing but the status. -/
def getReqStatus (msg : MemoryStream) : Option (Params × MemoryStream) :=
  if msg.bufferSize < 1 then some (⟨MsgStatus.unpackError.byte, none⟩, msg)
  else do
    let (status, msg) ← msg.readStatus
    some (⟨status, none⟩, msg)

/-- There is no result where something is read that is not of the content. -/
def getReqParams (msg : MemoryStream) (types : List LeafType) : Option (Params × MemoryStream) :=
  if msg.bufferSize < getArgsSizeof types + 1 then some (⟨MsgStatus.unpackError.byte, none⟩, msg)
  else do
    let (status, msg) ← msg.readStatus
    let (rslt, msg) ← msg.readTuple types true
    some (⟨status, some rslt⟩, msg)

/-- `get_rsp_params` of nothing but the status. -/
def getRspStatus (msg : MemoryStream) : Option (Params × MemoryStream) :=
  if msg.bufferSize < 1 then some (⟨MsgStatus.unpackError.byte, none⟩, msg)
  else do
    let (status, msg) ← msg.readStatus
    some (⟨status, none⟩, msg)

/-- The statuses are compared as numbers with a sign. -/
def getRspParams (msg : MemoryStream) (types : List LeafType) : Option (Params × MemoryStream) :=
  if msg.bufferSize < 1 then some (⟨MsgStatus.unpackError.byte, none⟩, msg)
  else do
    let (status, msg) ← msg.readStatus
    if status = MsgStatus.noBind.byte then some (⟨status, none⟩, msg)
    else if msg.getResLength < getArgsSizeof types then some (⟨MsgStatus.unpackError.byte, none⟩, msg)
    else if MsgStatus.waitError.byte.toInt8 < status.toInt8 then
      some (⟨MsgStatus.unpackError.byte, none⟩, msg)
    else do
      let (rslt, msg) ← msg.readTuple types true
      some (⟨status, some rslt⟩, msg)

end MemoryStream

/-- These bytes begin with values of these types, as `append_args` lays them out. -/
def Encoded (types : List LeafType) (bytes : List UInt8) : Prop :=
  ∃ values : List Leaf, values.map Leaf.type = types ∧ (∀ leaf ∈ values, leaf.Fits) ∧
    values.flatMap Leaf.encoding <+: bytes

namespace MemoryStream

variable {stream after : MemoryStream} {content : List UInt8} {types : List LeafType}

/-- The block holds the content and nothing else, and the offset is within it. -/
structure Holds (stream : MemoryStream) (content : List UInt8) : Prop where
  block : stream.block = content.map some
  offset : stream.offset ≤ content.length

/-- A range that is fetched is a range of the content. -/
private theorem Holds.fetch {start len : Nat} {cells : Block UInt8} (holds : stream.Holds content)
    (fetched : stream.block.fetch start len = some cells) :
    start + len ≤ content.length ∧ cells = ((content.drop start).take len).map some := by
  have inside := Block.isSome_fetch.mp (Option.isSome_iff_exists.mpr ⟨cells, fetched⟩)
  rw [holds.block, List.length_map] at inside
  rw [Block.fetch_eq_some (by rw [holds.block, List.length_map]; exact inside), holds.block] at fetched
  exact ⟨inside, by rw [← Option.some.inj fetched, List.map_take, List.map_drop]⟩

private theorem Holds.read {len : Nat} {cells : Block UInt8} (holds : stream.Holds content)
    (isRead : stream.read len true = some (cells, after)) :
    stream.offset + len ≤ content.length ∧
      cells = ((content.drop stream.offset).take len).map some ∧ after = stream.addOffset len := by
  by_cases nothing : len = 0
  · subst nothing
    cases isRead
    exact ⟨holds.offset, by simp, rfl⟩
  · rw [MemoryStream.read, if_neg nothing] at isRead
    obtain ⟨fetched, isFetched, same⟩ := Option.bind_eq_some_iff.mp isRead
    obtain ⟨inside, equal⟩ := holds.fetch isFetched
    cases same
    exact ⟨inside, equal, rfl⟩

theorem Holds.addOffset {len : Nat} (holds : stream.Holds content)
    (inside : stream.offset + len ≤ content.length) : (stream.addOffset len).Holds content :=
  ⟨holds.block, inside⟩

/-- What is read is what the content has there, laid out as it would be written. -/
private theorem Holds.readLeaf {type : LeafType} {leaf : Leaf} (holds : stream.Holds content)
    (isRead : stream.readLeaf type = some (leaf, after)) :
    leaf.type = type ∧ leaf.Fits ∧ leaf.encoding <+: content.drop stream.offset ∧
      after = stream.addOffset leaf.encoding.length := by
  cases type with
  | value size =>
    obtain ⟨⟨cells, moved⟩, front, rest⟩ := Option.bind_eq_some_iff.mp isRead
    obtain ⟨inside, rfl, rfl⟩ := holds.read front
    simp only [Block.values_map, Option.bind_eq_bind, Option.bind_some, Option.some.injEq,
      Prod.mk.injEq] at rest
    obtain ⟨rfl, rfl⟩ := rest
    have length : ((content.drop stream.offset).take size).length = size := by
      rw [List.length_take, List.length_drop]
      omega
    refine ⟨congrArg LeafType.value length, trivial, List.take_prefix .., ?_⟩
    rw [Leaf.encoding, length]
  | memory =>
    obtain ⟨⟨cells, moved⟩, front, rest⟩ := Option.bind_eq_some_iff.mp isRead
    obtain ⟨inside, rfl, rfl⟩ := holds.read front
    let prefix32 := (content.drop stream.offset).take 4
    have four : prefix32.length = 4 := by
      rw [List.length_take, List.length_drop]
      omega
    simp only [Block.values_map, Option.bind_eq_bind, Option.bind_some] at rest
    obtain ⟨text, fetched, rest⟩ := Option.bind_eq_some_iff.mp rest
    obtain ⟨within, rfl⟩ := (holds.addOffset inside).fetch fetched
    simp only [Block.values_map, Option.bind_some, Option.some.injEq, Prod.mk.injEq] at rest
    obtain ⟨rfl, rfl⟩ := rest
    let number := read32 prefix32
    have within : stream.offset + 4 + number.toNat ≤ content.length := within
    have length : ((content.drop (stream.offset + 4)).take number.toNat).length = number.toNat := by
      rw [List.length_take, List.length_drop]
      omega
    have encoding : (Leaf.memory ((content.drop (stream.offset + 4)).take number.toNat)).encoding =
        prefix32 ++ (content.drop (stream.offset + 4)).take number.toNat := by
      rw [Leaf.encoding, length, UInt32.ofNat_toNat, bytes32_read32 four]
    refine ⟨rfl, ?_, ?_, ?_⟩
    · show ((content.drop (stream.offset + 4)).take number.toNat).length < 2 ^ 32
      rw [length]
      exact number.toNat_lt
    · show (Leaf.memory ((content.drop (stream.offset + 4)).take number.toNat)).encoding <+: _
      rw [encoding, ← List.drop_drop]
      conv_rhs => rw [← List.take_append_drop 4 (content.drop stream.offset)]
      exact List.prefix_append_right_inj _ |>.mpr (List.take_prefix ..)
    · show _ = stream.addOffset
        (Leaf.memory ((content.drop (stream.offset + 4)).take number.toNat)).encoding.length
      rw [encoding, List.length_append, four, length, MemoryStream.addOffset, MemoryStream.addOffset]
      simp [number, prefix32, Nat.add_assoc]

private theorem Holds.readLeaves {values : List Leaf} (holds : stream.Holds content)
    (isRead : stream.readLeaves types = some (values, after)) :
    values.map Leaf.type = types ∧ (∀ leaf ∈ values, leaf.Fits) ∧
      values.flatMap Leaf.encoding <+: content.drop stream.offset := by
  induction types generalizing stream values with
  | nil =>
    cases isRead
    exact ⟨rfl, by simp, List.nil_prefix⟩
  | cons type types ih =>
    obtain ⟨⟨leaf, moved⟩, first, rest⟩ := Option.bind_eq_some_iff.mp isRead
    obtain ⟨⟨others, last⟩, back, same⟩ := Option.bind_eq_some_iff.mp rest
    cases same
    obtain ⟨rfl, fits, front, rfl⟩ := holds.readLeaf first
    have inside : stream.offset + leaf.encoding.length ≤ content.length := by
      have short := front.length_le
      have within := holds.offset
      rw [List.length_drop] at short
      omega
    obtain ⟨rfl, fitting, behind⟩ := ih (holds.addOffset inside) back
    refine ⟨rfl, ?_, ?_⟩
    · intro other member
      rcases List.mem_cons.mp member with rfl | member
      · exact fits
      · exact fitting other member
    · have ahead : content.drop stream.offset =
          leaf.encoding ++ content.drop (stream.offset + leaf.encoding.length) := by
        obtain ⟨more, whole⟩ := front
        rw [← List.drop_drop, ← whole, List.drop_left]
      rw [List.flatMap_cons, ahead]
      exact (List.prefix_append_right_inj _).mpr behind

/-- Values can be read out of the content if and only if it has them there. -/
theorem Holds.isSome_readLeaves (types : List LeafType) (holds : stream.Holds content) :
    (stream.readLeaves types).isSome ↔ Encoded types (content.drop stream.offset) := by
  constructor
  · intro success
    obtain ⟨⟨values, after⟩, isRead⟩ := Option.isSome_iff_exists.mp success
    exact ⟨values, holds.readLeaves isRead⟩
  · rintro ⟨values, rfl, fits, more, whole⟩
    have ahead : stream.Ahead (values.flatMap Leaf.encoding) := by
      refine ⟨(content.take stream.offset).map some, more.map some, ?_, ?_⟩
      · rw [List.length_map, List.length_take_of_le holds.offset]
      · rw [holds.block, List.append_assoc, ← List.map_append, whole, ← List.map_append,
          List.take_append_drop]
    rw [ahead.readLeaves fits]
    rfl

theorem isSome_readTuple : (stream.readTuple types true).isSome ↔ (stream.readLeaves types).isSome := by
  cases isRead : stream.readLeaves types <;> simp [readTuple, readArgs, isRead]

/-- A received stream holds its content, from the front. -/
theorem received_eq_some (content : List UInt8) :
    ∃ msg, received content = some msg ∧ msg.Holds content ∧ msg.offset = 0 ∧
      msg.bufferSize = content.length := by
  obtain ⟨msg, loaded, formed, offset, capacity, _, bytes⟩ :=
    loadWithin_eq_some content 0 atEnd_empty.formed.block (.inl rfl)
  obtain ⟨size, front⟩ := bytes_eq_some.mp bytes
  rw [← load_eq_loadWithin] at loaded
  have whole : msg.block.length = content.length := by
    rw [formed.block, capacity]
    simp [empty]
  rw [← whole, List.take_length] at front
  exact ⟨msg, loaded, ⟨front, offset ▸ Nat.zero_le _⟩, offset, size⟩

/-- The status is the first byte of a content. -/
private theorem Holds.readStatus (holds : stream.Holds content) (front : stream.offset = 0)
    (some' : 1 ≤ content.length) :
    stream.readStatus = some (content.getD 0 0, stream.addOffset 1) := by
  cases content with
  | nil => simp at some'
  | cons status rest =>
    have ahead : stream.Ahead ([status] ++ rest) :=
      ⟨[], [], by rw [front]; rfl, by rw [holds.block]; simp⟩
    have isRead : stream.read 1 true = some ([status].map some, stream.addOffset 1) := ahead.read
    rw [MemoryStream.readStatus, isRead]
    simp only [Option.bind_eq_bind, Option.bind_some, Block.values_map]
    rfl

/-- Behind the status the parameters can be read if and only if they are there. -/
private theorem Holds.isSome_readTuple (types : List LeafType) (holds : stream.Holds content)
    (front : stream.offset = 0) (some' : 1 ≤ content.length) :
    ((stream.addOffset 1).readTuple types true).isSome ↔ Encoded types (content.drop 1) := by
  have inside : stream.offset + 1 ≤ content.length := by omega
  have place : (stream.addOffset 1).offset = 1 := by rw [MemoryStream.addOffset, front]
  have iff := (holds.addOffset inside).isSome_readLeaves types
  rwa [place, ← MemoryStream.isSome_readTuple] at iff

/-- The parameters of a request are read out of any content, without anything else being read, if and
only if it is too short for the least of them or has them behind its status. For a response it is
also enough that there was no one bound or that its status is none. -/
theorem getParams_inside_iff (content : List UInt8) (types : List LeafType) :
    ∃ msg, received content = some msg ∧
      ((msg.getReqParams types).isSome ↔
        content.length < getArgsSizeof types + 1 ∨ Encoded types (content.drop 1)) ∧
      ((msg.getRspParams types).isSome ↔
        content.length < getArgsSizeof types + 1 ∨ content.getD 0 0 = MsgStatus.noBind.byte ∨
          MsgStatus.waitError.byte.toInt8 < (content.getD 0 0).toInt8 ∨
          Encoded types (content.drop 1)) ∧
      msg.getReqStatus.isSome ∧ msg.getRspStatus.isSome := by
  obtain ⟨msg, isReceived, holds, front, size⟩ := received_eq_some content
  refine ⟨msg, isReceived, ?_⟩
  by_cases short : content.length < 1
  · have few : content.length < getArgsSizeof types + 1 := by omega
    simp [getReqParams, getRspParams, getReqStatus, getRspStatus, size, short, few]
  · have status := holds.readStatus front (by omega)
    have behind := holds.isSome_readTuple types front (by omega)
    have left : (msg.addOffset 1).getResLength = content.length - 1 := by
      simp [getResLength, addOffset, size, front]
    have readTuple : ((do
        let (rslt, msg) ← (msg.addOffset 1).readTuple types true
        some ((⟨content.getD 0 0, some rslt⟩ : Params), msg)) : Option (Params × MemoryStream)).isSome ↔
          Encoded types (content.drop 1) := by
      rw [← behind]
      cases (msg.addOffset 1).readTuple types true <;> simp
    refine ⟨?_, ?_, ?_, ?_⟩
    · by_cases few : content.length < getArgsSizeof types + 1
      · simp [getReqParams, size, few]
      · rw [getReqParams, size, if_neg few, status]
        simpa only [Option.bind_eq_bind, Option.bind_some, few, false_or] using readTuple
    · rw [getRspParams, size, if_neg short, status]
      simp only [Option.bind_eq_bind, Option.bind_some]
      by_cases unbound : content.getD 0 0 = MsgStatus.noBind.byte
      · rw [if_pos unbound]
        exact iff_of_true rfl (.inr (.inl unbound))
      · rw [if_neg unbound, left]
        by_cases few : content.length < getArgsSizeof types + 1
        · rw [if_pos (by omega)]
          exact iff_of_true rfl (.inl few)
        · rw [if_neg (by omega)]
          by_cases invalid : MsgStatus.waitError.byte.toInt8 < (content.getD 0 0).toInt8
          · rw [if_pos invalid]
            exact iff_of_true rfl (.inr (.inr (.inl invalid)))
          · rw [if_neg invalid]
            simpa only [Option.bind_eq_bind, few, unbound, invalid, false_or] using readTuple
    · rw [getReqStatus, size, if_neg short, status]
      rfl
    · rw [getRspStatus, size, if_neg short, status]
      rfl

/-- A response whose string of one byte is announced as two: the second is not of the content. -/
theorem not_inside_length_prefix :
    ∃ msg, received [MsgStatus.ok.byte, 2, 0, 0, 0, 65] = some msg ∧
      msg.getRspParams [.memory] = none ∧ msg.getReqParams [.memory] = none :=
  ⟨_, rfl, rfl, rfl⟩

end MemoryStream

end BTool.BoostNet
