import BTool.BoostNet.StreamCodec

/-! Fields of every kind that `append` and `read` have overloads for. All of them are read back, but of a
stream within the stream the content is not passed. -/

namespace BTool.BoostNet

open BTool.Foundation

/-- A field that is no tuple. -/
inductive Field where
  | value (bytes : List UInt8)
  /-- A `string` or a `string_view`. -/
  | string (bytes : List UInt8)
  /-- A `MemoryStream` with this content. -/
  | stream (bytes : List UInt8)
deriving DecidableEq

inductive FieldType where
  | value (size : Nat)
  | string
  | stream
deriving DecidableEq

namespace Field

def type : Field → FieldType
  | .value bytes => .value bytes.length
  | .string _ => .string
  | .stream _ => .stream

/-- What `append` lays down. -/
def encoding : Field → List UInt8
  | .value bytes => bytes
  | .string bytes => bytes32 (UInt32.ofNat bytes.length) ++ bytes
  | .stream bytes => bytes32 (UInt32.ofNat bytes.length) ++ bytes

/-- A length is counted in 32 bits. -/
def Fits : Field → Prop
  | .value _ => True
  | .string bytes => bytes.length < 2 ^ 32
  | .stream bytes => bytes.length < 2 ^ 32

/-- How far the offset moves when it is read. -/
def passed : Field → Nat
  | .value bytes => bytes.length
  | .string bytes => 4 + bytes.length
  | .stream _ => 4

/-- A field that is no stream with a content. -/
def Plain : Field → Prop
  | .value _ => True
  | .string _ => True
  | .stream bytes => bytes = []

/-- Less is passed than was written exactly where a stream has a content. -/
theorem passed_cases (field : Field) : field.passed ≤ field.encoding.length ∧
    (field.passed = field.encoding.length ↔ field.Plain) := by
  cases field with
  | value bytes => exact ⟨Nat.le_refl _, iff_of_true rfl trivial⟩
  | string bytes => simp [passed, encoding, Plain]
  | stream bytes => simp [passed, encoding, Plain]

end Field

namespace MemoryStream

/-- `append` of another stream: its size and what it has. -/
def appendStream (stream data : MemoryStream) : Option MemoryStream := do
  let content ← data.bytes
  stream.appendMemory content

/-- A stream as a field is one that has loaded the content. -/
def appendField (stream : MemoryStream) : Field → Option MemoryStream
  | .value bytes => stream.append bytes
  | .string bytes => stream.appendMemory bytes
  | .stream bytes => do
    let data ← empty.load bytes
    stream.appendStream data

def appendFields (stream : MemoryStream) : List Field → Option MemoryStream
  | [] => some stream
  | field :: fields => do
    let stream ← stream.appendField field
    appendFields stream fields

/-- The length at the offset, and the stream behind it. -/
def readLength (stream : MemoryStream) : Option (Nat × MemoryStream) := do
  let (cells, stream) ← stream.read 4 true
  let length ← cells.values
  some ((read32 length).toNat, stream)

/-- The bytes at the offset. -/
def peek (stream : MemoryStream) (length : Nat) : Option (List UInt8) := do
  let content ← stream.block.fetch stream.offset length
  content.values

/-- `read` of a `string` or a `string_view`. -/
def readString (stream : MemoryStream) (offsetFlag : Bool) : Option (List UInt8 × MemoryStream) := do
  let (length, stream) ← stream.readLength
  let bytes ← stream.peek length
  if offsetFlag then some (bytes, { stream with offset := stream.offset + length })
  else some (bytes, { stream with offset := stream.offset - 4 })

/-- `read` of a stream, which is destroyed and loaded; the offset stays behind its length. -/
def readStream (stream dst : MemoryStream) (offsetFlag : Bool) : Option (MemoryStream × MemoryStream) := do
  let (length, stream) ← stream.readLength
  let bytes ← stream.peek length
  let dst ← dst.destroy.load bytes
  if offsetFlag then some (dst, stream)
  else some (dst, { stream with offset := stream.offset - 4 })

/-- `read` by the kind of the field. -/
def readField (stream : MemoryStream) : FieldType → Bool → Option (Field × MemoryStream)
  | .value size, offsetFlag => do
    let (cells, stream) ← stream.read size offsetFlag
    let bytes ← cells.values
    some (.value bytes, stream)
  | .string, offsetFlag => do
    let (bytes, stream) ← stream.readString offsetFlag
    some (.string bytes, stream)
  | .stream, offsetFlag => do
    let (dst, stream) ← stream.readStream empty offsetFlag
    let bytes ← dst.bytes
    some (.stream bytes, stream)

/-- Fields one behind the other. -/
def readFields (stream : MemoryStream) : List FieldType → Option (List Field × MemoryStream)
  | [] => some ([], stream)
  | type :: types => do
    let (field, stream) ← stream.readField type true
    let (rest, stream) ← readFields stream types
    some (field :: rest, stream)

variable {stream data after : MemoryStream} {field : Field} {fields : List Field} {bytes more : List UInt8}

theorem appendStream_eq (has : data.bytes = some bytes) :
    stream.appendStream data = stream.appendMemory bytes := by
  rw [appendStream, has]
  rfl

/-- What is loaded into an empty stream is all that it has. -/
theorem load_empty (bytes : List UInt8) : ∃ data, empty.load bytes = some data ∧ data.bytes = some bytes := by
  obtain ⟨data, loaded, _, _, _, _, has⟩ := loadWithin_eq_some bytes 0 atEnd_empty.formed.block (.inl rfl)
  exact ⟨data, by rw [load_eq_loadWithin, loaded], has⟩

theorem appendField_extends (field : Field) (atEnd : stream.AtEnd) :
    ∃ after, stream.appendField field = some after ∧ Extends stream field.encoding after := by
  cases field with
  | value bytes => exact append_extends bytes atEnd
  | string bytes => exact appendMemory_extends bytes atEnd
  | stream bytes =>
    obtain ⟨data, loaded, has⟩ := load_empty bytes
    obtain ⟨after, appended, extended⟩ := appendMemory_extends bytes atEnd
    refine ⟨after, ?_, extended⟩
    rw [appendField, loaded]
    exact (appendStream_eq has).trans appended

theorem appendFields_extends (fields : List Field) (atEnd : stream.AtEnd) :
    ∃ after, stream.appendFields fields = some after ∧
      Extends stream (fields.flatMap Field.encoding) after := by
  induction fields generalizing stream with
  | nil => exact ⟨stream, rfl, .refl atEnd⟩
  | cons field fields ih =>
    obtain ⟨middle, appended, front⟩ := appendField_extends field atEnd
    obtain ⟨after, rest, back⟩ := ih front.atEnd
    refine ⟨after, ?_, front.trans back⟩
    rw [appendFields, appended]
    exact rest

/-- A length and as many bytes are read where they lie. -/
theorem Ahead.readLength (small : bytes.length < 2 ^ 32)
    (ahead : stream.Ahead (bytes32 (UInt32.ofNat bytes.length) ++ (bytes ++ more))) :
    stream.readLength = some (bytes.length, stream.addOffset 4) ∧
      (stream.addOffset 4).peek bytes.length = some bytes := by
  have front : stream.read 4 true =
      some ((bytes32 (UInt32.ofNat bytes.length)).map some, stream.addOffset 4) := ahead.read
  have number : (read32 (bytes32 (UInt32.ofNat bytes.length))).toNat = bytes.length := by
    have exact := read32_bytes32 (UInt32.ofNat bytes.length) []
    rw [List.append_nil] at exact
    rw [exact, UInt32.toNat_ofNat']
    exact Nat.mod_eq_of_lt small
  have behind : (stream.addOffset 4).Ahead (bytes ++ more) := ahead.addOffset
  constructor
  · rw [MemoryStream.readLength, front]
    simp only [Option.bind_eq_bind, Option.bind_some, Block.values_map, number]
  · rw [peek, behind.fetch]
    exact Block.values_map bytes

/-- A field is read as it was written, and the offset moves as far as its kind says, if it is to. -/
theorem Ahead.readField (fits : field.Fits) (ahead : stream.Ahead (field.encoding ++ more))
    (offsetFlag : Bool) : stream.readField field.type offsetFlag =
      some (field, if offsetFlag then stream.addOffset field.passed else stream) := by
  -- An offset that is to stay is taken back by the size of the length.
  have back : { stream.addOffset 4 with offset := (stream.addOffset 4).offset - 4 } = stream := by
    rw [MemoryStream.addOffset, Nat.add_sub_cancel]
  cases field with
  | value bytes =>
    have isRead : stream.read bytes.length offsetFlag =
        some (bytes.map some, if offsetFlag then stream.addOffset bytes.length else stream) := by
      cases offsetFlag with
      | true => exact ahead.read
      | false =>
        by_cases nothing : bytes = []
        · subst nothing
          rfl
        · have some' : bytes.length ≠ 0 := fun none => nothing (List.eq_nil_of_length_eq_zero none)
          rw [MemoryStream.read, if_neg some', show stream.block.fetch stream.offset bytes.length = _ from
            ahead.fetch]
          rfl
    rw [Field.type, MemoryStream.readField, isRead]
    simp only [Option.bind_eq_bind, Option.bind_some, Block.values_map]
    rfl
  | string bytes =>
    rw [Field.encoding, List.append_assoc] at ahead
    obtain ⟨isLength, isContent⟩ := ahead.readLength fits
    rw [Field.type, MemoryStream.readField, readString, isLength]
    simp only [Option.bind_eq_bind, Option.bind_some, isContent]
    cases offsetFlag with
    | true => simp [MemoryStream.addOffset, Field.passed, Nat.add_assoc]
    | false => simp [back]
  | stream bytes =>
    rw [Field.encoding, List.append_assoc] at ahead
    obtain ⟨isLength, isContent⟩ := ahead.readLength fits
    obtain ⟨dst, loaded, has⟩ := load_empty bytes
    rw [Field.type, MemoryStream.readField, readStream, isLength]
    simp only [Option.bind_eq_bind, Option.bind_some, isContent, destroy, loaded]
    cases offsetFlag with
    | true => simp [has, Field.passed]
    | false => simp [has, back]

/-- The field is read back, and the offset moves behind it where it is to move, and stays otherwise. -/
structure Disciplined (stream : MemoryStream) (field : Field) : Prop where
  advances : stream.readField field.type true = some (field, stream.addOffset field.encoding.length)
  stays : stream.readField field.type false = some (field, stream)

/-- The fields are read back one behind the other, and the offset moves behind them. -/
def ReadsBack (stream : MemoryStream) (fields : List Field) : Prop :=
  stream.readFields (fields.map Field.type) =
    some (fields, stream.addOffset (fields.flatMap Field.encoding).length)

theorem Ahead.disciplined_iff (fits : field.Fits) (ahead : stream.Ahead (field.encoding ++ more)) :
    Disciplined stream field ↔ field.Plain := by
  have exact := ahead.readField fits
  rw [← field.passed_cases.2]
  constructor
  · rintro ⟨advances, _⟩
    rw [exact true] at advances
    have same := congrArg (fun result => result.2.offset) (Option.some.inj advances)
    exact Nat.add_left_cancel same
  · intro same
    refine ⟨?_, exact false⟩
    rw [exact true, ← same]
    rfl

/-- A length is read out of the next four bytes, and what it counts out of those behind them. -/
theorem readLength_offset {length : Nat} (isRead : stream.readLength = some (length, after)) :
    after.offset = stream.offset + 4 := by
  obtain ⟨⟨cells, moved⟩, front, rest⟩ := Option.bind_eq_some_iff.mp isRead
  obtain ⟨_, _, same⟩ := Option.bind_eq_some_iff.mp rest
  obtain ⟨_, _, moves⟩ := Option.bind_eq_some_iff.mp front
  cases same
  cases moves
  rfl

theorem length_of_peek {length : Nat} (isRead : stream.peek length = some bytes) : bytes.length = length := by
  obtain ⟨cells, fetched, values⟩ := Option.bind_eq_some_iff.mp isRead
  have inside := Block.isSome_fetch.mp (Option.isSome_iff_exists.mpr ⟨cells, fetched⟩)
  rw [Block.fetch_eq_some inside] at fetched
  have size := congrArg List.length (Option.some.inj fetched)
  rw [Block.values_eq_some.mp values, List.length_map, List.length_take, List.length_drop] at size
  omega

/-- The offset moves as far as the kind of the field says, whatever is read. -/
theorem readField_offset {type : FieldType} (isRead : stream.readField type true = some (field, after)) :
    after.offset = stream.offset + field.passed := by
  cases type with
  | value size =>
    obtain ⟨⟨cells, moved⟩, front, rest⟩ := Option.bind_eq_some_iff.mp isRead
    obtain ⟨bytes, values, same⟩ := Option.bind_eq_some_iff.mp rest
    cases same
    by_cases nothing : size = 0
    · rw [MemoryStream.read, if_pos nothing] at front
      cases front
      cases values
      rfl
    · rw [MemoryStream.read, if_neg nothing] at front
      obtain ⟨fetched, isFetched, same⟩ := Option.bind_eq_some_iff.mp front
      cases same
      have isPeek : stream.peek size = some bytes := by
        rw [peek, isFetched]
        exact values
      rw [Field.passed, length_of_peek isPeek]
      rfl
  | string =>
    obtain ⟨⟨bytes, moved⟩, front, same⟩ := Option.bind_eq_some_iff.mp isRead
    cases same
    obtain ⟨⟨length, behind⟩, isLength, rest⟩ := Option.bind_eq_some_iff.mp front
    obtain ⟨content, isContent, same⟩ := Option.bind_eq_some_iff.mp rest
    cases same
    change behind.offset + length = stream.offset + (4 + bytes.length)
    rw [readLength_offset isLength, length_of_peek isContent, Nat.add_assoc]
  | stream =>
    obtain ⟨⟨dst, moved⟩, front, rest⟩ := Option.bind_eq_some_iff.mp isRead
    obtain ⟨bytes, _, same⟩ := Option.bind_eq_some_iff.mp rest
    cases same
    obtain ⟨⟨length, behind⟩, isLength, rest⟩ := Option.bind_eq_some_iff.mp front
    obtain ⟨content, _, rest⟩ := Option.bind_eq_some_iff.mp rest
    obtain ⟨loaded, _, same⟩ := Option.bind_eq_some_iff.mp rest
    cases same
    exact readLength_offset isLength

theorem readFields_offset {types : List FieldType} (isRead : stream.readFields types = some (fields, after)) :
    after.offset = stream.offset + (fields.map Field.passed).sum := by
  induction types generalizing stream fields with
  | nil =>
    cases isRead
    rfl
  | cons type types ih =>
    obtain ⟨⟨field, moved⟩, first, rest⟩ := Option.bind_eq_some_iff.mp isRead
    obtain ⟨⟨others, last⟩, back, same⟩ := Option.bind_eq_some_iff.mp rest
    cases same
    rw [ih back, readField_offset first, List.map_cons, List.sum_cons, Nat.add_assoc]

/-- All that was written is passed exactly where no stream has a content. -/
theorem sum_passed_iff (fields : List Field) :
    (fields.map Field.passed).sum ≤ (fields.flatMap Field.encoding).length ∧
      ((fields.map Field.passed).sum = (fields.flatMap Field.encoding).length ↔
        ∀ field ∈ fields, field.Plain) := by
  induction fields with
  | nil => simp
  | cons field fields ih =>
    obtain ⟨within, same⟩ := ih
    obtain ⟨within', same'⟩ := field.passed_cases
    rw [List.map_cons, List.sum_cons, List.flatMap_cons, List.length_append, List.forall_mem_cons, ← same,
      ← same']
    omega

/-- Fields are read back, and passed, exactly where none of them is a stream with a content. -/
theorem Ahead.readsBack_iff (fits : ∀ field ∈ fields, field.Fits)
    (ahead : stream.Ahead (fields.flatMap Field.encoding ++ more)) :
    ReadsBack stream fields ↔ ∀ field ∈ fields, field.Plain := by
  constructor
  · intro back
    have moved := readFields_offset back
    exact (sum_passed_iff fields).2.mp (Nat.add_left_cancel moved).symm
  · intro plain
    induction fields generalizing stream with
    | nil => rfl
    | cons field fields ih =>
      obtain ⟨isPlain, plain⟩ := List.forall_mem_cons.mp plain
      obtain ⟨fit, fits⟩ := List.forall_mem_cons.mp fits
      rw [List.flatMap_cons, List.append_assoc] at ahead
      have first := (ahead.disciplined_iff fit).mpr isPlain
      have rest := ih fits ahead.addOffset plain
      rw [ReadsBack] at rest ⊢
      rw [List.map_cons, MemoryStream.readFields, first.advances]
      simp only [Option.bind_eq_bind, Option.bind_some, rest]
      simp [MemoryStream.addOffset, Nat.add_assoc]

/-- What is appended moves the offset by its encoding. Wherever a field stands among others, it is read
back in both modes of the offset exactly if it is no stream with a content, and all of them are read back
one behind the other exactly if none is. More may have been appended since. -/
theorem reading_discipline_iff (atEnd : stream.AtEnd) (fits : ∀ field ∈ fields, field.Fits) :
    ∃ written, stream.appendFields fields = some written ∧
      written.offset = stream.offset + (fields.flatMap Field.encoding).length ∧
      ∀ (others : List Field) (after : MemoryStream), written.appendFields others = some after →
        (∀ front field back, fields = front ++ field :: back →
          (Disciplined (after.resetOffset (stream.offset + (front.flatMap Field.encoding).length)) field ↔
            field.Plain)) ∧
        (ReadsBack (after.resetOffset stream.offset) fields ↔ ∀ field ∈ fields, field.Plain) := by
  obtain ⟨written, appended, extended⟩ := appendFields_extends fields atEnd
  refine ⟨written, appended, ?_, fun others after appendedMore => ?_⟩
  · rw [extended.atEnd.offset, extended.size, atEnd.offset]
  · obtain ⟨after', appended', extended'⟩ := appendFields_extends others extended.atEnd
    obtain rfl : after' = after := Option.some.inj (appended'.symm.trans appendedMore)
    have ahead := extended.ahead atEnd extended'
    rw [← atEnd.offset, ← List.append_nil (fields.flatMap Field.encoding)] at ahead
    refine ⟨?_, ahead.readsBack_iff fits⟩
    rintro front field back rfl
    rw [List.append_nil, List.flatMap_append, List.flatMap_cons] at ahead
    exact ahead.addOffset.disciplined_iff (fits field (by simp))

/-- An empty stream between a number and a string. -/
theorem reading_discipline_iff_empty : ∃ written,
    empty.appendFields [.value [1, 2], .stream [], .string [7]] = some written ∧ written.offset = 11 ∧
      Disciplined (written.resetOffset 2) (.stream []) ∧
      ReadsBack (written.resetOffset 0) [.value [1, 2], .stream [], .string [7]] := by
  have fits : ∀ field ∈ [Field.value [1, 2], .stream [], .string [7]], field.Fits := by
    simp [Field.Fits]
  have plain : ∀ field ∈ [Field.value [1, 2], .stream [], .string [7]], field.Plain := by
    simp [Field.Plain]
  obtain ⟨written, appended, place, discipline⟩ := reading_discipline_iff atEnd_empty fits
  obtain ⟨each, all⟩ := discipline [] written rfl
  exact ⟨written, appended, place, (each [.value [1, 2]] (.stream []) [.string [7]] rfl).mpr rfl,
    all.mpr plain⟩

/-- Behind a stream of one byte the next field is read out of its content. -/
theorem not_disciplined_stream : ∃ written, empty.appendFields [.stream [65], .value [66]] = some written ∧
    written.offset = 6 ∧
    (written.resetOffset 0).readField .stream true = some (.stream [65], written.resetOffset 4) ∧
    (written.resetOffset 0).readFields [.stream, .value 1] =
      some ([.stream [65], .value [65]], written.resetOffset 5) ∧
    ¬ Disciplined (written.resetOffset 0) (.stream [65]) := by
  refine ⟨_, rfl, rfl, rfl, rfl, fun disciplined => ?_⟩
  have moved := congrArg (fun result => result.map (·.2.offset)) disciplined.advances
  exact absurd moved (by decide)

end MemoryStream

end BTool.BoostNet
