import BTool.BoostNet.RpcMessage
import BTool.BoostNet.StreamStorage

/-! Arguments in a memory stream. What `append_args` lays down is as long as `get_args_length` says,
and `read_args` finds it again. -/

namespace BTool.BoostNet

open BTool.Foundation

/-- An argument that is no tuple. -/
inductive Leaf where
  | value (bytes : List UInt8)
  | memory (bytes : List UInt8)
deriving DecidableEq

/-- A type that is no tuple: one of a fixed size, or a `string` or `string_view`. -/
inductive LeafType where
  | value (size : Nat)
  | memory
deriving DecidableEq

namespace Leaf

def type : Leaf → LeafType
  | .value bytes => .value bytes.length
  | .memory _ => .memory

def encoding : Leaf → List UInt8
  | .value bytes => bytes
  | .memory bytes => bytes32 (UInt32.ofNat bytes.length) ++ bytes

/-- The length of a string is counted in 32 bits. -/
def Fits : Leaf → Prop
  | .value _ => True
  | .memory bytes => bytes.length < 2 ^ 32

instance (leaf : Leaf) : Decidable leaf.Fits := by
  cases leaf <;> unfold Fits <;> infer_instance

end Leaf

mutual

def Arg.leaves : Arg → List Leaf
  | .value bytes => [.value bytes]
  | .memory bytes => [.memory bytes]
  | .tuple args => leaves args

/-- The arguments from left to right, with the tuples opened. -/
def leaves : List Arg → List Leaf
  | [] => []
  | arg :: args => arg.leaves ++ leaves args

end

mutual

theorem Arg.append_eq_leaves : ∀ arg : Arg, arg.append = arg.leaves.flatMap Leaf.encoding
  | .value _ => by simp [Arg.append, Arg.leaves, Leaf.encoding]
  | .memory _ => by simp [Arg.append, Arg.leaves, Leaf.encoding]
  | .tuple args => appendArgs_eq_leaves args

/-- The bytes of arguments are those of their leaves, in order. -/
theorem appendArgs_eq_leaves : ∀ args : List Arg, appendArgs args = (leaves args).flatMap Leaf.encoding
  | [] => rfl
  | arg :: args => by
    rw [appendArgs, leaves, List.flatMap_append, arg.append_eq_leaves, appendArgs_eq_leaves args]

end

theorem leaves_append (front back : List Arg) : leaves (front ++ back) = leaves front ++ leaves back := by
  induction front with
  | nil => rfl
  | cons arg front ih => rw [List.cons_append, leaves, leaves, ih, List.append_assoc]

mutual

/-- How many arguments there are to go through, tuples included. -/
def Arg.count : Arg → Nat
  | .value _ => 1
  | .memory _ => 1
  | .tuple args => 1 + countArgs args

def countArgs : List Arg → Nat
  | [] => 0
  | arg :: args => arg.count + countArgs args

end

theorem countArgs_append (front back : List Arg) :
    countArgs (front ++ back) = countArgs front + countArgs back := by
  induction front with
  | nil => rw [List.nil_append, countArgs, Nat.zero_add]
  | cons arg front ih => rw [List.cons_append, countArgs, countArgs, ih, Nat.add_assoc]

namespace MemoryStream

/-- `append` of a string. -/
def appendMemory (stream : MemoryStream) (data : List UInt8) : Option MemoryStream := do
  let stream ← stream.append (bytes32 (UInt32.ofNat data.length))
  stream.append data

/-- A tuple's members are put in front of the arguments that come behind it. -/
def appendArgs (stream : MemoryStream) : List Arg → Option MemoryStream
  | [] => some stream
  | .value bytes :: srcs => do
    let stream ← stream.append bytes
    appendArgs stream srcs
  | .memory bytes :: srcs => do
    let stream ← stream.appendMemory bytes
    appendArgs stream srcs
  | .tuple tp :: srcs => appendArgs stream (tp ++ srcs)
termination_by args => countArgs args
decreasing_by
  · simp [countArgs, Arg.count]
  · simp [countArgs, Arg.count]
  · rw [countArgs_append, countArgs, Arg.count]
    omega

/-- `read` of one value. There is none where its bytes lie outside of the block, or were never
written. -/
def readLeaf (stream : MemoryStream) : LeafType → Option (Leaf × MemoryStream)
  | .value size => do
    let (cells, stream) ← stream.read size true
    let bytes ← cells.values
    some (.value bytes, stream)
  | .memory => do
    let (cells, stream) ← stream.read 4 true
    let length ← cells.values
    let content ← stream.block.fetch stream.offset (read32 length).toNat
    let bytes ← content.values
    some (.memory bytes, { stream with offset := stream.offset + (read32 length).toNat })

/-- The values one behind the other. -/
def readLeaves (stream : MemoryStream) : List LeafType → Option (List Leaf × MemoryStream)
  | [] => some ([], stream)
  | type :: types => do
    let (param, stream) ← stream.readLeaf type
    let (rest, stream) ← readLeaves stream types
    some (param :: rest, stream)

/-- `read_args` of several types. -/
def readArgs (stream : MemoryStream) (types : List LeafType) (offsetFlag : Bool) :
    Option (List Leaf × MemoryStream) := do
  let curOffset := stream.offset
  let (rslt, stream) ← stream.readLeaves types
  some (rslt, if offsetFlag then stream else { stream with offset := curOffset })

/-- `read_args` of a tuple, whose members are read as several types are. -/
def readTuple (stream : MemoryStream) (types : List LeafType) (offsetFlag : Bool) :
    Option (List Leaf × MemoryStream) := do
  let curOffset := stream.offset
  let (rslt, stream) ← stream.readArgs types true
  some (rslt, if offsetFlag then stream else { stream with offset := curOffset })

variable {stream before middle after : MemoryStream} {first second : List UInt8}

theorem appendMemory_extends (data : List UInt8) (atEnd : stream.AtEnd) :
    ∃ after, stream.appendMemory data = some after ∧
      Extends stream (Leaf.memory data).encoding after := by
  obtain ⟨middle, length, front⟩ := append_extends (bytes32 (UInt32.ofNat data.length)) atEnd
  obtain ⟨after, content, back⟩ := append_extends data front.atEnd
  refine ⟨after, ?_, front.trans back⟩
  rw [appendMemory, length]
  exact content

/-- `append_args` writes the leaves from left to right. -/
theorem appendArgs_extends (args : List Arg) (atEnd : stream.AtEnd) :
    ∃ after, stream.appendArgs args = some after ∧
      Extends stream ((leaves args).flatMap Leaf.encoding) after := by
  induction stream, args using appendArgs.induct with
  | case1 stream => exact ⟨stream, by rw [appendArgs], .refl atEnd⟩
  | case2 stream bytes srcs ih =>
    obtain ⟨middle, appended, front⟩ := append_extends bytes atEnd
    obtain ⟨after, rest, back⟩ := ih middle front.atEnd
    refine ⟨after, ?_, front.trans back⟩
    rw [appendArgs, appended]
    exact rest
  | case3 stream bytes srcs ih =>
    obtain ⟨middle, appended, front⟩ := appendMemory_extends bytes atEnd
    obtain ⟨after, rest, back⟩ := ih middle front.atEnd
    refine ⟨after, ?_, front.trans back⟩
    rw [appendArgs, appended]
    exact rest
  | case4 stream tp srcs ih =>
    obtain ⟨after, appended, extended⟩ := ih atEnd
    rw [leaves_append] at extended
    exact ⟨after, by rw [appendArgs]; exact appended, extended⟩

def addOffset (stream : MemoryStream) (offset : Nat) : MemoryStream :=
  { stream with offset := stream.offset + offset }

/-- These bytes lie at the offset. -/
def Ahead (stream : MemoryStream) (bytes : List UInt8) : Prop :=
  ∃ front rest, front.length = stream.offset ∧ stream.block = front ++ bytes.map some ++ rest

theorem Ahead.fetch (ahead : stream.Ahead (first ++ second)) :
    stream.block.fetch stream.offset first.length = some (first.map some) := by
  obtain ⟨front, rest, place, whole⟩ := ahead
  rw [List.map_append, ← List.append_assoc, List.append_assoc _ _ rest] at whole
  have size : (first.map some).length = first.length := List.length_map ..
  rw [whole, ← place, ← size]
  exact Block.fetch_middle front _

/-- Behind the first of the bytes lie the others. -/
theorem Ahead.addOffset (ahead : stream.Ahead (first ++ second)) :
    (stream.addOffset first.length).Ahead second := by
  obtain ⟨front, rest, place, whole⟩ := ahead
  refine ⟨front ++ first.map some, rest, ?_, ?_⟩
  · rw [List.length_append, List.length_map, place]
    rfl
  · rw [List.map_append, ← List.append_assoc] at whole
    exact whole

theorem Ahead.read (ahead : stream.Ahead (first ++ second)) :
    stream.read first.length true = some (first.map some, stream.addOffset first.length) := by
  by_cases nothing : first = []
  · subst nothing
    rfl
  · have some' : first.length ≠ 0 := fun none => nothing (List.eq_nil_of_length_eq_zero none)
    rw [MemoryStream.read, if_neg some', ahead.fetch]
    rfl

/-- A value is read as it was written, and the offset moves behind it. -/
theorem Ahead.readLeaf {leaf : Leaf} (fits : leaf.Fits)
    (ahead : stream.Ahead (leaf.encoding ++ second)) :
    stream.readLeaf leaf.type = some (leaf, stream.addOffset leaf.encoding.length) := by
  cases leaf with
  | value bytes =>
    have front : stream.read bytes.length true = some (bytes.map some, stream.addOffset bytes.length) :=
      ahead.read
    rw [Leaf.type, MemoryStream.readLeaf, front]
    simp only [Option.bind_eq_bind, Option.bind_some, Block.values_map]
    rfl
  | memory bytes =>
    let prefix32 := bytes32 (UInt32.ofNat bytes.length)
    have ahead : stream.Ahead (prefix32 ++ (bytes ++ second)) := by
      rwa [Leaf.encoding, List.append_assoc] at ahead
    have number : (read32 prefix32).toNat = bytes.length := by
      have small : bytes.length < 2 ^ 32 := fits
      have exact := read32_bytes32 (UInt32.ofNat bytes.length) []
      rw [List.append_nil] at exact
      rw [exact, UInt32.toNat_ofNat']
      exact Nat.mod_eq_of_lt small
    have front : stream.read 4 true = some (prefix32.map some, stream.addOffset 4) := ahead.read
    have content : (stream.addOffset 4).block.fetch (stream.addOffset 4).offset bytes.length =
      some (bytes.map some) := ahead.addOffset.fetch
    rw [Leaf.type, MemoryStream.readLeaf, front]
    simp only [Option.bind_eq_bind, Option.bind_some, Block.values_map, number, content]
    simp [MemoryStream.addOffset, Leaf.encoding, Nat.add_assoc]

theorem Ahead.readLeaves {values : List Leaf} (fits : ∀ leaf ∈ values, leaf.Fits)
    (ahead : stream.Ahead (values.flatMap Leaf.encoding)) :
    stream.readLeaves (values.map Leaf.type) =
      some (values, stream.addOffset (values.flatMap Leaf.encoding).length) := by
  induction values generalizing stream with
  | nil => rfl
  | cons leaf values ih =>
    rw [List.flatMap_cons] at ahead
    have rest := ih (fun other member => fits other (List.mem_cons_of_mem _ member)) ahead.addOffset
    rw [List.map_cons, MemoryStream.readLeaves, ahead.readLeaf (fits leaf List.mem_cons_self)]
    simp only [Option.bind_eq_bind, Option.bind_some, rest]
    simp [MemoryStream.addOffset, Nat.add_assoc]

/-- What a stream goes on with lies at its old end, whatever has been appended since. -/
theorem Extends.ahead (atEnd : before.AtEnd) (front : Extends before first middle)
    (back : Extends middle second after) : (after.resetOffset before.bufferSize).Ahead first := by
  have inside : before.bufferSize ≤ before.block.length := by
    rw [atEnd.formed.block]
    exact atEnd.formed.size
  refine ⟨before.block.take before.bufferSize,
    second.map some ++ after.block.drop after.bufferSize, List.length_take_of_le inside, ?_⟩
  calc after.block
      = after.block.take after.bufferSize ++ after.block.drop after.bufferSize :=
        (List.take_append_drop ..).symm
    _ = before.block.take before.bufferSize ++ first.map some ++
          (second.map some ++ after.block.drop after.bufferSize) := by
        rw [back.contents, front.contents, List.append_assoc _ (second.map some)]

/-- `package_msg`, as it fills its stream. -/
def packageMsg (package : Package) : Option MemoryStream := do
  let capacity := MessageHead.size + package.titleSize.toNat + package.contentLength.toNat
  let writeBuffer ← (ofCapacity capacity).append package.packageMsg.head.bytes
  let writeBuffer ← writeBuffer.append (package.rpcName.take package.titleSize.toNat)
  writeBuffer.appendArgs (.value [package.status.byte] :: package.args)

/-- The stream of a packaged message holds its head, its name and its content. -/
theorem bytes_packageMsg (package : Package) :
    ∃ writeBuffer, packageMsg package = some writeBuffer ∧
      writeBuffer.bytes = some package.packageMsg.msg := by
  obtain ⟨head, appendedHead, headEnd⟩ :=
    append_extends package.packageMsg.head.bytes
      (atEnd_ofCapacity (MessageHead.size + package.titleSize.toNat + package.contentLength.toNat))
  obtain ⟨name, appendedName, nameEnd⟩ :=
    append_extends (package.rpcName.take package.titleSize.toNat) headEnd.atEnd
  obtain ⟨content, appendedContent, contentEnd⟩ :=
    appendArgs_extends (.value [package.status.byte] :: package.args) nameEnd.atEnd
  refine ⟨content, ?_, ?_⟩
  · rw [packageMsg]
    simp only [Option.bind_eq_bind, appendedHead, Option.bind_some, appendedName, appendedContent]
  · rw [← appendArgs_eq_leaves] at contentEnd
    have fresh : (ofCapacity (MessageHead.size + package.titleSize.toNat +
        package.contentLength.toNat)).bytes = some [] := bytes_eq_some.mpr ⟨rfl, rfl⟩
    have whole := ((headEnd.trans nameEnd).trans contentEnd).bytes_eq_some fresh
    rwa [List.nil_append] at whole

/-- Arguments are appended leaf by leaf, and take the length that was computed for them, which is
the size in the head if 32 bits can hold it. From where they begin they are read again, with the
offset behind them in the end, whatever has been appended to the stream. -/
theorem args_round_trip {args : List Arg} (atEnd : stream.AtEnd)
    (fits : ∀ leaf ∈ leaves args, leaf.Fits) :
    ∃ written, stream.appendArgs args = some written ∧
      written.block.take written.bufferSize =
        stream.block.take stream.bufferSize ++ ((leaves args).flatMap Leaf.encoding).map some ∧
      written.bufferSize = stream.bufferSize + getArgsLength args ∧
      (∀ package : Package, args = .value [package.status.byte] :: package.args →
        getArgsLength args < 2 ^ 32 →
          written.bufferSize = stream.bufferSize + package.contentLength.toNat) ∧
      ∀ more after, written.appendArgs more = some after →
        (after.resetOffset stream.bufferSize).readArgs ((leaves args).map Leaf.type) true =
            some (leaves args, after.resetOffset written.bufferSize) ∧
          (after.resetOffset stream.bufferSize).readTuple ((leaves args).map Leaf.type) true =
            some (leaves args, after.resetOffset written.bufferSize) := by
  obtain ⟨written, appended, extended⟩ := appendArgs_extends args atEnd
  have length : ((leaves args).flatMap Leaf.encoding).length = getArgsLength args := by
    rw [← appendArgs_eq_leaves, length_appendArgs]
  have size : written.bufferSize = stream.bufferSize + getArgsLength args := length ▸ extended.size
  refine ⟨written, appended, extended.contents, size, ?_, ?_⟩
  · intro package same small
    rw [size, Package.contentLength, ← same, UInt32.toNat_ofNat', Nat.mod_eq_of_lt small]
  · intro more after appendedMore
    obtain ⟨after', appended', extended'⟩ := appendArgs_extends more extended.atEnd
    obtain rfl : after' = after := Option.some.inj (appended'.symm.trans appendedMore)
    have readLeaves := (extended.ahead atEnd extended').readLeaves fits
    have behind : (after'.resetOffset stream.bufferSize).addOffset
        ((leaves args).flatMap Leaf.encoding).length = after'.resetOffset written.bufferSize := by
      rw [extended.size]
      rfl
    rw [behind] at readLeaves
    have readArgs : (after'.resetOffset stream.bufferSize).readArgs ((leaves args).map Leaf.type) true =
        some (leaves args, after'.resetOffset written.bufferSize) := by
      simp [MemoryStream.readArgs, readLeaves]
    exact ⟨readArgs, by simp [MemoryStream.readTuple, readArgs]⟩

/-- Nested tuples and an empty string, behind a stream that has been filled before. -/
theorem args_round_trip_nested :
    ∃ written, MemoryStream.empty.appendArgs
        [.value [1, 2], .tuple [.memory [], .tuple [.memory [7, 8], .value [9]]]] = some written ∧
      written.block.take written.bufferSize =
        [1, 2, 0, 0, 0, 0, 2, 0, 0, 0, 7, 8, 9].map some ∧
      written.bufferSize = 13 ∧
      ∀ more after, written.appendArgs more = some after →
        (after.resetOffset 0).readArgs [.value 2, .memory, .memory, .value 1] true =
          some ([.value [1, 2], .memory [], .memory [7, 8], .value [9]], after.resetOffset 13) := by
  have fits : ∀ leaf ∈ leaves
      [.value [1, 2], .tuple [.memory [], .tuple [.memory [7, 8], .value [9]]]], leaf.Fits := by decide
  obtain ⟨written, appended, contents, size, _, readAgain⟩ := args_round_trip atEnd_empty fits
  have size : written.bufferSize = 13 := size
  refine ⟨written, appended, contents, size, fun more after appendedMore => ?_⟩
  have readArgs := (readAgain more after appendedMore).1
  rw [size] at readArgs
  exact readArgs

/-- The content of one string of `2 ^ 32 - 1` bytes is longer than the head can say. -/
theorem contentLength_ne_long_string :
    ∃ package : Package, (∀ leaf ∈ leaves (.value [package.status.byte] :: package.args), leaf.Fits) ∧
      package.content.length = 2 ^ 32 + 4 ∧ package.contentLength.toNat = 4 := by
  let text : List UInt8 := List.replicate (2 ^ 32 - 1) 0
  have length : text.length = 2 ^ 32 - 1 := List.length_replicate ..
  have size : getArgsLength [.value [MsgStatus.ok.byte], .memory text] = 2 ^ 32 + 4 := by
    have sum : getArgsLength [.value [MsgStatus.ok.byte], .memory text] = 1 + (4 + text.length + 0) := rfl
    omega
  refine ⟨⟨[102], CommModel.request, RpcModel.callback, 1, .ok, [.memory text]⟩, ?_, ?_, ?_⟩
  · intro leaf member
    simp only [leaves, Arg.leaves, List.append_nil, List.cons_append, List.nil_append, List.mem_cons,
      List.not_mem_nil, or_false] at member
    rcases member with rfl | rfl
    · trivial
    · show text.length < 2 ^ 32
      omega
  · rw [Package.content, length_appendArgs]
    exact size
  · exact congrArg (fun length => (UInt32.ofNat length).toNat) size

end MemoryStream

end BTool.BoostNet
