/-! What the functions of `MemoryStream` append to a fresh stream. Numbers lie in memory with their
lowest byte first. -/

namespace BTool.BoostNet

/-- The bytes of a `uint32_t`. -/
def bytes32 (number : UInt32) : List UInt8 :=
  [UInt8.ofNat number.toNat, UInt8.ofNat (number.toNat / 256), UInt8.ofNat (number.toNat / 65536),
    UInt8.ofNat (number.toNat / 16777216)]

/-- The `uint32_t` that lies at the front of these bytes. -/
def read32 (bytes : List UInt8) : UInt32 :=
  UInt32.ofNat ((bytes.getD 0 0).toNat + 256 * (bytes.getD 1 0).toNat + 65536 * (bytes.getD 2 0).toNat +
    16777216 * (bytes.getD 3 0).toNat)

@[simp] theorem length_bytes32 (number : UInt32) : (bytes32 number).length = 4 := rfl

theorem read32_bytes32 (number : UInt32) (more : List UInt8) :
    read32 (bytes32 number ++ more) = number := by
  have small := number.toNat_lt
  apply UInt32.toNat_inj.mp
  simp only [read32, bytes32, List.cons_append, List.getD_cons_zero, List.getD_cons_succ,
    UInt32.toNat_ofNat', UInt8.toNat_ofNat']
  omega

theorem bytes32_read32 {bytes : List UInt8} (size : bytes.length = 4) : bytes32 (read32 bytes) = bytes := by
  match bytes, size with
  | [first, second, third, fourth], _ =>
    have := first.toNat_lt
    have := second.toNat_lt
    have := third.toNat_lt
    have := fourth.toNat_lt
    simp only [bytes32, read32, List.getD_cons_zero, List.getD_cons_succ, UInt32.toNat_ofNat',
      List.cons.injEq, and_true]
    refine ⟨?_, ?_, ?_, ?_⟩ <;> apply UInt8.toNat_inj.mp <;> rw [UInt8.toNat_ofNat'] <;> omega

/-- An argument of `append_args`. -/
inductive Arg where
  /-- A value that is copied as it lies in memory. -/
  | value (bytes : List UInt8)
  /-- A `string`, a `string_view` or a `MemoryStream`, which has its length in front. -/
  | memory (bytes : List UInt8)
  | tuple (args : List Arg)

mutual

def Arg.append : Arg → List UInt8
  | .value bytes => bytes
  | .memory bytes => bytes32 (UInt32.ofNat bytes.length) ++ bytes
  | .tuple args => appendArgs args

def appendArgs : List Arg → List UInt8
  | [] => []
  | arg :: args => arg.append ++ appendArgs args

end

mutual

def Arg.getLength : Arg → Nat
  | .value bytes => bytes.length
  | .memory bytes => 4 + bytes.length
  | .tuple args => getArgsLength args

def getArgsLength : List Arg → Nat
  | [] => 0
  | arg :: args => arg.getLength + getArgsLength args

end

mutual

theorem Arg.length_append : ∀ arg : Arg, arg.append.length = arg.getLength
  | .value _ => rfl
  | .memory _ => by simp [Arg.append, Arg.getLength]
  | .tuple args => length_appendArgs args

/-- `get_args_length` is the number of bytes that `append_args` appends. -/
theorem length_appendArgs : ∀ args : List Arg, (appendArgs args).length = getArgsLength args
  | [] => rfl
  | arg :: args => by
    rw [appendArgs, getArgsLength, List.length_append, arg.length_append, length_appendArgs args]

end

end BTool.BoostNet
