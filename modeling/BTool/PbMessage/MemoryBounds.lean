import Mathlib.Logic.Relation
import BTool.PbMessage.MemoryRoundTrip

/-! Decoding of bytes from anywhere. The lengths are added in 32 bits before they are compared, so that
a header can make a package look short that is not. -/

namespace BTool.PbMessage

open BTool.Foundation

variable {headSize : Nat}

namespace DecodePackage

variable {package next : DecodePackage headSize}

/-- What `decode_msg` reads lies in the buffer, and so does what it has decoded. -/
structure Bounded (package : DecodePackage headSize) : Prop where
  copied : ∀ range ∈ package.decodeMsg.copied, range.1 + range.2 ≤ package.buffLen.toNat
  inside : package.decodeMsg.returned = true →
    package.offset.toNat + headSize + package.decodeMsg.package.getBodyLength.toNat + tailSize ≤
      package.buffLen.toNat
  length : package.decodeMsg.returned = true →
    package.decodeMsg.package.getPackageLength.toNat =
      headSize + package.decodeMsg.package.getBodyLength.toNat + tailSize
  least : package.decodeMsg.returned = true →
    headSize + tailSize ≤ package.decodeMsg.package.getPackageLength.toNat

/-- No length that `vaild` accepts at this offset is accepted because its sum passed `2 ^ 32`. -/
def Unwrapped (package : DecodePackage headSize) : Prop :=
  (package.offset.toNat + (headSize + tailSize)) % 2 ^ 32 ≤ package.buffLen.toNat →
    package.offset.toNat + headSize ≤ package.buffLen.toNat ∧
      ((package.offset.toNat + (headSize + package.headBodyLength + tailSize)) % 2 ^ 32 ≤
          package.buffLen.toNat →
        package.offset.toNat + (headSize + package.headBodyLength + tailSize) < 2 ^ 32)

theorem vaild_ofNat {readLength : Nat} : package.vaild (UInt32.ofNat readLength) = true ↔
    (package.offset.toNat + readLength) % 2 ^ 32 ≤ package.buffLen.toNat := by
  rw [vaild_iff, UInt32.toNat_ofNat', Nat.add_mod_mod]

theorem toNat_headBodyLength (package : DecodePackage headSize) :
    (UInt32.ofNat package.headBodyLength).toNat = package.headBodyLength := by
  have bound := networkNumber_lt (span package.memory (package.offset.toNat + 2) 4)
  rw [length_span] at bound
  exact UInt32.toNat_ofNat_of_lt' bound

theorem readHead_bodyLength : package.readHead.bodyLength.toNat = package.headBodyLength :=
  package.toNat_headBodyLength

theorem readHead_packLen : package.readHead.packLen =
    UInt32.ofNat (headSize + package.headBodyLength + tailSize) := by
  rw [← readHead_bodyLength]
  rfl

/-- The ways in which `decode_msg` ends. -/
theorem decodeMsg_cases (package : DecodePackage headSize) :
    (package.buffLen.toNat < (package.offset.toNat + (headSize + tailSize)) % 2 ^ 32 ∧
      package.decodeMsg = { returned := false, copied := [], package }) ∨
    ((package.offset.toNat + (headSize + tailSize)) % 2 ^ 32 ≤ package.buffLen.toNat ∧
      package.buffLen.toNat <
        (package.offset.toNat + (headSize + package.headBodyLength + tailSize)) % 2 ^ 32 ∧
      package.decodeMsg =
        { returned := false, copied := [(package.offset.toNat, headSize)],
          package := package.readHead }) ∨
    ((package.offset.toNat + (headSize + tailSize)) % 2 ^ 32 ≤ package.buffLen.toNat ∧
      (package.offset.toNat + (headSize + package.headBodyLength + tailSize)) % 2 ^ 32 ≤
        package.buffLen.toNat ∧
      package.decodeMsg =
        { returned := true
          copied := [(package.offset.toNat, headSize),
            (package.offset.toNat + headSize + package.headBodyLength, tailSize)]
          package := package.readHead.readTail }) := by
  have start : package.readHead.tailStart = package.offset.toNat + headSize + package.headBodyLength := by
    rw [tailStart, readHead_bodyLength, readHead_offset]
  have second : package.readHead.vaild package.readHead.packLen = true ↔
      (package.offset.toNat + (headSize + package.headBodyLength + tailSize)) % 2 ^ 32 ≤
        package.buffLen.toNat := by
    rw [readHead_packLen, vaild_ofNat, readHead_offset, readHead_buffLen]
  by_cases room : package.vaild (UInt32.ofNat (headSize + tailSize)) = true
  · by_cases whole : package.readHead.vaild package.readHead.packLen = true
    · refine .inr (.inr ⟨vaild_ofNat.mp room, second.mp whole, ?_⟩)
      simp only [decodeMsg, room, whole, if_true, start]
    · refine .inr (.inl ⟨vaild_ofNat.mp room, Nat.lt_of_not_le (mt second.mpr whole), ?_⟩)
      simp only [decodeMsg, room, whole, if_true, Bool.false_eq_true, if_false]
  · refine .inl ⟨Nat.lt_of_not_le (mt vaild_ofNat.mpr room), ?_⟩
    simp only [decodeMsg, room, Bool.false_eq_true, if_false]

/-- Decoding stays within the buffer exactly where no sum that is accepted has passed `2 ^ 32`. -/
theorem bounded_iff_unwrapped : package.Bounded ↔ package.Unwrapped := by
  have limit := package.buffLen.toNat_lt
  obtain ⟨short, decoding⟩ | ⟨room, short, decoding⟩ | ⟨room, whole, decoding⟩ := package.decodeMsg_cases
  · refine iff_of_true ⟨?_, ?_, ?_, ?_⟩ fun room => absurd room (Nat.not_le_of_lt short)
    all_goals rw [decoding]; simp
  · constructor
    · rintro ⟨copied, _, _, _⟩ _
      rw [decoding] at copied
      exact ⟨copied (package.offset.toNat, headSize) (by simp),
        fun whole => absurd whole (Nat.not_le_of_lt short)⟩
    · intro unwrapped
      obtain ⟨head, _⟩ := unwrapped room
      refine ⟨?_, ?_, ?_, ?_⟩
      all_goals rw [decoding]
      · simpa using head
      all_goals simp
  · have body : package.decodeMsg.package.getBodyLength.toNat = package.headBodyLength := by
      rw [decoding]
      exact readHead_bodyLength
    have total : package.decodeMsg.package.getPackageLength =
        UInt32.ofNat (headSize + package.headBodyLength + tailSize) := by
      rw [decoding]
      exact readHead_packLen
    constructor
    · rintro ⟨_, inside, _, _⟩ _
      have inside := inside (by rw [decoding])
      rw [body] at inside
      exact ⟨by omega, fun _ => by omega⟩
    · intro unwrapped
      obtain ⟨head, small⟩ := unwrapped room
      have small := small whole
      rw [Nat.mod_eq_of_lt small] at whole
      have exactly : package.decodeMsg.package.getPackageLength.toNat =
          headSize + package.headBodyLength + tailSize := by
        rw [total]
        exact UInt32.toNat_ofNat_of_lt' (Nat.lt_of_le_of_lt (Nat.le_add_left ..) small)
      refine ⟨?_, fun _ => ?_, fun _ => ?_, fun _ => ?_⟩
      · rw [decoding]
        simp only [List.mem_cons, List.not_mem_nil, or_false, forall_eq_or_imp, forall_eq]
        omega
      · rw [body]
        omega
      · rw [exactly, body]
      · rw [exactly]
        omega

/-- A round of the loop. -/
def Next (package next : DecodePackage headSize) : Prop :=
  package.decodes.returned = true ∧ next = package.decodes.package.decodeNext

/-- The packages that the loop comes to. -/
def Reaches : DecodePackage headSize → DecodePackage headSize → Prop := Relation.ReflTransGen Next

/-- The loop stays within the buffer, goes on with every round, and ends. -/
structure LoopSafe (start : DecodePackage headSize) : Prop where
  bounded : ∀ package, start.Reaches package → package.Bounded
  advances : ∀ package next, start.Reaches package → package.Next next →
    package.offset.toNat < next.offset.toNat
  terminates : ∃ rounds, (decodeLoop rounds start).isSome

theorem decodes_eq (returned : package.decodes.returned = true) :
    package.decodes = package.decodeMsg := by
  unfold decodes at returned ⊢
  split
  · rfl
  · rename_i ends
    rw [if_neg ends] at returned
    cases returned

/-- A round that stays within the buffer goes on behind the package, and not beyond the end. -/
theorem Next.advance (bounded : package.Bounded) (step : package.Next next) :
    next.buffLen = package.buffLen ∧ package.offset.toNat < next.offset.toNat ∧
      next.offset.toNat ≤ package.buffLen.toNat := by
  obtain ⟨returned, rfl⟩ := step
  have limit := package.buffLen.toNat_lt
  have decodes := decodes_eq returned
  rw [decodes] at returned ⊢
  have inside := bounded.inside returned
  have length := bounded.length returned
  have same : package.decodeMsg.package.buffLen = package.buffLen ∧
      package.decodeMsg.package.offset = package.offset := by
    obtain ⟨_, decoding⟩ | ⟨_, _, decoding⟩ | ⟨_, _, decoding⟩ := package.decodeMsg_cases <;>
      rw [decoding] <;> exact ⟨rfl, rfl⟩
  have next : package.decodeMsg.package.decodeNext.offset.toNat =
      package.offset.toNat + package.decodeMsg.package.getPackageLength.toNat := by
    rw [decodeNext_eq, startingAt, UInt32.toNat_add, same.2]
    refine Nat.mod_eq_of_lt ?_
    rw [getPackageLength] at length
    omega
  rw [next, length]
  refine ⟨same.1, ?_, ?_⟩
  · rw [tailSize]
    omega
  · omega

/-- As many rounds as there are bytes are enough. -/
private theorem decodeLoop_ends (rounds : Nat) (start : DecodePackage headSize)
    (bounded : ∀ package, start.Reaches package → package.Bounded)
    (enough : start.buffLen.toNat - start.offset.toNat < rounds) :
    (decodeLoop rounds start).isSome := by
  induction rounds generalizing start with
  | zero => omega
  | succ rounds ih =>
    rw [decodeLoop]
    split
    · rename_i returned
      have step : start.Next start.decodes.package.decodeNext := ⟨returned, rfl⟩
      obtain ⟨same, further, within⟩ := step.advance (bounded start .refl)
      rw [Option.isSome_map]
      refine ih _ (fun package reaches => bounded package (.head step reaches)) ?_
      rw [same]
      omega
    · rfl

/-- The loop is safe exactly where none of the packages it comes to wraps. -/
theorem loopSafe_iff (recvMsg : Nat → UInt8) (len : UInt32) :
    (create headSize recvMsg len).LoopSafe ↔
      ∀ package, (create headSize recvMsg len).Reaches package → package.Unwrapped := by
  constructor
  · intro safe package reaches
    exact bounded_iff_unwrapped.mp (safe.bounded package reaches)
  · intro unwrapped
    have bounded (package : DecodePackage headSize)
        (reaches : (create headSize recvMsg len).Reaches package) : package.Bounded :=
      bounded_iff_unwrapped.mpr (unwrapped package reaches)
    refine ⟨bounded, ?_, _, decodeLoop_ends _ _ bounded (Nat.lt_succ_self _)⟩
    intro package next reaches step
    exact (step.advance (bounded package reaches)).2.1

end DecodePackage

/-- Of both packages: one call of `decode_msg` stays within the buffer exactly where no accepted sum
has wrapped, and so does the loop over any buffer. -/
theorem memoryPackage_bounded_iff (recvMsg : Nat → UInt8) (len : UInt32) :
    ((∀ package : DecodePackage NPPbMemoryPackage.headSize, package.Bounded ↔ package.Unwrapped) ∧
      ((NPPbMemoryPackage.decodePackage recvMsg len).LoopSafe ↔ ∀ package,
        (NPPbMemoryPackage.decodePackage recvMsg len).Reaches package → package.Unwrapped)) ∧
    ((∀ package : DecodePackage NPPb3DESMemoryPackage.headSize, package.Bounded ↔ package.Unwrapped) ∧
      ((NPPb3DESMemoryPackage.decodePackage recvMsg len).LoopSafe ↔ ∀ package,
        (NPPb3DESMemoryPackage.decodePackage recvMsg len).Reaches package → package.Unwrapped)) :=
  ⟨⟨fun _ => DecodePackage.bounded_iff_unwrapped, DecodePackage.loopSafe_iff recvMsg len⟩,
    ⟨fun _ => DecodePackage.bounded_iff_unwrapped, DecodePackage.loopSafe_iff recvMsg len⟩⟩

/-- A package that is decoded to itself is decoded for ever. -/
private theorem decodeLoop_stuck {package : DecodePackage headSize} (stuck : package.Next package)
    (rounds : Nat) : decodeLoop rounds package = none := by
  induction rounds with
  | zero => rfl
  | succ rounds ih => rw [decodeLoop, if_pos stuck.1, ← stuck.2, ih, Option.map_none]

/-- The bytes of a header of the command 0 and a body of `2 ^ 32 - 8` bytes. -/
def hostileMemory (index : Nat) : UInt8 := [0, 0, 0xff, 0xff, 0xff, 0xf8].getD index 0

/-- The same for the larger header. -/
def hostile3DESMemory (index : Nat) : UInt8 := [0, 0, 0xff, 0xff, 0xff, 0xf4].getD index 0

/-- Their packages have the length 0. -/
theorem hostile_unbounded :
    ((NPPbMemoryPackage.decodePackage hostileMemory 8).decodeMsg.returned = true ∧
      ¬ (NPPbMemoryPackage.decodePackage hostileMemory 8).Bounded ∧
      ∀ rounds, decodeLoop rounds (NPPbMemoryPackage.decodePackage hostileMemory 8) = none) ∧
    ((NPPb3DESMemoryPackage.decodePackage hostile3DESMemory 12).decodeMsg.returned = true ∧
      ¬ (NPPb3DESMemoryPackage.decodePackage hostile3DESMemory 12).Bounded ∧
      ∀ rounds, decodeLoop rounds (NPPb3DESMemoryPackage.decodePackage hostile3DESMemory 12) = none) := by
  refine ⟨⟨by decide, fun bounded => ?_, decodeLoop_stuck ⟨by decide, rfl⟩⟩,
    ⟨by decide, fun bounded => ?_, decodeLoop_stuck ⟨by decide, rfl⟩⟩⟩
  · exact absurd (bounded.inside (by decide)) (by decide)
  · exact absurd (bounded.inside (by decide)) (by decide)

end BTool.PbMessage
