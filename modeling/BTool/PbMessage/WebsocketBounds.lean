import Mathlib.Logic.Relation
import BTool.PbMessage.WebsocketPackage

/-! Decoding of websocket packages from anywhere. The conversion of the length of the body accepts a minus,
and what it makes of it is added in 64 bits before it is compared. -/

namespace BTool.PbMessage.NPPbWebsocketPackage

open BTool.Foundation
open NPPbJsonPackage (cString)

namespace DecodePackage

variable {cast : LexicalCast} {package next : DecodePackage}

/-- What `decode_msg` has accepted lies in the buffer. -/
def Bounded (cast : LexicalCast) (package : DecodePackage) : Prop :=
  (package.decodeMsg cast).returned = true →
    package.offset.toNat + headSize + ((package.decodeMsg cast).package.getBodyLength cast).toNat ≤
      package.buffLen.toNat

/-- The integer that stands at `body_length_`, if there is one. -/
def headBody (package : DecodePackage) : Option Int :=
  signedNumber (cString package.readHead.head.bodyLength)

/-- `vaild` accepts the header, and a body with the length that stands there, both in sums of 64 bits. -/
def Accepts (package : DecodePackage) (value : Int) : Prop :=
  (package.offset.toNat + headSize) % 2 ^ 64 ≤ package.buffLen.toNat ∧
    ((package.offset.toNat + headSize : Nat) + value) % 2 ^ 64 ≤ package.buffLen.toNat

/-- No length that `vaild` accepts at this offset is a minus with a number of up to the end of the header,
or passes `2 ^ 64` with it. -/
def Unwrapped (package : DecodePackage) : Prop :=
  ∀ value, package.headBody = some value → package.Accepts value →
    (value < 0 → package.offset.toNat + headSize < value.natAbs) ∧
      (0 ≤ value → package.offset.toNat + headSize + value.natAbs < 2 ^ 64)

theorem vaild_iff {readLength : UInt64} : package.vaild readLength = true ↔
    package.buffer.isSome = true ∧
      (package.offset.toNat + readLength.toNat) % 2 ^ 64 ≤ package.buffLen.toNat := by
  unfold vaild
  rw [Bool.and_eq_true, decide_eq_true_iff, UInt64.le_iff_toNat_le, UInt64.toNat_add]

/-- No buffer, no number. -/
theorem isSome_of_headBody {value : Int} (isValue : package.headBody = some value) :
    package.buffer.isSome = true := by
  cases present : package.buffer with
  | some _ => rfl
  | none =>
    have nothing : package.headBody = signedNumber [] := by
      unfold headBody readHead bytesAt
      rw [present]
      rfl
    cases nothing.symm.trans isValue

theorem length_headBody (package : DecodePackage) :
    (cString package.readHead.head.bodyLength).length ≤ 8 := by
  refine Nat.le_trans (List.takeWhile_prefix _).length_le ?_
  exact List.length_take_le _ _

/-- The integer is as small as its text is short. -/
theorem natAbs_headBody {value : Int} (isValue : package.headBody = some value) : value.natAbs < 10 ^ 8 :=
  Nat.lt_of_lt_of_le (natAbs_lt_of_signedNumber isValue)
    (Nat.pow_le_pow_right (by decide) package.length_headBody)

section

variable (documented : cast.Documented)

include documented

/-- The conversion of the length wraps a negative number round. -/
theorem safeConvert_bodyLength {value : Int} (isValue : package.headBody = some value) :
    ∃ bodyLen, safeConvert cast.sizeT package.readHead.head.bodyLength = some bodyLen ∧
      (bodyLen.toNat : Int) = value % 2 ^ 64 := by
  have small := natAbs_headBody isValue
  have converts := documented.sizeT (cString package.readHead.head.bodyLength)
  rw [wrappedNumber, show signedNumber _ = some value from isValue, Option.bind_some, if_pos (by omega)]
    at converts
  obtain ⟨bodyLen, isLen, isWrapped⟩ := Option.map_eq_some_iff.mp converts
  exact ⟨bodyLen, isLen, by omega⟩

theorem safeConvert_eq_none (noValue : package.headBody = none) :
    safeConvert cast.sizeT package.readHead.head.bodyLength = none := by
  have converts := documented.sizeT (cString package.readHead.head.bodyLength)
  rw [wrappedNumber, show signedNumber _ = none from noValue, Option.bind_none] at converts
  exact Option.map_eq_none_iff.mp converts

/-- `decode_msg` accepts exactly what `vaild` accepts of the header and of the length in it. -/
theorem decodeMsg_cases (package : DecodePackage) :
    ((package.decodeMsg cast).returned = false ∧
      ∀ value, package.headBody = some value → ¬ package.Accepts value) ∨
    ∃ value bodyLen, package.headBody = some value ∧ package.Accepts value ∧
      (bodyLen.toNat : Int) = value % 2 ^ 64 ∧ package.decodeMsg cast =
        { returned := true, copied := [(package.offset.toNat, headSize)]
          package := { package.readHead with
            packLen := UInt64.ofNat headSize + bodyLen, status := .decodeMsg } } ∧
      safeConvert cast.sizeT package.readHead.head.bodyLength = some bodyLen := by
  have size : (UInt64.ofNat headSize).toNat = headSize := rfl
  have room_iff : package.vaild (UInt64.ofNat headSize) = true ↔ package.buffer.isSome = true ∧
      (package.offset.toNat + headSize) % 2 ^ 64 ≤ package.buffLen.toNat := by
    rw [vaild_iff, size]
  by_cases room : package.vaild (UInt64.ofNat headSize) = true
  · cases isValue : package.headBody with
    | none =>
      refine .inl ⟨?_, fun value none => nomatch none⟩
      simp only [decodeMsg, room, if_true, safeConvert_eq_none documented isValue]
    | some value =>
      obtain ⟨bodyLen, isLen, isWrapped⟩ := safeConvert_bodyLength documented isValue
      have whole_iff : package.vaild (UInt64.ofNat headSize + bodyLen) = true ↔ package.Accepts value := by
        rw [vaild_iff, UInt64.toNat_add, size, Accepts]
        have rooms := room_iff.mp room
        rw [Nat.add_mod_mod]
        constructor
        · rintro ⟨_, whole⟩
          exact ⟨rooms.2, by omega⟩
        · rintro ⟨_, whole⟩
          exact ⟨rooms.1, by omega⟩
      by_cases whole : package.vaild (UInt64.ofNat headSize + bodyLen) = true
      · refine .inr ⟨value, bodyLen, rfl, whole_iff.mp whole, isWrapped, ?_, isLen⟩
        simp only [decodeMsg, room, if_true, isLen]
        exact if_pos whole
      · refine .inl ⟨?_, ?_⟩
        · simp only [decodeMsg, room, if_true, isLen]
          exact congrArg Decoding.returned (if_neg whole)
        · rintro other ⟨rfl⟩
          exact mt whole_iff.mpr whole
  · refine .inl ⟨?_, fun value isValue accepts => room (room_iff.mpr ⟨isSome_of_headBody isValue, accepts.1⟩)⟩
    simp only [decodeMsg, room, Bool.false_eq_true, if_false]

/-- What is accepted lies in the buffer exactly where no sum that is accepted has wrapped. -/
theorem bounded_iff_unwrapped : package.Bounded cast ↔ package.Unwrapped := by
  have limit := package.buffLen.toNat_lt
  obtain ⟨rejects, never⟩ | ⟨value, bodyLen, isValue, accepts, isWrapped, decoding, isLen⟩ :=
    decodeMsg_cases documented package
  · refine iff_of_true ?_ fun value isValue accepts => absurd accepts (never value isValue)
    intro returned
    rw [rejects] at returned
    cases returned
  · have small := natAbs_headBody isValue
    have body : (package.decodeMsg cast).package.getBodyLength cast = bodyLen := by
      rw [decoding, getBodyLength]
      exact congrArg (Option.getD · 0) isLen
    unfold Bounded Unwrapped
    rw [body, decoding]
    constructor
    · intro inside other isOther _
      obtain rfl := Option.some.inj (isOther.symm.trans isValue)
      have inside := inside rfl
      constructor <;> intro sign <;> omega
    · intro unwrapped _
      obtain ⟨negative, positive⟩ := unwrapped value isValue accepts
      unfold Accepts at accepts
      by_cases sign : value < 0
      · have := negative sign
        omega
      · have := positive (by omega)
        omega

end

/-- A round of the loop. -/
def Next (cast : LexicalCast) (package next : DecodePackage) : Prop :=
  (package.decodes cast).returned = true ∧ next = (package.decodes cast).package.decodeNext

/-- The packages that the loop comes to. -/
def Reaches (cast : LexicalCast) : DecodePackage → DecodePackage → Prop := Relation.ReflTransGen (Next cast)

/-- The loop stays within the buffer, goes on with every round, and ends. -/
structure LoopSafe (cast : LexicalCast) (start : DecodePackage) : Prop where
  bounded : ∀ package, Reaches cast start package → package.Bounded cast
  advances : ∀ package next, Reaches cast start package → Next cast package next →
    package.offset.toNat + headSize ≤ next.offset.toNat ∧ next.offset.toNat ≤ package.buffLen.toNat
  terminates : ∃ rounds, (decodeLoop cast rounds start).isSome

theorem decodes_eq (returned : (package.decodes cast).returned = true) :
    package.decodes cast = package.decodeMsg cast := by
  unfold decodes at returned ⊢
  split
  · rfl
  · rename_i ends
    rw [if_neg ends] at returned
    cases returned

/-- A round that stays within the buffer goes on behind the package, and not beyond the end. -/
theorem Next.advance (documented : cast.Documented) (bounded : package.Bounded cast)
    (step : Next cast package next) : next.buffLen = package.buffLen ∧
      package.offset.toNat + headSize ≤ next.offset.toNat ∧ next.offset.toNat ≤ package.buffLen.toNat := by
  obtain ⟨returned, rfl⟩ := step
  have limit := package.buffLen.toNat_lt
  have decodes := decodes_eq returned
  rw [decodes] at returned ⊢
  have inside := bounded returned
  obtain ⟨rejects, _⟩ | ⟨value, bodyLen, _, _, _, decoding, isLen⟩ :=
    decodeMsg_cases documented package
  · rw [rejects] at returned
    cases returned
  · have body : (package.decodeMsg cast).package.getBodyLength cast = bodyLen := by
      rw [decoding, getBodyLength]
      exact congrArg (Option.getD · 0) isLen
    have size : (UInt64.ofNat headSize).toNat = headSize := rfl
    have next : (package.decodeMsg cast).package.decodeNext.offset.toNat =
        package.offset.toNat + (headSize + bodyLen.toNat) := by
      rw [decoding]
      change (package.offset + (UInt64.ofNat headSize + bodyLen)).toNat = _
      rw [UInt64.toNat_add, UInt64.toNat_add, size, Nat.add_mod_mod]
      refine Nat.mod_eq_of_lt ?_
      rw [body] at inside
      omega
    rw [body] at inside
    rw [next]
    refine ⟨by rw [decoding]; rfl, by omega, by omega⟩

/-- As many rounds as there are bytes are enough. -/
private theorem decodeLoop_finishes (documented : cast.Documented) (rounds : Nat) (start : DecodePackage)
    (bounded : ∀ package, Reaches cast start package → package.Bounded cast)
    (enough : start.buffLen.toNat - start.offset.toNat < rounds) :
    (decodeLoop cast rounds start).isSome := by
  induction rounds generalizing start with
  | zero => omega
  | succ rounds ih =>
    rw [decodeLoop]
    split
    · rename_i returned
      have step : Next cast start (start.decodes cast).package.decodeNext := ⟨returned, rfl⟩
      obtain ⟨same, further, within⟩ := step.advance documented (bounded start .refl)
      refine ih _ (fun package reaches => bounded package (.head step reaches)) ?_
      rw [same]
      rw [headSize] at further
      omega
    · rfl

end DecodePackage

open NPPbWebsocketPackage.DecodePackage

/-- One call of `decode_msg` stays within the buffer exactly where no sum that it accepts has wrapped, and
the loop over any buffer does exactly where this holds of every package that it comes to. -/
theorem websocketPackage_bounded_iff {cast : LexicalCast} (documented : cast.Documented) :
    (∀ package : DecodePackage, package.Bounded cast ↔ package.Unwrapped) ∧
      ∀ recvMsg len, LoopSafe cast (create recvMsg len) ↔
        ∀ package, Reaches cast (create recvMsg len) package → package.Unwrapped := by
  refine ⟨fun _ => bounded_iff_unwrapped documented, fun recvMsg len => ⟨?_, ?_⟩⟩
  · intro safe package reaches
    exact (bounded_iff_unwrapped documented).mp (safe.bounded package reaches)
  · intro unwrapped
    have bounded (package : DecodePackage) (reaches : Reaches cast (create recvMsg len) package) :
        package.Bounded cast := (bounded_iff_unwrapped documented).mpr (unwrapped package reaches)
    refine ⟨bounded, ?_, _, decodeLoop_finishes documented _ _ bounded (Nat.lt_succ_self _)⟩
    intro package next reaches step
    exact (step.advance documented (bounded package reaches)).2

/-- Conversions as Boost documents them. -/
def boostCast : LexicalCast :=
  { sizeT := fun text => (wrappedNumber 64 text).map UInt64.ofNat
    uint32 := fun text => (wrappedNumber 32 text).map UInt32.ofNat }

theorem documented_boostCast : boostCast.Documented := by
  constructor
  · intro text
    change ((wrappedNumber 64 text).map UInt64.ofNat).map UInt64.toNat = _
    cases isNumber : wrappedNumber 64 text with
    | none => rfl
    | some number => exact congrArg some (UInt64.toNat_ofNat_of_lt' (lt_of_wrappedNumber isNumber))
  · intro text
    change ((wrappedNumber 32 text).map UInt32.ofNat).map UInt32.toNat = _
    cases isNumber : wrappedNumber 32 text with
    | none => rfl
    | some number => exact congrArg some (UInt32.toNat_ofNat_of_lt' (lt_of_wrappedNumber isNumber))

/-- 23 zeros and the body length 1, with a body. -/
def memoryOfOne (index : Nat) : UInt8 := if index < 23 then 48 else if index = 23 then 49 else 7

theorem websocketPackage_bounded_iff_one : Bounded boostCast (create (some memoryOfOne) 25) := by
  refine ((websocketPackage_bounded_iff documented_boostCast).1 _).mpr fun value isValue _ => ?_
  obtain rfl : value = 1 := Option.some.inj (isValue.symm.trans (by decide +kernel))
  exact ⟨by decide, fun _ => by decide⟩

/-- A header with the body length -24. -/
def hostileMemory (index : Nat) : UInt8 :=
  if index < 16 then 48 else [45, 50, 52].getD (index - 16) 0

/-- Its package has the length 0. -/
theorem hostile_websocket : ((create (some hostileMemory) 24).decodeMsg boostCast).returned = true ∧
    (∀ rounds, decodeLoop boostCast rounds (create (some hostileMemory) 24) = none) ∧
    ¬ ∀ (cast : LexicalCast) (package : DecodePackage), cast.Documented → package.Bounded cast := by
  have returned : ((create (some hostileMemory) 24).decodes boostCast).returned = true := by decide +kernel
  have returns : ((create (some hostileMemory) 24).decodeMsg boostCast).returned = true := by decide +kernel
  have stays : ((create (some hostileMemory) 24).decodes boostCast).package.decodeNext =
      create (some hostileMemory) 24 := by
    obtain ⟨rejects, _⟩ | ⟨value, bodyLen, isValue, _, isWrapped, decoding, _⟩ :=
      decodeMsg_cases documented_boostCast (create (some hostileMemory) 24)
    · cases returns.symm.trans rejects
    · obtain rfl : value = -24 := Option.some.inj (isValue.symm.trans (by decide +kernel))
      have size : (UInt64.ofNat headSize).toNat = 24 := rfl
      have same : 0 + (UInt64.ofNat headSize + bodyLen) = 0 := by
        rw [UInt64.zero_add, ← UInt64.toNat_inj, UInt64.toNat_add, size]
        change (24 + bodyLen.toNat) % 2 ^ 64 = 0
        omega
      rw [decodes_eq returned, decoding]
      exact congrArg (fun offset => initData (startingAt (some hostileMemory) 24 offset)) same
  refine ⟨returns, fun rounds => ?_, fun always => ?_⟩
  · induction rounds with
    | zero => rfl
    | succ rounds ih => rw [decodeLoop, if_pos returned, stays, ih]
  · exact absurd (always boostCast (create (some hostileMemory) 24) documented_boostCast
      (by decide +kernel)) (by decide +kernel)

end BTool.PbMessage.NPPbWebsocketPackage
