import Mathlib.Data.List.Basic

/-! `StringToHex` and `HexToString` of `EncryptBase`. -/

namespace BTool.Encrypt.EncryptBase

/-- An `int` that is stored in an `unsigned char`. -/
def unsignedChar (number : Int) : UInt8 := UInt8.ofNat (number % 256).toNat

def getByteToNumber (byte : UInt8) : Int :=
  if 97 ≤ byte.toNat then byte.toNat - 97 + 10
  else if 65 ≤ byte.toNat then byte.toNat - 65 + 10
  else byte.toNat - 48

def getNumberToByte (number : Int) (upper : Bool) : UInt8 :=
  if 10 ≤ number then if upper then unsignedChar (65 + number - 10) else unsignedChar (97 + number - 10)
  else unsignedChar (48 + number)

/-- The byte of two characters. -/
def pairToByte (high low : UInt8) : UInt8 :=
  let highByte := unsignedChar (getByteToNumber high)
  let lowByte := unsignedChar (getByteToNumber low)
  UInt8.ofNat (highByte.toNat <<< 4 ||| lowByte.toNat)

/-- `none` for an odd length, where a character behind the text is read. -/
def stringToHex : List UInt8 → Option (List UInt8)
  | [] => some []
  | [_] => none
  | high :: low :: source => (stringToHex source).map (pairToByte high low :: ·)

/-- The halves of a `char`, which becomes an `int` with its sign. -/
def highByte (byte : UInt8) : UInt8 :=
  UInt8.ofBitVec (((byte.toBitVec.signExtend 32 &&& 0xf0#32).sshiftRight 4).setWidth 8)

def lowByte (byte : UInt8) : UInt8 := UInt8.ofBitVec ((byte.toBitVec.signExtend 32 &&& 0x0f#32).setWidth 8)

def hexToString (source : List UInt8) (upper : Bool) : List UInt8 :=
  source.flatMap fun byte =>
    [getNumberToByte (highByte byte).toNat upper, getNumberToByte (lowByte byte).toNat upper]

/-- `0` to `9`, `A` to `F` and `a` to `f`. -/
def HexDigit (chr : UInt8) : Prop :=
  (48 ≤ chr ∧ chr ≤ 57) ∨ (65 ≤ chr ∧ chr ≤ 70) ∨ (97 ≤ chr ∧ chr ≤ 102)

instance (chr : UInt8) : Decidable (HexDigit chr) := inferInstanceAs (Decidable (_ ∨ _ ∨ _))

/-- A letter in the case that is asked for. -/
def inCase (upper : Bool) (chr : UInt8) : UInt8 :=
  if upper then if 97 ≤ chr ∧ chr ≤ 122 then chr - 32 else chr
  else if 65 ≤ chr ∧ chr ≤ 90 then chr + 32 else chr

theorem forall_byte {holds : UInt8 → Prop} (all : ∀ code < 256, holds (UInt8.ofNat code)) (byte : UInt8) :
    holds byte := by
  have this := all byte.toNat byte.toNat_lt
  rwa [UInt8.ofNat_toNat] at this

/-- The two characters of a byte give it back. -/
theorem pairToByte_digits : ∀ byte upper, pairToByte (getNumberToByte (highByte byte).toNat upper)
    (getNumberToByte (lowByte byte).toNat upper) = byte := by
  refine forall_byte ?_
  decide +kernel

/-- A digit is the character of its number. -/
theorem exists_number : ∀ chr, HexDigit chr → ∃ number < 16,
    unsignedChar (getByteToNumber chr) = UInt8.ofNat number ∧
      ∀ upper, getNumberToByte number upper = inCase upper chr := by
  refine forall_byte ?_
  decide +kernel

theorem halves : ∀ high < 16, ∀ low < 16, highByte (UInt8.ofNat (high <<< 4 ||| low)) = UInt8.ofNat high ∧
    lowByte (UInt8.ofNat (high <<< 4 ||| low)) = UInt8.ofNat low := by
  decide +kernel

/-- The byte of two digits has them as its characters, in the case that is asked for. -/
theorem digits_pairToByte {high low : UInt8} (isHigh : HexDigit high) (isLow : HexDigit low) (upper : Bool) :
    hexToString [pairToByte high low] upper = [inCase upper high, inCase upper low] := by
  obtain ⟨first, firstSmall, firstNumber, firstChr⟩ := exists_number high isHigh
  obtain ⟨second, secondSmall, secondNumber, secondChr⟩ := exists_number low isLow
  have toNat {number : Nat} (small : number < 16) : (UInt8.ofNat number).toNat = number :=
    UInt8.toNat_ofNat_of_lt' (Nat.lt_trans small (by decide))
  obtain ⟨highHalf, lowHalf⟩ := halves first firstSmall second secondSmall
  have byte : pairToByte high low = UInt8.ofNat (first <<< 4 ||| second) := by
    rw [pairToByte, firstNumber, secondNumber, toNat firstSmall, toNat secondSmall]
  rw [hexToString, List.flatMap_singleton, byte, highHalf, lowHalf, toNat firstSmall, toNat secondSmall,
    firstChr, secondChr]

theorem stringToHex_hexToString (source : List UInt8) (upper : Bool) :
    stringToHex (hexToString source upper) = some source := by
  induction source with
  | nil => rfl
  | cons byte source ih =>
    change stringToHex (_ :: _ :: hexToString source upper) = _
    rw [stringToHex, ih, Option.map_some, pairToByte_digits]

theorem hexToString_stringToHex {source : List UInt8} (digits : ∀ chr ∈ source, HexDigit chr)
    (even : 2 ∣ source.length) (upper : Bool) :
    ∃ bytes, stringToHex source = some bytes ∧ hexToString bytes upper = source.map (inCase upper) := by
  induction source using stringToHex.induct with
  | case1 => exact ⟨[], rfl, rfl⟩
  | case2 chr => exact absurd even (by rw [List.length_singleton]; decide)
  | case3 high low source ih =>
    rw [List.forall_mem_cons, List.forall_mem_cons] at digits
    obtain ⟨isHigh, isLow, others⟩ := digits
    obtain ⟨bytes, isBytes, back⟩ := ih others ((Nat.dvd_add_left (Nat.dvd_refl 2)).mp even)
    refine ⟨pairToByte high low :: bytes, by rw [stringToHex, isBytes, Option.map_some], ?_⟩
    have first := digits_pairToByte isHigh isLow upper
    rw [hexToString, List.flatMap_singleton] at first
    rw [hexToString, List.flatMap_cons, first, ← hexToString, back]
    rfl

/-- Bytes come back from their text, and an even number of digits from their bytes, in the case that is asked
for. -/
theorem hex_round_trip (upper : Bool) :
    (∀ bytes, stringToHex (hexToString bytes upper) = some bytes) ∧
    ∀ source, (∀ chr ∈ source, HexDigit chr) → 2 ∣ source.length →
      ∃ bytes, stringToHex source = some bytes ∧ hexToString bytes upper = source.map (inCase upper) :=
  ⟨fun bytes => stringToHex_hexToString bytes upper,
    fun _ digits even => hexToString_stringToHex digits even upper⟩

/-- `aB`, which is `ab` in lower case. -/
theorem hex_round_trip_digits : stringToHex (hexToString [171, 9] false) = some [171, 9] ∧
    ∃ bytes, stringToHex [97, 66] = some bytes ∧
      hexToString bytes false = ([97, 66] : List UInt8).map (inCase false) := by
  obtain ⟨bytes, texts⟩ := hex_round_trip false
  have digits : ∀ chr ∈ ([97, 66] : List UInt8), HexDigit chr :=
    List.forall_mem_cons.mpr ⟨by decide, List.forall_mem_cons.mpr ⟨by decide, nofun⟩⟩
  exact ⟨bytes [171, 9], texts [97, 66] digits ⟨1, rfl⟩⟩

end BTool.Encrypt.EncryptBase
