import Mathlib.Algebra.Group.Int.Defs
import Mathlib.Algebra.Group.Nat.Defs
import Mathlib.Data.List.Induction
import Mathlib.Data.Nat.Basic

/-! Numbers as decimal text: printed with a least width, and read with an optional sign. -/

namespace BTool.Foundation

/-- The bytes of the digits of a number. -/
def decimalText (number : Nat) : List UInt8 :=
  (Nat.toDigits 10 number).map fun digit => UInt8.ofNat digit.toNat

/-- Zeros in front, up to a width. -/
def zeroPadded (width : Nat) (text : List UInt8) : List UInt8 :=
  List.replicate (width - text.length) 48 ++ text

/-- An integer with at least so many characters: the sign, zeros, and the digits. -/
def printDecimal (width : Nat) (value : Int) : List UInt8 :=
  if value < 0 then 45 :: zeroPadded (width - 1) (decimalText value.natAbs)
  else zeroPadded width (decimalText value.natAbs)

def IsDigit (byte : UInt8) : Prop := 48 ≤ byte.toNat ∧ byte.toNat ≤ 57

instance (byte : UInt8) : Decidable (IsDigit byte) := inferInstanceAs (Decidable (_ ∧ _))

-- A text is read byte by byte: the bytes are a finite type too, and its instance would try them all.
instance (text : List UInt8) : Decidable (∀ byte ∈ text, IsDigit byte) := List.decidableBAll IsDigit text

/-- The number that digits stand for. -/
def digitsNumber (digits : List UInt8) : Nat :=
  digits.foldl (fun number digit => number * 10 + (digit.toNat - 48)) 0

/-- The number of a text that has digits, and nothing else. -/
def unsignedNumber (text : List UInt8) : Option Nat :=
  if text ≠ [] ∧ ∀ byte ∈ text, IsDigit byte then some (digitsNumber text) else none

/-- The integer of a text with an optional sign. -/
def signedNumber : List UInt8 → Option Int
  | 45 :: text => (unsignedNumber text).map fun (number : Nat) => -(number : Int)
  | 43 :: text => (unsignedNumber text).map Int.ofNat
  | text => (unsignedNumber text).map Int.ofNat

/-- What a conversion to an unsigned number of so many bits makes of a text that also accepts a minus:
the number without its sign has to fit, and is negated in that width. -/
def wrappedNumber (bits : Nat) (text : List UInt8) : Option Nat :=
  (signedNumber text).bind fun value =>
    if value.natAbs < 2 ^ bits then some (value % (2 ^ bits : Nat)).toNat else none

section

variable {front back digits text : List UInt8} {number width : Nat}

theorem digitsNumber_snoc (digits : List UInt8) (digit : UInt8) :
    digitsNumber (digits ++ [digit]) = digitsNumber digits * 10 + (digit.toNat - 48) := by
  unfold digitsNumber
  rw [List.foldl_append, List.foldl_cons, List.foldl_nil]

theorem digitsNumber_append :
    digitsNumber (front ++ back) = digitsNumber front * 10 ^ back.length + digitsNumber back := by
  induction back using List.reverseRecOn with
  | nil => simp [digitsNumber]
  | append_singleton back digit ih =>
    rw [← List.append_assoc, digitsNumber_snoc, digitsNumber_snoc, ih, List.length_append,
      List.length_singleton, Nat.pow_succ, Nat.add_mul, Nat.mul_assoc, Nat.add_assoc]

theorem digitsNumber_lt (isDigits : ∀ byte ∈ digits, IsDigit byte) :
    digitsNumber digits < 10 ^ digits.length := by
  induction digits using List.reverseRecOn with
  | nil => decide
  | append_singleton digits digit ih =>
    have before := ih fun byte member => isDigits byte (List.mem_append_left _ member)
    have last : IsDigit digit := isDigits digit (by simp)
    rw [digitsNumber_snoc, List.length_append, List.length_singleton, Nat.pow_succ]
    unfold IsDigit at last
    omega

/-- The first digits of a number are what is left of it without the others. -/
theorem digitsNumber_take (isDigits : ∀ byte ∈ digits, IsDigit byte) (kept : Nat) :
    digitsNumber (digits.take kept) = digitsNumber digits / 10 ^ (digits.length - kept) := by
  have rest : digitsNumber (digits.drop kept) < 10 ^ (digits.length - kept) := by
    rw [← List.length_drop]
    exact digitsNumber_lt fun byte member => isDigits byte (List.mem_of_mem_drop member)
  have whole : digitsNumber (digits.take kept ++ digits.drop kept) = digitsNumber digits := by
    rw [List.take_append_drop]
  rw [digitsNumber_append, List.length_drop] at whole
  rw [← whole, Nat.add_comm, Nat.add_mul_div_right _ _ (Nat.pow_pos (by decide)),
    Nat.div_eq_of_lt rest, Nat.zero_add]

theorem isDigit_of_mem_decimalText {byte : UInt8} (member : byte ∈ decimalText number) : IsDigit byte := by
  obtain ⟨digit, isDigit, rfl⟩ := List.mem_map.mp member
  have digits := Nat.isDigit_of_mem_toDigits (by decide) (by decide) isDigit
  rw [Char.isDigit_iff_toNat] at digits
  simp only [Char.reduceToNat] at digits
  rw [IsDigit, UInt8.toNat_ofNat']
  omega

theorem digitsNumber_decimalText : digitsNumber (decimalText number) = number := by
  have same (digits : List Char) (isDigits : ∀ digit ∈ digits, digit.isDigit) :
      digitsNumber (digits.map fun digit => UInt8.ofNat digit.toNat) = Nat.ofDigitChars 10 digits 0 := by
    induction digits using List.reverseRecOn with
    | nil => rfl
    | append_singleton digits digit ih =>
      have last := isDigits digit (by simp)
      rw [Char.isDigit_iff_toNat] at last
      simp only [Char.reduceToNat] at last
      have code : (UInt8.ofNat digit.toNat).toNat = digit.toNat := UInt8.toNat_ofNat_of_lt' (by
        change _ < 256
        omega)
      have before := ih fun digit member => isDigits digit (List.mem_append_left _ member)
      rw [List.map_append, List.map_singleton, digitsNumber_snoc, before, code, Nat.ofDigitChars_append,
        Nat.ofDigitChars_cons, Nat.ofDigitChars_nil, Nat.mul_comm]
      rfl
  exact (same _ fun digit member => Nat.isDigit_of_mem_toDigits (by decide) (by decide) member).trans
    Nat.ofDigitChars_ten_toDigits

theorem length_decimalText_le (positive : 0 < width) :
    (decimalText number).length ≤ width ↔ number < 10 ^ width := by
  rw [decimalText, List.length_map]
  exact Nat.length_toDigits_le_iff (by decide) positive

theorem length_zeroPadded : (zeroPadded width text).length = max width text.length := by
  rw [zeroPadded, List.length_append, List.length_replicate]
  omega

theorem isDigit_of_mem_zeroPadded (isDigits : ∀ byte ∈ text, IsDigit byte) {byte : UInt8}
    (member : byte ∈ zeroPadded width text) : IsDigit byte := by
  rcases List.mem_append.mp member with zero | inside
  · rw [List.eq_of_mem_replicate zero]
    exact ⟨by decide, by decide⟩
  · exact isDigits byte inside

theorem digitsNumber_zeroPadded : digitsNumber (zeroPadded width text) = digitsNumber text := by
  have zeros (count : Nat) : digitsNumber (List.replicate count 48) = 0 := by
    induction count with
    | zero => rfl
    | succ count ih => rw [List.replicate_succ', digitsNumber_snoc, ih]; rfl
  rw [zeroPadded, digitsNumber_append, zeros, Nat.zero_mul, Nat.zero_add]

theorem printDecimal_natCast : printDecimal width number = zeroPadded width (decimalText number) := by
  rw [printDecimal, if_neg (by omega), Int.natAbs_natCast]

/-- As many characters as the width of a printed number are digits. -/
theorem isDigit_of_mem_printDecimal {byte : UInt8}
    (member : byte ∈ (printDecimal width (number : Int)).take width) : IsDigit byte := by
  rw [printDecimal_natCast] at member
  exact isDigit_of_mem_zeroPadded (fun _ => isDigit_of_mem_decimalText) (List.mem_of_mem_take member)

theorem length_take_printDecimal : ((printDecimal width (number : Int)).take width).length = width := by
  rw [printDecimal_natCast, List.length_take, length_zeroPadded]
  omega

/-- A printed number that is cut to the width is right as long as it has no more digits, and too small
otherwise. -/
theorem digitsNumber_take_printDecimal (positive : 0 < width) :
    (number < 10 ^ width → digitsNumber ((printDecimal width (number : Int)).take width) = number) ∧
      (10 ^ width ≤ number → digitsNumber ((printDecimal width (number : Int)).take width) < number) := by
  have isDigits : ∀ byte ∈ zeroPadded width (decimalText number), IsDigit byte := fun _ =>
    isDigit_of_mem_zeroPadded fun _ => isDigit_of_mem_decimalText
  have fits : (decimalText number).length ≤ width ↔ number < 10 ^ width := length_decimalText_le positive
  rw [printDecimal_natCast, digitsNumber_take isDigits, digitsNumber_zeroPadded,
    digitsNumber_decimalText, length_zeroPadded]
  constructor
  · intro small
    have short := fits.mpr small
    rw [Nat.max_eq_left short, Nat.sub_self, Nat.pow_zero, Nat.div_one]
  · intro large
    have long : width < (decimalText number).length := Nat.lt_of_not_le (mt fits.mp (Nat.not_lt.mpr large))
    have some : 0 < number := Nat.lt_of_lt_of_le (Nat.pow_pos (by decide)) large
    exact Nat.div_lt_self some (Nat.one_lt_pow (by omega) (by decide))

theorem lt_of_unsignedNumber (isNumber : unsignedNumber text = some number) :
    number < 10 ^ text.length := by
  obtain ⟨⟨_, isDigits⟩, same⟩ := Option.ite_none_right_eq_some.mp isNumber
  obtain rfl := Option.some.inj same
  exact digitsNumber_lt isDigits

/-- An integer has no more digits than its text has characters. -/
theorem natAbs_lt_of_signedNumber {value : Int} (isValue : signedNumber text = some value) :
    value.natAbs < 10 ^ text.length := by
  have longer {sign : UInt8} {rest : List UInt8} : 10 ^ rest.length ≤ 10 ^ (sign :: rest).length :=
    Nat.pow_le_pow_right (by decide) (Nat.le_succ _)
  unfold signedNumber at isValue
  split at isValue
  · obtain ⟨number, isNumber, rfl⟩ := Option.map_eq_some_iff.mp isValue
    rw [Int.natAbs_neg, Int.natAbs_natCast]
    exact Nat.lt_of_lt_of_le (lt_of_unsignedNumber isNumber) longer
  · obtain ⟨number, isNumber, rfl⟩ := Option.map_eq_some_iff.mp isValue
    exact Nat.lt_of_lt_of_le (lt_of_unsignedNumber isNumber) longer
  · obtain ⟨number, isNumber, rfl⟩ := Option.map_eq_some_iff.mp isValue
    exact lt_of_unsignedNumber isNumber

theorem lt_of_wrappedNumber {bits : Nat} (isNumber : wrappedNumber bits text = some number) :
    number < 2 ^ bits := by
  obtain ⟨value, _, wraps⟩ := Option.bind_eq_some_iff.mp isNumber
  obtain ⟨_, same⟩ := Option.ite_none_right_eq_some.mp wraps
  have positive : 0 < ((2 ^ bits : Nat) : Int) := Int.natCast_pos.mpr (Nat.two_pow_pos bits)
  have low := Int.emod_nonneg value (Int.ne_of_gt positive)
  have high := Int.emod_lt_of_pos value positive
  obtain rfl := Option.some.inj same
  omega

/-- Digits are read as the number that they stand for. -/
theorem signedNumber_digits (nonempty : text ≠ []) (isDigits : ∀ byte ∈ text, IsDigit byte) :
    signedNumber text = some (digitsNumber text : Int) := by
  have unsigned : unsignedNumber text = some (digitsNumber text) := if_pos ⟨nonempty, isDigits⟩
  unfold signedNumber
  split
  · exact absurd (isDigits 45 List.mem_cons_self) (by decide)
  · exact absurd (isDigits 43 List.mem_cons_self) (by decide)
  · rw [unsigned]
    rfl

theorem wrappedNumber_digits {bits : Nat} (nonempty : text ≠ []) (isDigits : ∀ byte ∈ text, IsDigit byte)
    (fits : digitsNumber text < 2 ^ bits) : wrappedNumber bits text = some (digitsNumber text) := by
  rw [wrappedNumber, signedNumber_digits nonempty isDigits, Option.bind_some, Int.natAbs_natCast, if_pos fits]
  exact congrArg some (Nat.mod_eq_of_lt fits)

end

end BTool.Foundation
