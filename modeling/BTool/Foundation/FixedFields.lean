import BTool.Foundation.DecimalText
import Mathlib.Data.List.TakeWhile

/-! Texts of numbers with a fixed width each, separators between them, that are read by offsets. -/

namespace BTool.Foundation

def IsSpace (byte : UInt8) : Prop := byte = 32 ∨ 9 ≤ byte.toNat ∧ byte.toNat ≤ 13

instance (byte : UInt8) : Decidable (IsSpace byte) := inferInstanceAs (Decidable (_ ∨ _))

/-- The number in front of a text: spaces, an optional sign, and digits up to what is none. -/
def leadingNumber (text : List UInt8) : Int :=
  match text.dropWhile (decide <| IsSpace ·) with
  | 45 :: text => -digitsNumber (text.takeWhile (decide <| IsDigit ·))
  | 43 :: text => digitsNumber (text.takeWhile (decide <| IsDigit ·))
  | text => digitsNumber (text.takeWhile (decide <| IsDigit ·))

/-- The number in front of so many bytes at an offset, where there are as many. -/
def numberAt (memory : List UInt8) (offset width : Nat) : Option Int :=
  if offset + width ≤ memory.length then some (leadingNumber ((memory.drop offset).take width)) else none

universe u

variable {Field : Type u} (width : Field → Nat) (separator : Field → List UInt8) (value : Field → Int)

/-- The fields one behind the other, a separator behind each of them but the last. -/
def record : List Field → List UInt8
  | [] => []
  | [field] => printDecimal (width field) (value field)
  | field :: next :: fields =>
    printDecimal (width field) (value field) ++ separator field ++ record (next :: fields)

section

variable {width separator value} {front text back : List UInt8} {field next : Field} {fields : List Field}
  {number : Int} {digits : Nat}

theorem leadingNumber_digits (isDigits : ∀ byte ∈ text, IsDigit byte) :
    leadingNumber text = digitsNumber text := by
  have whole : text.takeWhile (decide <| IsDigit ·) = text :=
    List.takeWhile_eq_self_iff.mpr fun byte member => decide_eq_true (isDigits byte member)
  have noSpace : text.dropWhile (decide <| IsSpace ·) = text := by
    obtain _ | ⟨byte, rest⟩ := text
    · rfl
    · have isDigit := isDigits byte List.mem_cons_self
      refine List.dropWhile_cons_of_neg fun isSpace => ?_
      obtain rfl | space := of_decide_eq_true isSpace
      · exact absurd isDigit (by decide)
      · unfold IsDigit at isDigit
        omega
  unfold leadingNumber
  rw [noSpace]
  split
  · exact absurd (isDigits 45 List.mem_cons_self) (by decide)
  · exact absurd (isDigits 43 List.mem_cons_self) (by decide)
  · rw [whole]

/-- A number that has no more digits than its field fills it. -/
theorem length_printDecimal (positive : 0 < digits) (nonneg : 0 ≤ number) (small : number < 10 ^ digits) :
    (printDecimal digits number).length = digits := by
  lift number to Nat using nonneg
  have short := (length_decimalText_le positive).mpr (show number < 10 ^ digits by exact_mod_cast small)
  rw [printDecimal_natCast, length_zeroPadded, Nat.max_eq_left short]

theorem leadingNumber_printDecimal (nonneg : 0 ≤ number) :
    leadingNumber (printDecimal digits number) = number := by
  lift number to Nat using nonneg
  rw [printDecimal_natCast, leadingNumber_digits, digitsNumber_zeroPadded, digitsNumber_decimalText]
  exact fun _ => isDigit_of_mem_zeroPadded fun _ => isDigit_of_mem_decimalText

theorem numberAt_append (nonneg : 0 ≤ number) (filled : (printDecimal digits number).length = digits) :
    numberAt (front ++ printDecimal digits number ++ back) front.length digits = some number := by
  rw [numberAt, if_pos, List.append_assoc, List.drop_left, List.take_left' filled,
    leadingNumber_printDecimal nonneg]
  simp only [List.length_append]
  omega

/-- What is in the field after the first one, in front of it and behind it. -/
theorem record_cons : ∃ rest, record width separator value (field :: fields) =
    printDecimal (width field) (value field) ++ rest ∧
      (fields ≠ [] → rest = separator field ++ record width separator value fields) := by
  obtain _ | ⟨next, fields⟩ := fields
  · exact ⟨[], (List.append_nil _).symm, fun some => absurd rfl some⟩
  · exact ⟨_, List.append_assoc .., fun _ => rfl⟩

end

end BTool.Foundation
