import Mathlib.Algebra.Group.Nat.Defs
import Mathlib.Data.List.Basic

/-! The padding of `EncryptBase`. -/

namespace BTool.Encrypt

inductive Padding where
  | nonePadding
  | zeroPadding
  | pkcs5Padding
  | pkcs7Padding
deriving DecidableEq

namespace EncryptBase

def getPaddingLen (srcLen : Nat) (padding : Padding) (blocksize : Nat) : Nat :=
  let paddingLen := blocksize - srcLen % blocksize
  if padding = .nonePadding ∨ (padding = .zeroPadding ∧ paddingLen = blocksize) then 0 else paddingLen

/-- What is written to the buffer: the data, and `padding_len` times the character behind it. -/
def paddingData (srcBuff : List UInt8) (padding : Padding) (paddingLen : Nat) : List UInt8 :=
  srcBuff ++ List.replicate paddingLen (if padding = .zeroPadding then 0 else UInt8.ofNat paddingLen)

/-- The length without the padding, a difference of 64 bits. With nothing in the buffer the last byte of it
would be read in front of it. -/
def clearDataPadding (srcBuff : List UInt8) (padding : Padding) : Option Nat :=
  if padding = .nonePadding ∨ padding = .zeroPadding then some srcBuff.length
  else srcBuff.getLast?.map fun (last : UInt8) =>
    if last.toNat ≤ srcBuff.length then srcBuff.length - last.toNat
    else 2 ^ 64 + srcBuff.length - last.toNat

section Pkcs

variable {data : List UInt8} {blocksize : Nat}

/-- As many bytes as are missing to whole blocks, or a block more. -/
theorem length_paddingData (small : 0 < blocksize) : (paddingData data .pkcs7Padding
    (getPaddingLen data.length .pkcs7Padding blocksize)).length = blocksize * (data.length / blocksize + 1) := by
  have split := Nat.div_add_mod data.length blocksize
  have less := Nat.mod_lt data.length small
  rw [paddingData, List.length_append, List.length_replicate, Nat.mul_succ]
  change data.length + (blocksize - data.length % blocksize) = _
  omega

theorem getPaddingLen_bounds (small : 0 < blocksize) (data : List UInt8) :
    0 < getPaddingLen data.length .pkcs7Padding blocksize ∧
      getPaddingLen data.length .pkcs7Padding blocksize ≤ blocksize := by
  have less := Nat.mod_lt data.length small
  change 0 < blocksize - data.length % blocksize ∧ blocksize - data.length % blocksize ≤ blocksize
  omega

/-- The last byte is the length of the padding. -/
theorem getLast?_paddingData {padding : Padding} {paddingLen : Nat} (other : padding ≠ .zeroPadding)
    (some : 0 < paddingLen) (data : List UInt8) :
    (paddingData data padding paddingLen).getLast? = Option.some (UInt8.ofNat paddingLen) := by
  rw [paddingData, if_neg other, List.getLast?_append, List.getLast?_replicate, if_neg (by omega)]
  rfl

theorem toNat_paddingLen {paddingLen : Nat} (fits : blocksize ≤ 255) (within : paddingLen ≤ blocksize) :
    (UInt8.ofNat paddingLen).toNat = paddingLen :=
  UInt8.toNat_ofNat_of_lt' (Nat.lt_of_le_of_lt (Nat.le_trans within fits) (by decide))

end Pkcs

section Lengths

variable {data : List UInt8} {padding : Padding} {blocksize : Nat}

theorem length_paddingData_eq (data : List UInt8) (padding : Padding) (paddingLen : Nat) :
    (paddingData data padding paddingLen).length = data.length + paddingLen := by
  rw [paddingData, List.length_append, List.length_replicate]

/-- A padding makes whole blocks. -/
theorem dvd_length_paddingData_iff (small : 0 < blocksize) (data : List UInt8) (padding : Padding) :
    blocksize ∣ (paddingData data padding (getPaddingLen data.length padding blocksize)).length ↔
      padding ≠ .nonePadding ∨ blocksize ∣ data.length := by
  have split := Nat.div_add_mod data.length blocksize
  have less := Nat.mod_lt data.length small
  rw [length_paddingData_eq, getPaddingLen]
  by_cases none : padding = .nonePadding
  · rw [if_pos (.inl none), Nat.add_zero]
    simp [none]
  · by_cases whole : data.length % blocksize = 0
    · have divides := Nat.dvd_of_mod_eq_zero whole
      refine iff_of_true ?_ (.inl none)
      split
      · rwa [Nat.add_zero]
      · rw [whole, Nat.sub_zero]
        exact Nat.dvd_add divides (Nat.dvd_refl _)
    · rw [if_neg (by simp only [none, false_or]; omega)]
      refine iff_of_true ⟨data.length / blocksize + 1, ?_⟩ (.inl none)
      rw [Nat.mul_succ]
      omega

/-- Both `PKCS` paddings are the same. -/
theorem getPaddingLen_pkcs (srcLen blocksize : Nat) (pkcs : padding = .pkcs5Padding ∨ padding = .pkcs7Padding) :
    getPaddingLen srcLen padding blocksize = getPaddingLen srcLen .pkcs7Padding blocksize := by
  rcases pkcs with rfl | rfl <;> rfl

theorem length_paddingData_pos (small : 0 < blocksize) (data : List UInt8)
    (pkcs : padding = .pkcs5Padding ∨ padding = .pkcs7Padding) :
    0 < (paddingData data padding (getPaddingLen data.length padding blocksize)).length := by
  obtain ⟨some, _⟩ := getPaddingLen_bounds small data
  rw [length_paddingData_eq, getPaddingLen_pkcs _ _ pkcs]
  omega

/-- The length that is written in the last byte of a `PKCS` padding. -/
theorem clearDataPadding_pkcs (small : 0 < blocksize) (fits : blocksize ≤ 255) (data : List UInt8)
    (pkcs : padding = .pkcs5Padding ∨ padding = .pkcs7Padding) :
    clearDataPadding (paddingData data padding (getPaddingLen data.length padding blocksize)) padding =
      some data.length := by
  obtain ⟨some, within⟩ := getPaddingLen_bounds small data
  rw [getPaddingLen_pkcs _ _ pkcs]
  generalize getPaddingLen data.length .pkcs7Padding blocksize = paddingLen at some within
  have other : ¬ (padding = .nonePadding ∨ padding = .zeroPadding) := by
    rcases pkcs with rfl | rfl <;> decide
  rw [clearDataPadding, if_neg other, getLast?_paddingData (fun zero => other (.inr zero)) some,
    Option.map_some, toNat_paddingLen fits within, length_paddingData_eq, if_pos (Nat.le_add_left ..),
    Nat.add_sub_cancel]

/-- `ClearDataPadding` leaves zeros where they are. -/
theorem clearDataPadding_zero (buff : List UInt8) : clearDataPadding buff .zeroPadding = some buff.length := rfl

theorem getPaddingLen_zero_iff (small : 0 < blocksize) (srcLen : Nat) :
    getPaddingLen srcLen .zeroPadding blocksize = 0 ↔ blocksize ∣ srcLen := by
  have less := Nat.mod_lt srcLen small
  rw [getPaddingLen, Nat.dvd_iff_mod_eq_zero]
  split
  · rename_i whole
    simp only [reduceCtorEq, true_and, false_or] at whole
    omega
  · rename_i part
    simp only [reduceCtorEq, true_and, false_or] at part
    omega

/-- The length without the padding is that of the data, except that zeros are not taken off. -/
theorem padding_round_trip (small : 0 < blocksize) (fits : blocksize ≤ 255) (data : List UInt8) :
    (∀ padding, padding ≠ .zeroPadding →
      clearDataPadding (paddingData data padding (getPaddingLen data.length padding blocksize)) padding =
        some data.length) ∧
    clearDataPadding (paddingData data .zeroPadding (getPaddingLen data.length .zeroPadding blocksize))
        .zeroPadding = some (data.length + getPaddingLen data.length .zeroPadding blocksize) ∧
    (getPaddingLen data.length .zeroPadding blocksize = 0 ↔ blocksize ∣ data.length) := by
  refine ⟨fun padding other => ?_, ?_, getPaddingLen_zero_iff small _⟩
  · cases padding with
    | nonePadding => exact congrArg some (length_paddingData_eq ..)
    | zeroPadding => exact absurd rfl other
    | pkcs5Padding => exact clearDataPadding_pkcs small fits data (.inl rfl)
    | pkcs7Padding => exact clearDataPadding_pkcs small fits data (.inr rfl)
  · rw [clearDataPadding_zero, length_paddingData_eq]

/-- Two bytes that look like a padding, in a block of eight. -/
theorem padding_round_trip_block : clearDataPadding (paddingData [2, 2] .pkcs7Padding
      (getPaddingLen 2 .pkcs7Padding 8)) .pkcs7Padding = some 2 ∧
    clearDataPadding (paddingData [2, 2] .zeroPadding (getPaddingLen 2 .zeroPadding 8)) .zeroPadding = some 8 := by
  have small : 0 < 8 := by decide
  obtain ⟨others, zeros, _⟩ := padding_round_trip small (by decide) [2, 2]
  exact ⟨others .pkcs7Padding nofun, zeros⟩

/-- A byte and seven zeros. -/
theorem not_padding_round_trip :
    clearDataPadding (paddingData [7] .zeroPadding (getPaddingLen 1 .zeroPadding 8)) .zeroPadding ≠ some 1 := by
  decide

end Lengths

end EncryptBase

end BTool.Encrypt
