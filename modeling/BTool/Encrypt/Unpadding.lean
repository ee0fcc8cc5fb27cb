import BTool.Encrypt.AesRoundTrip
import BTool.Encrypt.DesModes

/-! What `ClearDataPadding` makes of any bytes, and the callers of it that decrypt. -/

namespace BTool.Encrypt

open BTool.Foundation

variable {buff srcBuff plain : List UInt8} {padding pad : Padding}

/-- There is a last byte, and it is not larger than the length, if the padding is one that says how long it is. -/
def Unpads (buff : List UInt8) (padding : Padding) : Prop :=
  padding = .nonePadding ∨ padding = .zeroPadding ∨ ∃ last, buff.getLast? = some last ∧ last.toNat ≤ buff.length

/-- The length is read in the buffer, and is not larger than it. -/
def ClearsWithin (buff : List UInt8) (padding : Padding) : Prop :=
  ∃ length, EncryptBase.clearDataPadding buff padding = some length ∧ length ≤ buff.length

theorem clearsWithin_iff (buff : List UInt8) (padding : Padding) : ClearsWithin buff padding ↔ Unpads buff padding := by
  unfold ClearsWithin Unpads EncryptBase.clearDataPadding
  by_cases kept : padding = .nonePadding ∨ padding = .zeroPadding
  · rw [if_pos kept, ← or_assoc]
    exact iff_of_true ⟨_, rfl, Nat.le_refl _⟩ (.inl kept)
  rw [if_neg kept, ← or_assoc, or_iff_right kept]
  cases buff.getLast? with
  | none => exact iff_of_false nofun nofun
  | some last =>
    have small := last.toNat_lt
    simp only [Option.map_some, Option.some.injEq, exists_eq_left']
    split
    · rename_i fits
      exact iff_of_true (Nat.sub_le ..) fits
    · rename_i long
      exact iff_of_false (by omega) long

/-- What a caller makes of the length, which it does not check. -/
theorem clears_cases (buff : List UInt8) (padding : Padding) :
    (∃ length, EncryptBase.clearDataPadding buff padding = some length ∧ length ≤ buff.length ∧
        Unpads buff padding) ∨
    ((∀ length, EncryptBase.clearDataPadding buff padding = some length → buff.length < length) ∧
        ¬Unpads buff padding) := by
  by_cases within : ClearsWithin buff padding
  · obtain ⟨length, clears, fits⟩ := within
    exact .inl ⟨length, clears, fits, (clearsWithin_iff ..).mp ⟨length, clears, fits⟩⟩
  · refine .inr ⟨fun length clears => ?_, mt (clearsWithin_iff ..).mpr within⟩
    by_contra fits
    exact within ⟨length, clears, Nat.le_of_not_lt fits⟩

theorem AES.isSome_decryptFromHex_iff {Key : Type} {ssl : AES.OpenSsl Key} {key memory : List UInt8}
    {mode : AES.Mode} {bits : AES.AESBit} {iv : Option (List UInt8)}
    (done : AES.encryptAndDecrypt ssl key srcBuff memory mode bits iv false = .done plain) :
    (AES.decryptFromHex ssl key srcBuff memory mode pad bits iv).isSome ↔ Unpads plain pad := by
  rw [AES.decryptFromHex, done]
  dsimp only
  rcases clears_cases plain pad with ⟨length, clears, fits, unpads⟩ | ⟨outside, refused⟩
  · rw [clears]
    dsimp only
    rw [if_pos fits]
    exact iff_of_true rfl unpads
  · cases clears : EncryptBase.clearDataPadding plain pad with
    | none => exact iff_of_false Bool.false_ne_true refused
    | some length =>
      dsimp only
      rw [if_neg (Nat.not_le_of_lt (outside length clears))]
      exact iff_of_false Bool.false_ne_true refused

theorem Des.decryptWith_defined_iff {run : List UInt8 → List UInt8 → Des.Outcome} (pad : Padding)
    (done : run srcBuff (List.replicate srcBuff.length 0) = .done plain srcBuff.length)
    (filled : plain.length = srcBuff.length) :
    Des.decryptWith run srcBuff pad ≠ .undefined ↔ srcBuff = [] ∨ Unpads plain pad := by
  rw [Des.decryptWith]
  by_cases empty : srcBuff = []
  · rw [if_pos (List.length_eq_zero_iff.mpr empty)]
    exact iff_of_true nofun (.inl empty)
  have all : plain.take srcBuff.length = plain := List.take_of_length_le (Nat.le_of_eq filled)
  rw [if_neg (mt List.length_eq_zero_iff.mp empty), done, or_iff_right empty]
  dsimp only
  rw [all]
  rcases clears_cases plain pad with ⟨length, clears, fits, unpads⟩ | ⟨outside, refused⟩
  · rw [clears]
    dsimp only
    rw [if_pos fits]
    exact iff_of_true nofun unpads
  · cases clears : EncryptBase.clearDataPadding plain pad with
    | none => exact iff_of_false (fun defined => defined rfl) refused
    | some length =>
      dsimp only
      rw [if_neg (Nat.not_le_of_lt (outside length clears))]
      exact iff_of_false (fun defined => defined rfl) refused

section Callers

variable {AesKey DesKey : Type} {ssl : Des.OpenSsl DesKey} {key : List UInt8} {mode : Des.Mode}
  {iv : Option (List UInt8)}

theorem Des.decryptFromHex_defined_iff (documented : ssl.Documented) {outLen : Nat}
    (done : Des.desEncryptAndDecrypt ssl key srcBuff (List.replicate srcBuff.length 0) mode iv false =
      .done plain outLen) :
    Des.decryptFromHex ssl key srcBuff mode pad iv ≠ .undefined ↔ srcBuff = [] ∨ Unpads plain pad := by
  obtain ⟨rfl, filled⟩ := Des.length_of_guarded (Des.sized_des documented key false) List.length_replicate
    (Des.desEncryptAndDecrypt_eq.symm.trans done)
  exact Des.decryptWith_defined_iff pad done filled

theorem Des.tripleDesDecryptFromHex_defined_iff (documented : ssl.Documented) {outLen : Nat}
    (done : Des.tripleDesEncryptAndDecrypt ssl key srcBuff (List.replicate srcBuff.length 0) mode iv false =
      .done plain outLen) :
    Des.tripleDesDecryptFromHex ssl key srcBuff mode pad iv ≠ .undefined ↔ srcBuff = [] ∨ Unpads plain pad := by
  obtain ⟨rfl, filled⟩ := Des.length_of_guarded (Des.sized_triple documented key _ false) List.length_replicate
    (Des.tripleDesEncryptAndDecrypt_eq.symm.trans done)
  exact Des.decryptWith_defined_iff pad done filled

/-- `ClearDataPadding` stays in any buffer exactly if there is a last byte and it is not larger than the length, where
it is read; and so the text of a decryption is one in its buffer. -/
theorem unpadding_within_iff (aes : AES.OpenSsl AesKey) (documented : ssl.Documented) (buff : List UInt8)
    (padding : Padding) : (ClearsWithin buff padding ↔ Unpads buff padding) ∧
    (∀ key srcBuff memory mode bits iv, AES.encryptAndDecrypt aes key srcBuff memory mode bits iv false = .done buff →
      ((AES.decryptFromHex aes key srcBuff memory mode padding bits iv).isSome ↔ Unpads buff padding)) ∧
    (∀ key srcBuff mode iv outLen, Des.desEncryptAndDecrypt ssl key srcBuff (List.replicate srcBuff.length 0) mode iv
        false = .done buff outLen →
      (Des.decryptFromHex ssl key srcBuff mode padding iv ≠ .undefined ↔ srcBuff = [] ∨ Unpads buff padding)) ∧
    (∀ key srcBuff mode iv outLen, Des.tripleDesEncryptAndDecrypt ssl key srcBuff (List.replicate srcBuff.length 0)
        mode iv false = .done buff outLen →
      (Des.tripleDesDecryptFromHex ssl key srcBuff mode padding iv ≠ .undefined ↔
        srcBuff = [] ∨ Unpads buff padding)) :=
  ⟨clearsWithin_iff buff padding, fun _ _ _ _ _ _ done => AES.isSome_decryptFromHex_iff done,
    fun _ _ _ _ _ done => Des.decryptFromHex_defined_iff documented done,
    fun _ _ _ _ _ done => Des.tripleDesDecryptFromHex_defined_iff documented done⟩

/-- The block of padding that nothing is encrypted as. -/
theorem unpadding_within_iff_block :
    Des.desEncryptAndDecrypt Des.sampleSsl Des.sampleKey Des.sampleCipher (List.replicate 8 0) .ecb
        (some Des.sampleKey) false = .done Des.samplePlain 8 ∧
      Des.decryptFromHex Des.sampleSsl Des.sampleKey Des.sampleCipher .ecb .pkcs7Padding (some Des.sampleKey) ≠
        .undefined := by
  have done : Des.desEncryptAndDecrypt Des.sampleSsl Des.sampleKey Des.sampleCipher (List.replicate 8 0) .ecb
      (some Des.sampleKey) false = .done Des.samplePlain 8 := by decide
  obtain ⟨_, _, single, _⟩ :=
    unpadding_within_iff AES.sampleSsl Des.documented_sampleSsl Des.samplePlain .pkcs7Padding
  exact ⟨done, (single _ _ _ _ _ done).mpr (.inr (.inr (.inr ⟨8, rfl, by decide⟩)))⟩

/-- An empty buffer, and one with a 5 in it; and nothing, decrypted. -/
theorem not_unpadding_within : ¬ClearsWithin [] .pkcs7Padding ∧ ¬ClearsWithin [5] .pkcs7Padding ∧
    AES.decryptFromHex AES.sampleSsl AES.sampleKey [] [] .ecb .pkcs7Padding .aes128 none = none := by
  refine ⟨?_, ?_, by decide⟩
  · rintro ⟨_, clears, _⟩
    cases clears
  · rintro ⟨_, clears, fits⟩
    cases clears
    exact absurd fits (by decide)

end Callers

end BTool.Encrypt
