import BTool.Encrypt.DesRoundTrip
import BTool.Encrypt.Unpadding

/-! What the iv does in `ECB`, where it is not used: `Des` looks at it before it looks at the mode, and `AES` does
not. -/

namespace BTool.Encrypt

open BTool.Foundation

namespace AES

variable {Key : Type} {ssl : OpenSsl Key} {key srcBuff outBuff : List UInt8} {bits : AESBit}

theorem encryptAndDecrypt_ecb (first second : Option (List UInt8)) (enc : Bool) :
    encryptAndDecrypt ssl key srcBuff outBuff .ecb bits first enc =
      encryptAndDecrypt ssl key srcBuff outBuff .ecb bits second enc := by
  have same : checkLenValid key .ecb bits first = checkLenValid key .ecb bits second := rfl
  rw [encryptAndDecrypt, encryptAndDecrypt, same]

end AES

namespace Des

variable {functions : Functions} {valid : Prop} [Decidable valid] {data srcBuff : List UInt8} {pad : Padding}

/-- Both calls come to the same, and it is defined. -/
def SameResult (first second : Result) : Prop := first = second ∧ first ≠ .undefined

/-- Both ivs are there, and either the key is refused, or both have another length than a block, or both have that
of a block and what comes of it is defined, or what comes of it is as empty as what comes of another iv. -/
def Agree (valid defined blank : Prop) (first second : Option (List UInt8)) : Prop :=
  ∃ start other, first = some start ∧ second = some other ∧
    (¬valid ∨ (start.length ≠ blockSize ∧ other.length ≠ blockSize) ∨
      (start.length = blockSize ∧ other.length = blockSize ∧ defined) ∨ blank)

/-- A call of which the iv is checked and not used. -/
def checked (valid : Prop) [Decidable valid] (whole : Result) : Option (List UInt8) → Result
  | none => .undefined
  | some start => if start.length = blockSize ∧ valid then whole else .returned []

theorem sameResult_checked_iff (whole : Result) (first second : Option (List UInt8)) :
    SameResult (checked valid whole first) (checked valid whole second) ↔
      Agree valid (whole ≠ .undefined) (whole = .returned []) first second := by
  cases first with
  | none => exact iff_of_false (fun same => same.2 rfl) (by rintro ⟨_, _, ⟨⟩, _⟩)
  | some start =>
    cases second with
    | none => exact iff_of_false (fun same => same.2 same.1) (by rintro ⟨_, _, _, ⟨⟩, _⟩)
    | some other =>
      have both : Agree valid (whole ≠ .undefined) (whole = .returned []) (some start) (some other) ↔
          (¬valid ∨ (start.length ≠ blockSize ∧ other.length ≠ blockSize) ∨
            (start.length = blockSize ∧ other.length = blockSize ∧ whole ≠ .undefined) ∨ whole = .returned []) := by
        simp only [Agree, Option.some.injEq, exists_and_left, exists_eq_left']
      have blank (isBlank : whole = .returned []) : whole ≠ .undefined := by
        rw [isBlank]
        nofun
      rw [both, SameResult, checked, checked]
      by_cases accepted : valid
      swap
      · rw [if_neg fun both => accepted both.2, if_neg fun both => accepted both.2]
        exact iff_of_true ⟨rfl, nofun⟩ (.inl accepted)
      rw [or_iff_right (not_not.mpr accepted)]
      by_cases first : start.length = blockSize
      · rw [if_pos ⟨first, accepted⟩, or_iff_right fun others => others.1 first]
        by_cases second : other.length = blockSize
        · rw [if_pos ⟨second, accepted⟩, and_iff_right rfl]
          exact ⟨fun defined => .inl ⟨first, second, defined⟩, fun either => either.elim (·.2.2) blank⟩
        · rw [if_neg fun both => second both.1, or_iff_right fun both => second both.2.1]
          exact ⟨(·.1), fun isBlank => ⟨isBlank, blank isBlank⟩⟩
      · rw [if_neg fun both => first both.1]
        by_cases second : other.length = blockSize
        · rw [if_pos ⟨second, accepted⟩, or_iff_right fun others => others.2 second,
            or_iff_right fun both => first both.1]
          exact ⟨fun same => same.1.symm, fun isBlank => ⟨isBlank.symm, nofun⟩⟩
        · rw [if_neg fun both => second both.1]
          exact iff_of_true ⟨rfl, nofun⟩ (.inl ⟨first, second⟩)

section Calls

/-- The data with its padding. -/
abbrev padded (data : List UInt8) (pad : Padding) : List UInt8 :=
  EncryptBase.paddingData data pad (EncryptBase.getPaddingLen data.length pad blockSize)

/-- The text that is decrypted, with its padding. -/
def plainText (functions : Functions) (srcBuff : List UInt8) : List UInt8 :=
  BlockModes.ecb blockSize functions.ecb (srcBuff.length / blockSize) srcBuff

/-- Whole blocks are decrypted, with a padding that can be taken off. -/
def Decrypts (functions : Functions) (srcBuff : List UInt8) (pad : Padding) : Prop :=
  blockSize ∣ srcBuff.length ∧ Unpads (plainText functions srcBuff) pad

/-- Whole blocks are decrypted that are all padding. -/
def DecryptsPadding (functions : Functions) (srcBuff : List UInt8) (pad : Padding) : Prop :=
  blockSize ∣ srcBuff.length ∧ EncryptBase.clearDataPadding (plainText functions srcBuff) pad = some 0

/-- Whatever is made of the outcome, it is only an accepted iv that comes to the loop, and there it is not used. -/
theorem guarded_checked (caller : (List UInt8 → List UInt8 → Outcome) → Result)
    (undefined : caller (fun _ _ => .undefined) = .undefined)
    (failed : caller (fun _ _ => .failed) = .returned []) (iv : Option (List UInt8)) :
    caller (guarded valid functions .ecb iv) =
      checked valid (caller (crypt functions · · .ecb [])) iv := by
  cases iv with
  | none => exact undefined
  | some start =>
    by_cases accepted : start.length = blockSize ∧ valid
    · have run : guarded valid functions .ecb (some start) = (crypt functions · · .ecb []) :=
        funext fun _ => funext fun _ => if_pos accepted
      rw [run, checked, if_pos accepted]
    · have run : guarded valid functions .ecb (some start) = fun _ _ => .failed :=
        funext fun _ => funext fun _ => if_neg accepted
      rw [run, checked, if_neg accepted, failed]

/-- What comes of an accepted iv is defined for whole blocks, and is not empty. -/
theorem encryptWith_ecb (sized : BlockModes.Sized blockSize functions.ecb)
    (nonempty : (padded data pad).length ≠ 0) :
    (encryptWith (crypt functions · · .ecb []) data pad ≠ .undefined ↔
        blockSize ∣ (padded data pad).length) ∧
      encryptWith (crypt functions · · .ecb []) data pad ≠ .returned [] := by
  have done := crypt_ecb sized (List.length_replicate (n := (padded data pad).length) (a := (0 : UInt8))) []
  rw [encryptWith, if_neg nonempty, done]
  by_cases whole : blockSize ∣ (padded data pad).length
  · have long := BlockModes.length_ecb_of_dvd sized whole
    rw [if_pos whole]
    dsimp only
    rw [if_pos (Nat.le_of_eq long.symm), List.take_of_length_le (Nat.le_of_eq long)]
    refine ⟨iff_of_true (by simp) whole, fun nothing => nonempty ?_⟩
    rw [← long, Result.returned.inj nothing]
    rfl
  · rw [if_neg whole]
    exact ⟨iff_of_false (fun defined => defined rfl) whole, by simp⟩

/-- What comes of it is defined for whole blocks if the padding is, and is empty if it is all padding. -/
theorem decryptWith_ecb (sized : BlockModes.Sized blockSize functions.ecb) (nonempty : srcBuff.length ≠ 0) :
    (decryptWith (crypt functions · · .ecb []) srcBuff pad ≠ .undefined ↔ Decrypts functions srcBuff pad) ∧
    (decryptWith (crypt functions · · .ecb []) srcBuff pad = .returned [] ↔
      DecryptsPadding functions srcBuff pad) := by
  unfold Decrypts DecryptsPadding
  have done := crypt_ecb sized (List.length_replicate (n := srcBuff.length) (a := (0 : UInt8))) []
  by_cases whole : blockSize ∣ srcBuff.length
  · rw [if_pos whole] at done
    have long : (plainText functions srcBuff).length = srcBuff.length :=
      BlockModes.length_ecb_of_dvd sized whole
    have some : srcBuff ≠ [] := mt List.length_eq_zero_iff.mpr nonempty
    have positive : 0 < srcBuff.length := Nat.pos_of_ne_zero nonempty
    have defined : decryptWith (crypt functions · · .ecb []) srcBuff pad ≠ .undefined ↔
        Unpads (plainText functions srcBuff) pad :=
      (decryptWith_defined_iff pad done long).trans (or_iff_right some)
    have text {length : Nat} (clears : EncryptBase.clearDataPadding (plainText functions srcBuff) pad =
        Option.some length) (fits : length ≤ (plainText functions srcBuff).length) :
        decryptWith (crypt functions · · .ecb []) srcBuff pad =
          .returned ((plainText functions srcBuff).take length) := decryptWith_eq positive done long clears fits
    rw [and_iff_right whole, and_iff_right whole]
    refine ⟨defined, ?_⟩
    rcases clears_cases (plainText functions srcBuff) pad with ⟨length, clears, fits, _⟩ | ⟨outside, refused⟩
    · rw [text clears fits, clears, Result.returned.injEq, List.take_eq_nil_iff,
        Option.some.injEq, or_iff_left]
      exact fun nothing => nonempty (long ▸ congrArg List.length nothing)
    · rw [not_not.mp (mt defined.mp refused)]
      exact iff_of_false nofun fun clears => Nat.not_lt_zero _ (outside 0 clears)
  · rw [if_neg whole] at done
    have undefined : decryptWith (crypt functions · · .ecb []) srcBuff pad = .undefined := by
      rw [decryptWith, if_neg nonempty, done]
    rw [undefined]
    exact ⟨iff_of_false (fun defined => defined rfl) (fun both => whole both.1),
      iff_of_false nofun (fun both => whole both.1)⟩

/-- Nothing to encrypt. -/
theorem length_padded_eq_zero_iff (data : List UInt8) (pad : Padding) :
    (padded data pad).length = 0 ↔ data = [] ∧ (pad = .nonePadding ∨ pad = .zeroPadding) := by
  rw [padded, EncryptBase.length_paddingData_eq, Nat.add_eq_zero_iff, List.length_eq_zero_iff]
  refine and_congr_right ?_
  rintro rfl
  cases pad <;> decide

theorem sameResult_encrypt_iff (sized : BlockModes.Sized blockSize functions.ecb) (data : List UInt8) (pad : Padding)
    (first second : Option (List UInt8)) :
    SameResult (encryptWith (guarded valid functions .ecb first) data pad)
        (encryptWith (guarded valid functions .ecb second) data pad) ↔
      (data = [] ∧ (pad = .nonePadding ∨ pad = .zeroPadding)) ∨
        Agree valid (pad ≠ .nonePadding ∨ blockSize ∣ data.length) False first second := by
  rw [← length_padded_eq_zero_iff]
  by_cases empty : (padded data pad).length = 0
  · refine iff_of_true ?_ (.inl empty)
    rw [encryptWith, encryptWith, if_pos empty, if_pos empty]
    exact ⟨rfl, by simp⟩
  have call (iv : Option (List UInt8)) : encryptWith (guarded valid functions .ecb iv) data pad = _ :=
    guarded_checked (encryptWith · data pad) (if_neg empty) (if_neg empty) iv
  obtain ⟨defined, blank⟩ := encryptWith_ecb sized empty
  rw [or_iff_right empty, call, call, sameResult_checked_iff, propext defined, eq_false blank,
    propext (EncryptBase.dvd_length_paddingData_iff (by decide) data pad)]

theorem sameResult_decrypt_iff (sized : BlockModes.Sized blockSize functions.ecb) (srcBuff : List UInt8)
    (pad : Padding) (first second : Option (List UInt8)) :
    SameResult (decryptWith (guarded valid functions .ecb first) srcBuff pad)
        (decryptWith (guarded valid functions .ecb second) srcBuff pad) ↔
      srcBuff = [] ∨
        Agree valid (Decrypts functions srcBuff pad) (DecryptsPadding functions srcBuff pad) first second := by
  rw [← List.length_eq_zero_iff]
  by_cases empty : srcBuff.length = 0
  · refine iff_of_true ?_ (.inl empty)
    rw [decryptWith, decryptWith, if_pos empty, if_pos empty]
    exact ⟨rfl, by simp⟩
  have call (iv : Option (List UInt8)) : decryptWith (guarded valid functions .ecb iv) srcBuff pad = _ :=
    guarded_checked (decryptWith · srcBuff pad) (if_neg empty) (if_neg empty) iv
  obtain ⟨defined, blank⟩ := decryptWith_ecb sized empty
  rw [or_iff_right empty, call, call, sameResult_checked_iff, propext defined, propext blank]

end Calls

end Des

section AnyIvs

variable {AesKey DesKey : Type} {ssl : Des.OpenSsl DesKey}

open Des in
/-- In `ECB`, `AES` comes to the same for any two ivs. `Des` does if there is nothing to encrypt or to decrypt, where
it throws; or both ivs are there, and the key is refused, or neither iv has the length of a block, or both have and
what comes of them is defined, or it is as empty as what comes of another iv. -/
theorem ecb_same_result_iff (aes : AES.OpenSsl AesKey) (documented : ssl.Documented) (key : List UInt8)
    (pad : Padding) (first second : Option (List UInt8)) :
    (∀ data bits, AES.encryptToHex aes key data .ecb pad bits first = AES.encryptToHex aes key data .ecb pad bits second) ∧
    (∀ srcBuff memory bits, AES.decryptFromHex aes key srcBuff memory .ecb pad bits first =
      AES.decryptFromHex aes key srcBuff memory .ecb pad bits second) ∧
    (∀ data, SameResult (encryptToHex ssl key data .ecb pad first) (encryptToHex ssl key data .ecb pad second) ↔
      (data = [] ∧ (pad = .nonePadding ∨ pad = .zeroPadding)) ∨
        Agree (key.length = blockSize) (pad ≠ .nonePadding ∨ blockSize ∣ data.length) False first second) ∧
    (∀ data, SameResult (tripleDesEncryptToHex ssl key data .ecb pad first)
        (tripleDesEncryptToHex ssl key data .ecb pad second) ↔
      (data = [] ∧ (pad = .nonePadding ∨ pad = .zeroPadding)) ∨
        Agree (TripleKey key) (pad ≠ .nonePadding ∨ blockSize ∣ data.length) False first second) ∧
    (∀ srcBuff, SameResult (decryptFromHex ssl key srcBuff .ecb pad first)
        (decryptFromHex ssl key srcBuff .ecb pad second) ↔
      srcBuff = [] ∨ Agree (key.length = blockSize) (Decrypts (desFunctions ssl key false) srcBuff pad)
        (DecryptsPadding (desFunctions ssl key false) srcBuff pad) first second) ∧
    ∀ srcBuff, SameResult (tripleDesDecryptFromHex ssl key srcBuff .ecb pad first)
        (tripleDesDecryptFromHex ssl key srcBuff .ecb pad second) ↔
      srcBuff = [] ∨ Agree (TripleKey key)
        (Decrypts (tripleFunctions ssl key (key.length / blockSize) false) srcBuff pad)
        (DecryptsPadding (tripleFunctions ssl key (key.length / blockSize) false) srcBuff pad) first second := by
  refine ⟨fun data bits => ?_, fun srcBuff memory bits => ?_, fun data => ?_, fun data => ?_, fun srcBuff => ?_,
    fun srcBuff => ?_⟩
  · simp only [AES.encryptToHex, AES.encryptAndDecrypt_ecb first second]
  · simp only [AES.decryptFromHex, AES.encryptAndDecrypt_ecb first second]
  · simp only [encryptToHex, desEncryptAndDecrypt_eq]
    exact sameResult_encrypt_iff (sized_des documented key true) data pad first second
  · simp only [tripleDesEncryptToHex, tripleDesEncryptAndDecrypt_eq]
    exact sameResult_encrypt_iff (sized_triple documented key _ true) data pad first second
  · simp only [decryptFromHex, desEncryptAndDecrypt_eq]
    exact sameResult_decrypt_iff (sized_des documented key false) srcBuff pad first second
  · simp only [tripleDesDecryptFromHex, tripleDesEncryptAndDecrypt_eq]
    exact sameResult_decrypt_iff (sized_triple documented key _ false) srcBuff pad first second

/-- Two ivs of a block, with which nothing is encrypted to the same block of padding. -/
theorem ecb_same_result_iff_block :
    Des.SameResult (Des.encryptToHex Des.sampleSsl Des.sampleKey [] .ecb .pkcs7Padding (some Des.sampleKey))
      (Des.encryptToHex Des.sampleSsl Des.sampleKey [] .ecb .pkcs7Padding (some Des.sampleCipher)) := by
  obtain ⟨_, _, encrypts, _⟩ := ecb_same_result_iff AES.sampleSsl Des.documented_sampleSsl Des.sampleKey
    .pkcs7Padding (some Des.sampleKey) (some Des.sampleCipher)
  exact (encrypts []).mpr (.inr ⟨_, _, rfl, rfl, .inr (.inr (.inl ⟨rfl, rfl, .inl nofun⟩))⟩)

/-- No iv, which is the default, and ivs of eight bytes and of one. -/
theorem not_ecb_same_result :
    ¬Des.SameResult (Des.encryptToHex Des.sampleSsl Des.sampleKey [] .ecb .pkcs7Padding none)
      (Des.encryptToHex Des.sampleSsl Des.sampleKey [] .ecb .pkcs7Padding (some Des.sampleKey)) ∧
    ¬Des.SameResult (Des.tripleDesEncryptToHex Des.sampleSsl Des.sampleKey [] .ecb .pkcs7Padding (some [49]))
      (Des.tripleDesEncryptToHex Des.sampleSsl Des.sampleKey [] .ecb .pkcs7Padding (some Des.sampleKey)) := by
  refine ⟨fun same => absurd same.1 (by decide), fun same => absurd same.1 (by decide)⟩

end AnyIvs

end BTool.Encrypt
