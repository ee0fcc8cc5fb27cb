import BTool.Encrypt.DesModes

/-! What `Des` encrypts with a PKCS padding, decrypted again. -/

namespace BTool.Encrypt.Des

open BTool.Foundation

variable {Key : Type} {ssl : OpenSsl Key} {key start data text outBuff : List UInt8} {mode : Mode} {pad : Padding}
  {count : Nat} {functions encrypts decrypts : Functions} {encrypt decrypt : List UInt8 → List UInt8}

/-- What functions make of whole blocks. -/
def Functions.apply (functions : Functions) (mode : Mode) (count : Nat) (start text : List UInt8) : List UInt8 :=
  match mode with
  | .cbc => functions.cbc text start
  | .cfb => functions.cfb text start
  | .ecb => BlockModes.ecb blockSize functions.ecb count text

theorem store_whole {bytes : List UInt8} (same : bytes.length = outBuff.length) :
    store outBuff 0 bytes = some bytes := by
  have covers : Image.overwrite outBuff 0 bytes = bytes := by
    rw [Image.overwrite, List.take_zero, List.nil_append, Nat.zero_add, same, List.drop_length, List.append_nil]
  rw [store, if_pos (by omega), covers]

/-- Whole blocks that become as many bytes are within the buffers. -/
theorem crypt_eq (sized : BlockModes.Sized blockSize functions.ecb) (block : start.length = blockSize)
    (whole : text.length = blockSize * count) (filled : outBuff.length = text.length)
    (long : (functions.apply mode count start text).length = text.length) :
    crypt functions text outBuff mode start = .done (functions.apply mode count start text) text.length := by
  have stored := store_whole (long.trans filled.symm)
  have first : start.take blockSize = start := List.take_of_length_le (Nat.le_of_eq block)
  have rest : text.length % blockSize = 0 := by rw [whole, Nat.mul_mod_right]
  cases mode with
  | cbc =>
    have stored : store outBuff 0 (functions.cbc text start) = _ := stored
    rw [crypt, first, if_neg (not_not.mpr rest), stored]
  | cfb =>
    have stored : store outBuff 0 (functions.cfb text start) = _ := stored
    rw [crypt, first, stored]
  | ecb =>
    rw [crypt_ecb sized filled, if_pos ⟨count, whole⟩, whole, Nat.mul_div_cancel_left _ (by decide)]
    rfl

/-- What is encrypted has as many bytes. -/
theorem Paired.length_apply (paired : Paired encrypts decrypts encrypt decrypt) (block : start.length = blockSize)
    (whole : text.length = blockSize * count) : (encrypts.apply mode count start text).length = text.length := by
  cases mode with
  | cbc =>
    change (encrypts.cbc text start).length = _
    rw [paired.forward.cbc text start count whole block, if_pos rfl]
    exact (BlockModes.length_cbcEncrypt paired.sizedEncrypt block whole).trans whole.symm
  | cfb =>
    change (encrypts.cfb text start).length = _
    rw [paired.forward.cfb text start block, if_pos rfl]
    exact BlockModes.length_cfb8Encrypt encrypt start text
  | ecb => exact (BlockModes.length_ecb paired.sized.1 whole).trans whole.symm

/-- Decryption in the same mode gives the text back. -/
theorem Paired.apply_apply (paired : Paired encrypts decrypts encrypt decrypt) (block : start.length = blockSize)
    (whole : text.length = blockSize * count) :
    decrypts.apply mode count start (encrypts.apply mode count start text) = text := by
  have long : (encrypts.apply mode count start text).length = blockSize * count :=
    (paired.length_apply block whole).trans whole
  cases mode with
  | cbc =>
    change decrypts.cbc (encrypts.apply .cbc count start text) start = text
    rw [paired.back.cbc _ start count long block, if_neg Bool.false_ne_true]
    change BlockModes.cbcDecrypt blockSize decrypt count start (encrypts.cbc text start) = text
    rw [paired.forward.cbc text start count whole block, if_pos rfl]
    exact BlockModes.cbcDecrypt_cbcEncrypt paired.sizedEncrypt paired.inverse block whole
  | cfb =>
    change decrypts.cfb (encrypts.cfb text start) start = text
    rw [paired.back.cfb _ start block, if_neg Bool.false_ne_true, paired.forward.cfb text start block, if_pos rfl]
    exact BlockModes.cfb8Decrypt_cfb8Encrypt encrypt start text
  | ecb =>
    refine (BlockModes.ecb_congr paired.back.ecb long).trans ?_
    change BlockModes.ecb blockSize decrypt count (BlockModes.ecb blockSize encrypts.ecb count text) = text
    rw [BlockModes.ecb_congr paired.forward.ecb whole]
    exact BlockModes.ecb_ecb paired.sizedEncrypt paired.inverse whole

theorem encryptWith_eq {run : List UInt8 → List UInt8 → Outcome} {padded : List UInt8}
    (isPadded : EncryptBase.paddingData data pad (EncryptBase.getPaddingLen data.length pad blockSize) = padded)
    (nonempty : 0 < padded.length) (done : run padded (List.replicate padded.length 0) = .done text padded.length)
    (long : text.length = padded.length) : encryptWith run data pad = .returned text := by
  rw [encryptWith, isPadded, if_neg (Nat.ne_of_gt nonempty), done]
  dsimp only
  rw [if_pos (Nat.le_of_eq long.symm), ← long, List.take_length]

theorem decryptWith_eq {run : List UInt8 → List UInt8 → Outcome} {plain : List UInt8} {length : Nat}
    (nonempty : 0 < text.length) (done : run text (List.replicate text.length 0) = .done plain text.length)
    (long : plain.length = text.length) (clears : EncryptBase.clearDataPadding plain pad = some length)
    (within : length ≤ plain.length) : decryptWith run text pad = .returned (plain.take length) := by
  rw [decryptWith, if_neg (Nat.ne_of_gt nonempty), done]
  dsimp only
  rw [← long, List.take_length, clears]
  dsimp only
  rw [if_pos within]

/-- Two calls that are accepted, one after the other. -/
theorem Paired.round_trip (paired : Paired encrypts decrypts encrypt decrypt) {valid : Prop} [Decidable valid]
    (accepted : valid) (block : start.length = blockSize) (pkcs : pad = .pkcs5Padding ∨ pad = .pkcs7Padding)
    (data : List UInt8) (mode : Mode) :
    ∃ text, encryptWith (guarded valid encrypts mode (some start)) data pad = .returned text ∧
      decryptWith (guarded valid decrypts mode (some start)) text pad = .returned data := by
  have positive : 0 < blockSize := by decide
  have other : pad ≠ .nonePadding := by rcases pkcs with rfl | rfl <;> decide
  obtain ⟨count, whole⟩ := (EncryptBase.dvd_length_paddingData_iff positive data pad).mpr (.inl other)
  have nonempty := EncryptBase.length_paddingData_pos positive data pkcs
  have clears := EncryptBase.clearDataPadding_pkcs positive (by decide) data pkcs
  have front : (EncryptBase.paddingData data pad (EncryptBase.getPaddingLen data.length pad blockSize)).take
      data.length = data := List.take_left
  have fits : data.length ≤
      (EncryptBase.paddingData data pad (EncryptBase.getPaddingLen data.length pad blockSize)).length := by
    rw [EncryptBase.length_paddingData_eq]
    exact Nat.le_add_right ..
  generalize isPadded : EncryptBase.paddingData data pad (EncryptBase.getPaddingLen data.length pad blockSize) =
    padded at whole nonempty clears front fits
  have long : (encrypts.apply mode count start padded).length = padded.length := paired.length_apply block whole
  have back : decrypts.apply mode count start (encrypts.apply mode count start padded) = padded :=
    paired.apply_apply block whole
  have zeros (text : List UInt8) : (List.replicate text.length (0 : UInt8)).length = text.length :=
    List.length_replicate
  have made := crypt_eq paired.sized.1 block whole (zeros padded) long
  have restored := crypt_eq paired.sized.2 block (long.trans whole) (zeros _)
    ((congrArg List.length back).trans long.symm)
  rw [back] at restored
  have accepts {functions : Functions} {text outBuff : List UInt8} :
      guarded valid functions mode (some start) text outBuff = crypt functions text outBuff mode start :=
    if_pos ⟨block, accepted⟩
  refine ⟨_, encryptWith_eq isPadded nonempty (accepts.trans made) long, ?_⟩
  rw [← long] at nonempty
  have decrypted := decryptWith_eq nonempty (accepts.trans restored) long.symm clears fits
  rwa [front] at decrypted

/-- With a PKCS padding, an iv of a block and a key of the right length, what is encrypted comes back in every mode. -/
theorem des_round_trip (documented : ssl.Documented) (block : start.length = blockSize)
    (pkcs : pad = .pkcs5Padding ∨ pad = .pkcs7Padding) (key data : List UInt8) (mode : Mode) :
    (key.length = blockSize → ∃ text, encryptToHex ssl key data mode pad (some start) = .returned text ∧
      decryptFromHex ssl key text mode pad (some start) = .returned data) ∧
    (TripleKey key → ∃ text, tripleDesEncryptToHex ssl key data mode pad (some start) = .returned text ∧
      tripleDesDecryptFromHex ssl key text mode pad (some start) = .returned data) := by
  refine ⟨fun single => ?_, fun triple => ?_⟩
  · obtain ⟨_, _, paired⟩ := paired_des documented key
    simp only [encryptToHex, decryptFromHex, desEncryptAndDecrypt_eq]
    exact paired.round_trip single block pkcs data mode
  · obtain ⟨_, _, paired⟩ := paired_triple documented key (key.length / blockSize)
    simp only [tripleDesEncryptToHex, tripleDesDecryptFromHex, tripleDesEncryptAndDecrypt_eq]
    exact paired.round_trip triple block pkcs data mode

/-- Nothing, which is encrypted as a block of padding. -/
theorem des_round_trip_block :
    encryptToHex sampleSsl sampleKey [] .ecb .pkcs7Padding (some sampleKey) = .returned sampleCipher ∧
    tripleDesEncryptToHex sampleSsl sampleKey [] .ecb .pkcs7Padding (some sampleKey) = .returned sampleCipher ∧
    (∃ text, encryptToHex sampleSsl sampleKey [] .ecb .pkcs7Padding (some sampleKey) = .returned text ∧
      decryptFromHex sampleSsl sampleKey text .ecb .pkcs7Padding (some sampleKey) = .returned []) ∧
    ∃ text, tripleDesEncryptToHex sampleSsl sampleKey [] .ecb .pkcs7Padding (some sampleKey) = .returned text ∧
      tripleDesDecryptFromHex sampleSsl sampleKey text .ecb .pkcs7Padding (some sampleKey) = .returned [] := by
  have block : sampleKey.length = blockSize := rfl
  obtain ⟨single, triple⟩ := des_round_trip documented_sampleSsl block (.inr rfl) sampleKey [] .ecb
  exact ⟨by decide, by decide, single rfl, triple (.inl rfl)⟩

end BTool.Encrypt.Des
