import BTool.Encrypt.Des

/-! What the calls to `Des` come to, over what is documented of OpenSSL, and when the `ECB` loops stay within their
buffers. -/

namespace BTool.Encrypt.Des

open BTool.Foundation

variable {Key : Type} {ssl : OpenSsl Key} {key srcBuff outBuff : List UInt8} {mode : Mode} {enc : Bool}
  {iv : Option (List UInt8)} {functions : Functions}

/-- Encryption with the first key, decryption with the second and encryption with the third. -/
def OpenSsl.ede (ssl : OpenSsl Key) (ks1 ks2 ks3 : Key) (block : List UInt8) : List UInt8 :=
  ssl.encrypt ks3 (ssl.decrypt ks2 (ssl.encrypt ks1 block))

/-- The way back. -/
def OpenSsl.ded (ssl : OpenSsl Key) (ks1 ks2 ks3 : Key) (block : List UInt8) : List UInt8 :=
  ssl.decrypt ks1 (ssl.encrypt ks2 (ssl.decrypt ks3 block))

/-- What is documented of functions for the modes: that they use a block cipher in them. -/
structure Functions.Follow (functions : Functions) (enc : Bool) (encrypt decrypt : List UInt8 → List UInt8) :
    Prop where
  ecb : ∀ block, block.length = blockSize → functions.ecb block = if enc then encrypt block else decrypt block
  cbc : ∀ text iv count, text.length = blockSize * count → iv.length = blockSize → functions.cbc text iv =
    if enc then BlockModes.cbcEncrypt blockSize encrypt count iv text
    else BlockModes.cbcDecrypt blockSize decrypt count iv text
  cfb : ∀ text iv, iv.length = blockSize → functions.cfb text iv =
    if enc then BlockModes.cfb8Encrypt encrypt iv text else BlockModes.cfb8Decrypt encrypt iv text

/-- What is documented of OpenSSL: a block cipher and its inverse, and functions that use it, or three of it, in the
modes; the `CFB` ones for 8 bits at a time. -/
structure OpenSsl.Documented (ssl : OpenSsl Key) : Prop where
  encrypt : ∀ ks, BlockModes.Sized blockSize (ssl.encrypt ks)
  decrypt : ∀ ks, BlockModes.Sized blockSize (ssl.decrypt ks)
  decrypt_encrypt : ∀ ks block, block.length = blockSize → ssl.decrypt ks (ssl.encrypt ks block) = block
  encrypt_decrypt : ∀ ks block, block.length = blockSize → ssl.encrypt ks (ssl.decrypt ks block) = block
  single : ∀ ks enc, Functions.Follow
    ⟨(ssl.ecbEncrypt · ks enc), (ssl.cbcEncrypt · ks · enc), (ssl.cfbEncrypt · 8 ks · enc)⟩
    enc (ssl.encrypt ks) (ssl.decrypt ks)
  triple : ∀ ks1 ks2 ks3 enc, Functions.Follow
    ⟨(ssl.ecb3Encrypt · ks1 ks2 ks3 enc), (ssl.ede3CbcEncrypt · ks1 ks2 ks3 · enc),
      (ssl.ede3CfbEncrypt · 8 ks1 ks2 ks3 · enc)⟩
    enc (ssl.ede ks1 ks2 ks3) (ssl.ded ks1 ks2 ks3)

/-- A key for three keys, of which some may be the same. -/
def TripleKey (key : List UInt8) : Prop :=
  key.length = blockSize ∨ key.length = 2 * blockSize ∨ key.length = 3 * blockSize

instance : Decidable (TripleKey key) := inferInstanceAs (Decidable (_ ∨ _ ∨ _))

/-- A call with what it checks. -/
def guarded (valid : Prop) [Decidable valid] (functions : Functions) (mode : Mode) (iv : Option (List UInt8))
    (srcBuff outBuff : List UInt8) : Outcome :=
  match iv with
  | none => .undefined
  | some start =>
    if start.length = blockSize ∧ valid then crypt functions srcBuff outBuff mode start else .failed

theorem checkKey_some (key start : List UInt8) : checkKey key (some start) =
    some (if start.length = blockSize ∧ TripleKey key then key.length / blockSize else 0) := by
  rw [checkKey, Option.map_some]
  unfold TripleKey
  congr 1
  by_cases whole : start.length = blockSize
  · rw [if_neg (not_not.mpr whole)]
    simp only [whole, true_and, ne_eq, ← not_or, ite_not]
  · rw [if_pos whole, if_neg fun both => whole both.1]

theorem desEncryptAndDecrypt_eq : desEncryptAndDecrypt ssl key srcBuff outBuff mode iv enc =
    guarded (key.length = blockSize) (desFunctions ssl key enc) mode iv srcBuff outBuff := by
  cases iv with
  | none => rfl
  | some start =>
    have single : (if start.length = blockSize ∧ TripleKey key then key.length / blockSize else 0) = 1 ↔
        start.length = blockSize ∧ key.length = blockSize := by
      unfold TripleKey blockSize
      split <;> omega
    rw [desEncryptAndDecrypt, guarded, checkKey_some]
    simp only [ne_eq, single, ite_not, Option.getD_some]

theorem tripleDesEncryptAndDecrypt_eq : tripleDesEncryptAndDecrypt ssl key srcBuff outBuff mode iv enc =
    guarded (TripleKey key) (tripleFunctions ssl key (key.length / blockSize) enc) mode iv srcBuff outBuff := by
  cases iv with
  | none => rfl
  | some start =>
    rw [tripleDesEncryptAndDecrypt, guarded, checkKey_some]
    dsimp only [Option.getD_some]
    by_cases valid : start.length = blockSize ∧ TripleKey key
    · have some : key.length / blockSize ≠ 0 := by
        unfold TripleKey blockSize at valid
        unfold blockSize
        omega
      rw [if_pos valid, if_pos valid, if_neg some]
    · rw [if_neg valid, if_neg valid, if_pos rfl]

section Loop

variable {block : List UInt8 → List UInt8}

theorem store_eq_some_iff {after bytes : List UInt8} {offset : Nat} : store outBuff offset bytes = some after ↔
    offset + bytes.length ≤ outBuff.length ∧ Image.overwrite outBuff offset bytes = after := by
  rw [store, Option.ite_none_right_eq_some, Option.some.injEq]

theorem length_of_store {after bytes : List UInt8} {offset : Nat}
    (stored : store outBuff offset bytes = some after) : after.length = outBuff.length := by
  obtain ⟨fits, rfl⟩ := store_eq_some_iff.mp stored
  exact Image.length_overwrite fits

/-- Over whole blocks the loop goes block by block. -/
theorem ecbLoop_whole (sized : BlockModes.Sized blockSize block) (blockNum : Nat) {rounds i : Nat}
    (whole : srcBuff.length = blockSize * (i + rounds)) (filled : outBuff.length = srcBuff.length) :
    ecbLoop block srcBuff blockNum 0 rounds i outBuff =
      some (outBuff.take (i * blockSize) ++
        BlockModes.ecb blockSize block rounds (srcBuff.drop (i * blockSize))) := by
  induction rounds generalizing i outBuff with
  | zero =>
    have all : outBuff.take (i * blockSize) = outBuff := List.take_of_length_le (by rw [filled, whole]; lia)
    rw [ecbLoop, BlockModes.ecb, List.append_nil, all]
  | succ rounds ih =>
    have inside : i * blockSize + blockSize ≤ srcBuff.length := by
      rw [whole]
      unfold blockSize
      lia
    have size : (block (Image.piece srcBuff (i * blockSize) blockSize)).length = blockSize :=
      sized _ (Image.length_piece inside)
    have read : fetch srcBuff (i * blockSize) blockSize = some (Image.piece srcBuff (i * blockSize) blockSize) :=
      if_pos inside
    have stored : store outBuff (i * blockSize) (block (Image.piece srcBuff (i * blockSize) blockSize)) =
        some (Image.overwrite outBuff (i * blockSize) (block (Image.piece srcBuff (i * blockSize) blockSize))) :=
      if_pos (by rw [size, filled]; exact inside)
    rw [ecbLoop, if_pos (.inl rfl), read, Option.bind_eq_bind, Option.bind_some]
    dsimp only
    rw [stored, Option.bind_some, ih (by rw [whole]; lia) ((length_of_store stored).trans filled)]
    have front : (Image.overwrite outBuff (i * blockSize)
        (block (Image.piece srcBuff (i * blockSize) blockSize))).take ((i + 1) * blockSize) =
        outBuff.take (i * blockSize) ++ block (Image.piece srcBuff (i * blockSize) blockSize) := by
      refine List.take_left' ?_
      rw [List.length_append, List.length_take, size]
      lia
    rw [front, BlockModes.ecb, List.drop_drop, List.append_assoc, Nat.succ_mul]
    rfl

/-- A last block that is not whole is written behind the end. -/
theorem ecbLoop_part (sized : BlockModes.Sized blockSize block) {rounds i : Nat}
    (part : srcBuff.length % blockSize ≠ 0) (last : i + rounds = srcBuff.length / blockSize)
    (filled : outBuff.length = srcBuff.length) :
    ecbLoop block srcBuff (srcBuff.length / blockSize + 1) (srcBuff.length % blockSize) (rounds + 1) i outBuff =
      none := by
  induction rounds generalizing i outBuff with
  | zero =>
    have less := Nat.mod_lt srcBuff.length (show 0 < blockSize by decide)
    have split := Nat.div_add_mod srcBuff.length blockSize
    rw [Nat.add_zero] at last
    rw [ecbLoop, last, if_neg (by simp [part])]
    cases read : fetch srcBuff (srcBuff.length / blockSize * blockSize) (srcBuff.length % blockSize) with
    | none => rfl
    | some rest =>
      have restSize : rest.length = srcBuff.length % blockSize := by
        unfold fetch at read
        split at read
        · rename_i inside
          cases read
          exact Image.length_piece inside
        · cases read
      have size := sized (rest ++ List.replicate (blockSize - srcBuff.length % blockSize) 0) (by
        rw [List.length_append, List.length_replicate, restSize]
        omega)
      change (store outBuff _ (block _)).bind _ = none
      cases stored : store outBuff (srcBuff.length / blockSize * blockSize)
        (block (rest ++ List.replicate (blockSize - srcBuff.length % blockSize) 0)) with
      | none => rfl
      | some after =>
        have fits := (store_eq_some_iff.mp stored).1
        rw [size, Nat.mul_comm] at fits
        omega
  | succ rounds ih =>
    rw [ecbLoop, if_pos (.inr (by omega))]
    cases fetch srcBuff (i * blockSize) blockSize with
    | none => rfl
    | some tmpData =>
      change (store outBuff _ (block tmpData)).bind _ = none
      cases stored : store outBuff (i * blockSize) (block tmpData) with
      | none => rfl
      | some after => exact ih (by omega) ((length_of_store stored).trans filled)

/-- In `ECB` a text of whole blocks goes block by block, and another one behind the end. -/
theorem crypt_ecb (sized : BlockModes.Sized blockSize functions.ecb) (filled : outBuff.length = srcBuff.length)
    (start : List UInt8) : crypt functions srcBuff outBuff .ecb start =
      if blockSize ∣ srcBuff.length then
        .done (BlockModes.ecb blockSize functions.ecb (srcBuff.length / blockSize) srcBuff) srcBuff.length
      else .undefined := by
  rw [crypt]
  by_cases whole : srcBuff.length % blockSize = 0
  · have blocks : srcBuff.length = blockSize * (0 + srcBuff.length / blockSize) := by
      rw [Nat.zero_add, Nat.mul_div_cancel' (Nat.dvd_of_mod_eq_zero whole)]
    have loop := ecbLoop_whole sized (srcBuff.length / blockSize) blocks filled
    rw [Nat.zero_mul, List.take_zero, List.nil_append, List.drop_zero] at loop
    simp only [whole, ne_eq, not_true_eq_false, if_false, Nat.add_zero, loop,
      if_pos (Nat.dvd_of_mod_eq_zero whole)]
  · have loop := ecbLoop_part sized whole (Nat.zero_add _) filled
    rw [if_neg (mt Nat.mod_eq_zero_of_dvd whole)]
    simp only [ne_eq, whole, not_false_eq_true, if_true, loop]

/-- The output is as long as the text. -/
theorem length_of_crypt (sized : BlockModes.Sized blockSize functions.ecb)
    (filled : outBuff.length = srcBuff.length) {start plain : List UInt8} {outLen : Nat}
    (done : crypt functions srcBuff outBuff mode start = .done plain outLen) :
    outLen = srcBuff.length ∧ plain.length = srcBuff.length := by
  cases mode with
  | ecb =>
    rw [crypt_ecb sized filled] at done
    split at done
    · rename_i whole
      cases done
      exact ⟨rfl, BlockModes.length_ecb_of_dvd sized whole⟩
    · cases done
  | cbc =>
    rw [crypt] at done
    split at done
    · cases done
    · split at done
      · cases done
      · rename_i stored
        cases done
        exact ⟨rfl, (length_of_store stored).trans filled⟩
  | cfb =>
    rw [crypt] at done
    split at done
    · cases done
    · rename_i stored
      cases done
      exact ⟨rfl, (length_of_store stored).trans filled⟩

theorem length_of_guarded (sized : BlockModes.Sized blockSize functions.ecb)
    (filled : outBuff.length = srcBuff.length) {valid : Prop} [Decidable valid] {plain : List UInt8} {outLen : Nat}
    (done : guarded valid functions mode iv srcBuff outBuff = .done plain outLen) :
    outLen = srcBuff.length ∧ plain.length = srcBuff.length := by
  unfold guarded at done
  split at done
  · cases done
  · split at done
    · exact length_of_crypt sized filled done
    · cases done

end Loop

/-- Functions in both directions, over a block cipher and its inverse. -/
structure Paired (encrypts decrypts : Functions) (encrypt decrypt : List UInt8 → List UInt8) : Prop where
  sizedEncrypt : BlockModes.Sized blockSize encrypt
  sizedDecrypt : BlockModes.Sized blockSize decrypt
  inverse : ∀ block, block.length = blockSize → decrypt (encrypt block) = block
  forward : encrypts.Follow true encrypt decrypt
  back : decrypts.Follow false encrypt decrypt

theorem paired_des (documented : ssl.Documented) (key : List UInt8) : ∃ encrypt decrypt,
    Paired (desFunctions ssl key true) (desFunctions ssl key false) encrypt decrypt :=
  ⟨_, _, documented.encrypt _, documented.decrypt _, documented.decrypt_encrypt _, documented.single _ true,
    documented.single _ false⟩

/-- Three times there and back. -/
theorem paired_triple (documented : ssl.Documented) (key : List UInt8) (keyNum : Nat) : ∃ encrypt decrypt,
    Paired (tripleFunctions ssl key keyNum true) (tripleFunctions ssl key keyNum false) encrypt decrypt := by
  refine ⟨_, _, fun block whole => ?_, fun block whole => ?_, fun block whole => ?_, documented.triple _ _ _ true,
    documented.triple _ _ _ false⟩
  · exact documented.encrypt _ _ (documented.decrypt _ _ (documented.encrypt _ _ whole))
  · exact documented.decrypt _ _ (documented.encrypt _ _ (documented.decrypt _ _ whole))
  · rw [OpenSsl.ded, OpenSsl.ede, documented.decrypt_encrypt _ _ (documented.decrypt _ _ (documented.encrypt _ _ whole)),
      documented.encrypt_decrypt _ _ (documented.encrypt _ _ whole), documented.decrypt_encrypt _ _ whole]

theorem Paired.sized {encrypts decrypts : Functions} {encrypt decrypt : List UInt8 → List UInt8}
    (paired : Paired encrypts decrypts encrypt decrypt) :
    BlockModes.Sized blockSize encrypts.ecb ∧ BlockModes.Sized blockSize decrypts.ecb := by
  refine ⟨fun block whole => ?_, fun block whole => ?_⟩
  · rw [paired.forward.ecb block whole]
    exact paired.sizedEncrypt block whole
  · rw [paired.back.ecb block whole]
    exact paired.sizedDecrypt block whole

theorem sized_des (documented : ssl.Documented) (key : List UInt8) (enc : Bool) :
    BlockModes.Sized blockSize (desFunctions ssl key enc).ecb := by
  obtain ⟨_, _, paired⟩ := paired_des documented key
  cases enc with
  | true => exact paired.sized.1
  | false => exact paired.sized.2

theorem sized_triple (documented : ssl.Documented) (key : List UInt8) (keyNum : Nat) (enc : Bool) :
    BlockModes.Sized blockSize (tripleFunctions ssl key keyNum enc).ecb := by
  obtain ⟨_, _, paired⟩ := paired_triple documented key keyNum
  cases enc with
  | true => exact paired.sized.1
  | false => exact paired.sized.2

section Sample

/-- The padding of nothing. -/
def samplePlain : List UInt8 := List.replicate 8 8

/-- `12345678`. -/
def sampleKey : List UInt8 := [49, 50, 51, 52, 53, 54, 55, 56]

/-- What DES makes of it with this key. -/
def sampleCipher : List UInt8 := [254, 185, 89, 183, 212, 100, 47, 203]

/-- The cipher at this block, and back; all others it leaves as they are. -/
def sampleBlock (block : List UInt8) : List UInt8 :=
  if block = samplePlain then sampleCipher else if block = sampleCipher then samplePlain else block

def sampleFunctions (enc : Bool) : Functions where
  ecb := sampleBlock
  cbc text iv :=
    if enc then BlockModes.cbcEncrypt blockSize sampleBlock (text.length / blockSize) iv text
    else BlockModes.cbcDecrypt blockSize sampleBlock (text.length / blockSize) iv text
  cfb text iv :=
    if enc then BlockModes.cfb8Encrypt sampleBlock iv text else BlockModes.cfb8Decrypt sampleBlock iv text

/-- The cipher comes to itself when it is used three times. -/
def sampleSsl : OpenSsl Unit where
  setKeyUnchecked _ := ()
  encrypt _ := sampleBlock
  decrypt _ := sampleBlock
  ecbEncrypt block _ enc := (sampleFunctions enc).ecb block
  cbcEncrypt text _ iv enc := (sampleFunctions enc).cbc text iv
  cfbEncrypt text _ _ iv enc := (sampleFunctions enc).cfb text iv
  ecb3Encrypt block _ _ _ enc := (sampleFunctions enc).ecb block
  ede3CbcEncrypt text _ _ _ iv enc := (sampleFunctions enc).cbc text iv
  ede3CfbEncrypt text _ _ _ _ iv enc := (sampleFunctions enc).cfb text iv

theorem length_sampleBlock : BlockModes.Sized blockSize sampleBlock := by
  intro block whole
  unfold sampleBlock
  split
  · rfl
  · split
    · rfl
    · exact whole

theorem sampleBlock_sampleBlock (block : List UInt8) : sampleBlock (sampleBlock block) = block := by
  unfold sampleBlock
  by_cases plain : block = samplePlain
  · rw [if_pos plain, if_neg (by decide), if_pos rfl, plain]
  · rw [if_neg plain]
    by_cases cipher : block = sampleCipher
    · rw [if_pos cipher, if_pos rfl, cipher]
    · rw [if_neg cipher, if_neg plain, if_neg cipher]

theorem follow_sample (enc : Bool) : (sampleFunctions enc).Follow enc sampleBlock sampleBlock := by
  refine ⟨fun block _ => (ite_self _).symm, fun text iv count sized _ => ?_, fun _ _ _ => rfl⟩
  have blocks : text.length / blockSize = count := by rw [sized, Nat.mul_div_cancel_left _ (by decide)]
  rw [← blocks]
  rfl

theorem documented_sampleSsl : sampleSsl.Documented := by
  have three : (fun block => sampleBlock (sampleBlock (sampleBlock block))) = sampleBlock :=
    funext fun block => sampleBlock_sampleBlock (sampleBlock block)
  refine ⟨fun _ => length_sampleBlock, fun _ => length_sampleBlock, fun _ block _ => sampleBlock_sampleBlock block,
    fun _ block _ => sampleBlock_sampleBlock block, fun _ enc => follow_sample enc, fun _ _ _ enc => ?_⟩
  change (sampleFunctions enc).Follow enc (fun block => sampleBlock (sampleBlock (sampleBlock block)))
    (fun block => sampleBlock (sampleBlock (sampleBlock block)))
  rw [three]
  exact follow_sample enc

end Sample

/-- Nothing out of the buffers is accessed, and `out_len` is not larger than `out_buff`. -/
def InBounds (outBuff : List UInt8) : Outcome → Prop
  | .undefined => False
  | .failed => True
  | .done _ outLen => outLen ≤ outBuff.length

theorem inBounds_guarded_iff (sized : BlockModes.Sized blockSize functions.ecb)
    (allocated : outBuff.length = srcBuff.length) (valid : Prop) [Decidable valid] :
    InBounds outBuff (guarded valid functions .ecb iv srcBuff outBuff) ↔
      ∃ start, iv = some start ∧ (start.length ≠ blockSize ∨ ¬valid ∨ blockSize ∣ srcBuff.length) := by
  cases iv with
  | none => exact iff_of_false id nofun
  | some start =>
    rw [guarded]
    simp only [Option.some.injEq, exists_eq_left']
    by_cases accepts : start.length = blockSize ∧ valid
    swap
    · rw [if_neg accepts]
      refine iff_of_true trivial ?_
      rcases not_and_or.mp accepts with other | refused
      · exact .inl other
      · exact .inr (.inl refused)
    rw [if_pos accepts, crypt_ecb sized allocated]
    by_cases whole : blockSize ∣ srcBuff.length
    · rw [if_pos whole]
      exact iff_of_true (Nat.le_of_eq allocated.symm) (.inr (.inr whole))
    · rw [if_neg whole]
      exact iff_of_false id (by simp [accepts, whole])

/-- The loops over blocks stay within the buffers exactly if there is an iv, and the key or the iv is refused or the
text is one of whole blocks; which the padding makes it, except if there is none. -/
theorem ecb_in_bounds_iff (documented : ssl.Documented) (allocated : outBuff.length = srcBuff.length)
    (key : List UInt8) (iv : Option (List UInt8)) (enc : Bool) :
    (InBounds outBuff (desEncryptAndDecrypt ssl key srcBuff outBuff .ecb iv enc) ↔ ∃ start, iv = some start ∧
      (start.length ≠ blockSize ∨ key.length ≠ blockSize ∨ blockSize ∣ srcBuff.length)) ∧
    (InBounds outBuff (tripleDesEncryptAndDecrypt ssl key srcBuff outBuff .ecb iv enc) ↔ ∃ start, iv = some start ∧
      (start.length ≠ blockSize ∨ ¬TripleKey key ∨ blockSize ∣ srcBuff.length)) ∧
    ∀ (data : List UInt8) (pad : Padding), blockSize ∣ (EncryptBase.paddingData data pad
        (EncryptBase.getPaddingLen data.length pad blockSize)).length ↔
      pad ≠ .nonePadding ∨ blockSize ∣ data.length := by
  refine ⟨?_, ?_, EncryptBase.dvd_length_paddingData_iff (by decide)⟩
  · rw [desEncryptAndDecrypt_eq]
    exact inBounds_guarded_iff (sized_des documented key enc) allocated _
  · rw [tripleDesEncryptAndDecrypt_eq]
    exact inBounds_guarded_iff (sized_triple documented key _ enc) allocated _

/-- A block. -/
theorem ecb_in_bounds_iff_block :
    InBounds (List.replicate 8 0) (desEncryptAndDecrypt sampleSsl sampleKey samplePlain (List.replicate 8 0) .ecb
      (some sampleKey) true) ∧
    InBounds (List.replicate 8 0) (tripleDesEncryptAndDecrypt sampleSsl sampleKey samplePlain (List.replicate 8 0)
      .ecb (some sampleKey) true) := by
  have allocated : (List.replicate 8 (0 : UInt8)).length = samplePlain.length := rfl
  obtain ⟨single, triple, _⟩ :=
    ecb_in_bounds_iff documented_sampleSsl allocated sampleKey (some sampleKey) true
  exact ⟨single.mpr ⟨_, rfl, by decide⟩, triple.mpr ⟨_, rfl, by decide⟩⟩

/-- A byte, without padding; and a block without an iv. -/
theorem not_ecb_in_bounds :
    ¬InBounds [0] (desEncryptAndDecrypt sampleSsl sampleKey [7] [0] .ecb (some sampleKey) true) ∧
    ¬InBounds [0] (tripleDesEncryptAndDecrypt sampleSsl sampleKey [7] [0] .ecb (some sampleKey) true) ∧
    ¬InBounds (List.replicate 8 0) (desEncryptAndDecrypt sampleSsl sampleKey samplePlain (List.replicate 8 0) .ecb
      none true) := by
  have single : desEncryptAndDecrypt sampleSsl sampleKey [7] [0] .ecb (some sampleKey) true = .undefined := by
    decide
  have triple : tripleDesEncryptAndDecrypt sampleSsl sampleKey [7] [0] .ecb (some sampleKey) true = .undefined := by
    decide
  rw [single, triple]
  exact ⟨id, id, id⟩

end BTool.Encrypt.Des
