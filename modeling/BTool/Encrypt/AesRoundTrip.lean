import BTool.Encrypt.Aes

/-! What `AES` encrypts with a PKCS7 padding, decrypted again.

The decryption schedule is the right one for `ECB` and `CBC`. `CFB` and `OFB` use `AES_encrypt` in both
directions, so with it they mix the text with another stream; and `CTR` leaves the output as it is. -/

namespace BTool.Encrypt.AES

open BTool.Foundation

variable {Key : Type} {ssl : OpenSsl Key} {key data : List UInt8} {mode : Mode} {bits : AESBit}
  {iv : Option (List UInt8)}

/-- The data with its padding, which is what is encrypted. -/
def padded (data : List UInt8) : List UInt8 :=
  EncryptBase.paddingData data .pkcs7Padding (EncryptBase.getPaddingLen data.length .pkcs7Padding blockSize)

/-- How many blocks it takes. -/
def blockCount (data : List UInt8) : Nat := data.length / blockSize + 1

/-- The call comes to the mode: the key is long enough for a size of AES, there is an iv where one is needed,
and the modes that are for 128 bits only have these. -/
def Accepts (key : List UInt8) (mode : Mode) (bits : AESBit) (iv : Option (List UInt8)) : Prop :=
  bits ≠ .aesNull ∧ checkLen key.length bits = true ∧ (mode = .ecb ∨ iv.isSome) ∧
    (mode = .ecb ∨ mode = .cbc ∨ bits = .aes128)

/-- Whatever is encrypted comes back, whatever the memory for it has in it. -/
def RoundTrips (ssl : OpenSsl Key) (key data : List UInt8) (mode : Mode) (bits : AESBit)
    (iv : Option (List UInt8)) : Prop :=
  ∀ text, encryptToHex ssl key data mode .pkcs7Padding bits iv = some text → text ≠ [] →
    ∀ memory, memory.length = text.length →
      decryptFromHex ssl key text memory mode .pkcs7Padding bits iv = some data

/-- The same bytes where the data is and at the end, which is where the padding is read. -/
def SameBytes (data first second : List UInt8) : Prop :=
  ∀ position, position < data.length ∨ position + 1 = (padded data).length → first[position]? = second[position]?

/-- `AES_encrypt` gives the same stream with both schedules. -/
def SameStream (ssl : OpenSsl Key) (key data : List UInt8) (bits : AESBit) (iv : Option (List UInt8))
    (stream : (List UInt8 → List UInt8) → (List UInt8 → List UInt8) → List UInt8 → List UInt8) : Prop :=
  ∀ encryptKey decryptKey start, setKey ssl key bits true = some encryptKey →
    setKey ssl key bits false = some decryptKey → iv = some start →
    SameBytes data (stream (ssl.encrypt encryptKey) (ssl.encrypt encryptKey) start)
      (stream (ssl.encrypt encryptKey) (ssl.encrypt decryptKey) start)

/-- What the mode needs of the schedules to get the data back. -/
def Reversible (ssl : OpenSsl Key) (key data : List UInt8) (mode : Mode) (bits : AESBit)
    (iv : Option (List UInt8)) : Prop :=
  match mode with
  | .ecb | .cbc => True
  | .cfb => SameStream ssl key data bits iv fun encrypt crypt start =>
      BlockModes.cfbStream blockSize crypt (blockCount data) start
        (BlockModes.cfbEncrypt blockSize encrypt (blockCount data) start (padded data))
  | .ofb => SameStream ssl key data bits iv fun _ crypt start =>
      BlockModes.ofbStream crypt (blockCount data) start
  | .ctr => False

theorem length_padded : (padded data).length = blockSize * blockCount data :=
  EncryptBase.length_paddingData (by decide)

theorem length_padded_pos (data : List UInt8) : 0 < (padded data).length := by
  rw [length_padded]
  exact Nat.mul_pos (by decide) (Nat.succ_pos _)

theorem encryptToHex_padded : encryptToHex ssl key data mode .pkcs7Padding bits iv =
    match encryptAndDecrypt ssl key (padded data) (List.replicate (padded data).length 0) mode bits iv true with
    | .undefined => none
    | .failed => some []
    | .done outBuff => some outBuff :=
  if_neg (Nat.ne_of_gt (length_padded_pos data))

theorem getElem?_padded {position : Nat} (inside : position < data.length) :
    (padded data)[position]? = data[position]? := List.getElem?_append_left inside

/-- The last byte is the length of the padding. -/
theorem getLast?_padded (data : List UInt8) : ∃ last : UInt8, (padded data).getLast? = some last ∧
    last.toNat + data.length = (padded data).length := by
  obtain ⟨some, small⟩ := EncryptBase.getPaddingLen_bounds (show 0 < blockSize by decide) data
  refine ⟨_, EncryptBase.getLast?_paddingData (by decide) some data, ?_⟩
  rw [EncryptBase.toNat_paddingLen (by decide) small, padded, EncryptBase.length_paddingData_eq, Nat.add_comm]

/-- What `DecryptFromHex` makes of the output. -/
def unpad (outBuff : List UInt8) : Option (List UInt8) :=
  match EncryptBase.clearDataPadding outBuff .pkcs7Padding with
  | none => none
  | some outLen => if outLen ≤ outBuff.length then some (outBuff.take outLen) else none

/-- The data is what comes back exactly if the output is that of the data and of the last byte. -/
theorem unpad_eq_some_iff {outBuff : List UInt8} (same : outBuff.length = (padded data).length) :
    unpad outBuff = some data ↔ SameBytes data outBuff (padded data) := by
  obtain ⟨pad, isPad, split⟩ := getLast?_padded data
  have some : 0 < outBuff.length := same ▸ length_padded_pos data
  obtain ⟨last, isLast⟩ : ∃ last, outBuff.getLast? = Option.some last :=
    ⟨_, List.getLast?_eq_some_getLast (List.length_pos_iff.mp some)⟩
  have atEnd (bytes : List UInt8) (long : bytes.length = (padded data).length) (position : Nat)
      (isEnd : position + 1 = (padded data).length) : bytes[position]? = bytes.getLast? := by
    rw [List.getLast?_eq_getElem?, long, ← isEnd]
    rfl
  have small := last.toNat_lt
  have unpads : unpad outBuff = Option.some data ↔ last = pad ∧ outBuff.take data.length = data := by
    have clears : EncryptBase.clearDataPadding outBuff .pkcs7Padding = Option.some
        (if last.toNat ≤ outBuff.length then outBuff.length - last.toNat
          else 2 ^ 64 + outBuff.length - last.toNat) := by
      rw [EncryptBase.clearDataPadding, if_neg (by decide), isLast]
      rfl
    simp only [unpad, clears]
    by_cases fits : last.toNat ≤ outBuff.length
    · rw [if_pos fits, if_pos (Nat.sub_le ..), Option.some.injEq]
      constructor
      · intro back
        have long := congrArg List.length back
        rw [List.length_take, Nat.min_eq_left (Nat.sub_le ..)] at long
        refine ⟨UInt8.toNat_inj.mp (by omega), ?_⟩
        rwa [long] at back
      · rintro ⟨rfl, back⟩
        rwa [show outBuff.length - last.toNat = data.length by omega]
    · rw [if_neg fits, if_neg (by omega)]
      refine iff_of_false (by simp) ?_
      rintro ⟨rfl, _⟩
      omega
  rw [unpads]
  constructor
  · rintro ⟨rfl, back⟩ position (inside | isEnd)
    · rw [getElem?_padded inside, ← back, List.getElem?_take_of_lt inside]
    · rw [atEnd outBuff same position isEnd, atEnd (padded data) rfl position isEnd, isLast, isPad]
  · intro bytes
    have ends := bytes ((padded data).length - 1) (.inr (by omega))
    rw [atEnd outBuff same _ (by omega), atEnd (padded data) rfl _ (by omega), isLast, isPad] at ends
    refine ⟨Option.some.inj ends, List.ext_getElem? fun position => ?_⟩
    by_cases inside : position < data.length
    · rw [List.getElem?_take_of_lt inside, bytes position (.inl inside), getElem?_padded inside]
    · rw [List.getElem?_take_eq_none (by omega), List.getElem?_eq_none (by omega)]

/-- What is accepted has both schedules. -/
theorem Accepts.schedules (accepts : Accepts key mode bits iv) (documented : ssl.Documented) :
    (∃ encryptKey, setKey ssl key bits true = some encryptKey) ∧
      ∃ decryptKey, setKey ssl key bits false = some decryptKey := by
  obtain ⟨valid, long, _⟩ := accepts
  have read : (key.take (bits.toNat / 8)).length = bits.toNat / 8 := by
    rw [List.length_take, Nat.min_eq_left (of_decide_eq_true long)]
  have size : bits.toNat = 128 ∨ bits.toNat = 192 ∨ bits.toNat = 256 := by
    cases bits with
    | aesNull => exact absurd rfl valid
    | aes128 => exact .inl rfl
    | aes192 => exact .inr (.inl rfl)
    | aes256 => exact .inr (.inr rfl)
  exact ⟨Option.isSome_iff_exists.mp ((documented.setEncryptKey _ _ read).mpr size),
    Option.isSome_iff_exists.mp ((documented.setDecryptKey _ _ read).mpr size)⟩

theorem Accepts.checkLenValid_eq (accepts : Accepts key mode bits iv)
    (block : ∀ start, iv = some start → start.length = blockSize) :
    checkLenValid key mode bits iv = some (if mode = .ecb then none else iv) := by
  obtain ⟨_, long, needed, _⟩ := accepts
  rw [checkLenValid, if_pos long]
  split
  · rfl
  · rename_i other
    obtain ⟨start, isStart⟩ := Option.isSome_iff_exists.mp (needed.resolve_left other)
    rw [isStart, Option.map_some, List.take_of_length_le (Nat.le_of_eq (block start isStart))]

/-- A call for the null size, with a short key, without an iv, or with a size that the mode has not. -/
theorem encryptAndDecrypt_of_refused (documented : ssl.Documented) {srcBuff outBuff : List UInt8} {enc : Bool}
    (refused : ¬ Accepts key mode bits iv) :
    encryptAndDecrypt ssl key srcBuff outBuff mode bits iv enc = .failed := by
  unfold encryptAndDecrypt
  cases valid : checkLenValid key mode bits iv with
  | none => rfl
  | some tmpIv =>
    cases schedule : setKey ssl key bits enc with
    | none => rfl
    | some aes =>
      have long : checkLen key.length bits = true := by
        by_contra short
        rw [checkLenValid, if_neg short] at valid
        cases valid
      have needed : mode = .ecb ∨ iv.isSome := by
        by_contra absent
        obtain ⟨other, noIv⟩ := not_or.mp absent
        rw [checkLenValid, if_pos long, if_neg other, Option.not_isSome_iff_eq_none.mp noIv] at valid
        cases valid
      have sized : bits ≠ .aesNull := by
        rintro rfl
        have read : (key.take (AESBit.toNat .aesNull / 8)).length = AESBit.toNat .aesNull / 8 := by
          rw [show AESBit.toNat .aesNull / 8 = 0 from rfl, List.take_zero]
          rfl
        cases enc with
        | true =>
          have size := (documented.setEncryptKey _ _ read).mp (Option.isSome_iff_exists.mpr ⟨aes, schedule⟩)
          exact absurd size (by decide)
        | false =>
          have size := (documented.setDecryptKey _ _ read).mp (Option.isSome_iff_exists.mpr ⟨aes, schedule⟩)
          exact absurd size (by decide)
      have never : ¬ (mode = .ecb ∨ mode = .cbc ∨ bits = .aes128) :=
        fun fits => refused ⟨sized, long, needed, fits⟩
      cases mode <;> simp at never ⊢ <;> exact never

/-- What the mode makes of whole blocks; for `CTR` that is what the memory has in it. -/
def crypt (ssl : OpenSsl Key) (aes : Key) (mode : Mode) (start : List UInt8) (count : Nat) (enc : Bool)
    (srcBuff outBuff : List UInt8) : List UInt8 :=
  match mode with
  | .ecb => BlockModes.ecb blockSize (if enc then ssl.encrypt aes else ssl.decrypt aes) count srcBuff
  | .cbc =>
    if enc then BlockModes.cbcEncrypt blockSize (ssl.encrypt aes) count start srcBuff
    else BlockModes.cbcDecrypt blockSize (ssl.decrypt aes) count start srcBuff
  | .cfb =>
    if enc then BlockModes.cfbEncrypt blockSize (ssl.encrypt aes) count start srcBuff
    else BlockModes.cfbDecrypt blockSize (ssl.encrypt aes) count start srcBuff
  | .ofb => BlockModes.ofb (ssl.encrypt aes) count start srcBuff
  | .ctr => outBuff

theorem ecbLoop_eq {crypt block : List UInt8 → List UInt8} {rounds count : Nat} {srcBuff : List UInt8}
    (same : ∀ text, text.length = blockSize → crypt text = block text) (sized : srcBuff.length = blockSize * count)
    (enough : srcBuff.length ≤ rounds) :
    ecbLoop crypt rounds srcBuff = some (BlockModes.ecb blockSize block count srcBuff) := by
  have positive : 0 < blockSize := by decide
  induction rounds generalizing count srcBuff with
  | zero =>
    obtain rfl : count = 0 := by
      have nothing : blockSize * count = 0 := by omega
      exact (Nat.mul_eq_zero.mp nothing).resolve_left (Nat.ne_of_gt positive)
    rfl
  | succ rounds ih =>
    cases count with
    | zero =>
      rw [ecbLoop, if_pos (sized.trans (Nat.mul_zero _))]
      rfl
    | succ count =>
      rw [Nat.mul_succ] at sized
      have rest : (srcBuff.drop blockSize).length = blockSize * count := by
        rw [List.length_drop]
        omega
      have first : (srcBuff.take blockSize).length = blockSize := by
        rw [List.length_take]
        omega
      rw [ecbLoop, if_neg (by omega), if_neg (by omega), ih rest (by omega), Option.map_some, same _ first,
        BlockModes.ecb]

theorem encryptAndDecrypt_eq (documented : ssl.Documented) (accepts : Accepts key mode bits iv)
    (block : ∀ start, iv = some start → start.length = blockSize) {srcBuff outBuff : List UInt8} {enc : Bool}
    {aes : Key} {count : Nat} (schedule : setKey ssl key bits enc = some aes)
    (sized : srcBuff.length = blockSize * count) : encryptAndDecrypt ssl key srcBuff outBuff mode bits iv enc =
      .done (crypt ssl aes mode (iv.getD []) count enc srcBuff outBuff) := by
  unfold encryptAndDecrypt
  rw [accepts.checkLenValid_eq block, schedule]
  have started (other : mode ≠ .ecb) : ∃ start, iv = some start ∧ start.length = blockSize := by
    obtain ⟨start, isStart⟩ := Option.isSome_iff_exists.mp (accepts.2.2.1.resolve_left other)
    exact ⟨start, isStart, block start isStart⟩
  have only (first : mode ≠ .ecb) (second : mode ≠ .cbc) : bits = .aes128 :=
    (accepts.2.2.2.resolve_left first).resolve_left second
  cases mode with
  | ecb =>
    have each (text : List UInt8) (whole : text.length = blockSize) :
        ssl.ecbEncrypt text aes enc = (if enc then ssl.encrypt aes else ssl.decrypt aes) text := by
      cases enc with
      | true => exact (documented.ecb text aes whole).1
      | false => exact (documented.ecb text aes whole).2
    have loop := ecbLoop_eq each sized (Nat.le_refl _)
    simp only [crypt, loop]
  | cbc =>
    obtain ⟨start, rfl, whole⟩ := started nofun
    obtain ⟨encrypts, decrypts⟩ := documented.cbc srcBuff aes start count sized whole
    have blocks : srcBuff.length % blockSize = 0 := by rw [sized, Nat.mul_mod_right]
    simp only [crypt, blocks, if_true]
    cases enc with
    | true => exact congrArg Outcome.done encrypts
    | false => exact congrArg Outcome.done decrypts
  | cfb =>
    obtain ⟨start, rfl, whole⟩ := started nofun
    obtain ⟨encrypts, decrypts⟩ := documented.cfb srcBuff aes start count sized whole
    simp only [crypt, only nofun nofun, if_true]
    cases enc with
    | true => exact congrArg Outcome.done encrypts
    | false => exact congrArg Outcome.done decrypts
  | ofb =>
    obtain ⟨start, rfl, whole⟩ := started nofun
    simp only [crypt, only nofun nofun, if_true]
    exact congrArg Outcome.done (documented.ofb srcBuff aes start count sized whole)
  | ctr => simp only [crypt, only nofun nofun, if_true]

section Modes

variable {encryptKey decryptKey aes : Key} {start : List UInt8} {count : Nat} {srcBuff outBuff : List UInt8}

theorem length_crypt (documented : ssl.Documented) (first : mode ≠ .ecb → start.length = blockSize)
    (sized : srcBuff.length = blockSize * count) (filled : outBuff.length = srcBuff.length) :
    (crypt ssl aes mode start count true srcBuff outBuff).length = blockSize * count := by
  have encrypts := documented.encrypt aes
  cases mode with
  | ecb => exact BlockModes.length_ecb encrypts sized
  | cbc => exact BlockModes.length_cbcEncrypt encrypts (first nofun) sized
  | cfb => exact BlockModes.length_cfbEncrypt encrypts (first nofun) sized
  | ofb =>
    have stream : (BlockModes.ofbStream (ssl.encrypt aes) count start).length = srcBuff.length :=
      (BlockModes.length_ofbStream encrypts (first nofun)).trans sized.symm
    exact (length_xorBytes stream).trans sized
  | ctr => exact filled.trans sized

/-- What comes back of a text that is mixed with one stream and then with another. -/
theorem unpad_xorBytes {first second : List UInt8} (firstLong : first.length = (padded data).length)
    (secondLong : second.length = (padded data).length) :
    unpad (xorBytes (xorBytes (padded data) first) second) = some data ↔ SameBytes data first second := by
  have long : data.length ≤ (padded data).length := by
    rw [padded, EncryptBase.paddingData, List.length_append]
    exact Nat.le_add_right ..
  have mixed : (xorBytes (padded data) first).length = (padded data).length := length_xorBytes firstLong
  rw [unpad_eq_some_iff ((length_xorBytes (secondLong.trans mixed.symm)).trans mixed)]
  refine forall_congr' fun position => imp_congr_right fun inside => ?_
  exact getElem?_xorBytes_xorBytes firstLong secondLong (by omega)

/-- The text is encrypted, and the memory is what the output is in. -/
theorem roundTrips_iff_unpad (documented : ssl.Documented) (accepts : Accepts key mode bits iv)
    (block : ∀ start, iv = some start → start.length = blockSize)
    (isEncrypt : setKey ssl key bits true = some encryptKey)
    (isDecrypt : setKey ssl key bits false = some decryptKey) {text : List UInt8}
    (isText : crypt ssl encryptKey mode (iv.getD []) (blockCount data) true (padded data)
      (List.replicate (padded data).length 0) = text) :
    RoundTrips ssl key data mode bits iv ↔ ∀ memory, memory.length = (padded data).length →
      unpad (crypt ssl decryptKey mode (iv.getD []) (blockCount data) false text memory) = some data := by
  have first (other : mode ≠ .ecb) : (iv.getD []).length = blockSize := by
    obtain ⟨start, rfl⟩ := Option.isSome_iff_exists.mp (accepts.2.2.1.resolve_left other)
    exact block start rfl
  have textSized : text.length = blockSize * blockCount data := by
    rw [← isText]
    exact length_crypt documented first length_padded List.length_replicate
  have encrypts : encryptToHex ssl key data mode .pkcs7Padding bits iv = some text := by
    have encrypted : encryptAndDecrypt ssl key (padded data) (List.replicate (padded data).length 0) mode bits iv
        true = .done text := by
      rw [← isText]
      exact encryptAndDecrypt_eq documented accepts block isEncrypt length_padded
    rw [encryptToHex_padded, encrypted]
  have nonempty : text ≠ [] := by
    rintro rfl
    exact Nat.ne_of_lt (length_padded_pos data) (textSized.trans length_padded.symm)
  have decrypts (memory : List UInt8) : decryptFromHex ssl key text memory mode .pkcs7Padding bits iv =
      unpad (crypt ssl decryptKey mode (iv.getD []) (blockCount data) false text memory) := by
    rw [decryptFromHex, encryptAndDecrypt_eq documented accepts block isDecrypt textSized]
    rfl
  have long : text.length = (padded data).length := textSized.trans length_padded.symm
  constructor
  · intro comes memory filled
    rw [← decrypts]
    exact comes text encrypts nonempty memory (filled.trans long.symm)
  · intro comes other encrypted _ memory filled
    obtain rfl := Option.some.inj (encrypts.symm.trans encrypted)
    rw [decrypts]
    exact comes memory (filled.trans long)

/-- The schedules are those of the key. -/
theorem sameStream_iff (isEncrypt : setKey ssl key bits true = some encryptKey)
    (isDecrypt : setKey ssl key bits false = some decryptKey)
    (stream : (List UInt8 → List UInt8) → (List UInt8 → List UInt8) → List UInt8 → List UInt8) :
    SameStream ssl key data bits (some start) stream ↔ SameBytes data
      (stream (ssl.encrypt encryptKey) (ssl.encrypt encryptKey) start)
      (stream (ssl.encrypt encryptKey) (ssl.encrypt decryptKey) start) := by
  refine ⟨fun all => all encryptKey decryptKey start isEncrypt isDecrypt rfl, ?_⟩
  intro bytes other later begin isOther isLater isBegin
  obtain rfl := Option.some.inj (isEncrypt.symm.trans isOther)
  obtain rfl := Option.some.inj (isDecrypt.symm.trans isLater)
  obtain rfl := Option.some.inj isBegin
  exact bytes

theorem unpad_cfb_iff (documented : ssl.Documented) (whole : start.length = blockSize) :
    let cipher := BlockModes.cfbEncrypt blockSize (ssl.encrypt encryptKey) (blockCount data) start (padded data)
    unpad (BlockModes.cfbDecrypt blockSize (ssl.encrypt decryptKey) (blockCount data) start cipher) = some data ↔
      SameBytes data (BlockModes.cfbStream blockSize (ssl.encrypt encryptKey) (blockCount data) start cipher)
        (BlockModes.cfbStream blockSize (ssl.encrypt decryptKey) (blockCount data) start cipher) := by
  intro cipher
  have encrypts := documented.encrypt encryptKey
  have blocks : (padded data).length = blockSize * blockCount data := length_padded
  have sized : cipher.length = blockSize * blockCount data :=
    BlockModes.length_cfbEncrypt encrypts whole blocks
  have mixed : cipher = xorBytes (padded data)
      (BlockModes.cfbStream blockSize (ssl.encrypt encryptKey) (blockCount data) start cipher) :=
    BlockModes.cfbEncrypt_eq encrypts whole blocks
  have unpads := unpad_xorBytes ((BlockModes.length_cfbStream encrypts whole sized).trans blocks.symm)
    ((BlockModes.length_cfbStream (documented.encrypt decryptKey) whole sized).trans blocks.symm)
  rwa [← mixed] at unpads

theorem unpad_ofb_iff (documented : ssl.Documented) (whole : start.length = blockSize) :
    unpad (BlockModes.ofb (ssl.encrypt decryptKey) (blockCount data) start
        (BlockModes.ofb (ssl.encrypt encryptKey) (blockCount data) start (padded data))) = some data ↔
      SameBytes data (BlockModes.ofbStream (ssl.encrypt encryptKey) (blockCount data) start)
        (BlockModes.ofbStream (ssl.encrypt decryptKey) (blockCount data) start) :=
  unpad_xorBytes ((BlockModes.length_ofbStream (documented.encrypt encryptKey) whole).trans length_padded.symm)
    ((BlockModes.length_ofbStream (documented.encrypt decryptKey) whole).trans length_padded.symm)

/-- A zero is no length of a padding. -/
theorem unpad_zeros_ne (data : List UInt8) : unpad (List.replicate (padded data).length 0) ≠ some data := by
  intro zeros
  obtain ⟨last, isLast, split⟩ := getLast?_padded data
  have more : data.length < (padded data).length := by
    have rest := Nat.lt_mul_div_succ data.length (show 0 < blockSize by decide)
    rwa [← blockCount, ← length_padded] at rest
  have ends := (unpad_eq_some_iff List.length_replicate).mp zeros ((padded data).length - 1) (.inr (by omega))
  rw [List.getElem?_replicate, if_pos (by omega), ← List.getLast?_eq_getElem?, isLast] at ends
  rw [← Option.some.inj ends] at split
  exact Nat.ne_of_lt more (by simpa using split)

end Modes

/-- What is encrypted comes back exactly if it is refused, or the mode gets it back with the decryption schedule:
always for `ECB` and `CBC`, for `CFB` and `OFB` where the stream happens to be the same, and never for `CTR`. -/
theorem round_trip_iff (documented : ssl.Documented)
    (block : ∀ start, iv = some start → start.length = blockSize) :
    RoundTrips ssl key data mode bits iv ↔
      (Accepts key mode bits iv → Reversible ssl key data mode bits iv) := by
  by_cases accepts : Accepts key mode bits iv
  swap
  · refine iff_of_true (fun text encrypted some => ?_) fun accepts' => absurd accepts' accepts
    rw [encryptToHex_padded, encryptAndDecrypt_of_refused documented accepts] at encrypted
    exact absurd (Option.some.inj encrypted).symm some
  rw [forall_prop_of_true accepts]
  obtain ⟨⟨encryptKey, isEncrypt⟩, decryptKey, isDecrypt⟩ := accepts.schedules documented
  have encrypts := documented.encrypt encryptKey
  have inverse := documented.decrypt_encrypt _ _ _ _ isEncrypt isDecrypt
  have back : unpad (padded data) = some data := (unpad_eq_some_iff rfl).mpr fun _ _ => rfl
  -- All but `ECB` have an iv.
  have started (other : mode ≠ .ecb) : ∃ start, iv = some start ∧ start.length = blockSize := by
    obtain ⟨start, isStart⟩ := Option.isSome_iff_exists.mp (accepts.2.2.1.resolve_left other)
    exact ⟨start, isStart, block start isStart⟩
  have anyMemory (bytes : Prop) : (∀ memory : List UInt8, memory.length = (padded data).length → bytes) ↔ bytes :=
    ⟨fun all => all (List.replicate (padded data).length 0) List.length_replicate, fun holds _ _ => holds⟩
  rw [roundTrips_iff_unpad documented accepts block isEncrypt isDecrypt rfl]
  cases mode with
  | ecb =>
    refine iff_of_true (fun memory _ => ?_) trivial
    simp only [crypt, if_true, Bool.false_eq_true, if_false]
    rw [BlockModes.ecb_ecb encrypts inverse length_padded, back]
  | cbc =>
    obtain ⟨start, rfl, whole⟩ := started nofun
    refine iff_of_true (fun memory _ => ?_) trivial
    simp only [crypt, if_true, Bool.false_eq_true, if_false, Option.getD_some]
    rw [BlockModes.cbcDecrypt_cbcEncrypt encrypts inverse whole length_padded, back]
  | cfb =>
    obtain ⟨start, rfl, whole⟩ := started nofun
    rw [Reversible, sameStream_iff isEncrypt isDecrypt]
    exact (anyMemory _).trans (unpad_cfb_iff documented whole)
  | ofb =>
    obtain ⟨start, rfl, whole⟩ := started nofun
    rw [Reversible, sameStream_iff isEncrypt isDecrypt]
    exact (anyMemory _).trans (unpad_ofb_iff documented whole)
  | ctr =>
    -- The memory may be zeros.
    refine iff_of_false (fun always => ?_) id
    exact unpad_zeros_ne data (always (List.replicate (padded data).length 0) List.length_replicate)

section Sample

/-- The padding of nothing. -/
def samplePlain : List UInt8 := List.replicate 16 16

/-- `1234567812345678`. -/
def sampleKey : List UInt8 := [49, 50, 51, 52, 53, 54, 55, 56, 49, 50, 51, 52, 53, 54, 55, 56]

/-- What AES makes of it with this key. -/
def sampleCipher : List UInt8 := [217, 106, 164, 43, 89, 21, 26, 158, 155, 89, 37, 252, 157, 149, 173, 175]

/-- The block function at this block, and back; all others it leaves as they are. -/
def sampleBlock (block : List UInt8) : List UInt8 :=
  if block = samplePlain then sampleCipher else if block = sampleCipher then samplePlain else block

def sampleSchedule (key : List UInt8) (bits : Nat) : Option Unit :=
  if key.length = bits / 8 ∧ (bits = 128 ∨ bits = 192 ∨ bits = 256) then some () else none

def sampleSsl : OpenSsl Unit where
  setEncryptKey := sampleSchedule
  setDecryptKey := sampleSchedule
  encrypt _ := sampleBlock
  decrypt _ := sampleBlock
  ecbEncrypt block _ _ := sampleBlock block
  cbcEncrypt text _ iv enc :=
    if enc then BlockModes.cbcEncrypt blockSize sampleBlock (text.length / blockSize) iv text
    else BlockModes.cbcDecrypt blockSize sampleBlock (text.length / blockSize) iv text
  cfb128Encrypt text _ iv enc :=
    if enc then BlockModes.cfbEncrypt blockSize sampleBlock (text.length / blockSize) iv text
    else BlockModes.cfbDecrypt blockSize sampleBlock (text.length / blockSize) iv text
  ofb128Encrypt text _ iv := BlockModes.ofb sampleBlock (text.length / blockSize) iv text

theorem documented_sampleSsl : sampleSsl.Documented := by
  have schedule (key : List UInt8) (bits : Nat) (long : key.length = bits / 8) :
      (sampleSchedule key bits).isSome ↔ bits = 128 ∨ bits = 192 ∨ bits = 256 := by
    rw [sampleSchedule]
    split
    · rename_i both
      exact iff_of_true rfl both.2
    · rename_i neither
      exact iff_of_false Bool.false_ne_true fun size => neither ⟨long, size⟩
  have blocks {text : List UInt8} {count : Nat} (sized : text.length = blockSize * count) :
      text.length / blockSize = count := by
    rw [sized, Nat.mul_div_cancel_left _ (by decide)]
  refine ⟨schedule, schedule, fun _ block whole => ?_, fun _ _ _ _ _ _ block _ => ?_, fun _ _ _ => ⟨rfl, rfl⟩,
    fun text _ iv count sized _ => ?_, fun text _ iv count sized _ => ?_, fun text _ iv count sized _ => ?_⟩
  · change (sampleBlock block).length = blockSize
    unfold sampleBlock
    split
    · rfl
    · split
      · rfl
      · exact whole
  · change sampleBlock (sampleBlock block) = block
    unfold sampleBlock
    by_cases plain : block = samplePlain
    · rw [if_pos plain, if_neg (by decide +kernel), if_pos rfl, plain]
    · rw [if_neg plain]
      by_cases cipher : block = sampleCipher
      · rw [if_pos cipher, if_pos rfl, cipher]
      · rw [if_neg cipher, if_neg plain, if_neg cipher]
  · simp only [sampleSsl, blocks sized, if_true, Bool.false_eq_true, if_false, and_self]
  · simp only [sampleSsl, blocks sized, if_true, Bool.false_eq_true, if_false, and_self]
  · simp only [sampleSsl, blocks sized]

/-- Nothing, which is encrypted as a block of padding. -/
theorem round_trip_iff_block :
    encryptToHex sampleSsl sampleKey [] .ecb .pkcs7Padding .aes128 none = some sampleCipher ∧
      RoundTrips sampleSsl sampleKey [] .ecb .aes128 none := by
  have comes : RoundTrips sampleSsl sampleKey [] .ecb .aes128 none ↔ _ := round_trip_iff documented_sampleSsl nofun
  exact ⟨by decide +kernel, comes.mpr fun _ => trivial⟩

/-- In `CTR` one byte is encrypted as zeros, which come back as they are. -/
theorem not_round_trip_ctr :
    encryptToHex sampleSsl sampleKey [7] .ctr .pkcs7Padding .aes128 (some (List.replicate 16 1)) =
        some (List.replicate 16 0) ∧
      ¬ RoundTrips sampleSsl sampleKey [7] .ctr .aes128 (some (List.replicate 16 1)) := by
  have zeros : encryptToHex sampleSsl sampleKey [7] .ctr .pkcs7Padding .aes128 (some (List.replicate 16 1)) =
      some (List.replicate 16 0) := by decide +kernel
  refine ⟨zeros, fun comes => ?_⟩
  have back := comes _ zeros nofun (List.replicate 16 0) rfl
  exact absurd back (by decide +kernel)

end Sample

end BTool.Encrypt.AES
