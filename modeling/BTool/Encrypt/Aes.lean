import BTool.Encrypt.EncryptBase
import BTool.Foundation.BlockModes

/-! `AES`, over the functions of OpenSSL that it calls. -/

namespace BTool.Encrypt

open BTool.Foundation

namespace AES

/-- `AES_BLOCK_SIZE`. -/
def blockSize : Nat := 16

inductive AESBit where
  | aesNull
  | aes128
  | aes192
  | aes256
deriving DecidableEq

def AESBit.toNat : AESBit → Nat
  | .aesNull => 0
  | .aes128 => 128
  | .aes192 => 192
  | .aes256 => 256

inductive Mode where
  | ecb
  | cbc
  | cfb
  | ofb
  | ctr
deriving DecidableEq

/-- The AES functions of OpenSSL, over its `AES_KEY`. The direction is true for `AES_ENCRYPT`. -/
structure OpenSsl (Key : Type) where
  /-- `AES_set_encrypt_key`, which fails with a negative value. -/
  setEncryptKey : List UInt8 → Nat → Option Key
  setDecryptKey : List UInt8 → Nat → Option Key
  /-- `AES_encrypt` of a block. -/
  encrypt : Key → List UInt8 → List UInt8
  decrypt : Key → List UInt8 → List UInt8
  ecbEncrypt : List UInt8 → Key → Bool → List UInt8
  cbcEncrypt : List UInt8 → Key → List UInt8 → Bool → List UInt8
  cfb128Encrypt : List UInt8 → Key → List UInt8 → Bool → List UInt8
  ofb128Encrypt : List UInt8 → Key → List UInt8 → List UInt8

/-- What is documented of them: the schedules for keys of the three sizes, the block functions that are inverse
to each other, and the modes of operation, which for `cfb128` and `ofb128` use `AES_encrypt` both ways. -/
structure OpenSsl.Documented {Key : Type} (ssl : OpenSsl Key) : Prop where
  setEncryptKey : ∀ key bits, key.length = bits / 8 →
    ((ssl.setEncryptKey key bits).isSome ↔ bits = 128 ∨ bits = 192 ∨ bits = 256)
  setDecryptKey : ∀ key bits, key.length = bits / 8 →
    ((ssl.setDecryptKey key bits).isSome ↔ bits = 128 ∨ bits = 192 ∨ bits = 256)
  encrypt : ∀ aes, BlockModes.Sized blockSize (ssl.encrypt aes)
  decrypt_encrypt : ∀ key bits encryptKey decryptKey, ssl.setEncryptKey key bits = some encryptKey →
    ssl.setDecryptKey key bits = some decryptKey →
    ∀ block, block.length = blockSize → ssl.decrypt decryptKey (ssl.encrypt encryptKey block) = block
  ecb : ∀ block aes, block.length = blockSize → ssl.ecbEncrypt block aes true = ssl.encrypt aes block ∧
    ssl.ecbEncrypt block aes false = ssl.decrypt aes block
  cbc : ∀ text aes iv count, text.length = blockSize * count → iv.length = blockSize →
    ssl.cbcEncrypt text aes iv true = BlockModes.cbcEncrypt blockSize (ssl.encrypt aes) count iv text ∧
    ssl.cbcEncrypt text aes iv false = BlockModes.cbcDecrypt blockSize (ssl.decrypt aes) count iv text
  cfb : ∀ text aes iv count, text.length = blockSize * count → iv.length = blockSize →
    ssl.cfb128Encrypt text aes iv true = BlockModes.cfbEncrypt blockSize (ssl.encrypt aes) count iv text ∧
    ssl.cfb128Encrypt text aes iv false = BlockModes.cfbDecrypt blockSize (ssl.encrypt aes) count iv text
  ofb : ∀ text aes iv count, text.length = blockSize * count → iv.length = blockSize →
    ssl.ofb128Encrypt text aes iv = BlockModes.ofb (ssl.encrypt aes) count iv text

def checkLen (len : Nat) (bits : AESBit) : Bool := bits.toNat / 8 ≤ len

/-- `none` where it returns false, else what is behind `tmp_iv`, unless that stays a null pointer. The key is
the text of a C string; an iv is read for a block. -/
def checkLenValid (key : List UInt8) (mode : Mode) (bits : AESBit) (iv : Option (List UInt8)) :
    Option (Option (List UInt8)) :=
  if checkLen key.length bits then
    if mode = .ecb then some none
    else iv.map fun (iv : List UInt8) => some (iv.take blockSize)
  else none

/-- The loop over the blocks; `none` where a block is not within the buffers. -/
def ecbLoop (crypt : List UInt8 → List UInt8) : Nat → List UInt8 → Option (List UInt8)
  | 0, _ => some []
  | rounds + 1, srcBuff =>
    if srcBuff.length = 0 then some []
    else if srcBuff.length < blockSize then none
    else (ecbLoop crypt rounds (srcBuff.drop blockSize)).map (crypt (srcBuff.take blockSize) ++ ·)

/-- What a call comes to. -/
inductive Outcome where
  /-- Memory out of a buffer is accessed. -/
  | undefined
  | failed
  /-- With this in `out_buff`. -/
  | done (outBuff : List UInt8)
deriving DecidableEq

section

variable {Key : Type} (ssl : OpenSsl Key) (key : List UInt8)

/-- The key schedule for the direction. -/
def setKey (bits : AESBit) (enc : Bool) : Option Key :=
  if enc then ssl.setEncryptKey (key.take (bits.toNat / 8)) bits.toNat
  else ssl.setDecryptKey (key.take (bits.toNat / 8)) bits.toNat

/-- What is in `out_buff` at first stays there for `CTR`, for which nothing is called. -/
def encryptAndDecrypt (srcBuff outBuff : List UInt8) (mode : Mode) (bits : AESBit) (iv : Option (List UInt8))
    (enc : Bool) : Outcome :=
  match checkLenValid key mode bits iv with
  | none => .failed
  | some tmpIv =>
    match setKey ssl key bits enc with
    | none => .failed
    | some aes =>
      match mode with
      | .ecb =>
        match ecbLoop (fun block => ssl.ecbEncrypt block aes enc) srcBuff.length srcBuff with
        | none => .undefined
        | some out => .done out
      | .cbc =>
        if srcBuff.length % blockSize = 0 then .done (ssl.cbcEncrypt srcBuff aes (tmpIv.getD []) enc)
        else .undefined
      | .cfb =>
        if bits = .aes128 then .done (ssl.cfb128Encrypt srcBuff aes (tmpIv.getD []) enc) else .failed
      | .ofb =>
        if bits = .aes128 then .done (ssl.ofb128Encrypt srcBuff aes (tmpIv.getD [])) else .failed
      | .ctr => if bits = .aes128 then .done outBuff else .failed

/-- The empty text where it fails, and `none` where its behaviour is not defined, or where it throws: for no bytes
`new` has no room for the zero that they are to begin with. -/
def encryptToHex (data : List UInt8) (mode : Mode) (pad : Padding) (bits : AESBit)
    (iv : Option (List UInt8)) : Option (List UInt8) :=
  let paddingLen := EncryptBase.getPaddingLen data.length pad blockSize
  let srcBuff := EncryptBase.paddingData data pad paddingLen
  if srcBuff.length = 0 then none
  else match encryptAndDecrypt ssl key srcBuff (List.replicate srcBuff.length 0) mode bits iv true with
    | .undefined => none
    | .failed => some []
    | .done outBuff => some outBuff

/-- `outBuff` is what the memory for the output has in it, which is not initialised. -/
def decryptFromHex (srcBuff outBuff : List UInt8) (mode : Mode) (pad : Padding) (bits : AESBit)
    (iv : Option (List UInt8)) : Option (List UInt8) :=
  match encryptAndDecrypt ssl key srcBuff outBuff mode bits iv false with
  | .undefined => none
  | .failed => some []
  | .done outBuff =>
    match EncryptBase.clearDataPadding outBuff pad with
    | none => none
    | some outLen => if outLen ≤ outBuff.length then some (outBuff.take outLen) else none

end

end AES

end BTool.Encrypt
