import BTool.Encrypt.EncryptBase
import BTool.Foundation.BlockModes
import BTool.Foundation.Image

/-! `Des`, over the functions of OpenSSL that it calls, with one key and with three. -/

namespace BTool.Encrypt

open BTool.Foundation

namespace Des

/-- `sizeof(DES_cblock)`. -/
def blockSize : Nat := 8

/-- The number of keys, which is 0 where the key or the iv has another length. `none` where the iv is a null
pointer, whose length is asked for all the same. Key and iv are the texts of C strings. -/
def checkKey (key : List UInt8) (iv : Option (List UInt8)) : Option Nat :=
  iv.map fun (iv : List UInt8) =>
    if iv.length ≠ blockSize then 0
    else if key.length ≠ blockSize ∧ key.length ≠ 2 * blockSize ∧ key.length ≠ 3 * blockSize then 0
    else key.length / blockSize

inductive Mode where
  | cbc
  | cfb
  | ecb
deriving DecidableEq

/-- The DES functions of OpenSSL, over its `DES_key_schedule`. The direction is true for `DES_ENCRYPT`. -/
structure OpenSsl (Key : Type) where
  setKeyUnchecked : List UInt8 → Key
  /-- The cipher of a block, and its inverse. -/
  encrypt : Key → List UInt8 → List UInt8
  decrypt : Key → List UInt8 → List UInt8
  ecbEncrypt : List UInt8 → Key → Bool → List UInt8
  cbcEncrypt : List UInt8 → Key → List UInt8 → Bool → List UInt8
  /-- With the number of bits that are encrypted at a time. -/
  cfbEncrypt : List UInt8 → Nat → Key → List UInt8 → Bool → List UInt8
  ecb3Encrypt : List UInt8 → Key → Key → Key → Bool → List UInt8
  ede3CbcEncrypt : List UInt8 → Key → Key → Key → List UInt8 → Bool → List UInt8
  ede3CfbEncrypt : List UInt8 → Nat → Key → Key → Key → List UInt8 → Bool → List UInt8

/-- What a call comes to. -/
inductive Outcome where
  /-- Memory out of a buffer is accessed. -/
  | undefined
  | failed
  /-- With this in `out_buff`, and `out_len`. -/
  | done (outBuff : List UInt8) (outLen : Nat)
deriving DecidableEq

/-- `memcpy` from a buffer, which is `none` outside of it. -/
def fetch (buff : List UInt8) (offset length : Nat) : Option (List UInt8) :=
  if offset + length ≤ buff.length then some (Image.piece buff offset length) else none

/-- Bytes that are written to a buffer, which is `none` outside of it. -/
def store (buff : List UInt8) (offset : Nat) (bytes : List UInt8) : Option (List UInt8) :=
  if offset + bytes.length ≤ buff.length then some (Image.overwrite buff offset bytes) else none

/-- The loop over the blocks, of which the last one may be filled up with zeros. -/
def ecbLoop (crypt : List UInt8 → List UInt8) (srcBuff : List UInt8) (blockNum modVal : Nat) :
    Nat → Nat → List UInt8 → Option (List UInt8)
  | 0, _, outBuff => some outBuff
  | rounds + 1, i, outBuff => do
    let tmpData ←
      if modVal = 0 ∨ i ≠ blockNum - 1 then fetch srcBuff (i * blockSize) blockSize
      else (fetch srcBuff (i * blockSize) modVal).map (· ++ List.replicate (blockSize - modVal) 0)
    let outBuff ← store outBuff (i * blockSize) (crypt tmpData)
    ecbLoop crypt srcBuff blockNum modVal rounds (i + 1) outBuff

/-- The functions that the modes call, under the keys of a call. -/
structure Functions where
  ecb : List UInt8 → List UInt8
  cbc : List UInt8 → List UInt8 → List UInt8
  cfb : List UInt8 → List UInt8 → List UInt8

/-- The modes. In `CBC` a last block that is not whole is read or written as a whole one. -/
def crypt (functions : Functions) (srcBuff outBuff : List UInt8) (mode : Mode) (iv : List UInt8) : Outcome :=
  let tmpData := iv.take blockSize
  match mode with
  | .cbc =>
    if srcBuff.length % blockSize ≠ 0 then .undefined
    else match store outBuff 0 (functions.cbc srcBuff tmpData) with
      | none => .undefined
      | some outBuff => .done outBuff srcBuff.length
  | .cfb =>
    match store outBuff 0 (functions.cfb srcBuff tmpData) with
    | none => .undefined
    | some outBuff => .done outBuff srcBuff.length
  | .ecb =>
    let modVal := srcBuff.length % blockSize
    let blockNum := srcBuff.length / blockSize + if modVal ≠ 0 then 1 else 0
    match ecbLoop functions.ecb srcBuff blockNum modVal blockNum 0 outBuff with
    | none => .undefined
    | some outBuff => .done outBuff (if modVal ≠ 0 then blockNum * blockSize else srcBuff.length)

/-- What a call to `Des` comes to. -/
inductive Result where
  | undefined
  /-- `new` throws, as there is no room for the zero that it is to begin with. -/
  | threw
  | returned (text : List UInt8)
deriving DecidableEq

/-- `EncryptToHex` and `TripleDesEncryptToHex`, with what they call. -/
def encryptWith (run : List UInt8 → List UInt8 → Outcome) (data : List UInt8) (pad : Padding) : Result :=
  let paddingLen := EncryptBase.getPaddingLen data.length pad blockSize
  let srcBuff := EncryptBase.paddingData data pad paddingLen
  if srcBuff.length = 0 then .threw
  else match run srcBuff (List.replicate srcBuff.length 0) with
    | .undefined => .undefined
    | .failed => .returned []
    | .done outBuff outLen => if outLen ≤ outBuff.length then .returned (outBuff.take outLen) else .undefined

/-- `DecryptFromHex` and `TripleDesDecryptFromHex`, with what they call. -/
def decryptWith (run : List UInt8 → List UInt8 → Outcome) (srcBuff : List UInt8) (pad : Padding) : Result :=
  if srcBuff.length = 0 then .threw
  else match run srcBuff (List.replicate srcBuff.length 0) with
    | .undefined => .undefined
    | .failed => .returned []
    | .done outBuff outLen =>
      match EncryptBase.clearDataPadding (outBuff.take outLen) pad with
      | none => .undefined
      | some outLen => if outLen ≤ outBuff.length then .returned (outBuff.take outLen) else .undefined

section

variable {Key : Type} (ssl : OpenSsl Key) (key : List UInt8)

/-- The functions for one key. -/
def desFunctions (enc : Bool) : Functions :=
  let ks1 := ssl.setKeyUnchecked (key.take blockSize)
  { ecb := fun tmpData => ssl.ecbEncrypt tmpData ks1 enc
    cbc := fun srcBuff tmpData => ssl.cbcEncrypt srcBuff ks1 tmpData enc
    cfb := fun srcBuff tmpData => ssl.cfbEncrypt srcBuff blockSize ks1 tmpData enc }

def desEncryptAndDecrypt (srcBuff outBuff : List UInt8) (mode : Mode) (iv : Option (List UInt8)) (enc : Bool) :
    Outcome :=
  match checkKey key iv with
  | none => .undefined
  | some keyNum =>
    if keyNum ≠ 1 then .failed
    else crypt (desFunctions ssl key enc) srcBuff outBuff mode (iv.getD [])

/-- The three keys of a key text. -/
def tripleKeys (keyNum : Nat) : List UInt8 × List UInt8 × List UInt8 :=
  let zeros := List.replicate blockSize 0
  let first := key.take blockSize
  let second := (key.drop blockSize).take blockSize
  match keyNum with
  | 1 => (first, first, first)
  | 2 => (first, second, first)
  | 3 => (first, second, (key.drop (2 * blockSize)).take blockSize)
  | _ => (zeros, zeros, zeros)

/-- The functions for three keys. -/
def tripleFunctions (keyNum : Nat) (enc : Bool) : Functions :=
  let (ke1, ke2, ke3) := tripleKeys key keyNum
  let ks1 := ssl.setKeyUnchecked ke1
  let ks2 := ssl.setKeyUnchecked ke2
  let ks3 := ssl.setKeyUnchecked ke3
  { ecb := fun tmpData => ssl.ecb3Encrypt tmpData ks1 ks2 ks3 enc
    cbc := fun srcBuff tmpData => ssl.ede3CbcEncrypt srcBuff ks1 ks2 ks3 tmpData enc
    cfb := fun srcBuff tmpData => ssl.ede3CfbEncrypt srcBuff 8 ks1 ks2 ks3 tmpData enc }

def tripleDesEncryptAndDecrypt (srcBuff outBuff : List UInt8) (mode : Mode) (iv : Option (List UInt8)) (enc : Bool) :
    Outcome :=
  match checkKey key iv with
  | none => .undefined
  | some keyNum =>
    if keyNum = 0 then .failed
    else crypt (tripleFunctions ssl key keyNum enc) srcBuff outBuff mode (iv.getD [])

def encryptToHex (data : List UInt8) (mode : Mode) (pad : Padding) (iv : Option (List UInt8)) : Result :=
  encryptWith (fun srcBuff outBuff => desEncryptAndDecrypt ssl key srcBuff outBuff mode iv true) data pad

def decryptFromHex (srcBuff : List UInt8) (mode : Mode) (pad : Padding) (iv : Option (List UInt8)) : Result :=
  decryptWith (fun srcBuff outBuff => desEncryptAndDecrypt ssl key srcBuff outBuff mode iv false) srcBuff pad

def tripleDesEncryptToHex (data : List UInt8) (mode : Mode) (pad : Padding) (iv : Option (List UInt8)) : Result :=
  encryptWith (fun srcBuff outBuff => tripleDesEncryptAndDecrypt ssl key srcBuff outBuff mode iv true) data pad

def tripleDesDecryptFromHex (srcBuff : List UInt8) (mode : Mode) (pad : Padding) (iv : Option (List UInt8)) : Result :=
  decryptWith (fun srcBuff outBuff => tripleDesEncryptAndDecrypt ssl key srcBuff outBuff mode iv false) srcBuff pad

end

end Des

end BTool.Encrypt
