import Mathlib.Data.List.Basic

/-! Modes of operation of a block cipher, over texts of so many blocks of one size. -/

namespace BTool.Foundation

/-- One byte with one byte. -/
def xorBytes (text mask : List UInt8) : List UInt8 := List.zipWith (· ^^^ ·) text mask

section Xor

variable {text mask other : List UInt8} {position : Nat}

theorem length_xorBytes (same : mask.length = text.length) : (xorBytes text mask).length = text.length := by
  rw [xorBytes, List.length_zipWith, same, Nat.min_self]

/-- The same mask once more gives the text back. -/
theorem xorBytes_xorBytes (same : mask.length = text.length) : xorBytes (xorBytes text mask) mask = text := by
  induction text generalizing mask with
  | nil => rfl
  | cons byte text ih =>
    cases mask with
    | nil => cases same
    | cons bits mask =>
      have restored : byte ^^^ bits ^^^ bits = byte := by rw [UInt8.xor_assoc, UInt8.xor_self, UInt8.xor_zero]
      exact congrArg₂ List.cons restored (ih (Nat.succ.inj same))

/-- With another mask a byte comes back exactly where the masks are the same. -/
theorem getElem?_xorBytes_xorBytes (first : mask.length = text.length) (second : other.length = text.length)
    (inside : position < text.length) :
    (xorBytes (xorBytes text mask) other)[position]? = text[position]? ↔ mask[position]? = other[position]? := by
  induction text generalizing mask other position with
  | nil => cases inside
  | cons byte text ih =>
    cases mask with
    | nil => cases first
    | cons bits mask =>
      cases other with
      | nil => cases second
      | cons others other =>
        cases position with
        | zero =>
          change some (byte ^^^ bits ^^^ others) = some byte ↔ some bits = some others
          rw [Option.some.injEq, Option.some.injEq]
          constructor
          · intro same
            have gone := congrArg (byte ^^^ ·) same
            rw [← UInt8.xor_assoc, ← UInt8.xor_assoc, UInt8.xor_self, UInt8.zero_xor] at gone
            have equal := congrArg (· ^^^ others) gone
            rwa [UInt8.xor_assoc, UInt8.xor_self, UInt8.xor_zero, UInt8.zero_xor] at equal
          · rintro rfl
            rw [UInt8.xor_assoc, UInt8.xor_self, UInt8.xor_zero]
        | succ position => exact ih (Nat.succ.inj first) (Nat.succ.inj second) (Nat.lt_of_succ_lt_succ inside)

theorem xorBytes_append {front back frontMask backMask : List UInt8} (same : front.length = frontMask.length) :
    xorBytes (front ++ back) (frontMask ++ backMask) = xorBytes front frontMask ++ xorBytes back backMask :=
  List.zipWith_append same

end Xor

namespace BlockModes

/-- Every block by itself. -/
def ecb (size : Nat) (crypt : List UInt8 → List UInt8) : Nat → List UInt8 → List UInt8
  | 0, _ => []
  | count + 1, text => crypt (text.take size) ++ ecb size crypt count (text.drop size)

/-- Every block is first mixed with the cipher block before it. -/
def cbcEncrypt (size : Nat) (encrypt : List UInt8 → List UInt8) : Nat → List UInt8 → List UInt8 → List UInt8
  | 0, _, _ => []
  | count + 1, iv, text =>
    let block := encrypt (xorBytes (text.take size) iv)
    block ++ cbcEncrypt size encrypt count block (text.drop size)

def cbcDecrypt (size : Nat) (decrypt : List UInt8 → List UInt8) : Nat → List UInt8 → List UInt8 → List UInt8
  | 0, _, _ => []
  | count + 1, iv, cipher =>
    xorBytes (decrypt (cipher.take size)) iv ++
      cbcDecrypt size decrypt count (cipher.take size) (cipher.drop size)

/-- What the blocks are mixed with: the cipher block before each, encrypted. -/
def cfbStream (size : Nat) (encrypt : List UInt8 → List UInt8) : Nat → List UInt8 → List UInt8 → List UInt8
  | 0, _, _ => []
  | count + 1, iv, cipher =>
    encrypt iv ++ cfbStream size encrypt count (cipher.take size) (cipher.drop size)

def cfbEncrypt (size : Nat) (encrypt : List UInt8 → List UInt8) : Nat → List UInt8 → List UInt8 → List UInt8
  | 0, _, _ => []
  | count + 1, iv, text =>
    let block := xorBytes (text.take size) (encrypt iv)
    block ++ cfbEncrypt size encrypt count block (text.drop size)

def cfbDecrypt (size : Nat) (encrypt : List UInt8 → List UInt8) (count : Nat) (iv cipher : List UInt8) :
    List UInt8 :=
  xorBytes cipher (cfbStream size encrypt count iv cipher)

/-- The iv, encrypted again and again. -/
def ofbStream (encrypt : List UInt8 → List UInt8) : Nat → List UInt8 → List UInt8
  | 0, _ => []
  | count + 1, iv => encrypt iv ++ ofbStream encrypt count (encrypt iv)

def ofb (encrypt : List UInt8 → List UInt8) (count : Nat) (iv text : List UInt8) : List UInt8 :=
  xorBytes text (ofbStream encrypt count iv)

/-- One byte after the other is mixed with the first one of the encrypted register, into which the cipher byte is
shifted. -/
def cfb8Encrypt (encrypt : List UInt8 → List UInt8) : List UInt8 → List UInt8 → List UInt8
  | _, [] => []
  | iv, byte :: text =>
    let cipher := byte ^^^ (encrypt iv).headD 0
    cipher :: cfb8Encrypt encrypt (iv.tail ++ [cipher]) text

def cfb8Decrypt (encrypt : List UInt8 → List UInt8) : List UInt8 → List UInt8 → List UInt8
  | _, [] => []
  | iv, byte :: cipher => (byte ^^^ (encrypt iv).headD 0) :: cfb8Decrypt encrypt (iv.tail ++ [byte]) cipher

/-- Blocks become blocks. -/
def Sized (size : Nat) (crypt : List UInt8 → List UInt8) : Prop :=
  ∀ block, block.length = size → (crypt block).length = size

variable {size count : Nat} {encrypt decrypt : List UInt8 → List UInt8} {iv text cipher : List UInt8}

/-- The first block of a text, and the others. -/
private theorem length_split (sized : text.length = size * (count + 1)) :
    (text.take size).length = size ∧ (text.drop size).length = size * count := by
  rw [Nat.mul_succ] at sized
  rw [List.length_take, List.length_drop]
  omega

theorem length_ecb (encrypts : Sized size encrypt) (sized : text.length = size * count) :
    (ecb size encrypt count text).length = size * count := by
  induction count generalizing text with
  | zero => rfl
  | succ count ih =>
    obtain ⟨block, rest⟩ := length_split sized
    rw [ecb, List.length_append, encrypts _ block, ih rest, Nat.mul_succ, Nat.add_comm]

/-- A text of whole blocks keeps its length. -/
theorem length_ecb_of_dvd (encrypts : Sized size encrypt) (whole : size ∣ text.length) :
    (ecb size encrypt (text.length / size) text).length = text.length := by
  have blocks : text.length = size * (text.length / size) := (Nat.mul_div_cancel' whole).symm
  exact (length_ecb encrypts blocks).trans blocks.symm

/-- Only what becomes of blocks counts. -/
theorem ecb_congr {other : List UInt8 → List UInt8}
    (same : ∀ block, block.length = size → encrypt block = other block) (sized : text.length = size * count) :
    ecb size encrypt count text = ecb size other count text := by
  induction count generalizing text with
  | zero => rfl
  | succ count ih =>
    obtain ⟨block, rest⟩ := length_split sized
    rw [ecb, ecb, same _ block, ih rest]

theorem ecb_ecb (encrypts : Sized size encrypt)
    (inverse : ∀ block, block.length = size → decrypt (encrypt block) = block)
    (sized : text.length = size * count) : ecb size decrypt count (ecb size encrypt count text) = text := by
  induction count generalizing text with
  | zero => exact (List.length_eq_zero_iff.mp sized).symm
  | succ count ih =>
    obtain ⟨block, rest⟩ := length_split sized
    have first := encrypts _ block
    rw [ecb, ecb, List.take_left' first, List.drop_left' first, inverse _ block, ih rest,
      List.take_append_drop]

theorem length_cbcEncrypt (encrypts : Sized size encrypt) (start : iv.length = size)
    (sized : text.length = size * count) : (cbcEncrypt size encrypt count iv text).length = size * count := by
  induction count generalizing iv text with
  | zero => rfl
  | succ count ih =>
    obtain ⟨block, rest⟩ := length_split sized
    have first : (encrypt (xorBytes (text.take size) iv)).length = size :=
      encrypts _ ((length_xorBytes (start.trans block.symm)).trans block)
    rw [cbcEncrypt, List.length_append, first, ih first rest, Nat.mul_succ, Nat.add_comm]

theorem cbcDecrypt_cbcEncrypt (encrypts : Sized size encrypt)
    (inverse : ∀ block, block.length = size → decrypt (encrypt block) = block) (start : iv.length = size)
    (sized : text.length = size * count) :
    cbcDecrypt size decrypt count iv (cbcEncrypt size encrypt count iv text) = text := by
  induction count generalizing iv text with
  | zero => exact (List.length_eq_zero_iff.mp sized).symm
  | succ count ih =>
    obtain ⟨block, rest⟩ := length_split sized
    have mixed := (length_xorBytes (start.trans block.symm)).trans block
    have first := encrypts _ mixed
    rw [cbcEncrypt, cbcDecrypt, List.take_left' first, List.drop_left' first, inverse _ mixed,
      xorBytes_xorBytes (start.trans block.symm), ih first rest, List.take_append_drop]

theorem length_cfbStream (encrypts : Sized size encrypt) (start : iv.length = size)
    (sized : cipher.length = size * count) : (cfbStream size encrypt count iv cipher).length = size * count := by
  induction count generalizing iv cipher with
  | zero => rfl
  | succ count ih =>
    obtain ⟨block, rest⟩ := length_split sized
    rw [cfbStream, List.length_append, encrypts _ start, ih block rest, Nat.mul_succ, Nat.add_comm]

theorem length_cfbEncrypt (encrypts : Sized size encrypt) (start : iv.length = size)
    (sized : text.length = size * count) : (cfbEncrypt size encrypt count iv text).length = size * count := by
  induction count generalizing iv text with
  | zero => rfl
  | succ count ih =>
    obtain ⟨block, rest⟩ := length_split sized
    have first := (length_xorBytes ((encrypts _ start).trans block.symm)).trans block
    rw [cfbEncrypt, List.length_append, first, ih first rest, Nat.mul_succ, Nat.add_comm]

/-- The text is mixed with the stream that its cipher text gives. -/
theorem cfbEncrypt_eq (encrypts : Sized size encrypt) (start : iv.length = size)
    (sized : text.length = size * count) : cfbEncrypt size encrypt count iv text =
      xorBytes text (cfbStream size encrypt count iv (cfbEncrypt size encrypt count iv text)) := by
  induction count generalizing iv text with
  | zero =>
    rw [List.length_eq_zero_iff.mp sized]
    rfl
  | succ count ih =>
    obtain ⟨block, rest⟩ := length_split sized
    have mask := (encrypts _ start).trans block.symm
    have first := (length_xorBytes mask).trans block
    have split (stream : List UInt8) : xorBytes text (encrypt iv ++ stream) =
        xorBytes (text.take size) (encrypt iv) ++ xorBytes (text.drop size) stream := by
      rw [← xorBytes_append mask.symm, List.take_append_drop]
    rw [cfbEncrypt, cfbStream, List.take_left' first, List.drop_left' first, split, ← ih first rest]

theorem length_ofbStream (encrypts : Sized size encrypt) (start : iv.length = size) :
    (ofbStream encrypt count iv).length = size * count := by
  induction count generalizing iv with
  | zero => rfl
  | succ count ih =>
    have first := encrypts _ start
    rw [ofbStream, List.length_append, first, ih first, Nat.mul_succ, Nat.add_comm]

theorem length_cfb8Encrypt (encrypt : List UInt8 → List UInt8) (iv text : List UInt8) :
    (cfb8Encrypt encrypt iv text).length = text.length := by
  induction text generalizing iv with
  | nil => rfl
  | cons byte text ih => rw [cfb8Encrypt, List.length_cons, ih, List.length_cons]

theorem cfb8Decrypt_cfb8Encrypt (encrypt : List UInt8 → List UInt8) (iv text : List UInt8) :
    cfb8Decrypt encrypt iv (cfb8Encrypt encrypt iv text) = text := by
  induction text generalizing iv with
  | nil => rfl
  | cons byte text ih =>
    rw [cfb8Encrypt, cfb8Decrypt, ih, UInt8.xor_assoc, UInt8.xor_self, UInt8.xor_zero]

end BlockModes

end BTool.Foundation
