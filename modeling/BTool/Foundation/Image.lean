import BTool.Foundation.NetworkOrder

/-! The contents of a file or of a memory: ranges that are read and written over, and words of 64 bits
at some offset, with their lowest byte first. -/

namespace BTool.Foundation.Image

section

variable {Cell : Type} {image cells : List Cell} {fill : Cell} {start offset length place : Nat}

/-- A range of an image. -/
def piece (image : List Cell) (offset length : Nat) : List Cell := (image.drop offset).take length

/-- Cells laid over a range of an image. -/
def overwrite (image : List Cell) (offset : Nat) (cells : List Cell) : List Cell :=
  image.take offset ++ cells ++ image.drop (offset + cells.length)

/-- An image cut to a length, or filled up to it. -/
def truncate (fill : Cell) (image : List Cell) (length : Nat) : List Cell :=
  image.take length ++ List.replicate (length - image.length) fill

@[simp] theorem length_truncate : (truncate fill image length).length = length := by
  simp only [truncate, List.length_append, List.length_take, List.length_replicate]
  omega

theorem length_overwrite (fits : offset + cells.length ≤ image.length) :
    (overwrite image offset cells).length = image.length := by
  simp only [overwrite, List.length_append, List.length_take, List.length_drop]
  omega

theorem length_piece (within : offset + length ≤ image.length) :
    (piece image offset length).length = length := by
  simp only [piece, List.length_take, List.length_drop]
  omega

theorem getElem?_piece : (piece image offset length)[place]? =
    if place < length then image[offset + place]? else none := by
  rw [piece, List.getElem?_take, List.getElem?_drop]

theorem getElem?_overwrite (fits : offset + cells.length ≤ image.length) :
    (overwrite image offset cells)[place]? =
      if offset ≤ place ∧ place < offset + cells.length then cells[place - offset]? else image[place]? := by
  have front : (image.take offset).length = offset := List.length_take_of_le (by omega)
  unfold overwrite
  by_cases early : place < offset
  · rw [if_neg (by omega), List.append_assoc, List.getElem?_append_left (by omega),
      List.getElem?_take_of_lt early]
  · by_cases within : place < offset + cells.length
    · rw [if_pos ⟨by omega, within⟩, List.append_assoc, List.getElem?_append_right (by omega), front,
        List.getElem?_append_left (by omega)]
    · have both : (image.take offset ++ cells).length = offset + cells.length := by
        rw [List.length_append, front]
      rw [if_neg (by omega), List.getElem?_append_right (by omega), both, List.getElem?_drop]
      congr 1
      omega

theorem getElem?_truncate : (truncate fill image length)[place]? =
    if place < length then some (image[place]?.getD fill) else none := by
  unfold truncate
  by_cases within : place < length
  · rw [if_pos within]
    by_cases there : place < image.length
    · have front : place < (image.take length).length := by
        rw [List.length_take]
        omega
      rw [List.getElem?_append_left front, List.getElem?_take_of_lt within, List.getElem?_eq_getElem there]
      rfl
    · have front : (image.take length).length = image.length := by
        rw [List.length_take]
        omega
      rw [List.getElem?_append_right (by omega), front, List.getElem?_replicate, if_pos (by omega),
        List.getElem?_eq_none (by omega)]
      rfl
  · rw [if_neg within]
    exact List.getElem?_eq_none (by rw [← truncate, length_truncate]; omega)

theorem piece_overwrite_self (fits : offset + cells.length ≤ image.length) :
    piece (overwrite image offset cells) offset cells.length = cells := by
  apply List.ext_getElem?
  intro place
  rw [getElem?_piece, getElem?_overwrite fits]
  by_cases within : place < cells.length
  · rw [if_pos within, if_pos ⟨by omega, by omega⟩, Nat.add_sub_cancel_left]
  · rw [if_neg within, List.getElem?_eq_none (by omega)]

/-- What lies elsewhere is not changed. -/
theorem piece_overwrite_of_apart (fits : offset + cells.length ≤ image.length)
    (apart : start + length ≤ offset ∨ offset + cells.length ≤ start) :
    piece (overwrite image offset cells) start length = piece image start length := by
  apply List.ext_getElem?
  intro place
  rw [getElem?_piece, getElem?_piece, getElem?_overwrite fits]
  by_cases within : place < length
  · rw [if_pos within, if_pos within, if_neg (by omega)]
  · rw [if_neg within, if_neg within]

/-- Cutting an image keeps what is in front of the cut. -/
theorem piece_truncate (there : start + place ≤ image.length) (kept : start + place ≤ length) :
    piece (truncate fill image length) start place = piece image start place := by
  apply List.ext_getElem?
  intro index
  rw [getElem?_piece, getElem?_piece, getElem?_truncate]
  by_cases within : index < place
  · rw [if_pos within, if_pos within, if_pos (by omega), List.getElem?_eq_getElem (by omega)]
    rfl
  · rw [if_neg within, if_neg within]

theorem piece_append_piece (image : List Cell) (offset first second : Nat) :
    piece image offset first ++ piece image (offset + first) second =
      piece image offset (first + second) := by
  simp only [piece, List.take_add, List.drop_drop]

end

section

variable {image bytes : List UInt8} {offset place value length : Nat}

/-- The eight bytes of a word. -/
def wordBytes (value : Nat) : List UInt8 := (networkBytes 8 value).reverse

/-- The word at an offset. Bytes that are not there are zero. -/
def word (image : List UInt8) (offset : Nat) : Nat := networkNumber (piece image offset 8).reverse

def setWord (image : List UInt8) (offset value : Nat) : List UInt8 :=
  overwrite image offset (wordBytes value)

@[simp] theorem length_wordBytes (value : Nat) : (wordBytes value).length = 8 := by
  rw [wordBytes, List.length_reverse, length_networkBytes]

theorem length_setWord (fits : offset + 8 ≤ image.length) :
    (setWord image offset value).length = image.length :=
  length_overwrite (by rwa [length_wordBytes])

theorem word_setWord_self (fits : offset + 8 ≤ image.length) (small : value < 2 ^ 64) :
    word (setWord image offset value) offset = value := by
  have same : piece (setWord image offset value) offset 8 = wordBytes value := by
    have self := piece_overwrite_self (by rwa [length_wordBytes] :
      offset + (wordBytes value).length ≤ image.length)
    rwa [length_wordBytes] at self
  rw [word, same, wordBytes, List.reverse_reverse, networkNumber_of_lt small]

theorem piece_setWord (fits : offset + 8 ≤ image.length)
    (apart : place + length ≤ offset ∨ offset + 8 ≤ place) :
    piece (setWord image offset value) place length = piece image place length :=
  piece_overwrite_of_apart (by rwa [length_wordBytes]) (by rwa [length_wordBytes])

theorem word_setWord (fits : offset + 8 ≤ image.length) (apart : place + 8 ≤ offset ∨ offset + 8 ≤ place) :
    word (setWord image offset value) place = word image place := by
  rw [word, piece_setWord fits apart, word]

theorem word_overwrite (fits : offset + bytes.length ≤ image.length)
    (apart : place + 8 ≤ offset ∨ offset + bytes.length ≤ place) :
    word (overwrite image offset bytes) place = word image place := by
  rw [word, piece_overwrite_of_apart fits apart, word]

private theorem networkNumber_zeros (count : Nat) (bytes : List UInt8) :
    networkNumber (List.replicate count 0 ++ bytes) = networkNumber bytes := by
  induction count with
  | zero => rw [List.replicate_zero, List.nil_append]
  | succ count ih => rw [List.replicate_succ, List.cons_append, ← ih]; rfl

/-- A word in front of the cut stays, also where the image ends within it. -/
theorem word_truncate (kept : offset + 8 ≤ length) :
    word (truncate 0 image length) offset = word image offset := by
  have filled : piece (truncate 0 image length) offset 8 =
      piece image offset 8 ++ List.replicate (8 - (piece image offset 8).length) 0 := by
    apply List.ext_getElem?
    intro index
    have size : (piece image offset 8).length = min 8 (image.length - offset) := by
      simp [piece]
    rw [getElem?_piece, getElem?_truncate, List.getElem?_append, List.getElem?_replicate,
      getElem?_piece, size]
    by_cases within : index < 8
    · rw [if_pos within, if_pos (by omega), if_pos within]
      by_cases there : offset + index < image.length
      · rw [if_pos (by omega), List.getElem?_eq_getElem there]
        rfl
      · rw [if_neg (by omega), if_pos (by omega), List.getElem?_eq_none (by omega)]
        rfl
    · rw [if_neg within, if_neg (by omega), if_neg (by omega)]
  rw [word, filled, List.reverse_append, List.reverse_replicate, networkNumber_zeros, word]

private theorem networkNumber_eq_zero_iff (bytes : List UInt8) :
    networkNumber bytes = 0 ↔ ∀ byte ∈ bytes, byte = 0 := by
  induction bytes using List.reverseRecOn with
  | nil => simp [networkNumber]
  | append_singleton bytes byte ih =>
    have zero : byte.toNat = 0 ↔ byte = 0 := by rw [← UInt8.toNat_inj, UInt8.toNat_zero]
    rw [networkNumber_snoc, Nat.add_eq_zero_iff, Nat.mul_eq_zero, zero, or_iff_left (by decide), ih]
    simp [or_imp, forall_and]

/-- A word that is zero stays zero wherever the image is cut. -/
theorem word_truncate_zero (zero : word image offset = 0) : word (truncate 0 image length) offset = 0 := by
  rw [word, networkNumber_eq_zero_iff] at zero ⊢
  intro byte member
  obtain ⟨index, there⟩ := List.mem_iff_getElem?.mp (List.mem_reverse.mp member)
  rw [getElem?_piece, getElem?_truncate] at there
  split at there
  · rename_i within
    split at there
    · cases original : image[offset + index]? with
      | none => simpa [original] using there.symm
      | some found =>
        have same : found = byte := by simpa [original] using there
        refine zero byte (List.mem_reverse.mpr (List.mem_iff_getElem?.mpr ⟨index, ?_⟩))
        rw [getElem?_piece, if_pos within, original, same]
    · cases there
  · cases there

end

end BTool.Foundation.Image
