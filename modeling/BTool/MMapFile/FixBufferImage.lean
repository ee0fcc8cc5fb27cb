import BTool.MMapFile.FixBuffer

/-! The file of a `FixBuffer::Writer`, with the regions that were handed out of it. -/

namespace BTool.MMapFile

open BTool.Foundation BTool.Foundation.Image

namespace Fix

variable {image image' : List UInt8} {size length place : Nat} {regions : List (Region UInt8)}

/-- An image with another header. -/
structure SameData (image image' : List UInt8) : Prop where
  length : image'.length = image.length
  piece : ∀ start length, metaSize ≤ start → piece image' start length = piece image start length

theorem SameData.trans {image'' : List UInt8} (first : SameData image image')
    (second : SameData image' image'') : SameData image image'' :=
  ⟨second.length.trans first.length,
    fun start length behind => (second.piece start length behind).trans (first.piece start length behind)⟩

theorem sameData_setWord {offset value : Nat} (header : offset + 8 ≤ metaSize)
    (room : metaSize ≤ image.length) : SameData image (setWord image offset value) := by
  have fits : offset + 8 ≤ image.length := Nat.le_trans header room
  exact ⟨length_setWord fits, fun start length behind =>
    piece_setWord fits (.inr (Nat.le_trans header behind))⟩

theorem sameData_setHasFinished (finished : Bool) (room : metaSize ≤ image.length) :
    SameData image (setHasFinished image finished) := by
  unfold metaSize at room
  refine ⟨length_overwrite (by simp; omega), fun start length behind => ?_⟩
  unfold metaSize at behind
  exact piece_overwrite_of_apart (by simp; omega) (.inr (by simp; omega))

theorem hasFinished_setHasFinished (room : metaSize ≤ image.length) :
    hasFinished (setHasFinished image false) = false := by
  unfold metaSize at room
  have same : piece (overwrite image 0 [0]) 0 ([0] : List UInt8).length = [0] :=
    piece_overwrite_self (by simp; omega)
  rw [hasFinished, show piece (setHasFinished image false) 0 1 = [0] from same]
  rfl

theorem word_setHasFinished {offset : Nat} (finished : Bool) (behind : 1 ≤ offset)
    (room : metaSize ≤ image.length) :
    word (setHasFinished image finished) offset = word image offset := by
  unfold metaSize at room
  exact word_overwrite (by simp; omega) (.inr (by simp; omega))

private theorem opened_spec (room : metaSize ≤ image.length) (small : size < 2 ^ 64) :
    SameData image (setHasFinished (setFileSize image size) false) ∧
      hasFinished (setHasFinished (setFileSize image size) false) = false ∧
      fileSize (setHasFinished (setFileSize image size) false) = size ∧
      writeLen (setHasFinished (setFileSize image size) false) = writeLen image := by
  have sized : SameData image (setFileSize image size) := sameData_setWord (by decide) room
  have room' : metaSize ≤ (setFileSize image size).length := sized.length ▸ room
  have fits : 9 + 8 ≤ image.length := room
  refine ⟨sized.trans (sameData_setHasFinished false room'), hasFinished_setHasFinished room', ?_, ?_⟩
  · rw [fileSize, word_setHasFinished false (by decide) room', setFileSize, word_setWord_self fits small]
  · rw [writeLen, word_setHasFinished false (by decide) room', setFileSize,
      word_setWord fits (.inl (by decide)), writeLen]

/-- The header of a file that was opened, and the rest of it. -/
theorem setUp_spec (room : metaSize ≤ image.length) (small : size < 2 ^ 64) (anew : Bool) :
    SameData image (World.setUp image size anew) ∧ hasFinished (World.setUp image size anew) = false ∧
      fileSize (World.setUp image size anew) = size ∧
      writeLen (World.setUp image size anew) = if anew then 0 else writeLen image := by
  cases anew with
  | false => exact opened_spec room small
  | true =>
    have reset : SameData image (setHasFinished image false) := sameData_setHasFinished false room
    have room' : metaSize ≤ (setHasFinished image false).length := reset.length ▸ room
    have emptied : SameData image (setWriteLen (setHasFinished image false) 0) :=
      reset.trans (sameData_setWord (by decide) room')
    have room'' : metaSize ≤ (setWriteLen (setHasFinished image false) 0).length :=
      emptied.length ▸ room
    obtain ⟨same, unfinished, isSize, isWritten⟩ := opened_spec room'' small
    have fits : 1 + 8 ≤ (setHasFinished image false).length := Nat.le_trans (by decide) room'
    refine ⟨emptied.trans same, unfinished, isSize, isWritten.trans ?_⟩
    exact word_setWord_self fits (by decide)

/-- A file with what a writer has handed out of it. -/
structure Stored (image : List UInt8) (regions : List (Region UInt8)) : Prop where
  laid : Laid image metaSize (metaSize + writeLen image) regions
  fits : metaSize + writeLen image ≤ image.length ∨ writeLen image = 0 ∧ regions = []
  small : image.length < 2 ^ 63

/-- A file that is mapped up to a length. -/
structure Opened (image : List UInt8) (length : Nat) : Prop where
  unfinished : hasFinished image = false
  isSize : fileSize image = length
  room : metaSize + writeLen image ≤ length
  inFile : length ≤ image.length

theorem stored_empty : Stored [] [] :=
  ⟨.nil, .inr ⟨by decide, rfl⟩, by decide⟩

/-- A file is not cut where it is opened. -/
theorem Stored.truncate (stored : Stored image regions) (grows : image.length ≤ size)
    (small : size < 2 ^ 63) :
    writeLen (Image.truncate 0 image size) = writeLen image ∧
      Stored (Image.truncate 0 image size) regions := by
  have isLength : (Image.truncate 0 image size).length = size := length_truncate
  rcases stored.fits with fits | ⟨empty, rfl⟩
  · have kept : 1 + 8 ≤ size := by
      unfold metaSize at fits
      omega
    have same : writeLen (Image.truncate 0 image size) = writeLen image := word_truncate kept
    refine ⟨same, ?_, .inl (by rw [same, isLength]; omega), by rwa [isLength]⟩
    rw [same]
    exact stored.laid.congr fun start length _ within => piece_truncate (by omega) (by omega)
  · have same : writeLen (Image.truncate 0 image size) = 0 := word_truncate_zero empty
    exact ⟨same.trans empty.symm, .nil, .inr ⟨same, rfl⟩, by rwa [isLength]⟩

theorem Opened.truncate (opened : Opened image length) (grows : image.length ≤ size) :
    Opened (Image.truncate 0 image size) length := by
  have room := opened.room
  have inFile := opened.inFile
  unfold metaSize at room
  have written : writeLen (Image.truncate 0 image size) = writeLen image := word_truncate (by omega)
  refine ⟨?_, (word_truncate (by omega)).trans opened.isSize, written ▸ room, ?_⟩
  · rw [hasFinished, piece_truncate (by omega) (by omega)]
    exact opened.unfinished
  · rw [length_truncate]
    omega

/-- The header of a file that is opened is set. -/
theorem Stored.setUp (stored : Stored image regions) (room : metaSize ≤ image.length) (anew : Bool) :
    Stored (World.setUp image image.length anew) (if anew then [] else regions) ∧
      Opened (World.setUp image image.length anew) image.length := by
  have small : image.length < 2 ^ 64 := Nat.lt_trans stored.small (by decide)
  obtain ⟨same, unfinished, isSize, isWritten⟩ := setUp_spec room small anew
  have within : metaSize + writeLen (World.setUp image image.length anew) ≤ image.length := by
    rw [isWritten]
    rcases stored.fits with fits | ⟨empty, _⟩
    · split <;> omega
    · split <;> omega
  refine ⟨⟨?_, .inl (by rwa [same.length]), by rw [same.length]; exact stored.small⟩,
    unfinished, isSize, within, same.length.ge⟩
  cases anew with
  | true => exact .nil
  | false =>
    rw [isWritten]
    exact stored.laid.congr fun start length behind _ => same.piece start length behind

theorem free_eq (opened : Opened image length) (small : image.length < 2 ^ 63) :
    World.free image = length - (metaSize + writeLen image) := by
  have room := opened.room
  have inFile := opened.inFile
  have isSize := opened.isSize
  unfold metaSize at room
  rw [World.free, isSize, subSize_eq (show metaSize ≤ length by unfold metaSize; omega) (by omega),
    subSize_eq (show writeLen image ≤ length - metaSize by unfold metaSize; omega) (by omega),
    Nat.sub_sub]

/-- An image with other data behind the same header. -/
structure SameHeader (image image' : List UInt8) : Prop where
  length : image'.length = image.length
  hasFinished : hasFinished image' = hasFinished image
  writeLen : writeLen image' = writeLen image
  fileSize : fileSize image' = fileSize image

theorem sameHeader_overwrite {bytes : List UInt8} (behind : metaSize ≤ place)
    (fits : place + bytes.length ≤ image.length) : SameHeader image (overwrite image place bytes) := by
  unfold metaSize at behind
  refine ⟨length_overwrite fits, ?_, word_overwrite fits (.inl (by omega)),
    word_overwrite fits (.inl (by omega))⟩
  rw [hasFinished, piece_overwrite_of_apart fits (.inl (by omega)), hasFinished]

theorem Opened.sameHeader (opened : Opened image length) (same : SameHeader image image') :
    Opened image' length :=
  ⟨same.hasFinished.trans opened.unfinished, same.fileSize.trans opened.isSize,
    same.writeLen ▸ opened.room, same.length ▸ opened.inFile⟩

/-- The bytes behind the data are handed out. -/
theorem Stored.handOut (stored : Stored image regions) (opened : Opened image length) (bytes : List UInt8)
    (holds : piece image (metaSize + writeLen image) bytes.length = bytes)
    (room : metaSize + writeLen image + bytes.length ≤ length) :
    Stored (setWriteLen image (addSize (writeLen image) bytes.length))
        (regions ++ [⟨metaSize + writeLen image, bytes⟩]) ∧
      Opened (setWriteLen image (addSize (writeLen image) bytes.length)) length := by
  have small := stored.small
  have inFile := opened.inFile
  have header : metaSize ≤ image.length := by omega
  have fits : 1 + 8 ≤ image.length := Nat.le_trans (by decide) header
  have sum : addSize (writeLen image) bytes.length = writeLen image + bytes.length :=
    addSize_eq (by omega)
  have same : SameData image (setWriteLen image (writeLen image + bytes.length)) :=
    sameData_setWord (by decide) header
  have written : writeLen (setWriteLen image (writeLen image + bytes.length)) =
      writeLen image + bytes.length := word_setWord_self fits (by omega)
  rw [sum]
  refine ⟨⟨?_, .inl ?_, by rwa [same.length]⟩, ⟨?_, ?_, ?_, by rwa [same.length]⟩⟩
  · rw [written, ← Nat.add_assoc]
    refine (stored.laid.snoc (Nat.le_add_right ..) holds).congr ?_
    exact fun start length behind _ => same.piece start length behind
  · rw [written, same.length]
    omega
  · rw [hasFinished, setWriteLen, piece_setWord fits (.inl (by decide))]
    exact opened.unfinished
  · rw [fileSize, setWriteLen, word_setWord fits (.inr (by decide))]
    exact opened.isSize
  · rw [written]
    omega

/-- Data is written behind what there is. -/
theorem Stored.write (stored : Stored image regions) (opened : Opened image length) {msg : List UInt8}
    (room : metaSize + writeLen image + msg.length ≤ length) :
    let image' := overwrite image (metaSize + writeLen image) msg
    Stored (setWriteLen image' (addSize (writeLen image) msg.length))
        (regions ++ [⟨metaSize + writeLen image, msg⟩]) ∧
      Opened (setWriteLen image' (addSize (writeLen image) msg.length)) length := by
  intro image'
  have fits : metaSize + writeLen image + msg.length ≤ image.length := Nat.le_trans room opened.inFile
  have same : SameHeader image image' := sameHeader_overwrite (Nat.le_add_right ..) fits
  have stored' : Stored image' regions := by
    refine ⟨?_, ?_, by rw [same.length]; exact stored.small⟩
    · rw [same.writeLen]
      exact stored.laid.congr fun start length _ within => piece_overwrite_of_apart fits (.inl within)
    · rw [same.writeLen, same.length]
      exact stored.fits
  have handedOut := stored'.handOut (opened.sameHeader same) msg
  rw [same.writeLen] at handedOut
  exact handedOut (piece_overwrite_self fits) room

/-- The caller writes to a region. -/
theorem Stored.fill {front back : List (Region UInt8)} {region : Region UInt8} {bytes : List UInt8}
    (stored : Stored image (front ++ region :: back)) (opened : Opened image length)
    (same : bytes.length = region.cells.length) :
    Stored (overwrite image region.start bytes) (front ++ { region with cells := bytes } :: back) ∧
      Opened (overwrite image region.start bytes) length := by
  have inside : metaSize + writeLen image ≤ image.length := Nat.le_trans opened.room opened.inFile
  have behind := stored.laid.behind region (by simp)
  have within := stored.laid.within region (by simp)
  unfold Region.stop at within
  have header : SameHeader image (overwrite image region.start bytes) :=
    sameHeader_overwrite behind (by omega)
  refine ⟨⟨?_, .inl (by rw [header.writeLen, header.length]; exact inside),
    by rw [header.length]; exact stored.small⟩, opened.sameHeader header⟩
  rw [header.writeLen]
  exact stored.laid.fill same inside

end Fix

end BTool.MMapFile
