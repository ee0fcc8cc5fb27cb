import BTool.Foundation.Transition
import BTool.MMapFile.WholeFile

/-! What a call of `read` leaves behind when `mmap` fails: which readers return the same chunk with the
next call. A reader may be opened several times, and any call of the system may fail. -/

namespace BTool.MMapFile

open BTool.Foundation

/-- The calls of a reader, with what the system says of each. -/
inductive ReaderCall where
  | openFile (file : Option (List UInt8)) (itemSize : Int) (chunkSize : Nat)
  | read (calls : Calls)
  | close (munmap close : Bool)

namespace ChunkReader

def close (reader : ChunkReader) (munmap close : Bool) : ErrorT × ChunkReader :=
  (if close then .ok else .closeFail, (reader.cleanMmap munmap).2)

end ChunkReader

/-- The sizes of the files are those of `off_t`. -/
def ReaderCall.Fits : ReaderCall → Prop
  | .openFile (some file) _ _ => file.length < 2 ^ 63
  | _ => True

namespace Reader

def next (page : PageSize) (reader : ChunkReader) : ReaderCall → Option ChunkReader
  | .openFile file itemSize chunkSize => some (openFile reader file itemSize chunkSize).2
  | .read calls => some (read page calls reader).2.2
  | .close munmap close => some (reader.close munmap close).2

end Reader

namespace ReverseReader

/-- Only the destructor calls `close`, which is private. -/
def next (page : PageSize) (reader : ChunkReader) : ReaderCall → Option ChunkReader
  | .openFile file itemSize chunkSize => some (openFile reader file itemSize chunkSize).2
  | .read calls => some (read page calls reader).2.2
  | .close _ _ => none

end ReverseReader

/-- When `mmap` fails within a call, the next call returns the view that this one was to return. -/
def KeepsChunk (read : Calls → ChunkReader → ErrorT × View × ChunkReader) (reader : ChunkReader) : Prop :=
  ∀ calls, (read calls reader).1 = .mmapFail →
    ∃ view after after', read allSucceed reader = (.ok, view, after) ∧
      read allSucceed (read calls reader).2.2 = (.ok, view, after')

/-- The test by which a reader from the front finds that nothing is left. -/
def Reader.AtEnd (reader : ChunkReader) : Prop :=
  reader.fileSize ≤ addSize reader.curOffset reader.curReadLength

variable {page : PageSize} {reader reader' : ChunkReader} {calls : Calls}

/-- The sizes that a reader keeps of the file that was opened last. A file without bytes leaves the
count of the file before it. -/
structure Sized (reader : ChunkReader) : Prop where
  small : reader.fileSize < 2 ^ 63
  within : reader.chunkSize ≤ reader.fileSize
  few : reader.numChunks < 2 ^ 63
  counted : 0 < reader.chunkSize → reader.numChunks = chunkCount reader.fileSize reader.chunkSize

theorem sized_construct (itemSize : Int) : Sized (.construct itemSize) :=
  ⟨Nat.two_pow_pos 63, Nat.le_refl 0, Nat.two_pow_pos 63, fun some => absurd some (Nat.lt_irrefl 0)⟩

/-- The sizes are those of another state. -/
structure SameSizes (reader reader' : ChunkReader) : Prop where
  fileSize : reader'.fileSize = reader.fileSize
  chunkSize : reader'.chunkSize = reader.chunkSize
  numChunks : reader'.numChunks = reader.numChunks

theorem Sized.same (sized : Sized reader) (same : SameSizes reader reader') : Sized reader' := by
  obtain ⟨small, within, few, counted⟩ := sized
  obtain ⟨fileSize, chunkSize, numChunks⟩ := same
  refine ⟨?_, ?_, ?_, ?_⟩
  · rwa [fileSize]
  · rwa [fileSize, chunkSize]
  · rwa [numChunks]
  · rwa [fileSize, chunkSize, numChunks]

theorem Sized.openSizes (sized : Sized reader) {file : Option (List UInt8)} {itemSize : Int}
    {chunkSize : Nat} (fits : (ReaderCall.openFile file itemSize chunkSize).Fits) :
    Sized (reader.openSizes file itemSize chunkSize).2 := by
  obtain _ | content := file
  · exact sized.same ⟨rfl, rfl, rfl⟩
  · obtain ⟨wanted, isWanted⟩ : ∃ wanted, wanted = mulSize chunkSize (itemSize % 2 ^ 64).toNat := ⟨_, rfl⟩
    have small : content.length < 2 ^ 63 := fits
    obtain ⟨size, isSize⟩ : ∃ size, size = if content.length < wanted then content.length else wanted :=
      ⟨_, rfl⟩
    have within : size ≤ content.length := by split at isSize <;> omega
    have count : (if 0 < size then subSize (addSize content.length size) 1 / size else reader.numChunks) =
        if 0 < size then chunkCount content.length size else reader.numChunks := by
      rw [addSize_eq (by omega), chunkCount]
      split
      · rw [subSize_eq (by omega) (by omega)]
      · rfl
    have few : chunkCount content.length size ≤ content.length := chunkCount_le
    simp only [ChunkReader.openSizes, ← isWanted, ← isSize, count]
    refine ⟨small, within, ?_, ?_⟩
    · have := sized.few
      show (if 0 < size then chunkCount content.length size else reader.numChunks) < 2 ^ 63
      split <;> omega
    · intro some
      exact if_pos some

/-- The reader after `clean_mmap`, whether or not it succeeds. -/
def cleaned (reader : ChunkReader) : ChunkReader :=
  { reader with curReadAddr := none }

theorem cleanMmap_cases (reader : ChunkReader) (succeeds : Bool) :
    reader.cleanMmap succeeds = (.ok, cleaned reader) ∨
      succeeds = false ∧ reader.cleanMmap succeeds = (.munmapFail, cleaned reader) := by
  unfold ChunkReader.cleanMmap cleaned
  split
  · rename_i unmapped
    exact .inl (by rw [← unmapped])
  · cases succeeds
    · exact .inr ⟨rfl, rfl⟩
    · exact .inl rfl

/-- How a call of `read` ends: `munmap` fails, nothing is left, `mmap` fails for the chunk at which the
reader is placed, or that chunk is shown and the reader goes on. -/
inductive Outcome (page : PageSize) (calls : Calls) (atEnd : Prop) (reader placed : ChunkReader)
    (advance : ChunkReader → ChunkReader) : ErrorT × View × ChunkReader → Prop where
  | munmapFail (failed : calls.munmap = false) :
      Outcome page calls atEnd reader placed advance (.munmapFail, .empty, cleaned reader)
  | nothing (all : atEnd) : Outcome page calls atEnd reader placed advance (.ok, .empty, cleaned reader)
  | mmapFail (more : ¬ atEnd) (failed : placed.mapCurrent page calls.mmap = none) :
      Outcome page calls atEnd reader placed advance (.mmapFail, .empty, placed)
  | shown (more : ¬ atEnd) (mapping : Mapping)
      (mapped : placed.mapCurrent page calls.mmap = some mapping) :
      Outcome page calls atEnd reader placed advance
        (.ok, placed.currentView mapping, advance { placed with curReadAddr := some mapping })

namespace Reader

/-- Where the reader is when it calls `mmap`. -/
def placed (page : PageSize) (reader : ChunkReader) : ChunkReader :=
  (cleaned reader).calcCurrent page

theorem read_outcome (page : PageSize) (calls : Calls) (reader : ChunkReader) :
    Outcome page calls (AtEnd reader) reader (placed page reader) ChunkReader.nextChunk
      (read page calls reader) := by
  obtain succeeds | ⟨failed, fails⟩ := cleanMmap_cases reader calls.munmap
  · by_cases atEnd : AtEnd reader
    · have outcome : read page calls reader = (.ok, .empty, cleaned reader) := by
        unfold AtEnd at atEnd
        simp only [read, succeeds, cleaned, ne_eq, not_true_eq_false, if_false, if_pos atEnd]
      rw [outcome]
      exact .nothing atEnd
    · have outcome : read page calls reader =
          let shown := (placed page reader).showCurrent page calls.mmap
          (shown.1, shown.2.1, if shown.1 = .ok then shown.2.2.nextChunk else shown.2.2) := by
        unfold AtEnd at atEnd
        simp only [read, succeeds, placed, cleaned, ne_eq, not_true_eq_false, if_false, if_neg atEnd]
        rfl
      rw [outcome]
      unfold ChunkReader.showCurrent
      cases mapped : (placed page reader).mapCurrent page calls.mmap with
      | none => exact .mmapFail atEnd mapped
      | some mapping => exact .shown atEnd mapping mapped
  · have outcome : read page calls reader = (.munmapFail, .empty, cleaned reader) := by
      simp only [read, fails, ne_eq, reduceCtorEq, not_false_eq_true, if_true]
    rw [outcome]
    exact .munmapFail failed

end Reader

namespace ReverseReader

/-- Where the reader is when it calls `mmap`. -/
def placed (page : PageSize) (reader : ChunkReader) : ChunkReader :=
  calcCurrent page (cleaned reader)

theorem read_outcome (page : PageSize) (calls : Calls) (reader : ChunkReader) :
    Outcome page calls (reader.curChunkIndex = 0) reader (placed page reader) id
      (read page calls reader) := by
  obtain succeeds | ⟨failed, fails⟩ := cleanMmap_cases reader calls.munmap
  · by_cases first : reader.curChunkIndex = 0
    · have outcome : read page calls reader = (.ok, .empty, cleaned reader) := by
        simp only [read, succeeds, cleaned, ne_eq, not_true_eq_false, if_false, if_pos first]
      rw [outcome]
      exact .nothing first
    · have outcome : read page calls reader = (placed page reader).showCurrent page calls.mmap := by
        simp only [read, succeeds, placed, cleaned, ne_eq, not_true_eq_false, if_false, if_neg first]
      rw [outcome]
      unfold ChunkReader.showCurrent
      cases mapped : (placed page reader).mapCurrent page calls.mmap with
      | none => exact .mmapFail first mapped
      | some mapping => exact .shown first mapping mapped
  · have outcome : read page calls reader = (.munmapFail, .empty, cleaned reader) := by
      simp only [read, fails, ne_eq, reduceCtorEq, not_false_eq_true, if_true]
    rw [outcome]
    exact .munmapFail failed

end ReverseReader

theorem mapCurrent_eq_none_iff (aligned : page.size ∣ reader.paOffset) :
    reader.mapCurrent page true = none ↔
      subSize (addSize reader.curReadLength reader.curOffset) reader.paOffset = 0 := by
  rw [ChunkReader.mapCurrent, mmap]
  split
  · rename_i mapped
    simp [mapped.2.1]
  · rename_i unmapped
    simp only [true_iff]
    by_contra some
    exact unmapped ⟨rfl, some, aligned⟩

theorem mapCurrent_nonempty {succeeds : Bool} {mapping : Mapping}
    (mapped : reader.mapCurrent page succeeds = some mapping) : mapping.length ≠ 0 := by
  unfold ChunkReader.mapCurrent mmap at mapped
  split at mapped
  · rename_i called
    cases mapped
    exact called.2.1
  · exact absurd mapped (by simp)

section

variable {read : Calls → ChunkReader → ErrorT × View × ChunkReader} {atEnd : Prop} {place : ChunkReader}
  {advance : ChunkReader → ChunkReader}

/-- After a failure the next call starts from where the reader was placed for the chunk. -/
theorem keepsChunk_iff
    (outcome : ∀ calls, Outcome page calls atEnd reader place advance (read calls reader)) :
    KeepsChunk read reader ↔ ¬ atEnd → ∃ mapping after', place.mapCurrent page true = some mapping ∧
      read allSucceed place = (.ok, place.currentView mapping, after') := by
  constructor
  · intro keeps more
    have fails : read ⟨true, false⟩ reader = (.mmapFail, .empty, place) := by
      have outcome := outcome ⟨true, false⟩
      generalize read ⟨true, false⟩ reader = result at outcome
      cases outcome with
      | munmapFail failed => exact absurd failed (by decide)
      | nothing all => exact absurd all more
      | mmapFail _ _ => rfl
      | shown _ mapping mapped => simp [ChunkReader.mapCurrent, mmap] at mapped
    obtain ⟨view, after, after', isView, again⟩ := keeps ⟨true, false⟩ (by rw [fails])
    rw [fails] at again
    have outcome := outcome allSucceed
    rw [isView] at outcome
    cases outcome with
    | nothing all => exact absurd all more
    | shown _ mapping mapped => exact ⟨mapping, after', mapped, again⟩
  · intro kept calls failed
    have outcome' := outcome calls
    generalize read calls reader = result at outcome' failed ⊢
    cases outcome' with
    | munmapFail _ => cases failed
    | nothing _ => cases failed
    | shown _ _ _ => cases failed
    | mmapFail more _ =>
      obtain ⟨mapping, after', mapped, again⟩ := kept more
      have outcome := outcome allSucceed
      generalize read allSucceed reader = result at outcome ⊢
      cases outcome with
      | munmapFail failed => exact absurd failed (by decide)
      | nothing all => exact absurd all more
      | mmapFail _ unmapped => exact absurd (mapped.symm.trans unmapped) (by simp)
      | shown _ mapping' mapped' =>
        cases mapped.symm.trans mapped'
        exact ⟨_, _, after', rfl, again⟩

end

/-- The mask leaves the offset of a chunk at a page. -/
theorem dvd_calcCurrent : page.size ∣ (reader.calcCurrent page).paOffset :=
  page.dvd_alignDown (Nat.mod_lt _ (Nat.two_pow_pos 64))

namespace Reader

theorem dvd_placed : page.size ∣ (placed page reader).paOffset :=
  dvd_calcCurrent

theorem atEnd_iff_of_shown {mapping : Mapping}
    (mapped : (placed page reader).mapCurrent page true = some mapping) :
    (∃ after', read page allSucceed (placed page reader) =
      (.ok, (placed page reader).currentView mapping, after')) ↔
      ¬ AtEnd (placed page reader) := by
  have outcome := read_outcome page allSucceed (placed page reader)
  have same : placed page (placed page reader) = placed page reader := rfl
  rw [same] at outcome
  generalize read page allSucceed (placed page reader) = result at outcome ⊢
  cases outcome with
  | munmapFail failed => exact absurd failed (by decide)
  | nothing all =>
    refine iff_of_false ?_ (not_not_intro all)
    rintro ⟨after', shown⟩
    simp only [View.empty, ChunkReader.currentView, Prod.mk.injEq, View.mk.injEq] at shown
    exact mapCurrent_nonempty mapped (by rw [← shown.2.1.1])
  | mmapFail _ unmapped => exact absurd (mapped.symm.trans unmapped) (by simp)
  | shown more mapping' mapped' =>
    cases mapped.symm.trans mapped'
    exact iff_of_true ⟨_, rfl⟩ more

/-- At the last chunk the reader is placed at the end of the file. -/
theorem placed_atEnd (sized : Sized reader) (last : subSize reader.numChunks 1 ≤ reader.curChunkIndex) :
    AtEnd (placed page reader) := by
  have small := sized.small
  have isOffset : (placed page reader).curOffset < 2 ^ 64 := Nat.mod_lt _ (Nat.two_pow_pos 64)
  have isLength : (placed page reader).curReadLength =
      subSize reader.fileSize (placed page reader).curOffset :=
    if_neg (Nat.not_lt.mpr last)
  have isSize : (placed page reader).fileSize = reader.fileSize := rfl
  rw [AtEnd, isLength, isSize]
  unfold addSize subSize
  omega

theorem placed_next (page : PageSize) (sized : Sized reader) (some : 0 < reader.chunkSize)
    (more : reader.curChunkIndex + 1 < reader.numChunks) :
    (placed page reader).mapCurrent page true ≠ none ∧ ¬ AtEnd (placed page reader) := by
  have small := sized.small
  have within := sized.within
  have few := sized.few
  have next : (reader.curChunkIndex + 1) * reader.chunkSize < reader.fileSize :=
    mul_lt_of_lt_chunkCount some (by rwa [← sized.counted some])
  rw [Nat.succ_mul] at next
  have isLast : subSize reader.numChunks 1 = reader.numChunks - 1 := subSize_eq (by omega) (by omega)
  have fits : reader.curChunkIndex * reader.chunkSize < 2 ^ 64 := by omega
  have isOffset : (placed page reader).curOffset = reader.curChunkIndex * reader.chunkSize :=
    mulSize_eq fits
  have isLength : (placed page reader).curReadLength = reader.chunkSize :=
    if_pos (show reader.curChunkIndex < subSize reader.numChunks 1 by omega)
  constructor
  · rw [ne_eq, mapCurrent_eq_none_iff dvd_placed, isOffset, isLength]
    have below : (placed page reader).paOffset ≤ (placed page reader).curOffset := page.alignDown_le _
    rw [isOffset] at below
    rw [addSize_eq (by omega), subSize_eq (by omega) (by omega)]
    omega
  · unfold AtEnd
    rw [isOffset, isLength, addSize_eq (by omega)]
    exact Nat.not_le.mpr next

theorem next_of_placed (sized : Sized reader) (mapped : (placed page reader).mapCurrent page true ≠ none)
    (more : ¬ AtEnd (placed page reader)) :
    0 < reader.chunkSize ∧ reader.curChunkIndex + 1 < reader.numChunks := by
  have early : reader.curChunkIndex < subSize reader.numChunks 1 :=
    Nat.lt_of_not_le fun last => more (placed_atEnd sized last)
  have isLength : (placed page reader).curReadLength = reader.chunkSize := if_pos early
  have some : 0 < reader.chunkSize := by
    refine Nat.pos_of_ne_zero fun none => mapped ?_
    have isOffset : (placed page reader).curOffset = 0 := by
      simp only [placed, cleaned, ChunkReader.calcCurrent, none, mulSize, Nat.mul_zero, Nat.zero_mod]
    have isPage : (placed page reader).paOffset = 0 :=
      Nat.le_zero.mp (isOffset ▸ page.alignDown_le (placed page reader).curOffset)
    rw [mapCurrent_eq_none_iff dvd_placed, isOffset, isLength, isPage, none]
    rfl
  have one : 0 < reader.numChunks := by
    have within := sized.within
    rw [sized.counted some]
    exact lt_chunkCount_of_mul_lt some (by omega)
  have few := sized.few
  rw [subSize_eq one (by omega)] at early
  exact ⟨some, by omega⟩

/-- A reader from the front keeps its place unless the chunk is the last one, or there is none. -/
theorem keepsChunk_iff (sized : Sized reader) :
    KeepsChunk (read page) reader ↔
      AtEnd reader ∨ 0 < reader.chunkSize ∧ reader.curChunkIndex + 1 < reader.numChunks := by
  rw [MMapFile.keepsChunk_iff (read_outcome page · reader)]
  constructor
  · intro keeps
    by_cases atEnd : AtEnd reader
    · exact .inl atEnd
    · obtain ⟨mapping, after', mapped, again⟩ := keeps atEnd
      have isMapped : (placed page reader).mapCurrent page true ≠ none := by simp [mapped]
      exact .inr (next_of_placed sized isMapped ((atEnd_iff_of_shown mapped).mp ⟨after', again⟩))
  · rintro (atEnd | ⟨some, more⟩) notAll
    · exact absurd atEnd notAll
    · obtain ⟨mapped, notAll⟩ := placed_next page sized some more
      obtain ⟨mapping, mapped⟩ := Option.ne_none_iff_exists'.mp mapped
      obtain ⟨after', again⟩ := (atEnd_iff_of_shown mapped).mpr notAll
      exact ⟨mapping, after', mapped, again⟩

end Reader

namespace ReverseReader

theorem dvd_placed : page.size ∣ (placed page reader).paOffset :=
  dvd_calcCurrent

theorem index_placed (page : PageSize) (more : reader.curChunkIndex ≠ 0)
    (small : reader.curChunkIndex < 2 ^ 64) :
    (placed page reader).curChunkIndex = reader.curChunkIndex - 1 := by
  have isIndex : (placed page reader).curChunkIndex = subSize reader.curChunkIndex 1 := rfl
  rw [isIndex, subSize_eq (Nat.one_le_iff_ne_zero.mpr more) small]

/-- The place of a view in the file is the offset of the chunk. -/
theorem start_placed {mapping : Mapping}
    (mapped : (placed page reader).mapCurrent page true = some mapping) :
    mapping.offset + ((placed page reader).currentView mapping).start =
      (placed page reader).curOffset := by
  have isOffset : mapping.offset = (placed page reader).paOffset := by
    unfold ChunkReader.mapCurrent mmap at mapped
    split at mapped
    · exact (congrArg Mapping.offset (Option.some.inj mapped)).symm
    · exact absurd mapped (by simp)
  have below : (placed page reader).paOffset ≤ (placed page reader).curOffset := page.alignDown_le _
  have small : (placed page reader).curOffset < 2 ^ 64 := Nat.mod_lt _ (Nat.two_pow_pos 64)
  simp only [ChunkReader.currentView, isOffset, subSize_eq below small]
  exact Nat.add_sub_cancel' below

/-- The chunk before another begins before it, unless no chunk has bytes and that one is not mapped. -/
theorem placed_apart {mapping mapping' : Mapping} (sized : Sized reader)
    (within : reader.curChunkIndex ≤ reader.numChunks) (more : reader.curChunkIndex ≠ 0)
    (moreStill : (placed page reader).curChunkIndex ≠ 0)
    (mapped : (placed page reader).mapCurrent page true = some mapping)
    (mapped' : (placed page (placed page reader)).mapCurrent page true = some mapping') :
    (placed page reader).currentView mapping ≠
      (placed page (placed page reader)).currentView mapping' := by
  have few := sized.few
  have small := sized.small
  have isIndex := index_placed page more (by omega)
  have isIndex' := index_placed page moreStill (by omega)
  rw [isIndex, Nat.sub_sub] at isIndex'
  have isOffset : (placed page reader).curOffset =
      mulSize (placed page reader).curChunkIndex reader.chunkSize := rfl
  have isOffset' : (placed page (placed page reader)).curOffset =
      mulSize (placed page (placed page reader)).curChunkIndex reader.chunkSize := rfl
  obtain none | some := Nat.eq_zero_or_pos reader.chunkSize
  · have early : (placed page (placed page reader)).curChunkIndex < subSize reader.numChunks 1 := by
      rw [isIndex', subSize_eq (by omega) (by omega)]
      omega
    have isLength : (placed page (placed page reader)).curReadLength = 0 := (if_pos early).trans none
    have isStart : (placed page (placed page reader)).curOffset = 0 := by
      rw [isOffset', none, mulSize, Nat.mul_zero, Nat.zero_mod]
    have isPage : (placed page (placed page reader)).paOffset = 0 :=
      Nat.le_zero.mp (isStart ▸ page.alignDown_le (placed page (placed page reader)).curOffset)
    have unmapped : (placed page (placed page reader)).mapCurrent page true = Option.none := by
      rw [mapCurrent_eq_none_iff dvd_placed, isStart, isLength, isPage]
      rfl
    exact absurd (mapped'.symm.trans unmapped) (by simp)
  · intro same
    have within' : (reader.curChunkIndex - 1) * reader.chunkSize < reader.fileSize :=
      mul_lt_of_lt_chunkCount some (by rw [← sized.counted some]; omega)
    have step : (reader.curChunkIndex - 2 + 1) * reader.chunkSize =
        (reader.curChunkIndex - 2) * reader.chunkSize + reader.chunkSize := Nat.succ_mul _ _
    rw [show reader.curChunkIndex - 2 + 1 = reader.curChunkIndex - 1 by omega] at step
    have fits : (reader.curChunkIndex - 2) * reader.chunkSize < 2 ^ 64 := by omega
    have before := start_placed mapped
    have before' := start_placed mapped'
    have sameMapping : mapping = mapping' := congrArg View.mapping same
    rw [isOffset, isIndex, mulSize_eq (by omega), same, sameMapping] at before
    rw [isOffset', isIndex', mulSize_eq fits] at before'
    omega

/-- A reader from the end never keeps its place. -/
theorem keepsChunk_iff (sized : Sized reader) (within : reader.curChunkIndex ≤ reader.numChunks) :
    KeepsChunk (read page) reader ↔ reader.curChunkIndex = 0 := by
  rw [MMapFile.keepsChunk_iff (read_outcome page · reader)]
  constructor
  · intro keeps
    by_contra more
    obtain ⟨mapping, after', mapped, again⟩ := keeps more
    have outcome := read_outcome page allSucceed (placed page reader)
    rw [again] at outcome
    generalize isView : (placed page reader).currentView mapping = view at outcome
    cases outcome with
    | nothing _ =>
      simp only [View.empty, ChunkReader.currentView, View.mk.injEq] at isView
      exact mapCurrent_nonempty mapped (by rw [isView.1])
    | shown moreStill mapping' mapped' =>
      exact placed_apart sized within more moreStill mapped mapped' isView
  · intro first more
    exact absurd first more

end ReverseReader

theorem Outcome.sameSizes {atEnd : Prop} {place : ChunkReader} {advance : ChunkReader → ChunkReader}
    {result : ErrorT × View × ChunkReader}
    (outcome : Outcome page calls atEnd reader place advance result)
    (placed : SameSizes reader place)
    (advanced : ∀ address, SameSizes reader (advance { place with curReadAddr := address })) :
    SameSizes reader result.2.2 := by
  cases outcome with
  | munmapFail _ => exact ⟨rfl, rfl, rfl⟩
  | nothing _ => exact ⟨rfl, rfl, rfl⟩
  | mmapFail _ _ => exact placed
  | shown _ _ _ => exact advanced _

theorem Reader.next_sized {call : ReaderCall} (sized : Sized reader) (fits : call.Fits)
    (taken : Reader.next page reader call = some reader') : Sized reader' := by
  cases call with
  | openFile file itemSize chunkSize =>
    cases taken
    exact sized.openSizes fits
  | read calls =>
    cases taken
    have outcome := Reader.read_outcome page calls reader
    exact sized.same (outcome.sameSizes ⟨rfl, rfl, rfl⟩ fun _ => ⟨rfl, rfl, rfl⟩)
  | close munmap close =>
    cases taken
    obtain same | ⟨_, same⟩ := cleanMmap_cases reader munmap
    · rw [ChunkReader.close, same]
      exact sized.same ⟨rfl, rfl, rfl⟩
    · rw [ChunkReader.close, same]
      exact sized.same ⟨rfl, rfl, rfl⟩

/-- A reader from the end is never behind the last chunk. -/
structure Bounded (reader : ChunkReader) : Prop where
  sized : Sized reader
  within : reader.curChunkIndex ≤ reader.numChunks

theorem ReverseReader.next_bounded {call : ReaderCall} (bounded : Bounded reader) (fits : call.Fits)
    (taken : ReverseReader.next page reader call = some reader') : Bounded reader' := by
  obtain ⟨sized, within⟩ := bounded
  cases call with
  | openFile file itemSize chunkSize =>
    cases taken
    have opened := sized.openSizes fits
    obtain _ | content := file
    · exact ⟨opened, within⟩
    · exact ⟨⟨opened.small, opened.within, opened.few, opened.counted⟩, Nat.le_refl _⟩
  | read calls =>
    cases taken
    have outcome := ReverseReader.read_outcome page calls reader
    refine ⟨sized.same (outcome.sameSizes ⟨rfl, rfl, rfl⟩ fun _ => ⟨rfl, rfl, rfl⟩), ?_⟩
    have back (more : reader.curChunkIndex ≠ 0) :
        (ReverseReader.placed page reader).curChunkIndex ≤ reader.numChunks := by
      have few := sized.few
      rw [ReverseReader.index_placed page more (by omega)]
      omega
    generalize ReverseReader.read page calls reader = result at outcome ⊢
    cases outcome with
    | munmapFail _ => exact within
    | nothing _ => exact within
    | mmapFail more _ => exact back more
    | shown more _ _ => exact back more
  | close _ _ => cases taken

/-- After any calls of a reader: one from the front shows the chunk again after a failure just if it is at
the end anyway or has another chunk behind this one, and one from the end just if no chunk is left before
it. -/
theorem chunk_kept_iff (page : PageSize) (itemSize : Int) (calls : List ReaderCall)
    (reader : ChunkReader) (fits : ∀ call ∈ calls, call.Fits) :
    (Path (Taken (Reader.next page)) (.construct itemSize) calls reader →
      (KeepsChunk (Reader.read page) reader ↔
        Reader.AtEnd reader ∨ 0 < reader.chunkSize ∧ reader.curChunkIndex + 1 < reader.numChunks)) ∧
    (Path (Taken (ReverseReader.next page)) (.construct itemSize) calls reader →
      (KeepsChunk (ReverseReader.read page) reader ↔ reader.curChunkIndex = 0)) := by
  constructor
  · intro path
    refine Reader.keepsChunk_iff ?_
    exact (path.guard fits).invariant Sized
      (fun _ _ _ sized taken => Reader.next_sized sized taken.1 taken.2) (sized_construct itemSize)
  · intro path
    have bounded : Bounded reader := (path.guard fits).invariant Bounded
      (fun _ _ _ bounded taken => ReverseReader.next_bounded bounded taken.1 taken.2)
      ⟨sized_construct itemSize, Nat.le_refl 0⟩
    exact ReverseReader.keepsChunk_iff bounded.sized bounded.within

/-- Two chunks of one byte: before the first one fails, and before the last one does. -/
theorem chunk_kept_iff_two_chunks :
    KeepsChunk (Reader.read ⟨4096, 12, by decide, rfl⟩)
        (Reader.openFile (.construct 1) (some [7, 8]) 1 1).2 ∧
      ¬ KeepsChunk (ReverseReader.read ⟨4096, 12, by decide, rfl⟩)
        (ReverseReader.openFile (.construct 1) (some [7, 8]) 1 1).2 := by
  have fits : ∀ call ∈ [ReaderCall.openFile (some [7, 8]) 1 1], call.Fits := by
    intro call member
    obtain rfl := List.mem_singleton.mp member
    exact show [7, 8].length < 2 ^ 63 by decide
  constructor
  · exact ((chunk_kept_iff _ 1 _ _ fits).1 (.cons rfl (.nil _))).mpr (.inr (by decide +kernel))
  · exact fun keeps => absurd
      (((chunk_kept_iff _ 1 _ _ fits).2 (.cons rfl (.nil _))).mp keeps) (by decide +kernel)

/-- The only chunk of a file is not shown again, from whichever end it is read. -/
theorem last_chunk_lost :
    ∃ forward backward : ChunkReader,
      Path (Taken (Reader.next ⟨4096, 12, by decide, rfl⟩)) (.construct 1)
        [.openFile (some [7]) 1 1] forward ∧
      Path (Taken (ReverseReader.next ⟨4096, 12, by decide, rfl⟩)) (.construct 1)
        [.openFile (some [7]) 1 1] backward ∧
      ¬ KeepsChunk (Reader.read ⟨4096, 12, by decide, rfl⟩) forward ∧
      ¬ KeepsChunk (ReverseReader.read ⟨4096, 12, by decide, rfl⟩) backward := by
  refine ⟨_, _, .cons rfl (.nil _), .cons rfl (.nil _), ?_, ?_⟩
  · intro keeps
    obtain ⟨view, after, after', shown, again⟩ := keeps ⟨true, false⟩ (by decide +kernel)
    have same := (congrArg (·.2.1) shown).trans (congrArg (·.2.1) again).symm
    exact absurd same (by decide +kernel)
  · intro keeps
    obtain ⟨view, after, after', shown, again⟩ := keeps ⟨true, false⟩ (by decide +kernel)
    have same := (congrArg (·.2.1) shown).trans (congrArg (·.2.1) again).symm
    exact absurd same (by decide +kernel)

end BTool.MMapFile
