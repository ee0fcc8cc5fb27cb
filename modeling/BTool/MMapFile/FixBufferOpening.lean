import BTool.MMapFile.FixBufferImage

/-! What is promised of a `FixBuffer::Writer` at any time, and what an opening leaves of it. -/

namespace BTool.MMapFile

open BTool.Foundation BTool.Foundation.Image

namespace Fix

variable {image : List UInt8} {size : Nat}

namespace World

variable {File : Type} {page : PageSize} {world after : World File} {file : File}

structure Kept (world : World File) : Prop where
  absent : ∀ file, world.files file = none → world.regions file = []
  stored : ∀ file image, world.files file = some image → Stored image (world.regions file)
  opened : ∀ file length, world.mapped = some (file, length) →
    ∃ image, world.files file = some image ∧ Opened image length

/-- What the claim promises of a writer at any time. -/
structure Holds (world : World File) : Prop where
  running : world.strayed = false
  fitted : world.fitted = true
  /-- The subtraction of the free space does not wrap round. -/
  room : ∀ file length image, world.mapped = some (file, length) → world.files file = some image →
    writeLen image + metaSize ≤ fileSize image
  apart : ∀ file, (world.regions file).Pairwise fun region later => region.stop ≤ later.start
  inside : ∀ file length, world.mapped = some (file, length) → ∀ region ∈ world.regions file,
    metaSize ≤ region.start ∧ region.stop ≤ length
  bytes : ∀ file image, world.files file = some image → ∀ region ∈ world.regions file,
    piece image region.start region.cells.length = region.cells

theorem Kept.holds (kept : world.Kept) (running : world.strayed = false) (fitted : world.fitted = true) :
    world.Holds := by
  refine ⟨running, fitted, ?_, ?_, ?_, ?_⟩
  · intro file length image mapped isImage
    obtain ⟨image', isImage', opened⟩ := kept.opened file length mapped
    obtain rfl := Option.some.inj (isImage.symm.trans isImage')
    rw [opened.isSize, Nat.add_comm]
    exact opened.room
  · intro file
    cases isImage : world.files file with
    | none => rw [kept.absent file isImage]; exact .nil
    | some image => exact (kept.stored file image isImage).laid.apart
  · intro file length mapped region member
    obtain ⟨image, isImage, opened⟩ := kept.opened file length mapped
    have laid := (kept.stored file image isImage).laid
    exact ⟨laid.behind region member, Nat.le_trans (laid.within region member) opened.room⟩
  · intro file image isImage
    exact (kept.stored file image isImage).laid.holds

/-- A writer that lets go of its file. -/
theorem Kept.unmapped (kept : world.Kept) : ({ world with mapped := none } : World File).Kept :=
  ⟨kept.absent, kept.stored, nofun⟩

theorem Kept.renamed (kept : world.Kept) (path : Option File) :
    ({ world with path } : World File).Kept :=
  ⟨kept.absent, kept.stored, kept.opened⟩

/-- The contents with which a file is opened. -/
theorem Kept.found (kept : world.Kept) (file : File) :
    Stored ((world.files file).getD []) (world.regions file) := by
  cases isFound : world.files file with
  | none => rw [kept.absent file isFound]; exact stored_empty
  | some image => exact kept.stored file image isFound

theorem Kept.found_opened (kept : world.Kept) {length : Nat} (isMapped : world.mapped = some (file, length)) :
    Opened ((world.files file).getD []) length := by
  obtain ⟨image, isImage, opened⟩ := kept.opened file length isMapped
  rw [isImage]
  exact opened

theorem size_pos (world : World File) (file : File) (bufferSize : Nat) :
    0 < world.reached page file bufferSize := by
  have positive := page.size_pos
  have small : max (addSize metaSize bufferSize) page.size < 2 ^ 64 := by
    have below : addSize metaSize bufferSize < 2 ^ 64 := Nat.mod_lt _ (by decide)
    have pageSmall := page.size_lt
    omega
  have rounded : 0 < realFileSize page bufferSize := by
    rw [realFileSize, page.alignDown_eq small]
    exact Nat.mul_pos (Nat.div_pos (Nat.le_max_right ..) positive) positive
  unfold reached
  split
  · exact rounded
  · exact Nat.lt_of_lt_of_le rounded (Nat.le_max_right ..)

theorem found_length_le (world : World File) (file : File) (bufferSize : Nat) :
    ((world.files file).getD []).length ≤ world.reached page file bufferSize := by
  unfold reached
  cases world.files file with
  | none => exact Nat.zero_le _
  | some image => exact Nat.le_max_left ..

/-- The size at which a file holds so many bytes when it is opened: it did so before, or a number of
pages does that are no more than what is asked for, or one page. -/
def Room (page : PageSize) (world : World File) (file : File) (asked needed : Nat) : Prop :=
  (∃ image, world.files file = some image ∧ needed ≤ image.length) ∨
    ∃ pages, needed ≤ pages * page.size ∧ pages * page.size ≤ max asked page.size

theorem le_reached_iff (page : PageSize) (world : World File) (file : File) (bufferSize needed : Nat) :
    needed ≤ world.reached page file bufferSize ↔
      world.Room page file (addSize metaSize bufferSize) needed := by
  have small : max (addSize metaSize bufferSize) page.size < 2 ^ 64 := by
    have below : addSize metaSize bufferSize < 2 ^ 64 := Nat.mod_lt _ (by decide)
    have pageSmall := page.size_lt
    omega
  have rounded : needed ≤ realFileSize page bufferSize ↔ _ := page.le_alignDown_iff small
  unfold reached Room
  cases world.files file with
  | none => simpa using rounded
  | some image => simpa [le_max_iff] using or_congr_right rounded

theorem settle_holds_iff {result : ErrorT × World File} {fits : Bool} (fitted : world.fitted = true)
    (kept : result.2.Kept) (running : result.2.strayed = false) :
    (world.settle result fits).Kept ∧ ((world.settle result fits).Holds ↔ fits = true) := by
  have kept' : (world.settle result fits).Kept := ⟨kept.absent, kept.stored, kept.opened⟩
  have same : (world.settle result fits).fitted = fits := by
    rw [settle, fitted, Bool.true_and]
  refine ⟨kept', fun holds => same ▸ holds.fitted, fun isFit => ?_⟩
  exact kept'.holds running (same.trans isFit)

variable [DecidableEq File]

/-- A step that changes one file, and what is mapped of it. -/
theorem Kept.change (kept : world.Kept)
    (files : after.files = Function.update world.files file (some image))
    (others : ∀ other, other ≠ file → after.regions other = world.regions other)
    (stored : Stored image (after.regions file))
    (mapped : ∀ other length, after.mapped = some (other, length) →
      other = file ∧ Opened image length ∨ other ≠ file ∧ world.mapped = some (other, length)) :
    after.Kept := by
  have at_file : after.files file = some image := by rw [files, Function.update_self]
  have elsewhere {other : File} (different : other ≠ file) : after.files other = world.files other := by
    rw [files, Function.update_of_ne different]
  refine ⟨fun other isNone => ?_, fun other found isFound => ?_, fun other length isMapped => ?_⟩
  · have different : other ≠ file := by
      rintro rfl
      rw [at_file] at isNone
      contradiction
    rw [others other different]
    exact kept.absent other (elsewhere different ▸ isNone)
  · by_cases same : other = file
    · subst same
      obtain rfl := Option.some.inj (at_file.symm.trans isFound)
      exact stored
    · rw [others other same]
      exact kept.stored other found (elsewhere same ▸ isFound)
  · obtain ⟨rfl, opened⟩ | ⟨different, before⟩ := mapped other length isMapped
    · exact ⟨image, at_file, opened⟩
    · obtain ⟨found, isFound, opened⟩ := kept.opened other length before
      exact ⟨found, (elsewhere different).trans isFound, opened⟩

/-- A file is mapped that has room for the header. -/
theorem mapFile_spec (kept : world.Kept) (stored : Stored image (world.regions file))
    (isSize : image.length = size) (room : metaSize ≤ size) (anew : Bool) :
    (world.mapFile file image size anew).Kept ∧
      (world.mapFile file image size anew).strayed = world.strayed ∧
      (world.mapFile file image size anew).freeSpace =
        some (size - (metaSize + if anew then 0 else writeLen image)) := by
  subst isSize
  obtain ⟨set, opened⟩ := stored.setUp room anew
  have small : image.length < 2 ^ 64 := Nat.lt_trans stored.small (by decide)
  have written := (setUp_spec room small anew).2.2.2
  rw [mapFile, if_neg (Nat.not_lt.mpr room)]
  refine ⟨kept.change rfl ?_ ?_ ?_, rfl, ?_⟩
  · intro other different
    cases anew with
    | true => exact Function.update_of_ne different ..
    | false => rfl
  · cases anew with
    | true => simpa using set
    | false => exact set
  · intro other length isMapped
    obtain ⟨rfl, rfl⟩ := Prod.mk.inj (Option.some.inj isMapped)
    exact .inl ⟨rfl, opened⟩
  · simp only [freeSpace, setImage, Option.bind_eq_bind, Option.bind_some, Function.update_self,
      Option.pure_def, Option.some.injEq]
    rw [free_eq opened set.small, written]

/-- The system lets a file be opened that was there or was not. -/
def Opens (calls : SystemCalls) (found : Option (List UInt8)) (size : Nat) : Prop :=
  (found = none ∨ calls.fstat = true) ∧ calls.ftruncate = true ∧ size < 2 ^ 63 ∧ calls.mmap = true

/-- A file whose contents are others, of which the same is handed out and mapped. -/
theorem Kept.setImage (kept : world.Kept) (stored : Stored image (world.regions file))
    (opened : ∀ length, world.mapped = some (file, length) → Opened image length) :
    (world.setImage file image).Kept := by
  refine kept.change rfl (fun _ _ => rfl) stored fun other length isMapped => ?_
  by_cases same : other = file
  · subst same
    exact .inl ⟨rfl, opened length isMapped⟩
  · exact .inr ⟨same, isMapped⟩

/-- A file that was there or was not is created. -/
theorem Kept.created (kept : world.Kept) (file : File) :
    (world.setImage file ((world.files file).getD [])).Kept :=
  kept.setImage (kept.found file) fun _ isMapped => kept.found_opened isMapped

/-- A file is brought to the size that is needed. -/
theorem Kept.truncated (kept : world.Kept) (grows : ((world.files file).getD []).length ≤ size)
    (small : size < 2 ^ 63) :
    ((world.setImage file ((world.files file).getD [])).setImage file
      (truncate 0 ((world.files file).getD []) size)).Kept :=
  (kept.created file).setImage ((kept.found file).truncate grows small).2
    fun _ isMapped => (kept.found_opened isMapped).truncate grows

/-- Either a file is not opened, or it is brought to its size and mapped. -/
theorem openImpl_cases (page : PageSize) (kept : world.Kept) (calls : SystemCalls) (file : File)
    (bufferSize : Nat) (isAppend : Bool) :
    let found := world.files file
    let size := world.reached page file bufferSize
    let result := openImpl page calls world file found bufferSize isAppend
    ¬Opens calls found size ∧ result.1 ≠ .ok ∧ result.2.Kept ∧ result.2.strayed = world.strayed ∨
    Opens calls found size ∧ result.1 = .ok ∧
      (size < metaSize ∧ result.2.strayed = true ∨
        metaSize ≤ size ∧ result.2.Kept ∧ result.2.strayed = world.strayed ∧
        result.2.freeSpace = some (size - (metaSize +
          if found.isNone || !isAppend then 0 else writeLen (found.getD [])))) := by
  intro found size result
  have stored : Stored (found.getD []) (world.regions file) := kept.found file
  have grows : (found.getD []).length ≤ size := found_length_le world file bufferSize
  have created : (world.setImage file (found.getD [])).Kept := kept.created file
  by_cases stat : found = none ∨ calls.fstat = true
  · have goesOn : ¬(found.isSome && !calls.fstat) = true := by
      rcases stat with isNone | isStat
      · simp [isNone]
      · simp [isStat]
    by_cases truncates : calls.ftruncate = true ∧ size < 2 ^ 63
    · by_cases maps : calls.mmap = true
      · have isResult : result = (.ok, (world.setImage file (found.getD [])).mapFile file
            (truncate 0 (found.getD []) size) size (found.isNone || !isAppend)) := by
          have mapping : mmap page calls.mmap size 0 = some ⟨0, size⟩ :=
            if_pos ⟨maps, (size_pos world file bufferSize).ne', Nat.dvd_zero _⟩
          simp only [result, openImpl]
          rw [if_neg goesOn, if_pos truncates, mapping]
        refine .inr ⟨⟨stat, truncates.1, truncates.2, maps⟩, by rw [isResult], ?_⟩
        rw [isResult]
        by_cases room : metaSize ≤ size
        · obtain ⟨same, stored'⟩ := stored.truncate grows truncates.2
          have mapped := mapFile_spec created stored' length_truncate room (found.isNone || !isAppend)
          rw [same] at mapped
          exact .inr ⟨room, mapped⟩
        · refine .inl ⟨Nat.lt_of_not_le room, ?_⟩
          rw [mapFile, if_pos (Nat.lt_of_not_le room)]
      · have isResult : result = (.mmapFail, (world.setImage file (found.getD [])).setImage file
            (truncate 0 (found.getD []) size)) := by
          have mapping : mmap page calls.mmap size 0 = none := if_neg fun all => maps all.1
          simp only [result, openImpl]
          rw [if_neg goesOn, if_pos truncates, mapping]
        refine .inl ⟨fun opens => maps opens.2.2.2, by rw [isResult]; simp, ?_, by rw [isResult]; rfl⟩
        rw [isResult]
        exact kept.truncated grows truncates.2
    · have isResult : result = (.ftruncateFail, world.setImage file (found.getD [])) := by
        simp only [result, openImpl]
        rw [if_neg goesOn, if_neg truncates]
      refine .inl ⟨fun opens => truncates ⟨opens.2.1, opens.2.2.1⟩, by rw [isResult]; simp, ?_, ?_⟩
      · rw [isResult]
        exact created
      · rw [isResult]
        rfl
  · have stops : (found.isSome && !calls.fstat) = true := by
      rw [not_or] at stat
      cases isFound : found with
      | none => exact absurd isFound stat.1
      | some image => simpa using stat.2
    have isResult : result = (.statFail, { world.setImage file (found.getD []) with mapped := none }) := by
      simp only [result, openImpl]
      rw [if_pos stops]
    refine .inl ⟨fun opens => stat opens.1, by rw [isResult]; simp, ?_, by rw [isResult]; rfl⟩
    rw [isResult]
    exact created.unmapped

theorem openFile_cases (page : PageSize) (kept : world.Kept) (running : world.strayed = false)
    (calls : SystemCalls) (file : File) (bufferSize : Nat) (isAppend : Bool) :
    let found := world.files file
    let size := world.reached page file bufferSize
    let result := openFile page calls world file bufferSize isAppend
    ¬(calls.openFile = true ∧ Opens calls found size) ∧ result.1 ≠ .ok ∧ result.2.Kept ∧
        result.2.strayed = false ∨
      (calls.openFile = true ∧ Opens calls found size) ∧ result.1 = .ok ∧
        (size < metaSize ∧ result.2.strayed = true ∨
          metaSize ≤ size ∧ result.2.Kept ∧ result.2.strayed = false ∧
          result.2.freeSpace = some (size - (metaSize +
            if found.isNone || !isAppend then 0 else writeLen (found.getD [])))) := by
  intro found size result
  by_cases opens : calls.openFile = true
  · have isResult : result = openImpl page calls { world with path := some file } file found bufferSize
        isAppend := if_pos opens
    have cases := openImpl_cases page (kept.renamed (some file)) calls file bufferSize isAppend
    rw [isResult, and_iff_right opens, ← running]
    exact cases
  · have isResult : result = (.openFail, { world with path := some file }) := if_neg opens
    refine .inl ⟨fun both => opens both.1, by rw [isResult]; simp, ?_, ?_⟩
    · rw [isResult]
      exact kept.renamed (some file)
    · rw [isResult]
      exact running

/-- The header and `needed` more bytes, and the data that a new file does not have. -/
theorem settle_openFile (page : PageSize) (kept : world.Kept) (running : world.strayed = false)
    {begun : World File} (fitted : begun.fitted = true) (calls : SystemCalls) (file : File)
    (bufferSize needed : Nat) (isAppend exempt : Bool) :
    let found := world.files file
    let size := world.reached page file bufferSize
    let result := openFile page calls world file bufferSize isAppend
    let written := if found.isNone || !isAppend then 0 else writeLen (found.getD [])
    let after := begun.settle result (exempt || leaves result needed)
    (after.Holds ↔ (calls.openFile = true ∧ Opens calls found size →
      metaSize ≤ size ∧ (exempt = false → needed + (metaSize + written) ≤ size))) ∧
      (after.Holds → after.Kept) := by
  intro found size result written after
  have grows : (found.getD []).length ≤ size := found_length_le world file bufferSize
  obtain ⟨refused, failed, kept', running'⟩ |
      ⟨opens, success, ⟨small, strays⟩ | ⟨room, kept', running', space⟩⟩ :=
    openFile_cases page kept running calls file bufferSize isAppend
  · obtain ⟨settled, holds⟩ := settle_holds_iff fitted kept' running'
    refine ⟨iff_of_true (holds.mpr ?_) fun opens => absurd opens refused, fun _ => settled⟩
    rw [leaves, bne_iff_ne.mpr failed, Bool.true_or, Bool.or_true]
  · have lost : ¬after.Holds := fun holds => absurd (strays.symm.trans holds.running) (by decide)
    refine ⟨iff_of_false lost fun all => ?_, fun holds => absurd holds lost⟩
    exact absurd (all opens).1 (Nat.not_le.mpr small)
  · obtain ⟨settled, holds⟩ := settle_holds_iff fitted kept' running'
    have isRoom : metaSize ≤ size := room
    have within : metaSize + written ≤ size := by
      have fits : metaSize + writeLen (found.getD []) ≤ (found.getD []).length ∨
          writeLen (found.getD []) = 0 ∧ _ := (kept.found file).fits
      change metaSize + (if _ then 0 else writeLen (found.getD [])) ≤ size
      split <;> omega
    have enough : leaves result needed = true ↔ needed ≤ size - (metaSize + written) := by
      have isSpace : result.2.freeSpace = some (size - (metaSize + written)) := space
      have isOk : (result.1 != .ok) = false := by rw [show result.1 = .ok from success]; rfl
      simp [leaves, isSpace, isOk]
    refine ⟨holds.trans ?_, fun _ => settled⟩
    rw [Bool.or_eq_true, enough]
    cases exempt with
    | true => simp [isRoom]
    | false =>
      constructor
      · intro either _
        refine ⟨isRoom, fun _ => ?_⟩
        have reaches := either.resolve_left (by decide)
        omega
      · intro all
        have reaches := (all opens).2 rfl
        right
        omega

end World

end Fix

end BTool.MMapFile
