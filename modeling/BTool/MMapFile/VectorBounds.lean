import BTool.Foundation.Transition
import BTool.MMapFile.VectorWriter

/-! Whether what a `VectorBuffer::Writer` writes stays within its mapping. The header is not counted
where the mapping is kept, and a file that has grown is cut to whole pages. -/

namespace BTool.MMapFile.Vector

open BTool.Foundation BTool.Foundation.Image BTool.Foundation.Path

variable {page : PageSize} {calls : SystemCalls} {writer after : Writer} {image final : List UInt8}
  {old need len : Nat} {err : ErrorT} {course : Course (ErrorT × Writer × List UInt8)}

/-- A file of this length is mapped. -/
def Maps (calls : SystemCalls) (writer : Writer) (length : Nat) : Prop :=
  truncates calls writer length ∧ calls.mmap = true ∧ length ≠ 0

/-- What `grown` comes to. -/
inductive Grown (page : PageSize) (calls : SystemCalls) (writer : Writer) (image : List UInt8)
    (old need : Nat) : Course (ErrorT × Writer × List UInt8) → Prop where
  | hangs (more : highest writer.bufStep old < need) : Grown page calls writer image old need .hangs
  | strays {reached : Nat} (first : FirstReach writer.bufStep need old reached)
      (maps : Maps calls writer (page.alignDown reached)) (short : page.alignDown reached < metaSize) :
      Grown page calls writer image old need .strays
  | mapped {reached : Nat} (first : FirstReach writer.bufStep need old reached)
      (maps : Maps calls writer (page.alignDown reached)) (long : metaSize ≤ page.alignDown reached) :
      Grown page calls writer image old need
        (.returns (.ok, { writer with mapped := some (page.alignDown reached) },
          setFileLen (truncate 0 image (page.alignDown reached)) (page.alignDown reached)))
  | unmapped {reached : Nat} (first : FirstReach writer.bufStep need old reached)
      (cut : truncates calls writer (page.alignDown reached))
      (fails : ¬ Maps calls writer (page.alignDown reached)) :
      Grown page calls writer image old need
        (.returns (.mmapFail, writer, truncate 0 image (page.alignDown reached)))
  | refused {reached : Nat} (first : FirstReach writer.bufStep need old reached)
      (fails : ¬ truncates calls writer (page.alignDown reached)) :
      Grown page calls writer image old need (.returns (.ftruncateFail, writer, image))

theorem grown_spec (small : old < 2 ^ 64) (writeLen : Nat)
    (same : addSize (addSize writeLen metaSize) len = need) :
    Grown page calls writer image old need (grown page calls writer image writeLen old len) := by
  subst same
  unfold grown
  cases grows : grow writer.bufStep (addSize (addSize writeLen metaSize) len) old with
  | none => exact .hangs ((grow_eq_none_iff small).mp grows)
  | some reached =>
    have first := (grow_eq_some_iff small).mp grows
    simp only
    split
    · rename_i cut
      by_cases maps : Maps calls writer (page.alignDown reached)
      · have mapping : mmap page calls.mmap (page.alignDown reached) 0 =
            some ⟨0, page.alignDown reached⟩ := by
          rw [mmap, if_pos ⟨maps.2.1, maps.2.2, Nat.dvd_zero _⟩]
        rw [mapping]
        simp only
        split
        · exact .strays first maps ‹_›
        · exact .mapped first maps (Nat.not_lt.mp ‹_›)
      · have mapping : mmap page calls.mmap (page.alignDown reached) 0 = none := by
          rw [mmap, if_neg fun both => maps ⟨cut, both.1, both.2.1⟩]
        rw [mapping]
        exact .unmapped first cut maps
    · rename_i fails
      exact .refused first fails

/-- The mapping is that of the whole file, whose length is in the header. -/
structure Mapped (writer : Writer) (image : List UInt8) : Prop where
  whole : ∀ length, writer.mapped = some length → image.length = length ∧ fileLen image = length
  header : ∀ length, writer.mapped = some length → metaSize ≤ length
  small : ∀ length, writer.mapped = some length → length < 2 ^ 63

/-- There is a length that is enough, and where the first such is mapped, as much of it as makes whole
pages is enough as well. -/
def Room (page : PageSize) (calls : SystemCalls) (writer : Writer) (old need : Nat) (wanted : Int) : Prop :=
  need ≤ highest writer.bufStep old ∧
    ∀ reached, FirstReach writer.bufStep need old reached → Maps calls writer (page.alignDown reached) →
      metaSize ≤ page.alignDown reached ∧ wanted ≤ page.alignDown reached

/-- There is room for so much behind the header and the data: as it is if the mapping is kept, and
otherwise once the file has grown. -/
def HasRoom (page : PageSize) (calls : SystemCalls) (writer : Writer) (image : List UInt8) (len : Nat)
    (wanted : Int) : Prop :=
  let needed := (metaSize + writeLen image : Nat) + wanted
  match writer.mapped with
  | some length =>
    if addSize (writeLen image) len ≤ length then needed ≤ length
    else calls.munmap = true →
      Room page calls { writer with mapped := none } length
        (addSize (addSize (writeLen image) metaSize) len) needed
  | none => Room page calls writer 0 (addSize (addSize 0 metaSize) len) needed

/-- The call returns, and if it succeeds there is room. -/
inductive Settled (wanted : Int) : Course (ErrorT × Writer × List UInt8) → Prop where
  | fails (err : ErrorT) (writer : Writer) (image : List UInt8) (failed : err ≠ .ok)
      (mapped : Mapped writer image) : Settled wanted (.returns (err, writer, image))
  | succeeds (writer : Writer) (image : List UInt8) (mapped : Mapped writer image)
      (isMapped : writer.mapped = some (fileLen image))
      (room : (metaSize + writeLen image : Nat) + wanted ≤ (fileLen image : Int)) :
      Settled wanted (.returns (.ok, writer, image))

/-- The call does not return, or succeeds without room. -/
inductive Unsettled (wanted : Int) : Course (ErrorT × Writer × List UInt8) → Prop where
  | hangs : Unsettled wanted .hangs
  | strays : Unsettled wanted .strays
  | succeeds (writer : Writer) (image : List UInt8)
      (noRoom : ¬ (metaSize + writeLen image : Nat) + wanted ≤ (fileLen image : Int)) :
      Unsettled wanted (.returns (.ok, writer, image))

private theorem length_setFileLen {length : Nat} (long : metaSize ≤ image.length) :
    (setFileLen image length).length = image.length :=
  length_setWord long

/-- The header of the file that has been cut and mapped. -/
theorem header_mapped (image : List UInt8) {length : Nat} (small : length < 2 ^ 64) (long : metaSize ≤ length) :
    fileLen (setFileLen (truncate 0 image length) length) = length ∧
      writeLen (setFileLen (truncate 0 image length) length) = writeLen image := by
  have fits : 16 + 8 ≤ (truncate 0 image length).length := by rwa [length_truncate]
  refine ⟨word_setWord_self fits small, ?_⟩
  rw [writeLen, setFileLen, word_setWord fits (by omega), word_truncate (by unfold metaSize at long; omega)]
  rfl

private theorem nothing_mapped (writer : Writer) (image : List UInt8) : Mapped { writer with mapped := none } image :=
  ⟨nofun, nofun, nofun⟩

theorem Grown.settled {wanted : Int} (grown : Grown page calls writer image old need course)
    (nothing : writer.mapped = none)
    (room : Room page calls writer old need ((metaSize + writeLen image : Nat) + wanted)) :
    Settled wanted course := by
  have isUnmapped (image : List UInt8) : Mapped writer image := by
    have same : { writer with mapped := none } = writer := by rw [← nothing]
    exact same ▸ nothing_mapped writer image
  cases grown with
  | hangs more => exact absurd room.1 (Nat.not_le.mpr more)
  | strays first maps short => exact absurd (room.2 _ first maps).1 (Nat.not_le.mpr short)
  | @mapped reached first maps long =>
    obtain ⟨_, enough⟩ := room.2 _ first maps
    have small := maps.1.2.2
    obtain ⟨isLength, isWritten⟩ := header_mapped image (by omega) long
    refine .succeeds _ _ ⟨?_, ?_, ?_⟩ ?_ ?_
    · rintro _ ⟨⟩
      refine ⟨?_, isLength⟩
      rw [length_setFileLen (by rwa [length_truncate]), length_truncate]
    · rintro _ ⟨⟩
      exact long
    · rintro _ ⟨⟩
      exact small
    · rw [isLength]
    · rw [isLength, isWritten]
      exact enough
  | unmapped _ _ _ => exact .fails _ _ _ nofun (isUnmapped _)
  | refused _ _ => exact .fails _ _ _ nofun (isUnmapped _)

theorem Grown.unsettled {wanted : Int} (grown : Grown page calls writer image old need course)
    (small : old < 2 ^ 64)
    (noRoom : ¬ Room page calls writer old need ((metaSize + writeLen image : Nat) + wanted)) :
    Unsettled wanted course := by
  have room_of {reached : Nat} (first : FirstReach writer.bufStep need old reached)
      (enough : Maps calls writer (page.alignDown reached) → metaSize ≤ page.alignDown reached ∧
        (metaSize + writeLen image : Nat) + wanted ≤ page.alignDown reached) :
      Room page calls writer old need ((metaSize + writeLen image : Nat) + wanted) := by
    refine ⟨(exists_firstReach_iff small).mp ⟨reached, first⟩, fun other second => ?_⟩
    obtain rfl := first.unique small second
    exact enough
  cases grown with
  | hangs _ => exact .hangs
  | strays _ _ _ => exact .strays
  | mapped first maps long =>
    have bound := maps.1.2.2
    obtain ⟨isLength, isWritten⟩ := header_mapped image (by omega) long
    refine .succeeds _ _ fun enough => noRoom (room_of first fun _ => ⟨long, ?_⟩)
    rwa [isLength, isWritten] at enough
  | unmapped first _ fails => exact absurd (room_of first fun maps => absurd maps fails) noRoom
  | refused first fails => exact absurd (room_of first fun maps => absurd maps.1 fails) noRoom

private theorem checkAddLength_settled {wanted : Int} (mapped : Mapped writer image)
    (room : HasRoom page calls writer image len wanted) :
    Settled wanted (checkAddLength page calls writer image len) := by
  cases isMapped : writer.mapped with
  | none =>
    simp only [HasRoom, isMapped] at room
    simp only [checkAddLength, isMapped]
    exact (grown_spec (by decide) _ rfl).settled isMapped room
  | some length =>
    have isLength := (mapped.whole length isMapped).2
    have small := mapped.small length isMapped
    simp only [HasRoom, isMapped] at room
    simp only [checkAddLength, isMapped, isLength]
    split at room
    · rename_i enough
      rw [if_pos enough]
      exact .succeeds writer image mapped (by rw [isMapped, isLength]) (by rwa [isLength])
    · rename_i less
      rw [if_neg less]
      cases undone : calls.munmap with
      | false => exact .fails _ _ _ nofun mapped
      | true => exact (grown_spec (by omega) _ rfl).settled rfl (room undone)

private theorem checkAddLength_unsettled {wanted : Int} (mapped : Mapped writer image)
    (noRoom : ¬ HasRoom page calls writer image len wanted) :
    Unsettled wanted (checkAddLength page calls writer image len) := by
  cases isMapped : writer.mapped with
  | none =>
    simp only [HasRoom, isMapped] at noRoom
    simp only [checkAddLength, isMapped]
    exact (grown_spec (by decide) _ rfl).unsettled (by decide) noRoom
  | some length =>
    have isLength := (mapped.whole length isMapped).2
    have small := mapped.small length isMapped
    simp only [HasRoom, isMapped] at noRoom
    simp only [checkAddLength, isMapped, isLength]
    split at noRoom
    · rename_i enough
      rw [if_pos enough]
      exact .succeeds writer image (by rwa [isLength])
    · rename_i less
      rw [if_neg less]
      cases undone : calls.munmap with
      | false => exact absurd (fun isUndone => by simp [undone] at isUndone) noRoom
      | true => exact (grown_spec (by omega) _ rfl).unsettled (by omega) fun room => noRoom fun _ => room

namespace World

variable {world before final : World} {action : Action}

/-- The loops have ended, and there was room for the header and the data whenever there should be. -/
structure Sound (world : World) : Prop where
  running : world.fate = .running
  checked : world.checked = true

/-- Where the call is made there is room. -/
def Fits (page : PageSize) (world : World) : Action → Prop
  | .openFile calls _ _ initBufLength bufStep => calls.openFile = true →
    HasRoom page calls { world.writer with isOpen := true, bufStep := offSize bufStep } world.image
      (offSize initBufLength) initBufLength
  | .write calls data => data ≠ [] →
    HasRoom page calls world.writer world.image data.length data.length
  | .close _ => True

theorem append_fits {data : List UInt8} (mapped : Mapped writer image)
    (isMapped : writer.mapped = some (fileLen image))
    (room : (metaSize + writeLen image : Nat) + (data.length : Int) ≤ (fileLen image : Int)) :
    ∃ appended, append writer image data = some appended ∧ Mapped writer appended := by
  have whole := (mapped.whole _ isMapped).1
  have fits : metaSize + writeLen image + data.length ≤ image.length := by omega
  have header : 8 + 8 ≤ (overwrite image (metaSize + writeLen image) data).length := by
    rw [length_overwrite fits]
    unfold metaSize at fits
    omega
  refine ⟨_, if_pos (by rw [isMapped, Option.getD_some]; omega), ?_, mapped.header, mapped.small⟩
  intro length same
  obtain ⟨isLength, isFileLen⟩ := mapped.whole length same
  refine ⟨?_, ?_⟩
  · rw [setWriteLen, length_setWord header, length_overwrite fits, isLength]
  · rw [← isFileLen, fileLen, setWriteLen, word_setWord header (by omega),
      word_overwrite fits (by unfold metaSize; omega), fileLen]

private theorem not_sound_append {data : List UInt8} (world : World) (failed : world.checked = false) :
    ¬ (world.copyData data).Sound := by
  intro sound
  have checked := sound.checked
  unfold copyData at checked
  split at checked <;> simp [failed] at checked

/-- Everything has been sound so far, and what is mapped is the file. -/
structure Intact (world : World) : Prop where
  sound : world.Sound
  mapped : Mapped world.writer world.image

private theorem resume_settled {wanted : Int} {succeeds : World → World} (sound : world.Sound)
    (settled : Settled wanted course)
    (kept : ∀ ready : World, ready.Intact → ready.writer.mapped = some (fileLen ready.image) →
      (metaSize + writeLen ready.image : Nat) + wanted ≤ (fileLen ready.image : Int) →
      (succeeds ready).Intact) : (world.resume wanted course succeeds).Intact := by
  obtain ⟨running, checked⟩ := sound
  cases settled with
  | fails err writer image failed mapped =>
    cases err with
    | ok => exact absurd rfl failed
    | _ => exact ⟨⟨running, checked⟩, mapped⟩
  | succeeds writer image mapped isMapped room =>
    refine kept _ ⟨⟨running, ?_⟩, mapped⟩ isMapped room
    rw [checked, Bool.true_and]
    exact decide_eq_true room

private theorem resume_unsettled {wanted : Int} {succeeds : World → World}
    (unsettled : Unsettled wanted course)
    (never : ∀ ready : World, ready.checked = false → ¬ (succeeds ready).Sound) :
    ¬ (world.resume wanted course succeeds).Sound := by
  cases unsettled with
  | hangs => exact fun sound => nomatch sound.running
  | strays => exact fun sound => nomatch sound.running
  | succeeds writer image noRoom =>
    refine never _ ?_
    rw [Bool.and_eq_false_iff]
    exact .inr (decide_eq_false noRoom)

theorem mapped_beginAnew (mapped : Mapped world.writer world.image) (itemSize : Nat) :
    Mapped world.writer (world.beginAnew itemSize).image := by
  refine ⟨fun length isMapped => ?_, mapped.header, mapped.small⟩
  obtain ⟨isLength, isFileLen⟩ := mapped.whole length isMapped
  have header := mapped.header length isMapped
  unfold metaSize at header
  have inner : 0 + 8 ≤ (setWriteLen world.image 0).length := by
    rw [setWriteLen, length_setWord (by omega)]
    omega
  refine ⟨?_, ?_⟩
  · rw [beginAnew, setItemSize, length_setWord inner, setWriteLen, length_setWord (by omega), isLength]
  · rw [← isFileLen, fileLen, beginAnew, setItemSize, word_setWord inner (by omega), setWriteLen,
      word_setWord (by omega) (by omega), fileLen]

theorem mapped_close (mapped : Mapped writer image) (calls : SystemCalls) :
    Mapped (close calls writer image).1 (close calls writer image).2 := by
  unfold close
  split
  · exact ⟨nofun, nofun, nofun⟩
  · exact ⟨mapped.whole, mapped.header, mapped.small⟩

private theorem sound_iff {fits : Prop} (good : fits → final.Intact) (bad : ¬ fits → ¬ final.Sound) :
    (final.Sound ↔ fits) ∧ (final.Sound → Mapped final.writer final.image) := by
  have only : final.Sound → fits := fun sound => by_contra fun noRoom => bad noRoom sound
  exact ⟨⟨only, fun holds => (good holds).sound⟩, fun sound => (good (only sound)).mapped⟩

/-- A step leaves everything sound if and only if it has room. -/
private theorem sound_step (mapped : Mapped before.writer before.image) (sound : before.Sound)
    (taken : before.next page action = some final) :
    (final.Sound ↔ before.Fits page action) ∧ (final.Sound → Mapped final.writer final.image) := by
  unfold next at taken
  rw [if_pos sound.running] at taken
  cases action with
  | openFile calls itemSize isAppend initBufLength bufStep =>
    cases opens : calls.openFile with
    | false =>
      simp only [opens, Bool.false_eq_true, if_false, Option.some.injEq] at taken
      subst taken
      have intact : Mapped { before.writer with isOpen := false } before.image :=
        ⟨mapped.whole, mapped.header, mapped.small⟩
      refine sound_iff (fun _ => ⟨⟨sound.running, sound.checked⟩, intact⟩) fun noRoom => ?_
      exact absurd (fun isOpen => by simp [opens] at isOpen) noRoom
    | true =>
      simp only [opens, if_true, Option.some.injEq] at taken
      subst taken
      have opened : Mapped { before.writer with isOpen := true, bufStep := offSize bufStep } before.image :=
        ⟨mapped.whole, mapped.header, mapped.small⟩
      have begun : Sound { before with
          created := true, writer := { before.writer with isOpen := true, bufStep := offSize bufStep } } :=
        ⟨sound.running, sound.checked⟩
      refine sound_iff (fun fits => resume_settled begun (checkAddLength_settled opened (fits opens)) ?_)
        fun noRoom => resume_unsettled
          (checkAddLength_unsettled opened fun room => noRoom fun _ => room) ?_
      · intro ready intact _ _
        split
        · exact ⟨⟨intact.sound.running, intact.sound.checked⟩, mapped_beginAnew intact.mapped itemSize⟩
        · exact intact
      · intro ready failed sound
        have checked := sound.checked
        split at checked <;> simp [beginAnew, failed] at checked
  | write calls data =>
    by_cases empty : data = []
    · simp only [empty, if_true, Option.some.injEq] at taken
      subst taken
      exact sound_iff (fun _ => ⟨sound, mapped⟩) fun noRoom => absurd (fun some => absurd empty some) noRoom
    · simp only [if_neg empty] at taken
      split at taken
      · cases taken
        refine sound_iff (fun fits => resume_settled sound (checkAddLength_settled mapped (fits empty)) ?_)
          fun noRoom => resume_unsettled
            (checkAddLength_unsettled mapped fun room => noRoom fun _ => room) ?_
        · intro ready intact isMapped room
          obtain ⟨appended, appends, mapped⟩ := append_fits intact.mapped isMapped room
          simp only [copyData, appends]
          exact ⟨⟨intact.sound.running, intact.sound.checked⟩, mapped⟩
        · exact not_sound_append
      · cases taken
  | close calls =>
    simp only [Option.some.injEq] at taken
    subst taken
    exact sound_iff (fun _ => ⟨⟨sound.running, sound.checked⟩, mapped_close mapped calls⟩)
      fun noRoom => absurd trivial noRoom

/-- In every run the loops end and there is room for the header and the data whenever
`check_add_length` succeeds, all along, if and only if every call finds room. -/
theorem sound_iff_fits {created : Bool} {actions : List Action} {last : World}
    (path : Path (Taken (next page)) (start created image) actions last) :
    (∀ world, Visits (Taken (next page)) (start created image) actions world → world.Sound) ↔
      ∀ world action, Takes (Taken (next page)) (start created image) actions world action →
        world.Fits page action := by
  refine path.visits_iff_all_takes (fun world => Mapped world.writer world.image) ?_ ⟨rfl, rfl⟩
    ⟨nofun, nofun, nofun⟩
  intro before action after mapped sound taken
  exact sound_step mapped sound taken

/-- Three bytes in a file of one page. -/
theorem sound_iff_fits_one_page :
    let page : PageSize := ⟨4096, 12, by decide, rfl⟩
    let calls : SystemCalls := ⟨true, true, true, true⟩
    let actions : List Action := [.openFile calls 1 true 1 4096, .write calls [1, 2, 3], .close calls]
    (∀ world, Visits (Taken (next page)) (start false []) actions world → world.Sound) ↔
      ∀ world action, Takes (Taken (next page)) (start false []) actions world action →
        world.Fits page action := by
  intro page calls actions
  have runs : (exec (next page) (start false []) actions).isSome := by decide +kernel
  obtain ⟨last, run⟩ := Option.isSome_iff_exists.mp runs
  exact sound_iff_fits (exec_eq_some_iff.mp run)

/-- In a file of one page, 4090 bytes lie over its end. A file that has grown to 5000 bytes is cut to
one page, although 4524 are needed. -/
theorem not_sound_end_of_page :
    let page : PageSize := ⟨4096, 12, by decide, rfl⟩
    let calls : SystemCalls := ⟨true, true, true, true⟩
    ∃ long cut, exec (next page) (start false [])
          [.openFile calls 1 true 1 4096, .write calls (List.replicate 4090 7)] = some long ∧
        long.fate = .strayed ∧ ¬ long.Sound ∧
      exec (next page) (start false []) [.openFile calls 1 true 4500 5000] = some cut ∧
        cut.fate = .running ∧ ¬ cut.Sound := by
  intro page calls
  have strays : (exec (next page) (start false [])
      [.openFile calls 1 true 1 4096, .write calls (List.replicate 4090 7)]).map World.fate =
        some .strayed := by decide +kernel
  have lacks : (exec (next page) (start false []) [.openFile calls 1 true 4500 5000]).map
      (fun world => (world.fate, world.checked)) = some (.running, false) := by decide +kernel
  obtain ⟨long, longRun, strayed⟩ := Option.map_eq_some_iff.mp strays
  obtain ⟨cut, cutRun, both⟩ := Option.map_eq_some_iff.mp lacks
  obtain ⟨running, unchecked⟩ := Prod.mk.inj both
  refine ⟨long, cut, longRun, strayed, fun sound => ?_, cutRun, running, fun sound => ?_⟩
  · exact absurd (strayed.symm.trans sound.running) (by decide)
  · exact absurd (unchecked.symm.trans sound.checked) (by decide)

end World

end BTool.MMapFile.Vector
