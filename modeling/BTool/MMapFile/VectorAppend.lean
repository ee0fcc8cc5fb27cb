import BTool.MMapFile.VectorBounds

/-! What a file holds of what was written to it, also where a writer is closed and the file is opened
again. `open` cuts the file to the length that it has grown to for the first bytes, whatever it holds. -/

namespace BTool.MMapFile.Vector

open BTool.Foundation BTool.Foundation.Image BTool.Foundation.Path

variable {page : PageSize} {calls : SystemCalls} {writer : Writer} {image : List UInt8}
  {written data : List UInt8} {old need len length : Nat} {course : Course (ErrorT × Writer × List UInt8)}

/-- The data lie behind the header, which has their length. -/
structure Stores (image written : List UInt8) : Prop where
  length : writeLen image = written.length
  data : piece image metaSize written.length = written

private theorem length_le_of_piece {bytes : List UInt8} {offset : Nat} (nonempty : bytes ≠ [])
    (same : piece image offset bytes.length = bytes) : offset + bytes.length ≤ image.length := by
  have size := congrArg List.length same
  have positive := List.length_pos_iff.mpr nonempty
  simp only [piece, List.length_take, List.length_drop] at size
  omega

theorem Stores.within (stores : Stores image written) (long : metaSize ≤ image.length) :
    metaSize + written.length ≤ image.length := by
  by_cases empty : written = []
  · rwa [empty, List.length_nil, Nat.add_zero]
  · exact length_le_of_piece empty stores.data

/-- What the file holds is kept if it is cut behind it. -/
theorem Stores.truncate_iff (stores : Stores image written) :
    Stores (truncate 0 image length) written ↔ writeLen image = 0 ∨ metaSize + writeLen image ≤ length := by
  rw [stores.length]
  constructor
  · intro kept
    by_cases empty : written = []
    · exact .inl (by rw [empty, List.length_nil])
    · have within := length_le_of_piece empty kept.data
      rw [length_truncate] at within
      exact .inr within
  · intro room
    by_cases empty : written = []
    · subst empty
      exact ⟨word_truncate_zero stores.length, rfl⟩
    · have within := length_le_of_piece empty stores.data
      have positive := List.length_pos_iff.mpr empty
      have kept : metaSize + written.length ≤ length := by omega
      refine ⟨?_, ?_⟩
      · rw [writeLen, word_truncate (by unfold metaSize at kept; omega)]
        exact stores.length
      · rw [piece_truncate within kept, stores.data]

theorem Stores.setFileLen_iff (long : metaSize ≤ image.length) :
    Stores (setFileLen image length) written ↔ Stores image written := by
  have header : 16 + 8 ≤ image.length := long
  have sameLength : writeLen (setFileLen image length) = writeLen image :=
    word_setWord header (by omega)
  have sameData : piece (setFileLen image length) metaSize written.length =
      piece image metaSize written.length := piece_setWord header (by unfold metaSize; omega)
  constructor
  · rintro ⟨isLength, isData⟩
    exact ⟨sameLength ▸ isLength, sameData ▸ isData⟩
  · rintro ⟨isLength, isData⟩
    exact ⟨sameLength.trans isLength, sameData.trans isData⟩

theorem stores_beginAnew (long : metaSize ≤ image.length) (itemSize : Nat) :
    Stores (setItemSize (setWriteLen image 0) itemSize) [] := by
  unfold metaSize at long
  have inner : 0 + 8 ≤ (setWriteLen image 0).length := by
    rw [setWriteLen, length_setWord (by omega)]
    omega
  refine ⟨?_, rfl⟩
  rw [writeLen, setItemSize, word_setWord inner (by omega)]
  exact word_setWord_self (by omega) (by decide)

theorem Stores.append (stores : Stores image written)
    (fits : metaSize + written.length + data.length ≤ image.length) (small : image.length < 2 ^ 64) :
    Stores (setWriteLen (overwrite image (metaSize + writeLen image) data)
      (addSize (writeLen (overwrite image (metaSize + writeLen image) data)) data.length))
      (written ++ data) := by
  rw [stores.length]
  have same : (overwrite image (metaSize + written.length) data).length = image.length :=
    length_overwrite fits
  have sameLen : writeLen (overwrite image (metaSize + written.length) data) = written.length := by
    rw [writeLen, word_overwrite fits (by unfold metaSize; omega)]
    exact stores.length
  rw [sameLen]
  have header : 8 + 8 ≤ (overwrite image (metaSize + written.length) data).length := by
    unfold metaSize at fits
    omega
  refine ⟨?_, ?_⟩
  · rw [List.length_append, addSize_eq (by omega)]
    exact word_setWord_self header (by omega)
  · rw [setWriteLen, piece_setWord header (by unfold metaSize; omega), List.length_append,
      ← piece_append_piece, piece_overwrite_self fits, piece_overwrite_of_apart fits (by omega),
      stores.data]

/-- Where the file is cut, what it holds is kept, and if it is mapped then that is enough. -/
def Spares (page : PageSize) (calls : SystemCalls) (writer : Writer) (image : List UInt8) (old need : Nat)
    (enough : Nat → Prop) : Prop :=
  need ≤ highest writer.bufStep old ∧
    ∀ reached, FirstReach writer.bufStep need old reached → truncates calls writer (page.alignDown reached) →
      (Maps calls writer (page.alignDown reached) →
        metaSize ≤ page.alignDown reached ∧ enough (page.alignDown reached)) ∧
      (¬ Maps calls writer (page.alignDown reached) →
        writeLen image = 0 ∨ metaSize + writeLen image ≤ page.alignDown reached)

/-- The same of a call of `check_add_length`. -/
def Spared (page : PageSize) (calls : SystemCalls) (writer : Writer) (image : List UInt8) (len : Nat)
    (enough : Nat → Prop) : Prop :=
  match writer.mapped with
  | some length =>
    if addSize (writeLen image) len ≤ length then enough length
    else calls.munmap = true →
      Spares page calls { writer with mapped := none } image length
        (addSize (addSize (writeLen image) metaSize) len) enough
  | none => Spares page calls writer image 0 (addSize (addSize 0 metaSize) len) enough

namespace World

variable {world before final ready : World} {action : Action} {enough : Nat → Prop} {wanted : Int}
  {succeeds : World → World}

/-- The file holds what was written since it was begun anew. -/
structure Holds (world : World) : Prop where
  running : world.fate = .running
  stores : Stores world.image world.written

structure Kept (world : World) : Prop where
  holds : world.Holds
  mapped : Mapped world.writer world.image

/-- The file is mapped with a length, and nothing else has happened to it. -/
structure Ready (before ready : World) (length : Nat) : Prop where
  running : ready.fate = .running
  written : ready.written = before.written
  isMapped : ready.writer.mapped = some length
  mapped : Mapped ready.writer ready.image
  sameLen : writeLen ready.image = writeLen before.image
  stores_iff : Stores ready.image before.written ↔
    writeLen before.image = 0 ∨ metaSize + writeLen before.image ≤ length

private theorem ready_remapped (kept : before.Kept) (small : length < 2 ^ 63) (long : metaSize ≤ length)
    (running : ready.fate = .running) (written : ready.written = before.written)
    (isMapped : ready.writer.mapped = some length)
    (image : ready.image = setFileLen (truncate 0 before.image length) length) :
    before.Ready ready length := by
  obtain ⟨isFileLen, sameLen⟩ := header_mapped before.image (by omega : length < 2 ^ 64) long
  refine ⟨running, written, isMapped, ⟨?_, ?_, ?_⟩, image ▸ sameLen, ?_⟩
  · intro other same
    obtain rfl : length = other := Option.some.inj (isMapped.symm.trans same)
    rw [image]
    refine ⟨?_, isFileLen⟩
    rw [setFileLen, length_setWord (by rwa [length_truncate]), length_truncate]
  · intro other same
    obtain rfl : length = other := Option.some.inj (isMapped.symm.trans same)
    exact long
  · intro other same
    obtain rfl : length = other := Option.some.inj (isMapped.symm.trans same)
    exact small
  · rw [image, Stores.setFileLen_iff (by rwa [length_truncate]), kept.holds.stores.truncate_iff]

private theorem ready_mapped (kept : before.Kept) (isMapped : before.writer.mapped = some length)
    (running : ready.fate = .running) (written : ready.written = before.written)
    (writer : ready.writer.mapped = before.writer.mapped) (image : ready.image = before.image) :
    before.Ready ready length := by
  have whole := (kept.mapped.whole length isMapped).1
  have within := kept.holds.stores.within (whole ▸ kept.mapped.header length isMapped)
  refine ⟨running, written, writer.trans isMapped, ⟨?_, ?_, ?_⟩, by rw [image], ?_⟩
  · rw [writer, image]
    exact kept.mapped.whole
  · rw [writer]
    exact kept.mapped.header
  · rw [writer]
    exact kept.mapped.small
  · rw [image]
    refine iff_of_true kept.holds.stores (.inr ?_)
    rw [kept.holds.stores.length]
    omega

private theorem kept_unmapped (running : world.fate = .running) (stores : Stores world.image world.written)
    (nothing : world.writer.mapped = none) : world.Kept := by
  refine ⟨⟨running, stores⟩, ?_, ?_, ?_⟩ <;> rw [nothing] <;> exact nofun

private theorem resume_spares (kept : before.Kept) (nothing : writer.mapped = none)
    (grown : Grown page calls writer before.image old need course)
    (spares : Spares page calls writer before.image old need enough)
    (further : ∀ ready length, before.Ready ready length → enough length → (succeeds ready).Kept) :
    (before.resume wanted course succeeds).Kept := by
  obtain ⟨ends, spared⟩ := spares
  have running := kept.holds.running
  cases grown with
  | hangs more => exact absurd ends (Nat.not_le.mpr more)
  | strays first maps short => exact absurd ((spared _ first maps.1).1 maps).1 (Nat.not_le.mpr short)
  | mapped first maps long =>
    have isEnough := ((spared _ first maps.1).1 maps).2
    exact further _ _ (ready_remapped kept maps.1.2.2 long running rfl rfl rfl) isEnough
  | unmapped first cut fails =>
    exact kept_unmapped running (kept.holds.stores.truncate_iff.mpr ((spared _ first cut).2 fails)) nothing
  | refused _ _ => exact kept_unmapped running kept.holds.stores nothing

private theorem resume_not_spares (kept : before.Kept) (small : old < 2 ^ 64)
    (grown : Grown page calls writer before.image old need course)
    (notSpared : ¬ Spares page calls writer before.image old need enough)
    (never : ∀ ready length, before.Ready ready length → ¬ enough length → ¬ (succeeds ready).Holds) :
    ¬ (before.resume wanted course succeeds).Holds := by
  have spares_of {reached : Nat} (first : FirstReach writer.bufStep need old reached)
      (spared : truncates calls writer (page.alignDown reached) →
        (Maps calls writer (page.alignDown reached) →
          metaSize ≤ page.alignDown reached ∧ enough (page.alignDown reached)) ∧
        (¬ Maps calls writer (page.alignDown reached) →
          writeLen before.image = 0 ∨ metaSize + writeLen before.image ≤ page.alignDown reached)) :
      Spares page calls writer before.image old need enough := by
    refine ⟨(exists_firstReach_iff small).mp ⟨reached, first⟩, fun other second => ?_⟩
    obtain rfl := first.unique small second
    exact spared
  cases grown with
  | hangs _ => exact fun holds => nomatch holds.running
  | strays _ _ _ => exact fun holds => nomatch holds.running
  | mapped first maps long =>
    refine never _ _ (ready_remapped kept maps.1.2.2 long kept.holds.running rfl rfl rfl) fun isEnough => ?_
    exact notSpared (spares_of first fun _ => ⟨fun _ => ⟨long, isEnough⟩, fun fails => absurd maps fails⟩)
  | unmapped first cut fails =>
    intro holds
    refine notSpared (spares_of first fun _ => ⟨fun maps => absurd maps fails, fun _ => ?_⟩)
    exact kept.holds.stores.truncate_iff.mp holds.stores
  | refused first fails => exact absurd (spares_of first fun cut => absurd cut fails) notSpared

/-- What a call of `check_add_length` and what follows it leave of the file. -/
private theorem resume_spared (kept : before.Kept)
    (spared : Spared page calls before.writer before.image len enough)
    (further : ∀ ready length, before.Ready ready length → enough length → (succeeds ready).Kept) :
    (before.resume wanted (checkAddLength page calls before.writer before.image len) succeeds).Kept := by
  have running := kept.holds.running
  cases isMapped : before.writer.mapped with
  | none =>
    simp only [Spared, isMapped] at spared
    simp only [checkAddLength, isMapped]
    exact resume_spares kept isMapped (grown_spec (by decide) _ rfl) spared further
  | some length =>
    have isLength := (kept.mapped.whole length isMapped).2
    have bound := kept.mapped.small length isMapped
    simp only [Spared, isMapped] at spared
    simp only [checkAddLength, isMapped, isLength]
    split at spared
    · rename_i room
      rw [if_pos room]
      exact further _ _ (ready_mapped kept isMapped running rfl rfl rfl) spared
    · rename_i less
      rw [if_neg less]
      cases undone : calls.munmap with
      | false => exact ⟨⟨running, kept.holds.stores⟩, kept.mapped⟩
      | true => exact resume_spares kept rfl (grown_spec (by omega) _ rfl) (spared undone) further

private theorem resume_not_spared (kept : before.Kept)
    (notSpared : ¬ Spared page calls before.writer before.image len enough)
    (never : ∀ ready length, before.Ready ready length → ¬ enough length → ¬ (succeeds ready).Holds) :
    ¬ (before.resume wanted (checkAddLength page calls before.writer before.image len) succeeds).Holds := by
  cases isMapped : before.writer.mapped with
  | none =>
    simp only [Spared, isMapped] at notSpared
    simp only [checkAddLength, isMapped]
    exact resume_not_spares kept (by decide) (grown_spec (by decide) _ rfl) notSpared never
  | some length =>
    have isLength := (kept.mapped.whole length isMapped).2
    have bound := kept.mapped.small length isMapped
    simp only [Spared, isMapped] at notSpared
    simp only [checkAddLength, isMapped, isLength]
    split at notSpared
    · rename_i room
      rw [if_pos room]
      exact never _ _ (ready_mapped kept isMapped kept.holds.running rfl rfl rfl) notSpared
    · rename_i less
      rw [if_neg less]
      cases undone : calls.munmap with
      | false => exact absurd (fun isUndone => by simp [undone] at isUndone) notSpared
      | true =>
        exact resume_not_spares kept (by omega) (grown_spec (by omega) _ rfl)
          (fun spares => notSpared fun _ => spares) never

/-- What the file holds is kept: it is begun anew, or is not cut within what it holds, and a write has
room for the header too. -/
def Fine (page : PageSize) (world : World) : Action → Prop
  | .openFile calls _ isAppend initBufLength bufStep => calls.openFile = true →
    Spared page calls { world.writer with isOpen := true, bufStep := offSize bufStep } world.image
      (offSize initBufLength) fun length =>
        (!world.created || !isAppend) = true ∨ writeLen world.image = 0 ∨
          metaSize + writeLen world.image ≤ length
  | .write calls data => data ≠ [] →
    Spared page calls world.writer world.image data.length fun length =>
      metaSize + writeLen world.image + data.length ≤ length
  | .close _ => True

private theorem Ready.isLength (mapped : before.Ready ready length) :
    ready.image.length = length ∧ fileLen ready.image = length ∧ metaSize ≤ length ∧ length < 2 ^ 63 := by
  obtain ⟨isLength, isFileLen⟩ := mapped.mapped.whole length mapped.isMapped
  exact ⟨isLength, isFileLen, mapped.mapped.header length mapped.isMapped,
    mapped.mapped.small length mapped.isMapped⟩

private theorem Ready.copyData (mapped : before.Ready ready length)
    (room : metaSize + writeLen before.image + data.length ≤ length) : (ready.copyData data).Kept := by
  obtain ⟨isLength, isFileLen, _, small⟩ := mapped.isLength
  have stores : Stores ready.image ready.written := by
    rw [mapped.written]
    exact mapped.stores_iff.mpr (.inr (by omega))
  have enough : (metaSize + writeLen ready.image : Nat) + (data.length : Int) ≤ (fileLen ready.image : Int) := by
    rw [mapped.sameLen, isFileLen]
    omega
  obtain ⟨appended, appends, kept⟩ :=
    append_fits mapped.mapped (by rw [mapped.isMapped, isFileLen]) enough
  rw [append, if_pos (by rw [mapped.sameLen, mapped.isMapped]; exact room)] at appends
  have same := (Option.some.inj appends).symm
  have fits : metaSize + ready.written.length + data.length ≤ ready.image.length := by
    rw [← stores.length, mapped.sameLen, isLength]
    exact room
  rw [World.copyData, append, if_pos (by rw [mapped.sameLen, mapped.isMapped]; exact room), appends]
  exact ⟨⟨mapped.running, same ▸ stores.append fits (by omega)⟩, kept⟩

private theorem Ready.not_copyData (mapped : before.Ready ready length)
    (noRoom : ¬ metaSize + writeLen before.image + data.length ≤ length) :
    ¬ (ready.copyData data).Holds := by
  intro holds
  have running := holds.running
  rw [World.copyData, append, if_neg (by rw [mapped.sameLen, mapped.isMapped]; exact noRoom)] at running
  cases running

private theorem Ready.opened (mapped : before.Ready ready length) (anew : Bool) (itemSize : Nat)
    (kept : anew = true ∨ writeLen before.image = 0 ∨ metaSize + writeLen before.image ≤ length) :
    (if anew then ready.beginAnew itemSize else ready).Kept := by
  obtain ⟨isLength, _, header, _⟩ := mapped.isLength
  cases anew with
  | true => exact ⟨⟨mapped.running, stores_beginAnew (by omega) itemSize⟩, mapped_beginAnew mapped.mapped itemSize⟩
  | false =>
    have stores := mapped.stores_iff.mpr (kept.resolve_left nofun)
    exact ⟨⟨mapped.running, mapped.written ▸ stores⟩, mapped.mapped⟩

private theorem Ready.not_opened (mapped : before.Ready ready length) (anew : Bool) (itemSize : Nat)
    (cut : ¬ (anew = true ∨ writeLen before.image = 0 ∨ metaSize + writeLen before.image ≤ length)) :
    ¬ (if anew then ready.beginAnew itemSize else ready).Holds := by
  cases anew with
  | true => exact absurd (.inl rfl) cut
  | false =>
    intro holds
    refine cut (.inr (mapped.stores_iff.mp ?_))
    exact mapped.written ▸ holds.stores

private theorem close_kept (kept : before.Kept) (calls : SystemCalls) :
    Stores (close calls before.writer before.image).2 before.written := by
  have stores := kept.holds.stores
  unfold close
  split
  · rename_i length isMapped
    obtain ⟨isLength, isFileLen⟩ := kept.mapped.whole length isMapped
    have header := kept.mapped.header length isMapped
    have bound := kept.mapped.small length isMapped
    have within := stores.within (by omega)
    have kept : Stores (setFileLen before.image (addSize (writeLen before.image) metaSize)) before.written :=
      (Stores.setFileLen_iff (by omega)).mpr stores
    simp only
    split
    · refine kept.truncate_iff.mpr (.inr ?_)
      rw [kept.length, stores.length, addSize_eq (by omega), Nat.add_comm]
    · exact kept
  · exact stores

private theorem holds_iff {fine : Prop} (good : fine → final.Kept) (bad : ¬ fine → ¬ final.Holds) :
    (final.Holds ↔ fine) ∧ (final.Holds → Mapped final.writer final.image) := by
  have only : final.Holds → fine := fun holds => by_contra fun other => bad other holds
  exact ⟨⟨only, fun holds => (good holds).holds⟩, fun holds => (good (only holds)).mapped⟩

/-- A step keeps what the file holds if and only if it is fine. -/
private theorem holds_step (kept : before.Kept) (taken : before.next page action = some final) :
    (final.Holds ↔ before.Fine page action) ∧ (final.Holds → Mapped final.writer final.image) := by
  unfold next at taken
  rw [if_pos kept.holds.running] at taken
  cases action with
  | openFile calls itemSize isAppend initBufLength bufStep =>
    cases opens : calls.openFile with
    | false =>
      simp only [opens, Bool.false_eq_true, if_false, Option.some.injEq] at taken
      subst taken
      refine holds_iff (fun _ => ⟨⟨kept.holds.running, kept.holds.stores⟩, ?_⟩) fun noRoom => ?_
      · exact ⟨kept.mapped.whole, kept.mapped.header, kept.mapped.small⟩
      · exact absurd (fun isOpen => by simp [opens] at isOpen) noRoom
    | true =>
      simp only [opens, if_true, Option.some.injEq] at taken
      subst taken
      have begun : Kept { before with
          created := true, writer := { before.writer with isOpen := true, bufStep := offSize bufStep } } :=
        ⟨⟨kept.holds.running, kept.holds.stores⟩, kept.mapped.whole, kept.mapped.header, kept.mapped.small⟩
      exact holds_iff
        (fun fine => resume_spared begun (fine opens) fun _ _ mapped => mapped.opened _ itemSize)
        fun cut => resume_not_spared begun (fun spared => cut fun _ => spared)
          fun _ _ mapped => mapped.not_opened _ itemSize
  | write calls data =>
    by_cases empty : data = []
    · simp only [empty, if_true, Option.some.injEq] at taken
      subst taken
      exact holds_iff (fun _ => kept) fun cut => absurd (fun some => absurd empty some) cut
    · simp only [if_neg empty] at taken
      split at taken
      · cases taken
        exact holds_iff
          (fun fine => resume_spared kept (fine empty) fun _ _ mapped => mapped.copyData)
          fun cut => resume_not_spared kept (fun spared => cut fun _ => spared)
            fun _ _ mapped => mapped.not_copyData
      · cases taken
  | close calls =>
    simp only [Option.some.injEq] at taken
    subst taken
    exact holds_iff
      (fun _ => ⟨⟨kept.holds.running, close_kept kept calls⟩, mapped_close kept.mapped calls⟩)
      fun cut => absurd trivial cut

/-- In every run of a file that is not there at first, it holds what was written since it was begun
anew, all along, if and only if no call cuts it within that or writes past its end. -/
theorem holds_iff_fine {actions : List Action} {last : World}
    (path : Path (Taken (next page)) (start false []) actions last) :
    (∀ world, Visits (Taken (next page)) (start false []) actions world → world.Holds) ↔
      ∀ world action, Takes (Taken (next page)) (start false []) actions world action →
        world.Fine page action := by
  refine path.visits_iff_all_takes (fun world => Mapped world.writer world.image) ?_
    ⟨rfl, by decide, rfl⟩ ⟨nofun, nofun, nofun⟩
  intro before action after mapped holds taken
  exact holds_step ⟨holds, mapped⟩ taken

/-- A file is closed, opened again and appended to. -/
theorem holds_iff_fine_reopened :
    let page : PageSize := ⟨4096, 12, by decide, rfl⟩
    let calls : SystemCalls := ⟨true, true, true, true⟩
    let actions : List Action := [.openFile calls 1 true 1 4096, .write calls [1, 2, 3], .close calls,
      .openFile calls 1 true 8192 4096, .write calls [4], .close calls]
    (∀ world, Visits (Taken (next page)) (start false []) actions world → world.Holds) ↔
      ∀ world action, Takes (Taken (next page)) (start false []) actions world action →
        world.Fine page action := by
  intro page calls actions
  have runs : (exec (next page) (start false []) actions).isSome := by decide +kernel
  obtain ⟨last, run⟩ := Option.isSome_iff_exists.mp runs
  exact holds_iff_fine (exec_eq_some_iff.mp run)

/-- A file of 8000 bytes is opened again for one byte more: it is cut to one page. -/
theorem not_holds_reopened :
    let page : PageSize := ⟨4096, 12, by decide, rfl⟩
    let calls : SystemCalls := ⟨true, true, true, true⟩
    let bytes : List UInt8 := List.replicate 4000 7
    let actions : List Action :=
      [.openFile calls 1 true 1 4096, .write calls bytes, .write calls bytes, .close calls]
    ∃ closed reopened, exec (next page) (start false []) actions = some closed ∧
        closed.image.length = metaSize + 8000 ∧ writeLen closed.image = 8000 ∧
      exec (next page) (start false []) (actions ++ [.openFile calls 1 true 1 4096]) = some reopened ∧
        reopened.image.length = 4096 ∧ ¬ reopened.Holds := by
  intro page calls bytes actions
  have lengths : ((exec (next page) (start false []) actions).bind fun closed =>
      (next page closed (.openFile calls 1 true 1 4096)).map fun reopened =>
        (closed.image.length, writeLen closed.image, reopened.image.length, reopened.written.length)) =
      some (metaSize + 8000, 8000, 4096, 8000) := by
    decide +kernel
  obtain ⟨closed, run, rest⟩ := Option.bind_eq_some_iff.mp lengths
  obtain ⟨reopened, opens, same⟩ := Option.map_eq_some_iff.mp rest
  obtain ⟨isLength, same⟩ := Prod.mk.inj same
  obtain ⟨isWritten, same⟩ := Prod.mk.inj same
  obtain ⟨isCut, stays⟩ := Prod.mk.inj same
  have again := exec_eq_some_iff.mpr ((exec_eq_some_iff.mp run).snoc opens)
  refine ⟨closed, reopened, run, isLength, isWritten, again, isCut, fun holds => ?_⟩
  have within := holds.stores.within (by rw [isCut]; decide)
  rw [isCut, stays] at within
  exact absurd within (by decide)

end World

end BTool.MMapFile.Vector
