import BTool.Foundation.Transition
import BTool.MMapFile.FixBufferOpening

/-! What a `FixBuffer::Writer` hands out stays apart, inside of the mapping and as it is in every run,
and the space that is asked for is there where whole pages make it up. -/

namespace BTool.MMapFile

open BTool.Foundation BTool.Foundation.Image BTool.Foundation.Path

namespace Fix

namespace World

variable {File : Type} {page : PageSize} {world after : World File} {file : File}

/-- What a writer has to be given. A file that is opened gets room for its header. With a new one, the
buffer that is asked for and the header take up a page at most, or whole pages. With one that something
is added to, there is room for what was free before, for what is added, and for the data of the file.
-/
def Fine (page : PageSize) (world : World File) : Action File → Prop
  | .openFile calls file bufferSize _ =>
    calls.openFile = true ∧ Opens calls (world.files file) (world.reached page file bufferSize) →
      world.Room page file (addSize metaSize bufferSize) metaSize ∧
      (world.files file = none → metaSize + bufferSize ≤ page.size ∨
        metaSize + bufferSize < 2 ^ 64 ∧ page.size ∣ metaSize + bufferSize)
  | .addFileLen calls len => ∀ file length image path, world.mapped = some (file, length) →
      world.files file = some image → world.path = some path →
      let bufferSize := subSize (addSize (fileSize image) len) metaSize
      calls.openFile = true ∧ Opens calls (world.files path) (world.reached page path bufferSize) →
        world.Room page path (addSize (fileSize image) len) metaSize ∧
        world.Room page path (addSize (fileSize image) len)
          (free image + len + (metaSize + (world.files path).elim 0 writeLen))
  | _ => True

theorem addSize_subSize (size : Nat) : addSize metaSize (subSize size metaSize) = size % 2 ^ 64 := by
  unfold addSize subSize metaSize
  omega

/-- Where a file holds all that is asked for. -/
theorem room_addSize_iff (size more : Nat) : world.Room page file (addSize size more) (size + more) ↔
    (∃ image, world.files file = some image ∧ size + more ≤ image.length) ∨
      size + more ≤ page.size ∨ size + more < 2 ^ 64 ∧ page.size ∣ size + more := by
  have wraps : addSize size more ≤ size + more := Nat.mod_le ..
  refine or_congr_right ?_
  constructor
  · rintro ⟨pages, reaches, within⟩
    by_cases one : size + more ≤ page.size
    · exact .inl one
    · have whole : pages * page.size = size + more := by omega
      refine .inr ⟨?_, whole ▸ Nat.dvd_mul_left ..⟩
      have below : addSize size more < 2 ^ 64 := Nat.mod_lt _ (by decide)
      omega
  · rintro (one | ⟨small, pages, whole⟩)
    · exact ⟨1, by omega, by omega⟩
    · refine ⟨pages, by rw [whole, Nat.mul_comm], ?_⟩
      rw [addSize_eq small, Nat.mul_comm, ← whole]
      exact Nat.le_max_left ..

/-- A new file holds what is asked for if that takes up a page at most, or whole pages. -/
theorem room_new_iff (isNew : world.files file = none) (bufferSize : Nat) :
    world.Room page file (addSize metaSize bufferSize) (metaSize + bufferSize) ↔
      metaSize + bufferSize ≤ page.size ∨
        metaSize + bufferSize < 2 ^ 64 ∧ page.size ∣ metaSize + bufferSize := by
  rw [room_addSize_iff]
  simp [isNew]

theorem fine_addFileLen_iff {calls : SystemCalls} {length len : Nat} {image : List UInt8} {path : File}
    (mapped : world.mapped = some (file, length)) (isImage : world.files file = some image)
    (isPath : world.path = some path) :
    let bufferSize := subSize (addSize (fileSize image) len) metaSize
    Fine page world (.addFileLen calls len) ↔
      (calls.openFile = true ∧ Opens calls (world.files path) (world.reached page path bufferSize) →
        world.Room page path (addSize (fileSize image) len) metaSize ∧
        world.Room page path (addSize (fileSize image) len)
          (free image + len + (metaSize + (world.files path).elim 0 writeLen))) := by
  constructor
  · exact fun fine => fine file length image path mapped isImage isPath
  · intro fine file' length' image' path' mapped' isImage' isPath'
    obtain ⟨rfl, rfl⟩ := Prod.mk.inj (Option.some.inj (mapped.symm.trans mapped'))
    obtain rfl := Option.some.inj (isImage.symm.trans isImage')
    obtain rfl := Option.some.inj (isPath.symm.trans isPath')
    exact fine

/-- The file that is mapped grows by what is added if it was longer before, or is so a page at most, or
whole pages. -/
theorem fine_addFileLen_mapped_iff {calls : SystemCalls} {length len : Nat} {image : List UInt8}
    (kept : world.Kept) (mapped : world.mapped = some (file, length))
    (isImage : world.files file = some image) (isPath : world.path = some file) :
    let bufferSize := subSize (addSize (fileSize image) len) metaSize
    Fine page world (.addFileLen calls len) ↔
      (calls.openFile = true ∧ Opens calls (world.files file) (world.reached page file bufferSize) →
        world.Room page file (addSize (fileSize image) len) metaSize ∧
        (fileSize image + len ≤ image.length ∨ fileSize image + len ≤ page.size ∨
          fileSize image + len < 2 ^ 64 ∧ page.size ∣ fileSize image + len)) := by
  intro bufferSize
  obtain ⟨image', isImage', opened⟩ := kept.opened file length mapped
  obtain rfl := Option.some.inj (isImage.symm.trans isImage')
  have room := opened.room
  have all : free image + len + (metaSize + (world.files file).elim 0 writeLen) = fileSize image + len := by
    rw [isImage, Option.elim_some, free_eq opened (kept.stored file image isImage).small, opened.isSize]
    omega
  refine (fine_addFileLen_iff mapped isImage isPath).trans (imp_congr_right fun _ => and_congr_right' ?_)
  rw [all, room_addSize_iff]
  simp [isImage]

theorem kept_start : (start : World File).Kept :=
  ⟨fun _ _ => rfl, nofun, nofun⟩

/-- A step at which all that is promised is kept. -/
theorem Kept.stays (kept : after.Kept) (running : after.strayed = false) (fitted : after.fitted = true)
    {fine : Prop} (isFine : fine) : (after.Holds ↔ fine) ∧ (after.Holds → after.Kept) :=
  ⟨iff_of_true (kept.holds running fitted) isFine, fun _ => kept⟩

variable [DecidableEq File]

/-- What is done to the file that is mapped. -/
theorem Kept.rewrite {length : Nat} {image : List UInt8} {regions : List (Region UInt8)} (kept : world.Kept)
    (mapped : world.mapped = some (file, length)) (stored : Stored image regions)
    (opened : Opened image length) :
    ({ world.setImage file image with
      regions := Function.update world.regions file regions } : World File).Kept := by
  refine kept.change rfl (fun other different => Function.update_of_ne different ..) ?_ ?_
  · simpa using stored
  · intro other length' isMapped
    obtain ⟨rfl, rfl⟩ := Prod.mk.inj (Option.some.inj (mapped.symm.trans isMapped))
    exact .inl ⟨rfl, opened⟩

theorem holds_openFile (page : PageSize) (kept : world.Kept) (holds : world.Holds) (calls : SystemCalls)
    (file : File) (bufferSize : Nat) (isAppend : Bool) :
    let result := openFile page calls world file bufferSize isAppend
    let after := world.settle result ((world.files file).isSome || leaves result bufferSize)
    (after.Holds ↔ Fine page world (.openFile calls file bufferSize isAppend)) ∧
      (after.Holds → after.Kept) := by
  intro result after
  obtain ⟨exactly, keeps⟩ := settle_openFile page kept holds.running holds.fitted calls file bufferSize
    bufferSize isAppend (world.files file).isSome
  refine ⟨exactly.trans (imp_congr_right fun _ => ?_), keeps⟩
  rw [le_reached_iff]
  refine and_congr_right' ?_
  cases isFound : world.files file with
  | some image => simp
  | none =>
    rw [← room_new_iff isFound bufferSize, ← le_reached_iff]
    simp [Nat.add_comm]

theorem holds_addFileLen (page : PageSize) (kept : world.Kept) (holds : world.Holds) (calls : SystemCalls)
    {length : Nat} {image : List UInt8} {path : File} (mapped : world.mapped = some (file, length))
    (isImage : world.files file = some image) (isPath : world.path = some path) (len : Nat) :
    let bufferSize := subSize (addSize (fileSize image) len) metaSize
    let result := openFile page calls { world with mapped := none } path bufferSize true
    let after := world.settle result (leaves result (free image + len))
    (after.Holds ↔ Fine page world (.addFileLen calls len)) ∧ (after.Holds → after.Kept) := by
  intro bufferSize result after
  obtain ⟨exactly, keeps⟩ := settle_openFile page kept.unmapped holds.running holds.fitted calls path
    bufferSize (free image + len) true false
  refine ⟨exactly.trans ((fine_addFileLen_iff mapped isImage isPath).trans ?_).symm, keeps⟩
  have asked : addSize metaSize bufferSize = addSize (fileSize image) len := by
    rw [addSize_subSize]
    exact Nat.mod_mod ..
  have written : (if ((world.files path).isNone || !true) = true then 0
      else writeLen ((world.files path).getD [])) = (world.files path).elim 0 writeLen := by
    cases world.files path <;> rfl
  refine imp_congr_right fun _ => ?_
  rw [← asked, ← le_reached_iff, ← le_reached_iff, ← written]
  exact and_congr_right' ⟨fun reaches _ => reaches, fun reaches => reaches rfl⟩

theorem holds_write {length : Nat} {image msg : List UInt8} (kept : world.Kept) (holds : world.Holds)
    (mapped : world.mapped = some (file, length)) (isImage : world.files file = some image) :
    ((world.write file length image msg).Holds ↔ True) ∧
      ((world.write file length image msg).Holds → (world.write file length image msg).Kept) := by
  obtain ⟨image', isImage', opened⟩ := kept.opened file length mapped
  obtain rfl := Option.some.inj (isImage.symm.trans isImage')
  have stored := kept.stored file image isImage
  have room := opened.room
  unfold write
  split
  · rename_i fits
    rw [free_eq opened stored.small] at fits
    have inside : metaSize + writeLen image + msg.length ≤ length := by omega
    obtain ⟨stored', opened'⟩ := stored.write opened inside
    rw [if_pos inside]
    exact (kept.rewrite mapped stored' opened').stays holds.running holds.fitted trivial
  · exact kept.stays holds.running holds.fitted trivial

theorem holds_getData {length len : Nat} {image : List UInt8} (kept : world.Kept) (holds : world.Holds)
    (mapped : world.mapped = some (file, length)) (isImage : world.files file = some image) :
    ((world.getData file image len).Holds ↔ True) ∧
      ((world.getData file image len).Holds → (world.getData file image len).Kept) := by
  obtain ⟨image', isImage', opened⟩ := kept.opened file length mapped
  obtain rfl := Option.some.inj (isImage.symm.trans isImage')
  have stored := kept.stored file image isImage
  have room := opened.room
  have inFile := opened.inFile
  unfold getData
  split
  · exact kept.stays holds.running holds.fitted trivial
  · rename_i fits
    obtain ⟨_, fits⟩ := not_or.mp fits
    rw [not_not, free_eq opened stored.small] at fits
    have isLength : (piece image (metaSize + writeLen image) len).length = len := length_piece (by omega)
    obtain ⟨stored', opened'⟩ := stored.handOut opened (piece image (metaSize + writeLen image) len)
      (by rw [isLength]) (by omega)
    rw [isLength] at stored' opened'
    exact (kept.rewrite mapped stored' opened').stays holds.running holds.fitted trivial

/-- A step keeps what is promised exactly when there is the space. -/
theorem holds_step {action : Action File} (kept : world.Kept) (holds : world.Holds)
    (taken : next page world action = some after) :
    (after.Holds ↔ Fine page world action) ∧ (after.Holds → after.Kept) := by
  have running : ¬world.strayed = true := by simp [holds.running]
  unfold next at taken
  rw [if_neg running] at taken
  cases action with
  | openFile calls file bufferSize isAppend =>
    obtain ⟨_, taken⟩ := Option.ite_none_right_eq_some.mp taken
    obtain rfl := Option.some.inj taken
    exact holds_openFile page kept holds calls file bufferSize isAppend
  | write msg =>
    obtain ⟨⟨file, length⟩, mapped, taken⟩ := Option.bind_eq_some_iff.mp taken
    obtain ⟨image, isImage, taken⟩ := Option.bind_eq_some_iff.mp taken
    obtain ⟨_, taken⟩ := Option.ite_none_right_eq_some.mp taken
    obtain rfl := Option.some.inj taken
    exact holds_write kept holds mapped isImage
  | getData len =>
    obtain ⟨⟨file, length⟩, mapped, taken⟩ := Option.bind_eq_some_iff.mp taken
    obtain ⟨image, isImage, taken⟩ := Option.bind_eq_some_iff.mp taken
    obtain ⟨_, taken⟩ := Option.ite_none_right_eq_some.mp taken
    obtain rfl := Option.some.inj taken
    exact holds_getData kept holds mapped isImage
  | fill front region back bytes =>
    obtain ⟨⟨file, length⟩, mapped, taken⟩ := Option.bind_eq_some_iff.mp taken
    obtain ⟨image, isImage, taken⟩ := Option.bind_eq_some_iff.mp taken
    obtain ⟨⟨isRegions, same⟩, taken⟩ := Option.ite_none_right_eq_some.mp taken
    obtain rfl := Option.some.inj taken
    obtain ⟨image', isImage', opened⟩ := kept.opened file length mapped
    obtain rfl := Option.some.inj (isImage.symm.trans isImage')
    have stored := kept.stored file image isImage
    rw [isRegions] at stored
    obtain ⟨stored', opened'⟩ := stored.fill opened same
    exact (kept.rewrite mapped stored' opened').stays holds.running holds.fitted trivial
  | addFileLen calls len =>
    obtain ⟨⟨file, length⟩, mapped, taken⟩ := Option.bind_eq_some_iff.mp taken
    obtain ⟨image, isImage, taken⟩ := Option.bind_eq_some_iff.mp taken
    obtain ⟨path, isPath, taken⟩ := Option.bind_eq_some_iff.mp taken
    obtain ⟨_, taken⟩ := Option.ite_none_right_eq_some.mp taken
    obtain rfl := Option.some.inj taken
    exact holds_addFileLen page kept holds calls mapped isImage isPath len
  | close =>
    obtain rfl := Option.some.inj taken
    exact kept.unmapped.stays holds.running holds.fitted trivial

/-- In every run the free space does not wrap round, what is handed out is apart, inside of the mapping
and as it was written, and the space that is asked for is there, if and only if the writer is given
what it has to be at every step. -/
theorem writer_holds_iff {actions : List (Action File)} {last : World File}
    (path : Path (Taken (next page)) start actions last) :
    (∀ world, Visits (Taken (next page)) start actions world → world.Holds) ↔
      ∀ world action, Takes (Taken (next page)) start actions world action → Fine page world action := by
  refine path.visits_iff_all_takes Kept ?_ (kept_start.holds rfl rfl) kept_start
  intro before action after kept holds taken
  exact holds_step kept holds taken

/-- A file of one page to which one is added. -/
theorem writer_holds_iff_two_pages :
    let page : PageSize := ⟨4096, 12, by decide, rfl⟩
    let calls : SystemCalls := ⟨true, true, true, true⟩
    let actions : List (Action Unit) := [.openFile calls () 4079 true, .write [1, 2, 3], .getData 2,
      .fill [] ⟨17, [1, 2, 3]⟩ [⟨20, [0, 0]⟩] [7, 8, 9], .addFileLen calls 4096, .write [4], .close]
    (∀ world, Visits (Taken (next page)) start actions world → world.Holds) ↔
      ∀ world action, Takes (Taken (next page)) start actions world action → Fine page world action := by
  intro page calls actions
  have runs : (exec (next page) start actions).isSome := by decide +kernel
  obtain ⟨last, run⟩ := Option.isSome_iff_exists.mp runs
  exact writer_holds_iff (exec_eq_some_iff.mp run)

/-- A new file for 5000 bytes is one of 4096, and one of 4096 bytes stays as it is when 100 are added. -/
theorem not_writer_holds :
    let page : PageSize := ⟨4096, 12, by decide, rfl⟩
    let calls : SystemCalls := ⟨true, true, true, true⟩
    let larger : List (Action Unit) := [.openFile calls () 5000 true]
    let grown : List (Action Unit) := [.openFile calls () 4079 true, .addFileLen calls 100]
    (∃ last, exec (next page) start larger = some last ∧ last.freeSpace = some 4079 ∧
      ¬∀ world, Visits (Taken (next page)) start larger world → world.Holds) ∧
    ∃ last, exec (next page) start grown = some last ∧ last.freeSpace = some 4079 ∧
      ¬∀ world, Visits (Taken (next page)) start grown world → world.Holds := by
  intro page calls larger grown
  have lost {actions : List (Action Unit)} {last : World Unit}
      (run : exec (next page) start actions = some last) (short : last.fitted = false) :
      ¬∀ world, Visits (Taken (next page)) start actions world → world.Holds := fun always => by
    have holds := always last ⟨actions, [], (List.append_nil _).symm, exec_eq_some_iff.mp run⟩
    exact absurd (short.symm.trans holds.fitted) (by decide)
  have first : ∃ last ∈ exec (next page) start larger,
      last.freeSpace = some 4079 ∧ last.fitted = false := by
    decide +kernel
  have second : ∃ last ∈ exec (next page) start grown,
      last.freeSpace = some 4079 ∧ last.fitted = false := by
    decide +kernel
  obtain ⟨opened, run, space, short⟩ := first
  obtain ⟨added, run', space', short'⟩ := second
  exact ⟨⟨opened, run, space, lost run short⟩, added, run', space', lost run' short'⟩

end World

end Fix

end BTool.MMapFile
