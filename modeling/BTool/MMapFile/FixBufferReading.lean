import BTool.MMapFile.FixBufferHeader

/-! The life of a file: a `FixBuffer::Writer` with its `finished_write`, and a `FixBuffer::Reader` that opens the
file at any time. -/

namespace BTool.MMapFile

open BTool.Foundation BTool.Foundation.Image BTool.Foundation.Path

namespace Fix

/-- What the system says of the calls of `Reader::open`, of which the first three are those of the `Mapper`. -/
structure ReaderCalls where
  mapperOpen : Bool
  mapperTruncate : Bool
  mapperMmap : Bool
  openFile : Bool
  fstat : Bool
  mmap : Bool
deriving DecidableEq

/-- No call fails. -/
def ReaderCalls.all : ReaderCalls := ⟨true, true, true, true, true, true⟩

/-- What is mapped behind `get_data`, `get_length` and `finished`. -/
structure Found where
  data : List UInt8
  length : Nat
  finished : Bool
deriving DecidableEq

/-- The files with their writer. -/
structure Life (File : Type) where
  world : World File
  /-- The file behind `m_shm_fd`. -/
  fd : Option File
  /-- The files that the writer has finished and has not mapped since. -/
  finished : File → Bool

inductive LifeAction (File : Type) where
  | writer (action : Action File)
  | finish (truncates : Bool)
  | read (calls : ReaderCalls) (file : File)

variable {File : Type} [DecidableEq File]

namespace World

/-- `Mapper<MetaSt>::open`. It makes a file that is not there. -/
def mapperOpen (page : PageSize) (calls : ReaderCalls) (world : World File) (file : File) :
    ErrorT × World File :=
  if calls.mapperOpen then
    match world.files file with
    | some _ => (if (mmap page calls.mapperMmap metaSize 0).isSome then .ok else .mmapFail, world)
    | none =>
      if calls.mapperTruncate then
        (if (mmap page calls.mapperMmap metaSize 0).isSome then .ok else .mmapFail,
          world.setImage file (List.replicate metaSize 0))
      else (.ftruncateFail, world.setImage file [])
  else (.openFail, world)

/-- `Reader::open` of a file that the `Mapper` has opened. To read the header of a file without bytes is a
fault. -/
def readerOpenImpl (page : PageSize) (calls : ReaderCalls) (image : List UInt8) : Option (ErrorT × Option Found) :=
  if image = [] then none
  else
    let size := addSize metaSize (writeLen image)
    if calls.openFile = false ∨ calls.fstat = false ∨ image.length < size then some (.openFail, none)
    else
      match mmap page calls.mmap size 0 with
      | none => some (.mmapFail, none)
      | some mapping =>
        some (.ok, some
          ⟨piece image metaSize (mapping.length - metaSize), writeLen image, hasFinished image⟩)

def readerOpen (page : PageSize) (calls : ReaderCalls) (world : World File) (file : File) :
    Option ((ErrorT × Option Found) × World File) :=
  match mapperOpen page calls world file with
  | (.ok, world) =>
    match world.files file with
    | none => none
    | some image => (readerOpenImpl page calls image).map (·, world)
  | (error, world) => some ((error, none), world)

/-- The file behind `m_shm_fd` once a file is opened. -/
def openedFd (calls : SystemCalls) (world : World File) (file : File) : Option File :=
  if calls.openFile = false ∨ ((world.files file).isSome && !calls.fstat) = true then none else some file

/-- `ftruncate(m_shm_fd, file_size)`. Nobody asks whether it succeeds. -/
def cut (world : World File) (fd : Option File) (truncates : Bool) (size : Nat) : World File :=
  match fd with
  | none => world
  | some file =>
    match world.files file with
    | none => world
    | some image =>
      if truncates = true ∧ size < 2 ^ 63 then world.setImage file (truncate 0 image size) else world

end World

namespace Life

def start : Life File := ⟨World.start, none, fun _ => false⟩

def finishedWrite (life : Life File) (truncates : Bool) : Life File :=
  match life.world.mapped with
  | none => { life with fd := none }
  | some (file, _) =>
    match life.world.files file with
    | none => { life with fd := none }
    | some image =>
      let size := addSize (writeLen image) metaSize
      let world :=
        { life.world.setImage file (setFileSize (setHasFinished image true) size) with mapped := none }
      ⟨world.cut life.fd truncates size, none, Function.update life.finished file true⟩

/-- The file behind `m_shm_fd` after an operation of the writer. -/
def fdAfter (life : Life File) : Action File → Option File
  | .openFile calls file _ _ => life.world.openedFd calls file
  | .addFileLen calls _ => life.world.path.bind (life.world.openedFd calls)
  | .close => none
  | _ => life.fd

def next (page : PageSize) (life : Life File) : LifeAction File → Option (Life File)
  | .writer action => do
    let world ← life.world.next page action
    return ⟨world, life.fdAfter action, fun file => life.finished file && !world.maps file⟩
  | .finish truncates => if life.world.strayed then none else some (life.finishedWrite truncates)
  | .read calls file => do
    let result ← life.world.readerOpen page calls file
    return { life with world := result.2 }

/-- What a reader finds in any file when no call fails. It makes a file that is not there, and is lost with one
that has no bytes. Otherwise it finds what was handed out of the file, and whether the writer has finished it. -/
def Reads (page : PageSize) (life : Life File) : Prop :=
  ∀ file, life.world.readerOpen page .all file =
    match life.world.files file with
    | none => some ((.ok, some ⟨[], 0, false⟩), life.world.setImage file (List.replicate metaSize 0))
    | some [] => none
    | some (_ :: _) =>
      some ((.ok, some ⟨contents (life.world.regions file), total (life.world.regions file), life.finished file⟩),
        life.world)

/-- The file that `finished_write` cuts has no more data than the one it is called for. -/
def Spares (life : Life File) : LifeAction File → Prop
  | .finish truncates => truncates = true → ∀ file length other, life.world.mapped = some (file, length) →
      life.fd = some other → total (life.world.regions other) ≤ total (life.world.regions file)
  | _ => True

section

variable {page : PageSize} {life after last : Life File} {world : World File} {file : File} {image : List UInt8}
  {finished : File → Bool} {truncates : Bool} {size : Nat} {actions : List (LifeAction File)}

/-- What is true at any time. -/
structure Sound (life : Life File) : Prop where
  world : life.world.Sound
  marks : ∀ file, World.finishedIn (life.world.files file) = life.finished file

theorem mmap_whole (page : PageSize) (some_bytes : size ≠ 0) : mmap page true size 0 = some ⟨0, size⟩ :=
  if_pos ⟨rfl, some_bytes, Nat.dvd_zero _⟩

omit [DecidableEq File] in
/-- The header and the data of a file lie in the file. -/
theorem header_le (sound : world.Sound) (isImage : world.files file = some image) (filled : image ≠ []) :
    metaSize + writeLen image ≤ image.length := by
  have header := (sound.headed file image isImage).resolve_left filled
  rcases (sound.kept.stored file image isImage).fits with fits | ⟨empty, _⟩
  · exact fits
  · rwa [empty]

/-- A file that has what its header says is opened. -/
theorem readerOpenImpl_eq (filled : image ≠ []) (within : metaSize + writeLen image ≤ image.length)
    (small : image.length < 2 ^ 63) :
    World.readerOpenImpl page .all image =
      some (.ok, some ⟨piece image metaSize (writeLen image), writeLen image, hasFinished image⟩) := by
  have sum : addSize metaSize (writeLen image) = metaSize + writeLen image := addSize_eq (by omega)
  have isThere : metaSize + writeLen image ≠ 0 := by
    unfold metaSize
    omega
  have goesOn : ¬(ReaderCalls.all.openFile = false ∨ ReaderCalls.all.fstat = false ∨
      image.length < metaSize + writeLen image) := by
    rintro (failed | failed | short)
    · cases failed
    · cases failed
    · omega
  unfold World.readerOpenImpl
  simp only
  rw [if_neg filled, sum, if_neg goesOn, show ReaderCalls.all.mmap = true from rfl, mmap_whole page isThere]
  simp only [Nat.add_sub_cancel_left]

theorem readerOpen_eq_of_some (isImage : world.files file = some image) :
    world.readerOpen page .all file = (World.readerOpenImpl page .all image).map (·, world) := by
  have maps : (mmap page ReaderCalls.all.mapperMmap metaSize 0).isSome = true := by
    rw [show ReaderCalls.all.mapperMmap = true from rfl, mmap_whole page (by decide)]
    rfl
  have opens : world.mapperOpen page .all file = (.ok, world) := by
    unfold World.mapperOpen
    rw [if_pos (show ReaderCalls.all.mapperOpen = true from rfl), isImage]
    simp only [maps, if_true]
  unfold World.readerOpen
  rw [opens]
  simp only [isImage]

theorem readerOpen_eq_of_none (isNone : world.files file = none) :
    world.readerOpen page .all file =
      some ((.ok, some ⟨[], 0, false⟩), world.setImage file (List.replicate metaSize 0)) := by
  have maps : (mmap page ReaderCalls.all.mapperMmap metaSize 0).isSome = true := by
    rw [show ReaderCalls.all.mapperMmap = true from rfl, mmap_whole page (by decide)]
    rfl
  have opens : world.mapperOpen page .all file = (.ok, world.setImage file (List.replicate metaSize 0)) := by
    unfold World.mapperOpen
    rw [if_pos (show ReaderCalls.all.mapperOpen = true from rfl), isNone]
    simp only [maps, if_true]
    rfl
  have header : writeLen (List.replicate metaSize 0) = 0 := by decide
  have empty : World.readerOpenImpl page .all (List.replicate metaSize 0) = some (.ok, some ⟨[], 0, false⟩) := by
    rw [readerOpenImpl_eq (by decide) (by decide) (by decide), header]
    decide
  have found : (world.setImage file (List.replicate metaSize 0)).files file = some (List.replicate metaSize 0) :=
    Function.update_self ..
  unfold World.readerOpen
  rw [opens]
  simp only [found, empty]
  rfl

theorem Sound.reads (sound : life.Sound) : life.Reads page := by
  intro file
  cases isFound : life.world.files file with
  | none => exact readerOpen_eq_of_none isFound
  | some image =>
    rw [readerOpen_eq_of_some isFound]
    cases image with
    | nil => rfl
    | cons byte bytes =>
      have filled : byte :: bytes ≠ [] := by simp
      have stored := sound.world.kept.stored file _ isFound
      have within := header_le sound.world isFound filled
      have whole := sound.world.whole file
      rw [isFound, Option.elim_some] at whole
      have laid := stored.laid
      rw [whole] at laid
      have mark : hasFinished (byte :: bytes) = life.finished file := by
        rw [← sound.marks file, isFound]
        rfl
      rw [readerOpenImpl_eq filled within stored.small, whole, laid.whole rfl, mark]
      rfl

omit [DecidableEq File] in
theorem sound_start : (start : Life File).Sound := by
  refine ⟨⟨World.kept_start, rfl, fun _ => rfl, ?_⟩, fun _ => rfl⟩
  intro file image isImage
  cases isImage

/-- An operation of the writer. -/
theorem Sound.writer {action : Action File} (large : metaSize ≤ page.size) (sound : life.Sound)
    {world : World File} (taken : life.world.next page action = some world) (fd : Option File) :
    (⟨world, fd, fun file => life.finished file && !world.maps file⟩ : Life File).Sound := by
  obtain ⟨sound', calm⟩ := World.sound_next large sound.world taken
  refine ⟨sound', fun file => ?_⟩
  dsimp only
  cases isMapped : world.maps file with
  | true => rw [sound'.unmarked isMapped, Bool.not_true, Bool.and_false]
  | false =>
    have same := (calm file).resolve_left (by rw [isMapped]; decide)
    rw [same, sound.marks file, Bool.not_false, Bool.and_true]

/-- A file that was not there is made. -/
theorem Sound.make (sound : life.Sound) (isNone : life.world.files file = none)
    (stored : Stored image []) (empty : writeLen image = 0) (headed : image = [] ∨ metaSize ≤ image.length)
    (unmarked : World.finishedIn (some image) = false) :
    ({ life with world := life.world.setImage file image } : Life File).Sound := by
  have none : life.world.regions file = [] := sound.world.kept.absent file isNone
  have kept : (life.world.setImage file image).Kept := by
    refine sound.world.kept.setImage (none ▸ stored) fun length mapped => ?_
    obtain ⟨found, isFound, _⟩ := sound.world.kept.opened file length mapped
    rw [isNone] at isFound
    cases isFound
  refine ⟨sound.world.change kept rfl rfl (fun _ _ => rfl) ?_ headed, fun other => ?_⟩
  · rw [empty]
    exact (congrArg total none).symm
  · rw [← sound.marks other]
    dsimp only [World.setImage]
    by_cases here : other = file
    · rw [here, Function.update_self, isNone, unmarked]
      rfl
    · rw [Function.update_of_ne here]

/-- A reader opens a file. -/
theorem Sound.read {calls : ReaderCalls} {result : ErrorT × Option Found} (sound : life.Sound)
    (opens : life.world.readerOpen page calls file = some (result, world)) :
    ({ life with world } : Life File).Sound := by
  have mapper : ({ life with world := (life.world.mapperOpen page calls file).2 } : Life File).Sound := by
    unfold World.mapperOpen
    split
    · split
      · exact sound
      · rename_i isNone
        split
        · exact sound.make isNone ⟨.nil, .inr ⟨by decide, rfl⟩, by decide⟩ (by decide) (.inr (by decide)) (by decide)
        · exact sound.make isNone stored_empty (by decide) (.inl rfl) (by decide)
    · exact sound
  have same : (life.world.mapperOpen page calls file).2 = world := by
    unfold World.readerOpen at opens
    split at opens
    · rename_i made opened
      rw [opened]
      split at opens
      · cases opens
      · obtain ⟨_, _, same⟩ := Option.map_eq_some_iff.mp opens
        exact (Prod.mk.inj same).2
    · rename_i error made opened
      rw [opened]
      exact (Prod.mk.inj (Option.some.inj opens)).2
  rw [← same]
  exact mapper

theorem hasFinished_true (room : metaSize ≤ image.length) : hasFinished (setHasFinished image true) = true := by
  unfold metaSize at room
  have same : piece (overwrite image 0 [1]) 0 ([1] : List UInt8).length = [1] :=
    piece_overwrite_self (by simp; omega)
  rw [hasFinished, show piece (setHasFinished image true) 0 1 = [1] from same]
  decide

/-- The header of a file is set to finished. -/
theorem sameData_finished (size : Nat) (room : metaSize ≤ image.length) :
    SameData image (setFileSize (setHasFinished image true) size) ∧
      writeLen (setFileSize (setHasFinished image true) size) = writeLen image ∧
      hasFinished (setFileSize (setHasFinished image true) size) = true := by
  have set : SameData image (setHasFinished image true) := sameData_setHasFinished true room
  have room' : metaSize ≤ (setHasFinished image true).length := set.length ▸ room
  have fits : 9 + 8 ≤ (setHasFinished image true).length := room'
  refine ⟨set.trans (sameData_setWord (by decide) room'), ?_, ?_⟩
  · rw [writeLen, setFileSize, word_setWord fits (.inl (by decide)), word_setHasFinished true (by decide) room,
      writeLen]
  · rw [hasFinished, setFileSize, piece_setWord fits (.inl (by decide)), ← hasFinished, hasFinished_true room]

/-- The file is finished and unmapped. -/
theorem Sound.finish {length : Nat} (size : Nat) (sound : life.Sound)
    (mapped : life.world.mapped = some (file, length)) (isImage : life.world.files file = some image)
    (fd : Option File) :
    (⟨{ life.world.setImage file (setFileSize (setHasFinished image true) size) with mapped := none }, fd,
      Function.update life.finished file true⟩ : Life File).Sound := by
  obtain ⟨found, isFound, opened⟩ := sound.world.kept.opened file length mapped
  obtain rfl := Option.some.inj (isImage.symm.trans isFound)
  have stored := sound.world.kept.stored file image isImage
  have room : metaSize ≤ image.length := by
    have room := opened.room
    have inFile := opened.inFile
    omega
  obtain ⟨same, written, isFinished⟩ := sameData_finished size room
  have room' : metaSize ≤ (setFileSize (setHasFinished image true) size).length := same.length ▸ room
  have stored' : Stored (setFileSize (setHasFinished image true) size) (life.world.regions file) := by
    refine ⟨?_, ?_, by rw [same.length]; exact stored.small⟩
    · rw [written]
      exact stored.laid.congr fun start length behind _ => same.piece start length behind
    · rw [written, same.length]
      exact stored.fits
  have whole := sound.world.whole file
  rw [isImage, Option.elim_some] at whole
  have unmapped := sound.world.remap sound.world.kept.unmapped rfl rfl rfl
  refine ⟨unmapped.change (unmapped.kept.change rfl (fun _ _ => rfl) stored' fun other length isMapped => ?_) rfl rfl
    (fun _ _ => rfl) (written.trans whole) (.inr room'), fun other => ?_⟩
  · cases isMapped
  · dsimp only [World.setImage]
    by_cases here : other = file
    · have filled : setFileSize (setHasFinished image true) size ≠ [] :=
        List.ne_nil_of_length_pos (Nat.lt_of_lt_of_le (by decide) room')
      rw [here, Function.update_self, Function.update_self, World.finishedIn, Option.any_some, isFinished,
        bne_iff_ne.mpr filled]
      rfl
    · rw [Function.update_of_ne here, Function.update_of_ne here]
      exact sound.marks other

omit [DecidableEq File] in
/-- The size to which `finished_write` cuts. -/
theorem size_eq (sound : world.Sound) {length : Nat} (mapped : world.mapped = some (file, length))
    (isImage : world.files file = some image) :
    addSize (writeLen image) metaSize = metaSize + total (world.regions file) := by
  obtain ⟨found, isFound, opened⟩ := sound.kept.opened file length mapped
  obtain rfl := Option.some.inj (isImage.symm.trans isFound)
  have small := (sound.kept.stored file image isImage).small
  have room := opened.room
  have inFile := opened.inFile
  have whole := sound.whole file
  rw [isImage, Option.elim_some] at whole
  rw [addSize_eq (by omega), whole, Nat.add_comm]

theorem writeLen_truncate (header : metaSize ≤ size) : writeLen (truncate 0 image size) = writeLen image :=
  word_truncate (Nat.le_trans (by decide) header)

/-- A file that is cut behind its data. -/
theorem Sound.cut {other : File} (sound : life.Sound) (unmapped : life.world.mapped = none)
    (behind : metaSize + total (life.world.regions other) ≤ size) :
    ({ life with world := life.world.cut (some other) truncates size } : Life File).Sound := by
  unfold World.cut
  simp only
  split
  · exact sound
  · rename_i image isImage
    split
    · rename_i cuts
      have header : metaSize ≤ size := by omega
      have stored := sound.world.kept.stored other image isImage
      have whole := sound.world.whole other
      rw [isImage, Option.elim_some] at whole
      have same : writeLen (truncate 0 image size) = writeLen image := writeLen_truncate header
      have isLength : (truncate 0 image size).length = size := length_truncate
      have stored' : Stored (truncate 0 image size) (life.world.regions other) := by
        refine ⟨?_, .inl (by omega), by rw [isLength]; exact cuts.2⟩
        rw [same]
        rcases stored.fits with fits | ⟨_, isNil⟩
        · exact stored.laid.congr fun start length _ within => piece_truncate (by omega) (by omega)
        · rw [isNil]
          exact .nil
      have kept : (life.world.setImage other (truncate 0 image size)).Kept := by
        refine sound.world.kept.setImage stored' fun length mapped => ?_
        rw [unmapped] at mapped
        cases mapped
      refine ⟨sound.world.change kept rfl rfl (fun _ _ => rfl) (same.trans whole)
        (.inr (header.trans isLength.ge)), ?_⟩
      intro file
      rw [← sound.marks file]
      dsimp only [World.setImage]
      by_cases here : file = other
      · rw [here, Function.update_self, isImage,
          World.finishedIn_truncate (sound.world.headed other image isImage) header]
      · rw [Function.update_of_ne here]
    · exact sound

/-- A file that is cut within its data can no longer be read. -/
theorem not_reads_cut {other : File} (sound : life.Sound)
    (within : size < metaSize + total (life.world.regions other)) (header : metaSize ≤ size) :
    ¬({ life with world := life.world.cut (some other) true size } : Life File).Reads page := by
  intro reads
  cases isImage : life.world.files other with
  | none =>
    rw [sound.world.kept.absent other isImage] at within
    exact absurd within (Nat.not_lt.mpr header)
  | some image =>
    have whole := sound.world.whole other
    rw [isImage, Option.elim_some] at whole
    have filled : image ≠ [] := by
      rintro rfl
      rw [← whole, World.writeLen_nil] at within
      omega
    have inFile := header_le sound.world isImage filled
    have small := (sound.world.kept.stored other image isImage).small
    have cuts : life.world.cut (some other) true size = life.world.setImage other (truncate 0 image size) := by
      unfold World.cut
      simp only [isImage]
      rw [if_pos ⟨trivial, by omega⟩]
    have found := reads other
    rw [cuts] at found
    have isCut : (life.world.setImage other (truncate 0 image size)).files other = some (truncate 0 image size) :=
      Function.update_self ..
    rw [readerOpen_eq_of_some isCut, isCut] at found
    have isLength : (truncate 0 image size).length = size := length_truncate
    have written : writeLen (truncate 0 image size) = total (life.world.regions other) :=
      (writeLen_truncate header).trans whole
    have isThere : truncate 0 image size ≠ [] := by
      refine List.ne_nil_of_length_pos (Nat.lt_of_lt_of_le ?_ (header.trans isLength.ge))
      decide
    have refuses : World.readerOpenImpl page .all (truncate 0 image size) = some (.openFail, none) := by
      unfold World.readerOpenImpl
      rw [if_neg isThere, written, addSize_eq (by omega)]
      simp only
      rw [if_pos (.inr (.inr (isLength.trans_lt within)))]
    rw [refuses] at found
    cases isCons : truncate 0 image size with
    | nil => exact isThere isCons
    | cons byte bytes =>
      rw [isCons] at found
      simp at found

theorem finishedWrite_eq {length : Nat} (truncates : Bool)
    (mapped : life.world.mapped = some (file, length)) (isImage : life.world.files file = some image) :
    life.finishedWrite truncates =
      ⟨({ life.world.setImage file (setFileSize (setHasFinished image true) (addSize (writeLen image) metaSize)) with
        mapped := none } : World File).cut life.fd truncates (addSize (writeLen image) metaSize), none,
        Function.update life.finished file true⟩ := by
  unfold finishedWrite
  simp only [mapped, isImage]

theorem reads_finish (sound : life.Sound) :
    ((life.finishedWrite truncates).Reads page ↔ life.Spares (.finish truncates)) ∧
      ((life.finishedWrite truncates).Reads page → (life.finishedWrite truncates).Sound) := by
  have stays (sound' : (life.finishedWrite truncates).Sound) (spares : life.Spares (.finish truncates)) :
      ((life.finishedWrite truncates).Reads page ↔ life.Spares (.finish truncates)) ∧
        ((life.finishedWrite truncates).Reads page → (life.finishedWrite truncates).Sound) :=
    ⟨iff_of_true sound'.reads spares, fun _ => sound'⟩
  cases mapped : life.world.mapped with
  | none =>
    have same : life.finishedWrite truncates = { life with fd := none } := by
      unfold finishedWrite
      rw [mapped]
    refine stays (same ▸ ⟨sound.world, sound.marks⟩) ?_
    intro _ file length other isMapped
    rw [mapped] at isMapped
    cases isMapped
  | some pair =>
    obtain ⟨file, length⟩ := pair
    obtain ⟨image, isImage, _⟩ := sound.world.kept.opened file length mapped
    have finished := finishedWrite_eq truncates mapped isImage
    rw [size_eq sound.world mapped isImage] at finished
    have done := sound.finish (metaSize + total (life.world.regions file)) mapped isImage none
    cases isFd : life.fd with
    | none =>
      rw [isFd] at finished
      refine stays (finished ▸ done) ?_
      intro _ file length other _ isOther
      rw [isFd] at isOther
      cases isOther
    | some other =>
      rw [isFd] at finished
      by_cases behind : total (life.world.regions other) ≤ total (life.world.regions file)
      · refine stays (finished ▸ done.cut rfl (Nat.add_le_add_left behind _)) ?_
        intro _ file' length' other' isMapped isOther
        obtain ⟨rfl, rfl⟩ := Prod.mk.inj (Option.some.inj (mapped.symm.trans isMapped))
        obtain rfl := Option.some.inj (isFd.symm.trans isOther)
        exact behind
      · cases truncates with
        | false =>
          have kept (world : World File) : world.cut (some other) false
              (metaSize + total (life.world.regions file)) = world := by
            unfold World.cut
            split
            · rfl
            · split
              · rfl
              · simp
          rw [kept] at finished
          refine stays (finished ▸ done) ?_
          intro truncates
          cases truncates
        | true =>
          have lost : ¬(life.finishedWrite true).Reads page := by
            rw [finished]
            exact not_reads_cut done (Nat.add_lt_add_left (Nat.lt_of_not_le behind) _) (Nat.le_add_right ..)
          refine ⟨iff_of_false lost fun spares => ?_, fun reads => absurd reads lost⟩
          exact behind (spares rfl file length other mapped isFd)

/-- A step keeps what readers find exactly when it spares the other files. -/
theorem reads_step {action : LifeAction File} (large : metaSize ≤ page.size) (sound : life.Sound)
    (taken : life.next page action = some after) :
    (after.Reads page ↔ life.Spares action) ∧ (after.Reads page → after.Sound) := by
  cases action with
  | writer action =>
    obtain ⟨world, isWorld, same⟩ := Option.bind_eq_some_iff.mp taken
    obtain rfl := Option.some.inj same
    have sound' := sound.writer large isWorld (life.fdAfter action)
    exact ⟨iff_of_true sound'.reads trivial, fun _ => sound'⟩
  | read calls file =>
    obtain ⟨⟨result, world⟩, opens, same⟩ := Option.bind_eq_some_iff.mp taken
    obtain rfl := Option.some.inj same
    have sound' := sound.read opens
    exact ⟨iff_of_true sound'.reads trivial, fun _ => sound'⟩
  | finish truncates =>
    obtain ⟨_, taken⟩ := Option.ite_none_left_eq_some.mp taken
    obtain rfl := Option.some.inj taken
    exact reads_finish sound

/-- In every run of a writer and of readers, a reader finds at any time in any file that has bytes all that was
handed out of it, and whether it is finished, if and only if `finished_write` never cuts another file that has more
data. -/
theorem reads_iff (large : metaSize ≤ page.size) (path : Path (Taken (next page)) start actions last) :
    (∀ life, Visits (Taken (next page)) start actions life → life.Reads page) ↔
      ∀ life action, Takes (Taken (next page)) start actions life action → life.Spares action := by
  refine path.visits_iff_all_takes Sound ?_ sound_start.reads sound_start
  intro before action after sound _ taken
  exact reads_step large sound taken

/-- A file is read before there is a writer, while it is written, and when it is finished. -/
theorem reads_iff_three_reads :
    let page : PageSize := ⟨4096, 12, by decide, rfl⟩
    let calls : SystemCalls := ⟨true, true, true, true⟩
    let actions : List (LifeAction Unit) := [.read .all (), .writer (.openFile calls () 4079 true),
      .writer (.write [1, 2, 3]), .read .all (), .finish true, .read .all ()]
    (∀ life, Visits (Taken (next page)) start actions life → life.Reads page) ↔
      ∀ life action, Takes (Taken (next page)) start actions life action → life.Spares action := by
  intro page calls actions
  have runs : (exec (next page) start actions).isSome := by decide +kernel
  obtain ⟨last, run⟩ := Option.isSome_iff_exists.mp runs
  exact reads_iff (by decide) (exec_eq_some_iff.mp run)

end

end Life

end Fix

end BTool.MMapFile
