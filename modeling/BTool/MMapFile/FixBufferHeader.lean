import BTool.MMapFile.FixBufferRuns

/-! The header of a file of a `FixBuffer::Writer` tells at any time how much was handed out of it, and whether it
is finished. -/

namespace BTool.MMapFile

open BTool.Foundation BTool.Foundation.Image

namespace Fix

namespace World

variable {File : Type} [DecidableEq File] {page : PageSize} {world after : World File} {file : File}
  {image : List UInt8} {regions : List (Region UInt8)}

/-- What is true of the files at any time. The header of a file tells the length of what was handed out of it. -/
structure Sound (world : World File) : Prop where
  kept : world.Kept
  running : world.strayed = false
  whole : ∀ file, (world.files file).elim 0 writeLen = total (world.regions file)
  /-- A file is empty or has a header. -/
  headed : ∀ file image, world.files file = some image → image = [] ∨ metaSize ≤ image.length

theorem writeLen_nil : writeLen [] = 0 := by decide

omit [DecidableEq File] in
theorem Sound.found (sound : world.Sound) (file : File) :
    writeLen ((world.files file).getD []) = total (world.regions file) := by
  rw [← sound.whole file]
  cases world.files file with
  | none => exact writeLen_nil
  | some image => rfl

omit [DecidableEq File] in
theorem Sound.found_headed (sound : world.Sound) (file : File) :
    (world.files file).getD [] = [] ∨ metaSize ≤ ((world.files file).getD []).length := by
  cases isFound : world.files file with
  | none => exact .inl rfl
  | some image => exact sound.headed file image isFound

omit [DecidableEq File] in
/-- What is mapped and where counts for no file. -/
theorem Sound.remap (sound : world.Sound) (kept : after.Kept) (files : after.files = world.files)
    (regions : after.regions = world.regions) (running : after.strayed = world.strayed) : after.Sound := by
  refine ⟨kept, running.trans sound.running, fun file => ?_, fun file image isImage => ?_⟩
  · rw [files, regions]
    exact sound.whole file
  · rw [files] at isImage
    exact sound.headed file image isImage

/-- One file changes. -/
theorem Sound.change (sound : world.Sound) (kept : after.Kept) (running : after.strayed = world.strayed)
    (files : after.files = Function.update world.files file (some image))
    (others : ∀ other, other ≠ file → after.regions other = world.regions other)
    (same : writeLen image = total (after.regions file)) (headed : image = [] ∨ metaSize ≤ image.length) :
    after.Sound := by
  refine ⟨kept, running.trans sound.running, fun other => ?_, fun other found isFound => ?_⟩
  · by_cases here : other = file
    · rw [here, files, Function.update_self]
      exact same
    · rw [files, Function.update_of_ne here, others other here]
      exact sound.whole other
  · by_cases here : other = file
    · rw [here, files, Function.update_self] at isFound
      obtain rfl := Option.some.inj isFound
      exact headed
    · rw [files, Function.update_of_ne here] at isFound
      exact sound.headed other found isFound

omit [DecidableEq File] in
/-- A file has a page at least when it is opened. -/
theorem page_le_reached (world : World File) (file : File) (bufferSize : Nat) :
    page.size ≤ world.reached page file bufferSize :=
  (le_reached_iff page world file bufferSize page.size).mpr
    (.inr ⟨1, (Nat.one_mul _).ge, by rw [Nat.one_mul]; exact Nat.le_max_right ..⟩)

/-- A file is mapped. -/
theorem Sound.mapFile {size : Nat} (sound : world.Sound) (stored : Stored image (world.regions file))
    (isSize : image.length = size) (room : metaSize ≤ size) (same : writeLen image = total (world.regions file))
    (anew : Bool) : (world.mapFile file image size anew).Sound := by
  subst isSize
  obtain ⟨kept, running, _⟩ := mapFile_spec sound.kept stored rfl room anew
  have small : image.length < 2 ^ 64 := Nat.lt_trans stored.small (by decide)
  obtain ⟨data, _, _, written⟩ := setUp_spec room small anew
  unfold World.mapFile at kept running ⊢
  rw [if_neg (Nat.not_lt.mpr room)] at kept running ⊢
  refine sound.change kept running rfl ?_ ?_ (.inr (room.trans data.length.ge))
  · intro other different
    cases anew with
    | true => exact Function.update_of_ne different ..
    | false => rfl
  · rw [written]
    cases anew with
    | true =>
      simp only [if_true, Function.update_self]
      rfl
    | false => exact same

private theorem sound_openImpl (large : metaSize ≤ page.size) (sound : world.Sound) (calls : SystemCalls)
    (file : File) (bufferSize : Nat) (isAppend : Bool) :
    (openImpl page calls world file (world.files file) bufferSize isAppend).2.Sound := by
  have stored := sound.kept.found file
  have grows : ((world.files file).getD []).length ≤ world.reached page file bufferSize :=
    found_length_le world file bufferSize
  have reaches := Nat.le_trans large (page_le_reached world file bufferSize)
  have created : (world.setImage file ((world.files file).getD [])).Sound :=
    sound.change (sound.kept.created file) rfl rfl (fun _ _ => rfl) (sound.found file) (sound.found_headed file)
  have isLength : (truncate 0 ((world.files file).getD []) (world.reached page file bufferSize)).length =
      world.reached page file bufferSize := length_truncate
  unfold openImpl
  simp only
  split
  · exact created.remap created.kept.unmapped rfl rfl rfl
  · split
    · rename_i truncates
      obtain ⟨same, stored'⟩ := stored.truncate grows truncates.2
      have cut := same.trans (sound.found file)
      split
      · exact created.change (sound.kept.truncated grows truncates.2) rfl rfl (fun _ _ => rfl) cut
          (.inr (reaches.trans isLength.ge))
      · rename_i mapping maps
        obtain ⟨_, isMapping⟩ := Option.ite_none_right_eq_some.mp maps
        obtain rfl := Option.some.inj isMapping
        exact created.mapFile stored' isLength reaches cut _
    · exact created

theorem sound_openFile (large : metaSize ≤ page.size) (sound : world.Sound) (calls : SystemCalls)
    (file : File) (bufferSize : Nat) (isAppend : Bool) :
    (openFile page calls world file bufferSize isAppend).2.Sound := by
  have renamed : ({ world with path := some file } : World File).Sound :=
    sound.remap (sound.kept.renamed (some file)) rfl rfl rfl
  unfold openFile
  split
  · exact sound_openImpl large renamed calls file bufferSize isAppend
  · exact renamed

omit [DecidableEq File] in
theorem Sound.settle {result : ErrorT × World File} {fits : Bool} (sound : result.2.Sound) :
    (world.settle result fits).Sound :=
  sound.remap ⟨sound.kept.absent, sound.kept.stored, sound.kept.opened⟩ rfl rfl rfl

/-- The file that is mapped changes. -/
theorem Sound.rewrite {length : Nat} (sound : world.Sound) (mapped : world.mapped = some (file, length))
    (stored : Stored image regions) (opened : Opened image length) (same : writeLen image = total regions) :
    ({ world.setImage file image with
      regions := Function.update world.regions file regions } : World File).Sound := by
  refine sound.change (sound.kept.rewrite mapped stored opened) rfl rfl
    (fun other different => Function.update_of_ne different ..) ?_ (.inr ?_)
  · simpa using same
  · have room := opened.room
    have inFile := opened.inFile
    omega

theorem total_snoc (regions : List (Region UInt8)) (region : Region UInt8) :
    total (regions ++ [region]) = total regions + region.cells.length := by
  simp [total]

theorem total_fill (front back : List (Region UInt8)) (region : Region UInt8) {bytes : List UInt8}
    (same : bytes.length = region.cells.length) :
    total (front ++ { region with cells := bytes } :: back) = total (front ++ region :: back) := by
  simp [total, same]

/-- The length in a header grows by what is handed out. -/
theorem writeLen_addSize {written more : Nat} (header : metaSize ≤ image.length)
    (small : written + more < 2 ^ 64) :
    writeLen (setWriteLen image (addSize written more)) = written + more := by
  unfold metaSize at header
  rw [addSize_eq small, writeLen, setWriteLen, word_setWord_self (by omega) small]

theorem sound_write {length : Nat} {msg : List UInt8} (sound : world.Sound)
    (mapped : world.mapped = some (file, length)) (isImage : world.files file = some image) :
    (world.write file length image msg).Sound := by
  obtain ⟨found, isFound, opened⟩ := sound.kept.opened file length mapped
  obtain rfl := Option.some.inj (isImage.symm.trans isFound)
  have stored := sound.kept.stored file image isImage
  have whole := sound.whole file
  rw [isImage, Option.elim_some] at whole
  have room := opened.room
  have inFile := opened.inFile
  have small := stored.small
  unfold write
  split
  · rename_i fits
    rw [free_eq opened small] at fits
    have inside : metaSize + writeLen image + msg.length ≤ length := by omega
    obtain ⟨stored', opened'⟩ := stored.write opened inside
    rw [if_pos inside]
    refine sound.rewrite mapped stored' opened' ?_
    rw [writeLen_addSize (by rw [length_overwrite (inside.trans inFile)]; omega) (by omega), total_snoc, ← whole]
  · exact sound

theorem sound_getData {length len : Nat} (sound : world.Sound)
    (mapped : world.mapped = some (file, length)) (isImage : world.files file = some image) :
    (world.getData file image len).Sound := by
  obtain ⟨found, isFound, opened⟩ := sound.kept.opened file length mapped
  obtain rfl := Option.some.inj (isImage.symm.trans isFound)
  have stored := sound.kept.stored file image isImage
  have whole := sound.whole file
  rw [isImage, Option.elim_some] at whole
  have room := opened.room
  have inFile := opened.inFile
  have small := stored.small
  unfold getData
  split
  · exact sound
  · rename_i fits
    obtain ⟨_, fits⟩ := not_or.mp fits
    rw [not_not, free_eq opened small] at fits
    have isLength : (piece image (metaSize + writeLen image) len).length = len := length_piece (by omega)
    obtain ⟨stored', opened'⟩ := stored.handOut opened (piece image (metaSize + writeLen image) len)
      (by rw [isLength]) (by omega)
    rw [isLength] at stored' opened'
    refine sound.rewrite mapped stored' opened' ?_
    rw [writeLen_addSize (by omega) (by omega), total_snoc, isLength, ← whole]

theorem sound_fill {length : Nat} {front back : List (Region UInt8)} {region : Region UInt8}
    {bytes : List UInt8} (sound : world.Sound) (mapped : world.mapped = some (file, length))
    (isImage : world.files file = some image) (isRegions : world.regions file = front ++ region :: back)
    (same : bytes.length = region.cells.length) :
    ({ world.setImage file (overwrite image region.start bytes) with
      regions := Function.update world.regions file (front ++ { region with cells := bytes } :: back) } :
        World File).Sound := by
  obtain ⟨found, isFound, opened⟩ := sound.kept.opened file length mapped
  obtain rfl := Option.some.inj (isImage.symm.trans isFound)
  have stored := sound.kept.stored file image isImage
  have whole := sound.whole file
  rw [isImage, Option.elim_some, isRegions] at whole
  rw [isRegions] at stored
  obtain ⟨stored', opened'⟩ := stored.fill opened same
  refine sound.rewrite mapped stored' opened' ?_
  have behind := stored.laid.behind region (by simp)
  have within := stored.laid.within region (by simp)
  have room := opened.room
  have inFile := opened.inFile
  unfold Region.stop at within
  rw [(sameHeader_overwrite behind (by omega)).writeLen, total_fill front back region same, whole]

/-- A file is marked as finished. -/
def finishedIn (found : Option (List UInt8)) : Bool := found.any fun image => image != [] && hasFinished image

/-- A file is mapped by the writer. -/
def maps (world : World File) (file : File) : Bool := world.mapped.any fun mapped => decide (mapped.1 = file)

theorem maps_eq_true_iff : world.maps file = true ↔ ∃ length, world.mapped = some (file, length) := by
  unfold maps
  cases isMapped : world.mapped with
  | none => simp
  | some mapped =>
    obtain ⟨other, length⟩ := mapped
    simp [eq_comm]

/-- What is mapped is not finished. -/
theorem Sound.unmarked (sound : world.Sound) (isMapped : world.maps file = true) :
    finishedIn (world.files file) = false := by
  obtain ⟨length, mapped⟩ := maps_eq_true_iff.mp isMapped
  obtain ⟨image, isImage, opened⟩ := sound.kept.opened file length mapped
  rw [isImage, finishedIn, Option.any_some, opened.unfinished, Bool.and_false]

/-- The mark of a file that the writer does not map is left alone. -/
def Calm (world after : World File) : Prop :=
  ∀ file, after.maps file = true ∨ finishedIn (after.files file) = finishedIn (world.files file)

theorem Calm.same (files : after.files = world.files) : Calm world after := by
  intro file
  rw [files]
  exact .inr rfl

theorem Calm.change (files : after.files = Function.update world.files file (some image))
    (same : after.maps file = true ∨ finishedIn (some image) = finishedIn (world.files file)) :
    Calm world after := by
  intro other
  by_cases here : other = file
  · rw [here, files, Function.update_self]
    exact same
  · rw [files, Function.update_of_ne here]
    exact .inr rfl

theorem finishedIn_getD (found : Option (List UInt8)) : finishedIn (some (found.getD [])) = finishedIn found := by
  cases found <;> rfl

theorem finishedIn_truncate {size : Nat} (headed : image = [] ∨ metaSize ≤ image.length) (room : metaSize ≤ size) :
    finishedIn (some (truncate 0 image size)) = finishedIn (some image) := by
  have large : 1 ≤ size := Nat.le_trans (by decide) room
  have filled : truncate 0 image size ≠ [] := by
    intro isEmpty
    have isLength : (truncate 0 image size).length = size := length_truncate
    rw [isEmpty, List.length_nil] at isLength
    omega
  rcases headed with rfl | header
  · have begins : piece (truncate 0 ([] : List UInt8) size) 0 1 = [0] := by
      obtain ⟨more, rfl⟩ := Nat.exists_eq_add_of_le' large
      simp [piece, truncate, List.replicate_succ]
    simp [finishedIn, hasFinished, begins]
  · have there : 0 + 1 ≤ image.length := Nat.le_trans (by decide) header
    have isImage : image ≠ [] := List.ne_nil_of_length_pos there
    rw [finishedIn, finishedIn, Option.any_some, Option.any_some, bne_iff_ne.mpr filled, bne_iff_ne.mpr isImage,
      hasFinished, piece_truncate there large, hasFinished]

private theorem calm_openImpl (large : metaSize ≤ page.size) (sound : world.Sound) (calls : SystemCalls)
    (file : File) (bufferSize : Nat) (isAppend : Bool) :
    Calm world (openImpl page calls world file (world.files file) bufferSize isAppend).2 := by
  have reaches := Nat.le_trans large (page_le_reached world file bufferSize)
  have created := finishedIn_getD (world.files file)
  unfold openImpl
  simp only
  split
  · exact Calm.change rfl (.inr created)
  · split
    · have cut := (finishedIn_truncate (sound.found_headed file) reaches).trans created
      split
      · exact Calm.change (Function.update_idem ..) (.inr cut)
      · rename_i mapping maps
        obtain ⟨_, isMapping⟩ := Option.ite_none_right_eq_some.mp maps
        obtain rfl := Option.some.inj isMapping
        unfold mapFile
        rw [if_neg (Nat.not_lt.mpr reaches)]
        refine Calm.change (Function.update_idem ..) (.inl ?_)
        simp [World.maps]
    · exact Calm.change rfl (.inr created)

theorem calm_openFile (large : metaSize ≤ page.size) (sound : world.Sound) (calls : SystemCalls) (file : File)
    (bufferSize : Nat) (isAppend : Bool) : Calm world (openFile page calls world file bufferSize isAppend).2 := by
  unfold openFile
  split
  · exact calm_openImpl large (sound.remap (sound.kept.renamed (some file)) rfl rfl rfl) calls file bufferSize isAppend
  · exact Calm.same rfl

/-- What is done to the file that is mapped. -/
theorem Calm.mapped {length : Nat} (mapped : world.mapped = some (file, length))
    (others : ∀ other, other ≠ file → after.files other = world.files other) (same : after.mapped = world.mapped) :
    Calm world after := by
  intro other
  by_cases here : other = file
  · refine .inl ?_
    simp [maps, same, mapped, here]
  · exact .inr (by rw [others other here])

theorem calm_write {length : Nat} {msg : List UInt8} (mapped : world.mapped = some (file, length)) :
    Calm world (world.write file length image msg) := by
  unfold write
  split
  · dsimp only
    split
    · exact Calm.mapped mapped (fun other different => Function.update_of_ne different ..) rfl
    · exact Calm.same rfl
  · exact Calm.same rfl

theorem calm_getData {length len : Nat} (mapped : world.mapped = some (file, length)) :
    Calm world (world.getData file image len) := by
  unfold getData
  split
  · exact Calm.same rfl
  · exact Calm.mapped mapped (fun other different => Function.update_of_ne different ..) rfl

/-- A step of the writer. -/
theorem sound_next {action : Action File} (large : metaSize ≤ page.size) (sound : world.Sound)
    (taken : next page world action = some after) : after.Sound ∧ Calm world after := by
  have running : ¬world.strayed = true := by simp [sound.running]
  unfold next at taken
  rw [if_neg running] at taken
  cases action with
  | openFile calls file bufferSize isAppend =>
    obtain ⟨_, taken⟩ := Option.ite_none_right_eq_some.mp taken
    obtain rfl := Option.some.inj taken
    exact ⟨(sound_openFile large sound calls file bufferSize isAppend).settle,
      calm_openFile large sound calls file bufferSize isAppend⟩
  | write msg =>
    obtain ⟨⟨file, length⟩, mapped, taken⟩ := Option.bind_eq_some_iff.mp taken
    obtain ⟨image, isImage, taken⟩ := Option.bind_eq_some_iff.mp taken
    obtain ⟨_, taken⟩ := Option.ite_none_right_eq_some.mp taken
    obtain rfl := Option.some.inj taken
    exact ⟨sound_write sound mapped isImage, calm_write mapped⟩
  | getData len =>
    obtain ⟨⟨file, length⟩, mapped, taken⟩ := Option.bind_eq_some_iff.mp taken
    obtain ⟨image, isImage, taken⟩ := Option.bind_eq_some_iff.mp taken
    obtain ⟨_, taken⟩ := Option.ite_none_right_eq_some.mp taken
    obtain rfl := Option.some.inj taken
    exact ⟨sound_getData sound mapped isImage, calm_getData mapped⟩
  | fill front region back bytes =>
    obtain ⟨⟨file, length⟩, mapped, taken⟩ := Option.bind_eq_some_iff.mp taken
    obtain ⟨image, isImage, taken⟩ := Option.bind_eq_some_iff.mp taken
    obtain ⟨⟨isRegions, same⟩, taken⟩ := Option.ite_none_right_eq_some.mp taken
    obtain rfl := Option.some.inj taken
    exact ⟨sound_fill sound mapped isImage isRegions same,
      Calm.mapped mapped (fun other different => Function.update_of_ne different ..) rfl⟩
  | addFileLen calls len =>
    obtain ⟨⟨file, length⟩, mapped, taken⟩ := Option.bind_eq_some_iff.mp taken
    obtain ⟨image, isImage, taken⟩ := Option.bind_eq_some_iff.mp taken
    obtain ⟨path, isPath, taken⟩ := Option.bind_eq_some_iff.mp taken
    obtain ⟨_, taken⟩ := Option.ite_none_right_eq_some.mp taken
    obtain rfl := Option.some.inj taken
    have closed := sound.remap sound.kept.unmapped rfl rfl rfl
    exact ⟨(sound_openFile large closed calls path _ true).settle, calm_openFile large closed calls path _ true⟩
  | close =>
    obtain rfl := Option.some.inj taken
    exact ⟨sound.remap sound.kept.unmapped rfl rfl rfl, Calm.same rfl⟩

end World

end Fix

end BTool.MMapFile
