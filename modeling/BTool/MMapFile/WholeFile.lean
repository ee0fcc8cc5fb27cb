import BTool.Foundation.Chunks
import BTool.MMapFile.ChunkReaders

/-! Either reader returns every chunk of the file once, the one from the front and the other from the end. -/

namespace BTool.MMapFile

open BTool.Foundation

/-- What a reader shows of a chunk: the mapping begins at the page in which the chunk does. -/
def chunkView (page : PageSize) (length size index : Nat) : View :=
  let start := index * size
  let taken := min size (length - start)
  ⟨⟨page.alignDown start, taken + start - page.alignDown start⟩, start - page.alignDown start, taken⟩

variable {page : PageSize} {file : List UInt8} {size index : Nat} {reader : ChunkReader}

theorem chunkView_covered (small : file.length < 2 ^ 63) (early : index * size < file.length) :
    (chunkView page file.length size index).Covered page file := by
  have start := page.alignDown_le (index * size)
  refine ⟨page.dvd_alignDown (by omega), ?_, ?_⟩ <;> simp only [chunkView] <;> omega

theorem bytes_chunkView : (chunkView page file.length size index).bytes file = chunk size file index := by
  have start := page.alignDown_le (index * size)
  rw [View.bytes_eq (by simp only [chunkView]; omega)]
  simp only [chunkView, chunk, Nat.add_sub_cancel' start]
  rw [List.take_eq_take_iff, List.length_drop]
  omega

/-- A reader that has the file cut into chunks of a size. -/
structure Cut (file : List UInt8) (size : Nat) (reader : ChunkReader) : Prop where
  fileSize : reader.fileSize = file.length
  chunkSize : reader.chunkSize = size
  numChunks : reader.numChunks = chunkCount file.length size

/-- The reader stands at a chunk. -/
structure Stands (page : PageSize) (file : List UInt8) (size index : Nat) (reader : ChunkReader) : Prop where
  cut : Cut file size reader
  isIndex : reader.curChunkIndex = index
  isOffset : reader.curOffset = index * size
  isPage : reader.paOffset = page.alignDown (index * size)
  isLength : reader.curReadLength = min size (file.length - index * size)

theorem Cut.calcCurrent (page : PageSize) (cut : Cut file size reader) (small : file.length < 2 ^ 63)
    (positive : 0 < size) (isIndex : reader.curChunkIndex = index) (early : index < chunkCount file.length size) :
    Stands page file size index (reader.calcCurrent page) := by
  have within := mul_lt_of_lt_chunkCount positive early
  have few : chunkCount file.length size ≤ file.length := chunkCount_le
  obtain ⟨fileSize, chunkSize, numChunks⟩ := cut
  have isOffset : mulSize index size = index * size := mulSize_eq (by omega)
  refine ⟨⟨fileSize, chunkSize, numChunks⟩, isIndex, ?_, ?_, ?_⟩
  · simp only [ChunkReader.calcCurrent, isIndex, chunkSize, isOffset]
  · simp only [ChunkReader.calcCurrent, isIndex, chunkSize, isOffset]
  · simp only [ChunkReader.calcCurrent, isIndex, fileSize, chunkSize, numChunks, isOffset]
    rw [subSize_eq (by omega) (by omega), subSize_eq (by omega) (by omega), min_chunk positive early]

/-- The chunk that the reader stands at is mapped and shown. -/
theorem Stands.shows (stands : Stands page file size index reader) (small : file.length < 2 ^ 63)
    (positive : 0 < size) (early : index * size < file.length) :
    ∃ next, reader.showCurrent page true = (.ok, chunkView page file.length size index, next) ∧
      Stands page file size index next := by
  obtain ⟨⟨fileSize, chunkSize, numChunks⟩, isIndex, isOffset, isPage, isLength⟩ := stands
  have start := page.alignDown_le (index * size)
  have isMapped : reader.mapCurrent page true = some (chunkView page file.length size index).mapping := by
    rw [ChunkReader.mapCurrent, isOffset, isPage, isLength, addSize_eq (by omega),
      subSize_eq (by omega) (by omega), mmap, if_pos ⟨rfl, by omega, page.dvd_alignDown (by omega)⟩]
    rfl
  have isView : reader.currentView (chunkView page file.length size index).mapping =
      chunkView page file.length size index := by
    rw [ChunkReader.currentView, isOffset, isPage, isLength, subSize_eq start (by omega)]
    rfl
  refine ⟨{ reader with curReadAddr := some (chunkView page file.length size index).mapping }, ?_,
    ⟨fileSize, chunkSize, numChunks⟩, isIndex, isOffset, isPage, isLength⟩
  rw [ChunkReader.showCurrent, isMapped]
  simp only [isView]

theorem cleanMmap_succeeds (reader : ChunkReader) :
    reader.cleanMmap true = (.ok, { reader with curReadAddr := none }) := by
  unfold ChunkReader.cleanMmap
  split
  · rename_i unmapped
    rw [← unmapped]
  · rfl

/-- Calls that go from place to place return the views of the places, up to the last. -/
theorem readAll_eq {read : ChunkReader → ErrorT × View × ChunkReader} (Stands : Nat → ChunkReader → Prop)
    {view : Nat → View} {last : Nat}
    (step : ∀ place reader, place < last → Stands place reader → (view place).length ≠ 0 ∧
      ∃ next, read reader = (.ok, view place, next) ∧ Stands (place + 1) next)
    (stop : ∀ reader, Stands last reader → ∃ next, read reader = (.ok, .empty, next)) {left place rounds : Nat}
    (sum : place + left = last) (enough : left < rounds) (stands : Stands place reader) :
    readAll read rounds reader = some ((List.range' place left).map view) := by
  induction left generalizing place rounds reader with
  | zero =>
    obtain _ | rounds := rounds
    · exact absurd enough (Nat.lt_irrefl 0)
    obtain rfl : place = last := sum
    obtain ⟨next, reads⟩ := stop reader stands
    rw [readAll, reads]
    rfl
  | succ left ih =>
    obtain _ | rounds := rounds
    · exact absurd enough (Nat.not_lt_zero _)
    obtain ⟨nonempty, next, reads, stands⟩ := step place reader (by omega) stands
    rw [readAll, reads]
    simp only [if_neg nonempty]
    rw [ih (by omega) (by omega) stands, List.range'_succ, List.map_cons, Option.map_some]

/-- Every call of the system succeeds. -/
def allSucceed : Calls :=
  ⟨true, true⟩

/-- The sizes that `open` computes cut the file into chunks, into none where it is empty. -/
theorem openSizes_cut (small : file.length < 2 ^ 63) {itemSize : Int} {chunkSize : Nat}
    (item : 1 ≤ itemSize) (chunk : 1 ≤ chunkSize) (product : chunkSize * itemSize < 2 ^ 63)
    (constructed : Int) :
    ∃ size opened, (ChunkReader.construct constructed).openSizes (some file) itemSize chunkSize =
        (.ok, opened) ∧ (file ≠ [] → 0 < size) ∧ Cut file size opened ∧
      opened.curOffset = 0 ∧ opened.curReadLength = 0 ∧ opened.curChunkIndex = 0 := by
  obtain ⟨bytes, rfl⟩ := Int.eq_ofNat_of_zero_le (by omega : 0 ≤ itemSize)
  have small' : chunkSize * bytes < 2 ^ 63 := by exact_mod_cast product
  have positive : 0 < chunkSize * bytes := Nat.mul_pos chunk (by omega)
  have few : bytes < 2 ^ 63 := Nat.lt_of_le_of_lt (Nat.le_mul_of_pos_left bytes chunk) small'
  have isItem : ((bytes : Int) % 2 ^ 64).toNat = bytes := by omega
  have wanted : mulSize chunkSize ((bytes : Int) % 2 ^ 64).toNat = chunkSize * bytes := by
    rw [isItem, mulSize_eq (by omega)]
  obtain ⟨size, isSize⟩ : ∃ size, size = if file.length < chunkSize * bytes then file.length
      else chunkSize * bytes := ⟨_, rfl⟩
  have within : size ≤ file.length := by split at isSize <;> omega
  refine ⟨size, _, rfl, ?_, ⟨rfl, ?_, ?_⟩, rfl, rfl, rfl⟩
  · intro nonempty
    have := List.length_pos_iff.mpr nonempty
    split at isSize <;> omega
  · simp only [wanted, ← isSize]
  · simp only [wanted, ← isSize]
    obtain rfl | some := Nat.eq_zero_or_pos size
    · rw [if_neg (Nat.lt_irrefl 0), chunkCount, Nat.div_zero]
      rfl
    · rw [if_pos some, addSize_eq (by omega), subSize_eq (by omega) (by omega), chunkCount]

/-- A reader from the front that has returned so many chunks. -/
structure Forward (file : List UInt8) (size index : Nat) (reader : ChunkReader) : Prop where
  cut : Cut file size reader
  isIndex : reader.curChunkIndex = index
  returned : addSize reader.curOffset reader.curReadLength = min (index * size) file.length

theorem chunkView_nonempty (positive : 0 < size) (early : index * size < file.length) :
    (chunkView page file.length size index).length ≠ 0 := by
  simp only [chunkView]
  omega

theorem Cut.cleaned (cut : Cut file size reader) : Cut file size { reader with curReadAddr := none } :=
  ⟨cut.fileSize, cut.chunkSize, cut.numChunks⟩

theorem Forward.step (forward : Forward file size index reader) (small : file.length < 2 ^ 63)
    (positive : 0 < size) (early : index < chunkCount file.length size) :
    ∃ next, Reader.read page allSucceed reader = (.ok, chunkView page file.length size index, next) ∧
      Forward file size (index + 1) next := by
  have within := mul_lt_of_lt_chunkCount positive early
  have few : chunkCount file.length size ≤ file.length := chunkCount_le
  obtain ⟨cut, isIndex, returned⟩ := forward
  have notAll : ¬ reader.fileSize ≤ addSize reader.curOffset reader.curReadLength := by
    rw [cut.fileSize, returned]
    omega
  obtain ⟨next, shows, stands⟩ :=
    (cut.cleaned.calcCurrent page small positive isIndex early).shows small positive within
  refine ⟨next.nextChunk, ?_, ?_⟩
  · rw [Reader.read, allSucceed, cleanMmap_succeeds]
    simp only [ne_eq, not_true_eq_false, if_false, if_neg notAll, shows, if_true]
  · obtain ⟨⟨fileSize, chunkSize, numChunks⟩, isIndex, isOffset, _, isLength⟩ := stands
    refine ⟨⟨fileSize, chunkSize, numChunks⟩, ?_, ?_⟩
    · rw [ChunkReader.nextChunk, isIndex, addSize_eq (by omega)]
    · rw [ChunkReader.nextChunk, isOffset, isLength, addSize_eq (by omega), Nat.succ_mul]
      omega

theorem Forward.stop (forward : Forward file size (chunkCount file.length size) reader)
    (whole : file ≠ [] → 0 < size) :
    ∃ next, Reader.read page allSucceed reader = (.ok, .empty, next) := by
  have enough : file.length ≤ chunkCount file.length size * size := by
    by_cases nonempty : file = []
    · rw [nonempty]
      exact Nat.zero_le _
    · exact le_chunkCount_mul (whole nonempty)
  have all : reader.fileSize ≤ addSize reader.curOffset reader.curReadLength := by
    rw [forward.cut.fileSize, forward.returned]
    omega
  refine ⟨{ reader with curReadAddr := none }, ?_⟩
  rw [Reader.read, allSucceed, cleanMmap_succeeds]
  simp only [ne_eq, not_true_eq_false, if_false, if_pos all]

/-- A reader from the end that has so many chunks before it. -/
structure Backward (file : List UInt8) (size index : Nat) (reader : ChunkReader) : Prop where
  cut : Cut file size reader
  isIndex : reader.curChunkIndex = index

theorem Backward.step (backward : Backward file size (index + 1) reader) (small : file.length < 2 ^ 63)
    (positive : 0 < size) (early : index < chunkCount file.length size) :
    ∃ next, ReverseReader.read page allSucceed reader =
        (.ok, chunkView page file.length size index, next) ∧ Backward file size index next := by
  have few : chunkCount file.length size ≤ file.length := chunkCount_le
  obtain ⟨⟨fileSize, chunkSize, numChunks⟩, isIndex⟩ := backward
  have more : reader.curChunkIndex ≠ 0 := by
    rw [isIndex]
    exact Nat.succ_ne_zero index
  have back : subSize reader.curChunkIndex 1 = index := by
    rw [isIndex, subSize_eq (by omega) (by omega), Nat.add_sub_cancel]
  have moved : Cut file size { reader with
    curReadAddr := none, curChunkIndex := subSize reader.curChunkIndex 1 } :=
    ⟨fileSize, chunkSize, numChunks⟩
  obtain ⟨next, shows, stands⟩ := (moved.calcCurrent page small positive back early).shows small
    positive (mul_lt_of_lt_chunkCount positive early)
  refine ⟨next, ?_, stands.cut, stands.isIndex⟩
  rw [ReverseReader.read, allSucceed, cleanMmap_succeeds]
  simp only [ne_eq, not_true_eq_false, if_false, if_neg more]
  exact shows

theorem Backward.stop (backward : Backward file size 0 reader) :
    ∃ next, ReverseReader.read page allSucceed reader = (.ok, .empty, next) := by
  refine ⟨{ reader with curReadAddr := none }, ?_⟩
  rw [ReverseReader.read, allSucceed, cleanMmap_succeeds]
  simp only [ne_eq, not_true_eq_false, if_false, if_pos backward.isIndex]

private theorem map_reverse_range (view : Nat → View) (count : Nat) :
    (List.range' 0 count).map (fun place => view (count - 1 - place)) =
      ((List.range count).map view).reverse := by
  rw [← List.map_reverse, List.range_eq_range', List.reverse_range', ← List.range_eq_range', List.map_map]
  refine List.map_congr_left fun place _ => ?_
  rw [Function.comp_apply, Nat.zero_add]

/-- Freshly opened readers return the same chunks, one of them from the front and the other from the end.
The chunks make up the file, and each is shown in a mapping that covers it and begins at a page. -/
def ReturnFile (page : PageSize) (file : List UInt8) (constructed itemSize : Int) (chunkSize : Nat) : Prop :=
  ∃ forward backward views,
    Reader.openFile (.construct constructed) (some file) itemSize chunkSize = (.ok, forward) ∧
    ReverseReader.openFile (.construct constructed) (some file) itemSize chunkSize = (.ok, backward) ∧
    (∀ rounds, views.length < rounds →
      readAll (Reader.read page allSucceed) rounds forward = some views ∧
      readAll (ReverseReader.read page allSucceed) rounds backward = some views.reverse) ∧
    views.flatMap (·.bytes file) = file ∧ ∀ view ∈ views, view.Covered page file

/-- Both readers return the whole file, whatever the sizes of its chunks and of the pages. -/
theorem readers_return_file (page : PageSize) (file : List UInt8) (constructed itemSize : Int)
    (chunkSize : Nat) (small : file.length < 2 ^ 63) (item : 1 ≤ itemSize) (chunk : 1 ≤ chunkSize)
    (product : chunkSize * itemSize < 2 ^ 63) :
    ReturnFile page file constructed itemSize chunkSize := by
  obtain ⟨size, opened, isOpened, whole, cut, noOffset, noLength, noIndex⟩ :=
    openSizes_cut small item chunk product constructed
  have few : chunkCount file.length size ≤ file.length := chunkCount_le
  have positive {index : Nat} (early : index < chunkCount file.length size) : 0 < size := by
    refine whole fun isEmpty => ?_
    rw [isEmpty, List.length_nil] at few early
    omega
  have nonempty {index : Nat} (early : index < chunkCount file.length size) :
      (chunkView page file.length size index).length ≠ 0 :=
    chunkView_nonempty (positive early) (mul_lt_of_lt_chunkCount (positive early) early)
  refine ⟨opened, { opened with curChunkIndex := opened.numChunks },
    (List.range (chunkCount file.length size)).map (chunkView page file.length size), isOpened, ?_, ?_, ?_, ?_⟩
  · rw [ReverseReader.openFile, isOpened]
  · intro rounds enough
    rw [List.length_map, List.length_range] at enough
    constructor
    · rw [List.range_eq_range']
      refine readAll_eq (Forward file size) ?_ ?_ (Nat.zero_add (chunkCount file.length size)) enough
        ⟨cut, noIndex, ?_⟩
      · intro index reader early forward
        exact ⟨nonempty early, forward.step small (positive early) early⟩
      · intro reader forward
        exact forward.stop whole
      · rw [noOffset, noLength, Nat.zero_mul, Nat.zero_min]
        rfl
    · rw [← map_reverse_range]
      refine readAll_eq (fun place => Backward file size (chunkCount file.length size - place)) ?_ ?_
        (Nat.zero_add (chunkCount file.length size)) enough ⟨⟨cut.fileSize, cut.chunkSize, cut.numChunks⟩, cut.numChunks⟩
      · intro place reader early backward
        have early' : chunkCount file.length size - 1 - place < chunkCount file.length size := by omega
        refine ⟨nonempty early', ?_⟩
        rw [show chunkCount file.length size - place = chunkCount file.length size - 1 - place + 1 by omega]
          at backward
        obtain ⟨next, reads, stands⟩ := backward.step small (positive early') early'
        exact ⟨next, reads, by rwa [Nat.sub_sub, Nat.add_comm 1] at stands⟩
      · intro reader backward
        rw [Nat.sub_self] at backward
        exact backward.stop
  · rw [List.flatMap_map]
    simp only [bytes_chunkView]
    refine chunks_eq ?_
    by_cases isEmpty : file = []
    · rw [isEmpty]
      exact Nat.zero_le _
    · exact le_chunkCount_mul (whole isEmpty)
  · intro view member
    obtain ⟨index, among, rfl⟩ := List.mem_map.mp member
    have early := List.mem_range.mp among
    exact chunkView_covered small (mul_lt_of_lt_chunkCount (positive early) early)

/-- A file of three bytes in chunks of two. -/
theorem readers_return_file_two_chunks : ReturnFile ⟨4096, 12, by decide, rfl⟩ [1, 2, 3] 1 2 1 :=
  readers_return_file _ _ _ _ _ (by decide) (by decide) (by decide) (by decide)

end BTool.MMapFile
