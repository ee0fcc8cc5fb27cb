import Mathlib.Data.List.TakeDrop
import BTool.Foundation.Chunks
import BTool.MMapFile.VectorAppend
import BTool.MMapFile.VectorReader
import BTool.MMapFile.WholeFile

/-! What a `VectorBuffer::Reader` returns of a file that was written and closed. It compares offsets in
the file, where the header is in front, with the length of the data, and reads the items after the first
of a chunk from the beginning of its mapping, which is that of a page. -/

namespace BTool.MMapFile.Vector

open BTool.Foundation BTool.Foundation.Image

/-- A file as a writer leaves it. -/
structure Closed (image data : List UInt8) : Prop where
  stores : Stores image data
  whole : image.length = metaSize + data.length
  small : image.length < 2 ^ 63

/-- Closing a file whose contents have been kept leaves it so. -/
theorem World.Kept.closed {calls : SystemCalls} {world after : World} (kept : world.Kept)
    {length : Nat} (isMapped : world.writer.mapped = some length) (isOpen : world.writer.isOpen = true)
    (succeeds : calls.ftruncate = true) {page : PageSize}
    (taken : world.next page (.close calls) = some after) : Closed after.image after.written := by
  obtain ⟨isLength, _⟩ := kept.mapped.whole length isMapped
  have header := kept.mapped.header length isMapped
  have bound := kept.mapped.small length isMapped
  have stores := kept.holds.stores
  have within := stores.within (by omega)
  have size : addSize (writeLen world.image) metaSize = metaSize + world.written.length := by
    rw [stores.length, addSize_eq (by omega), Nat.add_comm]
  have cut : truncates calls world.writer (addSize (writeLen world.image) metaSize) :=
    ⟨isOpen, succeeds, by omega⟩
  have relabelled : Stores (setFileLen world.image (addSize (writeLen world.image) metaSize)) world.written :=
    (Stores.setFileLen_iff (by omega)).mpr stores
  unfold World.next at taken
  simp only [if_pos kept.holds.running, close, isMapped, if_pos cut, Option.some.injEq] at taken
  subst taken
  refine ⟨relabelled.truncate_iff.mpr (.inr ?_), ?_, ?_⟩
  · rw [relabelled.length, size]
  · rw [length_truncate, size]
  · rw [length_truncate, size]
    omega

/-- The size of the chunks of a file. -/
def chunkLength (image : List UInt8) (chunkSize : Nat) : Nat :=
  min (mulSize chunkSize (offSize (intSize (word image 0)))) (writeLen image)

variable {page : PageSize} {image data : List UInt8} {length size chunkSize index offset : Nat}
  {reader : Reader}

/-- What a reader shows of a chunk of the data: the mapping begins at the page in which the chunk does. -/
def dataView (page : PageSize) (length size index : Nat) : View :=
  let start := metaSize + index * size
  let taken := min size (length - index * size)
  ⟨⟨page.alignDown start, taken + start - page.alignDown start⟩, start - page.alignDown start, taken⟩

/-- A reader that has the data cut into chunks of a size. -/
structure Divides (length size : Nat) (reader : Reader) : Prop where
  writeLen : reader.writeLen = length
  chunkSize : reader.chunkSize = size
  numChunks : reader.numChunks = chunkCount length size

/-- The reader has mapped a chunk, and has come to an offset in it. -/
structure At (page : PageSize) (length size index offset : Nat) (reader : Reader) : Prop where
  divides : Divides length size reader
  isIndex : reader.curChunkIndex = index + 1
  isFileOffset : reader.curFileOffset = metaSize + index * size
  isLength : reader.curReadBufLength = min size (length - index * size)
  isOffset : reader.curChunkOffset = offset
  isMapped : reader.curReadAddr = some (dataView page length size index).mapping

/-- A reader that has just been opened. -/
structure Fresh (length size : Nat) (reader : Reader) : Prop where
  divides : Divides length size reader
  isIndex : reader.curChunkIndex = 0
  isFileOffset : reader.curFileOffset = 0
  isLength : reader.curReadBufLength = 0
  isOffset : reader.curChunkOffset = 0
  isUnmapped : reader.curReadAddr = none

private theorem chunkSize_openImpl (reader : Reader) (chunkSize : Nat) :
    (reader.openImpl chunkSize).chunkSize =
      min (mulSize chunkSize (offSize reader.itemSize)) reader.writeLen := by
  simp only [Reader.openImpl]
  split <;> omega

private theorem numChunks_openImpl (small : reader.writeLen < 2 ^ 63) (none : reader.numChunks = 0) :
    (reader.openImpl chunkSize).numChunks =
      chunkCount reader.writeLen (reader.openImpl chunkSize).chunkSize := by
  have within : (reader.openImpl chunkSize).chunkSize ≤ reader.writeLen := by
    rw [chunkSize_openImpl]
    exact Nat.min_le_right _ _
  simp only [Reader.openImpl] at within ⊢
  generalize (if reader.writeLen < mulSize chunkSize (offSize reader.itemSize) then reader.writeLen
    else mulSize chunkSize (offSize reader.itemSize)) = size at within ⊢
  obtain rfl | some := Nat.eq_zero_or_pos size
  · rw [if_neg (Nat.lt_irrefl 0), none, chunkCount, Nat.div_zero]
  · rw [if_pos some, addSize_eq (by omega), subSize_eq (by omega) (by omega), chunkCount]

theorem openFile_fresh (image : List UInt8) (small : writeLen image < 2 ^ 63) (chunkSize : Nat) :
    ∃ opened, Reader.construct.openFile true image chunkSize = (.ok, opened) ∧
      Fresh (writeLen image) (chunkLength image chunkSize) opened := by
  have size : ((Reader.construct.init image).openImpl chunkSize).chunkSize = chunkLength image chunkSize :=
    chunkSize_openImpl _ _
  refine ⟨(Reader.construct.init image).openImpl chunkSize, rfl, ⟨rfl, size, ?_⟩, rfl, rfl, rfl, rfl, rfl⟩
  rw [numChunks_openImpl small rfl, size]
  rfl

private theorem cleanMmap_all (reader : Reader) :
    reader.cleanMmap true = (.ok, { reader with curReadAddr := none }) := by
  unfold Reader.cleanMmap
  split
  · rename_i unmapped
    rw [← unmapped]
  · rfl

/-- Nothing is returned once the file has been read up to the length of the data. -/
theorem read_stop (done : reader.writeLen ≤ addSize reader.curFileOffset reader.curReadBufLength) :
    reader.read page allSucceed = (.ok, .empty, { reader with curReadAddr := none }) := by
  rw [Reader.read, allSucceed, cleanMmap_all]
  simp only [ne_eq, not_true_eq_false, if_false, if_pos done]

/-- Otherwise the next chunk is returned. -/
theorem read_next (divides : Divides length size reader) (small : metaSize + length < 2 ^ 63)
    (isIndex : reader.curChunkIndex = index) (early : index * size < length) (positive : 0 < size)
    (more : addSize reader.curFileOffset reader.curReadBufLength < length) :
    ∃ next, reader.read page allSucceed = (.ok, dataView page length size index, next) ∧
      At page length size index 0 next := by
  have among := lt_chunkCount_of_mul_lt positive early
  have few : chunkCount length size ≤ length := chunkCount_le
  have start := page.alignDown_le (metaSize + index * size)
  obtain ⟨writeLen, chunkSize, numChunks⟩ := divides
  have isProduct : mulSize index size = index * size := mulSize_eq (by omega)
  have isStart : addSize metaSize (mulSize index size) = metaSize + index * size := by
    rw [isProduct, addSize_eq (by omega)]
  have isLength : (if index < subSize (chunkCount length size) 1 then size
      else subSize length (mulSize index size)) = min size (length - index * size) := by
    rw [isProduct, subSize_eq (by omega) (by omega), subSize_eq (by omega) (by omega),
      min_chunk positive among]
  have isMapped : mmap page true (subSize (addSize (min size (length - index * size))
      (metaSize + index * size)) (page.alignDown (metaSize + index * size)))
        (page.alignDown (metaSize + index * size)) = some (dataView page length size index).mapping := by
    rw [addSize_eq (by omega), subSize_eq (by omega) (by omega), mmap,
      if_pos ⟨rfl, by omega, page.dvd_alignDown (by omega)⟩]
    rfl
  refine ⟨{ reader with
      curChunkOffset := 0, curFileOffset := metaSize + index * size
      paOffset := page.alignDown (metaSize + index * size), curChunkIndex := index + 1
      curReadAddr := some (dataView page length size index).mapping
      curReadBufLength := min size (length - index * size)
      curReadChunkLength := subSize (addSize (min size (length - index * size)) (metaSize + index * size))
        (page.alignDown (metaSize + index * size)) },
    ?_, ⟨writeLen, chunkSize, numChunks⟩, rfl, rfl, rfl, rfl, rfl⟩
  rw [Reader.read, allSucceed, cleanMmap_all]
  simp only [ne_eq, not_true_eq_false, if_false, Reader.calcCurrent, writeLen, chunkSize, numChunks,
    isIndex, isStart, isLength, isMapped, if_neg (Nat.not_le.mpr more)]
  rw [subSize_eq start (by omega), addSize_eq (by omega : index + 1 < 2 ^ 64)]
  rfl

/-- A chunk is followed by another one if there is more than the length of a header behind it. -/
theorem At.read_next (stands : At page length size index offset reader) (small : metaSize + length < 2 ^ 63)
    (positive : 0 < size) (more : metaSize + (index + 1) * size < length) :
    ∃ next, reader.read page allSucceed = (.ok, dataView page length size (index + 1), next) ∧
      At page length size (index + 1) 0 next := by
  refine Vector.read_next stands.divides small stands.isIndex (by omega) positive ?_
  rw [Nat.succ_mul] at more
  rw [stands.isFileOffset, stands.isLength, addSize_eq (by omega)]
  omega

theorem At.read_stop (stands : At page length size index offset reader) (small : metaSize + length < 2 ^ 63)
    (early : index * size < length) (less : length ≤ metaSize + (index + 1) * size) :
    reader.read page allSucceed = (.ok, .empty, { reader with curReadAddr := none }) := by
  rw [Nat.succ_mul] at less
  refine Vector.read_stop ?_
  rw [stands.divides.writeLen, stands.isFileOffset, stands.isLength, addSize_eq (by omega)]
  omega

theorem Fresh.read_next (page : PageSize) (fresh : Fresh length size reader) (small : metaSize + length < 2 ^ 63)
    (positive : 0 < size) (some : 0 < length) :
    ∃ next, reader.read page allSucceed = (.ok, dataView page length size 0, next) ∧
      At page length size 0 0 next := by
  refine Vector.read_next fresh.divides small fresh.isIndex (by omega) positive ?_
  rw [fresh.isFileOffset, fresh.isLength]
  exact some

theorem Fresh.read_stop (fresh : Fresh length size reader) (empty : length = 0) :
    reader.read page allSucceed = (.ok, .empty, { reader with curReadAddr := none }) := by
  refine Vector.read_stop ?_
  rw [fresh.divides.writeLen, empty]
  exact Nat.zero_le _

/-- Nothing is ever returned where the size of a chunk is 0. -/
theorem Fresh.read_zero (fresh : Fresh length 0 reader) (some : 0 < length) :
    ∀ view next, reader.read page allSucceed = (.ok, view, next) → view.length = 0 := by
  intro view next reads
  obtain ⟨⟨writeLen, chunkSize, numChunks⟩, isIndex, isFileOffset, isLength, _, _⟩ := fresh
  have more : ¬ length ≤ addSize 0 0 := by
    rw [addSize]
    omega
  have count : (0 : Nat) < subSize (chunkCount length 0) 1 := by
    rw [chunkCount, Nat.div_zero]
    decide
  rw [Reader.read, allSucceed, cleanMmap_all] at reads
  simp only [ne_eq, not_true_eq_false, if_false, Reader.calcCurrent, writeLen, chunkSize, numChunks,
    isIndex, isFileOffset, isLength, if_neg more, if_pos count] at reads
  split at reads <;> cases reads
  rfl

/-- How many chunks are returned of data that are not empty. -/
def returned (length size : Nat) : Nat := max 1 (chunkCount (length - metaSize) size)

private theorem returned_spec (length : Nat) (positive : 0 < size) : length ≤ metaSize + returned length size * size ∧
    ∀ index < returned length size, index = 0 ∨ metaSize + index * size < length := by
  have enough : length - metaSize ≤ chunkCount (length - metaSize) size * size := le_chunkCount_mul positive
  have larger : chunkCount (length - metaSize) size * size ≤ returned length size * size :=
    Nat.mul_le_mul_right size (Nat.le_max_right _ _)
  refine ⟨by omega, fun index early => ?_⟩
  by_cases first : index = 0
  · exact .inl first
  · have among : index < chunkCount (length - metaSize) size := by
      unfold returned at early
      omega
    have within := mul_lt_of_lt_chunkCount positive among
    exact .inr (by omega)

private theorem dataView_nonempty (page : PageSize) (positive : 0 < size) (early : index * size < length) :
    (dataView page length size index).length ≠ 0 := by
  simp only [dataView]
  omega

/-- The chunks that a reader returns behind one of them. -/
private theorem readChunks_at (small : metaSize + length < 2 ^ 63) (positive : 0 < size) (some : 0 < length)
    {left rounds : Nat} (sum : index + 1 + left = returned length size) (enough : left < rounds)
    (stands : At page length size index offset reader) :
    reader.readChunks page allSucceed rounds =
      .some ((List.range' (index + 1) left).map (dataView page length size)) := by
  obtain ⟨total, among⟩ := returned_spec length positive
  have early {other : Nat} (before : other < returned length size) : other * size < length := by
    obtain rfl | within := among other before
    · rwa [Nat.zero_mul]
    · omega
  induction left generalizing index offset rounds reader with
  | zero =>
    obtain _ | rounds := rounds
    · exact absurd enough (Nat.lt_irrefl 0)
    rw [Reader.readChunks, stands.read_stop small (early (by omega)) (by rwa [← sum, Nat.add_zero] at total)]
    rfl
  | succ left ih =>
    obtain _ | rounds := rounds
    · exact absurd enough (Nat.not_lt_zero _)
    have more := (among (index + 1) (by omega)).resolve_left (Nat.succ_ne_zero index)
    obtain ⟨next, reads, stands⟩ := stands.read_next small positive more
    rw [Reader.readChunks, reads]
    simp only [if_neg (dataView_nonempty page positive (early (by omega : index + 1 < _)))]
    rw [ih (by omega) (by omega) stands, List.range'_succ, List.map_cons, Option.map_some]

/-- The chunks that a reader returns, as soon as it is called often enough. -/
theorem readChunks_fresh (page : PageSize) (small : metaSize + length < 2 ^ 63) (positive : 0 < size) (some : 0 < length)
    {rounds : Nat} (enough : returned length size < rounds) (fresh : Fresh length size reader) :
    reader.readChunks page allSucceed rounds =
      .some ((List.range (returned length size)).map (dataView page length size)) := by
  obtain _ | rounds := rounds
  · exact absurd enough (Nat.not_lt_zero _)
  obtain ⟨left, sum⟩ : ∃ left, 0 + 1 + left = returned length size :=
    ⟨returned length size - 1, by unfold returned; omega⟩
  obtain ⟨next, reads, stands⟩ := fresh.read_next page small positive some
  have nonempty : (dataView page length size 0).length ≠ 0 := dataView_nonempty page positive (by omega)
  rw [Reader.readChunks, reads]
  simp only [if_neg nonempty]
  rw [readChunks_at small positive some sum (by omega) stands, List.range_eq_range', ← sum,
    Nat.add_comm (0 + 1), List.range'_succ, List.map_cons, Option.map_some]

/-- Readers that are called more often return the same chunks. -/
theorem readChunks_unique {rounds more : Nat} {views others : List View}
    (first : reader.readChunks page allSucceed rounds = some views)
    (second : reader.readChunks page allSucceed more = some others) : others = views := by
  induction rounds generalizing more reader views others with
  | zero => cases first
  | succ rounds ih =>
    obtain _ | more := more
    · cases second
    rw [Reader.readChunks] at first second
    split at first
    · rename_i view next reads
      rw [reads] at second
      simp only at second
      split at first
      · rename_i empty
        rw [if_pos empty] at second
        exact (Option.some.inj second).symm.trans (Option.some.inj first)
      · rename_i nonempty
        rw [if_neg nonempty] at second
        obtain ⟨rest, continues, rfl⟩ := Option.map_eq_some_iff.mp first
        obtain ⟨others, again, rfl⟩ := Option.map_eq_some_iff.mp second
        rw [ih continues again]
    · cases first

theorem Stores.bytes_dataView (stores : Stores image data) :
    (dataView page data.length size index).bytes image = chunk size data index := by
  have start := page.alignDown_le (metaSize + index * size)
  rw [View.bytes_eq (by simp only [dataView]; omega)]
  simp only [dataView, Nat.add_sub_cancel' start]
  have isData := stores.data
  generalize data.length = length at isData ⊢
  rw [← isData, chunk, piece, List.drop_take, List.drop_drop, List.take_take]

/-- The chunks up to an empty one are the data. -/
def ReadsBack (page : PageSize) (image : List UInt8) (chunkSize : Nat) (data : List UInt8) : Prop :=
  ∃ opened rounds views, Reader.construct.openFile true image chunkSize = (.ok, opened) ∧
    opened.readChunks page allSucceed rounds = some views ∧ views.flatMap (·.bytes image) = data

/-- There is only one chunk, or the last one is longer than a header. -/
def LongEnd (length size : Nat) : Prop :=
  length = 0 ∨ 0 < size ∧ (length ≤ size ∨ metaSize + (chunkCount length size - 1) * size < length)

private theorem le_returned_mul_iff (positive : 0 < size) :
    length ≤ returned length size * size ↔
      length ≤ size ∨ metaSize + (chunkCount length size - 1) * size < length := by
  obtain ⟨_, among⟩ := returned_spec length positive
  have whole : length ≤ chunkCount length size * size := le_chunkCount_mul positive
  have one : 1 ≤ returned length size := Nat.le_max_left _ _
  constructor
  · intro enough
    have few : chunkCount length size ≤ returned length size := by
      by_contra more
      have within := mul_lt_of_lt_chunkCount positive (Nat.not_le.mp more)
      omega
    obtain first | within := among (chunkCount length size - 1) (by omega)
    · have single : chunkCount length size * size ≤ 1 * size := Nat.mul_le_mul_right size (by omega)
      exact .inl (by omega)
    · exact .inr within
  · rintro (single | within)
    · exact Nat.le_trans single (Nat.le_mul_of_pos_left size one)
    · have early : chunkCount length size - 1 < chunkCount (length - metaSize) size :=
        lt_chunkCount_of_mul_lt positive (by omega)
      have late : chunkCount (length - metaSize) size ≤ returned length size := Nat.le_max_right _ _
      exact Nat.le_trans whole (Nat.mul_le_mul_right size (by omega))

/-- The chunks that are returned are the data if and only if there is only one, or the last one is
longer than a header. -/
theorem Closed.readsBack_iff (closed : Closed image data) (page : PageSize) (chunkSize : Nat) :
    ReadsBack page image chunkSize data ↔ LongEnd data.length (chunkLength image chunkSize) := by
  obtain ⟨stores, whole, small⟩ := closed
  have isLength := stores.length
  obtain ⟨opened, opens, fresh⟩ := openFile_fresh image (by omega) chunkSize
  rw [isLength] at fresh
  have same {other : Reader} (again : Reader.construct.openFile true image chunkSize = (.ok, other)) :
      other = opened := (Prod.mk.inj (again.symm.trans opens)).2
  obtain empty | some := Nat.eq_zero_or_pos data.length
  · refine iff_of_true ⟨opened, 1, [], opens, ?_, (List.length_eq_zero_iff.mp empty).symm⟩ (.inl empty)
    rw [Reader.readChunks, fresh.read_stop empty]
    rfl
  · obtain none | positive := Nat.eq_zero_or_pos (chunkLength image chunkSize)
    · rw [none] at fresh ⊢
      refine iff_of_false ?_ ?_
      · rintro ⟨other, rounds, views, again, reads, bytes⟩
        obtain rfl := same again
        have nothing : views = [] := by
          obtain _ | rounds := rounds
          · cases reads
          rw [Reader.readChunks] at reads
          split at reads
          · rename_i view next first
            rw [if_pos (fresh.read_zero some view next first)] at reads
            exact (Option.some.inj reads).symm
          · cases reads
        rw [nothing, List.flatMap_nil] at bytes
        rw [← bytes] at some
        exact absurd some (Nat.lt_irrefl 0)
      · rintro (isEmpty | ⟨positive, _⟩) <;> omega
    · have reads {rounds : Nat} (enough : returned data.length (chunkLength image chunkSize) < rounds) :=
        readChunks_fresh page (by omega) positive some enough fresh
      have bytes : ((List.range (returned data.length (chunkLength image chunkSize))).map
          (dataView page data.length (chunkLength image chunkSize))).flatMap (·.bytes image) =
            data.take (returned data.length (chunkLength image chunkSize) * chunkLength image chunkSize) := by
        rw [List.flatMap_map, take_eq_chunks]
        simp only [stores.bytes_dataView]
      have readsBack : ReadsBack page image chunkSize data ↔
          data.length ≤ returned data.length (chunkLength image chunkSize) * chunkLength image chunkSize := by
        rw [← List.take_eq_self_iff, ← bytes]
        constructor
        · rintro ⟨other, rounds, views, again, first, isData⟩
          obtain rfl := same again
          rwa [readChunks_unique first (reads (Nat.lt_succ_self _))]
        · intro isData
          exact ⟨opened, _, _, opens, reads (Nat.lt_succ_self _), isData⟩
      rw [readsBack, le_returned_mul_iff positive]
      constructor
      · exact fun long => .inr ⟨positive, long⟩
      · rintro (isEmpty | ⟨_, long⟩)
        · omega
        · exact long

end BTool.MMapFile.Vector
