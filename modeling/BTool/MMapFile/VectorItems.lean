import BTool.MMapFile.VectorReading

/-! The items that `read_next` of a `VectorBuffer::Reader` returns, call by call. -/

namespace BTool.MMapFile.Vector

open BTool.Foundation BTool.Foundation.Image

variable {page : PageSize} {image : List UInt8} {items : List (List UInt8)}
  {length chunk size chunkSize count index taken : Nat} {reader next : Reader}

/-- Where the call after so many others looks for its item. The first item of a chunk is where the chunk
begins, the others are counted from the page in which it does. -/
def itemPlace (page : PageSize) (chunk size count : Nat) : Nat :=
  let start := metaSize + count / (chunk / size) * chunk
  let offset := count % (chunk / size) * size
  if offset = 0 then start else page.alignDown start + offset

/-- There is such an item in a chunk that is returned. -/
def Available (length chunk size count : Nat) : Prop :=
  0 < chunk / size ∧
    (count / (chunk / size) = 0 ∨ metaSize + count / (chunk / size) * chunk < length) ∧
    count % (chunk / size) * size + size ≤ min chunk (length - count / (chunk / size) * chunk)

/-- So many items have been returned, so many of them of the current chunk. -/
inductive Before (page : PageSize) (length chunk size : Nat) : Nat → Reader → Prop where
  | fresh {reader : Reader} (fresh : Fresh length chunk reader) : Before page length chunk size 0 reader
  | within {reader : Reader} {index taken : Nat} (stands : At page length chunk index (taken * size) reader)
      (shown : index = 0 ∨ metaSize + index * chunk < length) (some : 0 < taken)
      (few : taken ≤ chunk / size) : Before page length chunk size (index * (chunk / size) + taken) reader

private theorem early_of_shown (some : 0 < length) (shown : index = 0 ∨ metaSize + index * chunk < length) :
    index * chunk < length := by
  obtain rfl | within := shown
  · rwa [Nat.zero_mul]
  · omega

private theorem div_mod_within (index : Nat) (less : taken < count) :
    (index * count + taken) / count = index ∧ (index * count + taken) % count = taken := by
  refine ⟨?_, ?_⟩
  · rw [Nat.add_comm, Nat.add_mul_div_right _ _ (by omega), Nat.div_eq_of_lt less, Nat.zero_add]
  · rw [Nat.add_comm, Nat.add_mul_mod_self_right, Nat.mod_eq_of_lt less]

private theorem div_mod_whole (index : Nat) (positive : 0 < count) :
    (index * count + count) / count = index + 1 ∧ (index * count + count) % count = 0 := by
  rw [← Nat.succ_mul]
  exact ⟨Nat.mul_div_cancel _ positive, Nat.mul_mod_left _ _⟩

private theorem taken_mul_le (less : taken < chunk / size) : taken * size + size ≤ chunk := by
  rw [← Nat.succ_mul]
  exact Nat.le_trans (Nat.mul_le_mul_right size less) (Nat.div_mul_le_self chunk size)

private theorem advance {offset : Nat} (stands : At page length chunk index offset next)
    (small : offset + size < 2 ^ 64) : At page length chunk index (offset + size)
      { next with curChunkOffset := addSize next.curChunkOffset size } := by
  obtain ⟨⟨writeLen, chunkSize, numChunks⟩, isIndex, isFileOffset, isLength, isOffset, isMapped⟩ := stands
  refine ⟨⟨writeLen, chunkSize, numChunks⟩, isIndex, isFileOffset, isLength, ?_, isMapped⟩
  simp only [isOffset]
  exact addSize_eq small

/-- The item at the front of a chunk that has been read for it. -/
private theorem readNext_front (image : List UInt8) (small : metaSize + length < 2 ^ 63)
    (behind : reader.curReadBufLength < addSize reader.curChunkOffset size)
    (reads : reader.read page allSucceed = (.ok, dataView page length chunk index, next))
    (stands : At page length chunk index 0 next) (some : 0 < size)
    (fits : size ≤ min chunk (length - index * chunk)) :
    ∃ view after, reader.readNext page allSucceed size = (.ok, .some view, after) ∧
      view.bytes image = piece image (metaSize + index * chunk) size ∧
      At page length chunk index (1 * size) after := by
  have start := page.alignDown_le (metaSize + index * chunk)
  have enough : ¬ (dataView page length chunk index).length / size = 0 := by
    rw [Nat.div_eq_zero_iff]
    simp only [dataView]
    omega
  have stands := advance stands (by omega : 0 + size < 2 ^ 64)
  refine ⟨⟨(dataView page length chunk index).mapping, (dataView page length chunk index).start, size⟩,
    { next with curChunkOffset := addSize next.curChunkOffset size }, ?_, ?_, ?_⟩
  · rw [Reader.readNext, if_pos behind, reads]
    simp only [ne_eq, not_true_eq_false, enough, or_self, if_false]
  · rw [View.bytes_eq (by simp only [dataView]; omega)]
    simp only [dataView, Nat.add_sub_cancel' start]
    rfl
  · rwa [(by omega : 0 + size = 1 * size)] at stands

/-- Another item of the chunk that is mapped. -/
private theorem readNext_further (image : List UInt8) (small : metaSize + length < 2 ^ 63)
    (stands : At page length chunk index (taken * size) reader)
    (fits : taken * size + size ≤ min chunk (length - index * chunk)) :
    ∃ view after, reader.readNext page allSucceed size = (.ok, .some view, after) ∧
      view.bytes image = piece image (page.alignDown (metaSize + index * chunk) + taken * size) size ∧
      At page length chunk index ((taken + 1) * size) after := by
  have start := page.alignDown_le (metaSize + index * chunk)
  have ahead : ¬ reader.curReadBufLength < addSize reader.curChunkOffset size := by
    rw [stands.isLength, stands.isOffset, addSize_eq (by omega)]
    omega
  refine ⟨⟨(dataView page length chunk index).mapping, reader.curChunkOffset, size⟩,
    { reader with curChunkOffset := addSize reader.curChunkOffset size }, ?_, ?_, ?_⟩
  · rw [Reader.readNext, if_neg ahead, stands.isMapped]
    rfl
  · rw [View.bytes_eq (by simp only [dataView, stands.isOffset]; omega), stands.isOffset]
    rfl
  · rw [Nat.succ_mul]
    exact advance stands (by omega)

/-- Nothing is returned where what is read for it is too short. -/
private theorem readNext_none (behind : reader.curReadBufLength < addSize reader.curChunkOffset size)
    (short : ∀ view after, reader.read page allSucceed = (.ok, view, after) → view.length < size) :
    ∀ view after, reader.readNext page allSucceed size ≠ (.ok, some view, after) := by
  intro view after reads
  rw [Reader.readNext, if_pos behind] at reads
  cases first : reader.read page allSucceed with
  | mk error rest =>
    obtain ⟨chunkView, next⟩ := rest
    simp only [first] at reads
    split at reads
    · simp at reads
    · rename_i returns
      obtain ⟨isOk, some⟩ := not_or.mp returns
      have isOk : error = .ok := not_not.mp isOk
      have less := short chunkView next (by rw [first, isOk])
      exact some (Nat.div_eq_of_lt less)

/-- A call returns the item that is looked for, as long as there is one. -/
theorem Before.returns (image : List UInt8) (before : Before page length chunk size count reader)
    (small : metaSize + length < 2 ^ 63) (some : 0 < size) (fits : size ≤ length) (cut : chunk ≤ length)
    (available : Available length chunk size count) :
    ∃ view after, reader.readNext page allSucceed size = (.ok, .some view, after) ∧
      view.bytes image = piece image (itemPlace page chunk size count) size ∧
      Before page length chunk size (count + 1) after := by
  obtain ⟨positive, returned, within⟩ := available
  have larger : 0 < chunk := Nat.pos_of_ne_zero fun none => by simp [none] at positive
  cases before with
  | fresh fresh =>
    rw [Nat.zero_div, Nat.zero_mod, Nat.zero_mul] at within
    obtain ⟨next, reads, stands⟩ := fresh.read_next page small larger (by omega)
    have behind : reader.curReadBufLength < addSize reader.curChunkOffset size := by
      rw [fresh.isLength, fresh.isOffset, addSize_eq (by omega)]
      omega
    obtain ⟨view, after, returns, bytes, stands⟩ :=
      readNext_front image small behind reads stands some (by omega)
    refine ⟨view, after, returns, ?_, ?_⟩
    · simpa [itemPlace] using bytes
    · have later := Before.within stands (.inl rfl) Nat.one_pos positive
      rwa [Nat.zero_mul, Nat.zero_add] at later
  | @within _ index taken stands shown any few =>
    obtain less | rfl := Nat.lt_or_eq_of_le few
    · obtain ⟨isIndex, isTaken⟩ := div_mod_within index less
      rw [isIndex, isTaken] at within
      have nonzero : taken * size ≠ 0 := Nat.mul_ne_zero (by omega) (by omega)
      obtain ⟨view, after, returns, bytes, stands⟩ :=
        readNext_further image small stands within
      refine ⟨view, after, returns, ?_, .within stands shown (Nat.succ_pos taken) less⟩
      simpa only [itemPlace, isIndex, isTaken, if_neg nonzero] using bytes
    · obtain ⟨isIndex, isTaken⟩ := div_mod_whole index positive
      rw [isIndex, isTaken, Nat.zero_mul, Nat.zero_add] at within
      rw [isIndex] at returned
      have more := returned.resolve_left (Nat.succ_ne_zero index)
      obtain ⟨next, reads, behindStands⟩ := stands.read_next small larger more
      have product := Nat.div_mul_le_self chunk size
      have above : chunk < chunk / size * size + size := Nat.lt_div_mul_add some
      have behind : reader.curReadBufLength < addSize reader.curChunkOffset size := by
        rw [stands.isLength, stands.isOffset, addSize_eq (by omega)]
        omega
      obtain ⟨view, after, returns, bytes, stands⟩ :=
        readNext_front image small behind reads behindStands some within
      refine ⟨view, after, returns, ?_, ?_⟩
      · simpa only [itemPlace, isIndex, isTaken, Nat.zero_mul, if_true] using bytes
      · rw [← Nat.succ_mul]
        exact .within stands (.inr more) Nat.one_pos positive

/-- A call that has no item to return returns none. -/
theorem Before.not_returns (before : Before page length chunk size count reader)
    (small : metaSize + length < 2 ^ 63) (some : 0 < size) (fits : size ≤ length) (cut : chunk ≤ length)
    (missing : ¬ Available length chunk size count) :
    ∀ view after, reader.readNext page allSucceed size ≠ (.ok, .some view, after) := by
  cases before with
  | fresh fresh =>
    have behind : reader.curReadBufLength < addSize reader.curChunkOffset size := by
      rw [fresh.isLength, fresh.isOffset, addSize_eq (by omega)]
      omega
    refine readNext_none behind fun view after reads => ?_
    obtain rfl | positive := Nat.eq_zero_or_pos chunk
    · rw [fresh.read_zero (by omega) view after reads]
      exact some
    · obtain ⟨next, first, _⟩ := fresh.read_next page small positive (by omega)
      cases first.symm.trans reads
      simp only [dataView, Nat.zero_mul, Nat.sub_zero]
      by_contra long
      refine missing ⟨Nat.div_pos (by omega) some, .inl (Nat.zero_div _), ?_⟩
      rw [Nat.zero_mod, Nat.zero_div, Nat.zero_mul, Nat.zero_mul]
      omega
  | @within _ index taken stands shown any few =>
    have positive : 0 < chunk / size := by omega
    have larger : 0 < chunk := Nat.pos_of_ne_zero fun none => by simp [none] at positive
    have early := early_of_shown (by omega) shown
    obtain less | rfl := Nat.lt_or_eq_of_le few
    · obtain ⟨isIndex, isTaken⟩ := div_mod_within index less
      have within := taken_mul_le less
      have short : min chunk (length - index * chunk) < taken * size + size := by
        by_contra long
        exact missing ⟨positive, by rwa [isIndex], by rw [isIndex, isTaken]; omega⟩
      have behind : reader.curReadBufLength < addSize reader.curChunkOffset size := by
        rw [stands.isLength, stands.isOffset, addSize_eq (by omega)]
        exact short
      refine readNext_none behind fun view after reads => ?_
      have stops := stands.read_stop small early (by rw [Nat.succ_mul]; omega)
      cases stops.symm.trans reads
      exact some
    · obtain ⟨isIndex, isTaken⟩ := div_mod_whole index positive
      have above : chunk < chunk / size * size + size := Nat.lt_div_mul_add some
      have product := Nat.div_mul_le_self chunk size
      have behind : reader.curReadBufLength < addSize reader.curChunkOffset size := by
        rw [stands.isLength, stands.isOffset, addSize_eq (by omega)]
        omega
      refine readNext_none behind fun view after reads => ?_
      by_cases more : metaSize + (index + 1) * chunk < length
      · obtain ⟨next, first, _⟩ := stands.read_next small larger more
        cases first.symm.trans reads
        simp only [dataView]
        by_contra long
        refine missing ⟨positive, .inr (by rwa [isIndex]), ?_⟩
        rw [isIndex, isTaken, Nat.zero_mul]
        omega
      · have stops := stands.read_stop small early (Nat.not_lt.mp more)
        cases stops.symm.trans reads
        exact some

/-- The calls return the items one after the other. -/
def ReturnsItems (page : PageSize) (image : List UInt8) (chunkSize size : Nat) (items : List (List UInt8)) :
    Prop :=
  ∃ opened, Reader.construct.openFile true image chunkSize = (.ok, opened) ∧
    ∀ count item, items[count]? = some item → ∃ view next,
      (opened.afterNext page allSucceed size count).readNext page allSucceed size = (.ok, some view, next) ∧
        view.bytes image = item

/-- The item is in a chunk that is returned, and where it is looked for there are the same bytes. -/
def Found (page : PageSize) (image : List UInt8) (chunk size count : Nat) : Prop :=
  Available (writeLen image) chunk size count ∧
    piece image (itemPlace page chunk size count) size = piece image (metaSize + count * size) size

private theorem length_flatten_eq (sizes : ∀ item ∈ items, item.length = size) :
    items.flatten.length = items.length * size := by
  induction items with
  | nil => simp
  | cons item items ih =>
    rw [List.flatten_cons, List.length_append, ih fun other member => sizes other (by simp [member]),
      sizes item (by simp), List.length_cons, Nat.succ_mul, Nat.add_comm]

private theorem getElem?_eq_take {item : List UInt8} (sizes : ∀ item ∈ items, item.length = size)
    (there : items[count]? = some item) : (items.flatten.drop (count * size)).take size = item := by
  induction items generalizing count with
  | nil => simp at there
  | cons first items ih =>
    have isSize := sizes first (by simp)
    cases count with
    | zero =>
      obtain rfl : first = item := by simpa using there
      rw [Nat.zero_mul, List.drop_zero, List.flatten_cons, ← isSize, List.take_left]
    | succ count =>
      have later := ih (fun other member => sizes other (by simp [member])) (by simpa using there)
      rw [List.flatten_cons, Nat.succ_mul, Nat.add_comm, ← List.drop_drop, List.drop_left' isSize, later]

private theorem item_eq_piece {item : List UInt8} (stores : Stores image items.flatten)
    (sizes : ∀ item ∈ items, item.length = size) (there : items[count]? = some item) :
    piece image (metaSize + count * size) size = item := by
  have early : count < items.length := (List.getElem?_eq_some_iff.mp there).1
  have within : (count + 1) * size ≤ items.length * size := Nat.mul_le_mul_right size early
  rw [Nat.succ_mul] at within
  have isData := stores.data
  rw [length_flatten_eq sizes] at isData
  rw [← getElem?_eq_take sizes there, ← isData, piece, piece, List.drop_take, List.drop_drop, List.take_take,
    Nat.min_eq_left (by omega)]

/-- The calls return the items if and only if every one of them is found. -/
theorem Closed.returnsItems_iff (closed : Closed image items.flatten) (some : 0 < size)
    (sizes : ∀ item ∈ items, item.length = size) :
    ReturnsItems page image chunkSize size items ↔
      ∀ count < items.length, Found page image (chunkLength image chunkSize) size count := by
  obtain ⟨stores, whole, small⟩ := closed
  have isLength := stores.length
  have total := length_flatten_eq sizes
  obtain ⟨opened, opens, fresh⟩ := openFile_fresh image (by omega) chunkSize
  have cut : chunkLength image chunkSize ≤ writeLen image := Nat.min_le_right _ _
  have fits {count : Nat} (early : count < items.length) : size ≤ writeLen image := by
    have larger : 1 * size ≤ items.length * size := Nat.mul_le_mul_right size (by omega)
    omega
  have before {count : Nat} (within : count ≤ items.length)
      (available : ∀ other < count, Available (writeLen image) (chunkLength image chunkSize) size other) :
      Before page (writeLen image) (chunkLength image chunkSize) size count
        (opened.afterNext page allSucceed size count) := by
    induction count with
    | zero => exact .fresh fresh
    | succ count ih =>
      have stands := ih (by omega) fun other earlier => available other (by omega)
      obtain ⟨view, after, returns, _, later⟩ :=
        stands.returns image (by omega) some (fits (Nat.lt_of_succ_le within)) cut (available count (by omega))
      rwa [Reader.afterNext, returns]
  constructor
  · rintro ⟨other, again, calls⟩
    obtain rfl : other = opened := (Prod.mk.inj (again.symm.trans opens)).2
    intro count
    induction count using Nat.strong_induction_on with
    | h count ih =>
      intro early
      have stands := before (Nat.le_of_lt early) fun other earlier => (ih other earlier (by omega)).1
      obtain ⟨view, next, returns, bytes⟩ := calls count _ (List.getElem?_eq_getElem early)
      have available : Available (writeLen image) (chunkLength image chunkSize) size count := by
        by_contra missing
        exact stands.not_returns (by omega) some (fits early) cut missing view next returns
      refine ⟨available, ?_⟩
      obtain ⟨view', after, returns', bytes', _⟩ :=
        stands.returns image (by omega) some (fits early) cut available
      obtain rfl : view = view' := by
        have same := returns.symm.trans returns'
        simp only [Prod.mk.injEq, Option.some.injEq] at same
        exact same.2.1
      rw [← bytes', bytes, item_eq_piece stores sizes (List.getElem?_eq_getElem early)]
  · intro found
    refine ⟨opened, opens, fun count item there => ?_⟩
    have early : count < items.length := (List.getElem?_eq_some_iff.mp there).1
    have stands := before (Nat.le_of_lt early) fun other earlier => (found other (by omega)).1
    obtain ⟨view, after, returns, bytes, _⟩ :=
      stands.returns image (by omega) some (fits early) cut (found count early).1
    exact ⟨view, after, returns, by rw [bytes, (found count early).2, item_eq_piece stores sizes there]⟩

/-- What was written and closed is returned chunk by chunk and item by item if and only if the last of
several chunks is longer than a header and every item is found. -/
theorem Closed.items_round_trip_iff (closed : Closed image items.flatten) (some : 0 < size) :
    (ReadsBack page image chunkSize items.flatten ∧
        ((∀ item ∈ items, item.length = size) → ReturnsItems page image chunkSize size items)) ↔
      LongEnd (writeLen image) (chunkLength image chunkSize) ∧
        ((∀ item ∈ items, item.length = size) →
          ∀ count < items.length, Found page image (chunkLength image chunkSize) size count) := by
  have whole := closed.readsBack_iff page chunkSize
  rw [← closed.stores.length] at whole
  rw [whole]
  refine and_congr_right fun _ => forall_congr' fun sizes => ?_
  exact closed.returnsItems_iff some sizes

/-- Two items of 32 bytes, in chunks of one item. -/
theorem Closed.items_round_trip_iff_two_chunks :
    let items : List (List UInt8) := [List.replicate 32 7, List.replicate 32 8]
    let image := wordBytes 32 ++ wordBytes 64 ++ wordBytes 88 ++ items.flatten
    let page : PageSize := ⟨4096, 12, by decide, rfl⟩
    (ReadsBack page image 1 items.flatten ∧
        ((∀ item ∈ items, item.length = 32) → ReturnsItems page image 1 32 items)) ↔
      LongEnd (writeLen image) (chunkLength image 1) ∧
        ((∀ item ∈ items, item.length = 32) →
          ∀ count < items.length, Found page image (chunkLength image 1) 32 count) := by
  intro items image page
  have closed : Closed image items.flatten :=
    ⟨⟨by decide +kernel, by decide +kernel⟩, by decide +kernel, by decide +kernel⟩
  exact closed.items_round_trip_iff (by decide)

/-- Of three items of eight bytes in chunks of two, the last chunk is not returned: behind the first
there are only as many bytes as in a header. Where the second item should be is a part of the header. -/
theorem not_round_trip_three_items :
    let items : List (List UInt8) := [List.replicate 8 7, List.replicate 8 8, List.replicate 8 9]
    let image := wordBytes 8 ++ wordBytes 24 ++ wordBytes 48 ++ items.flatten
    let page : PageSize := ⟨4096, 12, by decide, rfl⟩
    Closed image items.flatten ∧ (∀ item ∈ items, item.length = 8) ∧
      ¬ ReadsBack page image 2 items.flatten ∧ ¬ ReturnsItems page image 2 8 items := by
  intro items image page
  have closed : Closed image items.flatten :=
    ⟨⟨by decide +kernel, by decide +kernel⟩, by decide +kernel, by decide +kernel⟩
  have sizes : ∀ item ∈ items, item.length = 8 := by decide +kernel
  refine ⟨closed, sizes, ?_, ?_⟩
  · rw [closed.readsBack_iff]
    unfold LongEnd
    decide +kernel
  · rw [closed.returnsItems_iff (by decide) sizes]
    intro found
    have second := (found 1 (by decide)).2
    revert second
    decide +kernel

end BTool.MMapFile.Vector
