import BTool.ParquetRow.Reader

/-! Which bytes `read` changes: a value is copied into the cell of its row and its column, and may be longer
than this. -/

namespace BTool.ParquetRow

open BTool.Foundation

/-- The bytes of a value, for the types that are copied with `sizeof`. -/
def ArrowType.bytes : ArrowType → Option Nat
  | .bool | .int8 | .uint8 => some 1
  | .int16 | .uint16 | .halfFloat => some 2
  | .int32 | .uint32 | .float => some 4
  | .int64 | .uint64 | .double => some 8
  | _ => none

namespace Reader

variable {reader opened : Reader} {batch : RecordBatch} {column row : Nat} {info : CloumnInfo} {copy : Copy}

/-- The bytes of a column in a row. -/
def InCell (reader : Reader) (info : CloumnInfo) (row position : Nat) : Prop :=
  row * reader.rowLength + info.rowOffset ≤ position ∧
    position < row * reader.rowLength + info.rowOffset + info.fixLength

/-- The columns in front of one have types that are known, so the loop comes to it. -/
def Comes (reader : Reader) (batch : RecordBatch) (column : Nat) : Prop :=
  ∀ earlier < column, ∃ info array, reader.cloumnInfos[earlier]? = some info ∧
    batch.columns[earlier]? = some array ∧ (reader.copies info array).isSome

/-- The value of a column of a row is copied so. -/
structure Copied (reader : Reader) (batch : RecordBatch) (column row : Nat) (info : CloumnInfo) (copy : Copy) :
    Prop where
  comes : reader.Comes batch column
  isInfo : reader.cloumnInfos[column]? = some info
  isCopy : ∃ array copies, batch.columns[column]? = some array ∧ reader.copies info array = some copies ∧
    copies[row]? = some (some copy)

/-- A copy changes some bytes at most and leaves others as they are, whatever there is in the buffer. -/
def Changes (length : Nat) (copy : Copy) (own others : Nat → Prop) : Prop :=
  ∀ before : List UInt8, before.length = length → ∃ after, memcpy before copy = some after ∧
    (∀ position, after[position]? ≠ before[position]? → own position) ∧
    ∀ position, others position → after[position]? = before[position]?

/-- Every copy only changes the cell of its row and its column, and no other cell and nothing out of the buffer. -/
structure Framed (reader : Reader) (batch : RecordBatch) : Prop where
  memory : reader.readBuf.isSome
  known : ∀ column < batch.columns.length, reader.Comes batch column → column < reader.cloumnInfos.length
  frame : ∀ column row info copy, reader.Copied batch column row info copy →
    Changes reader.readBufLen copy (reader.InCell info row) fun position =>
      ∃ other line info, reader.cloumnInfos[other]? = some info ∧ (other, line) ≠ (column, row) ∧
        reader.InCell info line position

/-- A copy fits its column, and lies in the buffer and in no other cell. -/
structure Clear (reader : Reader) (column row : Nat) (info : CloumnInfo) (copy : Copy) : Prop where
  fits : copy.bytes.length ≤ info.fixLength
  inside : 0 ≤ copy.place ∧ copy.place + copy.bytes.length ≤ reader.readBufLen
  alone : ∀ other line info, reader.cloumnInfos[other]? = some info → (other, line) ≠ (column, row) →
    ∀ position, reader.InCell info line position →
      position < copy.place ∨ copy.place + copy.bytes.length ≤ position

section Changes

variable {before after : List UInt8} {length position : Nat} {own others : Nat → Prop}

theorem memcpy_eq_some_iff : memcpy before copy = some after ↔
    (0 ≤ copy.place ∧ copy.place + copy.bytes.length ≤ before.length) ∧
      Image.overwrite before copy.place.toNat copy.bytes = after := by
  unfold memcpy
  split
  next inside => rw [Option.some.injEq, and_iff_right inside]
  next outside => exact iff_of_false nofun fun both => outside both.1

theorem length_memcpy (copied : memcpy before copy = some after) : after.length = before.length := by
  obtain ⟨⟨_, _⟩, rfl⟩ := memcpy_eq_some_iff.mp copied
  exact Image.length_overwrite (by omega)

theorem getElem?_memcpy (copied : memcpy before copy = some after) (position : Nat) : after[position]? =
    if copy.place ≤ position ∧ position < copy.place + copy.bytes.length then
      copy.bytes[position - copy.place.toNat]?
    else before[position]? := by
  obtain ⟨⟨_, _⟩, rfl⟩ := memcpy_eq_some_iff.mp copied
  have same : (copy.place.toNat ≤ position ∧ position < copy.place.toNat + copy.bytes.length) ↔
      (copy.place ≤ position ∧ position < copy.place + copy.bytes.length) := by
    omega
  rw [Image.getElem?_overwrite (by omega)]
  simp only [same]

/-- A copy can change all the bytes it goes to. -/
theorem changes_iff : Changes length copy own others ↔
    (0 ≤ copy.place ∧ copy.place + copy.bytes.length ≤ length) ∧
      ∀ position : Nat, copy.place ≤ position → position < copy.place + copy.bytes.length →
        own position ∧ ¬ others position := by
  constructor
  · intro changes
    have inside : 0 ≤ copy.place ∧ copy.place + copy.bytes.length ≤ length := by
      obtain ⟨after, copied, _⟩ := changes (List.replicate length 0) List.length_replicate
      have inside := (memcpy_eq_some_iff.mp copied).1
      rwa [List.length_replicate] at inside
    refine ⟨inside, fun position begins ends => ?_⟩
    have there : position - copy.place.toNat < copy.bytes.length := by omega
    -- a buffer in which the byte is another one
    let byte := copy.bytes[position - copy.place.toNat]
    obtain ⟨after, copied, kept, same⟩ := changes (List.replicate length (byte + 1)) List.length_replicate
    have changed : after[position]? ≠ (List.replicate length (byte + 1))[position]? := by
      rw [getElem?_memcpy copied, if_pos ⟨begins, ends⟩, List.getElem?_eq_getElem there,
        List.getElem?_replicate, if_pos (by omega)]
      intro equal
      have equal : byte = byte + 1 := Option.some.inj equal
      grind
    exact ⟨kept position changed, fun other => changed (same position other)⟩
  · rintro ⟨inside, mine⟩ before rfl
    have copied := memcpy_eq_some_iff.mpr ⟨inside, rfl⟩
    refine ⟨_, copied, fun position changed => ?_, fun position other => ?_⟩
    · by_cases within : copy.place ≤ position ∧ position < copy.place + copy.bytes.length
      · exact (mine position within.1 within.2).1
      · exact absurd (by rw [getElem?_memcpy copied, if_neg within]) changed
    · have outside : ¬ (copy.place ≤ position ∧ position < copy.place + copy.bytes.length) :=
        fun within => (mine position within.1 within.2).2 other
      rw [getElem?_memcpy copied, if_neg outside]

end Changes

section Copies

variable {rowLength readBuf rowOffset : Int} {values : List (List UInt8)}

theorem appendStream_eq (rowLength readBuf : Int) (values : List (List UInt8)) (row : Nat) :
    (appendStream rowLength readBuf values)[row]? =
      values[row]?.map fun tmp => some ⟨readBuf + row * rowLength, tmp⟩ := by
  induction values generalizing readBuf row with
  | nil => rfl
  | cons tmp values ih =>
    cases row with
    | zero =>
      rw [appendStream, List.getElem?_cons_zero, List.getElem?_cons_zero, Option.map_some, Int.natCast_zero,
        Int.zero_mul, Int.add_zero]
    | succ row =>
      have place : readBuf + rowLength + row * rowLength = readBuf + (row + 1 : Nat) * rowLength := by lia
      rw [appendStream, List.getElem?_cons_succ, List.getElem?_cons_succ, ih, place]

theorem appendStreamFixView_eq (rowLength readBuf rowOffset : Int) (values : List (List UInt8)) (row : Nat) :
    (appendStreamFixView rowLength readBuf rowOffset values)[row]? = values[row]?.map fun tmp =>
      if tmp.isEmpty then none else some ⟨readBuf + (rowOffset + row * rowLength), tmp⟩ := by
  induction values generalizing rowOffset row with
  | nil => rfl
  | cons tmp values ih =>
    cases row with
    | zero =>
      rw [appendStreamFixView, List.getElem?_cons_zero, List.getElem?_cons_zero, Option.map_some,
        Int.natCast_zero, Int.zero_mul, Int.add_zero]
    | succ row =>
      have place : rowOffset + rowLength + row * rowLength = rowOffset + (row + 1 : Nat) * rowLength := by lia
      rw [appendStreamFixView, List.getElem?_cons_succ, List.getElem?_cons_succ, ih, place]

/-- A copy goes to the start of its cell, with all bytes of the value, which is empty for no type of a view. -/
theorem cases_copies {array : ArrowArray} {copies : List (Option Copy)}
    (isCopies : reader.copies info array = some copies) (isCopy : copies[row]? = some (some copy)) :
    ∃ value, array.values[row]? = some value ∧ copy = ⟨row * reader.rowLength + info.rowOffset, value⟩ ∧
      (value = [] → array.typeId.bytes.isSome) := by
  have place : info.rowOffset + row * reader.rowLength = row * reader.rowLength + info.rowOffset := Int.add_comm ..
  unfold Reader.copies at isCopies
  split at isCopies <;> rename_i isType <;> cases isCopies
  all_goals
    first
    | rw [appendStream_eq] at isCopy
      obtain ⟨value, isValue, same⟩ := Option.map_eq_some_iff.mp isCopy
      refine ⟨value, isValue, ?_, fun _ => by rw [isType]; rfl⟩
      rw [← Option.some.inj same, place]
    | rw [appendStreamFixView_eq] at isCopy
      obtain ⟨value, isValue, same⟩ := Option.map_eq_some_iff.mp isCopy
      split at same
      · cases same
      · refine ⟨value, isValue, ?_, fun empty => absurd (List.isEmpty_iff.mpr empty) ‹_›⟩
        rw [← Option.some.inj same, Int.zero_add, place]
    | cases isCopy

theorem Copied.cases (copied : reader.Copied batch column row info copy) :
    ∃ array value, batch.columns[column]? = some array ∧ array.values[row]? = some value ∧
      copy = ⟨row * reader.rowLength + info.rowOffset, value⟩ ∧ (value = [] → array.typeId.bytes.isSome) := by
  obtain ⟨_, _, array, copies, isArray, isCopies, isCopy⟩ := copied
  obtain ⟨value, isValue, rest⟩ := cases_copies isCopies isCopy
  exact ⟨array, value, isArray, isValue, rest⟩

/-- A copy to the start of a cell only changes this where it is not longer. -/
theorem changes_iff_clear (nonempty : copy.bytes ≠ []) (place : copy.place = row * reader.rowLength + info.rowOffset) :
    (Changes reader.readBufLen copy (reader.InCell info row) fun position =>
      ∃ other line info, reader.cloumnInfos[other]? = some info ∧ (other, line) ≠ (column, row) ∧
        reader.InCell info line position) ↔ reader.Clear column row info copy := by
  have some := List.length_pos_iff.mpr nonempty
  rw [changes_iff]
  constructor
  · rintro ⟨inside, mine⟩
    refine ⟨?_, inside, fun other line info there differs position within => ?_⟩
    · have last := (mine (copy.place + copy.bytes.length - 1).toNat (by omega) (by omega)).1.2
      omega
    · by_contra meets
      exact (mine position (by omega) (by omega)).2 ⟨other, line, info, there, differs, within⟩
  · rintro ⟨fits, inside, alone⟩
    refine ⟨inside, fun position begins ends => ⟨⟨by omega, by omega⟩, ?_⟩⟩
    rintro ⟨other, line, info, there, differs, within⟩
    have apart := alone other line info there differs position within
    omega

end Copies

section Run

/-- Some column has this byte in some row. -/
def Celled (reader : Reader) (position : Nat) : Prop :=
  ∃ (column row : Nat) (info : CloumnInfo), reader.cloumnInfos[column]? = some info ∧ reader.InCell info row position

/-- A buffer of the same length, with the same bytes where no cell is. -/
structure Kept (reader : Reader) (before after : List UInt8) : Prop where
  length : after.length = before.length
  outside : ∀ position, ¬ reader.Celled position → after[position]? = before[position]?

theorem Kept.refl (buffer : List UInt8) : reader.Kept buffer buffer := ⟨rfl, fun _ _ => rfl⟩

theorem Kept.trans {before between after : List UInt8} (first : reader.Kept before between)
    (second : reader.Kept between after) : reader.Kept before after :=
  ⟨second.length.trans first.length, fun position outside =>
    (second.outside position outside).trans (first.outside position outside)⟩

theorem Comes.succ {array : ArrowArray} {copies : List (Option Copy)} (comes : reader.Comes batch column)
    (isInfo : reader.cloumnInfos[column]? = some info) (isArray : batch.columns[column]? = some array)
    (isCopies : reader.copies info array = some copies) : reader.Comes batch (column + 1) := by
  intro earlier before
  rcases Nat.lt_succ_iff_lt_or_eq.mp before with front | rfl
  · exact comes earlier front
  · exact ⟨info, array, isInfo, isArray, Option.isSome_of_eq_some isCopies⟩

variable {before : List UInt8} (framed : reader.Framed batch) (whole : before.length = reader.readBufLen)

include framed whole

theorem Framed.kept_memcpy (copied : reader.Copied batch column row info copy) :
    ∃ after, memcpy before copy = some after ∧ reader.Kept before after := by
  obtain ⟨after, same, mine, _⟩ := framed.frame column row info copy copied before whole
  refine ⟨after, same, length_memcpy same, fun position outside => ?_⟩
  by_contra changed
  exact outside ⟨column, row, info, copied.isInfo, mine position changed⟩

/-- One after the other, the copies of a column keep to cells. -/
theorem Framed.kept_copyAll {copies : List (Option Copy)}
    (copied : ∀ copy, some copy ∈ copies → ∃ row, reader.Copied batch column row info copy) :
    ∃ after, copyAll before copies = some after ∧ reader.Kept before after := by
  induction copies generalizing before with
  | nil => exact ⟨before, rfl, .refl before⟩
  | cons first copies ih =>
    have later := fun copy member => copied copy (List.mem_cons_of_mem _ member)
    cases first with
    | none => exact ih whole later
    | some copy =>
      obtain ⟨row, here⟩ := copied copy List.mem_cons_self
      obtain ⟨between, same, kept⟩ := framed.kept_memcpy whole here
      obtain ⟨after, rest, also⟩ := ih (kept.length.trans whole) later
      exact ⟨after, by rw [copyAll, same, Option.bind_some, rest], kept.trans also⟩

/-- The loop over the columns of a batch comes to its end, and changes nothing but cells. -/
theorem Framed.kept_readColumns {rest : List ArrowArray} (remain : batch.columns.drop column = rest)
    (comes : reader.Comes batch column) :
    ∃ ok after, reader.readColumns before column rest = some (ok, after) ∧ reader.Kept before after := by
  induction rest generalizing column before with
  | nil => exact ⟨true, before, rfl, .refl before⟩
  | cons array rest ih =>
    have isArray : batch.columns[column]? = some array := by
      rw [← List.head?_drop, remain, List.head?_cons]
    obtain ⟨inside, _⟩ := List.getElem?_eq_some_iff.mp isArray
    have isInfo := List.getElem?_eq_getElem (framed.known column inside comes)
    rw [readColumns, isInfo, Option.bind_eq_bind, Option.bind_some]
    cases isCopies : reader.copies _ array with
    | none => exact ⟨false, before, rfl, .refl before⟩
    | some copies =>
      obtain ⟨between, same, kept⟩ := framed.kept_copyAll whole fun copy member => by
        obtain ⟨row, isCopy⟩ := List.mem_iff_getElem?.mp member
        exact ⟨row, comes, isInfo, array, copies, isArray, isCopies, isCopy⟩
      have behind : batch.columns.drop (column + 1) = rest := by
        rw [← List.drop_drop, remain, List.drop_one, List.tail_cons]
      obtain ⟨ok, after, loop, also⟩ := ih (kept.length.trans whole) behind (comes.succ isInfo isArray isCopies)
      refine ⟨ok, after, ?_, kept.trans also⟩
      rw [← loop]
      exact congrArg (Option.bind · _) same

omit whole in
/-- `read` gives a buffer that is zero where no cell is. -/
theorem Framed.read_batch : ∃ ok after,
    reader.read (.batch batch) = some ({ reader with readBuf := some after }, ok,
      if ok then after.take (toSize (batch.numRows * reader.rowLength)) else []) ∧
    reader.Kept (List.replicate reader.readBufLen 0) after := by
  obtain ⟨buffer, there⟩ := Option.isSome_iff_exists.mp framed.memory
  obtain ⟨ok, after, loop, kept⟩ :=
    framed.kept_readColumns List.length_replicate List.drop_zero fun _ none => absurd none (Nat.not_lt_zero _)
  refine ⟨ok, after, ?_, kept⟩
  rw [Reader.read, there, Option.bind_eq_bind, Option.bind_some]
  simp only [loop]
  rfl

end Run

end Reader

end BTool.ParquetRow
