import BTool.ParquetRow.Layout
import BTool.ParquetRow.RowAssembly

/-! The rows that `read` puts together in the layout of `open`: a string that is longer than its column is
copied over what lies behind it. -/

namespace BTool.ParquetRow

open BTool.Foundation

/-- The types that the loop of `read` knows. -/
def ArrowType.isRead : ArrowType → Bool
  | .bool | .int8 | .uint8 | .int16 | .uint16 | .int32 | .uint32 | .int64 | .uint64 | .halfFloat | .float | .double
  | .string | .largeString | .binary | .largeBinary | .fixedSizeBinary | .na => true
  | _ => false

/-- The types with values of any length. -/
def ArrowType.isView : ArrowType → Bool
  | .string | .largeString | .binary | .largeBinary => true
  | _ => false

/-- Numbers have the width of their values; that of booleans is of bits. -/
def DataType.Documented (type : DataType) : Prop :=
  type.id ≠ .bool → ∀ size ∈ type.id.bytes, type.byteWidth = size

/-- An array of a field: it has the type of this, and a value of this type for every row. -/
structure Field.Has (item : Field) (numRows : Nat) (array : ArrowArray) : Prop where
  typeId : array.typeId = item.type.id
  rows : array.values.length = numRows
  sizes : ∀ value ∈ array.values, ∀ size ∈ item.type.id.bytes, value.length = size
  fixedSize : item.type.id = .fixedSizeBinary → ∀ value ∈ array.values, (value.length : Int) = item.type.byteWidth

/-- A batch of a file with some fields. -/
structure RecordBatch.Conforms (batch : RecordBatch) (fields : List Field) : Prop where
  columns : batch.columns.length = fields.length
  arrays : ∀ (column : Nat) (item : Field) (array : ArrowArray), fields[column]? = some item →
    batch.columns[column]? = some array → item.Has batch.numRows array

theorem RecordBatch.Conforms.get {batch : RecordBatch} {fields : List Field} (conforms : batch.Conforms fields)
    {column : Nat} {array : ArrowArray} (isArray : batch.columns[column]? = some array) :
    ∃ item, fields[column]? = some item ∧ item.Has batch.numRows array := by
  obtain ⟨inside, _⟩ := List.getElem?_eq_some_iff.mp isArray
  rw [conforms.columns] at inside
  have there : fields[column]? = some fields[column] := List.getElem?_eq_getElem inside
  exact ⟨_, there, conforms.arrays column _ array there isArray⟩

namespace Reader

variable {reader : Reader} {fields : List Field} {batch : RecordBatch} {chunkSize : Int}
  {contents : Option (Nat → UInt8)} {column row : Nat} {info : CloumnInfo} {copy : Copy}

/-- Two rows have no bytes in common. -/
theorem row_eq {rowLength row line first second : Int} (within : 0 ≤ first ∧ first < rowLength)
    (also : 0 ≤ second ∧ second < rowLength) (same : row * rowLength + first = line * rowLength + second) :
    row = line := by
  have positive : rowLength ≠ 0 := by omega
  have left := Int.add_mul_ediv_right first row positive
  have right := Int.add_mul_ediv_right second line positive
  rw [Int.ediv_eq_zero_of_lt within.1 within.2, Int.zero_add] at left
  rw [Int.ediv_eq_zero_of_lt also.1 also.2, Int.zero_add] at right
  rw [← left, ← right, Int.add_comm first, Int.add_comm second, same]

/-- A column that is there lies within a row. -/
theorem Laid.within (laid : reader.Laid) (isInfo : reader.cloumnInfos[column]? = some info) :
    0 ≤ info.rowOffset ∧ info.rowOffset + info.fixLength ≤ reader.rowLength := by
  obtain ⟨start, begins, placed, stop⟩ := laid.placed
  have within := placed.within laid.nonneg isInfo
  rw [stop]
  exact ⟨by omega, within.2⟩

/-- Where the columns lie one behind the other, no two cells have a byte in common. -/
theorem Laid.cells_apart (laid : reader.Laid) (isInfo : reader.cloumnInfos[column]? = some info)
    {other line position : Nat} {also : CloumnInfo} (isAlso : reader.cloumnInfos[other]? = some also)
    (first : reader.InCell info row position) (second : reader.InCell also line position) :
    (other, line) = (column, row) := by
  have own := laid.within isInfo
  have its := laid.within isAlso
  obtain ⟨begins, ends⟩ := first
  obtain ⟨starts, stops⟩ := second
  have inRow : 0 ≤ position - row * reader.rowLength ∧ position - row * reader.rowLength < reader.rowLength :=
    ⟨by omega, by omega⟩
  have inLine : 0 ≤ position - line * reader.rowLength ∧ position - line * reader.rowLength < reader.rowLength :=
    ⟨by omega, by omega⟩
  have rows : (row : Int) = line := row_eq inRow inLine (by omega)
  obtain rfl := Int.ofNat.inj rows
  have inColumn : info.rowOffset ≤ position - row * reader.rowLength ∧
      position - row * reader.rowLength < info.rowOffset + info.fixLength := ⟨by omega, by omega⟩
  have inOther : also.rowOffset ≤ position - row * reader.rowLength ∧
      position - row * reader.rowLength < also.rowOffset + also.fixLength := ⟨by omega, by omega⟩
  obtain ⟨_, _, placed, _⟩ := laid.placed
  rw [placed.eq_of_mem laid.nonneg isInfo isAlso inColumn inOther]

/-- Where the columns lie one behind the other, it is the length of its column that a value has to keep to. -/
theorem Laid.clear_iff (laid : reader.Laid) (isInfo : reader.cloumnInfos[column]? = some info)
    (buffer : (reader.readBufLen : Int) = chunkSize * reader.rowLength) (inside : row < chunkSize)
    (place : copy.place = row * reader.rowLength + info.rowOffset) :
    reader.Clear column row info copy ↔ copy.bytes.length ≤ info.fixLength := by
  refine ⟨Clear.fits, fun fits => ⟨fits, ?_, ?_⟩⟩
  · have own := laid.within isInfo
    have before : 0 ≤ row * reader.rowLength := Int.mul_nonneg (Int.natCast_nonneg _) laid.rowLength_nonneg
    have rows : (row + 1) * reader.rowLength ≤ chunkSize * reader.rowLength :=
      Int.mul_le_mul_of_nonneg_right inside laid.rowLength_nonneg
    rw [Int.add_mul, Int.one_mul] at rows
    omega
  · intro other line also isAlso differs position second
    by_contra meets
    have first : reader.InCell info row position := ⟨by omega, by omega⟩
    exact differs (laid.cells_apart isInfo isAlso first second)

/-- A file is opened, and the values of a batch of it only change their own cells. -/
def Assembles (reader : Reader) (fields : List Field) (chunkSize : Int) (contents : Option (Nat → UInt8))
    (batch : RecordBatch) : Prop :=
  ∃ opened, reader.openFile (some fields) true chunkSize contents = some (true, opened) ∧ opened.Framed batch

section Conforms

variable (conforms : batch.Conforms fields)

include conforms

theorem Copied.spec (copied : reader.Copied batch column row info copy) :
    ∃ array item, batch.columns[column]? = some array ∧ fields[column]? = some item ∧
      item.Has batch.numRows array ∧ array.values[row]? = some copy.bytes ∧
      copy.place = row * reader.rowLength + info.rowOffset ∧ copy.bytes ≠ [] := by
  obtain ⟨array, value, isArray, isValue, rfl, empty⟩ := copied.cases
  obtain ⟨item, isItem, has⟩ := conforms.get isArray
  refine ⟨array, item, isArray, isItem, has, isValue, rfl, ?_⟩
  rintro rfl
  obtain ⟨size, sized⟩ := Option.isSome_iff_exists.mp (empty rfl)
  rw [has.typeId] at sized
  have none : 0 = size := has.sizes [] (List.mem_of_getElem? isValue) size sized
  -- there is no type without bytes
  subst none
  unfold ArrowType.bytes at sized
  split at sized <;> cases sized

theorem framed_iff (enough : fields.length ≤ reader.cloumnInfos.length) : reader.Framed batch ↔
    reader.readBuf.isSome ∧ ∀ column row info copy, reader.Copied batch column row info copy →
      reader.Clear column row info copy := by
  constructor
  · rintro ⟨memory, _, frame⟩
    refine ⟨memory, fun column row info copy copied => ?_⟩
    obtain ⟨_, _, _, _, _, _, place, nonempty⟩ := copied.spec conforms
    exact (changes_iff_clear nonempty place).mp (frame column row info copy copied)
  · rintro ⟨memory, clear⟩
    refine ⟨memory, fun column inside _ => ?_, fun column row info copy copied => ?_⟩
    · rw [conforms.columns] at inside
      omega
    · obtain ⟨_, _, _, _, _, _, place, nonempty⟩ := copied.spec conforms
      exact (changes_iff_clear nonempty place).mpr (clear column row info copy copied)

end Conforms

section Opened

variable (now : FitsInt reader.rowLength) (accepted : ∀ item ∈ fields, reader.getColumnFixLength item ≠ 0)
  (conforms : batch.Conforms fields)

include now accepted conforms

theorem assembles_iff : reader.Assembles fields chunkSize contents batch ↔
    reader.LengthsFit fields chunkSize ∧ 0 ≤ reader.bufferLength fields chunkSize ∧ contents.isSome ∧
      ∀ column row info copy, (reader.opened fields chunkSize contents).Copied batch column row info copy →
        (reader.opened fields chunkSize contents).Clear column row info copy := by
  have enough : fields.length ≤ (reader.opened fields chunkSize contents).cloumnInfos.length := by
    rw [opened, withColumns, List.length_append, length_layout]
    exact Nat.le_add_left _ _
  unfold Assembles
  simp only [openFile_eq_some_iff now accepted]
  constructor
  · rintro ⟨_, ⟨fit, rfl⟩, framed⟩
    obtain ⟨memory, clear⟩ := (framed_iff conforms enough).mp framed
    obtain ⟨product, given⟩ := (isSome_readBuf_opened fit.2).mp memory
    exact ⟨fit, product, given, clear⟩
  · rintro ⟨fit, product, given, clear⟩
    have memory := (isSome_readBuf_opened fit.2).mpr ⟨product, given⟩
    exact ⟨_, ⟨fit, rfl⟩, (framed_iff conforms enough).mpr ⟨memory, clear⟩⟩

/-- Where the columns lie one behind the other, every value has to be no longer than its column. -/
theorem assembles_iff_of_laid (laid : reader.Laid) (positive : ∀ item ∈ fields, 0 ≤ reader.getColumnFixLength item)
    (rows : batch.numRows ≤ chunkSize) : reader.Assembles fields chunkSize contents batch ↔
      reader.LengthsFit fields chunkSize ∧ contents.isSome ∧
        ∀ column row info copy, (reader.opened fields chunkSize contents).Copied batch column row info copy →
          copy.bytes.length ≤ info.fixLength := by
  have after := laid.opened positive chunkSize contents
  have product : 0 ≤ reader.bufferLength fields chunkSize :=
    Int.mul_nonneg (Int.le_trans (Int.natCast_nonneg _) rows) after.rowLength_nonneg
  rw [assembles_iff now accepted conforms, and_iff_right product]
  refine and_congr_right fun fit => and_congr_right fun _ => ?_
  have buffer : ((reader.opened fields chunkSize contents).readBufLen : Int) =
      chunkSize * (reader.opened fields chunkSize contents).rowLength := (toSize_eq_iff fit.2).mpr product
  refine forall_congr' fun column => forall_congr' fun row => forall_congr' fun info =>
    forall_congr' fun copy => forall_congr' fun copied => ?_
  obtain ⟨array, item, _, _, has, isValue, place, _⟩ := copied.spec conforms
  obtain ⟨inside, _⟩ := List.getElem?_eq_some_iff.mp isValue
  rw [has.rows] at inside
  exact after.clear_iff copied.isInfo buffer (by omega) place

end Opened

/-- Strings and binaries, in the columns that the loop comes to, are no longer than their columns. -/
def ViewsFit (reader : Reader) (fields : List Field) (batch : RecordBatch) : Prop :=
  ∀ column item array, (∀ earlier ∈ fields.take column, earlier.type.id.isRead) → fields[column]? = some item →
    batch.columns[column]? = some array → item.type.id.isView →
    ∀ value ∈ array.values, value.length ≤ reader.getColumnFixLength item

theorem isSome_copies (info : CloumnInfo) (array : ArrowArray) :
    (reader.copies info array).isSome = array.typeId.isRead := by
  obtain ⟨typeId, values⟩ := array
  cases typeId <;> rfl

theorem copies_of_isView {array : ArrowArray} (isView : array.typeId.isView) (info : CloumnInfo) :
    reader.copies info array = some (appendStreamFixView reader.rowLength info.rowOffset 0 array.values) := by
  obtain ⟨typeId, values⟩ := array
  cases typeId <;> first | rfl | cases isView

theorem byteWidth_le {item : Field} (positive : 0 < reader.getColumnFixLength item) :
    item.type.byteWidth ≤ reader.getColumnFixLength item := by
  unfold getColumnFixLength at *
  split at positive
  next wide => rw [if_pos wide]
  next narrow =>
    rw [if_neg narrow]
    omega

/-- A value that is no view has the width of its type. -/
theorem length_le_of_not_isView {item : Field} {array : ArrowArray} {value : List UInt8}
    (has : item.Has batch.numRows array) (documented : item.type.Documented)
    (positive : 0 < reader.getColumnFixLength item) (isRead : item.type.id.isRead) (noView : item.type.id.isView = false)
    (some : item.type.id ≠ .na) (member : value ∈ array.values) :
    value.length ≤ reader.getColumnFixLength item := by
  have width := byteWidth_le positive
  by_cases fixedSize : item.type.id = .fixedSizeBinary
  · rwa [has.fixedSize fixedSize value member]
  · by_cases bool : item.type.id = .bool
    · have size := has.sizes value member 1 (by rw [bool]; rfl)
      omega
    · obtain ⟨size, sized⟩ : ∃ size, item.type.id.bytes = .some size := by
        revert isRead noView some fixedSize
        cases item.type.id <;> simp [ArrowType.bytes, ArrowType.isRead, ArrowType.isView]
      have same := documented bool size sized
      rwa [has.sizes value member size sized, ← same]

section Closed

variable (closed : reader.cloumnInfos = [])

include closed

theorem fixLength_opened {item : Field} (isItem : fields[column]? = some item)
    (isInfo : (reader.opened fields chunkSize contents).cloumnInfos[column]? = some info) :
    info.fixLength = reader.getColumnFixLength item := by
  have lengths := @getElem?_layout reader fields column
  rw [opened, withColumns, closed, List.nil_append] at isInfo
  rw [isInfo, isItem] at lengths
  exact Option.some.inj lengths

theorem exists_info {item : Field} (isItem : fields[column]? = some item) :
    ∃ info, (reader.opened fields chunkSize contents).cloumnInfos[column]? = some info := by
  have lengths := @getElem?_layout reader fields column
  rw [isItem] at lengths
  obtain ⟨info, isInfo, _⟩ := Option.map_eq_some_iff.mp lengths
  rw [opened, withColumns, closed, List.nil_append]
  exact ⟨info, isInfo⟩

variable (conforms : batch.Conforms fields)

include conforms

/-- The loop comes to a column where it knows the types in front of it. -/
theorem comes_opened_iff (inside : column ≤ fields.length) :
    (reader.opened fields chunkSize contents).Comes batch column ↔
      ∀ earlier ∈ fields.take column, earlier.type.id.isRead := by
  constructor
  · intro comes earlier member
    obtain ⟨index, isEarlier⟩ := List.mem_iff_getElem?.mp member
    rw [List.getElem?_take, Option.ite_none_right_eq_some] at isEarlier
    obtain ⟨before, isEarlier⟩ := isEarlier
    obtain ⟨info, array, _, isArray, known⟩ := comes index before
    rw [isSome_copies, (conforms.arrays index earlier array isEarlier isArray).typeId] at known
    exact known
  · intro read earlier before
    have isField : fields[earlier]? = some fields[earlier] := List.getElem?_eq_getElem (by omega)
    have there : earlier < batch.columns.length := by
      rw [conforms.columns]
      omega
    have isArray : batch.columns[earlier]? = some batch.columns[earlier] := List.getElem?_eq_getElem there
    obtain ⟨info, isInfo⟩ := @exists_info reader fields chunkSize contents earlier closed _ isField
    refine ⟨info, _, isInfo, isArray, ?_⟩
    rw [isSome_copies, (conforms.arrays earlier _ _ isField isArray).typeId]
    exact read _ (List.mem_of_getElem? ((List.getElem?_take_of_lt before).trans isField))

/-- Only strings and binaries can be longer than their columns. -/
theorem lengths_opened_iff (documented : ∀ item ∈ fields, item.type.Documented)
    (positive : ∀ item ∈ fields, 0 < reader.getColumnFixLength item) :
    (∀ column row info copy, (reader.opened fields chunkSize contents).Copied batch column row info copy →
        copy.bytes.length ≤ info.fixLength) ↔ reader.ViewsFit fields batch := by
  constructor
  · intro fit column item array read isItem isArray isView value member
    have length := positive item (List.mem_of_getElem? isItem)
    have has := conforms.arrays column item array isItem isArray
    obtain ⟨inside, _⟩ := List.getElem?_eq_some_iff.mp isItem
    obtain ⟨info, isInfo⟩ := @exists_info reader fields chunkSize contents column closed _ isItem
    obtain ⟨row, isValue⟩ := List.mem_iff_getElem?.mp member
    by_cases empty : value.isEmpty
    · rw [List.isEmpty_iff.mp empty]
      exact Int.le_of_lt length
    · have comes : (reader.opened fields chunkSize contents).Comes batch column :=
        (comes_opened_iff closed conforms (Nat.le_of_lt inside)).mpr read
      have isCopies := (reader.opened fields chunkSize contents).copies_of_isView
        (by rw [has.typeId]; exact isView : array.typeId.isView) info
      have isCopy := appendStreamFixView_eq (reader.opened fields chunkSize contents).rowLength info.rowOffset 0
        array.values row
      rw [isValue, Option.map_some, if_neg empty] at isCopy
      rw [← fixLength_opened closed isItem isInfo]
      exact fit column row info _ ⟨comes, isInfo, array, _, isArray, isCopies, isCopy⟩
  · intro fit column row info copy copied
    obtain ⟨array, item, isArray, isItem, has, isValue, _⟩ := copied.spec conforms
    obtain ⟨inside, _⟩ := List.getElem?_eq_some_iff.mp isItem
    have member := List.mem_of_getElem? isItem
    have read := (comes_opened_iff closed conforms (Nat.le_of_lt inside)).mp copied.comes
    rw [fixLength_opened closed isItem copied.isInfo]
    cases isView : item.type.id.isView with
    | true => exact fit column item array read isItem isArray isView _ (List.mem_of_getElem? isValue)
    | false =>
      obtain ⟨_, copies, same, isCopies, isCopy⟩ := copied.isCopy
      obtain rfl := Option.some.inj (isArray.symm.trans same)
      have known := @isSome_copies (reader.opened fields chunkSize contents) info array
      rw [isCopies, has.typeId] at known
      refine length_le_of_not_isView has (documented item member) (positive item member) known.symm isView ?_
        (List.mem_of_getElem? isValue)
      -- nothing is copied of nulls
      intro null
      unfold Reader.copies at isCopies
      rw [has.typeId, null] at isCopies
      cases isCopies
      cases isCopy

end Closed

/-- The values of a batch only change their own cells where the lengths stay within an `int`, there is memory
for the rows, and no value goes beyond its column. In a new layout, only strings and binaries can. -/
theorem copies_framed_iff (now : FitsInt reader.rowLength)
    (accepted : ∀ item ∈ fields, reader.getColumnFixLength item ≠ 0) (conforms : batch.Conforms fields)
    (rows : batch.numRows ≤ chunkSize) :
    (reader.Assembles fields chunkSize contents batch ↔
      reader.LengthsFit fields chunkSize ∧ 0 ≤ reader.bufferLength fields chunkSize ∧ contents.isSome ∧
        ∀ column row info copy, (reader.opened fields chunkSize contents).Copied batch column row info copy →
          (reader.opened fields chunkSize contents).Clear column row info copy) ∧
    (reader.Laid → (∀ item ∈ fields, 0 ≤ reader.getColumnFixLength item) →
      (reader.Assembles fields chunkSize contents batch ↔
        reader.LengthsFit fields chunkSize ∧ contents.isSome ∧
          ∀ column row info copy, (reader.opened fields chunkSize contents).Copied batch column row info copy →
            copy.bytes.length ≤ info.fixLength)) ∧
    (reader.cloumnInfos = [] → 0 ≤ reader.rowLength → (∀ item ∈ fields, item.type.Documented) →
      (∀ item ∈ fields, 0 < reader.getColumnFixLength item) →
      (reader.Assembles fields chunkSize contents batch ↔
        reader.LengthsFit fields chunkSize ∧ contents.isSome ∧ reader.ViewsFit fields batch)) := by
  refine ⟨assembles_iff now accepted conforms, fun laid nonneg => ?_, fun closed nonneg documented positive => ?_⟩
  · exact assembles_iff_of_laid now accepted conforms laid nonneg rows
  · have lengths := fun item member => Int.le_of_lt (positive item member)
    rw [assembles_iff_of_laid now accepted conforms (laid_of_nil closed nonneg) lengths rows,
      lengths_opened_iff closed conforms documented positive]

section Names

/-- A file of numbers and names. -/
def names : List Field := [⟨"id", ⟨.int64, "int64", 8⟩⟩, ⟨"name", ⟨.string, "utf8", -1⟩⟩]

def twoNames (name : List UInt8) : RecordBatch :=
  ⟨2, [⟨.int64, [List.replicate 8 1, List.replicate 8 2]⟩, ⟨.string, [name, [66]]⟩]⟩

theorem conforms_twoNames (name : List UInt8) : (twoNames name).Conforms names where
  columns := rfl
  arrays := by
    intro column item array isItem isArray
    match column with
    | 0 =>
      cases isItem
      cases isArray
      refine ⟨rfl, rfl, fun value member size sized => ?_, nofun⟩
      cases sized
      rcases List.mem_pair.mp member with rfl | rfl <;> rfl
    | 1 =>
      cases isItem
      cases isArray
      exact ⟨rfl, rfl, nofun, nofun⟩
    | _ + 2 => cases isItem

theorem positive_names : ∀ item ∈ names, 0 < construct.getColumnFixLength item := by decide

theorem documented_names : ∀ item ∈ names, item.type.Documented := by
  intro item member
  rcases List.mem_pair.mp member with rfl | rfl
  · intro _ size sized
    cases sized
    rfl
  · nofun

theorem lengthsFit_names : construct.LengthsFit names 2 := by
  unfold LengthsFit SumsFit FitsInt
  decide

theorem accepted_names : ∀ item ∈ names, construct.getColumnFixLength item ≠ 0 :=
  fun item member => Int.ne_of_gt (positive_names item member)

theorem copies_framed_iff_names : construct.Assembles names 2 (some fun _ => 7) (twoNames [65]) := by
  refine ((copies_framed_iff (by decide) accepted_names (conforms_twoNames [65]) (Int.le_refl 2)).2.2 rfl
    (Int.le_refl 0) documented_names positive_names).mpr ⟨lengthsFit_names, rfl, ?_⟩
  intro column item array _ isItem isArray isView value member
  match column with
  | 0 =>
    cases isItem
    cases isView
  | 1 =>
    cases isItem
    cases isArray
    rcases List.mem_pair.mp member with rfl | rfl <;> decide
  | _ + 2 => cases isItem

/-- The end of a name of 41 bytes is written over the number of the row behind. -/
theorem not_copies_framed : ¬ ∀ (fields : List Field) (chunkSize : Int) (contents : Option (Nat → UInt8))
    (batch : RecordBatch), batch.Conforms fields →
    (∀ item ∈ fields, item.type.Documented ∧ 0 < construct.getColumnFixLength item) →
    construct.LengthsFit fields chunkSize → contents.isSome → batch.numRows ≤ chunkSize →
    construct.Assembles fields chunkSize contents batch := by
  intro always
  have conforms := conforms_twoNames (List.replicate 41 65)
  have proper (item : Field) (member : item ∈ names) :
      item.type.Documented ∧ 0 < construct.getColumnFixLength item :=
    ⟨documented_names item member, positive_names item member⟩
  have assembles := always names 2 (some fun _ => 7) _ conforms proper lengthsFit_names rfl (Int.le_refl 2)
  rw [assembles_iff_of_laid (by decide) accepted_names conforms (laid_of_nil rfl (Int.le_refl 0)) (by decide)
    (Int.le_refl 2), lengths_opened_iff rfl conforms documented_names positive_names] at assembles
  have short := assembles.2.2 1 _ _ (by decide) rfl rfl rfl (List.replicate 41 65) (List.mem_cons_self ..)
  exact absurd short (by decide)

end Names

end Reader

end BTool.ParquetRow
