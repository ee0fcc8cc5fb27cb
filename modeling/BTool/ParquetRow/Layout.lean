import BTool.ParquetRow.Reader

/-! The layout that `open` makes of the fields of a file, behind the columns that are still there. -/

namespace BTool.ParquetRow

open BTool.Foundation

namespace Reader

variable {reader : Reader} {fields : List Field} {chunkSize : Int} {contents : Option (Nat → UInt8)}

/-- The column of a field, not placed yet. -/
def column (reader : Reader) (item : Field) : CloumnInfo :=
  ⟨item.name, reader.getColumnFixLength item, 0, item.type.id⟩

def layout (reader : Reader) (fields : List Field) : List CloumnInfo :=
  CloumnInfo.laid reader.rowLength (fields.map reader.column)

/-- The reader with the columns of some fields. -/
def withColumns (reader : Reader) (fields : List Field) : Reader :=
  { reader with
    cloumnInfos := reader.cloumnInfos ++ reader.layout fields
    rowLength := reader.rowLength + extent reader.getColumnFixLength fields }

/-- The number of bytes for which `open` asks. -/
def bufferLength (reader : Reader) (fields : List Field) (chunkSize : Int) : Int :=
  chunkSize * (reader.withColumns fields).rowLength

def opened (reader : Reader) (fields : List Field) (chunkSize : Int) (contents : Option (Nat → UInt8)) : Reader :=
  { reader.withColumns fields with
    readBufLen := toSize (reader.bufferLength fields chunkSize)
    readBuf := malloc contents (toSize (reader.bufferLength fields chunkSize)) }

/-- Neither the length of a row nor that of the buffer leaves an `int`. -/
def LengthsFit (reader : Reader) (fields : List Field) (chunkSize : Int) : Prop :=
  SumsFit reader.rowLength (fields.map reader.getColumnFixLength) ∧ FitsInt (reader.bufferLength fields chunkSize)

/-- One turn of the loop over the fields. -/
def withColumn (reader : Reader) (item : Field) : Reader :=
  { reader with
    cloumnInfos := reader.cloumnInfos ++ [{ reader.column item with rowOffset := reader.rowLength }]
    rowLength := reader.rowLength + reader.getColumnFixLength item }

theorem withColumns_nil : reader.withColumns [] = reader := by
  rw [withColumns, extent_nil, Int.add_zero, layout, List.map_nil, CloumnInfo.laid, List.append_nil]

theorem withColumns_cons (item : Field) :
    reader.withColumns (item :: fields) = (reader.withColumn item).withColumns fields := by
  unfold withColumns layout
  rw [extent_cons, List.map_cons, CloumnInfo.laid, ← Int.add_assoc, List.append_cons]
  rfl

theorem addColumns_cons {item : Field} {result : Bool × Reader} (length : reader.getColumnFixLength item ≠ 0) :
    reader.addColumns (item :: fields) = some result ↔
      FitsInt (reader.rowLength + reader.getColumnFixLength item) ∧
        (reader.withColumn item).addColumns fields = some result := by
  rw [addColumns, if_neg length, Option.bind_eq_bind, Option.bind_eq_some_iff]
  constructor
  · rintro ⟨_, checked, later⟩
    obtain ⟨fits, rfl⟩ := checkInt_eq_some.mp checked
    exact ⟨fits, later⟩
  · rintro ⟨fits, later⟩
    exact ⟨_, checkInt_eq fits, later⟩

section Accepted

variable (now : FitsInt reader.rowLength) (accepted : ∀ item ∈ fields, reader.getColumnFixLength item ≠ 0)

include now accepted

/-- Where every column has a length, only a sum can go wrong. -/
theorem addColumns_eq_some_iff {result : Bool × Reader} : reader.addColumns fields = some result ↔
    SumsFit reader.rowLength (fields.map reader.getColumnFixLength) ∧ (true, reader.withColumns fields) = result := by
  induction fields generalizing reader with
  | nil => rw [addColumns, withColumns_nil, Option.some.injEq, List.map_nil, SumsFit.nil_iff, and_iff_right now]
  | cons item fields ih =>
    obtain ⟨first, others⟩ := List.forall_mem_cons.mp accepted
    rw [addColumns_cons first, List.map_cons, SumsFit.cons_iff, and_iff_right now, withColumns_cons]
    constructor
    · rintro ⟨fits, later⟩
      exact (@ih (reader.withColumn item) fits others).mp later
    · intro later
      have fits := later.1.first
      exact ⟨fits, (@ih (reader.withColumn item) fits others).mpr later⟩

theorem openFile_eq_some_iff {next : Reader} :
    reader.openFile (some fields) true chunkSize contents = some (true, next) ↔
      reader.LengthsFit fields chunkSize ∧ reader.opened fields chunkSize contents = next := by
  unfold openFile
  simp only [Option.bind_eq_bind, Option.bind_eq_some_iff, addColumns_eq_some_iff now accepted]
  constructor
  · rintro ⟨_, ⟨sums, rfl⟩, product⟩
    obtain ⟨_, checked, same⟩ := Option.bind_eq_some_iff.mp product
    obtain ⟨fits, rfl⟩ := checkInt_eq_some.mp checked
    exact ⟨⟨sums, fits⟩, (Prod.mk.inj (Option.some.inj same)).2⟩
  · rintro ⟨⟨sums, fits⟩, rfl⟩
    exact ⟨_, ⟨sums, rfl⟩, Option.bind_eq_some_iff.mpr ⟨_, checkInt_eq fits, rfl⟩⟩

end Accepted

theorem toSize_lt_iff {value : Int} (fits : FitsInt value) : toSize value < 2 ^ 63 ↔ 0 ≤ value := by
  unfold toSize
  unfold FitsInt at fits
  omega

theorem isSome_readBuf_opened (fits : FitsInt (reader.bufferLength fields chunkSize)) :
    (reader.opened fields chunkSize contents).readBuf.isSome ↔
      0 ≤ reader.bufferLength fields chunkSize ∧ contents.isSome := by
  rw [← toSize_lt_iff fits, opened, malloc]
  split
  next small => rw [Option.isSome_map, and_iff_right small]
  next large => exact iff_of_false nofun fun both => large both.1

/-- The columns lie one behind the other, up to the end of a row. -/
structure Laid (reader : Reader) : Prop where
  nonneg : ∀ info ∈ reader.cloumnInfos, 0 ≤ info.fixLength
  placed : ∃ start, 0 ≤ start ∧ Placed CloumnInfo.fixLength CloumnInfo.rowOffset start reader.cloumnInfos ∧
    reader.rowLength = start + CloumnInfo.width reader.cloumnInfos

/-- A reader with no columns starts behind the row that it had. -/
theorem laid_of_nil (closed : reader.cloumnInfos = []) (nonneg : 0 ≤ reader.rowLength) : reader.Laid where
  nonneg := by simp [closed]
  placed := by
    refine ⟨reader.rowLength, nonneg, ?_, ?_⟩ <;> rw [closed]
    · exact Placed.nil
    · exact (Int.add_zero _).symm

theorem mem_layout {info : CloumnInfo} (member : info ∈ reader.layout fields) :
    ∃ item ∈ fields, info.fixLength = reader.getColumnFixLength item := by
  have length : info.fixLength ∈ (fields.map reader.column).map CloumnInfo.fixLength := by
    rw [← CloumnInfo.lengths_laid reader.rowLength]
    exact List.mem_map_of_mem member
  rw [List.map_map] at length
  obtain ⟨item, there, same⟩ := List.mem_map.mp length
  exact ⟨item, there, same.symm⟩

theorem getElem?_layout (column : Nat) : (reader.layout fields)[column]?.map CloumnInfo.fixLength =
    fields[column]?.map reader.getColumnFixLength := by
  rw [← List.getElem?_map, layout, CloumnInfo.lengths_laid, List.getElem?_map, List.getElem?_map, Option.map_map]
  rfl

theorem length_layout : (reader.layout fields).length = fields.length := by
  have lengths := congrArg List.length (CloumnInfo.lengths_laid reader.rowLength (fields.map reader.column))
  rwa [List.length_map, List.length_map, List.length_map] at lengths

theorem width_layout : CloumnInfo.width (reader.layout fields) = extent reader.getColumnFixLength fields := by
  rw [CloumnInfo.width, extent, layout, CloumnInfo.lengths_laid, List.map_map]
  rfl

/-- Columns that are no shorter than nothing keep the others in their places. -/
theorem Laid.opened (laid : reader.Laid) (lengths : ∀ item ∈ fields, 0 ≤ reader.getColumnFixLength item)
    (chunkSize : Int) (contents : Option (Nat → UInt8)) : (reader.opened fields chunkSize contents).Laid where
  nonneg := by
    intro info member
    rcases List.mem_append.mp member with old | new
    · exact laid.nonneg info old
    · obtain ⟨item, there, same⟩ := mem_layout new
      rw [same]
      exact lengths item there
  placed := by
    obtain ⟨start, begins, placed, stop⟩ := laid.placed
    refine ⟨start, begins, Placed.append_iff.mpr ⟨placed, ?_⟩, ?_⟩
    · rw [← CloumnInfo.width, ← stop]
      exact CloumnInfo.placed_laid _ _
    · have front : reader.rowLength + extent reader.getColumnFixLength fields =
          start + (CloumnInfo.width reader.cloumnInfos + CloumnInfo.width (reader.layout fields)) := by
        rw [stop, width_layout, Int.add_assoc]
      rwa [← CloumnInfo.width_append] at front

theorem Laid.rowLength_nonneg (laid : reader.Laid) : 0 ≤ reader.rowLength := by
  obtain ⟨start, begins, _, stop⟩ := laid.placed
  have width := extent_nonneg laid.nonneg
  rw [CloumnInfo.width] at stop
  omega

end Reader

end BTool.ParquetRow
