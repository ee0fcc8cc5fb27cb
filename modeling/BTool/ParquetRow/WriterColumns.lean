import BTool.Foundation.MemorySizes
import BTool.Foundation.Transition
import BTool.ParquetRow.CloumnInfo

/-! `set_column` of `ParquetRow::Writer`, in any order of the columns.

The vector of columns is resized where the index is not below its capacity, and not where it is not below
its size. -/

namespace BTool.ParquetRow

open BTool.Foundation BTool.Foundation.Path

structure Writer where
  cloumnInfos : List CloumnInfo
  capacity : Nat
  rowLength : Nat

/-- The arguments of `set_column`, and the capacity that a reallocation gives, if it does not throw. -/
structure SetColumn where
  index : Nat
  title : String
  fixLength : Int
  dataType : ArrowType
  room : Option Nat

inductive Outcome where
  | undefined
  | thrown
  | returned (writer : Writer)

namespace Writer

/-- `resize`, or `none` where it throws. -/
def resize (writer : Writer) (count : Nat) (room : Option Nat) : Option Writer :=
  if count ≤ writer.cloumnInfos.length then
    some { writer with cloumnInfos := writer.cloumnInfos.take count }
  else
    room.map fun capacity =>
      { writer with
        cloumnInfos := writer.cloumnInfos ++ List.replicate (count - writer.cloumnInfos.length) .blank
        capacity }

/-- Where a column begins, according to the one in front of it. -/
def curOff (infos : List CloumnInfo) (index : Nat) : Option Int :=
  if 0 < index then infos[index - 1]?.bind fun preItem => checkInt (preItem.rowOffset + preItem.fixLength)
  else some 0

/-- The loop over the columns from the index on; also where the last one ends. -/
def placeFrom (curOff : Int) : List CloumnInfo → Option (List CloumnInfo × Int)
  | [] => some ([], curOff)
  | curItem :: rest => do
    let next ← checkInt (curOff + curItem.fixLength)
    let (placed, rowLength) ← placeFrom next rest
    return ({ curItem with rowOffset := curOff } :: placed, rowLength)

/-- The offsets behind the column that was set. -/
def place (writer : Writer) (index : Nat) : Option Writer := do
  let curOff ← curOff writer.cloumnInfos index
  let (placed, rowLength) ← placeFrom curOff (writer.cloumnInfos.drop index)
  return { writer with
    cloumnInfos := writer.cloumnInfos.take index ++ placed, rowLength := toSize rowLength }

/-- An element that is not there is written to, or a sum leaves an `int`, where the outcome is undefined. -/
def setColumn (writer : Writer) (call : SetColumn) : Outcome :=
  let resized :=
    if writer.capacity ≤ call.index then writer.resize (addSize call.index 1) call.room else some writer
  match resized with
  | none => .thrown
  | some writer =>
    if call.index < writer.cloumnInfos.length then
      let item : CloumnInfo := ⟨call.title, call.fixLength, 0, call.dataType⟩
      let placed := { writer with cloumnInfos := writer.cloumnInfos.set call.index item }.place call.index
      placed.elim .undefined .returned
    else .undefined

end Writer

/-- A writer, unless its behaviour is undefined by now, and the indexes that were set. -/
structure Columns where
  writer : Option Writer
  indexes : List Nat

/-- An index is a size and a length an `int`, and a reallocation makes room enough. -/
def SetColumn.Possible (call : SetColumn) : Prop :=
  call.index < 2 ^ 64 ∧ FitsInt call.fixLength ∧ ∀ capacity ∈ call.room, call.index < capacity ∧ capacity < 2 ^ 64

instance (call : SetColumn) : Decidable call.Possible := inferInstanceAs (Decidable (_ ∧ _ ∧ _))

namespace Columns

def start (capacity : Nat) : Columns := ⟨some ⟨[], capacity, 0⟩, []⟩

def next (columns : Columns) (call : SetColumn) : Option Columns :=
  if call.Possible then
    columns.writer.map fun writer =>
      match writer.setColumn call with
      | .undefined => { columns with writer := none }
      | .thrown => columns
      | .returned writer => ⟨some writer, call.index :: columns.indexes⟩
  else none

/-- Every index that was set is within the size, every offset is the sum of the lengths before it, and the
length of a row is the sum of all of them. -/
def Holds (columns : Columns) : Prop :=
  ∃ writer, columns.writer = some writer ∧ (∀ index ∈ columns.indexes, index < writer.cloumnInfos.length) ∧
    CloumnInfo.InRow writer.cloumnInfos ∧ writer.rowLength = CloumnInfo.width writer.cloumnInfos

end Columns

section Place

variable {infos : List CloumnInfo} {curOff : Int} {index : Nat}

/-- The loop comes to its end where no sum leaves an `int`. -/
theorem placeFrom_eq (fits : SumsFit curOff (infos.map CloumnInfo.fixLength)) :
    Writer.placeFrom curOff infos = some (CloumnInfo.laid curOff infos, curOff + CloumnInfo.width infos) := by
  induction infos generalizing curOff with
  | nil =>
    rw [CloumnInfo.width, extent_nil, Int.add_zero]
    rfl
  | cons item rest ih =>
    obtain ⟨_, later⟩ := SumsFit.cons_iff.mp fits
    rw [Writer.placeFrom, checkInt_eq later.first, Option.bind_eq_bind, Option.bind_some, ih later,
      CloumnInfo.width, CloumnInfo.width, extent_cons, Int.add_assoc]
    rfl

theorem sumsFit_of_placeFrom {result : List CloumnInfo × Int} (now : FitsInt curOff)
    (placed : Writer.placeFrom curOff infos = some result) :
    SumsFit curOff (infos.map CloumnInfo.fixLength) := by
  induction infos generalizing curOff result with
  | nil => exact SumsFit.nil_iff.mpr now
  | cons item rest ih =>
    rw [Writer.placeFrom] at placed
    obtain ⟨next, checked, placed⟩ := Option.bind_eq_some_iff.mp placed
    obtain ⟨later, rfl⟩ := checkInt_eq_some.mp checked
    obtain ⟨_, rest, _⟩ := Option.bind_eq_some_iff.mp placed
    exact SumsFit.cons_iff.mpr ⟨now, ih later rest⟩

/-- A column begins where the ones in front of it end. -/
theorem curOff_eq (inside : index < infos.length) (inRow : CloumnInfo.InRow (infos.take index))
    (fits : SumsFit 0 ((infos.take index).map CloumnInfo.fixLength)) :
    Writer.curOff infos index = some (CloumnInfo.width (infos.take index)) := by
  cases index with
  | zero => rfl
  | succ index =>
    have there : infos[index]? = some infos[index] := List.getElem?_eq_getElem (by omega)
    have last : (infos.take (index + 1)).getLast? = some infos[index] := by
      rw [List.getLast?_take, if_neg (Nat.succ_ne_zero index), Nat.add_sub_cancel, there]
      rfl
    have stop := inRow.stop_eq last
    have whole := fits.total
    rw [Int.zero_add] at stop whole
    rw [Writer.curOff, if_pos (Nat.succ_pos index), Nat.add_sub_cancel, there, Option.bind_some, stop]
    exact checkInt_eq whole

variable {writer after : Writer}

/-- Placed from the index on, all columns are in their places, if those in front of it are. -/
theorem place_eq (inside : index < writer.cloumnInfos.length)
    (inRow : CloumnInfo.InRow (writer.cloumnInfos.take index))
    (fits : SumsFit 0 (writer.cloumnInfos.map CloumnInfo.fixLength)) :
    ∃ infos, writer.place index =
        some { writer with cloumnInfos := infos, rowLength := toSize (CloumnInfo.width writer.cloumnInfos) } ∧
      CloumnInfo.InRow infos ∧ infos.map CloumnInfo.fixLength = writer.cloumnInfos.map CloumnInfo.fixLength := by
  have split := List.take_append_drop index writer.cloumnInfos
  rw [← split, List.map_append] at fits
  obtain ⟨front, back⟩ := SumsFit.append_iff.mp fits
  rw [Int.zero_add] at back
  have total : CloumnInfo.width (writer.cloumnInfos.take index) + CloumnInfo.width (writer.cloumnInfos.drop index) =
      CloumnInfo.width writer.cloumnInfos := by
    rw [← extent_append, split]
  have loop : Writer.placeFrom (CloumnInfo.width (writer.cloumnInfos.take index)) (writer.cloumnInfos.drop index) =
      some (CloumnInfo.laid (CloumnInfo.width (writer.cloumnInfos.take index)) (writer.cloumnInfos.drop index),
        CloumnInfo.width writer.cloumnInfos) := by
    rw [← total]
    exact placeFrom_eq back
  refine ⟨writer.cloumnInfos.take index ++
      CloumnInfo.laid (CloumnInfo.width (writer.cloumnInfos.take index)) (writer.cloumnInfos.drop index),
    ?_, Placed.append_iff.mpr ⟨inRow, ?_⟩, ?_⟩
  · rw [Writer.place, curOff_eq inside inRow front, Option.bind_eq_bind, Option.bind_some, loop]
    rfl
  · rw [Int.zero_add]
    exact CloumnInfo.placed_laid _ _
  · rw [List.map_append, CloumnInfo.lengths_laid, ← List.map_append, split]

theorem sumsFit_of_place (inside : index < writer.cloumnInfos.length)
    (inRow : CloumnInfo.InRow (writer.cloumnInfos.take index))
    (front : SumsFit 0 ((writer.cloumnInfos.take index).map CloumnInfo.fixLength))
    (placed : writer.place index = some after) :
    SumsFit 0 (writer.cloumnInfos.map CloumnInfo.fixLength) := by
  rw [Writer.place, curOff_eq inside inRow front, Option.bind_eq_bind, Option.bind_some] at placed
  obtain ⟨_, rest, _⟩ := Option.bind_eq_some_iff.mp placed
  have now := front.total
  rw [Int.zero_add] at now
  rw [← List.take_append_drop index writer.cloumnInfos, List.map_append]
  refine SumsFit.append_iff.mpr ⟨front, ?_⟩
  rw [Int.zero_add]
  exact sumsFit_of_placeFrom now rest

theorem take_of_place (inside : index ≤ writer.cloumnInfos.length) (placed : writer.place index = some after) :
    after.cloumnInfos.take index = writer.cloumnInfos.take index := by
  rw [Writer.place] at placed
  obtain ⟨_, _, placed⟩ := Option.bind_eq_some_iff.mp placed
  obtain ⟨_, _, placed⟩ := Option.bind_eq_some_iff.mp placed
  cases placed
  exact List.take_left' (List.length_take_of_le inside)

end Place

namespace Writer

variable {writer after : Writer} {call : SetColumn}

/-- The columns with the one that is set, and with blank ones in front of it where there are none. -/
def withColumn (writer : Writer) (call : SetColumn) : List CloumnInfo :=
  (writer.cloumnInfos ++ List.replicate (call.index + 1 - writer.cloumnInfos.length) CloumnInfo.blank).set call.index
    ⟨call.title, call.fixLength, 0, call.dataType⟩

/-- The columns from which the offsets are placed: there is one with this index, and room for all. -/
def Made (writer : Writer) (call : SetColumn) (capacity : Nat) : Prop :=
  (call.index < writer.cloumnInfos.length ∧ capacity = writer.capacity) ∨
    (writer.capacity ≤ call.index ∧ call.index + 1 < 2 ^ 64 ∧ call.room = some capacity)

/-- What `set_column` comes to. -/
theorem setColumn_cases (room : writer.cloumnInfos.length ≤ writer.capacity) (small : call.index < 2 ^ 64) :
    (writer.capacity ≤ call.index ∧ call.index + 1 < 2 ^ 64 ∧ call.room = none ∧
        writer.setColumn call = .thrown) ∨
      (∃ capacity, writer.Made call capacity ∧ writer.setColumn call =
          (place ⟨writer.withColumn call, capacity, writer.rowLength⟩ call.index).elim .undefined .returned) ∨
      (writer.cloumnInfos.length ≤ call.index ∧ (call.index < writer.capacity ∨ 2 ^ 64 ≤ call.index + 1) ∧
        writer.setColumn call = .undefined) := by
  unfold setColumn
  by_cases grows : writer.capacity ≤ call.index
  · rw [if_pos grows]
    by_cases wraps : call.index + 1 < 2 ^ 64
    · have more : ¬ call.index + 1 ≤ writer.cloumnInfos.length := by omega
      rw [addSize_eq wraps, resize, if_neg more]
      cases isRoom : call.room with
      | none => exact .inl ⟨grows, wraps, rfl, rfl⟩
      | some capacity =>
        have inside : call.index < (writer.cloumnInfos ++
            List.replicate (call.index + 1 - writer.cloumnInfos.length) CloumnInfo.blank).length := by
          rw [List.length_append, List.length_replicate]
          omega
        exact .inr (.inl ⟨capacity, .inr ⟨grows, wraps, isRoom⟩, if_pos inside⟩)
    · have wrapped : addSize call.index 1 = 0 := by
        unfold addSize
        omega
      rw [wrapped, resize, if_pos (Nat.zero_le _)]
      exact .inr (.inr ⟨by omega, .inr (by omega), rfl⟩)
  · rw [if_neg grows]
    by_cases inside : call.index < writer.cloumnInfos.length
    · have whole : writer.withColumn call = writer.cloumnInfos.set call.index
          ⟨call.title, call.fixLength, 0, call.dataType⟩ := by
        rw [withColumn, Nat.sub_eq_zero_of_le inside, List.replicate_zero, List.append_nil]
      refine .inr (.inl ⟨writer.capacity, .inl ⟨inside, rfl⟩, ?_⟩)
      rw [whole]
      exact if_pos inside
    · exact .inr (.inr ⟨Nat.not_lt.mp inside, .inl (Nat.not_le.mp grows), if_neg inside⟩)

theorem length_withColumn (writer : Writer) (call : SetColumn) : (writer.withColumn call).length =
    max writer.cloumnInfos.length (call.index + 1) := by
  rw [withColumn, List.length_set, List.length_append, List.length_replicate]
  omega

theorem take_withColumn (writer : Writer) (call : SetColumn) : (writer.withColumn call).take call.index =
    (writer.cloumnInfos ++ List.replicate (call.index - writer.cloumnInfos.length) CloumnInfo.blank).take call.index := by
  rw [withColumn, List.take_set_of_le (Nat.le_refl _), List.take_append, List.take_append, List.take_replicate,
    List.take_replicate]
  congr 2
  omega

/-- Blank columns are in their places where the ones in front of them have no length. -/
theorem inRow_blanks {infos : List CloumnInfo} (inRow : CloumnInfo.InRow infos) (empty : CloumnInfo.width infos = 0)
    (count : Nat) : CloumnInfo.InRow (infos ++ List.replicate count CloumnInfo.blank) := by
  induction count with
  | zero => rwa [List.replicate_zero, List.append_nil]
  | succ count ih =>
    have none : CloumnInfo.width (infos ++ List.replicate count CloumnInfo.blank) = 0 := by
      rw [CloumnInfo.width_append, empty, CloumnInfo.width_blanks, Int.add_zero]
    rw [List.replicate_succ', ← List.append_assoc]
    exact Placed.snoc_iff.mpr ⟨ih, (congrArg (0 + ·) none).symm⟩

theorem sumsFit_blanks {terms : List Int} (fits : SumsFit 0 terms) (empty : terms.sum = 0) (count : Nat) :
    SumsFit 0 (terms ++ List.replicate count 0) := by
  refine SumsFit.append_iff.mpr ⟨fits, fun few _ => ?_⟩
  rw [List.take_replicate, CloumnInfo.sum_zeros, empty]
  decide

variable (inRow : CloumnInfo.InRow writer.cloumnInfos)
  (whole : (writer.rowLength : Int) = CloumnInfo.width writer.cloumnInfos)

include whole

/-- A blank column behind the others is only in its place if these have no length. -/
theorem rowLength_eq_zero (behind : writer.cloumnInfos.length < call.index)
    (front : CloumnInfo.InRow ((writer.withColumn call).take call.index)) : writer.rowLength = 0 := by
  have blanks : 0 < call.index - writer.cloumnInfos.length := by omega
  obtain ⟨count, isCount⟩ := Nat.exists_eq_succ_of_ne_zero (Nat.ne_of_gt blanks)
  have split : (writer.withColumn call).take call.index =
      writer.cloumnInfos ++ CloumnInfo.blank :: List.replicate count CloumnInfo.blank := by
    rw [take_withColumn, List.take_of_length_le, isCount, List.replicate_succ]
    rw [List.length_append, List.length_replicate]
    omega
  rw [split] at front
  obtain ⟨first, _⟩ := Placed.cons_iff.mp (Placed.append_iff.mp front).2
  have empty : 0 = 0 + CloumnInfo.width writer.cloumnInfos := first
  omega

include inRow

/-- The columns in front of the one that is set. -/
theorem front_of_reaches (fits : SumsFit 0 (writer.cloumnInfos.map CloumnInfo.fixLength))
    (reaches : call.index ≤ writer.cloumnInfos.length ∨ writer.rowLength = 0) :
    CloumnInfo.InRow ((writer.withColumn call).take call.index) ∧
      SumsFit 0 (((writer.withColumn call).take call.index).map CloumnInfo.fixLength) := by
  rw [take_withColumn, List.map_take]
  rcases reaches with inside | empty
  · rw [Nat.sub_eq_zero_of_le inside, List.replicate_zero, List.append_nil]
    exact ⟨inRow.take _, fits.take _⟩
  · have none : CloumnInfo.width writer.cloumnInfos = 0 := by
      rw [← whole, empty]
      rfl
    rw [List.map_append, List.map_replicate]
    exact ⟨(inRow_blanks inRow none _).take _, (sumsFit_blanks fits none _).take _⟩

end Writer

namespace Writer

variable {writer : Writer} {call : SetColumn}

/-- There is such a column; or the vector is resized by this column, or by more while no column has a length. -/
def Reaches (writer : Writer) (call : SetColumn) : Prop :=
  call.index < writer.cloumnInfos.length ∨ (writer.capacity ≤ call.index ∧ call.index + 1 < 2 ^ 64 ∧
    (call.index = writer.cloumnInfos.length ∨ writer.rowLength = 0))

theorem Reaches.within (reaches : writer.Reaches call) :
    call.index ≤ writer.cloumnInfos.length ∨ writer.rowLength = 0 := by
  rcases reaches with there | ⟨_, _, next | empty⟩
  · exact .inl (Nat.le_of_lt there)
  · exact .inl (Nat.le_of_eq next)
  · exact .inr empty

/-- The call throws; or there is such a column or one can be made, and the lengths add up to a size. -/
def Fine (writer : Writer) (call : SetColumn) : Prop :=
  (writer.capacity ≤ call.index ∧ call.index + 1 < 2 ^ 64 ∧ call.room = none) ∨
    (writer.Reaches call ∧ SumsFit 0 ((writer.withColumn call).map CloumnInfo.fixLength) ∧
      0 ≤ CloumnInfo.width (writer.withColumn call))

/-- What the vector itself sees to, and the sums that were made. -/
structure Kept (writer : Writer) : Prop where
  room : writer.cloumnInfos.length ≤ writer.capacity
  small : writer.capacity < 2 ^ 64
  fits : SumsFit 0 (writer.cloumnInfos.map CloumnInfo.fixLength)

/-- The offsets and the length of a row. -/
structure Sums (writer : Writer) : Prop where
  inRow : CloumnInfo.InRow writer.cloumnInfos
  whole : (writer.rowLength : Int) = CloumnInfo.width writer.cloumnInfos

variable {capacity : Nat} {after : Writer}

/-- A call that is fine and does not throw. -/
theorem place_of_fine (kept : writer.Kept) (sums : writer.Sums) (possible : call.Possible)
    (made : writer.Made call capacity) (fine : writer.Fine call) :
    ∃ after, place ⟨writer.withColumn call, capacity, writer.rowLength⟩ call.index = some after ∧
      after.Kept ∧ after.Sums ∧ after.cloumnInfos.length = max writer.cloumnInfos.length (call.index + 1) := by
  have room := kept.room
  have long := length_withColumn writer call
  have inside : call.index < (writer.withColumn call).length := by omega
  rcases fine with ⟨grows, _, noRoom⟩ | ⟨reaches, fits, nonneg⟩
  · rcases made with ⟨there, _⟩ | ⟨_, _, isRoom⟩
    · omega
    · cases noRoom.symm.trans isRoom
  obtain ⟨front, _⟩ := front_of_reaches sums.inRow sums.whole kept.fits reaches.within
  obtain ⟨infos, placed, inRow, lengths⟩ :=
    @place_eq call.index ⟨writer.withColumn call, capacity, writer.rowLength⟩ inside front fits
  have sameLength : infos.length = (writer.withColumn call).length := by
    rw [← List.length_map CloumnInfo.fixLength, lengths, List.length_map]
  have small : capacity < 2 ^ 64 ∧ infos.length ≤ capacity := by
    have within := kept.small
    rcases made with ⟨there, rfl⟩ | ⟨_, _, isRoom⟩
    · omega
    · obtain ⟨_, _, enough⟩ := possible
      obtain ⟨more, small⟩ := enough capacity isRoom
      omega
  have total := fits.total
  rw [Int.zero_add] at total
  refine ⟨_, placed, ⟨small.2, small.1, lengths.symm ▸ fits⟩, ⟨inRow, ?_⟩, sameLength.trans long⟩
  exact ((toSize_eq_iff total).mpr nonneg).trans (CloumnInfo.width_congr lengths).symm

/-- A call that leaves sums is fine. -/
theorem fine_of_place (kept : writer.Kept) (sums : writer.Sums) (made : writer.Made call capacity)
    (placed : place ⟨writer.withColumn call, capacity, writer.rowLength⟩ call.index = some after)
    (sumsAfter : after.Sums) : writer.Fine call := by
  have room := kept.room
  have long := length_withColumn writer call
  have inside : call.index < (writer.withColumn call).length := by omega
  have taken := take_of_place (Nat.le_of_lt inside) placed
  have reaches : writer.Reaches call := by
    rcases made with ⟨there, _⟩ | ⟨grows, wraps, _⟩
    · exact .inl there
    · refine .inr ⟨grows, wraps, ?_⟩
      by_cases next : call.index = writer.cloumnInfos.length
      · exact .inl next
      · have behind : writer.cloumnInfos.length < call.index := by omega
        exact .inr (rowLength_eq_zero sums.whole behind (taken ▸ sumsAfter.inRow.take call.index))
  obtain ⟨front, frontFits⟩ := front_of_reaches sums.inRow sums.whole kept.fits reaches.within
  have fits := sumsFit_of_place inside front frontFits placed
  obtain ⟨infos, same, _, lengths⟩ := place_eq inside front fits
  cases placed.symm.trans same
  have total := fits.total
  rw [Int.zero_add] at total
  exact .inr ⟨reaches, fits, (toSize_eq_iff total).mp (sumsAfter.whole.trans (CloumnInfo.width_congr lengths))⟩

end Writer

namespace Columns

variable {before after : Columns} {call : SetColumn}

def Fine (columns : Columns) (call : SetColumn) : Prop := ∀ writer ∈ columns.writer, writer.Fine call

def Kept (columns : Columns) : Prop := ∀ writer ∈ columns.writer, writer.Kept

/-- A call leaves every offset and the length of a row as they have to be exactly if it is fine. -/
theorem holds_step (kept : before.Kept) (holds : before.Holds) (taken : before.next call = some after) :
    (after.Holds ↔ before.Fine call) ∧ (after.Holds → after.Kept) := by
  obtain ⟨writer, isWriter, indexes, inRow, whole⟩ := holds
  have keptWriter := kept writer isWriter
  have sums : writer.Sums := ⟨inRow, whole⟩
  have fine_iff : before.Fine call ↔ writer.Fine call := by
    simp only [Fine, isWriter, Option.mem_some_iff, forall_eq']
  rw [fine_iff]
  rw [next] at taken
  split at taken
  swap
  · cases taken
  rename_i possible
  rw [isWriter, Option.map_some, Option.some.injEq] at taken
  rcases Writer.setColumn_cases keptWriter.room possible.1 with
    ⟨grows, wraps, noRoom, thrown⟩ | ⟨capacity, made, outcome⟩ | ⟨outside, reason, undefined⟩
  · rw [thrown] at taken
    obtain rfl : before = after := taken
    exact ⟨iff_of_true ⟨writer, isWriter, indexes, inRow, whole⟩ (.inl ⟨grows, wraps, noRoom⟩), fun _ => kept⟩
  · rw [outcome] at taken
    cases placed : Writer.place ⟨writer.withColumn call, capacity, writer.rowLength⟩ call.index with
    | none =>
      rw [placed] at taken
      obtain rfl : { before with writer := none } = after := taken
      refine ⟨iff_of_false (by rintro ⟨_, ⟨⟩, _⟩) fun fine => ?_, fun _ => nofun⟩
      obtain ⟨_, same, _⟩ := Writer.place_of_fine keptWriter sums possible made fine
      cases placed.symm.trans same
    | some last =>
      rw [placed] at taken
      obtain rfl : ⟨some last, call.index :: before.indexes⟩ = after := taken
      have fine_of_holds (holds : Columns.Holds ⟨some last, call.index :: before.indexes⟩) : writer.Fine call := by
        obtain ⟨_, ⟨⟩, _, inRow, whole⟩ := holds
        exact Writer.fine_of_place keptWriter sums made placed ⟨inRow, whole⟩
      constructor
      · refine ⟨fine_of_holds, fun fine => ?_⟩
        obtain ⟨_, same, _, sumsLast, long⟩ := Writer.place_of_fine keptWriter sums possible made fine
        cases placed.symm.trans same
        refine ⟨last, rfl, List.forall_mem_cons.mpr ⟨by omega, fun index member => ?_⟩, sumsLast.inRow, sumsLast.whole⟩
        have earlier := indexes index member
        omega
      · rintro holds _ ⟨⟩
        obtain ⟨_, same, keptLast, _⟩ :=
          Writer.place_of_fine keptWriter sums possible made (fine_of_holds holds)
        cases placed.symm.trans same
        exact keptLast
  · rw [undefined] at taken
    obtain rfl : { before with writer := none } = after := taken
    refine ⟨iff_of_false (by rintro ⟨_, ⟨⟩, _⟩) ?_, fun _ => nofun⟩
    have room := keptWriter.room
    rintro (⟨grows, wraps, _⟩ | ⟨there | ⟨grows, wraps, _⟩, _⟩) <;> omega

/-- In every sequence of calls the indexes that were set are within the size, and the offsets and the length of a row
are the sums of the lengths, exactly if each call sets a column that there is, or where the vector has no room left
the next one or any one while no column has a length, and the lengths add up to a size. -/
theorem set_column_sums_iff {capacity : Nat} {calls : List SetColumn} {last : Columns} (small : capacity < 2 ^ 64)
    (path : Path (Taken next) (start capacity) calls last) :
    (∀ columns, Visits (Taken next) (start capacity) calls columns → columns.Holds) ↔
      ∀ columns call, Takes (Taken next) (start capacity) calls columns call → columns.Fine call := by
  refine path.visits_iff_all_takes Kept (fun _ _ _ kept holds taken => holds_step kept holds taken) ?_ ?_
  · exact ⟨_, rfl, nofun, .nil, rfl⟩
  · rintro _ ⟨⟩
    exact ⟨Nat.zero_le _, small, SumsFit.nil_iff.mpr (by decide)⟩

/-- Two columns, the second one set first and the first one again. -/
theorem set_column_sums_iff_two :
    let calls : List SetColumn := [⟨1, "b", 8, .int64, some 2⟩, ⟨0, "a", 4, .int32, none⟩, ⟨0, "a", 2, .int16, none⟩]
    (∀ columns, Visits (Taken next) (start 0) calls columns → columns.Holds) ↔
      ∀ columns call, Takes (Taken next) (start 0) calls columns call → columns.Fine call := by
  intro calls
  have runs : (exec next (start 0) calls).isSome := by decide
  obtain ⟨last, run⟩ := Option.isSome_iff_exists.mp runs
  exact set_column_sums_iff (by decide) (exec_eq_some_iff.mp run)

/-- Four columns in their order, in a vector that doubles its capacity: there is room for the last one, so it is
written behind the end. And the third column behind the first one: it begins where this one does, and the row is as
long as one of them. -/
theorem not_set_column_sums :
    let item (index : Nat) (room : Option Nat) : SetColumn := ⟨index, "price", 4, .int32, room⟩
    (∃ last, exec next (start 0) [item 0 (some 1), item 1 (some 2), item 2 (some 4), item 3 none] = some last ∧
      ¬ last.Holds) ∧
    ∃ last, exec next (start 0) [item 0 (some 1), item 2 (some 3)] = some last ∧ ¬ last.Holds := by
  intro item
  constructor
  · have lost : (exec next (start 0) [item 0 (some 1), item 1 (some 2), item 2 (some 4), item 3 none]).map
        (fun columns => columns.writer.isSome) = some false := by decide
    obtain ⟨last, run, isLost⟩ := Option.map_eq_some_iff.mp lost
    refine ⟨last, run, fun ⟨writer, isWriter, _⟩ => ?_⟩
    rw [isWriter] at isLost
    cases isLost
  · have lengths : (exec next (start 0) [item 0 (some 1), item 2 (some 3)]).map (fun columns =>
        columns.writer.map fun writer => (writer.cloumnInfos.map (·.fixLength), writer.rowLength)) =
        some (some ([4, 0, 4], 4)) := by decide
    obtain ⟨last, run, same⟩ := Option.map_eq_some_iff.mp lengths
    refine ⟨last, run, fun ⟨writer, isWriter, _, _, whole⟩ => ?_⟩
    rw [isWriter, Option.map_some] at same
    obtain ⟨isLengths, isRow⟩ := Prod.mk.inj (Option.some.inj same)
    rw [isRow, CloumnInfo.width, extent, isLengths] at whole
    exact absurd whole (by decide)

end Columns

end BTool.ParquetRow
