import BTool.DateTime.DateTimeConvert
import BTool.Foundation.FixedFields
import Mathlib.Logic.Function.Basic

/-! A value as a text of Peking time, or of the time of a K line, and back. -/

namespace BTool.DateTime

open BTool.Foundation

inductive DateTimeKind where
  | dtkLocal
  | dtkKLine
deriving DecidableEq

namespace Field

/-- The characters that `FromString` copies. -/
def width : Field → Nat
  | year => 4
  | millsecond => 3
  | microsecond => 3
  | _ => 2

end Field

/-- How far `FromString` moves on behind a field. -/
def DateTimeKind.advance : DateTimeKind → Field → Nat
  | dtkLocal, .year => 5
  | dtkKLine, .year => 4
  | dtkLocal, .month => 3
  | dtkKLine, .month => 2
  | _, .day => 3
  | dtkLocal, .hour => 3
  | dtkKLine, .hour => 2
  | dtkLocal, .minute => 3
  | dtkKLine, .minute => 2
  | _, .second => 3
  | _, .millsecond => 4
  | _, .microsecond => 0

/-- The bytes of `snprintf` in a buffer of so many bytes, without the one that ends them. -/
def snprintf (size : Nat) (text : List UInt8) : List UInt8 :=
  text.take (size - 1)

/-- What the two kinds of text differ in: the sizes of the buffers, and what stands between the
numbers. -/
structure TextShape where
  dateSize : Nat
  dateSeparator : List UInt8
  timeSize : Nat
  timeSeparator : List UInt8
  partSeparator : List UInt8

namespace DateTimeConvert

/-- The fields that a style has, taken from a text in memory. Nothing where it is read beyond its end. -/
def readFields (memory : List UInt8) (kind : DateTimeKind) (style : DateTimeStyle) (offset : Nat)
    (member : Field → Int) : List Field → Option (Field → Int)
  | [] => some member
  | field :: fields =>
    if style.has field then do
      let value ← numberAt memory offset field.width
      readFields memory kind style (offset + kind.advance field) (Function.update member field value) fields
    else readFields memory kind style offset member fields

/-- `FromString` of a text, behind which a zero stands in memory. -/
def fromString (dt : List UInt8) (style : DateTimeStyle) (kind : DateTimeKind) : Option DateTimeConvert :=
  (readFields (dt ++ [0]) kind style 0 initial Field.all).map fun member =>
    let ret : DateTimeConvert := { style, dayOfWeek := .undefine, isvalid := style != .invlid, member }
    { ret with isvalid := ret.isvalid && ret.checkDtValid }

/-- The parts of a text that the bits of a style ask for. -/
def toText (shape : TextShape) (dt : DateTimeConvert) (style : DateTimeStyle) : List UInt8 :=
  let date :=
    if style &&& .ymd ≠ 0 then
      snprintf shape.dateSize (printDecimal 4 (dt.get .year) ++ shape.dateSeparator ++
        printDecimal 2 (dt.get .month) ++ shape.dateSeparator ++ printDecimal 2 (dt.get .day))
    else []
  let dateTimeSpace := if style &&& .ymd ≠ 0 ∧ style &&& .hms ≠ 0 then [32] else []
  let time :=
    if style &&& .hms ≠ 0 then
      snprintf shape.timeSize (printDecimal 2 (dt.get .hour) ++ shape.timeSeparator ++
        printDecimal 2 (dt.get .minute) ++ shape.timeSeparator ++ printDecimal 2 (dt.get .second))
    else []
  let timeMSecSpace := if style &&& .hms ≠ 0 ∧ style &&& .mSec ≠ 0 then shape.partSeparator else []
  let mSec := if style &&& .mSec ≠ 0 then snprintf 4 (printDecimal 3 (dt.get .millsecond)) else []
  let mSecUSecSpace := if style &&& .mSec ≠ 0 ∧ style &&& .uSec ≠ 0 then shape.partSeparator else []
  let uSec := if style &&& .uSec ≠ 0 then snprintf 4 (printDecimal 3 (dt.get .microsecond)) else []
  date ++ dateTimeSpace ++ time ++ timeMSecSpace ++ mSec ++ mSecUSecSpace ++ uSec

/-- `2018-07-07 15:20:00.000.000`. -/
def toLocalString (dt : DateTimeConvert) (style : DateTimeStyle) : List UInt8 :=
  toText
    { dateSize := 11, dateSeparator := [45], timeSize := 9, timeSeparator := [58], partSeparator := [46] }
    dt style

/-- `20180707 152000 000 000`. -/
def toKlineString (dt : DateTimeConvert) (style : DateTimeStyle) : List UInt8 :=
  toText
    { dateSize := 9, dateSeparator := [], timeSize := 7, timeSeparator := [], partSeparator := [32] }
    dt style

/-- The styles of whole groups: the date, then the time of day, then milliseconds, then microseconds. -/
def groupStyles : List DateTimeStyle := [.ymd, .ymdhms, .ymdhmsM, .all]

/-- What stands behind a field in front of the next one. -/
def separator : DateTimeKind → Field → List UInt8
  | .dtkLocal, .year => [45]
  | .dtkLocal, .month => [45]
  | _, .day => [32]
  | .dtkLocal, .hour => [58]
  | .dtkLocal, .minute => [58]
  | .dtkLocal, .second => [46]
  | .dtkKLine, .second => [32]
  | .dtkLocal, .millsecond => [46]
  | .dtkKLine, .millsecond => [32]
  | _, _ => []

/-- The fields of a style as a text. -/
def fieldText (kind : DateTimeKind) (dt : DateTimeConvert) (style : DateTimeStyle) (fields : List Field) :
    List UInt8 :=
  record Field.width (separator kind) dt.get (fields.filter style.has)

variable {kind : DateTimeKind} {style : DateTimeStyle} {dt : DateTimeConvert} {field : Field}
  {fields : List Field} {front back memory : List UInt8} {member : Field → Int} {offset : Nat}

theorem advance_eq (inner : field ≠ .microsecond) :
    kind.advance field = field.width + (separator kind field).length := by
  cases kind <;> cases field <;> first | rfl | contradiction

theorem width_pos : 0 < field.width := by
  cases field <;> decide

/-- Each field fits the characters that there are for it. -/
theorem fits_width {value : Int} (inRange : field.InRange 9999 value) :
    0 ≤ value ∧ value < 10 ^ field.width := by
  cases field <;> simp only [Field.InRange, Field.width] at * <;> omega

theorem length_field (inRange : dt.InRange 9999) (field : Field) :
    (printDecimal field.width (dt.get field)).length = field.width :=
  length_printDecimal width_pos (fits_width (inRange field)).1 (fits_width (inRange field)).2

/-- Where a style has none of the fields, none is read. -/
theorem readFields_none (absent : fields.filter style.has = []) :
    readFields memory kind style offset member fields = some member := by
  induction fields with
  | nil => rfl
  | cons field fields ih =>
    have lacks : ¬style.has field := List.filter_eq_nil_iff.mp absent field List.mem_cons_self
    rw [List.filter_cons_of_neg lacks] at absent
    rw [readFields, if_neg lacks, ih absent]

theorem fieldText_cons (kind : DateTimeKind) (dt : DateTimeConvert) (fields : List Field)
    (has : style.has field = true) :
    ∃ rest, fieldText kind dt style (field :: fields) = printDecimal field.width (dt.get field) ++ rest ∧
      (fields.filter style.has ≠ [] → rest = separator kind field ++ fieldText kind dt style fields) := by
  rw [fieldText, List.filter_cons_of_pos has]
  exact record_cons

/-- The members after a field was read, and then those behind it. -/
theorem members_cons (has : style.has field = true) :
    (fun other => if other ∈ fields ∧ style.has other then dt.get other
      else Function.update member field (dt.get field) other) =
    fun other => if other ∈ field :: fields ∧ style.has other then dt.get other else member other := by
  funext other
  by_cases same : other = field
  · subst same
    simp [has]
  · simp [same]

/-- The fields are read back where they stand, whatever is in front of them and behind them. -/
theorem readFields_fieldText (inRange : dt.InRange 9999)
    (inner : fields.Pairwise fun field _ => field ≠ .microsecond) :
    readFields (front ++ fieldText kind dt style fields ++ back) kind style front.length member fields =
      some fun field => if field ∈ fields ∧ style.has field then dt.get field else member field := by
  induction fields generalizing front member with
  | nil => simp [readFields]
  | cons field fields ih =>
    by_cases has : style.has field
    · obtain ⟨rest, split, more⟩ := fieldText_cons kind dt fields has
      have reads : numberAt (front ++ printDecimal field.width (dt.get field) ++ (rest ++ back)) front.length
          field.width = some (dt.get field) :=
        numberAt_append (fits_width (inRange field)).1 (length_field inRange field)
      rw [split, List.append_assoc front, List.append_assoc, ← List.append_assoc front, readFields,
        if_pos has, reads, ← members_cons has]
      by_cases last : fields.filter style.has = []
      · refine (readFields_none last).trans (congrArg some ?_)
        funext other
        refine (if_neg fun both => ?_).symm
        exact List.filter_eq_nil_iff.mp last other both.1 both.2
      · obtain ⟨next, member⟩ := List.exists_mem_of_ne_nil _ last
        have before := List.rel_of_pairwise_cons inner (List.mem_of_mem_filter member)
        have offset : front.length + kind.advance field =
            (front ++ printDecimal field.width (dt.get field) ++ separator kind field).length := by
          rw [advance_eq before, List.length_append, List.length_append, length_field inRange field,
            Nat.add_assoc]
        rw [more last, Option.bind_eq_bind, Option.bind_some, offset,
          List.append_assoc (separator kind field), ← List.append_assoc _ (separator kind field),
          ← List.append_assoc _ _ back]
        exact ih inner.tail
    · have skipped : fieldText kind dt style (field :: fields) = fieldText kind dt style fields := by
        rw [fieldText, List.filter_cons_of_neg has, fieldText]
      rw [readFields, if_neg has, skipped, ih inner.tail]
      congr 1
      funext other
      by_cases same : other = field
      · simp [same, has]
      · simp [same]

theorem snprintf_eq {size : Nat} {text : List UInt8} (fits : text.length < size) :
    snprintf size text = text :=
  List.take_of_length_le (by omega)

/-- A text with the shape of a kind is the one of the fields, for the styles of whole groups. -/
theorem toText_eq {shape : TextShape} (inRange : dt.InRange 9999) (whole : style ∈ groupStyles)
    (date : 8 + 2 * shape.dateSeparator.length < shape.dateSize)
    (time : 6 + 2 * shape.timeSeparator.length < shape.timeSize)
    (separators : separator kind .year = shape.dateSeparator ∧ separator kind .month = shape.dateSeparator ∧
      separator kind .day = [32] ∧ separator kind .hour = shape.timeSeparator ∧
      separator kind .minute = shape.timeSeparator ∧ separator kind .second = shape.partSeparator ∧
      separator kind .millsecond = shape.partSeparator) :
    toText shape dt style = fieldText kind dt style Field.all := by
  have length (field : Field) : (printDecimal field.width (dt.get field)).length = field.width :=
    length_field inRange field
  have year := length .year
  have month := length .month
  have day := length .day
  have hour := length .hour
  have minute := length .minute
  have second := length .second
  have millsecond := length .millsecond
  have microsecond := length .microsecond
  simp only [Field.width] at year month day hour minute second millsecond microsecond
  simp only [toText]
  rw [snprintf_eq, snprintf_eq, snprintf_eq, snprintf_eq]
  · simp only [groupStyles, List.mem_cons, List.not_mem_nil, or_false] at whole
    obtain ⟨sepYear, sepMonth, sepDay, sepHour, sepMinute, sepSecond, sepMillsecond⟩ := separators
    obtain rfl | rfl | rfl | rfl := whole
    · rw [fieldText, show Field.all.filter (DateTimeStyle.has .ymd) = [.year, .month, .day] from rfl]
      simp +decide [record, Field.width, sepYear, sepMonth]
    · rw [fieldText, show Field.all.filter (DateTimeStyle.has .ymdhms) =
        [.year, .month, .day, .hour, .minute, .second] from rfl]
      simp +decide [record, Field.width, sepYear, sepMonth, sepDay, sepHour, sepMinute]
    · rw [fieldText, show Field.all.filter (DateTimeStyle.has .ymdhmsM) =
        [.year, .month, .day, .hour, .minute, .second, .millsecond] from rfl]
      simp +decide [record, Field.width, sepYear, sepMonth, sepDay, sepHour, sepMinute, sepSecond]
    · rw [fieldText, show Field.all.filter (DateTimeStyle.has .all) = Field.all from rfl]
      simp +decide [record, Field.all, Field.width, sepYear, sepMonth, sepDay, sepHour, sepMinute, sepSecond,
        sepMillsecond]
  · omega
  · omega
  · simp only [List.length_append]
    omega
  · simp only [List.length_append]
    omega

/-- The fields that are read and those that stay as they were make a valid value. -/
theorem checkDtValid_read (inRange : dt.InRange 9999) (year : style.has .year = true)
    {ret : DateTimeConvert} (read : ∀ field, ret.member field = if style.has field then dt.get field else initial field) :
    ret.checkDtValid = true := by
  have bound (field : Field) (kept : field ≠ .year) :
      field.InRange 9999 (ret.member field) := by
    rw [read field]
    split
    · exact inRange field
    · cases field <;> first | exact ⟨by decide, by decide⟩ | contradiction
  have since : 1900 ≤ ret.member .year := by
    rw [read, if_pos year]
    exact (inRange .year).1
  refine decide_eq_true ⟨since, (bound .month ?_).1, (bound .day ?_).1, (bound .hour ?_).1,
    (bound .minute ?_).1, (bound .second ?_).1, (bound .millsecond ?_).1, (bound .microsecond ?_).1⟩
  all_goals exact Field.noConfusion

/-- Read back, a text of the fields gives a valid value that has them. -/
theorem fromString_fieldText (inRange : dt.InRange 9999) (whole : style ∈ groupStyles) :
    ∃ back, fromString (fieldText kind dt style Field.all) style kind = some back ∧
      back.isvalid = true ∧ back.style = style ∧
      ∀ field, style.has field = true → back.get field = dt.get field := by
  have read : readFields (fieldText kind dt style Field.all ++ [0]) kind style 0 initial Field.all =
      some fun field => if style.has field then dt.get field else initial field := by
    have inner : Field.all.Pairwise fun field _ => field ≠ .microsecond := by decide
    have every (field : Field) : field ∈ Field.all := by cases field <;> decide
    have found : readFields ([] ++ fieldText kind dt style Field.all ++ [0]) kind style
        ([] : List UInt8).length initial Field.all =
        some fun field => if field ∈ Field.all ∧ style.has field then dt.get field else initial field :=
      readFields_fieldText inRange inner
    simpa [every] using found
  have year : style.has .year = true ∧ style ≠ .invlid := by
    simp only [groupStyles, List.mem_cons, List.not_mem_nil, or_false] at whole
    obtain rfl | rfl | rfl | rfl := whole <;> decide
  have valid (isvalid : Bool) : checkDtValid
      { style, dayOfWeek := .undefine, isvalid,
        member := fun field => if style.has field then dt.get field else initial field } = true :=
    checkDtValid_read inRange year.1 fun _ => rfl
  refine ⟨{ style, dayOfWeek := .undefine, isvalid := true,
            member := fun field => if style.has field then dt.get field else initial field },
    ?_, rfl, rfl, fun field has => (if_pos rfl).trans (if_pos has)⟩
  rw [fromString, read, Option.map_some, Option.some.injEq]
  simp only [valid, bne_iff_ne.mpr year.2, Bool.and_self]

/-- Of the fields of its style a value is read back from its texts as it is. -/
theorem text_round_trip (inRange : dt.InRange 9999) (whole : style ∈ groupStyles) :
    (∃ back, fromString (dt.toLocalString style) style .dtkLocal = some back ∧
      back.isvalid = true ∧ back.style = style ∧
      ∀ field, style.has field = true → back.get field = dt.get field) ∧
    ∃ back, fromString (dt.toKlineString style) style .dtkKLine = some back ∧
      back.isvalid = true ∧ back.style = style ∧
      ∀ field, style.has field = true → back.get field = dt.get field := by
  have localText : dt.toLocalString style = fieldText .dtkLocal dt style Field.all :=
    toText_eq inRange whole (by decide) (by decide) ⟨rfl, rfl, rfl, rfl, rfl, rfl, rfl⟩
  have kLineText : dt.toKlineString style = fieldText .dtkKLine dt style Field.all :=
    toText_eq inRange whole (by decide) (by decide) ⟨rfl, rfl, rfl, rfl, rfl, rfl, rfl⟩
  rw [localText, kLineText]
  exact ⟨fromString_fieldText inRange whole, fromString_fieldText inRange whole⟩

/-- 2018-07-07 15:20:00.007.030, with all fields. -/
theorem text_round_trip_2018 :
    let dt : DateTimeConvert :=
      { style := .all, dayOfWeek := .undefine, isvalid := true, member := fun
        | .year => 2018
        | .month => 7
        | .day => 7
        | .hour => 15
        | .minute => 20
        | .second => 0
        | .millsecond => 7
        | .microsecond => 30 }
    (∃ back, fromString (dt.toLocalString .all) .all .dtkLocal = some back ∧
      back.isvalid = true ∧ back.style = .all ∧
      ∀ field, DateTimeStyle.all.has field = true → back.get field = dt.get field) ∧
    ∃ back, fromString (dt.toKlineString .all) .all .dtkKLine = some back ∧
      back.isvalid = true ∧ back.style = .all ∧
      ∀ field, DateTimeStyle.all.has field = true → back.get field = dt.get field :=
  text_round_trip (fun field => by cases field <;> exact ⟨by decide, by decide⟩) (by decide)

end DateTimeConvert

end BTool.DateTime
