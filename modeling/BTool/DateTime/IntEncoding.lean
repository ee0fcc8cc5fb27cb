import BTool.DateTime.Ordering
import BTool.Foundation.MixedRadix
import BTool.Foundation.SignedArithmetic

/-! A date and a time as decimal digits of integers. -/

namespace BTool.DateTime

open BTool.Foundation

/-- The field that `FromIntDateTime` finds in the digits of a date and a time. -/
def intField (date time : Int) : Field → Int
  | .year => date.tdiv 10000
  | .month => (date.tmod 10000).tdiv 100
  | .day => date.tmod 100
  | .hour => time.tdiv 10000000
  | .minute => (time.tmod 10000000).tdiv 100000
  | .second => (time.tmod 100000).tdiv 1000
  | .millsecond => time.tmod 1000
  | .microsecond => DateTimeConvert.initial .microsecond

namespace DateTimeConvert

def fromIntDateTime (date time : Int) (style : DateTimeStyle) : DateTimeConvert :=
  let member (field : Field) : Int := if style.has field then intField date time field else initial field
  let ret : DateTimeConvert := { style, dayOfWeek := .undefine, isvalid := style != .invlid, member }
  { ret with isvalid := ret.isvalid && ret.checkDtValid }

/-- `yyyyMMdd`. -/
def toIntDate (dt : DateTimeConvert) : Option Int := do
  let years ← checkInt (dt.member .year * 10000)
  let months ← checkInt (dt.member .month * 100)
  sumFrom checkInt years [months, dt.member .day]

/-- `hhmmssmmm`. -/
def toIntTimeMs (dt : DateTimeConvert) : Option Int := do
  let hours ← checkInt (dt.member .hour * 10000000)
  let minutes ← checkInt (dt.member .minute * 100000)
  let seconds ← checkInt (dt.member .second * 1000)
  sumFrom checkInt hours [minutes, seconds, dt.member .millsecond]

/-- `yyyymmddhhmmssmmm`. -/
def toLlDatetime (dt : DateTimeConvert) : Option Int := do
  let years ← checkLong (dt.member .year * 10000000000000)
  let months ← checkLong (dt.member .month * 100000000000)
  let days ← checkLong (dt.member .day * 1000000000)
  let hours ← checkInt (dt.member .hour * 10000000)
  let minutes ← checkInt (dt.member .minute * 100000)
  let seconds ← checkInt (dt.member .second * 1000)
  sumFrom checkLong years [months, days, hours, minutes, seconds, dt.member .millsecond]

/-- The last year of which all days are an `int`. -/
def lastIntYear : Int := 214748

/-- The last year of which all milliseconds are a `long long`. -/
def lastLongYear : Int := 922336

variable {dt other : DateTimeConvert} {field : Field} {lastYear : Int}

theorem InRange.bounds (inRange : dt.InRange lastYear) :
    (1900 ≤ dt.get .year ∧ dt.get .year ≤ lastYear) ∧ (1 ≤ dt.get .month ∧ dt.get .month ≤ 12) ∧
    (1 ≤ dt.get .day ∧ dt.get .day ≤ 31) ∧ (0 ≤ dt.get .hour ∧ dt.get .hour ≤ 23) ∧
    (0 ≤ dt.get .minute ∧ dt.get .minute ≤ 59) ∧ (0 ≤ dt.get .second ∧ dt.get .second ≤ 60) ∧
    (0 ≤ dt.get .millsecond ∧ dt.get .millsecond ≤ 999) :=
  ⟨inRange .year, inRange .month, inRange .day, inRange .hour, inRange .minute, inRange .second,
    inRange .millsecond⟩

theorem toIntDate_eq (inRange : dt.InRange lastIntYear) : dt.toIntDate =
    some (dt.get .year * 10000 + dt.get .month * 100 + dt.get .day) := by
  obtain ⟨year, month, day, -⟩ := inRange.bounds
  unfold lastIntYear at year
  simp only [inRange.get_eq] at *
  have years : FitsInt (dt.member .year * 10000) := ⟨by omega, by omega⟩
  have months : FitsInt (dt.member .month * 100) := ⟨by omega, by omega⟩
  simp only [toIntDate, checkInt_eq years, checkInt_eq months, Option.bind_eq_bind, Option.bind_some,
    sumFrom_checkInt_cons, sumFrom_nil]
  exact ⟨⟨by omega, by omega⟩, ⟨by omega, by omega⟩, trivial⟩

theorem toIntTimeMs_eq (inRange : dt.InRange lastIntYear) : dt.toIntTimeMs =
    some (dt.get .hour * 10000000 + dt.get .minute * 100000 + dt.get .second * 1000 +
      dt.get .millsecond) := by
  obtain ⟨-, -, -, hour, minute, second, millsecond⟩ := inRange.bounds
  simp only [inRange.get_eq] at *
  have hours : FitsInt (dt.member .hour * 10000000) := ⟨by omega, by omega⟩
  have minutes : FitsInt (dt.member .minute * 100000) := ⟨by omega, by omega⟩
  have seconds : FitsInt (dt.member .second * 1000) := ⟨by omega, by omega⟩
  simp only [toIntTimeMs, checkInt_eq hours, checkInt_eq minutes, checkInt_eq seconds, Option.bind_eq_bind,
    Option.bind_some, sumFrom_checkInt_cons, sumFrom_nil]
  exact ⟨⟨by omega, by omega⟩, ⟨by omega, by omega⟩, ⟨by omega, by omega⟩, trivial⟩

/-- The fields down to milliseconds, and what each of them is below. -/
def digits (dt : DateTimeConvert) : List Int :=
  [dt.get .year, dt.get .month, dt.get .day, dt.get .hour, dt.get .minute, dt.get .second,
    dt.get .millsecond]

def bases : List Int := [lastLongYear + 1, 100, 100, 100, 100, 100, 1000]

theorem digits_within (inRange : dt.InRange lastLongYear) : Digits bases dt.digits := by
  obtain ⟨year, month, day, hour, minute, second, millsecond⟩ := inRange.bounds
  refine .cons ⟨by omega, by omega⟩ (.cons ⟨by omega, by omega⟩ (.cons ⟨by omega, by omega⟩
    (.cons ⟨by omega, by omega⟩ (.cons ⟨by omega, by omega⟩ (.cons ⟨by omega, by omega⟩
      (.cons ⟨by omega, by omega⟩ .nil))))))

/-- The encoding of date and time is the number that has the fields for its digits. -/
theorem toLlDatetime_eq (inRange : dt.InRange lastLongYear) :
    dt.toLlDatetime = some (mixedNumber bases dt.digits) := by
  obtain ⟨year, month, day, hour, minute, second, millsecond⟩ := inRange.bounds
  have number : mixedNumber bases dt.digits = dt.get .year * 10000000000000 + dt.get .month * 100000000000 +
      dt.get .day * 1000000000 + dt.get .hour * 10000000 + dt.get .minute * 100000 +
      dt.get .second * 1000 + dt.get .millsecond := by
    simp [mixedNumber, bases, digits, List.prod_cons]
    omega
  rw [number]
  unfold lastLongYear at year
  simp only [inRange.get_eq] at *
  have years : FitsLong (dt.member .year * 10000000000000) := ⟨by omega, by omega⟩
  have months : FitsLong (dt.member .month * 100000000000) := ⟨by omega, by omega⟩
  have days : FitsLong (dt.member .day * 1000000000) := ⟨by omega, by omega⟩
  have hours : FitsInt (dt.member .hour * 10000000) := ⟨by omega, by omega⟩
  have minutes : FitsInt (dt.member .minute * 100000) := ⟨by omega, by omega⟩
  have seconds : FitsInt (dt.member .second * 1000) := ⟨by omega, by omega⟩
  simp only [toLlDatetime, checkLong_eq years, checkLong_eq months, checkLong_eq days, checkInt_eq hours,
    checkInt_eq minutes, checkInt_eq seconds, Option.bind_eq_bind, Option.bind_some]
  rw [sumFrom_cons, sumFrom_cons, sumFrom_cons, sumFrom_cons, sumFrom_cons, sumFrom_cons, sumFrom]
  all_goals exact checkLong_eq ⟨by omega, by omega⟩

theorem intField_of_nonneg {date time : Int} (dates : 0 ≤ date) (times : 0 ≤ time) :
    intField date time .year = date / 10000 ∧ intField date time .month = date % 10000 / 100 ∧
    intField date time .day = date % 100 ∧ intField date time .hour = time / 10000000 ∧
    intField date time .minute = time % 10000000 / 100000 ∧
    intField date time .second = time % 100000 / 1000 ∧ intField date time .millsecond = time % 1000 := by
  have rest (number : Int) {base : Int} (positive : base ≠ 0) : 0 ≤ number % base :=
    Int.emod_nonneg number positive
  simp [intField, Int.tdiv_eq_ediv_of_nonneg dates, Int.tmod_eq_emod_of_nonneg dates,
    Int.tdiv_eq_ediv_of_nonneg times, Int.tmod_eq_emod_of_nonneg times, Int.tdiv_eq_ediv_of_nonneg, rest]

/-- Division and remainder find the fields in the digits of the date and the time. -/
theorem intField_encoded (inRange : dt.InRange lastIntYear) (coarse : field ≠ .microsecond) :
    intField (dt.get .year * 10000 + dt.get .month * 100 + dt.get .day)
      (dt.get .hour * 10000000 + dt.get .minute * 100000 + dt.get .second * 1000 + dt.get .millsecond)
      field = dt.get field := by
  obtain ⟨year, month, day, hour, minute, second, millsecond⟩ := inRange.bounds
  have dates : 0 ≤ dt.get .year * 10000 + dt.get .month * 100 + dt.get .day := by omega
  have times : 0 ≤ dt.get .hour * 10000000 + dt.get .minute * 100000 + dt.get .second * 1000 +
      dt.get .millsecond := by omega
  obtain ⟨isYear, isMonth, isDay, isHour, isMinute, isSecond, isMillsecond⟩ :=
    intField_of_nonneg dates times
  cases field with
  | year => rw [isYear]; omega
  | month => rw [isMonth]; omega
  | day => rw [isDay]; omega
  | hour => rw [isHour]; omega
  | minute => rw [isMinute]; omega
  | second => rw [isSecond]; omega
  | millsecond => rw [isMillsecond]; omega
  | microsecond => contradiction

/-- Decoded in the style with milliseconds, they are the fields of a valid value. -/
theorem fromIntDateTime_encoded (inRange : dt.InRange lastIntYear) (coarse : field ≠ .microsecond) :
    (fromIntDateTime (dt.get .year * 10000 + dt.get .month * 100 + dt.get .day)
      (dt.get .hour * 10000000 + dt.get .minute * 100000 + dt.get .second * 1000 + dt.get .millsecond)
      .ymdhmsM).get field = dt.get field := by
  obtain ⟨back, isBack⟩ : ∃ back, back = fromIntDateTime
    (dt.get .year * 10000 + dt.get .month * 100 + dt.get .day)
    (dt.get .hour * 10000000 + dt.get .minute * 100000 + dt.get .second * 1000 + dt.get .millsecond)
    .ymdhmsM := ⟨_, rfl⟩
  have member {field : Field} (coarse : field ≠ .microsecond) : back.member field = dt.get field := by
    have has : DateTimeStyle.ymdhmsM.has field = true := by
      cases field <;> first | rfl | contradiction
    rw [isBack]
    exact (if_pos has).trans (intField_encoded inRange coarse)
  have microsecond : back.member .microsecond = 0 := by
    rw [isBack]
    rfl
  have checked : back.checkDtValid = true := by
    obtain ⟨year, month, day, hour, minute, second, millsecond⟩ := inRange.bounds
    refine decide_eq_true ?_
    rw [member, member, member, member, member, member, member, microsecond]
    · omega
    all_goals exact Field.noConfusion
  have valid : back.isvalid = true := by
    rw [isBack] at checked ⊢
    exact Bool.and_eq_true_iff.mpr ⟨rfl, checked⟩
  rw [← isBack, get, if_pos valid, member coarse]

/-- In the style down to milliseconds the fields are what the comparison goes by. -/
theorem less_iff_digits (style : dt.style = .ymdhmsM) (style' : other.style = .ymdhmsM) :
    dt.less other = true ↔ dt.digits < other.digits := by
  rw [less_iff, sortKey, sortKey, style, style', List.cons_lt_cons_iff, or_iff_right (Int.lt_irrefl _),
    and_iff_right rfl]
  rfl

theorem digits_inj :
    dt.digits = other.digits ↔ ∀ field : Field, field ≠ .microsecond → dt.get field = other.get field := by
  constructor
  · intro same field coarse
    simp only [digits, List.cons.injEq] at same
    obtain ⟨year, month, day, hour, minute, second, millsecond, -⟩ := same
    cases field <;> first | assumption | contradiction
  · intro same
    simp [digits, same]

/-- The encodings restore what they are made of, and are in the order of the values. -/
theorem int_encoding_restores_and_orders :
    (∀ dt : DateTimeConvert, dt.InRange lastIntYear → ∃ date time, dt.toIntDate = some date ∧
      dt.toIntTimeMs = some time ∧
      ∀ field, field ≠ .microsecond → (fromIntDateTime date time .ymdhmsM).get field = dt.get field) ∧
    ∀ dt other : DateTimeConvert, dt.InRange lastLongYear → other.InRange lastLongYear →
      dt.style = .ymdhmsM → other.style = .ymdhmsM → ∃ number number', dt.toLlDatetime = some number ∧
        other.toLlDatetime = some number' ∧ (dt.less other = true ↔ number < number') ∧
        (number = number' ↔ ∀ field, field ≠ .microsecond → dt.get field = other.get field) := by
  refine ⟨fun dt inRange => ?_, fun dt other inRange inRange' style style' => ?_⟩
  · exact ⟨_, _, toIntDate_eq inRange, toIntTimeMs_eq inRange, fun _ => fromIntDateTime_encoded inRange⟩
  · have within := digits_within inRange
    have within' := digits_within inRange'
    refine ⟨_, _, toLlDatetime_eq inRange, toLlDatetime_eq inRange', ?_, ?_⟩
    · rw [less_iff_digits style style', mixedNumber_lt_iff within within']
    · rw [mixedNumber_inj within within', digits_inj]

/-- The first and the last millisecond of a second. -/
theorem int_encoding_restores_and_orders_2018 :
    let dt (millsecond : Int) : DateTimeConvert :=
      { style := .ymdhmsM, dayOfWeek := .undefine, isvalid := true, member := fun
        | .year => 2018
        | .month => 7
        | .day => 7
        | .hour => 15
        | .minute => 20
        | .second => 0
        | .millsecond => millsecond
        | .microsecond => 0 }
    (∃ date time, (dt 0).toIntDate = some date ∧ (dt 0).toIntTimeMs = some time ∧
      ∀ field, field ≠ .microsecond →
        (fromIntDateTime date time .ymdhmsM).get field = (dt 0).get field) ∧
    ∃ number number', (dt 0).toLlDatetime = some number ∧ (dt 999).toLlDatetime = some number' ∧
      number < number' := by
  intro dt
  have inRange : (dt 0).InRange lastIntYear := fun field => by
    cases field <;> exact ⟨by decide, by decide⟩
  have first : (dt 0).InRange lastLongYear := fun field => by
    cases field <;> exact ⟨by decide, by decide⟩
  have last : (dt 999).InRange lastLongYear := fun field => by
    cases field <;> exact ⟨by decide, by decide⟩
  refine ⟨int_encoding_restores_and_orders.1 (dt 0) inRange, ?_⟩
  obtain ⟨number, number', isNumber, isNumber', less, -⟩ :=
    int_encoding_restores_and_orders.2 (dt 0) (dt 999) first last rfl rfl
  exact ⟨number, number', isNumber, isNumber', less.mp (by decide)⟩

end DateTimeConvert

end BTool.DateTime
