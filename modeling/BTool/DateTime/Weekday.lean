import BTool.DateTime.DateTimeConvert
import BTool.Foundation.Calendar
import BTool.Foundation.SignedArithmetic

/-! The weekday of a date by Kim Larsen's formula, beside the days counted one after the other. -/

namespace BTool.DateTime

open BTool.Foundation

namespace DayOfWeek

/-- The values of the enumerators. -/
def value : DayOfWeek → Int
  | undefine => -1
  | sunday => 0
  | monday => 1
  | tuesday => 2
  | wednesday => 3
  | thursday => 4
  | friday => 5
  | saturday => 6

/-- The cases of `Week`. -/
def ofWeek : Int → DayOfWeek
  | 0 => monday
  | 1 => tuesday
  | 2 => wednesday
  | 3 => thursday
  | 4 => friday
  | 5 => saturday
  | 6 => sunday
  | _ => undefine

end DayOfWeek

/-- January and February as the 13th and the 14th month of the year before. -/
def shiftMonth (y m : Int) : Option (Int × Int) :=
  if m = 1 ∨ m = 2 then (checkInt (y - 1)).map fun y => (y, m + 12) else some (y, m)

/-- The sum of the formula, undefined where a product or a sum in it overflows. -/
def weekSum (y m d : Int) : Option Int := do
  let doubled ← checkInt (2 * m)
  let tripled ← checkInt (3 * (← checkInt (m + 1)))
  sumFrom checkInt d [doubled, tripled.tdiv 5, y, y.tdiv 4, -y.tdiv 100, y.tdiv 400]

def caculateWeekday (y m d : Int) : Option DayOfWeek := do
  let (y, m) ← shiftMonth y m
  let sum ← weekSum y m d
  return .ofWeek (sum.tmod 7)

namespace DateTimeConvert

def isleapyear (dt : DateTimeConvert) : Bool :=
  (dt.member .year).tmod 4 = 0 && ((dt.member .year).tmod 100 ≠ 0 || (dt.member .year).tmod 400 = 0)

def daysOfMonthTable : List Int := [31, 28, 31, 30, 31, 30, 31, 31, 30, 31, 30, 31]

/-- Undefined for a month that is not in the table. -/
def daysOfMonth (dt : DateTimeConvert) : Option Int :=
  if dt.member .month < 1 then some (-1)
  else if dt.member .month = 2 && dt.isleapyear then some 29
  else daysOfMonthTable[(dt.member .month - 1).toNat]?

def setDate (dt : DateTimeConvert) (year month day : Int) : DateTimeConvert :=
  { dt with member := fun
      | .year => year
      | .month => month
      | .day => day
      | field => dt.member field }

/-- The date of the next day, by the days that a month has. -/
def tomorrow (dt : DateTimeConvert) : DateTimeConvert :=
  if dt.daysOfMonth ≠ some (dt.member .day) then
    dt.setDate (dt.member .year) (dt.member .month) (dt.member .day + 1)
  else if dt.member .month < 12 then dt.setDate (dt.member .year) (dt.member .month + 1) 1
  else dt.setDate (dt.member .year + 1) 1 1

/-- The weekday of the date that the members hold. -/
def weekday (dt : DateTimeConvert) : Option DayOfWeek :=
  caculateWeekday (dt.member .year) (dt.member .month) (dt.member .day)

/-- A date of the calendar, from 1900 on. -/
structure IsDate (dt : DateTimeConvert) : Prop where
  year : 1900 ≤ dt.member .year
  month : 1 ≤ dt.member .month ∧ dt.member .month ≤ 12
  day : 1 ≤ dt.member .day ∧ ∃ days, dt.daysOfMonth = some days ∧ dt.member .day ≤ days

def date (dt : DateTimeConvert) : Date := ⟨dt.member .year, dt.member .month, dt.member .day⟩

/-- The largest sum that comes up in the formula is an `int`. -/
def WeekdayFits (dt : DateTimeConvert) : Prop :=
  dt.member .day + 2 * dt.date.marchMonth + 3 * (dt.date.marchMonth + 1) / 5 + dt.date.marchYear +
    dt.date.marchYear / 4 < 2 ^ 31

variable {dt : DateTimeConvert} {year month day : Int}

theorem isleapyear_iff (since : 1900 ≤ dt.member .year) :
    dt.isleapyear = true ↔ Date.LeapYear (dt.member .year) := by
  have positive : 0 ≤ dt.member .year := by omega
  simp [isleapyear, Date.LeapYear, Int.tmod_eq_emod_of_nonneg positive]

theorem daysOfMonth_eq (since : 1900 ≤ dt.member .year) (january : 1 ≤ dt.member .month)
    (december : dt.member .month ≤ 12) :
    dt.daysOfMonth = some (Date.monthLength (dt.member .year) (dt.member .month)) := by
  have leap := isleapyear_iff since
  unfold daysOfMonth Date.monthLength
  rw [if_neg (by omega)]
  obtain is | is | is | is | is | is | is | is | is | is | is | is : dt.member .month = 1 ∨
      dt.member .month = 2 ∨ dt.member .month = 3 ∨ dt.member .month = 4 ∨ dt.member .month = 5 ∨
      dt.member .month = 6 ∨ dt.member .month = 7 ∨ dt.member .month = 8 ∨ dt.member .month = 9 ∨
      dt.member .month = 10 ∨ dt.member .month = 11 ∨ dt.member .month = 12 := by omega
  all_goals simp [is, leap, daysOfMonthTable]
  split <;> rfl

theorem IsDate.valid (isDate : dt.IsDate) : dt.date.Valid := by
  obtain ⟨days, ofMonth, within⟩ := isDate.day.2
  rw [daysOfMonth_eq isDate.year isDate.month.1 isDate.month.2, Option.some.injEq] at ofMonth
  exact ⟨isDate.month, isDate.day.1, ofMonth ▸ within⟩

theorem isDate_of_valid (since : 1900 ≤ dt.member .year) (valid : dt.date.Valid) : dt.IsDate :=
  ⟨since, valid.month, valid.day.1, _, daysOfMonth_eq since valid.month.1 valid.month.2, valid.day.2⟩

theorem date_setDate (dt : DateTimeConvert) (year month day : Int) :
    (dt.setDate year month day).date = ⟨year, month, day⟩ :=
  rfl

theorem setDate_setDate (dt : DateTimeConvert) (year month day year' month' day' : Int) :
    (dt.setDate year month day).setDate year' month' day' = dt.setDate year' month' day' := by
  unfold setDate
  congr 1
  funext field
  cases field <;> rfl

theorem setDate_self (dt : DateTimeConvert) :
    dt.setDate (dt.member .year) (dt.member .month) (dt.member .day) = dt := by
  unfold setDate
  congr 1
  funext field
  cases field <;> rfl

/-- A value with another date. -/
def onDate (dt : DateTimeConvert) (date : Date) : DateTimeConvert :=
  dt.setDate date.year date.month date.day

theorem tomorrow_eq (isDate : dt.IsDate) : dt.tomorrow = dt.onDate dt.date.next := by
  have last := isDate.valid.day.2
  unfold tomorrow
  rw [daysOfMonth_eq isDate.year isDate.month.1 isDate.month.2, Date.next]
  by_cases inside : dt.date.day < Date.monthLength dt.date.year dt.date.month
  · rw [if_pos inside, if_pos]
    · rfl
    · exact fun same => inside.ne' (Option.some.inj same)
  · rw [if_neg inside, if_neg]
    · by_cases before : dt.member .month < 12
      · rw [if_pos before, if_pos (show dt.date.month < 12 from before)]
        rfl
      · rw [if_neg before, if_neg (show ¬dt.date.month < 12 from before)]
        rfl
    · exact not_not.mpr (congrArg some (Int.le_antisymm (Int.not_lt.mp inside) last))

theorem next_year_le {date : Date} : date.year ≤ date.next.year := by
  unfold Date.next
  split
  · exact Int.le_refl _
  · split
    · exact Int.le_refl _
    · exact Int.le_add_one (Int.le_refl _)

theorem IsDate.tomorrow (isDate : dt.IsDate) : dt.tomorrow.IsDate := by
  rw [tomorrow_eq isDate]
  exact isDate_of_valid (Int.le_trans isDate.year next_year_le) isDate.valid.next

theorem date_tomorrow (isDate : dt.IsDate) : dt.tomorrow.date = dt.date.next := by
  rw [tomorrow_eq isDate]
  rfl

/-- Counting the days of a value counts those of its date. -/
theorem tomorrow_iterate (isDate : dt.IsDate) (days : Nat) :
    tomorrow^[days] dt = dt.onDate (Date.next^[days] dt.date) ∧ (tomorrow^[days] dt).IsDate := by
  induction days with
  | zero => exact ⟨(setDate_self dt).symm, isDate⟩
  | succ days ih =>
    obtain ⟨same, date⟩ := ih
    rw [Function.iterate_succ_apply', Function.iterate_succ_apply']
    refine ⟨?_, date.tomorrow⟩
    rw [tomorrow_eq date, same]
    exact setDate_setDate ..

theorem weekSum_eq_some {y m d sum : Int} (since : 1899 ≤ y) (march : 3 ≤ m) (february : m ≤ 14)
    (first : 1 ≤ d) (last : d ≤ 31) : weekSum y m d = some sum ↔
      d + 2 * m + 3 * (m + 1) / 5 + y + y / 4 < 2 ^ 31 ∧
      d + 2 * m + 3 * (m + 1) / 5 + y + y / 4 - y / 100 + y / 400 = sum := by
  have doubled : FitsInt (2 * m) := by unfold FitsInt; omega
  have month : FitsInt (m + 1) := by unfold FitsInt; omega
  have tripled : FitsInt (3 * (m + 1)) := by unfold FitsInt; omega
  have positive : 0 ≤ y := by omega
  simp only [weekSum, checkInt_eq doubled, checkInt_eq month, checkInt_eq tripled, Option.bind_eq_bind,
    Option.bind_some, sumFrom_checkInt_cons, sumFrom_nil, Int.tdiv_eq_ediv_of_nonneg positive,
    Int.tdiv_eq_ediv_of_nonneg (show 0 ≤ 3 * (m + 1) by omega)]
  constructor
  · rintro ⟨-, -, -, ⟨-, largest⟩, -, -, total⟩
    exact ⟨largest, by omega⟩
  · rintro ⟨largest, total⟩
    refine ⟨?_, ?_, ?_, ?_, ?_, ?_, by omega⟩
    all_goals
      unfold FitsInt
      omega

theorem march_bounds (isDate : dt.IsDate) :
    1899 ≤ dt.date.marchYear ∧ 3 ≤ dt.date.marchMonth ∧ dt.date.marchMonth ≤ 14 := by
  have since : 1900 ≤ dt.date.year := isDate.year
  obtain ⟨january, december⟩ : 1 ≤ dt.date.month ∧ dt.date.month ≤ 12 := isDate.month
  unfold Date.marchYear Date.marchMonth
  split <;> omega

theorem day_bounds (isDate : dt.IsDate) : 1 ≤ dt.date.day ∧ dt.date.day ≤ 31 := by
  have last := isDate.valid.day
  unfold Date.monthLength at last
  split at last
  · split at last <;> omega
  · split at last <;> omega

/-- Only the last year there is may be moved out of the integers, for which the sum does not fit
anyway. -/
theorem shiftMonth_eq (isDate : dt.IsDate) :
    shiftMonth (dt.member .year) (dt.member .month) = some (dt.date.marchYear, dt.date.marchMonth) ∨
      shiftMonth (dt.member .year) (dt.member .month) = none ∧ 2 ^ 31 ≤ dt.date.marchYear := by
  have since := isDate.year
  have january := isDate.month.1
  unfold shiftMonth Date.marchYear Date.marchMonth
  by_cases early : dt.member .month ≤ 2
  · rw [if_pos (by omega), if_pos (show dt.date.month ≤ 2 from early),
      if_pos (show dt.date.month ≤ 2 from early), checkInt]
    split
    · exact .inl rfl
    · rename_i unfit
      unfold FitsInt at unfit
      exact .inr ⟨rfl, show 2 ^ 31 ≤ dt.member .year - 1 by omega⟩
  · rw [if_neg (by omega), if_neg (show ¬dt.date.month ≤ 2 from early),
      if_neg (show ¬dt.date.month ≤ 2 from early)]
    exact .inl rfl

/-- A year has 365 days, one more than 52 weeks, and a month has 30, two more than 4 weeks. -/
theorem number_emod (date : Date) : date.number % 7 =
    (date.day + 2 * date.marchMonth + 3 * (date.marchMonth + 1) / 5 + date.marchYear + date.marchYear / 4 -
      date.marchYear / 100 + date.marchYear / 400) % 7 := by
  unfold Date.number Date.leapDays
  omega

/-- The formula is the number of the day, as long as nothing overflows. -/
theorem weekday_eq_some (isDate : dt.IsDate) {day : DayOfWeek} :
    dt.weekday = some day ↔ dt.WeekdayFits ∧ .ofWeek (dt.date.number % 7) = day := by
  obtain ⟨since, march, february⟩ := march_bounds isDate
  obtain ⟨first, last⟩ := day_bounds isDate
  unfold weekday caculateWeekday
  obtain shifted | ⟨shifted, large⟩ := shiftMonth_eq isDate
  · have positive : 0 ≤ dt.date.day + 2 * dt.date.marchMonth + 3 * (dt.date.marchMonth + 1) / 5 +
        dt.date.marchYear + dt.date.marchYear / 4 - dt.date.marchYear / 100 + dt.date.marchYear / 400 := by
      omega
    rw [shifted, number_emod, ← Int.tmod_eq_emod_of_nonneg positive]
    change ((weekSum dt.date.marchYear dt.date.marchMonth dt.date.day).bind fun sum =>
      some (.ofWeek (sum.tmod 7))) = some day ↔ _
    simp only [Option.bind_eq_some_iff, weekSum_eq_some since march february first last, Option.some.injEq]
    constructor
    · rintro ⟨sum, ⟨fits, rfl⟩, isDay⟩
      exact ⟨fits, isDay⟩
    · rintro ⟨fits, isDay⟩
      exact ⟨_, ⟨fits, rfl⟩, isDay⟩
  · rw [shifted]
    refine iff_of_false (fun same => Option.some_ne_none _ same.symm) fun fits => ?_
    have small := fits.1
    unfold WeekdayFits at small
    have first' : 1 ≤ dt.member .day := first
    omega

theorem value_ofWeek {week : Int} (nonneg : 0 ≤ week) (small : week < 7) :
    (DayOfWeek.ofWeek week).value = (week + 1) % 7 := by
  obtain rfl | rfl | rfl | rfl | rfl | rfl | rfl : week = 0 ∨ week = 1 ∨ week = 2 ∨ week = 3 ∨ week = 4 ∨
    week = 5 ∨ week = 6 := by omega
  all_goals rfl

/-- The first of January 1900 was a Monday. -/
theorem number_first : (Date.mk 1900 1 1).number % 7 = 0 := by
  decide

theorem first_valid : (Date.mk 1900 1 1).Valid :=
  ⟨⟨by decide, by decide⟩, by decide, by decide⟩

theorem setDate_isDate (dt : DateTimeConvert) : (dt.setDate 1900 1 1).IsDate :=
  isDate_of_valid (Int.le_refl _) first_valid

/-- From Monday, the first of January 1900, the weekday follows the days of the calendar one by one, up
to the dates for which a sum of the formula is no `int`: for them it is undefined. -/
theorem weekday_counts_days (dt : DateTimeConvert) (isDate : dt.IsDate) :
    (dt.setDate 1900 1 1).weekday = some .monday ∧
    (∃ days, tomorrow^[days] (dt.setDate 1900 1 1) = dt ∧
      ∀ day, dt.weekday = some day → day.value = (1 + days) % 7) ∧
    (∀ day next, dt.weekday = some day → dt.tomorrow.weekday = some next →
      next.value = (day.value + 1) % 7) ∧
    ((∃ day, dt.weekday = some day) ↔ dt.WeekdayFits) := by
  have bounded (dt : DateTimeConvert) : 0 ≤ dt.date.number % 7 ∧ dt.date.number % 7 < 7 := by omega
  refine ⟨?_, ?_, ?_, ?_⟩
  · refine (weekday_eq_some (setDate_isDate dt)).mpr ⟨?_, congrArg DayOfWeek.ofWeek number_first⟩
    exact show (1 : Int) + 2 * 13 + 3 * (13 + 1) / 5 + 1899 + 1899 / 4 < 2 ^ 31 by decide
  · obtain ⟨days, reached⟩ := isDate.valid.reached isDate.year
    refine ⟨days, ?_, ?_⟩
    · rw [(tomorrow_iterate (setDate_isDate dt) days).1, date_setDate, reached]
      exact (setDate_setDate ..).trans (setDate_self dt)
    · intro day today
      obtain ⟨-, rfl⟩ := (weekday_eq_some isDate).mp today
      have counted := Date.number_iterate first_valid days
      have monday := number_first
      rw [reached] at counted
      rw [value_ofWeek (bounded _).1 (bounded _).2]
      omega
  · intro day next today after
    obtain ⟨-, rfl⟩ := (weekday_eq_some isDate).mp today
    obtain ⟨-, rfl⟩ := (weekday_eq_some isDate.tomorrow).mp after
    rw [value_ofWeek (bounded _).1 (bounded _).2, value_ofWeek (bounded _).1 (bounded _).2,
      date_tomorrow isDate, Date.number_next isDate.valid]
    omega
  · constructor
    · rintro ⟨day, today⟩
      exact ((weekday_eq_some isDate).mp today).1
    · intro fits
      exact ⟨_, (weekday_eq_some isDate).mpr ⟨fits, rfl⟩⟩

/-- The 28th of February 2024, after which the leap day comes. -/
theorem weekday_counts_days_leap :
    let dt := construct.setDate 2024 2 28
    (dt.setDate 1900 1 1).weekday = some .monday ∧
    (∃ days, tomorrow^[days] (dt.setDate 1900 1 1) = dt ∧
      ∀ day, dt.weekday = some day → day.value = (1 + days) % 7) ∧
    (∀ day next, dt.weekday = some day → dt.tomorrow.weekday = some next →
      next.value = (day.value + 1) % 7) ∧
    ((∃ day, dt.weekday = some day) ↔ dt.WeekdayFits) :=
  weekday_counts_days _ ⟨by decide, by decide, by decide, 29, by decide, by decide⟩

/-- In the last year that an `int` holds the sum of the formula overflows. -/
theorem last_year_overflows : ∃ dt : DateTimeConvert,
    dt.IsDate ∧ dt.member .year < 2 ^ 31 ∧ dt.weekday = none := by
  refine ⟨construct.setDate (2 ^ 31 - 1) 12 31, ⟨by decide, by decide, by decide, 31, by decide, by decide⟩,
    by decide, by decide⟩

end DateTimeConvert

end BTool.DateTime
