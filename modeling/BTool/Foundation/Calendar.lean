import Mathlib.Algebra.Order.Group.Int
import Mathlib.Logic.Function.Iterate

/-! The Gregorian calendar: months, leap years, the day after a day, and the number of a day. -/

namespace BTool.Foundation

structure Date where
  year : Int
  month : Int
  day : Int
deriving DecidableEq

namespace Date

def LeapYear (year : Int) : Prop := year % 4 = 0 ∧ (year % 100 ≠ 0 ∨ year % 400 = 0)

instance (year : Int) : Decidable (LeapYear year) := inferInstanceAs (Decidable (_ ∧ _))

def monthLength (year month : Int) : Int :=
  if month = 2 then if LeapYear year then 29 else 28
  else if month = 4 ∨ month = 6 ∨ month = 9 ∨ month = 11 then 30 else 31

structure Valid (date : Date) : Prop where
  month : 1 ≤ date.month ∧ date.month ≤ 12
  day : 1 ≤ date.day ∧ date.day ≤ monthLength date.year date.month

/-- The day after. -/
def next (date : Date) : Date :=
  if date.day < monthLength date.year date.month then ⟨date.year, date.month, date.day + 1⟩
  else if date.month < 12 then ⟨date.year, date.month + 1, 1⟩
  else ⟨date.year + 1, 1, 1⟩

/-- The year of a date where a year ends with February. -/
def marchYear (date : Date) : Int := if date.month ≤ 2 then date.year - 1 else date.year

/-- The month of a date where January and February are the 13th and the 14th of the year before. -/
def marchMonth (date : Date) : Int := if date.month ≤ 2 then date.month + 12 else date.month

/-- The leap days of the years up to one. -/
def leapDays (year : Int) : Int := year / 4 - year / 100 + year / 400

/-- The days up to a date, from some day on that is the same for all of them. -/
def number (date : Date) : Int :=
  365 * date.marchYear + leapDays date.marchYear + 30 * date.marchMonth + 3 * (date.marchMonth + 1) / 5 +
    date.day

variable {date : Date} {year month day : Int}

theorem monthLength_pos : 1 ≤ monthLength year month := by
  unfold monthLength
  split <;> split <;> decide

theorem monthLength_february : monthLength year 2 = if LeapYear year then 29 else 28 :=
  if_pos rfl

theorem next_of_lt (inside : day < monthLength year month) :
    next ⟨year, month, day⟩ = ⟨year, month, day + 1⟩ :=
  if_pos inside

theorem next_of_month_end (before : month < 12) :
    next ⟨year, month, monthLength year month⟩ = ⟨year, month + 1, 1⟩ := by
  rw [next, if_neg (Int.lt_irrefl _), if_pos before]

theorem next_of_year_end : next ⟨year, 12, monthLength year 12⟩ = ⟨year + 1, 1, 1⟩ := by
  rw [next, if_neg (Int.lt_irrefl _), if_neg (Int.lt_irrefl _)]

/-- A valid date is inside its month, at the end of a month, or at the end of a year. -/
theorem Valid.cases (valid : date.Valid) :
    (∃ year month day, 1 ≤ month ∧ month ≤ 12 ∧ 1 ≤ day ∧ day < monthLength year month ∧
      date = ⟨year, month, day⟩) ∨
    (∃ year month, 1 ≤ month ∧ month < 12 ∧ date = ⟨year, month, monthLength year month⟩) ∨
    ∃ year, date = ⟨year, 12, monthLength year 12⟩ := by
  obtain ⟨year, month, day⟩ := date
  obtain ⟨⟨january, december⟩, first, last⟩ := valid
  simp only at january december first last
  obtain before | rfl := Int.lt_or_eq_of_le last
  · exact .inl ⟨year, month, day, january, december, first, before, rfl⟩
  · obtain before | rfl := Int.lt_or_eq_of_le december
    · exact .inr (.inl ⟨year, month, january, before, rfl⟩)
    · exact .inr (.inr ⟨year, rfl⟩)

theorem Valid.next (valid : date.Valid) : date.next.Valid := by
  obtain ⟨year, month, day, january, december, first, inside, rfl⟩ | ⟨year, month, january, before, rfl⟩ |
    ⟨year, rfl⟩ := valid.cases
  · rw [next_of_lt inside]
    exact ⟨⟨january, december⟩, Int.le_add_one first, inside⟩
  · rw [next_of_month_end before]
    exact ⟨⟨Int.le_add_one january, before⟩, Int.le_refl 1, monthLength_pos⟩
  · rw [next_of_year_end]
    exact ⟨⟨Int.le_refl 1, show (1 : Int) ≤ 12 by decide⟩, Int.le_refl 1, monthLength_pos⟩

theorem leapDays_pred (year : Int) :
    leapDays year = leapDays (year - 1) + if LeapYear year then 1 else 0 := by
  by_cases leap : LeapYear year
  · rw [if_pos leap]
    unfold LeapYear at leap
    unfold leapDays
    omega
  · rw [if_neg leap]
    unfold LeapYear at leap
    unfold leapDays
    omega

theorem number_of_le (early : month ≤ 2) : number ⟨year, month, day⟩ =
    365 * (year - 1) + leapDays (year - 1) + 30 * (month + 12) + 3 * (month + 13) / 5 + day := by
  simp [number, marchYear, marchMonth, early, Int.add_assoc]

theorem number_of_gt (late : 2 < month) : number ⟨year, month, day⟩ =
    365 * year + leapDays year + 30 * month + 3 * (month + 1) / 5 + day := by
  simp [number, marchYear, marchMonth, late.not_ge]

theorem number_add_day : number ⟨year, month, day + 1⟩ = number ⟨year, month, day⟩ + 1 := by
  simp only [number, marchYear, marchMonth]
  omega

theorem number_month_end (january : 1 ≤ month) (before : month < 12) :
    number ⟨year, month + 1, 1⟩ = number ⟨year, month, monthLength year month⟩ + 1 := by
  obtain rfl | rfl | late : month = 1 ∨ month = 2 ∨ 2 < month := by omega
  · rw [number_of_le (by decide), number_of_le (by decide)]
    exact show _ + 30 * 14 + 9 + 1 = _ + 30 * 13 + 8 + 31 + 1 by omega
  · have leap := leapDays_pred year
    rw [number_of_gt (by decide), number_of_le (by decide), monthLength_february, leap]
    split <;> omega
  · rw [number_of_gt late, number_of_gt (by omega), monthLength, if_neg (by omega)]
    obtain rfl | rfl | rfl | rfl | rfl | rfl | rfl | rfl | rfl : month = 3 ∨ month = 4 ∨ month = 5 ∨
      month = 6 ∨ month = 7 ∨ month = 8 ∨ month = 9 ∨ month = 10 ∨ month = 11 := by omega
    all_goals
      simp only [Int.reduceEq, false_or, or_false, or_self, if_true, if_false]
      omega

theorem number_year_end :
    number ⟨year + 1, 1, 1⟩ = number ⟨year, 12, monthLength year 12⟩ + 1 := by
  rw [number_of_le (by decide), number_of_gt (by decide), Int.add_sub_cancel]
  exact show _ + 30 * 13 + 8 + 1 = _ + 30 * 12 + 7 + 31 + 1 by omega

theorem number_next (valid : date.Valid) : date.next.number = date.number + 1 := by
  obtain ⟨year, month, day, -, -, -, inside, rfl⟩ | ⟨year, month, january, before, rfl⟩ | ⟨year, rfl⟩ :=
    valid.cases
  · rw [next_of_lt inside, number_add_day]
  · rw [next_of_month_end before, number_month_end january before]
  · rw [next_of_year_end, number_year_end]

theorem Valid.iterate (valid : date.Valid) (days : Nat) : (Date.next^[days] date).Valid := by
  induction days with
  | zero => exact valid
  | succ days ih =>
    rw [Function.iterate_succ_apply']
    exact ih.next

theorem number_iterate (valid : date.Valid) (days : Nat) :
    (Date.next^[days] date).number = date.number + days := by
  induction days with
  | zero => simp
  | succ days ih =>
    rw [Function.iterate_succ_apply', number_next (valid.iterate days), ih]
    push_cast
    omega

/-- Day after day from one date to another. -/
def Reaches (date later : Date) : Prop :=
  ∃ days, Date.next^[days] date = later

variable {later : Date} {since : Int}

theorem Reaches.next (reaches : Reaches date later) : Reaches date later.next := by
  obtain ⟨days, rfl⟩ := reaches
  exact ⟨days + 1, Function.iterate_succ_apply' _ _ _⟩

theorem Reaches.inMonth (reaches : Reaches date ⟨year, month, 1⟩) (first : 1 ≤ day)
    (last : day ≤ monthLength year month) : Reaches date ⟨year, month, day⟩ := by
  induction day, first using Int.leInduction with
  | base => exact reaches
  | succ day first ih =>
    have before := (ih (by omega)).next
    rwa [next_of_lt (by omega)] at before

theorem Reaches.inYear (reaches : Reaches date ⟨year, 1, 1⟩) (january : 1 ≤ month) (december : month ≤ 12) :
    Reaches date ⟨year, month, 1⟩ := by
  induction month, january using Int.leInduction with
  | base => exact reaches
  | succ month january ih =>
    have before := ((ih (by omega)).inMonth monthLength_pos (Int.le_refl _)).next
    rwa [next_of_month_end (by omega)] at before

theorem reaches_year (after : since ≤ year) : Reaches ⟨since, 1, 1⟩ ⟨year, 1, 1⟩ := by
  induction year, after using Int.leInduction with
  | base => exact ⟨0, rfl⟩
  | succ year after ih =>
    have december : Reaches ⟨since, 1, 1⟩ ⟨year, 12, 1⟩ := ih.inYear (by decide) (Int.le_refl 12)
    have before := (december.inMonth monthLength_pos (Int.le_refl _)).next
    rwa [next_of_year_end] at before

/-- Every date is so many days after the first day of an earlier year. -/
theorem Valid.reached (valid : date.Valid) (after : since ≤ date.year) : Reaches ⟨since, 1, 1⟩ date :=
  ((reaches_year after).inYear valid.month.1 valid.month.2).inMonth valid.day.1 valid.day.2

end Date

end BTool.Foundation
