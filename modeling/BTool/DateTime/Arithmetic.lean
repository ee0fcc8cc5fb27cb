import BTool.DateTime.Weekday

/-! Days, seconds and milliseconds added to a value, and the microseconds between two values. The times
of the system clock and the amounts do not leave their 64 bits. -/

namespace BTool.DateTime

open BTool.Foundation

/-- The fields of `std::tm` that the class uses. -/
structure Tm where
  year : Int
  mon : Int
  mday : Int
  hour : Int
  min : Int
  sec : Int
  wday : DayOfWeek
  isdst : Int

/-- The local time of a time, and back. -/
structure Clock where
  localtime : Int → Tm
  mktime : Tm → Int

/-- `mktime` takes back what `localtime` does, whatever the weekday, and finds out about
daylight-saving time by itself. -/
structure Clock.Lawful (clock : Clock) : Prop where
  inverse : ∀ time wday, clock.mktime { clock.localtime time with wday, isdst := -1 } = time
  month : ∀ time, 0 ≤ (clock.localtime time).year → 0 ≤ (clock.localtime time).mon
  day : ∀ time, 0 ≤ (clock.localtime time).year → 1 ≤ (clock.localtime time).mday
  time : ∀ time, 0 ≤ (clock.localtime time).year → 0 ≤ (clock.localtime time).hour ∧
    0 ≤ (clock.localtime time).min ∧ 0 ≤ (clock.localtime time).sec
  weekday : ∀ time, 0 ≤ (clock.localtime time).year → (clock.localtime time).wday ≠ .undefine

namespace DateTimeConvert

/-- What `FromStdTm` takes for a field that the style has. -/
def tmField (tm : Tm) (millsecond microsecond : Int) : Field → Int
  | .year => tm.year + 1900
  | .month => tm.mon + 1
  | .day => tm.mday
  | .hour => tm.hour
  | .minute => tm.min
  | .second => tm.sec
  | .millsecond => millsecond
  | .microsecond => microsecond

/-- Milliseconds and microseconds are taken whether or not the style has them. -/
def fromStdTm (tm : Tm) (style : DateTimeStyle) (millsecond microsecond : Int) : DateTimeConvert :=
  let member (field : Field) : Int :=
    if style.has field || field = .millsecond || field = .microsecond then
      tmField tm millsecond microsecond field
    else initial field
  let ret : DateTimeConvert := { style, dayOfWeek := tm.wday, isvalid := style != .invlid, member }
  { ret with isvalid := ret.isvalid && ret.dayOfWeek != .undefine && ret.checkDtValid }

def fromStdTime (clock : Clock) (dt : Int) (style : DateTimeStyle) (millsecond microsecond : Int) :
    DateTimeConvert :=
  fromStdTm (clock.localtime dt) style millsecond microsecond

def toTm (dt : DateTimeConvert) : Tm :=
  { year := dt.member .year - 1900, mon := dt.member .month - 1, mday := dt.member .day,
    hour := dt.member .hour, min := dt.member .minute, sec := dt.member .second, wday := dt.dayOfWeek,
    isdst := -1 }

def toTimeT (clock : Clock) (dt : DateTimeConvert) : Int :=
  clock.mktime dt.toTm

def getAddSecond (clock : Clock) (dt : DateTimeConvert) (secs : Int) : DateTimeConvert :=
  if !dt.isvalid then construct else fromStdTime clock (dt.toTimeT clock + secs) dt.style 0 0

/-- Undefined where the product overflows an `int`. -/
def getAddDate (clock : Clock) (dt : DateTimeConvert) (days : Int) : Option DateTimeConvert :=
  if !dt.isvalid || dt.style &&& .ymd != .ymd then some construct
  else do
    let hours ← checkInt (days * 24)
    let minutes ← checkInt (hours * 60)
    let secs ← checkInt (minutes * 60)
    return dt.getAddSecond clock secs

def getAddMillsecond (clock : Clock) (dt : DateTimeConvert) (millsecs : Int) : DateTimeConvert :=
  if !dt.isvalid then construct
  else
    let resMillsec := narrowInt (millsecs + dt.member .millsecond)
    let secs := resMillsec.tdiv 1000
    let millsecs := narrowInt (millsecs.tmod 1000)
    fromStdTime clock (dt.toTimeT clock + secs) dt.style millsecs 0

/-- The seconds of the hours, minutes and seconds. -/
def secondsOfDay (dt : DateTimeConvert) : Option Int := do
  let hours ← checkInt ((← checkInt (dt.member .hour * 60)) * 60)
  let minutes ← checkInt (dt.member .minute * 60)
  sumFrom checkInt hours [minutes, dt.member .second]

/-- The microseconds between two values with so many seconds. -/
def microsecondsBetween (dt rightDt : DateTimeConvert) (seconds rightSeconds : Int) : Option Int := do
  let millseconds ← checkInt (dt.member .millsecond * 1000)
  let rightMillseconds ← checkInt (rightDt.member .millsecond * 1000)
  return seconds * 1000 * 1000 + millseconds + dt.member .microsecond - rightSeconds * 1000 * 1000 -
    rightMillseconds - rightDt.member .microsecond

/-- `operator-`: nothing where it throws, or where a product overflows an `int`. -/
def sub (clock : Clock) (dt rightDt : DateTimeConvert) : Option Int :=
  if !dt.isvalid || !rightDt.isvalid || dt.style != rightDt.style then none
  else if dt.style &&& .ymd = .ymd then
    microsecondsBetween dt rightDt (dt.toTimeT clock) (rightDt.toTimeT clock)
  else if dt.style &&& .hms = .hms then do
    microsecondsBetween dt rightDt (← dt.secondsOfDay) (← rightDt.secondsOfDay)
  else microsecondsBetween dt rightDt (dt.toTimeT clock) (rightDt.toTimeT clock)

/-- What a value has above whole seconds, in microseconds. -/
def fraction (dt : DateTimeConvert) : Int :=
  dt.member .millsecond * 1000 + dt.member .microsecond

/-- The time that is so many microseconds later is one of 1900 or later. -/
def Representable (clock : Clock) (dt : DateTimeConvert) (microseconds : Int) : Prop :=
  0 ≤ (clock.localtime ((dt.toTimeT clock * 10 ^ 6 + dt.fraction + microseconds) / 10 ^ 6)).year

instance (clock : Clock) (dt : DateTimeConvert) (microseconds : Int) :
    Decidable (Representable clock dt microseconds) :=
  inferInstanceAs (Decidable (_ ≤ _))

/-- There is nothing above whole seconds. -/
def WholeSecond (dt : DateTimeConvert) : Prop :=
  FitsInt (dt.member .millsecond * 1000) ∧ dt.fraction = 0

instance (dt : DateTimeConvert) : Decidable dt.WholeSecond :=
  inferInstanceAs (Decidable (_ ∧ _))

/-- The carry from the milliseconds is what there is above whole seconds, and the milliseconds that are
left of the amount are not negative. -/
def MillsecondCarries (dt : DateTimeConvert) (millsecs : Int) : Prop :=
  FitsInt (dt.member .millsecond * 1000) ∧ FitsInt (millsecs + dt.member .millsecond) ∧
    (0 ≤ millsecs ∨ 1000 ∣ millsecs) ∧
    ((millsecs + dt.member .millsecond).tdiv 1000 - millsecs.tdiv 1000) * 10 ^ 6 = dt.fraction

/-- A valid value with the date and the time down to milliseconds. -/
structure HasTime (dt : DateTimeConvert) : Prop where
  isvalid : dt.isvalid = true
  style : dt.style &&& .ymdhmsM = .ymdhmsM
  ints : ∀ field, FitsInt (dt.member field)

section

variable {clock : Clock} {dt : DateTimeConvert} {time millsecond secs millsecs days difference : Int}

theorem HasTime.has (hasTime : HasTime dt) {field : Field} (coarse : field ≠ .microsecond) :
    dt.style.has field = true := by
  refine DateTimeStyle.has_of_land hasTime.style ?_
  cases field <;> first | rfl | contradiction

theorem HasTime.ymd (hasTime : HasTime dt) : dt.style &&& .ymd = .ymd := by
  have covers : DateTimeStyle.ymdhmsM &&& .ymd = .ymd := rfl
  rw [← covers, ← UInt8.and_assoc, hasTime.style]

/-- The fields that a time of the clock gives a style with the date and the time. -/
theorem member_fromStdTime (hasTime : HasTime dt) (field : Field) :
    (fromStdTime clock time dt.style millsecond 0).member field =
      tmField (clock.localtime time) millsecond 0 field := by
  by_cases coarse : field = .microsecond
  · subst coarse
    exact if_pos (by simp)
  · refine if_pos ?_
    rw [hasTime.has coarse]
    rfl

theorem toTimeT_fromStdTime (lawful : clock.Lawful) (hasTime : HasTime dt) :
    (fromStdTime clock time dt.style millsecond 0).toTimeT clock = time := by
  have tm : (fromStdTime clock time dt.style millsecond 0).toTm =
      { clock.localtime time with isdst := -1 } := by
    simp [toTm, member_fromStdTime hasTime, tmField]
    rfl
  rw [toTimeT, tm]
  exact lawful.inverse time _

theorem checkDtValid_fromStdTime (lawful : clock.Lawful) (hasTime : HasTime dt) :
    (fromStdTime clock time dt.style millsecond 0).checkDtValid = true ↔
      0 ≤ (clock.localtime time).year ∧ 0 ≤ millsecond := by
  rw [checkDtValid, decide_eq_true_iff]
  simp only [member_fromStdTime hasTime, tmField]
  constructor
  · rintro ⟨year, _, _, _, _, _, millsecond, _⟩
    exact ⟨by omega, millsecond⟩
  · rintro ⟨year, millsecond⟩
    have month := lawful.month time year
    have day := lawful.day time year
    obtain ⟨hour, minute, second⟩ := lawful.time time year
    omega

theorem isvalid_fromStdTime (lawful : clock.Lawful) (hasTime : HasTime dt) :
    (fromStdTime clock time dt.style millsecond 0).isvalid = true ↔
      0 ≤ (clock.localtime time).year ∧ 0 ≤ millsecond := by
  have split : (fromStdTime clock time dt.style millsecond 0).isvalid =
      ((dt.style != .invlid && (clock.localtime time).wday != .undefine) &&
        (fromStdTime clock time dt.style millsecond 0).checkDtValid) := rfl
  rw [split, Bool.and_eq_true, Bool.and_eq_true, bne_iff_ne, bne_iff_ne,
    checkDtValid_fromStdTime lawful hasTime]
  constructor
  · rintro ⟨_, valid⟩
    exact valid
  · intro valid
    refine ⟨⟨fun invlid => ?_, lawful.weekday time valid.1⟩, valid⟩
    have style := hasTime.style
    rw [invlid] at style
    contradiction

theorem sub_fromStdTime (lawful : clock.Lawful) (hasTime : HasTime dt) :
    (fromStdTime clock time dt.style millsecond 0).sub clock dt = some difference ↔
      (0 ≤ (clock.localtime time).year ∧ 0 ≤ millsecond) ∧ FitsInt (millsecond * 1000) ∧
      FitsInt (dt.member .millsecond * 1000) ∧
      time * 10 ^ 6 + millsecond * 1000 - (dt.toTimeT clock * 10 ^ 6 + dt.fraction) = difference := by
  rw [← isvalid_fromStdTime lawful hasTime]
  by_cases valid : (fromStdTime clock time dt.style millsecond 0).isvalid = true
  · have style : (fromStdTime clock time dt.style millsecond 0).style = dt.style := rfl
    rw [sub, valid, hasTime.isvalid, style, hasTime.ymd]
    simp [microsecondsBetween, Option.bind_eq_some_iff, toTimeT_fromStdTime lawful hasTime,
      member_fromStdTime hasTime, tmField, fraction]
    intro _ _
    omega
  · rw [sub]
    simp [valid]

/-- So many microseconds later there is a second of the clock and so many milliseconds. -/
theorem Representable.year {microseconds : Int} (representable : Representable clock dt microseconds)
    (time millsecond : Int) (nonneg : 0 ≤ millsecond) (small : millsecond < 1000)
    (whole : dt.toTimeT clock * 10 ^ 6 + dt.fraction + microseconds = time * 10 ^ 6 + millsecond * 1000) :
    0 ≤ (clock.localtime time).year := by
  have second : (time * 10 ^ 6 + millsecond * 1000) / 10 ^ 6 = time := by omega
  rwa [Representable, whole, second] at representable

theorem getAddSecond_iff (lawful : clock.Lawful) (hasTime : HasTime dt)
    (representable : Representable clock dt (secs * 10 ^ 6)) :
    (dt.getAddSecond clock secs).sub clock dt = some (secs * 10 ^ 6) ↔ dt.WholeSecond := by
  have later : dt.getAddSecond clock secs = fromStdTime clock (dt.toTimeT clock + secs) dt.style 0 0 := by
    simp [getAddSecond, hasTime.isvalid]
  rw [later, sub_fromStdTime lawful hasTime, WholeSecond]
  constructor
  · rintro ⟨-, -, fits, same⟩
    exact ⟨fits, by omega⟩
  · rintro ⟨fits, whole⟩
    have year := representable.year (dt.toTimeT clock + secs) 0 (by decide) (by decide) (by omega)
    exact ⟨⟨year, Int.le_refl 0⟩, by decide, fits, by omega⟩

theorem getAddDate_eq (hasTime : HasTime dt) (days : Int) : dt.getAddDate clock days =
    if FitsInt (days * 24 * 60 * 60) then some (dt.getAddSecond clock (days * 24 * 60 * 60)) else none := by
  rw [getAddDate, hasTime.isvalid, hasTime.ymd]
  by_cases fits : FitsInt (days * 24 * 60 * 60)
  · have hours : FitsInt (days * 24) := by unfold FitsInt at *; omega
    have minutes : FitsInt (days * 24 * 60) := by unfold FitsInt at *; omega
    simp [checkInt_eq hours, checkInt_eq minutes, checkInt_eq fits, fits]
  · have undefined : checkInt (days * 24 * 60 * 60) = none := if_neg fits
    rw [if_neg fits]
    by_cases hours : FitsInt (days * 24)
    · by_cases minutes : FitsInt (days * 24 * 60)
      · simp [checkInt_eq hours, checkInt_eq minutes, undefined]
      · simp [checkInt, minutes]
    · simp [checkInt, hours]

theorem getAddDate_iff (lawful : clock.Lawful) (hasTime : HasTime dt)
    (representable : Representable clock dt (days * 86400 * 10 ^ 6)) :
    ((dt.getAddDate clock days).bind fun later => later.sub clock dt) = some (days * 86400 * 10 ^ 6) ↔
      dt.WholeSecond ∧ FitsInt (days * 24 * 60 * 60) := by
  have seconds : days * 86400 = days * 24 * 60 * 60 := by omega
  rw [getAddDate_eq hasTime]
  split
  · rename_i fits
    rw [seconds] at representable ⊢
    rw [Option.bind_some, getAddSecond_iff lawful hasTime representable, and_iff_left fits]
  · rename_i unfit
    exact iff_of_false (Option.some_ne_none _ ·.symm) fun both => unfit both.2

/-- What is left of an amount is negative for a negative amount that leaves something. -/
theorem tmod_nonneg_iff : 0 ≤ millsecs.tmod 1000 ↔ 0 ≤ millsecs ∨ 1000 ∣ millsecs := by
  have parts := Int.mul_tdiv_add_tmod millsecs 1000
  obtain ⟨nonneg, quotient⟩ | ⟨negative, quotient⟩ := tdiv_cases millsecs 1000 <;> omega

theorem getAddMillsecond_iff (lawful : clock.Lawful) (hasTime : HasTime dt)
    (representable : Representable clock dt (millsecs * 10 ^ 3)) :
    (dt.getAddMillsecond clock millsecs).sub clock dt = some (millsecs * 10 ^ 3) ↔
      dt.MillsecondCarries millsecs := by
  have parts := Int.mul_tdiv_add_tmod millsecs 1000
  have quotient := tdiv_cases millsecs 1000
  have left : FitsInt (millsecs.tmod 1000) := by unfold FitsInt; omega
  have later : dt.getAddMillsecond clock millsecs = fromStdTime clock
      (dt.toTimeT clock + (narrowInt (millsecs + dt.member .millsecond)).tdiv 1000) dt.style
      (millsecs.tmod 1000) 0 := by
    simp [getAddMillsecond, hasTime.isvalid, narrowInt_eq left]
  rw [later, sub_fromStdTime lawful hasTime, MillsecondCarries, ← tmod_nonneg_iff]
  constructor
  · rintro ⟨⟨-, nonneg⟩, -, fits, same⟩
    have small := hasTime.ints .microsecond
    have inside : FitsInt (millsecs + dt.member .millsecond) := by
      have narrow := narrowInt_fits (millsecs + dt.member .millsecond)
      have carried := tdiv_cases (narrowInt (millsecs + dt.member .millsecond)) 1000
      obtain ⟨rounds, wraps⟩ := exists_narrowInt (millsecs + dt.member .millsecond)
      unfold FitsInt fraction at *
      omega
    rw [narrowInt_eq inside] at same
    exact ⟨fits, inside, nonneg, by omega⟩
  · rintro ⟨fits, inside, nonneg, carries⟩
    rw [narrowInt_eq inside]
    have year := representable.year
      (dt.toTimeT clock + (millsecs + dt.member .millsecond).tdiv 1000) (millsecs.tmod 1000) nonneg
      (by omega) (by omega)
    refine ⟨⟨year, nonneg⟩, ?_, fits, by omega⟩
    unfold FitsInt
    omega

/-- The sums are exact for every amount just if nothing that they leave out is there. -/
theorem additions_exact_iff (lawful : clock.Lawful) (hasTime : HasTime dt) :
    (∀ secs, Representable clock dt (secs * 10 ^ 6) →
      ((dt.getAddSecond clock secs).sub clock dt = some (secs * 10 ^ 6) ↔ dt.WholeSecond)) ∧
    (∀ millsecs, Representable clock dt (millsecs * 10 ^ 3) →
      ((dt.getAddMillsecond clock millsecs).sub clock dt = some (millsecs * 10 ^ 3) ↔
        dt.MillsecondCarries millsecs)) ∧
    ∀ days, Representable clock dt (days * 86400 * 10 ^ 6) →
      (((dt.getAddDate clock days).bind fun later => later.sub clock dt) =
        some (days * 86400 * 10 ^ 6) ↔ dt.WholeSecond ∧ FitsInt (days * 24 * 60 * 60)) :=
  ⟨fun _ => getAddSecond_iff lawful hasTime, fun _ => getAddMillsecond_iff lawful hasTime,
    fun _ => getAddDate_iff lawful hasTime⟩

/-- Below a second there are at most 999 milliseconds and 999 microseconds. -/
structure Normal (dt : DateTimeConvert) : Prop where
  millsecond : 0 ≤ dt.member .millsecond ∧ dt.member .millsecond < 1000
  microsecond : 0 ≤ dt.member .microsecond ∧ dt.member .microsecond < 1000

theorem Normal.wholeSecond_iff (normal : dt.Normal) :
    dt.WholeSecond ↔ dt.member .millsecond = 0 ∧ dt.member .microsecond = 0 := by
  have millsecond := normal.millsecond
  have microsecond := normal.microsecond
  unfold WholeSecond FitsInt fraction
  omega

theorem Normal.millsecondCarries_iff (normal : dt.Normal) : dt.MillsecondCarries millsecs ↔
    dt.WholeSecond ∧ FitsInt millsecs ∧ (0 ≤ millsecs ∨ 1000 ∣ millsecs) := by
  have millsecond := normal.millsecond
  have microsecond := normal.microsecond
  have quotient := tdiv_cases millsecs 1000
  have carried := tdiv_cases (millsecs + dt.member .millsecond) 1000
  rw [normal.wholeSecond_iff]
  unfold MillsecondCarries FitsInt fraction
  constructor
  · rintro ⟨-, inside, exact, carries⟩
    have nothing : dt.member .millsecond = 0 ∧ dt.member .microsecond = 0 := by omega
    rw [nothing.1, Int.add_zero] at inside
    exact ⟨nothing, inside, exact⟩
  · rintro ⟨⟨noMillsecond, noMicrosecond⟩, inside, exact⟩
    rw [noMillsecond, noMicrosecond, Int.add_zero, Int.sub_self]
    exact ⟨by decide, inside, exact, rfl⟩

end

end DateTimeConvert

/-- The date so many days after the first of January 1900. An earlier one is a day of December 1899,
with a number below one. -/
def dateOf (days : Int) : Date :=
  if 0 ≤ days then Date.next^[days.toNat] ⟨1900, 1, 1⟩ else ⟨1899, 12, 32 + days⟩

/-- A clock that shows the time of Greenwich. -/
def utc : Clock where
  localtime time :=
    let date := dateOf (time / 86400 + 25567)
    { year := date.year - 1900, mon := date.month - 1, mday := date.day, hour := time % 86400 / 3600,
      min := time % 3600 / 60, sec := time % 60, wday := .ofWeek (date.number % 7), isdst := 0 }
  mktime tm :=
    ((Date.mk (tm.year + 1900) (tm.mon + 1) tm.mday).number - (Date.mk 1970 1 1).number) * 86400 +
      tm.hour * 3600 + tm.min * 60 + tm.sec

theorem number_dateOf (days : Int) : (dateOf days).number = (Date.mk 1900 1 1).number + days := by
  unfold dateOf
  split
  · rename_i after
    rw [Date.number_iterate DateTimeConvert.first_valid, Int.toNat_of_nonneg after]
  · rw [Date.number_of_gt (by decide)]
    have last : 365 * 1899 + Date.leapDays 1899 + 30 * 12 + 3 * (12 + 1) / 5 + 32 =
        (Date.mk 1900 1 1).number := by decide
    omega

theorem valid_dateOf {days : Int} (since : 1900 ≤ (dateOf days).year) : (dateOf days).Valid := by
  unfold dateOf at since ⊢
  split at since
  · rename_i after
    rw [if_pos after]
    exact DateTimeConvert.first_valid.iterate _
  · contradiction

theorem utc_lawful : utc.Lawful where
  inverse time wday := by
    have number := number_dateOf (time / 86400 + 25567)
    have epoch : (Date.mk 1970 1 1).number = (Date.mk 1900 1 1).number + 25567 := by decide
    have date : (Date.mk ((dateOf (time / 86400 + 25567)).year - 1900 + 1900)
        ((dateOf (time / 86400 + 25567)).month - 1 + 1) (dateOf (time / 86400 + 25567)).day).number =
        (dateOf (time / 86400 + 25567)).number := by
      rw [Int.sub_add_cancel, Int.sub_add_cancel]
    simp only [utc]
    rw [date]
    omega
  month time since := by
    have year : 1900 ≤ (dateOf (time / 86400 + 25567)).year := Int.sub_nonneg.mp since
    exact Int.sub_nonneg.mpr (valid_dateOf year).month.1
  day time since := by
    have year : 1900 ≤ (dateOf (time / 86400 + 25567)).year := Int.sub_nonneg.mp since
    exact (valid_dateOf year).day.1
  time time _ := by
    refine ⟨?_, ?_, ?_⟩
    · exact show 0 ≤ time % 86400 / 3600 by omega
    · exact show 0 ≤ time % 3600 / 60 by omega
    · exact show 0 ≤ time % 60 by omega
  weekday time _ undefine := by
    have value : (DayOfWeek.ofWeek ((dateOf (time / 86400 + 25567)).number % 7)).value =
        ((dateOf (time / 86400 + 25567)).number % 7 + 1) % 7 :=
      DateTimeConvert.value_ofWeek (by omega) (by omega)
    rw [show DayOfWeek.ofWeek _ = .undefine from undefine, DayOfWeek.value] at value
    omega

namespace DateTimeConvert

/-- The first second of 1900, and so many milliseconds. -/
def firstSecond (millsecond : Int) : DateTimeConvert :=
  fromStdTime utc (-2208988800) .ymdhmsM millsecond 0

/-- Five seconds, a second and a half, and a day after the first second of 1900. -/
theorem additions_exact_iff_1900 :
    ((firstSecond 0).getAddSecond utc 5).sub utc (firstSecond 0) = some (5 * 10 ^ 6) ∧
    ((firstSecond 0).getAddMillsecond utc 1500).sub utc (firstSecond 0) = some (1500 * 10 ^ 3) ∧
    (((firstSecond 0).getAddDate utc 1).bind fun later => later.sub utc (firstSecond 0)) =
      some (1 * 86400 * 10 ^ 6) := by
  have hasTime : (firstSecond 0).HasTime :=
    ⟨by decide +kernel, rfl, fun field => by cases field <;> decide +kernel⟩
  have whole : (firstSecond 0).WholeSecond := by decide +kernel
  have normal : (firstSecond 0).Normal :=
    ⟨⟨by decide +kernel, by decide +kernel⟩, by decide +kernel, by decide +kernel⟩
  obtain ⟨second, millsecond, date⟩ := additions_exact_iff utc_lawful hasTime
  refine ⟨(second 5 (by decide +kernel)).mpr whole, ?_,
    (date 1 (by decide +kernel)).mpr ⟨whole, by decide⟩⟩
  exact (millsecond 1500 (by decide +kernel)).mpr
    (normal.millsecondCarries_iff.mpr ⟨whole, by decide, by decide⟩)

/-- Half a second that is there is left out of a sum with a second, and counted twice in one with half
a second. A millisecond less is no valid time, and the seconds of 24856 days are no `int`. -/
theorem half_second_lost : utc.Lawful ∧
    ((firstSecond 500).HasTime ∧ (firstSecond 500).Representable utc (1 * 10 ^ 6) ∧
      ((firstSecond 500).getAddSecond utc 1).sub utc (firstSecond 500) = some 500000) ∧
    ((firstSecond 500).Representable utc (500 * 10 ^ 3) ∧
      ((firstSecond 500).getAddMillsecond utc 500).sub utc (firstSecond 500) = some 1000000) ∧
    ((firstSecond 500).Representable utc (-1 * 10 ^ 3) ∧
      ((firstSecond 500).getAddMillsecond utc (-1)).sub utc (firstSecond 500) = none) ∧
    (firstSecond 0).HasTime ∧ (firstSecond 0).getAddDate utc 24856 = none := by
  have hasTime : (firstSecond 500).HasTime :=
    ⟨by decide +kernel, rfl, fun field => by cases field <;> decide +kernel⟩
  have hasTime' : (firstSecond 0).HasTime :=
    ⟨by decide +kernel, rfl, fun field => by cases field <;> decide +kernel⟩
  refine ⟨utc_lawful, ⟨hasTime, by decide +kernel, by decide +kernel⟩,
    ⟨by decide +kernel, by decide +kernel⟩, ⟨by decide +kernel, by decide +kernel⟩, hasTime', ?_⟩
  rw [getAddDate_eq hasTime']
  exact if_neg (by decide)

end DateTimeConvert

end BTool.DateTime
