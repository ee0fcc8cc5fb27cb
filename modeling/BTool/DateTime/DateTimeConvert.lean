import Mathlib.Data.List.Basic

/-! `DateTimeConvert`: the fields of a date and a time, of which a style says which are meant. -/

namespace BTool.DateTime

/-- A mask with one bit for each field. -/
abbrev DateTimeStyle := UInt8

namespace DateTimeStyle

def invlid : DateTimeStyle := 0x00

def year : DateTimeStyle := 0x80

def month : DateTimeStyle := 0x40

def day : DateTimeStyle := 0x20

def hour : DateTimeStyle := 0x10

def min : DateTimeStyle := 0x08

def sec : DateTimeStyle := 0x04

def mSec : DateTimeStyle := 0x02

def uSec : DateTimeStyle := 0x01

def ymd : DateTimeStyle := year ||| month ||| day

def hms : DateTimeStyle := hour ||| min ||| sec

def hmsM : DateTimeStyle := hour ||| min ||| sec ||| mSec

def ymdhms : DateTimeStyle := ymd ||| hms

def ymdhmsM : DateTimeStyle := ymd ||| hmsM

def all : DateTimeStyle := 0xFF

end DateTimeStyle

inductive DayOfWeek where
  | undefine
  | sunday
  | monday
  | tuesday
  | wednesday
  | thursday
  | friday
  | saturday
deriving DecidableEq

/-- The fields, in the order in which they are compared. -/
inductive Field where
  | year
  | month
  | day
  | hour
  | minute
  | second
  | millsecond
  | microsecond
deriving DecidableEq

namespace Field

def all : List Field := [year, month, day, hour, minute, second, millsecond, microsecond]

/-- The bit of a field. -/
def style : Field → DateTimeStyle
  | year => .year
  | month => .month
  | day => .day
  | hour => .hour
  | minute => .min
  | second => .sec
  | millsecond => .mSec
  | microsecond => .uSec

/-- The values of a field of a date and a time, up to some year. -/
def InRange (lastYear value : Int) : Field → Prop
  | year => 1900 ≤ value ∧ value ≤ lastYear
  | month => 1 ≤ value ∧ value ≤ 12
  | day => 1 ≤ value ∧ value ≤ 31
  | hour => 0 ≤ value ∧ value ≤ 23
  | minute => 0 ≤ value ∧ value ≤ 59
  | second => 0 ≤ value ∧ value ≤ 60
  | millsecond => 0 ≤ value ∧ value ≤ 999
  | microsecond => 0 ≤ value ∧ value ≤ 999

end Field

/-- `style & DTS_Year` and so on. -/
def DateTimeStyle.has (style : DateTimeStyle) (field : Field) : Bool :=
  style &&& field.style != 0

/-- A style that covers another one has its fields. -/
theorem DateTimeStyle.has_of_land {style other : DateTimeStyle} {field : Field}
    (covers : style &&& other = other) (has : other &&& field.style = field.style) :
    style.has field = true := by
  have bit : style &&& field.style = field.style := by rw [← has, ← UInt8.and_assoc, covers]
  rw [DateTimeStyle.has, bit]
  cases field <;> rfl

structure DateTimeConvert where
  style : DateTimeStyle
  dayOfWeek : DayOfWeek
  isvalid : Bool
  /-- The members `m_year` to `m_microsecond`. -/
  member : Field → Int

namespace DateTimeConvert

/-- What the members are initialised with. -/
def initial : Field → Int
  | .month => 1
  | .day => 1
  | _ => 0

/-- The default constructor. -/
def construct : DateTimeConvert :=
  { style := .invlid, dayOfWeek := .undefine, isvalid := false, member := initial }

/-- `year()` to `microsecond()`. -/
def get (dt : DateTimeConvert) (field : Field) : Int :=
  if dt.isvalid then dt.member field else -1

def checkDtValid (dt : DateTimeConvert) : Bool :=
  decide (1900 ≤ dt.member .year ∧ 0 < dt.member .month ∧ 0 < dt.member .day ∧ 0 ≤ dt.member .hour ∧
    0 ≤ dt.member .minute ∧ 0 ≤ dt.member .second ∧ 0 ≤ dt.member .millsecond ∧
    0 ≤ dt.member .microsecond)

/-- What the accessors return are the fields of a date and a time up to some year. -/
def InRange (lastYear : Int) (dt : DateTimeConvert) : Prop :=
  ∀ field : Field, field.InRange lastYear (dt.get field)

variable {dt : DateTimeConvert} {lastYear : Int}

/-- The accessors of an invalid value return -1. -/
theorem InRange.isvalid (inRange : dt.InRange lastYear) : dt.isvalid = true := by
  have year : 1900 ≤ dt.get .year := (inRange .year).1
  by_contra invalid
  rw [get, if_neg invalid] at year
  contradiction

theorem InRange.get_eq (inRange : dt.InRange lastYear) (field : Field) : dt.get field = dt.member field :=
  if_pos inRange.isvalid

end DateTimeConvert

end BTool.DateTime
