import BTool.DateTime.DateTimeConvert
import BTool.Foundation.FieldOrder
import Mathlib.Data.Int.Order.Basic

/-! The comparisons of `DateTimeConvert`: first the styles, and for equal ones the fields that they
have. -/

namespace BTool.DateTime

open BTool.Foundation

namespace DateTimeConvert

/-- The tests of `operator==`, one field after the other. -/
def sameFrom (dt other : DateTimeConvert) : List Field → Bool
  | [] => true
  | field :: fields =>
    if dt.style.has field then
      if other.get field ≠ dt.get field then false else sameFrom dt other fields
    else sameFrom dt other fields

/-- `operator==`. -/
def equals (dt other : DateTimeConvert) : Bool :=
  if dt.style ≠ other.style then false else sameFrom dt other Field.all

/-- The tests of `operator<`, one field after the other. -/
def lessFrom (dt other : DateTimeConvert) : List Field → Bool
  | [] => false
  | field :: fields =>
    if dt.style.has field then
      if other.get field < dt.get field then false
      else if dt.get field < other.get field then true
      else lessFrom dt other fields
    else lessFrom dt other fields

/-- `operator<`. -/
def less (dt other : DateTimeConvert) : Bool :=
  if dt.style ≠ other.style then decide (dt.style < other.style) else lessFrom dt other Field.all

/-- `operator<=`. -/
def lessEquals (dt other : DateTimeConvert) : Bool :=
  dt.equals other || dt.less other

/-- The tests of `operator>`, one field after the other. -/
def greaterFrom (dt other : DateTimeConvert) : List Field → Bool
  | [] => false
  | field :: fields =>
    if dt.style.has field then
      if dt.get field < other.get field then false
      else if other.get field < dt.get field then true
      else greaterFrom dt other fields
    else greaterFrom dt other fields

/-- `operator>`. -/
def greater (dt other : DateTimeConvert) : Bool :=
  if dt.style ≠ other.style then decide (other.style < dt.style) else greaterFrom dt other Field.all

/-- `operator>=`. -/
def greaterEquals (dt other : DateTimeConvert) : Bool :=
  dt.equals other || dt.greater other

/-- The accessors of the fields that a style has. -/
def accessors (style : DateTimeStyle) (fields : List Field) : List (DateTimeConvert → Int) :=
  (fields.filter style.has).map fun field dt => dt.get field

/-- The style and then the fields that it has: what the comparisons go by. -/
def sortKey (dt : DateTimeConvert) : List Int :=
  dt.style.toNat :: keys (accessors dt.style Field.all) dt

variable {dt other third : DateTimeConvert}

private theorem accessors_cons_of_pos {style : DateTimeStyle} {field : Field} {fields : List Field}
    (has : style.has field) :
    accessors style (field :: fields) = (fun dt => dt.get field) :: accessors style fields := by
  rw [accessors, List.filter_cons_of_pos has]
  rfl

private theorem accessors_cons_of_neg {style : DateTimeStyle} {field : Field} {fields : List Field}
    (has : ¬style.has field) : accessors style (field :: fields) = accessors style fields := by
  rw [accessors, List.filter_cons_of_neg has]
  rfl

theorem sameFrom_eq (fields : List Field) :
    sameFrom dt other fields = sameBy (accessors dt.style fields) dt other := by
  induction fields with
  | nil => rfl
  | cons field fields ih =>
    by_cases has : dt.style.has field
    · rw [sameFrom, if_pos has, ih, accessors_cons_of_pos has]
      rfl
    · rw [sameFrom, if_neg has, ih, accessors_cons_of_neg has]

theorem lessFrom_eq (fields : List Field) :
    lessFrom dt other fields = lessBy (accessors dt.style fields) dt other := by
  induction fields with
  | nil => rfl
  | cons field fields ih =>
    by_cases has : dt.style.has field
    · rw [lessFrom, if_pos has, ih, accessors_cons_of_pos has]
      rfl
    · rw [lessFrom, if_neg has, ih, accessors_cons_of_neg has]

theorem greaterFrom_eq (fields : List Field) :
    greaterFrom dt other fields = greaterBy (accessors dt.style fields) dt other := by
  induction fields with
  | nil => rfl
  | cons field fields ih =>
    by_cases has : dt.style.has field
    · rw [greaterFrom, if_pos has, ih, accessors_cons_of_pos has]
      rfl
    · rw [greaterFrom, if_neg has, ih, accessors_cons_of_neg has]

theorem equals_iff : dt.equals other = true ↔ dt.sortKey = other.sortKey := by
  rw [sortKey, sortKey, List.cons.injEq, Int.ofNat_inj, UInt8.toNat_inj]
  by_cases same : dt.style = other.style
  · rw [equals, if_neg (not_not.mpr same), sameFrom_eq, sameBy_iff, and_iff_right same, same]
  · rw [equals, if_pos same]
    exact iff_of_false Bool.false_ne_true fun equal => same equal.1

theorem less_iff : dt.less other = true ↔ dt.sortKey < other.sortKey := by
  rw [sortKey, sortKey, List.cons_lt_cons_iff, Int.ofNat_lt, Int.ofNat_inj, UInt8.toNat_inj,
    ← UInt8.lt_iff_toNat_lt]
  by_cases same : dt.style = other.style
  · rw [less, if_neg (not_not.mpr same), lessFrom_eq, lessBy_iff, and_iff_right same, same,
      or_iff_right (UInt8.lt_irrefl _)]
  · rw [less, if_pos same, decide_eq_true_iff, or_iff_left fun equal => same equal.1]

theorem greater_eq : dt.greater other = other.less dt := by
  by_cases same : dt.style = other.style
  · rw [greater, less, if_neg (not_not.mpr same), if_neg (not_not.mpr same.symm), greaterFrom_eq,
      lessFrom_eq, greaterBy_eq, same]
  · rw [greater, less, if_pos same, if_pos (Ne.symm same)]

/-- The comparisons are those of a strict weak order, of which `operator==` tells the equivalent
values. -/
theorem ordering_laws :
    (∀ dt other : DateTimeConvert,
      dt.less other = true ∧ dt.equals other = false ∧ dt.greater other = false ∨
      dt.less other = false ∧ dt.equals other = true ∧ dt.greater other = false ∨
      dt.less other = false ∧ dt.equals other = false ∧ dt.greater other = true) ∧
    (∀ dt other : DateTimeConvert, dt.greater other = true ↔ other.less dt = true) ∧
    (∀ dt other third : DateTimeConvert,
      dt.less other = true → other.less third = true → dt.less third = true) ∧
    (∀ dt other third : DateTimeConvert,
      dt.equals other = true → other.equals third = true → dt.equals third = true) ∧
    (∀ dt other : DateTimeConvert,
      dt.lessEquals other = true ↔ dt.less other = true ∨ dt.equals other = true) ∧
    (∀ dt other : DateTimeConvert,
      dt.greaterEquals other = true ↔ dt.greater other = true ∨ dt.equals other = true) := by
  refine ⟨fun dt other => ?_, fun dt other => by rw [greater_eq], fun dt other third => ?_,
    fun dt other third => ?_, fun dt other => ?_, fun dt other => ?_⟩
  · rw [greater_eq]
    simp only [← Bool.not_eq_true, equals_iff, less_iff]
    obtain less | equal | greater := lt_trichotomy dt.sortKey other.sortKey
    · exact .inl ⟨less, less.ne, less.asymm⟩
    · exact .inr (.inl ⟨equal.not_lt, equal, equal.not_gt⟩)
    · exact .inr (.inr ⟨greater.asymm, greater.ne', greater⟩)
  · rw [less_iff, less_iff, less_iff]
    exact lt_trans
  · rw [equals_iff, equals_iff, equals_iff]
    exact Eq.trans
  · rw [lessEquals, Bool.or_eq_true, or_comm]
  · rw [greaterEquals, Bool.or_eq_true, or_comm]

/-- Three values with nothing but a time of day, a month or a year. -/
theorem ordering_laws_styles :
    ({ construct with style := .hms } : DateTimeConvert).less { construct with style := .year } = true :=
  ordering_laws.2.2.1 _ { construct with style := .month } _ (by decide) (by decide)

end DateTimeConvert

end BTool.DateTime
