import Mathlib.Data.List.DropRight
import BTool.Foundation.MemorySizes

/-! `ScrollWindowArray`: a window over the last values, in an array that is written round and round. -/

namespace BTool.ScrollWindow

open BTool.Foundation

universe u

variable {Data : Type u} {fixLength : Nat}

/-- `m_datas` holds what its values were constructed as until they are written. -/
structure ScrollWindowArray (Data : Type u) (fixLength : Nat) where
  datas : Vector Data fixLength
  curIndex : Nat
  curLength : Nat

/-- `m_data` is the place of a value in `m_datas`, `none` for a null pointer. -/
structure Iterator where
  data : Option Nat
  curIndex : Nat

namespace ScrollWindowArray

def construct (datas : Vector Data fixLength) : ScrollWindowArray Data fixLength :=
  { datas, curIndex := 2 ^ 64 - 1, curLength := 0 }

def emplaceBack (window : ScrollWindowArray Data fixLength) (data : Data) :
    ScrollWindowArray Data fixLength :=
  let moved := addSize window.curIndex 1
  let curIndex := if fixLength ≤ moved then subSize moved fixLength else moved
  { datas := window.datas.setIfInBounds curIndex data, curIndex,
    curLength := if window.curLength < fixLength then addSize window.curLength 1 else window.curLength }

def clear (window : ScrollWindowArray Data fixLength) : ScrollWindowArray Data fixLength :=
  { window with curIndex := 2 ^ 64 - 1, curLength := 0 }

def isEmpty (window : ScrollWindowArray Data fixLength) : Bool :=
  window.curLength == 0

/-- `empty_iterator`, which `end` returns. -/
def emptyIterator (fixLength : Nat) : Iterator :=
  ⟨none, fixLength⟩

/-- `begin`. -/
def first (window : ScrollWindowArray Data fixLength) : Iterator :=
  if window.isEmpty then emptyIterator fixLength
  else if window.curLength < fixLength then ⟨some 0, 0⟩
  else
    let index := addSize window.curIndex 1 % fixLength
    ⟨some index, index⟩

/-- `operator++` of an iterator of the window. -/
def advance (window : ScrollWindowArray Data fixLength) (iterator : Iterator) : Iterator :=
  let moved := addSize iterator.curIndex 1
  let curIndex := if moved = fixLength ∧ addSize window.curIndex 1 < fixLength then 0 else moved
  if curIndex = addSize window.curIndex 1 then emptyIterator fixLength else ⟨some curIndex, curIndex⟩

/-- `operator*` of an iterator, `none` where it has no value to refer to. -/
def value (window : ScrollWindowArray Data fixLength) (iterator : Iterator) : Option Data :=
  iterator.data.bind fun index => window.datas[index]?

/-- `back`, `none` where it refers to no value. -/
def back (window : ScrollWindowArray Data fixLength) : Option Data :=
  if window.isEmpty then none else window.datas[window.curIndex]?

/-- The values that a loop from an iterator to `end` visits within so many rounds. -/
def visit (window : ScrollWindowArray Data fixLength) : Nat → Iterator → Option (List Data)
  | 0, _ => none
  | rounds + 1, iterator =>
    if iterator.curIndex = (emptyIterator fixLength).curIndex then some []
    else do
      let data ← window.value iterator
      let rest ← window.visit rounds (window.advance iterator)
      return data :: rest

/-- A call that changes the window. -/
inductive Call (Data : Type u) where
  | emplaceBack (data : Data)
  | clear

def call (window : ScrollWindowArray Data fixLength) : Call Data → ScrollWindowArray Data fixLength
  | .emplaceBack data => window.emplaceBack data
  | .clear => window.clear

/-- The values that have been pushed since the last clear. -/
def pushed (values : List Data) : Call Data → List Data
  | .emplaceBack data => values ++ [data]
  | .clear => []

/-- The window is over these values: a value that is still in it lies at its number modulo the length. -/
structure Shows (window : ScrollWindowArray Data fixLength) (values : List Data) : Prop where
  length : window.curLength = min values.length fixLength
  fresh : values = [] → window.curIndex = 2 ^ 64 - 1
  newest : values ≠ [] → window.curIndex = (values.length - 1) % fixLength
  placed : ∀ number, number < values.length → values.length ≤ number + fixLength →
    window.datas[number % fixLength]? = values[number]?

variable {window : ScrollWindowArray Data fixLength} {values : List Data}

theorem shows_nil (isIndex : window.curIndex = 2 ^ 64 - 1) (isLength : window.curLength = 0) :
    window.Shows [] := by
  refine ⟨?_, fun _ => isIndex, fun nonempty => absurd rfl nonempty, fun _ absent => ?_⟩
  · rw [isLength, List.length_nil, Nat.zero_min]
  · exact absurd absent (Nat.not_lt_zero _)

private theorem next_mod {length : Nat} (number : Nat) (positive : 0 < length) :
    (number + 1) % length = if number % length + 1 = length then 0 else number % length + 1 := by
  have small : number % length < length := Nat.mod_lt _ positive
  rw [Nat.add_mod]
  split
  · rename_i last
    obtain one | more := Nat.eq_or_lt_of_le (Nat.succ_le_of_lt positive)
    · subst one
      exact Nat.mod_one _
    · rw [Nat.mod_eq_of_lt more, last, Nat.mod_self]
  · rename_i notLast
    rw [Nat.mod_eq_of_lt (by omega : 1 < length), Nat.mod_eq_of_lt (by omega)]

/-- Numbers that are less than the length apart lie at different places. -/
private theorem mod_ne_of_near {number other length : Nat} (before : number < other)
    (near : other < number + length) : number % length ≠ other % length := by
  intro same
  have divides : length ∣ other - number :=
    Nat.dvd_of_mod_eq_zero (Nat.sub_mod_eq_zero_of_mod_eq same.symm)
  have := Nat.le_of_dvd (by omega) divides
  omega

theorem Shows.curIndex_emplaceBack (shows : window.Shows values) (positive : 1 ≤ fixLength)
    (small : fixLength < 2 ^ 64) (data : Data) :
    (window.emplaceBack data).curIndex = values.length % fixLength := by
  simp only [emplaceBack]
  by_cases isEmpty : values = []
  · rw [shows.fresh isEmpty, isEmpty, List.length_nil, Nat.zero_mod,
      if_neg (by simp only [addSize]; omega)]
    rfl
  · have some := List.length_pos_iff.mpr isEmpty
    have isNext := next_mod (values.length - 1) positive
    have inside : (values.length - 1) % fixLength < fixLength := Nat.mod_lt _ positive
    rw [Nat.sub_add_cancel some] at isNext
    rw [shows.newest isEmpty, addSize_eq (by omega), isNext]
    split
    · rw [if_pos (by omega), subSize_eq (by omega) (by omega)]
      omega
    · rw [if_neg (by omega)]

/-- A value that is pushed takes the place of the oldest, once the window is full. -/
theorem Shows.emplaceBack (shows : window.Shows values) (positive : 1 ≤ fixLength)
    (small : fixLength < 2 ^ 64) (data : Data) : (window.emplaceBack data).Shows (values ++ [data]) := by
  have isIndex := shows.curIndex_emplaceBack positive small data
  have isDatas : (window.emplaceBack data).datas =
      window.datas.setIfInBounds (window.emplaceBack data).curIndex data := rfl
  have inside : values.length % fixLength < fixLength := Nat.mod_lt _ positive
  constructor
  · simp only [ScrollWindowArray.emplaceBack, shows.length, List.length_append, List.length_singleton]
    split
    · rw [addSize_eq (by omega)]
      omega
    · omega
  · intro isEmpty
    exact absurd isEmpty (by simp)
  · intro _
    rw [isIndex, List.length_append, List.length_singleton, Nat.add_sub_cancel]
  · intro number early late
    rw [List.length_append, List.length_singleton] at early late
    rw [isDatas, isIndex]
    obtain old | rfl := Nat.lt_or_eq_of_le (Nat.le_of_lt_succ early)
    · rw [Vector.getElem?_setIfInBounds_ne (mod_ne_of_near old (by omega)).symm,
        shows.placed number old (by omega), List.getElem?_append_left old]
    · rw [Vector.getElem?_setIfInBounds_self_of_lt inside, List.getElem?_append_right (Nat.le_refl _),
        Nat.sub_self]
      rfl

theorem Shows.call (shows : window.Shows values) (positive : 1 ≤ fixLength) (small : fixLength < 2 ^ 64)
    (call : Call Data) : (window.call call).Shows (pushed values call) := by
  cases call with
  | emplaceBack data => exact shows.emplaceBack positive small data
  | clear => exact shows_nil rfl rfl

theorem shows_foldl (shows : window.Shows values) (positive : 1 ≤ fixLength) (small : fixLength < 2 ^ 64)
    (calls : List (Call Data)) :
    (calls.foldl ScrollWindowArray.call window).Shows (calls.foldl pushed values) := by
  induction calls generalizing window values with
  | nil => exact shows
  | cons call rest ih => exact ih (shows.call positive small call)

/-- The iterator is at the value with this number, or behind the last. -/
structure At (fixLength : Nat) (values : List Data) (number : Nat) (iterator : Iterator) : Prop where
  within : number < values.length → iterator = ⟨some (number % fixLength), number % fixLength⟩
  behind : number = values.length → iterator = emptyIterator fixLength

theorem Shows.first_at (shows : window.Shows values) (positive : 1 ≤ fixLength)
    (small : fixLength < 2 ^ 64) : At fixLength values (values.length - fixLength) window.first := by
  by_cases isEmpty : values = []
  · subst isEmpty
    have isFirst : window.first = emptyIterator fixLength :=
      if_pos (by rw [isEmpty, shows.length, List.length_nil, Nat.zero_min]; rfl)
    exact ⟨fun absent => absurd absent (Nat.not_lt_zero _), fun _ => isFirst⟩
  have some := List.length_pos_iff.mpr isEmpty
  have notEmpty : ¬ window.isEmpty = true := by
    rw [ScrollWindowArray.isEmpty, shows.length, beq_iff_eq]
    omega
  refine ⟨fun _ => ?_, fun absurdly => by omega⟩
  rw [first, if_neg notEmpty, shows.length]
  split
  · rw [Nat.sub_eq_zero_of_le (by omega), Nat.zero_mod]
  · have inside : (values.length - 1) % fixLength < fixLength := Nat.mod_lt _ positive
    have isOldest : addSize window.curIndex 1 % fixLength = (values.length - fixLength) % fixLength := by
      rw [shows.newest isEmpty, addSize_eq (by omega), Nat.mod_add_mod, Nat.sub_add_cancel some,
        ← Nat.mod_eq_sub_mod (by omega)]
    rw [isOldest]

/-- An iterator within the window goes on to the value that was pushed next, and from the newest to the
end. -/
theorem Shows.advance_at {iterator : Iterator} {number : Nat} (shows : window.Shows values)
    (positive : 1 ≤ fixLength) (small : fixLength < 2 ^ 64) (early : number < values.length)
    (late : values.length ≤ number + fixLength) (here : At fixLength values number iterator) :
    At fixLength values (number + 1) (window.advance iterator) := by
  have inside : number % fixLength < fixLength := Nat.mod_lt _ positive
  have inside' : (values.length - 1) % fixLength < fixLength := Nat.mod_lt _ positive
  have isNext := next_mod number positive
  have isEmpty : values ≠ [] := List.length_pos_iff.mp (by omega)
  have isNewest : addSize window.curIndex 1 = (values.length - 1) % fixLength + 1 := by
    rw [shows.newest isEmpty, addSize_eq (by omega)]
  have isMoved : addSize (number % fixLength) 1 = number % fixLength + 1 := addSize_eq (by omega)
  rw [here.within early, advance]
  simp only [isNewest, isMoved]
  obtain last | notLast := Nat.eq_or_lt_of_le (Nat.succ_le_of_lt early)
  · have noWrap : ¬ (number % fixLength + 1 = fixLength ∧ number % fixLength + 1 < fixLength) := by omega
    rw [← last, Nat.succ_eq_add_one, Nat.add_sub_cancel]
    simp only [if_neg noWrap, if_true]
    exact ⟨fun absent => absurd absent (by omega), fun _ => rfl⟩
  · have apart : number % fixLength ≠ (values.length - 1) % fixLength :=
      mod_ne_of_near (by omega) (by omega)
    have isCur : (if number % fixLength + 1 = fixLength ∧ (values.length - 1) % fixLength + 1 < fixLength
        then 0 else number % fixLength + 1) = (number + 1) % fixLength := by
      rw [isNext]
      split <;> split <;> omega
    simp only [isCur]
    rw [if_neg (by rw [isNext]; split <;> omega)]
    exact ⟨fun _ => rfl, fun atEnd => by omega⟩

/-- From the value with this number on, a loop visits the values that were pushed since. -/
theorem Shows.visit_at {iterator : Iterator} {left number rounds : Nat} (shows : window.Shows values)
    (positive : 1 ≤ fixLength) (small : fixLength < 2 ^ 64) (sum : number + left = values.length)
    (late : values.length ≤ number + fixLength) (enough : left < rounds)
    (here : At fixLength values number iterator) :
    window.visit rounds iterator = some (values.drop number) := by
  induction left generalizing number rounds iterator with
  | zero =>
    obtain _ | rounds := rounds
    · exact absurd enough (Nat.lt_irrefl 0)
    rw [here.behind sum, visit, if_pos rfl, List.drop_of_length_le (by omega)]
  | succ left ih =>
    obtain _ | rounds := rounds
    · exact absurd enough (Nat.not_lt_zero _)
    have early : number < values.length := by omega
    have inside : number % fixLength < fixLength := Nat.mod_lt _ positive
    have rest : window.visit rounds (window.advance iterator) = some (values.drop (number + 1)) :=
      ih (by omega) (by omega) (by omega) (shows.advance_at positive small early late here)
    have isValue : window.value iterator = some values[number] := by
      rw [here.within early, value, Option.bind_some, shows.placed number early late,
        List.getElem?_eq_getElem early]
    have notEnd : iterator.curIndex ≠ (emptyIterator fixLength).curIndex := by
      rw [here.within early]
      exact Nat.ne_of_lt inside
    rw [visit, if_neg notEnd, isValue, rest, List.drop_eq_getElem_cons early]
    rfl

/-- After any calls, a loop over the window visits the last values that were pushed since the last clear,
as many as the window is long, the oldest first; and `back` is the newest. -/
theorem window_shows_last (positive : 1 ≤ fixLength) (small : fixLength < 2 ^ 64)
    (datas : Vector Data fixLength) (calls : List (Call Data)) :
    let window := calls.foldl call (construct datas)
    let values := calls.foldl pushed []
    (∀ rounds, window.curLength < rounds →
      window.visit rounds window.first = some (values.rtake fixLength)) ∧
    window.back = values.getLast? := by
  intro window values
  have shows : window.Shows values :=
    shows_foldl (shows_nil rfl rfl) positive small calls
  constructor
  · intro rounds enough
    rw [shows.length] at enough
    have sum : values.length - fixLength + min values.length fixLength = values.length := by omega
    exact shows.visit_at positive small sum (by omega) enough (shows.first_at positive small)
  · unfold back
    by_cases isEmpty : values = []
    · rw [if_pos (by rw [ScrollWindowArray.isEmpty, shows.length, isEmpty]; rfl), isEmpty]
      rfl
    · have some := List.length_pos_iff.mpr isEmpty
      rw [if_neg (by rw [ScrollWindowArray.isEmpty, shows.length, beq_iff_eq]; omega),
        shows.newest isEmpty, shows.placed _ (by omega) (by omega), List.getLast?_eq_getElem?]

/-- A window of three after a clear and five values. -/
theorem window_shows_last_three :
    let calls : List (Call Nat) :=
      [.emplaceBack 9, .clear, .emplaceBack 1, .emplaceBack 2, .emplaceBack 3, .emplaceBack 4,
        .emplaceBack 5]
    let window := calls.foldl call (construct (Vector.replicate 3 0))
    (∀ rounds, window.curLength < rounds → window.visit rounds window.first = some [3, 4, 5]) ∧
      window.back = some 5 :=
  window_shows_last (by decide) (by decide) _ _

end ScrollWindowArray

end BTool.ScrollWindow
