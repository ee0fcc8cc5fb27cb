import Mathlib.Data.List.Infix
import BTool.Foundation.MemorySizes
import BTool.Foundation.Transition

/-! `ScrollWindowVector`: the last values in a vector, from whose front values are erased when it has
become a multiple of its length. The limits may be changed at any time. -/

namespace BTool.ScrollWindow

open BTool.Foundation

universe u

variable {Data : Type u}

structure ScrollWindowVector (Data : Type u) where
  datas : List Data
  fixLength : Nat
  multiple : Nat

namespace ScrollWindowVector

def construct : ScrollWindowVector Data :=
  ⟨[], 0, 1⟩

def setFixLength (window : ScrollWindowVector Data) (fixLength multiple : Nat) :
    ScrollWindowVector Data :=
  { window with fixLength, multiple }

/-- How many values are erased at once: `m_fix_length * (m_multiple - 1) + 1`. -/
def erased (window : ScrollWindowVector Data) : Nat :=
  addSize (mulSize window.fixLength (subSize window.multiple 1)) 1

/-- `none` where `erase` is called with more values than there are. -/
def emplaceBack (window : ScrollWindowVector Data) (data : Data) : Option (ScrollWindowVector Data) :=
  if window.fixLength = 0 then some { window with datas := window.datas ++ [data] }
  else if window.fixLength = 1 then
    match window.datas with
    | [] => some { window with datas := [data] }
    | _ :: rest => some { window with datas := data :: rest }
  else if mulSize window.fixLength window.multiple ≤ window.datas.length then
    if window.erased ≤ window.datas.length then
      some { window with datas := window.datas.drop window.erased ++ [data] }
    else none
  else some { window with datas := window.datas ++ [data] }

def clear (window : ScrollWindowVector Data) : ScrollWindowVector Data :=
  { window with datas := [] }

def back (window : ScrollWindowVector Data) : Option Data :=
  window.datas.getLast?

/-- The calls that change the window. -/
inductive Call (Data : Type u) where
  | setFixLength (fixLength multiple : Nat)
  | emplaceBack (data : Data)
  | clear

/-- What the callers are asked for by an `assert`. -/
def Call.Allowed : Call Data → Prop
  | .setFixLength _ multiple => 1 ≤ multiple
  | _ => True

/-- A window, with what has been pushed into it. -/
structure Pushes (Data : Type u) where
  window : ScrollWindowVector Data
  /-- The values since the last clear. -/
  values : List Data
  /-- How many of them came since the limits changed. -/
  recent : Nat
  /-- The last call was `emplace_back`. -/
  justPushed : Bool
  /-- `erase` has left the vector. -/
  faulted : Bool

namespace Pushes

def start : Pushes Data :=
  ⟨.construct, [], 0, false, false⟩

def next (pushes : Pushes Data) : Call Data → Option (Pushes Data)
  | .setFixLength fixLength multiple =>
    let unchanged := pushes.window.fixLength = fixLength ∧ pushes.window.multiple = multiple
    some { pushes with
      window := pushes.window.setFixLength fixLength multiple
      recent := if unchanged then pushes.recent else 0
      justPushed := false }
  | .emplaceBack data =>
    match pushes.window.emplaceBack data with
    | none => some { pushes with faulted := true }
    | some window => some { pushes with
      window, values := pushes.values ++ [data], recent := pushes.recent + 1, justPushed := true }
  | .clear => some { pushes with
      window := pushes.window.clear, values := [], recent := 0, justPushed := false }

/-- The window has the last values, and after a push as many of them as its limits say. -/
structure Holds (pushes : Pushes Data) : Prop where
  inside : pushes.faulted = false
  suffix : pushes.window.datas <:+ pushes.values
  back : pushes.window.back = pushes.values.getLast?
  bounds : pushes.justPushed = true → 1 ≤ pushes.window.fixLength →
    min pushes.recent pushes.window.fixLength ≤ pushes.window.datas.length ∧
      pushes.window.datas.length ≤ pushes.window.fixLength * pushes.window.multiple

/-- A vector that is erased from now is short enough to be within the limits afterwards. Where the
product of the limits does not fit into a `size_t`, what is left depends on the wrapped numbers. -/
def Room (pushes : Pushes Data) : Prop :=
  if pushes.window.fixLength * pushes.window.multiple < 2 ^ 64 then
    pushes.window.datas.length + pushes.window.fixLength ≤
      2 * (pushes.window.fixLength * pushes.window.multiple)
  else
    pushes.window.datas.length < mulSize pushes.window.fixLength pushes.window.multiple ∨
      pushes.window.erased ≤ pushes.window.datas.length ∧
        min (pushes.recent + 1) pushes.window.fixLength ≤
          pushes.window.datas.length + 1 - pushes.window.erased ∧
        pushes.window.datas.length + 1 - pushes.window.erased ≤
          pushes.window.fixLength * pushes.window.multiple

/-- What the window held under earlier limits does not get into the way of a push. A window of one value
replaces the first one, behind which there may only be equal ones. -/
def Fits (pushes : Pushes Data) : Call Data → Prop
  | .emplaceBack data =>
    if pushes.window.fixLength = 0 then True
    else if pushes.window.fixLength = 1 then
      pushes.window.datas.length ≤ pushes.window.multiple ∧
        ∀ value ∈ pushes.window.datas.tail, value = data
    else pushes.Room
  | _ => True

variable {pushes after : Pushes Data} {data : Data} {datas values : List Data}

theorem suffix_push (suffix : datas <:+ values) (data : Data) (count : Nat) :
    datas.drop count ++ [data] <:+ values ++ [data] := by
  obtain ⟨front, rfl⟩ := (List.drop_suffix count datas).trans suffix
  exact ⟨front, (List.append_assoc _ _ _).symm⟩

theorem cons_eq_append_iff (data : Data) (rest : List Data) :
    data :: rest = rest ++ [data] ↔ ∀ value ∈ rest, value = data := by
  induction rest with
  | nil => simp
  | cons head rest ih =>
    rw [List.cons_append, List.cons.injEq, List.forall_mem_cons]
    constructor
    · rintro ⟨rfl, same⟩
      exact ⟨rfl, ih.mp same⟩
    · rintro ⟨rfl, all⟩
      exact ⟨rfl, ih.mpr all⟩

/-- The first value is replaced: what is left ends with it just if all others are equal to it. -/
theorem suffix_replace_iff {head : Data} {rest : List Data} (suffix : head :: rest <:+ values)
    (data : Data) :
    data :: rest <:+ values ++ [data] ↔ ∀ value ∈ rest, value = data := by
  have pushed : rest ++ [data] <:+ values ++ [data] := suffix_push suffix data 1
  rw [← cons_eq_append_iff]
  constructor
  · intro replaced
    exact (List.suffix_of_suffix_length_le replaced pushed (by simp)).eq_of_length (by simp)
  · intro same
    rwa [same]

/-- What every call keeps, whether or not it fits. -/
structure Kept (pushes : Pushes Data) : Prop where
  enough : min pushes.recent pushes.window.fixLength ≤ pushes.window.datas.length
  multiple : 1 ≤ pushes.window.multiple

/-- A push that leaves these values keeps the window right just if they are the last ones, as many as the
limits say. -/
theorem holds_push_iff (holds : Holds pushes) (datas : List Data) :
    Holds { pushes with
      window := { pushes.window with datas }
      values := pushes.values ++ [data], recent := pushes.recent + 1, justPushed := true } ↔
      datas <:+ pushes.values ++ [data] ∧ datas.getLast? = some data ∧ (1 ≤ pushes.window.fixLength →
        min (pushes.recent + 1) pushes.window.fixLength ≤ datas.length ∧
          datas.length ≤ pushes.window.fixLength * pushes.window.multiple) := by
  constructor
  · rintro ⟨_, suffix, back, bounds⟩
    exact ⟨suffix, back.trans (by simp), bounds rfl⟩
  · rintro ⟨suffix, back, bounds⟩
    exact ⟨holds.inside, suffix, back.trans (by simp), fun _ => bounds⟩

theorem getLast?_push (datas : List Data) (data : Data) (count : Nat) :
    (datas.drop count ++ [data]).getLast? = some data := by simp

/-- A push of values that are erased and appended to. -/
theorem holds_append_iff (holds : Holds pushes) (count : Nat) :
    Holds { pushes with
      window := { pushes.window with datas := pushes.window.datas.drop count ++ [data] }
      values := pushes.values ++ [data], recent := pushes.recent + 1, justPushed := true } ↔
      (1 ≤ pushes.window.fixLength →
        min (pushes.recent + 1) pushes.window.fixLength ≤ pushes.window.datas.length - count + 1 ∧
          pushes.window.datas.length - count + 1 ≤ pushes.window.fixLength * pushes.window.multiple) := by
  rw [holds_push_iff holds, and_iff_right (suffix_push holds.suffix data count),
    and_iff_right (getLast?_push _ _ _), List.length_append, List.length_drop, List.length_singleton]

/-- The state behind a push that leaves these values. -/
def pushed (pushes : Pushes Data) (data : Data) (datas : List Data) : Pushes Data :=
  { pushes with
    window := { pushes.window with datas }
    values := pushes.values ++ [data], recent := pushes.recent + 1, justPushed := true }

theorem next_pushed (leaves : pushes.window.emplaceBack data = some { pushes.window with datas }) :
    pushes.next (.emplaceBack data) = some (pushes.pushed data datas) := by
  rw [next, leaves]
  rfl

theorem kept_pushed (kept : Kept pushes)
    (enough : min (pushes.recent + 1) pushes.window.fixLength ≤ datas.length) :
    Kept (pushes.pushed data datas) :=
  ⟨enough, kept.multiple⟩

/-- A window without a limit. -/
theorem push_unlimited (holds : Holds pushes) (kept : Kept pushes)
    (unlimited : pushes.window.fixLength = 0)
    (taken : pushes.next (.emplaceBack data) = some after) : Holds after ∧ Kept after := by
  have leaves : pushes.window.emplaceBack data =
      some { pushes.window with datas := pushes.window.datas.drop 0 ++ [data] } := by
    rw [emplaceBack, if_pos unlimited, List.drop_zero]
  obtain rfl := Option.some.inj ((next_pushed leaves).symm.trans taken)
  refine ⟨(holds_append_iff holds 0).mpr fun limited => ?_, kept_pushed kept ?_⟩
  · omega
  · rw [unlimited]
    exact Nat.zero_le _

/-- A window of one value. -/
theorem push_one (holds : Holds pushes) (kept : Kept pushes) (one : pushes.window.fixLength = 1)
    (taken : pushes.next (.emplaceBack data) = some after) :
    (Holds after ↔ pushes.window.datas.length ≤ pushes.window.multiple ∧
      ∀ value ∈ pushes.window.datas.tail, value = data) ∧ Kept after := by
  have notZero : pushes.window.fixLength ≠ 0 := by omega
  have leaves : pushes.window.emplaceBack data =
      some { pushes.window with datas := data :: pushes.window.datas.tail } := by
    rw [emplaceBack, if_neg notZero, if_pos one]
    cases pushes.window.datas <;> rfl
  obtain rfl := Option.some.inj ((next_pushed leaves).symm.trans taken)
  have length : (data :: pushes.window.datas.tail).length = max 1 pushes.window.datas.length := by
    rw [List.length_cons, List.length_tail]
    omega
  refine ⟨?_, kept_pushed kept (by omega)⟩
  rw [pushed, holds_push_iff holds, one, Nat.one_mul, length]
  have multiple := kept.multiple
  have suffix := holds.suffix
  cases isDatas : pushes.window.datas with
  | nil =>
    refine iff_of_true ⟨List.suffix_append _ _, rfl, fun _ => ?_⟩ ⟨Nat.zero_le _, by simp⟩
    rw [List.length_nil]
    omega
  | cons head rest =>
    rw [isDatas] at suffix
    rw [List.tail_cons, suffix_replace_iff suffix data]
    constructor
    · rintro ⟨same, _, bounds⟩
      have := (bounds (Nat.le_refl 1)).2
      exact ⟨by omega, same⟩
    · rintro ⟨short, same⟩
      refine ⟨same, ?_, fun _ => ?_⟩
      · rw [(cons_eq_append_iff data rest).mpr same, List.getLast?_append_of_ne_nil _ (by simp)]
        rfl
      · rw [List.length_cons] at short ⊢
        omega

/-- Without a wrap, all but so many values are erased that the limit is reached with the next one. -/
theorem erased_eq (window : ScrollWindowVector Data) (small : window.fixLength * window.multiple < 2 ^ 64)
    (more : 2 ≤ window.fixLength) (multiple : 1 ≤ window.multiple) :
    window.erased + window.fixLength = window.fixLength * window.multiple + 1 := by
  have split : window.fixLength * window.multiple =
      window.fixLength * (window.multiple - 1) + window.fixLength := by
    rw [← Nat.mul_succ, Nat.succ_eq_add_one, Nat.sub_add_cancel multiple]
  have fits : window.multiple ≤ window.fixLength * window.multiple :=
    Nat.le_mul_of_pos_left window.multiple (by omega)
  rw [erased, subSize_eq multiple (by omega), mulSize_eq (by omega), addSize_eq (by omega)]
  omega

/-- A window of more values that has not reached its limit. -/
theorem push_short (holds : Holds pushes) (kept : Kept pushes) (more : 2 ≤ pushes.window.fixLength)
    (short : pushes.window.datas.length < mulSize pushes.window.fixLength pushes.window.multiple)
    (taken : pushes.next (.emplaceBack data) = some after) : Holds after ∧ pushes.Room ∧ Kept after := by
  have enough := kept.enough
  have whole : pushes.window.fixLength ≤ pushes.window.fixLength * pushes.window.multiple :=
    Nat.le_mul_of_pos_right _ kept.multiple
  have wrapped : mulSize pushes.window.fixLength pushes.window.multiple ≤
      pushes.window.fixLength * pushes.window.multiple := Nat.mod_le _ _
  have leaves : pushes.window.emplaceBack data =
      some { pushes.window with datas := pushes.window.datas.drop 0 ++ [data] } := by
    rw [emplaceBack, if_neg (by omega), if_neg (by omega), if_neg (by omega), List.drop_zero]
  obtain rfl := Option.some.inj ((next_pushed leaves).symm.trans taken)
  have holdsAfter : Holds (pushes.pushed data (pushes.window.datas.drop 0 ++ [data])) :=
    (holds_append_iff holds 0).mpr fun _ => by omega
  refine ⟨holdsAfter, ?_, kept_pushed kept ?_⟩
  · unfold Room
    split
    · omega
    · exact .inl short
  · rw [List.length_append, List.length_drop, List.length_singleton]
    omega

/-- A window of more values that has, and from which the first ones are erased. -/
theorem push_erased (holds : Holds pushes) (kept : Kept pushes) (more : 2 ≤ pushes.window.fixLength)
    (full : ¬pushes.window.datas.length < mulSize pushes.window.fixLength pushes.window.multiple)
    (inside : pushes.window.erased ≤ pushes.window.datas.length)
    (taken : pushes.next (.emplaceBack data) = some after) :
    (Holds after ↔ pushes.Room) ∧ (Holds after → Kept after) := by
  have erases (small : pushes.window.fixLength * pushes.window.multiple < 2 ^ 64) :=
    erased_eq pushes.window small more kept.multiple
  have leaves : pushes.window.emplaceBack data =
      some { pushes.window with datas := pushes.window.datas.drop pushes.window.erased ++ [data] } := by
    rw [emplaceBack, if_neg (by omega), if_neg (by omega), if_pos (by omega), if_pos inside]
  obtain rfl := Option.some.inj ((next_pushed leaves).symm.trans taken)
  have bounds : Holds (pushes.pushed data (pushes.window.datas.drop pushes.window.erased ++ [data])) ↔ _ :=
    holds_append_iff holds pushes.window.erased
  refine ⟨bounds.trans ⟨fun within => ?_, fun room _ => ?_⟩, fun holds => kept_pushed kept ?_⟩
  · obtain ⟨lower, upper⟩ := within (by omega)
    unfold Room
    split
    · rename_i small
      have := erases small
      omega
    · exact .inr ⟨inside, by omega, by omega⟩
  · unfold Room at room
    split at room
    · rename_i small
      have := erases small
      have exactly : mulSize pushes.window.fixLength pushes.window.multiple =
          pushes.window.fixLength * pushes.window.multiple := mulSize_eq small
      have enough := kept.enough
      omega
    · obtain early | ⟨_, lower, upper⟩ := room
      · exact absurd early full
      · omega
  · have lower := (bounds.mp holds (by omega)).1
    rw [List.length_append, List.length_drop, List.length_singleton]
    exact lower

/-- A window of more values in which there are fewer than have to be erased. -/
theorem push_faulted (more : 2 ≤ pushes.window.fixLength) (multiple : 1 ≤ pushes.window.multiple)
    (full : ¬pushes.window.datas.length < mulSize pushes.window.fixLength pushes.window.multiple)
    (outside : ¬pushes.window.erased ≤ pushes.window.datas.length)
    (taken : pushes.next (.emplaceBack data) = some after) : ¬Holds after ∧ ¬pushes.Room := by
  have fault : after = { pushes with faulted := true } := by
    rw [next, emplaceBack, if_neg (by omega), if_neg (by omega), if_pos (by omega), if_neg outside] at taken
    exact (Option.some.inj taken).symm
  refine ⟨fun holds => ?_, ?_⟩
  · have := holds.inside
    rw [fault] at this
    cases this
  · unfold Room
    split
    · rename_i small
      have := erased_eq pushes.window small more multiple
      rw [mulSize_eq small] at full
      omega
    · rintro (early | ⟨within, _⟩)
      · exact full early
      · exact outside within

/-- A window of more values. -/
theorem push_more (holds : Holds pushes) (kept : Kept pushes) (more : 2 ≤ pushes.window.fixLength)
    (taken : pushes.next (.emplaceBack data) = some after) :
    (Holds after ↔ pushes.Room) ∧ (Holds after → Kept after) := by
  by_cases short : pushes.window.datas.length < mulSize pushes.window.fixLength pushes.window.multiple
  · obtain ⟨holdsAfter, room, keptAfter⟩ := push_short holds kept more short taken
    exact ⟨iff_of_true holdsAfter room, fun _ => keptAfter⟩
  · by_cases inside : pushes.window.erased ≤ pushes.window.datas.length
    · exact push_erased holds kept more short inside taken
    · obtain ⟨fails, noRoom⟩ := push_faulted more kept.multiple short inside taken
      exact ⟨iff_of_false fails noRoom, fun holds => absurd holds fails⟩

theorem push_iff (holds : Holds pushes) (kept : Kept pushes)
    (taken : pushes.next (.emplaceBack data) = some after) :
    (Holds after ↔ Fits pushes (.emplaceBack data)) ∧ (Holds after → Kept after) := by
  by_cases unlimited : pushes.window.fixLength = 0
  · obtain ⟨holdsAfter, keptAfter⟩ := push_unlimited holds kept unlimited taken
    rw [Fits, if_pos unlimited]
    exact ⟨iff_of_true holdsAfter trivial, fun _ => keptAfter⟩
  · by_cases one : pushes.window.fixLength = 1
    · obtain ⟨same, keptAfter⟩ := push_one holds kept one taken
      rw [Fits, if_neg unlimited, if_pos one]
      exact ⟨same, fun _ => keptAfter⟩
    · rw [Fits, if_neg unlimited, if_neg one]
      exact push_more holds kept (by omega) taken

/-- A call keeps the window right just if it fits. -/
theorem holds_next_iff {call : Call Data} (holds : Holds pushes) (kept : Kept pushes)
    (allowed : call.Allowed) (taken : pushes.next call = some after) :
    (Holds after ↔ Fits pushes call) ∧ (Holds after → Kept after) := by
  obtain ⟨inside, suffix, back, bounds⟩ := holds
  cases call with
  | emplaceBack data => exact push_iff ⟨inside, suffix, back, bounds⟩ kept taken
  | setFixLength fixLength multiple =>
    cases taken
    refine ⟨iff_of_true ⟨inside, suffix, back, fun now => absurd now Bool.false_ne_true⟩ trivial,
      fun _ => ⟨?_, allowed⟩⟩
    by_cases unchanged : pushes.window.fixLength = fixLength ∧ pushes.window.multiple = multiple
    · have enough := kept.enough
      rw [unchanged.1] at enough
      simp only [if_pos unchanged]
      exact enough
    · simp only [if_neg unchanged, Nat.zero_min]
      exact Nat.zero_le _
  | clear =>
    cases taken
    refine ⟨iff_of_true ⟨inside, List.suffix_refl _, rfl, ?_⟩ trivial, fun _ => ⟨?_, kept.multiple⟩⟩
    · exact fun now => absurd now Bool.false_ne_true
    · exact Nat.le_of_eq (Nat.zero_min _)

theorem exists_run (calls : List (Call Data)) (pushes : Pushes Data) :
    ∃ last, Path (Taken next) pushes calls last := by
  induction calls generalizing pushes with
  | nil => exact ⟨pushes, .nil _⟩
  | cons call calls ih =>
    have taken : ∃ after, pushes.next call = some after := by
      cases call with
      | setFixLength fixLength multiple => exact ⟨_, rfl⟩
      | emplaceBack data =>
        cases leaves : pushes.window.emplaceBack data with
        | none => exact ⟨_, by rw [next, leaves]⟩
        | some window => exact ⟨_, by rw [next, leaves]⟩
      | clear => exact ⟨_, rfl⟩
    obtain ⟨after, isAfter⟩ := taken
    obtain ⟨last, path⟩ := ih after
    exact ⟨last, .cons isAfter path⟩

end Pushes

open Pushes

/-- All along any calls with positive multiples: the window has the last values that were pushed, ends
with the newest and keeps to its limits just if every push fits. -/
theorem window_keeps_last_iff (calls : List (Call Data)) (allowed : ∀ call ∈ calls, call.Allowed) :
    (∀ pushes, Path.Visits (Taken next) (start : Pushes Data) calls pushes → Holds pushes) ↔
      ∀ pushes call, Path.Takes (Taken next) (start : Pushes Data) calls pushes call →
        Fits pushes call := by
  obtain ⟨last, path⟩ := exists_run calls (start : Pushes Data)
  refine path.visits_iff_takes Kept ?_ allowed ?_ ?_
  · intro before call after kept holds allowed taken
    exact holds_next_iff holds kept allowed taken
  · exact ⟨rfl, List.suffix_refl _, rfl, fun now => absurd now Bool.false_ne_true⟩
  · exact ⟨Nat.le_of_eq (Nat.zero_min _), Nat.le_refl 1⟩

/-- A value pushed into a window of two. -/
theorem window_keeps_last_iff_two :
    (∀ pushes call, Path.Takes (Taken next) (start : Pushes Nat) [.setFixLength 2 2, .emplaceBack 1]
        pushes call → Fits pushes call) ∧
      ∀ pushes, Path.Visits (Taken next) (start : Pushes Nat) [.setFixLength 2 2, .emplaceBack 1] pushes →
        Holds pushes := by
  have allowed : ∀ call ∈ ([.setFixLength 2 2, .emplaceBack 1] : List (Call Nat)), call.Allowed := by
    intro call member
    rcases List.mem_cons.mp member with rfl | member
    · exact show 1 ≤ 2 by decide
    · rw [List.mem_singleton.mp member]
      trivial
  have fits : ∀ pushes call, Path.Takes (Taken next) (start : Pushes Nat)
      [.setFixLength 2 2, .emplaceBack 1] pushes call → Fits pushes call := by
    intro pushes call takes
    rcases Path.takes_cons.mp takes with ⟨rfl, rfl⟩ | ⟨second, head, rest⟩
    · trivial
    · cases head
      rcases Path.takes_cons.mp rest with ⟨rfl, rfl⟩ | ⟨_, _, front, back, split, _⟩
      · exact show 0 + 2 ≤ 2 * (2 * 2) by decide
      · simp at split
  exact ⟨fits, (window_keeps_last_iff _ allowed).mpr fits⟩

/-- A window of two values that is to be one of one value replaces the older of them. -/
theorem older_value_replaced :
    ∃ last, Path (Taken next) (start : Pushes Nat)
        [.emplaceBack 1, .emplaceBack 2, .setFixLength 1 1, .emplaceBack 3] last ∧
      last.window.datas = [3, 2] ∧ last.values = [1, 2, 3] ∧ ¬ Holds last := by
  refine ⟨_, .cons rfl (.cons rfl (.cons rfl (.cons rfl (.nil _)))), rfl, rfl, fun holds => ?_⟩
  exact absurd holds.back (by decide)

end ScrollWindowVector

end BTool.ScrollWindow
