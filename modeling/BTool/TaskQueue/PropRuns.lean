import Mathlib.Algebra.GroupWithZero.Nat
import Mathlib.Data.List.Basic
import Mathlib.Data.List.Count

/-! The meaning of a `PropCountNodeList`: a sequence of runs of one property each,
and behind it the waiting properties in order with the set of those ready to pop. -/

namespace BTool.TaskQueue

structure PropRun (P : Type) where
  prop : P
  count : Nat
  canPop : Bool

namespace PropRuns

variable {P : Type} [DecidableEq P]

/-- One entry for every waiting task, in the order of the tasks. -/
def waiting (runs : List (PropRun P)) : List P :=
  runs.flatMap fun run => List.replicate run.count run.prop

/-- A property is ready when its first run may be popped. -/
def ready (runs : List (PropRun P)) (prop : P) : Bool :=
  (runs.find? fun run => run.prop = prop).any PropRun.canPop

/-- Runs are never empty, and only the first run of a property may be popped. -/
structure WellFormed (runs : List (PropRun P)) : Prop where
  positive : ∀ run ∈ runs, 0 < run.count
  first : runs.Pairwise fun earlier later => earlier.prop = later.prop → later.canPop = false

def pushBack (runs : List (PropRun P)) (prop : P) (canImmediatelyPop : Bool) : List (PropRun P) :=
  match runs.getLast? with
  | none => [⟨prop, 1, canImmediatelyPop⟩]
  | some last =>
    if last.prop = prop then runs.dropLast ++ [{ last with count := last.count + 1 }]
    else runs ++ [⟨prop, 1, canImmediatelyPop && !runs.any (fun run => run.prop = prop)⟩]

def resetProp : List (PropRun P) → P → List (PropRun P)
  | [], _ => []
  | run :: rest, prop =>
    if run.prop = prop then { run with canPop := true } :: rest else run :: resetProp rest prop

/-- What is left of a run after one of its tasks has been popped. -/
def popRun (run : PropRun P) : List (PropRun P) :=
  if 0 < run.count - 1 then [{ run with count := run.count - 1, canPop := false }] else []

def popFront : List (PropRun P) → Option (P × List (PropRun P))
  | [] => none
  | run :: rest =>
    if run.canPop then some (run.prop, popRun run ++ rest)
    else (popFront rest).map fun popped => (popped.1, run :: popped.2)

def removeProp (runs : List (PropRun P)) (prop : P) : List (PropRun P) :=
  runs.filter fun run => run.prop ≠ prop

variable {runs front back : List (PropRun P)} {run : PropRun P} {prop other : P} {can : Bool}

omit [DecidableEq P] in
@[simp] theorem waiting_nil : waiting ([] : List (PropRun P)) = [] := rfl

omit [DecidableEq P] in
@[simp] theorem waiting_cons :
    waiting (run :: runs) = List.replicate run.count run.prop ++ waiting runs := rfl

omit [DecidableEq P] in
@[simp] theorem waiting_append : waiting (front ++ back) = waiting front ++ waiting back := by
  simp [waiting]

@[simp] theorem ready_nil : ready ([] : List (PropRun P)) prop = false := rfl

@[simp] theorem ready_cons :
    ready (run :: runs) prop = if run.prop = prop then run.canPop else ready runs prop := by
  by_cases same : run.prop = prop <;> simp [ready, same]

omit [DecidableEq P] in
theorem WellFormed.mem_waiting (valid : WellFormed runs) :
    prop ∈ waiting runs ↔ ∃ run ∈ runs, run.prop = prop := by
  simp only [waiting, List.mem_flatMap, List.mem_replicate]
  constructor
  · rintro ⟨run, member, _, same⟩
    exact ⟨run, member, same.symm⟩
  · rintro ⟨run, member, same⟩
    exact ⟨run, member, Nat.pos_iff_ne_zero.mp (valid.positive run member), same.symm⟩

theorem ready_append (front back : List (PropRun P)) : ready (front ++ back) prop =
    if front.any (fun run => run.prop = prop) then ready front prop else ready back prop := by
  induction front with
  | nil => simp
  | cons head rest ih =>
    by_cases same : head.prop = prop
    · simp [same]
    · simp [same, ih]

theorem ready_eq_false_of_absent (absent : ∀ run ∈ runs, run.prop ≠ prop) :
    ready runs prop = false := by
  have missing : runs.find? (fun run => run.prop = prop) = none :=
    List.find?_eq_none.mpr (by simpa using absent)
  simp [ready, missing]

theorem exists_of_ready (isReady : ready runs prop = true) :
    ∃ run ∈ runs, run.prop = prop ∧ run.canPop = true := by
  unfold ready at isReady
  cases found : runs.find? (fun run => run.prop = prop) with
  | none => simp [found] at isReady
  | some run =>
    refine ⟨run, List.mem_of_find?_eq_some found, ?_, ?_⟩
    · simpa using List.find?_some found
    · simpa [found] using isReady

/-- A run that may be popped makes its property ready: it is the first of its property. -/
theorem WellFormed.ready_of_canPop (valid : WellFormed (front ++ run :: back))
    (can : run.canPop = true) : (∀ earlier ∈ front, earlier.prop ≠ run.prop) ∧
      ready (front ++ run :: back) run.prop = true := by
  have apart : ∀ earlier ∈ front, earlier.prop ≠ run.prop := by
    intro earlier member same
    have blocked := (List.pairwise_append.mp valid.first).2.2 earlier member run (by simp) same
    rw [can] at blocked
    cases blocked
  refine ⟨apart, ?_⟩
  have none : (front.any fun earlier => decide (earlier.prop = run.prop)) = false := by
    simpa using apart
  simp [ready_append, none, can]

theorem WellFormed.exists_canPop_iff (valid : WellFormed runs) :
    (∃ run ∈ runs, run.canPop = true) ↔ ∃ prop, ready runs prop = true := by
  constructor
  · rintro ⟨run, member, can⟩
    obtain ⟨front, back, same⟩ := List.append_of_mem member
    subst same
    exact ⟨run.prop, (valid.ready_of_canPop can).2⟩
  · rintro ⟨prop, isReady⟩
    obtain ⟨run, member, _, can⟩ := exists_of_ready isReady
    exact ⟨run, member, can⟩

/-- The waiting entries of a property are the tasks counted by its runs. -/
theorem count_waiting (runs : List (PropRun P)) (prop : P) : (waiting runs).count prop =
    ((runs.filter fun run => run.prop = prop).map PropRun.count).sum := by
  induction runs with
  | nil => rfl
  | cons run rest ih =>
    by_cases same : run.prop = prop <;> simp [List.count_replicate, same, ih]

/-- `pushBack` adds one waiting task at the end. -/
theorem waiting_pushBack : waiting (pushBack runs prop can) = waiting runs ++ [prop] := by
  rcases List.eq_nil_or_concat runs with empty | ⟨init, last, same⟩
  · simp [empty, pushBack]
  · subst same
    by_cases merged : last.prop = prop
    · simp [pushBack, merged, List.replicate_succ']
    · simp [pushBack, merged]

private theorem ready_snoc (runs : List (PropRun P)) (prop other : P) (can : Bool) :
    ready (runs ++ [⟨prop, 1, can && !runs.any fun run => run.prop = prop⟩]) other =
      if other = prop ∧ (runs.any fun run => run.prop = prop) = false then can
      else ready runs other := by
  rw [ready_append]
  by_cases equal : other = prop
  · subst equal
    cases present : runs.any fun run => run.prop = other <;> simp
  · cases present : runs.any fun run => run.prop = other with
    | true => simp [equal]
    | false =>
      have absent : ∀ run ∈ runs, run.prop ≠ other := by simpa using present
      simp [equal, Ne.symm equal, ready_eq_false_of_absent absent]

/-- It makes a property ready only when nothing of the property was waiting. -/
theorem WellFormed.ready_pushBack (valid : WellFormed runs) :
    ready (pushBack runs prop can) other =
      if other = prop ∧ prop ∉ waiting runs then can else ready runs other := by
  have presence : (runs.any fun run => run.prop = prop) = false ↔ prop ∉ waiting runs := by
    simp [valid.mem_waiting]
  simp only [← presence]
  rcases List.eq_nil_or_concat runs with empty | ⟨init, last, same⟩
  · subst empty
    simpa [pushBack] using ready_snoc [] prop other can
  · subst same
    rw [List.concat_eq_append]
    by_cases merged : last.prop = prop
    · simp [pushBack, merged, ready_append]
    · simpa [pushBack, merged] using ready_snoc (init ++ [last]) prop other can

theorem WellFormed.pushBack (valid : WellFormed runs) :
    WellFormed (PropRuns.pushBack runs prop can) := by
  rcases List.eq_nil_or_concat runs with empty | ⟨init, last, same⟩
  · subst empty
    exact ⟨by simp [PropRuns.pushBack], by simp [PropRuns.pushBack]⟩
  · subst same
    rw [List.concat_eq_append] at *
    obtain ⟨initFirst, _, apart⟩ := List.pairwise_append.mp valid.first
    by_cases merged : last.prop = prop
    · have shape : PropRuns.pushBack (init ++ [last]) prop can =
          init ++ [{ last with count := last.count + 1 }] := by
        simp [PropRuns.pushBack, merged]
      rw [shape]
      constructor
      · intro run member
        rcases List.mem_append.mp member with old | new
        · exact valid.positive run (by simp [old])
        · simp_all
      · refine List.pairwise_append.mpr ⟨initFirst, by simp, ?_⟩
        intro earlier member later new same
        have equal : later = { last with count := last.count + 1 } := by simpa using new
        subst equal
        exact apart earlier member last (by simp) same
    · have shape : PropRuns.pushBack (init ++ [last]) prop can = init ++ [last] ++
          [⟨prop, 1, can && !(init ++ [last]).any (fun run => run.prop = prop)⟩] := by
        simp [PropRuns.pushBack, merged]
      rw [shape]
      constructor
      · intro run member
        rcases List.mem_append.mp member with old | new
        · exact valid.positive run old
        · simp_all
      · refine List.pairwise_append.mpr ⟨valid.first, by simp, ?_⟩
        intro earlier member later new same
        rw [List.mem_singleton.mp new] at same ⊢
        have found : (init ++ [last]).any (fun run => decide (run.prop = prop)) = true :=
          List.any_eq_true.mpr ⟨earlier, member, by simpa using same⟩
        simp only [found, Bool.not_true, Bool.and_false]

@[simp] theorem waiting_resetProp : waiting (resetProp runs prop) = waiting runs := by
  induction runs with
  | nil => rfl
  | cons run rest ih =>
    by_cases same : run.prop = prop <;> simp [resetProp, same, ih]

/-- `resetProp` makes a waiting property ready and changes no other. -/
theorem WellFormed.ready_resetProp (valid : WellFormed runs) :
    ready (resetProp runs prop) other =
      (ready runs other || decide (other = prop ∧ prop ∈ waiting runs)) := by
  have presence : (prop ∈ waiting runs) ↔ ∃ run ∈ runs, run.prop = prop := valid.mem_waiting
  simp only [presence]
  clear valid presence
  induction runs with
  | nil => simp [resetProp]
  | cons run rest ih =>
    by_cases same : run.prop = prop
    · subst same
      by_cases equal : run.prop = other
      · simp [resetProp, equal]
      · simp [resetProp, equal, Ne.symm equal]
    · by_cases equal : run.prop = other
      · have different : other ≠ prop := fun eq => same (equal.trans eq)
        simp [resetProp, equal, different]
      · simp [resetProp, same, equal, ih]

private theorem prop_of_mem_resetProp (member : run ∈ resetProp runs prop) :
    ∃ old ∈ runs, old.prop = run.prop ∧ old.count = run.count ∧
      (run.prop ≠ prop → old.canPop = run.canPop) := by
  induction runs with
  | nil => simp [resetProp] at member
  | cons head rest ih =>
    by_cases same : head.prop = prop
    · simp only [resetProp, same, if_true, List.mem_cons] at member
      rcases member with new | old
      · subst new
        exact ⟨head, by simp, same, rfl, fun different => absurd rfl different⟩
      · exact ⟨run, by simp [old], rfl, rfl, fun _ => rfl⟩
    · simp only [resetProp, same, if_false, List.mem_cons] at member
      rcases member with new | old
      · subst new
        exact ⟨run, by simp, rfl, rfl, fun _ => rfl⟩
      · obtain ⟨before, present, kept⟩ := ih old
        exact ⟨before, by simp [present], kept⟩

theorem WellFormed.resetProp (valid : WellFormed runs) :
    WellFormed (PropRuns.resetProp runs prop) := by
  constructor
  · intro run member
    obtain ⟨old, present, _, count, _⟩ := prop_of_mem_resetProp member
    exact count ▸ valid.positive old present
  · have first := valid.first
    clear valid
    induction runs with
    | nil => exact List.Pairwise.nil
    | cons head rest ih =>
      obtain ⟨apart, remaining⟩ := List.pairwise_cons.mp first
      by_cases same : head.prop = prop
      · simp only [PropRuns.resetProp, same, if_true]
        exact List.pairwise_cons.mpr ⟨fun later member equal =>
          apart later member (same.trans equal), remaining⟩
      · simp only [PropRuns.resetProp, same, if_false]
        refine List.pairwise_cons.mpr ⟨?_, ih remaining⟩
        intro later member equal
        obtain ⟨old, present, prop, _, kept⟩ := prop_of_mem_resetProp member
        rw [← kept (fun eq => same (equal.trans eq))]
        exact apart old present (equal.trans prop.symm)

omit [DecidableEq P] in
/-- `popFront` takes from the first run that may be popped. -/
theorem popFront_eq_some {popped : P × List (PropRun P)} : popFront runs = some popped ↔
    ∃ front run back, runs = front ++ run :: back ∧ (∀ earlier ∈ front, earlier.canPop = false) ∧
      run.canPop = true ∧ popped = (run.prop, front ++ popRun run ++ back) := by
  induction runs generalizing popped with
  | nil => simp [popFront]
  | cons head rest ih =>
    constructor
    · intro success
      by_cases can : head.canPop = true
      · simp only [popFront, can, if_true, Option.some.injEq] at success
        exact ⟨[], head, rest, rfl, by simp, can, success.symm⟩
      · simp only [popFront, can, Bool.false_eq_true, if_false, Option.map_eq_some_iff] at success
        obtain ⟨later, found, same⟩ := success
        obtain ⟨front, run, back, shape, blocked, allowed, equal⟩ := ih.mp found
        refine ⟨head :: front, run, back, by simp [shape], ?_, allowed, ?_⟩
        · intro earlier member
          rcases List.mem_cons.mp member with first | inner
          · simpa [first] using can
          · exact blocked earlier inner
        · simp [← same, equal]
    · rintro ⟨front, run, back, shape, blocked, allowed, equal⟩
      cases front with
      | nil =>
        obtain ⟨rfl, rfl⟩ : head = run ∧ rest = back := by simpa using shape
        simp [popFront, allowed, equal]
      | cons first front =>
        obtain ⟨rfl, rfl⟩ : head = first ∧ rest = front ++ run :: back := by simpa using shape
        have later := ih.mpr ⟨front, run, back, rfl,
          fun earlier member => blocked earlier (by simp [member]), allowed, rfl⟩
        simp [popFront, blocked head (by simp), later, equal]

omit [DecidableEq P] in
theorem popFront_eq_none : popFront runs = none ↔ ∀ run ∈ runs, run.canPop = false := by
  induction runs with
  | nil => simp [popFront]
  | cons head rest ih =>
    by_cases can : head.canPop = true <;> simp [popFront, can, ih]

section PopFront

variable {rest : List (PropRun P)}

omit [DecidableEq P] in
private theorem mem_popRun {left : PropRun P} (member : left ∈ popRun run) :
    left.prop = run.prop ∧ 0 < left.count ∧ left.canPop = false := by
  unfold popRun at member
  split at member
  · rename_i remaining
    obtain rfl := List.mem_singleton.mp member
    exact ⟨rfl, remaining, rfl⟩
  · cases member

private theorem waiting_popRun (positive : 0 < run.count) :
    waiting (popRun run) = (List.replicate run.count run.prop).erase run.prop := by
  obtain ⟨count, same⟩ : ∃ count, run.count = count + 1 := ⟨run.count - 1, by omega⟩
  cases count <;> simp [popRun, same, List.replicate_succ]

/-- The popped property is the first waiting one that is ready. -/
theorem WellFormed.find?_of_popFront (valid : WellFormed runs)
    (success : popFront runs = some (prop, rest)) :
    (waiting runs).find? (ready runs) = some prop := by
  obtain ⟨front, run, back, shape, blocked, can, same⟩ := popFront_eq_some.mp success
  obtain ⟨rfl, rfl⟩ := Prod.mk.inj same
  subst shape
  obtain ⟨apart, isReady⟩ := valid.ready_of_canPop can
  have skipped : (waiting front).find? (ready (front ++ run :: back)) = none := by
    refine List.find?_eq_none.mpr ?_
    intro other member
    obtain ⟨earlier, present, count⟩ := List.mem_flatMap.mp member
    have equal : earlier.prop = other := ((List.mem_replicate.mp count).2).symm
    have found : (front.any fun run => decide (run.prop = other)) = true :=
      List.any_eq_true.mpr ⟨earlier, present, by simpa using equal⟩
    rw [ready_append, found]
    simp only [if_true, Bool.not_eq_true]
    cases value : ready front other with
    | false => rfl
    | true =>
      obtain ⟨one, inside, _, allowed⟩ := exists_of_ready value
      rw [blocked one inside] at allowed
      cases allowed
  obtain ⟨count, positive⟩ : ∃ count, run.count = count + 1 :=
    ⟨run.count - 1, by have := valid.positive run (by simp); omega⟩
  rw [waiting_append, List.find?_append, skipped, waiting_cons, positive, List.replicate_succ]
  simp [isReady]

/-- One waiting entry is gone: the first one of the popped property. -/
theorem WellFormed.waiting_popFront (valid : WellFormed runs)
    (success : popFront runs = some (prop, rest)) :
    waiting rest = (waiting runs).erase prop := by
  obtain ⟨front, run, back, shape, blocked, can, same⟩ := popFront_eq_some.mp success
  obtain ⟨rfl, rfl⟩ := Prod.mk.inj same
  subst shape
  have positive := valid.positive run (by simp)
  have absent : run.prop ∉ waiting front := by
    intro member
    obtain ⟨earlier, present, count⟩ := List.mem_flatMap.mp member
    exact (valid.ready_of_canPop can).1 earlier present (List.mem_replicate.mp count).2.symm
  have present : run.prop ∈ List.replicate run.count run.prop :=
    List.mem_replicate.mpr ⟨Nat.pos_iff_ne_zero.mp positive, rfl⟩
  simp only [waiting_append, waiting_cons, waiting_popRun positive]
  rw [List.erase_append_right _ absent, List.erase_append_left _ present, List.append_assoc]

theorem WellFormed.ready_popFront (valid : WellFormed runs)
    (success : popFront runs = some (prop, rest)) :
    ready rest other = (ready runs other && decide (other ≠ prop)) := by
  obtain ⟨front, run, back, shape, blocked, can, same⟩ := popFront_eq_some.mp success
  obtain ⟨rfl, rfl⟩ := Prod.mk.inj same
  subst shape
  by_cases equal : other = run.prop
  · subst equal
    have none : ready (front ++ popRun run ++ back) run.prop = false := by
      cases value : ready (front ++ popRun run ++ back) run.prop with
      | false => rfl
      | true =>
        obtain ⟨one, inside, sameProp, allowed⟩ := exists_of_ready value
        rcases List.mem_append.mp inside with earlier | later
        · rcases List.mem_append.mp earlier with before | left
          · exact absurd sameProp ((valid.ready_of_canPop can).1 one before)
          · rw [(mem_popRun left).2.2] at allowed
            cases allowed
        · have behind := (List.pairwise_append.mp valid.first).2.1
          rw [(List.pairwise_cons.mp behind).1 one later sameProp.symm] at allowed
          cases allowed
    rw [none]
    simp
  · have skipped : (popRun run).any (fun left => decide (left.prop = other)) = false := by
      apply List.any_eq_false.mpr
      intro left member
      rw [(mem_popRun member).1]
      simpa using Ne.symm equal
    rw [List.append_assoc, ready_append, ready_append (popRun run), skipped,
      ready_append front, ready_cons]
    simp [equal, Ne.symm equal]

omit [DecidableEq P] in
theorem WellFormed.popFront (valid : WellFormed runs)
    (success : PropRuns.popFront runs = some (prop, rest)) : WellFormed rest := by
  obtain ⟨front, run, back, shape, blocked, can, same⟩ := popFront_eq_some.mp success
  obtain ⟨rfl, rfl⟩ := Prod.mk.inj same
  subst shape
  obtain ⟨frontFirst, behind, apart⟩ := List.pairwise_append.mp valid.first
  obtain ⟨runFirst, backFirst⟩ := List.pairwise_cons.mp behind
  constructor
  · intro one member
    rcases List.mem_append.mp member with earlier | later
    · rcases List.mem_append.mp earlier with before | left
      · exact valid.positive one (by simp [before])
      · exact (mem_popRun left).2.1
    · exact valid.positive one (by simp [later])
  · rw [List.append_assoc]
    have leftFirst : (popRun run).Pairwise fun earlier later =>
        earlier.prop = later.prop → later.canPop = false := by
      unfold popRun
      split <;> simp
    refine List.pairwise_append.mpr ⟨frontFirst, List.pairwise_append.mpr
      ⟨leftFirst, backFirst, ?_⟩, ?_⟩
    · intro left member later present equal
      exact runFirst later present ((mem_popRun member).1.symm.trans equal)
    · intro earlier member later present equal
      rcases List.mem_append.mp present with left | behind
      · exact (mem_popRun left).2.2
      · exact apart earlier member later (by simp [behind]) equal

end PopFront

/-- `removeProp` drops every waiting entry of the property. -/
theorem waiting_removeProp :
    waiting (removeProp runs prop) = (waiting runs).filter (fun entry => entry ≠ prop) := by
  induction runs with
  | nil => rfl
  | cons run rest ih =>
    unfold removeProp at ih ⊢
    by_cases same : run.prop = prop <;> simp_all

theorem ready_removeProp :
    ready (removeProp runs prop) other = (ready runs other && decide (other ≠ prop)) := by
  induction runs with
  | nil => simp [removeProp]
  | cons run rest ih =>
    unfold removeProp at ih ⊢
    by_cases same : run.prop = prop
    · by_cases equal : other = prop
      · simpa [same, equal] using ih
      · simpa [same, equal, Ne.symm equal] using ih
    · by_cases equal : run.prop = other
      · have different : other ≠ prop := equal ▸ same
        simp [equal, different]
      · simpa [same, equal] using ih

theorem WellFormed.removeProp (valid : WellFormed runs) :
    WellFormed (PropRuns.removeProp runs prop) :=
  ⟨fun run member => valid.positive run (List.mem_filter.mp member).1, valid.first.filter _⟩

end PropRuns

end BTool.TaskQueue
