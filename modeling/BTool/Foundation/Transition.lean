import Mathlib.Algebra.GroupWithZero.Nat
import Mathlib.Data.List.Basic

/-! Labelled transitions, finite runs, and the rules by which a property of one
step becomes a property of every run. Nothing here depends on a particular system. -/

namespace BTool.Foundation

-- The threads of a small run are numbered in `Fin 1` and `Fin 2`.
instance neZero_one : NeZero (1 : Nat) := ⟨Nat.one_ne_zero⟩

instance neZero_two : NeZero (2 : Nat) := ⟨Nat.succ_ne_zero 1⟩

universe u v w

variable {State : Type u} {Action : Type v} {Other : Type w}

/-- A finite run, labelled by the actions it takes. -/
inductive Path (step : State → Action → State → Prop) : State → List Action → State → Prop where
  | nil (state : State) : Path step state [] state
  | cons {first second last : State} {action : Action} {actions : List Action}
      (head : step first action second) (tail : Path step second actions last) :
      Path step first (action :: actions) last

/-- The transition relation of an executable step; `none` is a disabled action. -/
def Taken (next : State → Action → Option State) (before : State) (action : Action)
    (after : State) : Prop := next before action = some after

/-- Steps that also meet a condition on the state before them. -/
def Guarded (step : State → Action → State → Prop) (guard : State → Action → Prop)
    (before : State) (action : Action) (after : State) : Prop :=
  guard before action ∧ step before action after

/-- Run an executable step over a list of actions. -/
def exec (next : State → Action → Option State) : State → List Action → Option State
  | state, [] => some state
  | state, action :: actions => (next state action).bind (fun after => exec next after actions)

theorem exec_eq_some_iff {next : State → Action → Option State} {first last : State}
    {actions : List Action} :
    exec next first actions = some last ↔ Path (Taken next) first actions last := by
  induction actions generalizing first with
  | nil =>
    constructor
    · intro same
      cases same
      exact .nil _
    · intro path
      cases path
      rfl
  | cons action rest ih =>
    constructor
    · intro success
      obtain ⟨middle, taken, remaining⟩ := Option.bind_eq_some_iff.mp success
      exact .cons taken (ih.mp remaining)
    · intro path
      cases path with
      | cons head tail => exact Option.bind_eq_some_iff.mpr ⟨_, head, ih.mpr tail⟩

/-- An executable step that also refuses to act where the condition fails. -/
def checked (next : State → Action → Option State) (guard : State → Action → Prop)
    [∀ state action, Decidable (guard state action)] (state : State) (action : Action) :
    Option State :=
  if guard state action then next state action else none

theorem taken_checked {next : State → Action → Option State} {guard : State → Action → Prop}
    [∀ state action, Decidable (guard state action)] {before after : State} {action : Action} :
    Taken (checked next guard) before action after ↔
      Guarded (Taken next) guard before action after := by
  unfold Taken checked Guarded
  by_cases holds : guard before action <;> simp [holds]

namespace Path

variable {step : State → Action → State → Prop} {first last : State} {actions : List Action}

theorem mono {weaker : State → Action → State → Prop}
    (weaken : ∀ before action after, step before action after → weaker before action after)
    (path : Path step first actions last) : Path weaker first actions last := by
  induction path with
  | nil _ => exact .nil _
  | cons head _ ih => exact .cons (weaken _ _ _ head) ih

theorem append {middle : State} {later : List Action} (front : Path step first actions middle)
    (back : Path step middle later last) : Path step first (actions ++ later) last := by
  induction front with
  | nil _ => exact back
  | cons head _ ih => exact .cons head (ih back)

theorem snoc {before : State} {action : Action} (front : Path step first actions before)
    (taken : step before action last) : Path step first (actions ++ [action]) last :=
  front.append (.cons taken (.nil _))

/-- What holds at first, and stays true of the run so far with each step it takes, is true
of every run. -/
theorem history (holds : List Action → State → Prop) (start : holds [] first)
    (kept : ∀ done before action after, Path step first done before → holds done before →
      step before action after → holds (done ++ [action]) after)
    (path : Path step first actions last) : holds actions last := by
  have further (rest : List Action) (middle : State) (path : Path step middle rest last) :
      ∀ done, Path step first done middle → holds done middle → holds (done ++ rest) last := by
    induction path with
    | nil _ =>
      intro done _ now
      rwa [List.append_nil]
    | @cons before after _ action rest taken _ ih =>
      intro done front now
      rw [List.append_cons]
      exact ih path _ (front.snoc taken) (kept _ _ _ _ front now taken)
  exact further actions first path [] (.nil _) start

/-- A condition on the actions of a run is a condition on its steps. -/
theorem guard {allowed : Action → Prop} (path : Path step first actions last)
    (all : ∀ action ∈ actions, allowed action) :
    Path (Guarded step fun _ action => allowed action) first actions last := by
  induction path with
  | nil _ => exact .nil _
  | cons head _ ih =>
    exact .cons ⟨all _ (by simp), head⟩ (ih fun action member => all action (by simp [member]))

/-- A property that every step keeps holds at the end of every run. -/
theorem invariant (holds : State → Prop)
    (preserved : ∀ before action after, holds before → step before action after → holds after)
    (path : Path step first actions last) (start : holds first) : holds last := by
  induction path with
  | nil _ => exact start
  | cons head _ ih => exact ih (preserved _ _ _ start head)

/-- A run along which an invariant ensures the condition of every step is a guarded run. -/
theorem guarded_of_invariant {fine : State → Action → Prop} (holds : State → Prop)
    (preserved : ∀ before action after, holds before → step before action after → holds after)
    (ensures : ∀ before action after, holds before → step before action after → fine before action)
    (path : Path step first actions last) (start : holds first) :
    Path (Guarded step fine) first actions last := by
  induction path with
  | nil _ => exact .nil _
  | cons head _ ih =>
    exact .cons ⟨ensures _ _ _ start head, head⟩ (ih (preserved _ _ _ start head))

/-- A run is followed, action by action, by any transition that can match each step. -/
theorem simulate (spec : Other → Action → Other → Prop) (related : State → Other → Prop)
    (matches_step : ∀ before action after abstract, related before abstract →
      step before action after → ∃ next, spec abstract action next ∧ related after next)
    (path : Path step first actions last) {abstract : Other} (start : related first abstract) :
    ∃ final, Path spec abstract actions final ∧ related last final := by
  induction path generalizing abstract with
  | nil _ => exact ⟨abstract, .nil _, start⟩
  | cons head _ ih =>
    obtain ⟨next, taken, kept⟩ := matches_step _ _ _ _ start head
    obtain ⟨final, rest, finished⟩ := ih kept
    exact ⟨final, .cons taken rest, finished⟩

/-- A checked execution is a guarded run. -/
theorem of_checked {next : State → Action → Option State} {guard : State → Action → Prop}
    [∀ state action, Decidable (guard state action)]
    (success : exec (checked next guard) first actions = some last) :
    Path (Guarded (Taken next) guard) first actions last :=
  (exec_eq_some_iff.mp success).mono fun _ _ _ => taken_checked.mp

/-- Every state that a run passes through, its ends included. -/
def Visits (step : State → Action → State → Prop) (first : State) (actions : List Action)
    (state : State) : Prop :=
  ∃ front back, actions = front ++ back ∧ Path step first front state

/-- Every step that a run takes, with the state it is taken from. -/
def Takes (step : State → Action → State → Prop) (first : State) (actions : List Action)
    (state : State) (action : Action) : Prop :=
  ∃ front back, actions = front ++ action :: back ∧ Path step first front state

theorem visits_cons {state : State} {action : Action} : Visits step first (action :: actions) state ↔
    state = first ∨ ∃ second, step first action second ∧ Visits step second actions state := by
  constructor
  · rintro ⟨front, back, split, path⟩
    cases path with
    | nil _ => exact .inl rfl
    | cons head tail =>
      obtain ⟨rfl, rest⟩ := List.cons.inj split
      exact .inr ⟨_, head, _, back, rest, tail⟩
  · rintro (rfl | ⟨second, head, front, back, split, path⟩)
    · exact ⟨[], _, rfl, .nil _⟩
    · exact ⟨action :: front, back, by rw [split]; rfl, .cons head path⟩

theorem takes_cons {state : State} {action taken : Action} :
    Takes step first (action :: actions) state taken ↔ (state = first ∧ taken = action) ∨
      ∃ second, step first action second ∧ Takes step second actions state taken := by
  constructor
  · rintro ⟨front, back, split, path⟩
    cases path with
    | nil _ =>
      obtain ⟨rfl, _⟩ := List.cons.inj split
      exact .inl ⟨rfl, rfl⟩
    | cons head tail =>
      obtain ⟨rfl, rest⟩ := List.cons.inj split
      exact .inr ⟨_, head, _, back, rest, tail⟩
  · rintro (⟨rfl, rfl⟩ | ⟨second, head, front, back, split, path⟩)
    · exact ⟨[], actions, rfl, .nil _⟩
    · exact ⟨action :: front, back, by rw [split]; rfl, .cons head path⟩

theorem visits_snoc {state : State} {action : Action} :
    Visits step first (actions ++ [action]) state ↔
      Visits step first actions state ∨ Path step first (actions ++ [action]) state := by
  constructor
  · rintro ⟨front, back, split, path⟩
    rcases List.eq_nil_or_concat back with rfl | ⟨init, final, rfl⟩
    · rw [List.append_nil] at split
      exact .inr (split ▸ path)
    · rw [List.concat_eq_append, ← List.append_assoc] at split
      obtain ⟨same, _⟩ := List.append_inj' split rfl
      exact .inl ⟨front, init, same, path⟩
  · rintro (⟨front, back, split, path⟩ | path)
    · exact ⟨front, back ++ [action], by rw [split, List.append_assoc], path⟩
    · exact ⟨_, [], (List.append_nil _).symm, path⟩

theorem takes_snoc {state : State} {action taken : Action} :
    Takes step first (actions ++ [action]) state taken ↔
      Takes step first actions state taken ∨ (taken = action ∧ Path step first actions state) := by
  constructor
  · rintro ⟨front, back, split, path⟩
    rcases List.eq_nil_or_concat back with rfl | ⟨init, final, rfl⟩
    · obtain ⟨same, last⟩ := List.append_inj' split rfl
      exact .inr ⟨(List.cons.inj last).1.symm, same ▸ path⟩
    · rw [List.concat_eq_append, ← List.cons_append, ← List.append_assoc] at split
      obtain ⟨same, _⟩ := List.append_inj' split rfl
      exact .inl ⟨front, init, same, path⟩
  · rintro (⟨front, back, split, path⟩ | ⟨rfl, path⟩)
    · exact ⟨front, back ++ [action], by simp [split], path⟩
    · exact ⟨actions, [], rfl, path⟩

/-- An executable step leads to one state only. -/
theorem eq_of_path {next : State → Action → Option State} {other : State}
    (path : Path (Taken next) first actions last) (path' : Path (Taken next) first actions other) :
    other = last :=
  Option.some.inj ((exec_eq_some_iff.mpr path').symm.trans (exec_eq_some_iff.mpr path))

/-- What is left of a run after its first part. -/
theorem rest {next : State → Action → Option State} {middle : State} {front back : List Action}
    (part : Path (Taken next) first front middle)
    (path : Path (Taken next) first (front ++ back) last) : Path (Taken next) middle back last := by
  induction part with
  | nil _ => exact path
  | cons head _ ih =>
    cases path with
    | cons head' tail =>
      obtain rfl := Option.some.inj (head.symm.trans head')
      exact ih tail

/-- Some step of a run is one of which the fact holds. -/
def Meets (step : State → Action → State → Prop) (fact : State → Action → Prop) (first : State)
    (actions : List Action) : Prop :=
  ∃ state action, Takes step first actions state action ∧ fact state action

theorem not_meets_nil {fact : State → Action → Prop} : ¬ Meets step fact first [] := by
  rintro ⟨state, action, ⟨front, back, split, _⟩, _⟩
  simp at split

theorem Meets.now {fact : State → Action → Prop} {action : Action} (holds : fact first action) :
    Meets step fact first (action :: actions) :=
  ⟨first, action, takes_cons.mpr (.inl ⟨rfl, rfl⟩), holds⟩

theorem Meets.later {fact : State → Action → Prop} {action : Action} {second : State}
    (head : step first action second) (met : Meets step fact second actions) :
    Meets step fact first (action :: actions) := by
  obtain ⟨state, taken, takes, holds⟩ := met
  exact ⟨state, taken, takes_cons.mpr (.inr ⟨second, head, takes⟩), holds⟩

theorem meets_cons {next : State → Action → Option State} {fact : State → Action → Prop} {action : Action}
    {second : State} (head : next first action = some second) :
    Meets (Taken next) fact first (action :: actions) ↔
      fact first action ∨ Meets (Taken next) fact second actions := by
  constructor
  · rintro ⟨state, taken, takes, holds⟩
    obtain ⟨rfl, rfl⟩ | ⟨middle, step, takes⟩ := takes_cons.mp takes
    · exact .inl holds
    · obtain rfl : second = middle := Option.some.inj (head.symm.trans step)
      exact .inr ⟨state, taken, takes, holds⟩
  · rintro (holds | met)
    · exact .now holds
    · exact met.later head

theorem meets_append {fact : State → Action → Prop} {later : List Action}
    (front : Path step first actions last) (met : Meets step fact last later) :
    Meets step fact first (actions ++ later) := by
  induction front with
  | nil _ => exact met
  | cons head _ ih => exact .later head (ih met)

theorem meets_snoc {next : State → Action → Option State} {fact : State → Action → Prop}
    {action : Action} (path : Path (Taken next) first actions last) :
    Meets (Taken next) fact first (actions ++ [action]) ↔
      Meets (Taken next) fact first actions ∨ fact last action := by
  constructor
  · rintro ⟨state, taken, takes, holds⟩
    rcases takes_snoc.mp takes with before | ⟨rfl, now⟩
    · exact .inl ⟨state, taken, before, holds⟩
    · exact .inr (path.eq_of_path now ▸ holds)
  · rintro (⟨state, taken, takes, holds⟩ | holds)
    · exact ⟨state, taken, takes_snoc.mpr (.inl takes), holds⟩
    · exact ⟨last, action, takes_snoc.mpr (.inr ⟨rfl, path⟩), holds⟩

/-- A run is as far as one of its steps, that step, and the rest. -/
theorem split_of_takes {next : State → Action → Option State} {state : State} {action : Action}
    (path : Path (Taken next) first actions last)
    (takes : Takes (Taken next) first actions state action) :
    ∃ front back after, actions = front ++ action :: back ∧ Path (Taken next) first front state ∧
      next state action = some after ∧ Path (Taken next) after back last := by
  induction path with
  | nil _ =>
    obtain ⟨front, back, split, _⟩ := takes
    simp at split
  | @cons before second _ head rest taken tail ih =>
    rcases takes_cons.mp takes with ⟨rfl, rfl⟩ | ⟨other, step, later⟩
    · exact ⟨[], rest, second, rfl, .nil _, taken, tail⟩
    · obtain rfl : other = second := Option.some.inj (step.symm.trans taken)
      obtain ⟨front, back, after, split, path, step', rest'⟩ := ih later
      exact ⟨head :: front, back, after, by rw [split]; rfl, .cons taken path, step', rest'⟩

/-- A run all of whose steps are fine is a run that takes fine steps only. -/
theorem guarded_of_takes (fine : State → Action → Prop) (path : Path step first actions last)
    (all : ∀ state action, Takes step first actions state action → fine state action) :
    Path (Guarded step fine) first actions last := by
  induction path with
  | nil _ => exact .nil _
  | cons head _ ih =>
    refine .cons ⟨all _ _ (takes_cons.mpr (.inl ⟨rfl, rfl⟩)), head⟩ (ih fun state action takes => ?_)
    exact all state action (takes_cons.mpr (.inr ⟨_, head, takes⟩))

/-- A property of states that a step keeps exactly when it is fine, and never gains, holds at the
end of a run exactly when every step of the run is fine. -/
theorem iff_takes {next : State → Action → Option State} {guard fine : State → Action → Prop}
    {good : State → Prop} (kept : State → Prop)
    (exact_step : ∀ before action after, kept before → guard before action →
      next before action = some after →
        kept after ∧ (good after ↔ good before ∧ fine before action))
    (path : Path (Guarded (Taken next) guard) first actions last) (begins : kept first)
    (start : good first) :
    good last ↔ ∀ state action, Takes (Taken next) first actions state action → fine state action := by
  have both := path.history (fun actions last => kept last ∧
    (good last ↔ ∀ state action, Takes (Taken next) first actions state action → fine state action))
    ⟨begins, iff_of_true start ?_⟩ ?_
  · exact both.2
  · rintro state action ⟨front, back, split, _⟩
    simp at split
  · intro done before action after front ⟨keeps, same⟩ ⟨guarded, taken⟩
    obtain ⟨keepsAfter, step⟩ := exact_step before action after keeps guarded taken
    have free : Path (Taken next) first done before := front.mono fun _ _ _ step => step.2
    refine ⟨keepsAfter, step.trans ⟨?_, ?_⟩⟩
    · rintro ⟨goodBefore, isFine⟩ state other takes
      rcases takes_snoc.mp takes with earlier | ⟨rfl, now⟩
      · exact same.mp goodBefore state other earlier
      · exact free.eq_of_path now ▸ isFine
    · intro all
      refine ⟨same.mpr fun state other takes => all state other (takes_snoc.mpr (.inl takes)), ?_⟩
      exact all before action (takes_snoc.mpr (.inr ⟨rfl, free⟩))

/-- A property of states that a step from a good state keeps exactly when the step is fine
holds all along a run exactly when every step of the run is fine. -/
theorem visits_iff_takes {next : State → Action → Option State} {good : State → Prop}
    (kept : State → Prop) {allowed : Action → Prop} {fine : State → Action → Prop}
    (exact_step : ∀ before action after, kept before → good before → allowed action →
      next before action = some after →
        (good after ↔ fine before action) ∧ (good after → kept after))
    (path : Path (Taken next) first actions last) (all : ∀ action ∈ actions, allowed action)
    (start : good first) (begins : kept first) :
    (∀ state, Visits (Taken next) first actions state → good state) ↔
      ∀ state action, Takes (Taken next) first actions state action → fine state action := by
  induction path with
  | nil state =>
    constructor
    · rintro _ _ _ ⟨front, back, split, _⟩
      simp at split
    · rintro _ _ ⟨front, back, split, path⟩
      obtain ⟨rfl, _⟩ := List.append_eq_nil_iff.mp split.symm
      cases path
      exact start
  | @cons before second _ action actions head _ ih =>
    obtain ⟨same, carry⟩ := exact_step _ _ _ begins start (all action (by simp)) head
    have unique {other : State} (taken : Taken next before action other) : other = second :=
      Option.some.inj (taken.symm.trans head)
    have later (goodSecond : good second) :=
      ih (fun action member => all action (by simp [member])) goodSecond (carry goodSecond)
    constructor
    · intro always state taken takes
      have goodSecond : good second :=
        always second (visits_cons.mpr (.inr ⟨second, head, [], actions, rfl, .nil _⟩))
      rcases takes_cons.mp takes with ⟨rfl, rfl⟩ | ⟨other, step, rest⟩
      · exact same.mp goodSecond
      · obtain rfl := unique step
        refine (later goodSecond).mp (fun state visits => ?_) state taken rest
        exact always state (visits_cons.mpr (.inr ⟨_, head, visits⟩))
    · intro always state visits
      have goodSecond : good second := same.mpr (always before action (takes_cons.mpr (.inl ⟨rfl, rfl⟩)))
      rcases visits_cons.mp visits with rfl | ⟨other, step, rest⟩
      · exact start
      · obtain rfl := unique step
        refine (later goodSecond).mpr (fun state taken takes => ?_) state rest
        exact always state taken (takes_cons.mpr (.inr ⟨_, head, takes⟩))

/-- The same where every action may be taken. -/
theorem visits_iff_all_takes {next : State → Action → Option State} {good : State → Prop}
    (kept : State → Prop) {fine : State → Action → Prop}
    (exact_step : ∀ before action after, kept before → good before →
      next before action = some after →
        (good after ↔ fine before action) ∧ (good after → kept after))
    (path : Path (Taken next) first actions last) (start : good first) (begins : kept first) :
    (∀ state, Visits (Taken next) first actions state → good state) ↔
      ∀ state action, Takes (Taken next) first actions state action → fine state action := by
  have all : ∀ action ∈ actions, True := fun _ _ => trivial
  refine path.visits_iff_takes kept ?_ all start begins
  intro before action after keeps isGood _ taken
  exact exact_step before action after keeps isGood taken

end Path

end BTool.Foundation
