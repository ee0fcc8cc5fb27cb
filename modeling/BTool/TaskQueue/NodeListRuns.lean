import BTool.Foundation.Transition
import BTool.TaskQueue.NodeListErasure

/-! Whatever is done with a `PropCountNodeList`, it represents the runs that the same calls make of a
plain sequence. -/

namespace BTool.TaskQueue

open BTool.Foundation

variable {P : Type} [DecidableEq P]

/-- A call of a `PropCountNodeList`. -/
inductive NodeListCall (P : Type) where
  | pushBack (prop : P) (canImmediatelyPop : Bool)
  | resetProp (prop : P)
  | popFront
  | removeProp (prop : P)
  | clear

/-- What a call makes of the runs: `popFront` wants a run that may be popped. -/
def PropRuns.next (runs : List (PropRun P)) : NodeListCall P → Option (List (PropRun P))
  | .pushBack prop canImmediatelyPop => some (pushBack runs prop canImmediatelyPop)
  | .resetProp prop => some (resetProp runs prop)
  | .popFront => (popFront runs).map Prod.snd
  | .removeProp prop => some (removeProp runs prop)
  | .clear => some []

namespace PropCountNodeList

/-- What a call makes of the list, `none` where it follows a bad pointer or an assertion fails. -/
def next (list : PropCountNodeList P) : NodeListCall P → Option (PropCountNodeList P)
  | .pushBack prop canImmediatelyPop => list.pushBack prop canImmediatelyPop
  | .resetProp prop => list.resetProp prop
  | .popFront => list.popFront.map Prod.snd
  | .removeProp prop => list.removeProp prop
  | .clear => list.clear

/-- The list represents these runs. -/
def RepresentsRuns (runs : List (PropRun P)) (list : PropCountNodeList P) : Prop :=
  ∃ order, list.Represents order ∧ runsOf list.objPool order = runs

variable {runs after : List (PropRun P)} {list : PropCountNodeList P} {call : NodeListCall P}

theorem RepresentsRuns.next (represents : RepresentsRuns runs list)
    (allowed : PropRuns.next runs call = some after) :
    ∃ next, list.next call = some next ∧ RepresentsRuns after next := by
  obtain ⟨order, rep, rfl⟩ := represents
  cases call with
  | pushBack prop can =>
    cases allowed
    obtain ⟨next, order', success, rep, isRuns⟩ := rep.pushBack prop can
    exact ⟨next, success, order', rep, isRuns⟩
  | resetProp prop =>
    cases allowed
    obtain ⟨next, success, rep, isRuns⟩ := rep.resetProp prop
    exact ⟨next, success, order, rep, isRuns⟩
  | popFront =>
    obtain ⟨⟨prop, _⟩, popped, rfl⟩ := Option.map_eq_some_iff.mp allowed
    obtain ⟨_, absent⟩ | ⟨prop', next, order', success, rep, isRuns⟩ := rep.popFront
    · rw [absent] at popped
      cases popped
    · rw [isRuns] at popped
      cases popped
      exact ⟨next, by rw [PropCountNodeList.next, success]; rfl, order', rep, rfl⟩
  | removeProp prop =>
    cases allowed
    obtain ⟨next, order', success, rep, isRuns⟩ := rep.removeProp prop
    exact ⟨next, success, order', rep, isRuns⟩
  | clear =>
    cases allowed
    obtain ⟨next, success, rep⟩ := rep.clear
    exact ⟨next, success, [], rep, rfl⟩

/-- After any calls, of which each `popFront` finds a run that may be popped, the list is well linked,
its index holds the nodes of each property in order, and its runs are those of the plain sequence. -/
theorem represents_of_calls {calls : List (NodeListCall P)} (allowed : exec PropRuns.next [] calls = some runs) :
    ∃ list order, exec next empty calls = some list ∧ Represents list order ∧
      runsOf list.objPool order = runs := by
  have begins : RepresentsRuns [] (empty : PropCountNodeList P) := ⟨[], empty_represents, rfl⟩
  obtain ⟨list, taken, order, rep, isRuns⟩ := (exec_eq_some_iff.mp allowed).simulate (Taken next)
    RepresentsRuns (fun _ _ _ _ represents allowed => represents.next allowed) begins
  exact ⟨list, order, exec_eq_some_iff.mpr taken, rep, isRuns⟩

/-- Two properties, of which one is in two runs and then removed. -/
theorem represents_of_calls_two_props : ∃ list order,
    exec next empty [.pushBack 1 true, .pushBack 2 true, .pushBack 1 false, .pushBack 1 false, .popFront,
      .resetProp 1, .pushBack 2 false, .removeProp 1] = some list ∧ Represents list order ∧
      runsOf list.objPool order = [⟨2, 1, true⟩, ⟨2, 1, false⟩] :=
  represents_of_calls rfl

end PropCountNodeList

end BTool.TaskQueue
