import BTool.TaskQueue.NodeListErasure

/-! `m_wait_props`: a node list together with the proof that it is well linked.
Its operations never fail on such a list, so they are total here, and what they do
is said by two observations, the waiting properties and the ready ones. -/

namespace BTool.TaskQueue

open BTool.Foundation

variable {P : Type} [DecidableEq P]

namespace PropCountNodeList

/-- The addresses met by walking the list from its begin. -/
def nodes (list : PropCountNodeList P) : List NodePtr :=
  follow (list.objPool.link PropCountNode.nextListProp) list.objPool.fresh list.beginNode

theorem Represents.nodes_eq {list : PropCountNodeList P} {order : List NodePtr}
    (rep : Represents list order) : list.nodes = order := by
  rw [nodes, rep.beginning]
  exact rep.chained.follow_eq rep.length_le

/-- The runs that the nodes stand for, in list order. -/
def runs (list : PropCountNodeList P) : List (PropRun P) := runsOf list.objPool list.nodes

theorem Represents.runs_eq {list : PropCountNodeList P} {order : List NodePtr}
    (rep : Represents list order) : list.runs = runsOf list.objPool order := by
  rw [runs, rep.nodes_eq]

end PropCountNodeList

/-- A node list whose links, index and flags are in order. -/
structure WaitProps (P : Type) [DecidableEq P] where
  list : PropCountNodeList P
  valid : list.Represents list.nodes

namespace WaitProps

open PropCountNodeList

variable {waitProps after : WaitProps P} {prop other : P} {can : Bool}

/-- The properties of the waiting tasks, one entry for each, in order. -/
def props (waitProps : WaitProps P) : List P := PropRuns.waiting waitProps.list.runs

/-- The properties whose first node may be popped. -/
def ready (waitProps : WaitProps P) (prop : P) : Bool := PropRuns.ready waitProps.list.runs prop

theorem wellFormed (waitProps : WaitProps P) : PropRuns.WellFormed waitProps.list.runs :=
  waitProps.valid.wellFormed

/-- Take the list that an operation leaves when it is known to succeed. -/
def ofSome (result : Option (PropCountNodeList P))
    (success : ∃ after order, result = some after ∧ after.Represents order) : WaitProps P where
  list := result.get (by
    obtain ⟨after, _, same, _⟩ := success
    simp [same])
  valid := by
    obtain ⟨after, order, same, rep⟩ := success
    simp only [same, Option.get_some, rep.nodes_eq]
    exact rep

/-- The operations of a list, lifted: their effect on the runs carries over. -/
private theorem runs_ofSome {result : Option (PropCountNodeList P)}
    {success : ∃ after order, result = some after ∧ after.Represents order}
    {runs : List (PropRun P)}
    (effect : ∃ after order, result = some after ∧ after.Represents order ∧
      runsOf after.objPool order = runs) :
    (ofSome result success).list.runs = runs := by
  obtain ⟨after, order, same, rep, equal⟩ := effect
  have list : (ofSome result success).list = after := by simp [ofSome, same]
  rw [list, rep.runs_eq, equal]

def empty : WaitProps P where
  list := .empty
  valid := by
    have rep : (PropCountNodeList.empty : PropCountNodeList P).Represents [] := empty_represents
    rwa [rep.nodes_eq]

def pushBack (waitProps : WaitProps P) (prop : P) (canImmediatelyPop : Bool) : WaitProps P :=
  ofSome (waitProps.list.pushBack prop canImmediatelyPop) (by
    obtain ⟨after, order, success, rep, _⟩ := waitProps.valid.pushBack prop canImmediatelyPop
    exact ⟨after, order, success, rep⟩)

def resetProp (waitProps : WaitProps P) (prop : P) : WaitProps P :=
  ofSome (waitProps.list.resetProp prop) (by
    obtain ⟨after, success, rep, _⟩ := waitProps.valid.resetProp prop
    exact ⟨after, _, success, rep⟩)

def removeProp (waitProps : WaitProps P) (prop : P) : WaitProps P :=
  ofSome (waitProps.list.removeProp prop) (by
    obtain ⟨after, order, success, rep, _⟩ := waitProps.valid.removeProp prop
    exact ⟨after, order, success, rep⟩)

def clear (waitProps : WaitProps P) : WaitProps P :=
  ofSome waitProps.list.clear (by
    obtain ⟨after, success, rep⟩ := waitProps.valid.clear
    exact ⟨after, [], success, rep⟩)

/-- `none` where no node may be popped and the assertion of `pop_front` fails. -/
def popFront (waitProps : WaitProps P) : Option (P × WaitProps P) :=
  match found : waitProps.list.popFront with
  | none => none
  | some (prop, after) => some (prop, ⟨after, by
      rcases waitProps.valid.popFront with ⟨fails, _⟩ | ⟨_, list, order, success, rep, _⟩
      · rw [fails] at found
        cases found
      · rw [success] at found
        cases found
        rwa [rep.nodes_eq]⟩)

theorem runs_pushBack : (waitProps.pushBack prop can).list.runs =
    PropRuns.pushBack waitProps.list.runs prop can :=
  runs_ofSome (waitProps.valid.pushBack prop can)

theorem runs_resetProp : (waitProps.resetProp prop).list.runs =
    PropRuns.resetProp waitProps.list.runs prop :=
  runs_ofSome (by
    obtain ⟨after, effect⟩ := waitProps.valid.resetProp prop
    exact ⟨after, _, effect⟩)

theorem runs_removeProp : (waitProps.removeProp prop).list.runs =
    PropRuns.removeProp waitProps.list.runs prop :=
  runs_ofSome (waitProps.valid.removeProp prop)

theorem runs_clear : waitProps.clear.list.runs = [] :=
  runs_ofSome (by
    obtain ⟨after, success, rep⟩ := waitProps.valid.clear
    exact ⟨after, [], success, rep, rfl⟩)

theorem runs_popFront : (waitProps.popFront.map fun popped => (popped.1, popped.2.list.runs)) =
    PropRuns.popFront waitProps.list.runs := by
  unfold popFront
  rcases waitProps.valid.popFront with ⟨fails, none⟩ | ⟨prop, list, order, success, rep, some⟩
  · split
    · exact none.symm
    · rename_i found
      rw [fails] at found
      cases found
  · split
    · rename_i found
      rw [success] at found
      cases found
    · rename_i found
      rw [success] at found
      cases found
      rw [Option.map_some, rep.runs_eq]
      exact some.symm

@[simp] theorem ready_empty : (empty : WaitProps P).ready prop = false := rfl

@[simp] theorem props_pushBack : (waitProps.pushBack prop can).props = waitProps.props ++ [prop] := by
  rw [props, runs_pushBack, PropRuns.waiting_pushBack, props]

theorem ready_pushBack : (waitProps.pushBack prop can).ready other =
    if other = prop ∧ prop ∉ waitProps.props then can else waitProps.ready other := by
  rw [ready, runs_pushBack, waitProps.wellFormed.ready_pushBack]
  rfl

@[simp] theorem props_resetProp : (waitProps.resetProp prop).props = waitProps.props := by
  rw [props, runs_resetProp, PropRuns.waiting_resetProp, props]

theorem ready_resetProp : (waitProps.resetProp prop).ready other =
    (waitProps.ready other || decide (other = prop ∧ prop ∈ waitProps.props)) := by
  rw [ready, runs_resetProp, waitProps.wellFormed.ready_resetProp]
  rfl

@[simp] theorem props_removeProp : (waitProps.removeProp prop).props =
    waitProps.props.filter fun entry => entry ≠ prop := by
  rw [props, runs_removeProp, PropRuns.waiting_removeProp, props]

theorem ready_removeProp : (waitProps.removeProp prop).ready other =
    (waitProps.ready other && decide (other ≠ prop)) := by
  rw [ready, runs_removeProp, PropRuns.ready_removeProp]
  rfl

@[simp] theorem props_clear : waitProps.clear.props = [] := by
  rw [props, runs_clear, PropRuns.waiting_nil]

@[simp] theorem ready_clear : waitProps.clear.ready prop = false := by
  rw [ready, runs_clear]
  rfl

private theorem runs_of_popFront (success : waitProps.popFront = some (prop, after)) :
    PropRuns.popFront waitProps.list.runs = some (prop, after.list.runs) := by
  rw [← runs_popFront, success]
  rfl

/-- `popFront` takes the first waiting entry of a ready property. -/
theorem find?_of_popFront (success : waitProps.popFront = some (prop, after)) :
    waitProps.props.find? waitProps.ready = some prop :=
  waitProps.wellFormed.find?_of_popFront (runs_of_popFront success)

theorem props_popFront (success : waitProps.popFront = some (prop, after)) :
    after.props = waitProps.props.erase prop :=
  waitProps.wellFormed.waiting_popFront (runs_of_popFront success)

theorem ready_popFront (success : waitProps.popFront = some (prop, after)) :
    after.ready other = (waitProps.ready other && decide (other ≠ prop)) :=
  waitProps.wellFormed.ready_popFront (runs_of_popFront success)

theorem popFront_eq_none : waitProps.popFront = none ↔ ∀ prop, waitProps.ready prop = false := by
  have runs : waitProps.popFront = none ↔ PropRuns.popFront waitProps.list.runs = none := by
    rw [← runs_popFront, Option.map_eq_none_iff]
  have exists_ := waitProps.wellFormed.exists_canPop_iff
  rw [runs, PropRuns.popFront_eq_none]
  constructor
  · intro blocked prop
    by_contra isReady
    obtain ⟨run, member, can⟩ := exists_.mpr ⟨prop, by simpa [ready] using isReady⟩
    simp [blocked run member] at can
  · intro notReady run member
    by_contra can
    obtain ⟨prop, isReady⟩ := exists_.mp ⟨run, member, by simpa using can⟩
    rw [show PropRuns.ready waitProps.list.runs prop = false from notReady prop] at isReady
    cases isReady

/-- Some node of the list has its `can_pop` flag set. -/
def HasCanPop (waitProps : WaitProps P) : Prop :=
  ∃ ptr node, waitProps.list.objPool.cell ptr = some node ∧ node.canPop = true

theorem hasCanPop_iff : waitProps.HasCanPop ↔ ∃ prop, waitProps.ready prop = true := by
  rw [show (∃ prop, waitProps.ready prop = true) ↔ _ from
    waitProps.wellFormed.exists_canPop_iff.symm]
  constructor
  · rintro ⟨ptr, node, found, can⟩
    have member := (waitProps.valid.live ptr).mp (by simp [found])
    exact ⟨node.run, mem_runsOf.mpr ⟨ptr, member, node, found, rfl⟩, can⟩
  · rintro ⟨run, member, can⟩
    obtain ⟨ptr, _, node, found, rfl⟩ := mem_runsOf.mp member
    exact ⟨ptr, node, found, can⟩

/-- The sum of the counts of the nodes that the index holds for a property. -/
def countOf (waitProps : WaitProps P) (prop : P) : Nat :=
  (((waitProps.list.allNodes.lookup prop).getD []).map fun ptr =>
    ((waitProps.list.objPool.cell ptr).map PropCountNode.count).getD 0).sum

private theorem counts_ofProp {pool : NodePool P} {order : List NodePtr}
    (live : ∀ ptr ∈ order, ∃ node, pool.cell ptr = some node) :
    (ofProp pool prop order).map (fun ptr => ((pool.cell ptr).map PropCountNode.count).getD 0) =
      ((runsOf pool order).filter fun run => run.prop = prop).map PropRun.count := by
  induction order with
  | nil => rfl
  | cons ptr rest ih =>
    obtain ⟨node, found⟩ := live ptr (by simp)
    have later := ih fun other member => live other (by simp [member])
    rw [runsOf_cons found]
    by_cases same : node.prop = prop
    · have kept : ofProp pool prop (ptr :: rest) = ptr :: ofProp pool prop rest :=
        List.filter_cons_of_pos (by simp [NodePool.value, found, same])
      simp [kept, found, PropCountNode.run, same, later]
    · have skipped : ofProp pool prop (ptr :: rest) = ofProp pool prop rest :=
        List.filter_cons_of_neg (by simp [NodePool.value, found, same])
      simp [skipped, PropCountNode.run, same, later]

theorem countOf_eq : waitProps.countOf prop = waitProps.props.count prop := by
  rw [props, PropRuns.count_waiting, countOf, waitProps.valid.indexed]
  have nodes : (if ofProp waitProps.list.objPool prop waitProps.list.nodes = [] then none
      else some (ofProp waitProps.list.objPool prop waitProps.list.nodes)).getD [] =
      ofProp waitProps.list.objPool prop waitProps.list.nodes := by
    split
    · rename_i empty
      simp [empty]
    · rfl
  rw [nodes, counts_ofProp fun ptr member => waitProps.valid.exists_cell member]
  rfl

end WaitProps

end BTool.TaskQueue
