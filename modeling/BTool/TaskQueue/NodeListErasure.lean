import Mathlib.Algebra.GroupWithZero.Nat
import BTool.TaskQueue.NodeListRemoval

/-! The operations of `PropCountNodeList` that loop over nodes to delete them:
`remove_prop` and `clear`. -/

namespace BTool.TaskQueue.PropCountNodeList

open BTool.Foundation

variable {P : Type} [DecidableEq P] {list after : PropCountNodeList P}
  {order nodes front back : List NodePtr} {ptr item : NodePtr} {prop : P}
  {node : PropCountNode P} {old pool : NodePool P}

omit [DecidableEq P] in
private theorem Spine.pre_eq_none (spine : Spine list (front ++ ptr :: back))
    (found : list.objPool.cell ptr = some node) (begun : list.beginNode = some ptr) :
    node.preListProp = none := by
  rw [spine.beginning] at begun
  have behind := (spine.chained.links).1
  cases front with
  | nil => simpa [NodePool.link, found] using behind
  | cons first rest =>
    have same : first = ptr := by simpa using begun
    exact absurd same (ne_of_mem_split spine.distinct (by simp))

omit [DecidableEq P] in
private theorem Spine.next_eq_none (spine : Spine list (front ++ ptr :: back))
    (found : list.objPool.cell ptr = some node) (ended : list.endNode = some ptr) :
    node.nextListProp = none := by
  rw [spine.ending] at ended
  have ahead := (spine.chained.links).2
  rcases List.eq_nil_or_concat back with empty | ⟨init, last, shape⟩
  · subst empty
    simpa [NodePool.link, found] using ahead
  · subst shape
    have same : last = ptr := by
      rw [List.concat_eq_append, ← List.cons_append, ← List.append_assoc,
        List.getLast?_concat] at ended
      exact Option.some.inj ended
    exact absurd same (ne_of_mem_split spine.distinct (by simp))

theorem exists_leadsTo (prop : P) {target : Option NodePtr}
    (live : ∀ ptr, target = some ptr → (pool.cell ptr).isSome = true) :
    ∃ answer, leadsTo pool prop target = some answer := by
  cases target with
  | none => exact ⟨false, rfl⟩
  | some ptr =>
    obtain ⟨node, found⟩ := Option.isSome_iff_exists.mp (live ptr rfl)
    exact ⟨_, by simp only [leadsTo, found]; rfl⟩

theorem leadsTo_congr {target : Option NodePtr}
    (same : ∀ ptr, target = some ptr →
      pool.value PropCountNode.prop ptr = old.value PropCountNode.prop ptr) :
    leadsTo pool prop target = leadsTo old prop target := by
  have unfolded (any : NodePool P) (ptr : NodePtr) : leadsTo any prop (some ptr) =
      (any.value PropCountNode.prop ptr).map fun found => decide (found = prop) := by
    simp [leadsTo, NodePool.value, Function.comp_def]
  cases target with
  | none => rfl
  | some ptr => rw [unfolded, unfolded, same ptr rfl]

omit [DecidableEq P] in
private theorem edit_again {target : Option NodePtr} {change : PropCountNode P → PropCountNode P}
    (idempotent : ∀ node, change (change node) = change node) :
    (pool.edit target change).edit target change = pool.edit target change := by
  unfold NodePool.edit
  congr 1
  funext other
  by_cases same : target = some other <;> simp [same, idempotent, Function.comp_def]

omit [DecidableEq P] in
private theorem edit_comm {target other : Option NodePtr}
    {change change' : PropCountNode P → PropCountNode P}
    (commute : ∀ node, change (change' node) = change' (change node)) :
    (pool.edit target change').edit other change = (pool.edit other change).edit target change' := by
  unfold NodePool.edit
  congr 1
  funext ptr
  by_cases onTarget : target = some ptr <;> by_cases onOther : other = some ptr <;>
    simp [onTarget, onOther, commute, Function.comp_def]

/-- What the nodes that stay agree on before and after others were deleted. -/
structure Survive (order : List NodePtr) (old pool : NodePool P) : Prop where
  run : ∀ ptr ∈ order, pool.value PropCountNode.run ptr = old.value PropCountNode.run ptr
  preSameProp : ∀ ptr ∈ order,
    pool.link PropCountNode.preSameProp ptr = old.link PropCountNode.preSameProp ptr
  nextSameProp : ∀ ptr ∈ order,
    pool.link PropCountNode.nextSameProp ptr = old.link PropCountNode.nextSameProp ptr

section Bridged

/-- The pool once the two neighbours of a node are joined. -/
private def bridged (pool : NodePool P) (node : PropCountNode P) : NodePool P :=
  (pool.edit node.preListProp (PropCountNode.resetNextListProp node.nextListProp)).edit
    node.nextListProp (PropCountNode.resetPreListProp node.preListProp)

omit [DecidableEq P] in
private theorem isSome_bridged :
    ((bridged pool node).cell ptr).isSome = (pool.cell ptr).isSome := by
  rw [bridged, NodePool.isSome_edit, NodePool.isSome_edit]

omit [DecidableEq P] in
private theorem prop_bridged : (bridged pool node).value PropCountNode.prop ptr =
    pool.value PropCountNode.prop ptr :=
  Eq.trans (NodePool.value_edit_same fun _ => rfl) (NodePool.value_edit_same fun _ => rfl)

omit [DecidableEq P] in
private theorem unlinked_bridged (found : pool.cell ptr = some node) :
    Unlinked pool ptr node ((bridged pool node).deallocate ptr) := by
  have swapped : bridged pool node = (pool.edit node.nextListProp
      (PropCountNode.resetPreListProp node.preListProp)).edit node.preListProp
        (PropCountNode.resetNextListProp node.nextListProp) := edit_comm fun _ => rfl
  rw [swapped]
  exact unlinked_of_edits found

private theorem leadsTo_deallocate {target : Option NodePtr} (apart : target ≠ some item) :
    leadsTo ((bridged pool node).deallocate item) prop target = leadsTo pool prop target := by
  refine leadsTo_congr fun ptr leads => ?_
  have different : ptr ≠ item := fun same => apart (same ▸ leads)
  have same : (bridged pool node).value PropCountNode.prop ptr = pool.value PropCountNode.prop ptr :=
    prop_bridged
  rw [← same]
  simp [NodePool.value, NodePool.cell_deallocate, different]

variable (spine : Spine list (front ++ item :: back)) (found : list.objPool.cell item = some node)

omit [DecidableEq P] in
include spine found in
private theorem live_bridged {other : NodePtr}
    (link : node.preListProp = some other ∨ node.nextListProp = some other) :
    ((bridged list.objPool node).cell other).isSome = true := by
  rw [isSome_bridged]
  exact (spine.neighbours found link).1

omit [DecidableEq P] in
include spine found in
private theorem write_bridged : ∃ forward,
    list.objPool.write node.preListProp
      (PropCountNode.resetNextListProp node.nextListProp) = some forward ∧
    forward.write node.nextListProp (PropCountNode.resetPreListProp node.preListProp) =
      some (bridged list.objPool node) := by
  refine ⟨list.objPool.edit node.preListProp (PropCountNode.resetNextListProp node.nextListProp), ?_, ?_⟩
  · exact NodePool.write_eq_edit fun other pre => (spine.neighbours found (.inl pre)).1
  · refine NodePool.write_eq_edit fun other next => ?_
    rw [NodePool.isSome_edit]
    exact (spine.neighbours found (.inr next)).1

omit [DecidableEq P] in
include spine found in
/-- At the first node the extra write repeats one that joined the neighbours. -/
private theorem write_begin (begun : list.beginNode = some item) :
    (bridged list.objPool node).write node.nextListProp (PropCountNode.resetPreListProp none) =
      some (bridged list.objPool node) := by
  rw [NodePool.write_eq_edit fun other next => live_bridged spine found (.inr next)]
  have pre := spine.pre_eq_none found begun
  simp only [bridged, pre]
  exact congrArg some (edit_again fun _ => rfl)

omit [DecidableEq P] in
include spine found in
/-- So it does at the last node. -/
private theorem write_end (ended : list.endNode = some item) :
    (bridged list.objPool node).write node.preListProp (PropCountNode.resetNextListProp none) =
      some (bridged list.objPool node) := by
  rw [NodePool.write_eq_edit fun other pre => live_bridged spine found (.inl pre)]
  have next := spine.next_eq_none found ended
  have alone : bridged list.objPool node = list.objPool.edit node.preListProp
      (PropCountNode.resetNextListProp node.nextListProp) := by
    simp [bridged, next, NodePool.edit]
  rw [alone, next]
  exact congrArg some (edit_again fun _ => rfl)

include spine found in
/-- One pass of the loop takes the node out and keeps the two flags exact. -/
theorem Spine.removeNodes_cons (nodes : List NodePtr) (isProp : node.prop = prop)
    {needCompBegin needCompEnd : Bool}
    (compBegin : leadsTo list.objPool prop list.beginNode = some needCompBegin)
    (compEnd : leadsTo list.objPool prop list.endNode = some needCompEnd) :
    ∃ pool needCompBegin' needCompEnd', Unlinked list.objPool item node pool ∧
      leadsTo pool prop (if list.beginNode = some item then node.nextListProp
        else list.beginNode) = some needCompBegin' ∧
      leadsTo pool prop (if list.endNode = some item then node.preListProp
        else list.endNode) = some needCompEnd' ∧
      removeNodes prop (item :: nodes) needCompBegin needCompEnd list =
        removeNodes prop nodes needCompBegin' needCompEnd'
          { beginNode := if list.beginNode = some item then node.nextListProp else list.beginNode
            endNode := if list.endNode = some item then node.preListProp else list.endNode
            allNodes := list.allNodes, objPool := pool } := by
  obtain ⟨forward, writePre, writeNext⟩ := write_bridged spine found
  have atBegin := write_begin spine found
  have atEnd := write_end spine found
  have flagBegin (begun : list.beginNode = some item) : needCompBegin = true := by
    simpa [begun, leadsTo, found, isProp] using compBegin.symm
  have flagEnd (ended : list.endNode = some item) : needCompEnd = true := by
    simpa [ended, leadsTo, found, isProp] using compEnd.symm
  obtain ⟨stillBegin, nextLeads⟩ := exists_leadsTo prop
    fun other next => live_bridged spine found (.inr next)
  obtain ⟨stillEnd, preLeads⟩ := exists_leadsTo prop
    fun other pre => live_bridged spine found (.inl pre)
  have nextApart : node.nextListProp ≠ some item := fun next =>
    (spine.neighbours found (.inr next)).2 rfl
  have preApart : node.preListProp ≠ some item := fun pre =>
    (spine.neighbours found (.inl pre)).2 rfl
  have kept (target : Option NodePtr) :
      leadsTo (bridged list.objPool node) prop target = leadsTo list.objPool prop target :=
    leadsTo_congr fun _ _ => prop_bridged
  refine ⟨(bridged list.objPool node).deallocate item,
    if list.beginNode = some item then stillBegin else needCompBegin,
    if list.endNode = some item then stillEnd else needCompEnd, unlinked_bridged found, ?_, ?_, ?_⟩
  · split
    · rw [leadsTo_deallocate nextApart, ← kept, nextLeads]
    · rename_i inside
      rw [leadsTo_deallocate inside, compBegin]
  · split
    · rw [leadsTo_deallocate preApart, ← kept, preLeads]
    · rename_i inside
      rw [leadsTo_deallocate inside, compEnd]
  · by_cases begun : list.beginNode = some item <;> by_cases ended : list.endNode = some item
    · simp [removeNodes, found, writePre, writeNext, begun, ended, flagBegin begun, flagEnd ended,
        atBegin begun, atEnd ended, nextLeads, preLeads]
    · simp [removeNodes, found, writePre, writeNext, begun, ended, flagBegin begun,
        atBegin begun, nextLeads]
    · simp [removeNodes, found, writePre, writeNext, begun, ended, flagEnd ended,
        atEnd ended, preLeads]
    · simp [removeNodes, found, writePre, writeNext, begun, ended]

end Bridged

/-- The nodes of other properties. -/
def others (pool : NodePool P) (prop : P) (order : List NodePtr) : List NodePtr :=
  order.filter fun ptr => pool.value PropCountNode.prop ptr ≠ some prop

theorem mem_others : ptr ∈ others pool prop order ↔
    ptr ∈ order ∧ pool.value PropCountNode.prop ptr ≠ some prop := by
  simp [others]

/-- The loop over the nodes of a property deletes these and nothing else. -/
theorem Spine.removeNodes (spine : Spine list order)
    {needCompBegin needCompEnd : Bool}
    (compBegin : leadsTo list.objPool prop list.beginNode = some needCompBegin)
    (compEnd : leadsTo list.objPool prop list.endNode = some needCompEnd) :
    ∃ after, removeNodes prop (ofProp list.objPool prop order) needCompBegin needCompEnd list =
        some after ∧ after.allNodes = list.allNodes ∧
      Spine after (others list.objPool prop order) ∧
      Survive (others list.objPool prop order) list.objPool after.objPool := by
  generalize shape : ofProp list.objPool prop order = nodes
  induction nodes generalizing list order needCompBegin needCompEnd with
  | nil =>
    have all : others list.objPool prop order = order := by
      apply List.filter_eq_self.mpr
      intro ptr member
      have notProp : ptr ∉ ofProp list.objPool prop order := by simp [shape]
      simpa [mem_ofProp, member] using notProp
    rw [all]
    exact ⟨list, rfl, rfl, spine, fun _ _ => rfl, fun _ _ => rfl, fun _ _ => rfl⟩
  | cons item rest ih =>
    obtain ⟨front, back, rfl, absent, isProp, later⟩ := List.filter_eq_cons_iff.mp shape
    obtain ⟨node, found⟩ := spine.exists_cell (show item ∈ front ++ item :: back by simp)
    have nodeProp : node.prop = prop := by simpa [NodePool.value, found] using isProp
    obtain ⟨pool, begin', end', cut, compBegin', compEnd', pass⟩ :=
      spine.removeNodes_cons found rest nodeProp compBegin compEnd
    have next := spine.unlink cut list.allNodes
    have different {ptr : NodePtr} (member : ptr ∈ front ++ back) : ptr ≠ item :=
      ne_of_mem_split spine.distinct member
    have sameProps {ptr : NodePtr} (member : ptr ∈ front ++ back) :
        pool.value PropCountNode.prop ptr = list.objPool.value PropCountNode.prop ptr :=
      cut.value_eq (different member) fun _ => rfl
    have remaining : ofProp pool prop (front ++ back) = rest := by
      rw [ofProp_congr fun ptr member => sameProps member, ofProp_append, ← later]
      have nothing : ofProp list.objPool prop front = [] :=
        List.filter_eq_nil_iff.mpr fun ptr member => absent ptr member
      rw [nothing, List.nil_append]
      rfl
    have stay : others pool prop (front ++ back) =
        others list.objPool prop (front ++ item :: back) := by
      have skipped : others list.objPool prop (front ++ item :: back) =
          others list.objPool prop (front ++ back) := by
        have gone : list.objPool.value PropCountNode.prop item = some prop := by simpa using isProp
        simp [others, gone]
      rw [skipped]
      apply List.filter_congr
      intro ptr member
      rw [sameProps member]
    obtain ⟨after, success, index, done, survive⟩ := ih next compBegin' compEnd' remaining
    rw [stay] at done survive
    refine ⟨after, pass.trans success, index, done, ?_⟩
    have apart {ptr : NodePtr}
        (member : ptr ∈ others list.objPool prop (front ++ item :: back)) : ptr ≠ item := by
      rw [← stay] at member
      exact different (mem_others.mp member).1
    constructor
    · intro ptr member
      rw [survive.run ptr member]
      exact cut.value_eq (apart member) fun _ => rfl
    · intro ptr member
      rw [survive.preSameProp ptr member]
      exact cut.link_eq (apart member) fun _ => rfl
    · intro ptr member
      rw [survive.nextSameProp ptr member]
      exact cut.link_eq (apart member) fun _ => rfl

omit [DecidableEq P] in
theorem Survive.sameProp (survive : Survive order old pool) (ptr : NodePtr) (member : ptr ∈ order) :
    pool.value PropCountNode.prop ptr = old.value PropCountNode.prop ptr := by
  have same := congrArg (Option.map PropRun.prop) (survive.run ptr member)
  simpa [NodePool.value, PropCountNode.run, Function.comp_def] using same

theorem Spine.runsOf_others (spine : Spine list order) (part : List NodePtr)
    (within : part ⊆ order) : runsOf list.objPool (others list.objPool prop part) =
      PropRuns.removeProp (runsOf list.objPool part) prop := by
  induction part with
  | nil => rfl
  | cons ptr rest ih =>
    obtain ⟨node, found⟩ := spine.exists_cell (within (by simp : ptr ∈ ptr :: rest))
    have later := ih fun other member => within (by simp [member])
    rw [runsOf_cons found]
    by_cases same : node.prop = prop
    · have gone : others list.objPool prop (ptr :: rest) = others list.objPool prop rest := by
        simp [others, NodePool.value, found, same]
      rw [gone, later]
      simp [PropRuns.removeProp, PropCountNode.run, same]
    · have stays : others list.objPool prop (ptr :: rest) =
          ptr :: others list.objPool prop rest := by
        simp [others, NodePool.value, found, same]
      rw [stays, runsOf_cons found, later]
      simp [PropRuns.removeProp, PropCountNode.run, same]

/-- `removeProp` succeeds and drops every run of the property. -/
theorem Represents.removeProp (rep : Represents list order) (prop : P) :
    ∃ after order', list.removeProp prop = some after ∧ Represents after order' ∧
      runsOf after.objPool order' = PropRuns.removeProp (runsOf list.objPool order) prop := by
  cases indexed : list.allNodes.lookup prop with
  | none =>
    have absent := ofProp_eq_nil.mp (rep.lookup_eq_none.mp indexed)
    refine ⟨list, order, by simp [PropCountNodeList.removeProp, indexed], rep, ?_⟩
    exact (List.filter_eq_self.mpr (by simpa using absent)).symm
  | some nodes =>
    obtain ⟨rfl, present⟩ := rep.lookup_eq_some.mp indexed
    have liveBegin (ptr : NodePtr) (begun : list.beginNode = some ptr) :
        (list.objPool.cell ptr).isSome = true := by
      rw [rep.beginning] at begun
      exact (rep.live ptr).mpr (List.mem_of_mem_head? begun)
    have liveEnd (ptr : NodePtr) (ended : list.endNode = some ptr) :
        (list.objPool.cell ptr).isSome = true := by
      rw [rep.ending] at ended
      exact (rep.live ptr).mpr (List.mem_of_getLast? ended)
    obtain ⟨needCompBegin, compBegin⟩ := exists_leadsTo prop liveBegin
    obtain ⟨needCompEnd, compEnd⟩ := exists_leadsTo prop liveEnd
    obtain ⟨after, success, index, spine, survive⟩ := rep.removeNodes compBegin compEnd
    have runs : runsOf after.objPool (others list.objPool prop order) =
        PropRuns.removeProp (runsOf list.objPool order) prop := by
      rw [runsOf_congr survive.run]
      exact rep.toSpine.runsOf_others order fun _ member => member
    have props (other : P) : ofProp after.objPool other (others list.objPool prop order) =
        if other = prop then [] else ofProp list.objPool other order := by
      rw [ofProp_congr survive.sameProp]
      split
      · rename_i same
        subst same
        apply List.filter_eq_nil_iff.mpr
        intro ptr member
        simpa using (mem_others.mp member).2
      · rename_i different
        unfold ofProp others
        rw [List.filter_filter]
        apply List.filter_congr
        intro ptr member
        by_cases isOther : list.objPool.value PropCountNode.prop ptr = some other <;>
          simp [isOther, different]
    refine ⟨{ after with allNodes := after.allNodes.erase prop }, _, ?_,
      { spine with indexed := ?_, sameChained := ?_, wellFormed := ?_ }, runs⟩
    · simp [PropCountNodeList.removeProp, indexed, compBegin, compEnd, success]
    · intro other
      rw [props, index]
      by_cases same : other = prop
      · subst same
        simp
      · simp [same, rep.indexed, Finmap.lookup_erase_ne same]
    · intro other
      rw [props]
      by_cases same : other = prop
      · simp [same]
      · rw [if_neg same]
        have stays {ptr : NodePtr} (member : ptr ∈ ofProp list.objPool other order) :
            ptr ∈ others list.objPool prop order := by
          obtain ⟨inside, isOther⟩ := mem_ofProp.mp member
          exact mem_others.mpr ⟨inside, by simpa [isOther] using same⟩
        exact (rep.sameChained other).congr
          (fun ptr member => survive.preSameProp ptr (stays member))
          fun ptr member => survive.nextSameProp ptr (stays member)
    · rw [runs]
      exact rep.wellFormed.removeProp

omit [DecidableEq P] in
/-- The deletion loop of `clear` comes to the end of the list. -/
theorem exists_deallocateFrom {before : Option NodePtr} {fuel : Nat} (distinct : order.Nodup)
    (chained : Linked (pool.link PropCountNode.preListProp)
      (pool.link PropCountNode.nextListProp) before order none)
    (live : ∀ ptr ∈ order, (pool.cell ptr).isSome = true) (enough : order.length ≤ fuel) :
    ∃ pool', deallocateFrom pool fuel order.head? = some pool' ∧
      ∀ ptr, pool'.cell ptr = if ptr ∈ order then none else pool.cell ptr := by
  induction order generalizing pool fuel before with
  | nil => exact ⟨pool, by cases fuel <;> rfl, by simp⟩
  | cons first rest ih =>
    obtain ⟨_, ahead, remaining⟩ := chained
    obtain ⟨notIn, restDistinct⟩ := List.nodup_cons.mp distinct
    obtain ⟨node, found⟩ := Option.isSome_iff_exists.mp (live first (by simp))
    have different {ptr : NodePtr} (member : ptr ∈ rest) : ptr ≠ first := fun same =>
      notIn (same ▸ member)
    have kept {ptr : NodePtr} (member : ptr ∈ rest) :
        (pool.deallocate first).cell ptr = pool.cell ptr := by
      rw [NodePool.cell_deallocate, if_neg (different member)]
    cases fuel with
    | zero => simp at enough
    | succ fuel =>
      have chained' : Linked ((pool.deallocate first).link PropCountNode.preListProp)
          ((pool.deallocate first).link PropCountNode.nextListProp) (some first) rest none :=
        remaining.congr (fun ptr member => by simp only [NodePool.link, kept member])
          fun ptr member => by simp only [NodePool.link, kept member]
      obtain ⟨pool', success, gone⟩ := ih restDistinct chained'
        (fun ptr member => by rw [kept member]; exact live ptr (by simp [member]))
        (by simpa using enough)
      have next : node.nextListProp = rest.head? := by simpa [NodePool.link, found] using ahead
      refine ⟨pool', by simp [deallocateFrom, found, next, success], ?_⟩
      intro ptr
      rw [gone, NodePool.cell_deallocate]
      by_cases same : ptr = first <;> simp [same]

/-- `clear` succeeds and leaves no node. -/
theorem Represents.clear (rep : Represents list order) :
    ∃ after, list.clear = some after ∧ Represents after [] := by
  obtain ⟨pool, success, gone⟩ := exists_deallocateFrom rep.distinct rep.chained
    (fun ptr member => (rep.live ptr).mpr member) rep.length_le
  rw [← rep.beginning] at success
  have nothing (ptr : NodePtr) : pool.cell ptr = none := by
    rw [gone]
    split
    · rfl
    · rename_i outside
      exact Option.not_isSome_iff_eq_none.mp fun live => outside ((rep.live ptr).mp live)
  refine ⟨⟨none, none, ∅, pool⟩, by simp [PropCountNodeList.clear, success], ?_⟩
  exact
    { distinct := List.nodup_nil
      live := by simp [nothing]
      bounded := by simp
      beginning := rfl
      ending := rfl
      chained := linked_nil
      indexed := by simp [ofProp]
      sameChained := fun _ => linked_nil
      wellFormed := ⟨by simp [runsOf], List.Pairwise.nil⟩ }

end BTool.TaskQueue.PropCountNodeList
