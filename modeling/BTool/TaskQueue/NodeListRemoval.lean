import BTool.TaskQueue.NodeListInvariant

/-! The operations of `PropCountNodeList` on existing nodes:
`reset_prop` and `pop_front`. -/

namespace BTool.TaskQueue.PropCountNodeList

open BTool.Foundation

variable {P : Type} [DecidableEq P] {list : PropCountNodeList P}
  {order front back : List NodePtr} {ptr : NodePtr} {prop : P}

private theorem resetProp_of_first {front back : List (PropRun P)} {run : PropRun P}
    (absent : ∀ earlier ∈ front, earlier.prop ≠ run.prop) :
    PropRuns.resetProp (front ++ run :: back) run.prop =
      front ++ { run with canPop := true } :: back := by
  induction front with
  | nil => simp [PropRuns.resetProp]
  | cons head rest ih =>
    have different : head.prop ≠ run.prop := absent head (by simp)
    have later := ih fun earlier member => absent earlier (by simp [member])
    simp [PropRuns.resetProp, different, later]

private theorem resetProp_of_absent {runs : List (PropRun P)}
    (absent : ∀ run ∈ runs, run.prop ≠ prop) : PropRuns.resetProp runs prop = runs := by
  induction runs with
  | nil => rfl
  | cons head rest ih =>
    have different : head.prop ≠ prop := absent head (by simp)
    have later := ih fun run member => absent run (by simp [member])
    simp [PropRuns.resetProp, different, later]

/-- `resetProp` succeeds and makes the first run of the property ready. -/
theorem Represents.resetProp (rep : Represents list order) (prop : P) :
    ∃ after, list.resetProp prop = some after ∧ Represents after order ∧
      runsOf after.objPool order = PropRuns.resetProp (runsOf list.objPool order) prop := by
  cases indexed : list.allNodes.lookup prop with
  | none =>
    have absent := ofProp_eq_nil.mp (rep.lookup_eq_none.mp indexed)
    exact ⟨list, by simp [PropCountNodeList.resetProp, indexed], rep,
      (resetProp_of_absent absent).symm⟩
  | some nodes =>
    obtain ⟨same, present⟩ := rep.lookup_eq_some.mp indexed
    obtain ⟨ptr, rest, rfl⟩ := List.exists_cons_of_ne_nil present
    obtain ⟨front, back, rfl, absent, isProp, _⟩ := List.filter_eq_cons_iff.mp same
    obtain ⟨node, found⟩ := rep.exists_cell (show ptr ∈ front ++ ptr :: back by simp)
    have nodeProp : node.prop = prop := by simpa [NodePool.value, found] using isProp
    have runs : runsOf (list.objPool.edit (some ptr) (PropCountNode.resetCanPop true))
        (front ++ ptr :: back) =
        PropRuns.resetProp (runsOf list.objPool (front ++ ptr :: back)) prop := by
      rw [runsOf_edit rep.distinct found, runsOf_append, runsOf_cons found]
      have earlier : ∀ run ∈ runsOf list.objPool front, run.prop ≠ node.run.prop := by
        rintro run member
        obtain ⟨other, inside, otherNode, otherFound, rfl⟩ := mem_runsOf.mp member
        have different := absent other inside
        rw [show node.run.prop = prop from nodeProp]
        simpa [NodePool.value, otherFound, PropCountNode.run] using different
      rw [← show node.run.prop = prop from nodeProp, resetProp_of_first earlier]
      rfl
    refine ⟨_, ?_, rep.editRun runOnly_resetCanPop (runs ▸ rep.wellFormed.resetProp), runs⟩
    simp [PropCountNodeList.resetProp, indexed, NodePool.write, found]

omit [DecidableEq P] in
/-- The search loop finds the first node in list order that may be popped. -/
theorem findCanPop_eq {pool : NodePool P} {before : Option NodePtr} {fuel : Nat}
    (chained : Linked (pool.link PropCountNode.preListProp)
      (pool.link PropCountNode.nextListProp) before order none)
    (live : ∀ ptr ∈ order, ∃ node, pool.cell ptr = some node) (enough : order.length ≤ fuel) :
    findCanPop pool fuel order.head? =
      order.find? (fun ptr => pool.value PropCountNode.canPop ptr = some true) := by
  induction order generalizing fuel before with
  | nil => cases fuel <;> rfl
  | cons ptr rest ih =>
    obtain ⟨_, ahead, remaining⟩ := chained
    cases fuel with
    | zero => simp at enough
    | succ fuel =>
      obtain ⟨node, found⟩ := live ptr (by simp)
      have next : node.nextListProp = rest.head? := by
        simpa [NodePool.link, found] using ahead
      have later := ih remaining (fun other member => live other (by simp [member]))
        (by simpa using enough)
      by_cases can : node.canPop = true <;>
        simp [findCanPop, found, can, next, later, NodePool.value]

/-- What taking a node out from between `pre` and `next` changes in another one. -/
def bypass (pre next : Option NodePtr) (ptr : NodePtr) (node : PropCountNode P) :
    PropCountNode P :=
  { node with
    preListProp := if next = some ptr then pre else node.preListProp
    nextListProp := if pre = some ptr then next else node.nextListProp }

/-- The pool with one node taken out from between its neighbours. -/
structure Unlinked (old : NodePool P) (ptr : NodePtr) (node : PropCountNode P)
    (pool : NodePool P) : Prop where
  found : old.cell ptr = some node
  fresh : pool.fresh = old.fresh
  gone : pool.cell ptr = none
  kept : ∀ other, other ≠ ptr → pool.cell other =
    (old.cell other).map (bypass node.preListProp node.nextListProp other)

variable {node : PropCountNode P} {old pool : NodePool P}

omit [DecidableEq P] in
theorem Unlinked.value_eq {α : Type} {field : PropCountNode P → α} {other : NodePtr}
    (cut : Unlinked old ptr node pool) (different : other ≠ ptr)
    (same : ∀ inner, field (bypass node.preListProp node.nextListProp other inner) = field inner) :
    pool.value field other = old.value field other := by
  unfold NodePool.value
  rw [cut.kept other different]
  cases old.cell other <;> simp [same]

omit [DecidableEq P] in
theorem Unlinked.link_eq {field : PropCountNode P → Option NodePtr} {other : NodePtr}
    (cut : Unlinked old ptr node pool) (different : other ≠ ptr)
    (same : ∀ inner, field (bypass node.preListProp node.nextListProp other inner) = field inner) :
    pool.link field other = old.link field other := by
  unfold NodePool.link
  rw [cut.kept other different]
  cases old.cell other <;> simp [same]

omit [DecidableEq P] in
theorem ne_of_mem_split (distinct : (front ++ ptr :: back).Nodup) {other : NodePtr}
    (member : other ∈ front ++ back) : other ≠ ptr := by
  obtain ⟨_, behind, apart⟩ := List.nodup_append.mp distinct
  rcases List.mem_append.mp member with before | after
  · exact apart other before ptr (by simp)
  · rintro rfl
    exact (List.nodup_cons.mp behind).1 after

omit [DecidableEq P] in
/-- Taking a node out keeps the spine; begin and end move when they were at it. -/
theorem Spine.unlink (spine : Spine list (front ++ ptr :: back))
    (cut : Unlinked list.objPool ptr node pool)
    (allNodes : Finmap (fun _ : P => List NodePtr)) :
    Spine
      { beginNode := if list.beginNode = some ptr then node.nextListProp else list.beginNode
        endNode := if list.endNode = some ptr then node.preListProp else list.endNode
        allNodes, objPool := pool } (front ++ back) := by
  have different {other : NodePtr} (member : other ∈ front ++ back) : other ≠ ptr :=
    ne_of_mem_split spine.distinct member
  have within {other : NodePtr} (member : other ∈ front ++ back) : other ∈ front ++ ptr :: back := by
    simp only [List.mem_append, List.mem_cons] at member ⊢
    tauto
  obtain ⟨behind, ahead⟩ := spine.chained.links
  have pre : node.preListProp = front.getLast? := by
    simpa [NodePool.link, cut.found] using behind
  have next : node.nextListProp = back.head? := by
    simpa [NodePool.link, cut.found] using ahead
  refine { distinct := ?_, live := ?_, bounded := ?_, beginning := ?_, ending := ?_, chained := ?_ }
  · exact spine.distinct.sublist (List.Sublist.append_left (List.sublist_cons_self _ _) _)
  · intro other
    by_cases same : other = ptr
    · subst same
      have absent : other ∉ front ++ back := fun member => different member rfl
      simp only [cut.gone, Option.isSome_none, Bool.false_eq_true, absent]
    · rw [cut.kept other same, Option.isSome_map, spine.live]
      simp [same]
  · intro other member
    rw [cut.fresh]
    exact spine.bounded other (within member)
  · rw [spine.beginning]
    cases front with
    | nil => simp [next]
    | cons first rest =>
      have apart : first ≠ ptr := different (by simp)
      simp [apart]
  · rw [spine.ending]
    rcases List.eq_nil_or_concat back with empty | ⟨init, last, same⟩
    · subst empty
      simp [pre]
    · subst same
      have apart : last ≠ ptr := different (by simp)
      have ended : (front ++ ptr :: init.concat last).getLast? = some last := by
        rw [List.concat_eq_append, ← List.cons_append, ← List.append_assoc]
        exact List.getLast?_concat
      have notLast : some last ≠ some ptr := fun same => apart (Option.some.inj same)
      rw [ended, if_neg notLast, List.concat_eq_append, ← List.append_assoc]
      exact List.getLast?_concat.symm
  · apply spine.chained.unlink spine.distinct
    · intro other member
      obtain ⟨inner, found⟩ := spine.exists_cell (within member)
      simp only [NodePool.link, cut.kept other (different member), found, cut.found]
      rfl
    · intro other member
      obtain ⟨inner, found⟩ := spine.exists_cell (within member)
      simp only [NodePool.link, cut.kept other (different member), found, cut.found]
      rfl

omit [DecidableEq P] in
/-- Both links of an inner node lead to live nodes other than itself. -/
theorem Spine.neighbours (spine : Spine list (front ++ ptr :: back))
    (found : list.objPool.cell ptr = some node) {other : NodePtr}
    (link : node.preListProp = some other ∨ node.nextListProp = some other) :
    (list.objPool.cell other).isSome = true ∧ other ≠ ptr := by
  obtain ⟨behind, ahead⟩ := spine.chained.links
  have member : other ∈ front ++ back := by
    rcases link with pre | next
    · have last : front.getLast? = some other := by
        simpa [NodePool.link, found, pre] using behind.symm
      exact List.mem_append_left _ (List.mem_of_getLast? last)
    · have first : back.head? = some other := by
        simpa [NodePool.link, found, next] using ahead.symm
      exact List.mem_append_right _ (List.mem_of_mem_head? first)
  have different := ne_of_mem_split spine.distinct member
  refine ⟨(spine.live other).mpr ?_, different⟩
  simp only [List.mem_append, List.mem_cons] at member ⊢
  tauto

omit [DecidableEq P] in
/-- The two writes that join the neighbours, and the deallocation, take the node out. -/
theorem unlinked_of_edits (found : old.cell ptr = some node) : Unlinked old ptr node
    (((old.edit node.nextListProp (PropCountNode.resetPreListProp node.preListProp)).edit
      node.preListProp (PropCountNode.resetNextListProp node.nextListProp)).deallocate ptr) where
  found := found
  fresh := rfl
  gone := by simp [NodePool.cell_deallocate]
  kept := by
    intro other different
    rw [NodePool.cell_deallocate, if_neg different, NodePool.cell_edit, NodePool.cell_edit]
    cases old.cell other with
    | none => simp
    | some inner =>
      by_cases onPre : node.preListProp = some other <;>
        by_cases onNext : node.nextListProp = some other <;>
          simp [onPre, onNext, bypass, PropCountNode.resetPreListProp,
            PropCountNode.resetNextListProp]

section PopLast

/-- The pool while `pop_front` removes a node: its count is down to zero and its
successor of the same property has become the first one. -/
def released (old : NodePool P) (ptr : NodePtr) (node : PropCountNode P) : NodePool P :=
  (old.edit (some ptr) PropCountNode.reduce).edit node.nextSameProp
    (PropCountNode.resetPreSameProp none)

omit [DecidableEq P] in
private theorem Spine.released (spine : Spine list order) (ptr : NodePtr) (node : PropCountNode P) :
    Spine { list with objPool := PropCountNodeList.released list.objPool ptr node } order := by
  have reduced : Spine
      { list with objPool := list.objPool.edit (some ptr) PropCountNode.reduce } order :=
    spine.edit (fun _ => rfl) fun _ => rfl
  exact reduced.edit (fun _ => rfl) fun _ => rfl

omit [DecidableEq P] in
private theorem cell_released {other : NodePtr} (different : other ≠ ptr) :
    (released old ptr node).cell other =
      (old.edit node.nextSameProp (PropCountNode.resetPreSameProp none)).cell other := by
  have apart : some ptr ≠ some other := fun same => different (Option.some.inj same).symm
  simp only [released, NodePool.cell_edit, if_neg apart]

variable (rep : Represents list (front ++ ptr :: back))
  (found : list.objPool.cell ptr = some node)
  (first : ∀ other ∈ front, list.objPool.value PropCountNode.prop other ≠ some node.prop)
  (cut : Unlinked (released list.objPool ptr node) ptr node.reduce pool)

include cut in
omit [DecidableEq P] in
private theorem value_cut {α : Type} {field : PropCountNode P → α} {other : NodePtr}
    (different : other ≠ ptr)
    (bypassed : ∀ inner,
      field (bypass node.preListProp node.nextListProp other inner) = field inner)
    (reset : ∀ inner, field (PropCountNode.resetPreSameProp none inner) = field inner) :
    pool.value field other = list.objPool.value field other := by
  rw [cut.value_eq different bypassed]
  unfold NodePool.value
  rw [cell_released different]
  exact NodePool.value_edit_same reset

include found first in
private theorem ofProp_first : ofProp list.objPool node.prop (front ++ ptr :: back) =
    ptr :: ofProp list.objPool node.prop back := by
  have nothing : ofProp list.objPool node.prop front = [] :=
    List.filter_eq_nil_iff.mpr (by simpa using first)
  rw [ofProp_append, nothing, List.nil_append]
  exact List.filter_cons_of_pos (by simp [NodePool.value, found])

include rep found first in
private theorem nextSameProp_eq :
    node.nextSameProp = (ofProp list.objPool node.prop back).head? := by
  have chained : Linked _ _ none ([] ++ ptr :: ofProp list.objPool node.prop back) none :=
    ofProp_first found first ▸ rep.sameChained node.prop
  have ahead := chained.links.2
  simpa [NodePool.link, found] using ahead

include rep found first in
private theorem nextSameProp_apart {other : NodePtr} (next : node.nextSameProp = some other) :
    other ∈ back ∧ other ≠ ptr ∧ list.objPool.value PropCountNode.prop other = some node.prop := by
  rw [nextSameProp_eq rep found first] at next
  obtain ⟨member, isProp⟩ := mem_ofProp.mp (List.mem_of_mem_head? next)
  exact ⟨member, ne_of_mem_split rep.distinct (List.mem_append_right _ member), isProp⟩

include found in
private theorem ofProp_apart {other : P} (apart : other ≠ node.prop) :
    ofProp list.objPool other (front ++ back) = ofProp list.objPool other (front ++ ptr :: back) := by
  have skipped : ofProp list.objPool other (ptr :: back) = ofProp list.objPool other back :=
    List.filter_cons_of_neg (by simpa [NodePool.value, found] using Ne.symm apart)
  rw [ofProp_append, ofProp_append, skipped]

include first in
private theorem ofProp_behind :
    ofProp list.objPool node.prop (front ++ back) = ofProp list.objPool node.prop back := by
  have nothing : ofProp list.objPool node.prop front = [] :=
    List.filter_eq_nil_iff.mpr (by simpa using first)
  rw [ofProp_append, nothing, List.nil_append]

include rep cut in
private theorem runsOf_cut :
    runsOf pool (front ++ back) = runsOf list.objPool front ++ runsOf list.objPool back := by
  rw [← runsOf_append]
  exact runsOf_congr fun other member =>
    value_cut cut (ne_of_mem_split rep.distinct member) (fun _ => rfl) fun _ => rfl

include rep cut in
private theorem ofProp_cut (other : P) :
    ofProp pool other (front ++ back) = ofProp list.objPool other (front ++ back) :=
  ofProp_congr fun _ member =>
    value_cut cut (ne_of_mem_split rep.distinct member) (fun _ => rfl) fun _ => rfl

/-- `m_all_nodes` without the first node of a property. -/
private def indexCut (list : PropCountNodeList P) (back : List NodePtr) (prop : P) :
    Finmap (fun _ : P => List NodePtr) :=
  if ofProp list.objPool prop back = [] then list.allNodes.erase prop
  else list.allNodes.insert prop (ofProp list.objPool prop back)

include rep found first cut in
private theorem indexed_cut (prop : P) : (indexCut list back node.prop).lookup prop =
    if ofProp pool prop (front ++ back) = [] then none else some (ofProp pool prop (front ++ back)) := by
  rw [ofProp_cut rep cut]
  by_cases same : prop = node.prop
  · subst same
    rw [ofProp_behind first]
    unfold indexCut
    split <;> simp
  · rw [ofProp_apart found same, ← rep.indexed]
    unfold indexCut
    split
    · exact Finmap.lookup_erase_ne same
    · exact Finmap.lookup_insert_of_ne _ same

include rep cut in
private theorem nextSameProp_cut {other : NodePtr} (member : other ∈ front ++ back) :
    pool.link PropCountNode.nextSameProp other =
      list.objPool.link PropCountNode.nextSameProp other := by
  have different := ne_of_mem_split rep.distinct member
  rw [cut.link_eq different fun _ => rfl]
  unfold NodePool.link
  rw [cell_released different]
  exact NodePool.link_edit_same fun _ => rfl

include rep cut in
private theorem preSameProp_cut {other : NodePtr} (member : other ∈ front ++ back) :
    pool.link PropCountNode.preSameProp other = if node.nextSameProp = some other then none
      else list.objPool.link PropCountNode.preSameProp other := by
  have different := ne_of_mem_split rep.distinct member
  have live : (list.objPool.cell other).isSome = true :=
    (rep.live other).mpr (by
      simp only [List.mem_append, List.mem_cons] at member ⊢
      tauto)
  rw [cut.link_eq different fun _ => rfl]
  unfold NodePool.link
  rw [cell_released different]
  exact NodePool.link_edit_set live fun _ => rfl

include rep found first cut in
private theorem sameChained_cut (prop : P) :
    Linked (pool.link PropCountNode.preSameProp) (pool.link PropCountNode.nextSameProp) none
      (ofProp pool prop (front ++ back)) none := by
  rw [ofProp_cut rep cut]
  have chained := rep.sameChained prop
  by_cases same : prop = node.prop
  · subst same
    have whole : Linked _ _ none ([] ++ ptr :: ofProp list.objPool node.prop back) none :=
      ofProp_first found first ▸ chained
    rw [ofProp_behind first]
    have links := whole.links
    apply whole.unlink
    · rw [List.nil_append, ← ofProp_first found first]
      exact rep.distinct.filter _
    · intro other member
      have inside := (mem_ofProp.mp member).1
      rw [preSameProp_cut rep cut (by simp [inside]), links.1, nextSameProp_eq rep found first, links.2]
      rfl
    · intro other member
      have inside := (mem_ofProp.mp member).1
      rw [nextSameProp_cut rep cut (by simp [inside]), links.1]
      simp
  · rw [ofProp_apart found same]
    apply chained.congr
    · intro other member
      rw [← ofProp_apart found same] at member
      obtain ⟨inside, isProp⟩ := mem_ofProp.mp member
      rw [preSameProp_cut rep cut inside, if_neg]
      intro next
      have clash := (nextSameProp_apart rep found first next).2.2
      exact same (Option.some.inj (isProp.symm.trans clash))
    · intro other member
      rw [← ofProp_apart found same] at member
      exact nextSameProp_cut rep cut (mem_ofProp.mp member).1

include rep found first cut in
/-- Removing the first node of a property, as `pop_front` does. -/
private theorem represents_cut : Represents
    { beginNode := if list.beginNode = some ptr then node.nextListProp else list.beginNode
      endNode := if list.endNode = some ptr then node.preListProp else list.endNode
      allNodes := indexCut list back node.prop, objPool := pool } (front ++ back) where
  toSpine := (rep.toSpine.released ptr node).unlink cut _
  indexed := indexed_cut rep found first cut
  sameChained := sameChained_cut rep found first cut
  wellFormed := by
    have whole := rep.wellFormed
    rw [runsOf_append, runsOf_cons found] at whole
    rw [runsOf_cut rep cut]
    constructor
    · intro run member
      apply whole.positive run
      simp only [List.mem_append, List.mem_cons] at member ⊢
      tauto
    · exact whole.first.sublist (List.Sublist.append_left (List.sublist_cons_self _ _) _)

include rep found first in
/-- The writes that join the neighbours of a released node succeed. -/
private theorem exists_cut : ∃ forward joined,
    (released list.objPool ptr node).write node.reduce.nextListProp
      (PropCountNode.resetPreListProp node.reduce.preListProp) = some forward ∧
    forward.write node.reduce.preListProp
      (PropCountNode.resetNextListProp node.reduce.nextListProp) = some joined ∧
    Unlinked (released list.objPool ptr node) ptr node.reduce (joined.deallocate ptr) := by
  have kept : (released list.objPool ptr node).cell ptr = some node.reduce := by
    have apart : node.nextSameProp ≠ some ptr := fun next =>
      (nextSameProp_apart rep found first next).2.1 rfl
    simp [released, NodePool.cell_edit, found, apart]
  have neighbour (other : NodePtr)
      (link : node.reduce.preListProp = some other ∨ node.reduce.nextListProp = some other) :
      ((released list.objPool ptr node).cell other).isSome = true :=
    ((rep.toSpine.released ptr node).neighbours kept link).1
  refine ⟨(released list.objPool ptr node).edit node.reduce.nextListProp
    (PropCountNode.resetPreListProp node.reduce.preListProp), _, ?_, ?_, unlinked_of_edits kept⟩
  · exact NodePool.write_eq_edit fun other next => neighbour other (.inr next)
  · refine NodePool.write_eq_edit fun other pre => ?_
    rw [NodePool.isSome_edit]
    exact neighbour other (.inl pre)

variable (search : findCanPop list.objPool list.objPool.fresh list.beginNode = some ptr)

omit [DecidableEq P] in
include found in
private theorem write_reduce : list.objPool.write (some ptr) PropCountNode.reduce =
      some (list.objPool.edit (some ptr) PropCountNode.reduce) ∧
    (list.objPool.edit (some ptr) PropCountNode.reduce).cell ptr = some node.reduce := by
  simp [NodePool.write, NodePool.cell_edit, found]

include rep found first search in
/-- A run that gives up its only task is removed; the next one of its property, if there is
one, becomes the first. -/
private theorem popFront_last (only : ¬ 0 < node.count - 1) : ∃ after,
    list.popFront = some (node.prop, after) ∧ Represents after (front ++ back) ∧
      runsOf after.objPool (front ++ back) = runsOf list.objPool front ++ runsOf list.objPool back := by
  obtain ⟨forward, joined, joinNext, joinPre, cut⟩ := exists_cut rep found first
  refine ⟨_, ?_, represents_cut rep found first cut, runsOf_cut rep cut⟩
  have count : ¬ 0 < node.reduce.count := only
  obtain ⟨write, reduced⟩ := write_reduce found
  have indexed := rep.indexed node.prop
  rw [ofProp_first found first, if_neg (List.cons_ne_nil _ _)] at indexed
  have following := nextSameProp_eq rep found first
  simp only [PropCountNodeList.popFront, search, write, reduced, bind, Option.bind, count, if_false]
  cases next : node.nextSameProp with
  | none =>
    have alone : ofProp list.objPool node.prop back = [] := by
      rw [next] at following
      exact List.head?_eq_none_iff.mp following.symm
    have unchanged : released list.objPool ptr node =
        list.objPool.edit (some ptr) PropCountNode.reduce := by
      simp [released, next, NodePool.edit]
    rw [← unchanged]
    simp only [show node.reduce.nextSameProp = none from next, joinNext, joinPre, indexCut, alone]
    rfl
  | some successor =>
    have others : ofProp list.objPool node.prop back ≠ [] := by
      intro alone
      rw [next, alone] at following
      cases following
    have resetNext : (list.objPool.edit (some ptr) PropCountNode.reduce).write (some successor)
        (PropCountNode.resetPreSameProp none) = some (released list.objPool ptr node) := by
      have live : ((list.objPool.edit (some ptr) PropCountNode.reduce).cell successor).isSome = true := by
        rw [NodePool.isSome_edit]
        exact (rep.live successor).mpr (by simp [(nextSameProp_apart rep found first next).1])
      rw [← next, NodePool.write_eq_edit (by simpa [next] using live), released]
    simp only [show node.reduce.nextSameProp = some successor from next, resetNext,
      show list.allNodes.lookup node.reduce.prop =
        some (ptr :: ofProp list.objPool node.prop back) from indexed,
      Option.getD_some, joinNext, joinPre, indexCut, others, if_false]
    rfl

end PopLast

/-- A run with more than one task goes on with one task less, not ready until it is reset. -/
private theorem popFront_more (rep : Represents list (front ++ ptr :: back))
    (found : list.objPool.cell ptr = some node)
    (search : findCanPop list.objPool list.objPool.fresh list.beginNode = some ptr)
    (popped : PropRuns.popFront (runsOf list.objPool (front ++ ptr :: back)) = some (node.prop,
      runsOf list.objPool front ++ PropRuns.popRun node.run ++ runsOf list.objPool back))
    (remaining : 0 < node.count - 1) : ∃ after,
      list.popFront = some (node.prop, after) ∧ Represents after (front ++ ptr :: back) ∧
        runsOf after.objPool (front ++ ptr :: back) =
          runsOf list.objPool front ++ PropRuns.popRun node.run ++ runsOf list.objPool back := by
  let lessened := list.objPool.edit (some ptr)
    (PropCountNode.resetCanPop false ∘ PropCountNode.reduce)
  have edits : (list.objPool.edit (some ptr) PropCountNode.reduce).edit (some ptr)
      (PropCountNode.resetCanPop false) = lessened := by
    unfold lessened NodePool.edit
    congr 1
    funext other
    by_cases same : some ptr = some other <;> simp [same]
  have runs : runsOf lessened (front ++ ptr :: back) =
      runsOf list.objPool front ++ PropRuns.popRun node.run ++ runsOf list.objPool back := by
    rw [runsOf_edit rep.distinct found]
    simp [PropRuns.popRun, remaining, PropCountNode.run, PropCountNode.reduce,
      PropCountNode.resetCanPop]
  refine ⟨{ list with objPool := lessened }, ?_,
    rep.editRun ⟨fun _ => rfl, fun _ => rfl, fun _ => rfl, fun _ => rfl, fun _ => rfl⟩ ?_, runs⟩
  · have count : 0 < node.reduce.count := remaining
    obtain ⟨write, reduced⟩ := write_reduce found
    simp only [PropCountNodeList.popFront, search, write, reduced, bind, Option.bind, count,
      if_true]
    rw [NodePool.write_eq_edit (by simp [found]), edits]
    rfl
  · rw [runs]
    exact rep.wellFormed.popFront popped

/-- `popFront` fails exactly when no run may be popped, and otherwise takes one task
from the first run that may. -/
theorem Represents.popFront (rep : Represents list order) :
    (list.popFront = none ∧ PropRuns.popFront (runsOf list.objPool order) = none) ∨
      ∃ prop after order', list.popFront = some (prop, after) ∧ Represents after order' ∧
        PropRuns.popFront (runsOf list.objPool order) =
          some (prop, runsOf after.objPool order') := by
  have search := findCanPop_eq rep.chained (fun ptr member => rep.exists_cell member)
    rep.length_le
  rw [← rep.beginning] at search
  cases target : order.find? fun ptr => list.objPool.value PropCountNode.canPop ptr = some true with
  | none =>
    rw [target] at search
    left
    refine ⟨by simp [PropCountNodeList.popFront, search], PropRuns.popFront_eq_none.mpr ?_⟩
    intro run member
    obtain ⟨ptr, inside, node, found, rfl⟩ := mem_runsOf.mp member
    have blocked := List.find?_eq_none.mp target ptr inside
    simpa [NodePool.value, found, PropCountNode.run] using blocked
  | some ptr =>
    rw [target] at search
    right
    obtain ⟨allowed, front, back, rfl, blocked⟩ := List.find?_eq_some_iff_append.mp target
    obtain ⟨node, found⟩ := rep.exists_cell (show ptr ∈ front ++ ptr :: back by simp)
    have can : node.canPop = true := by simpa [NodePool.value, found] using allowed
    have split : runsOf list.objPool (front ++ ptr :: back) =
        runsOf list.objPool front ++ node.run :: runsOf list.objPool back := by
      rw [runsOf_append, runsOf_cons found]
    have earlier : ∀ run ∈ runsOf list.objPool front, run.canPop = false := by
      intro run member
      obtain ⟨other, inside, inner, cell, rfl⟩ := mem_runsOf.mp member
      have notYet := blocked other inside
      simpa [NodePool.value, cell, PropCountNode.run] using notYet
    have popped : PropRuns.popFront (runsOf list.objPool (front ++ ptr :: back)) = some (node.prop,
        runsOf list.objPool front ++ PropRuns.popRun node.run ++ runsOf list.objPool back) :=
      PropRuns.popFront_eq_some.mpr ⟨_, node.run, _, split, earlier, can, rfl⟩
    by_cases remaining : 0 < node.count - 1
    · obtain ⟨after, success, represents, runs⟩ := popFront_more rep found search popped remaining
      exact ⟨node.prop, after, _, success, represents, by rw [popped, runs]⟩
    · have first : ∀ other ∈ front,
          list.objPool.value PropCountNode.prop other ≠ some node.prop := by
        intro other member isProp
        obtain ⟨inner, cell, same⟩ := Option.map_eq_some_iff.mp isProp
        have valid : PropRuns.WellFormed
            (runsOf list.objPool front ++ node.run :: runsOf list.objPool back) :=
          split ▸ rep.wellFormed
        exact (valid.ready_of_canPop can).1 inner.run
          (mem_runsOf.mpr ⟨other, member, inner, cell, rfl⟩) same
      have ended : PropRuns.popRun node.run = [] := by
        simp [PropRuns.popRun, PropCountNode.run, remaining]
      obtain ⟨after, success, represents, runs⟩ := popFront_last rep found first search remaining
      refine ⟨node.prop, after, _, success, represents, ?_⟩
      rw [popped, runs, ended, List.append_nil]

end BTool.TaskQueue.PropCountNodeList
