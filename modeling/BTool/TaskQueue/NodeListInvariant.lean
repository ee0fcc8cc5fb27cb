import BTool.TaskQueue.PropCountNodeList
import BTool.TaskQueue.PropRuns

/-! The representation invariant of `PropCountNodeList`, kept by every operation,
and the runs that the nodes stand for. -/

namespace BTool.TaskQueue

open BTool.Foundation

variable {P : Type}

/-- What a node says about its run. -/
def PropCountNode.run (node : PropCountNode P) : PropRun P := ⟨node.prop, node.count, node.canPop⟩

namespace NodePool

variable {α : Type} {pool : NodePool P} {target : Option NodePtr} {ptr other : NodePtr}
  {change : PropCountNode P → PropCountNode P}

/-- A field of the node at an address. -/
def value (pool : NodePool P) (field : PropCountNode P → α) (ptr : NodePtr) : Option α :=
  (pool.cell ptr).map field

/-- A pointer field of the node at an address. -/
def link (pool : NodePool P) (field : PropCountNode P → Option NodePtr) (ptr : NodePtr) :
    Option NodePtr := (pool.cell ptr).bind field

theorem cell_edit : (pool.edit target change).cell ptr =
    if target = some ptr then (pool.cell ptr).map change else pool.cell ptr := rfl

@[simp] theorem isSome_edit :
    ((pool.edit target change).cell ptr).isSome = (pool.cell ptr).isSome := by
  rw [cell_edit]
  split <;> simp

theorem write_eq_edit (live : ∀ node, target = some node → (pool.cell node).isSome = true) :
    pool.write target change = some (pool.edit target change) := by
  cases target with
  | none => rfl
  | some node => simp [write, live node rfl]

theorem value_edit_same {field : PropCountNode P → α}
    (same : ∀ node, field (change node) = field node) :
    (pool.edit target change).value field ptr = pool.value field ptr := by
  unfold value
  rw [cell_edit]
  split
  · cases pool.cell ptr <;> simp [same]
  · rfl

theorem link_edit_same {field : PropCountNode P → Option NodePtr}
    (same : ∀ node, field (change node) = field node) :
    (pool.edit target change).link field ptr = pool.link field ptr := by
  unfold link
  rw [cell_edit]
  split
  · cases pool.cell ptr <;> simp [same]
  · rfl

theorem link_edit_set {field : PropCountNode P → Option NodePtr} {ptr' : Option NodePtr}
    (live : (pool.cell ptr).isSome = true) (set : ∀ node, field (change node) = ptr') :
    (pool.edit target change).link field ptr =
      if target = some ptr then ptr' else pool.link field ptr := by
  obtain ⟨node, found⟩ := Option.isSome_iff_exists.mp live
  unfold link
  rw [cell_edit]
  split <;> simp [found, set]

/-- What linking a new node behind its predecessors changes in an existing one. -/
def joined (fresh : NodePtr) (preSameProp preListProp : Option NodePtr) (ptr : NodePtr)
    (node : PropCountNode P) : PropCountNode P :=
  { node with
    nextSameProp := if preSameProp = some ptr then some fresh else node.nextSameProp
    nextListProp := if preListProp = some ptr then some fresh else node.nextListProp }

section Allocate

variable {prop : P} {preSameProp preListProp : Option NodePtr} {can : Bool}

/-- With live predecessors `allocate` succeeds; this is the pool it leaves. -/
theorem exists_allocate (prop : P) (can : Bool) (unused : pool.cell pool.fresh = none)
    (sameLive : ∀ node, preSameProp = some node → (pool.cell node).isSome = true)
    (listLive : ∀ node, preListProp = some node → (pool.cell node).isSome = true) :
    ∃ pool', pool.allocate prop preSameProp preListProp can = some (pool.fresh, pool') ∧
      pool'.fresh = pool.fresh + 1 ∧
      pool'.cell pool.fresh = some (.construct prop preSameProp preListProp can) ∧
      ∀ ptr, ptr ≠ pool.fresh →
        pool'.cell ptr = (pool.cell ptr).map (joined pool.fresh preSameProp preListProp ptr) := by
  let built : NodePool P :=
    { cell := Function.update pool.cell pool.fresh
        (some (.construct prop preSameProp preListProp can))
      fresh := pool.fresh + 1 }
  let linked := built.edit preSameProp (PropCountNode.resetNextSameProp (some pool.fresh))
  have grown (node : NodePtr) (live : (pool.cell node).isSome = true) :
      (built.cell node).isSome = true := by
    by_cases equal : node = pool.fresh
    · simp [built, equal]
    · simpa [built, equal] using live
  have success : pool.allocate prop preSameProp preListProp can = some (pool.fresh,
      linked.edit preListProp (PropCountNode.resetNextListProp (some pool.fresh))) := by
    have first : built.write preSameProp (PropCountNode.resetNextSameProp (some pool.fresh)) =
        some linked := write_eq_edit (fun node same => grown node (sameLive node same))
    have second : linked.write preListProp (PropCountNode.resetNextListProp (some pool.fresh)) =
        some (linked.edit preListProp (PropCountNode.resetNextListProp (some pool.fresh))) :=
      write_eq_edit (fun node same => by simpa [linked] using grown node (listLive node same))
    simp only [allocate, bind, Option.bind]
    rw [first]
    dsimp only
    rw [second]
    rfl
  refine ⟨_, success, rfl, ?_, ?_⟩
  · have notSame : preSameProp ≠ some pool.fresh := fun same => by
      simpa [unused] using sameLive _ same
    have notList : preListProp ≠ some pool.fresh := fun same => by
      simpa [unused] using listLive _ same
    simp [cell_edit, linked, built, notSame, notList]
  · intro ptr different
    simp only [cell_edit, linked, built, Function.update_of_ne different]
    cases pool.cell ptr with
    | none => simp
    | some node =>
      by_cases onSame : preSameProp = some ptr <;> by_cases onList : preListProp = some ptr <;>
        simp [joined, onSame, onList, PropCountNode.resetNextSameProp,
          PropCountNode.resetNextListProp]

end Allocate

theorem cell_deallocate : (pool.deallocate other).cell ptr =
    if ptr = other then none else pool.cell ptr := Function.update_apply ..

end NodePool

namespace PropCountNodeList

variable [DecidableEq P] {list : PropCountNodeList P} {order front back : List NodePtr}
  {ptr : NodePtr} {prop : P} {can : Bool}

def runsOf (pool : NodePool P) (order : List NodePtr) : List (PropRun P) :=
  order.filterMap fun ptr => pool.value PropCountNode.run ptr

def ofProp (pool : NodePool P) (prop : P) (order : List NodePtr) : List NodePtr :=
  order.filter fun ptr => pool.value PropCountNode.prop ptr = some prop

/-- The live nodes, in order, are one doubly linked list from begin to end. -/
structure Spine (list : PropCountNodeList P) (order : List NodePtr) : Prop where
  distinct : order.Nodup
  live : ∀ ptr, (list.objPool.cell ptr).isSome = true ↔ ptr ∈ order
  bounded : ∀ ptr ∈ order, ptr < list.objPool.fresh
  beginning : list.beginNode = order.head?
  ending : list.endNode = order.getLast?
  chained : Linked (list.objPool.link PropCountNode.preListProp)
    (list.objPool.link PropCountNode.nextListProp) none order none

/-- Besides, the index holds the nodes of each property in list order, those are
linked to one another, and the runs are well formed. -/
structure Represents (list : PropCountNodeList P) (order : List NodePtr) : Prop
    extends Spine list order where
  indexed : ∀ prop, list.allNodes.lookup prop =
    if ofProp list.objPool prop order = [] then none else some (ofProp list.objPool prop order)
  sameChained : ∀ prop, Linked (list.objPool.link PropCountNode.preSameProp)
    (list.objPool.link PropCountNode.nextSameProp) none (ofProp list.objPool prop order) none
  wellFormed : PropRuns.WellFormed (runsOf list.objPool order)

omit [DecidableEq P] in
theorem Spine.exists_cell (spine : Spine list order) (member : ptr ∈ order) :
    ∃ node, list.objPool.cell ptr = some node :=
  Option.isSome_iff_exists.mp ((spine.live ptr).mpr member)

omit [DecidableEq P] in
theorem Spine.length_le (spine : Spine list order) : order.length ≤ list.objPool.fresh := by
  have bound := spine.distinct.length_le_of_subset
    (show order ⊆ List.range list.objPool.fresh from
      fun ptr member => List.mem_range.mpr (spine.bounded ptr member))
  simpa using bound

omit [DecidableEq P] in
theorem runsOf_append {pool : NodePool P} :
    runsOf pool (front ++ back) = runsOf pool front ++ runsOf pool back :=
  List.filterMap_append

omit [DecidableEq P] in
theorem runsOf_cons {pool : NodePool P} {node : PropCountNode P}
    (found : pool.cell ptr = some node) :
    runsOf pool (ptr :: order) = node.run :: runsOf pool order := by
  simp [runsOf, NodePool.value, found]

omit [DecidableEq P] in
theorem mem_runsOf {pool : NodePool P} {run : PropRun P} : run ∈ runsOf pool order ↔
    ∃ ptr ∈ order, ∃ node, pool.cell ptr = some node ∧ node.run = run := by
  simp [runsOf, NodePool.value]

omit [DecidableEq P] in
theorem runsOf_congr {pool pool' : NodePool P}
    (same : ∀ ptr ∈ order, pool'.value PropCountNode.run ptr = pool.value PropCountNode.run ptr) :
    runsOf pool' order = runsOf pool order :=
  List.filterMap_congr same

theorem ofProp_congr {pool pool' : NodePool P}
    (same : ∀ ptr ∈ order, pool'.value PropCountNode.prop ptr = pool.value PropCountNode.prop ptr) :
    ofProp pool' prop order = ofProp pool prop order := by
  apply List.filter_congr
  intro ptr member
  rw [same ptr member]

theorem empty_represents : Represents (empty : PropCountNodeList P) [] where
  distinct := List.nodup_nil
  live := by simp [empty, NodePool.empty]
  bounded := by simp
  beginning := rfl
  ending := rfl
  chained := linked_nil
  indexed := by simp [empty, ofProp]
  sameChained := fun _ => linked_nil
  wellFormed := ⟨by simp [runsOf], List.Pairwise.nil⟩

theorem ofProp_append {pool : NodePool P} :
    ofProp pool prop (front ++ back) = ofProp pool prop front ++ ofProp pool prop back :=
  List.filter_append _ _

theorem mem_ofProp {pool : NodePool P} : ptr ∈ ofProp pool prop order ↔
    ptr ∈ order ∧ pool.value PropCountNode.prop ptr = some prop := by
  simp [ofProp]

section Append

variable {pool : NodePool P} {preSameProp preListProp : Option NodePtr}

/-- The pool left by `allocate`, seen from the nodes already in the list. -/
structure Extended (old : NodePool P) (order : List NodePtr) (prop : P)
    (preSameProp preListProp : Option NodePtr) (can : Bool) (pool : NodePool P) : Prop where
  unused : old.fresh ∉ order
  fresh : pool.fresh = old.fresh + 1
  new : pool.cell old.fresh = some (.construct prop preSameProp preListProp can)
  kept : ∀ ptr, ptr ≠ old.fresh →
    pool.cell ptr = (old.cell ptr).map (NodePool.joined old.fresh preSameProp preListProp ptr)

variable {old : NodePool P} {extended : Extended old order prop preSameProp preListProp can pool}

omit [DecidableEq P] in
theorem Extended.kept_of_mem (extended : Extended old order prop preSameProp preListProp can pool)
    (member : ptr ∈ order) :
    pool.cell ptr = (old.cell ptr).map (NodePool.joined old.fresh preSameProp preListProp ptr) :=
  extended.kept ptr fun same => extended.unused (same ▸ member)

omit [DecidableEq P] in
theorem Extended.value_eq {α : Type} {field : PropCountNode P → α}
    (extended : Extended old order prop preSameProp preListProp can pool) (member : ptr ∈ order)
    (same : ∀ node, field (NodePool.joined old.fresh preSameProp preListProp ptr node) = field node) :
    pool.value field ptr = old.value field ptr := by
  unfold NodePool.value
  rw [extended.kept_of_mem member]
  cases old.cell ptr <;> simp [same]

omit [DecidableEq P] in
theorem Extended.link_eq {field : PropCountNode P → Option NodePtr}
    (extended : Extended old order prop preSameProp preListProp can pool) (member : ptr ∈ order)
    (same : ∀ node, field (NodePool.joined old.fresh preSameProp preListProp ptr node) = field node) :
    pool.link field ptr = old.link field ptr := by
  unfold NodePool.link
  rw [extended.kept_of_mem member]
  cases old.cell ptr <;> simp [same]

theorem Extended.ofProp_eq (extended : Extended old order prop preSameProp preListProp can pool)
    (other : P) : ofProp pool other (order ++ [old.fresh]) =
      ofProp old other order ++ if prop = other then [old.fresh] else [] := by
  rw [ofProp_append, ofProp_congr fun ptr member => extended.value_eq member fun _ => rfl]
  by_cases same : prop = other <;>
    simp [ofProp, NodePool.value, extended.new, PropCountNode.construct, same]

omit [DecidableEq P] in
theorem Extended.runsOf_eq (extended : Extended old order prop preSameProp preListProp can pool) :
    runsOf pool (order ++ [old.fresh]) = runsOf old order ++ [⟨prop, 1, can⟩] := by
  rw [runsOf_append, runsOf_congr fun ptr member => extended.value_eq member fun _ => rfl,
    runsOf_cons extended.new]
  rfl

omit [DecidableEq P] in
theorem Spine.extend (spine : Spine list order)
    (extended : Extended list.objPool order prop preSameProp order.getLast? can pool)
    (allNodes : Finmap (fun _ : P => List NodePtr)) :
    Spine ⟨order.head?.or (some list.objPool.fresh), some list.objPool.fresh, allNodes, pool⟩
      (order ++ [list.objPool.fresh]) where
  distinct := by
    refine List.nodup_append.mpr ⟨spine.distinct, by simp, ?_⟩
    intro ptr member other new same
    rw [List.mem_singleton.mp new] at same
    exact extended.unused (same ▸ member)
  live := by
    intro ptr
    by_cases same : ptr = list.objPool.fresh
    · simp [same, extended.new]
    · simp [same, extended.kept ptr same, spine.live]
  bounded := by
    intro ptr member
    rw [extended.fresh]
    rcases List.mem_append.mp member with earlier | last
    · exact Nat.lt_succ_of_lt (spine.bounded ptr earlier)
    · rw [List.mem_singleton.mp last]
      exact Nat.lt_succ_self _
  beginning := by simp [List.head?_append]
  ending := by simp
  chained := by
    apply spine.chained.snoc spine.distinct
    · simp [NodePool.link, extended.new, PropCountNode.construct]
    · simp [NodePool.link, extended.new, PropCountNode.construct]
    · exact fun other member => extended.link_eq member fun _ => rfl
    · intro other member
      obtain ⟨node, found⟩ := spine.exists_cell member
      simp only [NodePool.link, extended.kept_of_mem member, found]
      rfl

/-- A node appended behind the last one represents one more run of one task. -/
theorem Represents.extend (rep : Represents list order)
    (extended : Extended list.objPool order prop (ofProp list.objPool prop order).getLast?
      order.getLast? can pool)
    (wellFormed : PropRuns.WellFormed (runsOf list.objPool order ++ [⟨prop, 1, can⟩])) :
    Represents ⟨order.head?.or (some list.objPool.fresh), some list.objPool.fresh,
      list.allNodes.insert prop (ofProp list.objPool prop order ++ [list.objPool.fresh]), pool⟩
      (order ++ [list.objPool.fresh]) where
  toSpine := rep.toSpine.extend extended _
  indexed := by
    intro other
    rw [extended.ofProp_eq]
    by_cases same : prop = other
    · subst same
      simp
    · simp [Finmap.lookup_insert_of_ne _ (Ne.symm same), rep.indexed, same]
  sameChained := by
    intro other
    rw [extended.ofProp_eq]
    have inOrder {ptr : NodePtr} (member : ptr ∈ ofProp list.objPool other order) :
        ptr ∈ order := (mem_ofProp.mp member).1
    by_cases same : prop = other
    · subst same
      rw [if_pos rfl]
      apply (rep.sameChained prop).snoc (rep.distinct.filter _)
      · simp [NodePool.link, extended.new, PropCountNode.construct]
      · simp [NodePool.link, extended.new, PropCountNode.construct]
      · exact fun other member => extended.link_eq (inOrder member) fun _ => rfl
      · intro other member
        obtain ⟨node, found⟩ := rep.exists_cell (inOrder member)
        simp only [NodePool.link, extended.kept_of_mem (inOrder member), found]
        rfl
    · rw [if_neg same, List.append_nil]
      apply (rep.sameChained other).congr
      · exact fun ptr member => extended.link_eq (inOrder member) fun _ => rfl
      · intro ptr member
        obtain ⟨node, found⟩ := rep.exists_cell (inOrder member)
        have apart : (ofProp list.objPool prop order).getLast? ≠ some ptr := by
          intro last
          have left := (mem_ofProp.mp (List.mem_of_getLast? last)).2
          have right := (mem_ofProp.mp member).2
          exact same (Option.some.inj (left.symm.trans right))
        simp [NodePool.link, extended.kept_of_mem (inOrder member), found, NodePool.joined, apart]
  wellFormed := by
    rw [extended.runsOf_eq]
    exact wellFormed

end Append

/-- A change of a node that leaves its property and its links alone. -/
structure RunOnly (change : PropCountNode P → PropCountNode P) : Prop where
  prop : ∀ node, (change node).prop = node.prop
  preSameProp : ∀ node, (change node).preSameProp = node.preSameProp
  nextSameProp : ∀ node, (change node).nextSameProp = node.nextSameProp
  preListProp : ∀ node, (change node).preListProp = node.preListProp
  nextListProp : ∀ node, (change node).nextListProp = node.nextListProp

omit [DecidableEq P] in
theorem runOnly_add : RunOnly (PropCountNode.add : PropCountNode P → PropCountNode P) := by
  constructor <;> intro <;> rfl

omit [DecidableEq P] in
theorem runOnly_resetCanPop : RunOnly (PropCountNode.resetCanPop can : PropCountNode P → PropCountNode P) := by
  constructor <;> intro <;> rfl

section EditRun

variable {node : PropCountNode P} {change : PropCountNode P → PropCountNode P}

omit [DecidableEq P] in
theorem runsOf_edit (distinct : (front ++ ptr :: back).Nodup)
    (found : list.objPool.cell ptr = some node) :
    runsOf (list.objPool.edit (some ptr) change) (front ++ ptr :: back) =
      runsOf list.objPool front ++ (change node).run :: runsOf list.objPool back := by
  obtain ⟨_, restDistinct, apart⟩ := List.nodup_append.mp distinct
  have others {part : List NodePtr} (notIn : ptr ∉ part) :
      runsOf (list.objPool.edit (some ptr) change) part = runsOf list.objPool part := by
    apply runsOf_congr
    intro other member
    have different : some ptr ≠ some other := fun same =>
      notIn (Option.some.inj same ▸ member)
    simp [NodePool.value, NodePool.cell_edit, different]
  have changed : (list.objPool.edit (some ptr) change).cell ptr = some (change node) := by
    simp [NodePool.cell_edit, found]
  rw [runsOf_append, runsOf_cons changed, others fun member => apart ptr member ptr (by simp) rfl,
    others (List.nodup_cons.mp restDistinct).1]

omit [DecidableEq P] in
/-- A change that leaves the list links alone keeps the spine. -/
theorem Spine.edit {target : Option NodePtr} (spine : Spine list order)
    (pre : ∀ node, (change node).preListProp = node.preListProp)
    (next : ∀ node, (change node).nextListProp = node.nextListProp) :
    Spine { list with objPool := list.objPool.edit target change } order := by
  have links {field : PropCountNode P → Option NodePtr}
      (same : ∀ node, field (change node) = field node) :
      (list.objPool.edit target change).link field = list.objPool.link field :=
    funext fun _ => NodePool.link_edit_same same
  refine ⟨spine.distinct, ?_, spine.bounded, spine.beginning, spine.ending, ?_⟩
  · intro other
    rw [NodePool.isSome_edit]
    exact spine.live other
  · rw [links pre, links next]
    exact spine.chained

/-- Changing the count or the flag of one node changes its run and nothing else. -/
theorem Represents.editRun (rep : Represents list order) (runOnly : RunOnly change)
    (wellFormed : PropRuns.WellFormed (runsOf (list.objPool.edit (some ptr) change) order)) :
    Represents { list with objPool := list.objPool.edit (some ptr) change } order := by
  have links {field : PropCountNode P → Option NodePtr}
      (same : ∀ node, field (change node) = field node) :
      (list.objPool.edit (some ptr) change).link field = list.objPool.link field :=
    funext fun _ => NodePool.link_edit_same same
  have props (prop : P) : ofProp (list.objPool.edit (some ptr) change) prop order =
      ofProp list.objPool prop order :=
    ofProp_congr fun _ _ => NodePool.value_edit_same runOnly.prop
  refine { rep.toSpine.edit runOnly.preListProp runOnly.nextListProp with
           indexed := ?_, sameChained := ?_, wellFormed := wellFormed }
  · intro prop
    rw [props]
    exact rep.indexed prop
  · intro prop
    rw [props, links runOnly.preSameProp, links runOnly.nextSameProp]
    exact rep.sameChained prop

end EditRun

theorem ofProp_eq_nil {pool : NodePool P} :
    ofProp pool prop order = [] ↔ ∀ run ∈ runsOf pool order, run.prop ≠ prop := by
  simp only [List.eq_nil_iff_forall_not_mem, mem_ofProp, mem_runsOf, NodePool.value,
    Option.map_eq_some_iff]
  constructor
  · rintro absent run ⟨ptr, member, node, found, same⟩ equal
    exact absent ptr ⟨member, node, found, by rw [← same] at equal; exact equal⟩
  · rintro absent ptr ⟨member, node, found, same⟩
    exact absent node.run ⟨ptr, member, node, found, rfl⟩ same

theorem Represents.lookup_eq_none (rep : Represents list order) :
    list.allNodes.lookup prop = none ↔ ofProp list.objPool prop order = [] := by
  rw [rep.indexed]
  split <;> simp_all

theorem Represents.lookup_eq_some (rep : Represents list order) {nodes : List NodePtr} :
    list.allNodes.lookup prop = some nodes ↔
      ofProp list.objPool prop order = nodes ∧ nodes ≠ [] := by
  rw [rep.indexed]
  split
  · rename_i empty
    simp [empty, eq_comm]
  · rename_i present
    constructor
    · intro same
      exact ⟨Option.some.inj same, Option.some.inj same ▸ present⟩
    · rintro ⟨same, _⟩
      rw [same]

theorem Represents.exists_allocate (rep : Represents list order) (prop : P) (can : Bool) :
    ∃ pool, list.objPool.allocate prop (ofProp list.objPool prop order).getLast? order.getLast?
        can = some (list.objPool.fresh, pool) ∧
      Extended list.objPool order prop (ofProp list.objPool prop order).getLast?
        order.getLast? can pool := by
  have unmember : list.objPool.fresh ∉ order := fun member =>
    Nat.lt_irrefl _ (rep.bounded _ member)
  have unused : list.objPool.cell list.objPool.fresh = none :=
    Option.not_isSome_iff_eq_none.mp fun live => unmember ((rep.live _).mp live)
  have sameLive : ∀ node, (ofProp list.objPool prop order).getLast? = some node →
      (list.objPool.cell node).isSome = true := fun node last =>
    (rep.live node).mpr (mem_ofProp.mp (List.mem_of_getLast? last)).1
  obtain ⟨pool, success, fresh, new, kept⟩ := NodePool.exists_allocate prop can
    unused sameLive (fun node last => (rep.live node).mpr (List.mem_of_getLast? last))
  exact ⟨pool, success, unmember, fresh, new, kept⟩

/-- `pushBack` succeeds and appends one task to the runs. -/
theorem Represents.pushBack (rep : Represents list order) (prop : P) (can : Bool) :
    ∃ after order', list.pushBack prop can = some after ∧ Represents after order' ∧
      runsOf after.objPool order' = PropRuns.pushBack (runsOf list.objPool order) prop can := by
  have wellFormed : PropRuns.WellFormed (PropRuns.pushBack (runsOf list.objPool order) prop can) :=
    rep.wellFormed.pushBack
  rcases List.eq_nil_or_concat order with empty | ⟨init, last, shape⟩
  · subst empty
    obtain ⟨pool, success, extended⟩ := rep.exists_allocate prop can
    have missing : list.allNodes.lookup prop = none := rep.indexed prop
    have runs : runsOf pool ([] ++ [list.objPool.fresh]) =
        PropRuns.pushBack (runsOf list.objPool []) prop can := by
      rw [extended.runsOf_eq]
      simp [runsOf, PropRuns.pushBack]
    refine ⟨_, _, ?_, rep.extend extended (by rwa [← extended.runsOf_eq, runs]), runs⟩
    have ended : list.endNode = none := rep.ending
    have allocated : list.objPool.allocate prop none none can =
      some (list.objPool.fresh, pool) := success
    simp [PropCountNodeList.pushBack, ended, allocated, emplaceBack, missing, ofProp]
  · rw [List.concat_eq_append] at shape
    subst shape
    have ended : list.endNode = some last := by rw [rep.ending]; simp
    obtain ⟨node, found⟩ := rep.exists_cell (show last ∈ init ++ [last] by simp)
    have lastRun : runsOf list.objPool (init ++ [last]) =
        runsOf list.objPool init ++ [node.run] := by
      rw [runsOf_append, runsOf_cons found]
      rfl
    by_cases merged : node.prop = prop
    · have runs : runsOf (list.objPool.edit (some last) PropCountNode.add) (init ++ [last]) =
          PropRuns.pushBack (runsOf list.objPool (init ++ [last])) prop can := by
        rw [runsOf_edit rep.distinct found, lastRun]
        simp [PropRuns.pushBack, PropCountNode.run, merged, PropCountNode.add, runsOf]
      refine ⟨_, _, ?_, rep.editRun runOnly_add (runs ▸ wellFormed), runs⟩
      simp [PropCountNodeList.pushBack, ended, found, merged, NodePool.write]
    · have pushed : PropRuns.pushBack (runsOf list.objPool (init ++ [last])) prop can =
          runsOf list.objPool (init ++ [last]) ++ [⟨prop, 1, can &&
            !(runsOf list.objPool (init ++ [last])).any fun run => run.prop = prop⟩] := by
        rw [lastRun]
        simp [PropRuns.pushBack, PropCountNode.run, merged]
      have begun : list.beginNode = some (init.head?.getD last) := by
        rw [rep.beginning]
        cases init <;> rfl
      cases indexed : list.allNodes.lookup prop with
      | none =>
        have nothing := rep.lookup_eq_none.mp indexed
        have absent := ofProp_eq_nil.mp nothing
        have fresh : ((runsOf list.objPool (init ++ [last])).any fun run => run.prop = prop) =
            false := by simpa using absent
        rw [fresh, Bool.not_false, Bool.and_true] at pushed
        obtain ⟨pool, success, extended⟩ := rep.exists_allocate prop can
        refine ⟨_, _, ?_, rep.extend extended (pushed ▸ wellFormed), extended.runsOf_eq.trans pushed.symm⟩
        rw [nothing] at success
        have allocated : list.objPool.allocate prop none (some last) can =
          some (list.objPool.fresh, pool) := by simpa using success
        simp [PropCountNodeList.pushBack, ended, found, merged, indexed, allocated, emplaceBack,
          nothing, begun]
      | some nodes =>
        obtain ⟨same, present⟩ := rep.lookup_eq_some.mp indexed
        have recorded : ((runsOf list.objPool (init ++ [last])).any fun run => run.prop = prop) =
            true := by
          by_contra none
          have absent : ∀ run ∈ runsOf list.objPool (init ++ [last]), run.prop ≠ prop := by
            simpa using none
          exact present (same ▸ ofProp_eq_nil.mpr absent)
        rw [recorded, Bool.not_true, Bool.and_false] at pushed
        obtain ⟨pool, success, extended⟩ := rep.exists_allocate prop false
        refine ⟨_, _, ?_, rep.extend extended (pushed ▸ wellFormed), extended.runsOf_eq.trans pushed.symm⟩
        obtain ⟨back, backEq⟩ := Option.isSome_iff_exists.mp (List.getLast?_isSome.mpr present)
        rw [same, backEq] at success
        have allocated : list.objPool.allocate prop (some back) (some last) false =
          some (list.objPool.fresh, pool) := by simpa using success
        simp [PropCountNodeList.pushBack, ended, found, merged, indexed, backEq, allocated,
          emplaceBack, same, begun]

end PropCountNodeList

end BTool.TaskQueue
