import Mathlib.Data.Finmap
import BTool.Foundation.LinkedChain

/-! `SerialTaskQueue::PropCountNodeList`: the waiting properties as a doubly
linked list of run-length nodes, with an index from each property to its nodes.

Nodes live at addresses of an object pool. A read or write through an address
that holds no node makes the operation fail (`none`), and so does an assertion.
The pool hands out a new address each time; the real pool recycles addresses,
which no operation can observe, since a recycled slot is constructed anew. -/

namespace BTool.TaskQueue

open BTool.Foundation

abbrev NodePtr := Nat

structure PropCountNode (P : Type) where
  preSameProp : Option NodePtr
  nextSameProp : Option NodePtr
  preListProp : Option NodePtr
  nextListProp : Option NodePtr
  count : Nat
  canPop : Bool
  prop : P

namespace PropCountNode

variable {P : Type}

/-- The constructor, but for the links it sets in the two predecessors. -/
def construct (prop : P) (preSameProp preListProp : Option NodePtr) (canImmediatelyPop : Bool) :
    PropCountNode P :=
  { preSameProp, nextSameProp := none, preListProp, nextListProp := none,
    count := 1, canPop := canImmediatelyPop, prop }

def resetCanPop (canPop : Bool) (node : PropCountNode P) : PropCountNode P :=
  { node with canPop := canPop }

def add (node : PropCountNode P) : PropCountNode P := { node with count := node.count + 1 }

def reduce (node : PropCountNode P) : PropCountNode P := { node with count := node.count - 1 }

def resetPreSameProp (ptr : Option NodePtr) (node : PropCountNode P) : PropCountNode P :=
  { node with preSameProp := ptr }

def resetNextSameProp (ptr : Option NodePtr) (node : PropCountNode P) : PropCountNode P :=
  { node with nextSameProp := ptr }

def resetPreListProp (ptr : Option NodePtr) (node : PropCountNode P) : PropCountNode P :=
  { node with preListProp := ptr }

def resetNextListProp (ptr : Option NodePtr) (node : PropCountNode P) : PropCountNode P :=
  { node with nextListProp := ptr }

end PropCountNode

/-- The nodes alive in the pool, and the next address it hands out. -/
structure NodePool (P : Type) where
  cell : NodePtr → Option (PropCountNode P)
  fresh : NodePtr

namespace NodePool

variable {P : Type}

def empty : NodePool P := ⟨fun _ => none, 0⟩

/-- Apply a member function to the node a pointer leads to, if it leads to one. -/
def edit (pool : NodePool P) (ptr : Option NodePtr)
    (change : PropCountNode P → PropCountNode P) : NodePool P :=
  { pool with cell := fun other => if ptr = some other then (pool.cell other).map change else pool.cell other }

/-- `if (ptr) ptr->change()`: a null pointer is skipped, a dangling one fails. -/
def write (pool : NodePool P) (ptr : Option NodePtr)
    (change : PropCountNode P → PropCountNode P) : Option (NodePool P) :=
  match ptr with
  | none => some pool
  | some target => if (pool.cell target).isSome then some (pool.edit ptr change) else none

/-- `allocate`: construct a node in place and link its two predecessors to it. -/
def allocate (pool : NodePool P) (prop : P) (preSameProp preListProp : Option NodePtr)
    (canImmediatelyPop : Bool) : Option (NodePtr × NodePool P) := do
  let node := pool.fresh
  let built : NodePool P :=
    { cell := Function.update pool.cell node
        (some (.construct prop preSameProp preListProp canImmediatelyPop))
      fresh := pool.fresh + 1 }
  let built ← built.write preSameProp (PropCountNode.resetNextSameProp (some node))
  let built ← built.write preListProp (PropCountNode.resetNextListProp (some node))
  return (node, built)

def deallocate (pool : NodePool P) (ptr : NodePtr) : NodePool P :=
  { pool with cell := Function.update pool.cell ptr none }

end NodePool

structure PropCountNodeList (P : Type) where
  beginNode : Option NodePtr
  endNode : Option NodePtr
  allNodes : Finmap (fun _ : P => List NodePtr)
  objPool : NodePool P

namespace PropCountNodeList

variable {P : Type} [DecidableEq P]

def empty : PropCountNodeList P := ⟨none, none, ∅, .empty⟩

/-- `m_all_nodes[prop].emplace_back(node)` -/
def emplaceBack (allNodes : Finmap (fun _ : P => List NodePtr)) (prop : P) (node : NodePtr) :
    Finmap (fun _ : P => List NodePtr) :=
  allNodes.insert prop ((allNodes.lookup prop).getD [] ++ [node])

def pushBack (list : PropCountNodeList P) (prop : P) (canImmediatelyPop : Bool) :
    Option (PropCountNodeList P) := do
  match list.endNode with
  | none =>
    let (node, pool) ← list.objPool.allocate prop none none canImmediatelyPop
    return ⟨some node, some node, emplaceBack list.allNodes prop node, pool⟩
  | some last =>
    let lastNode ← list.objPool.cell last
    if lastNode.prop = prop then
      let pool ← list.objPool.write (some last) PropCountNode.add
      return { list with objPool := pool }
    else
      match list.allNodes.lookup prop with
      | none =>
        let (node, pool) ← list.objPool.allocate prop none (some last) canImmediatelyPop
        return { list with
          endNode := some node, allNodes := emplaceBack list.allNodes prop node, objPool := pool }
      | some nodes =>
        -- back() of an empty list is undefined
        let preSameProp ← nodes.getLast?
        let (node, pool) ← list.objPool.allocate prop (some preSameProp) (some last) false
        return { list with
          endNode := some node, allNodes := emplaceBack list.allNodes prop node, objPool := pool }

def resetProp (list : PropCountNodeList P) (prop : P) : Option (PropCountNodeList P) := do
  match list.allNodes.lookup prop with
  | none => return list
  | some nodes =>
    let front ← nodes.head?
    let pool ← list.objPool.write (some front) (PropCountNode.resetCanPop true)
    return { list with objPool := pool }

/-- The search loop of `pop_front`, bounded by `fuel` iterations. -/
def findCanPop (pool : NodePool P) : Nat → Option NodePtr → Option NodePtr
  | 0, _ => none
  | _ + 1, none => none
  | fuel + 1, some ptr => do
    let node ← pool.cell ptr
    if node.canPop then some ptr else findCanPop pool fuel node.nextListProp

/-- `none` where `assert(pop_front_node)` fails. -/
def popFront (list : PropCountNodeList P) : Option (P × PropCountNodeList P) := do
  let front ← findCanPop list.objPool list.objPool.fresh list.beginNode
  let pool ← list.objPool.write (some front) PropCountNode.reduce
  let node ← pool.cell front
  if 0 < node.count then
    let pool ← pool.write (some front) (PropCountNode.resetCanPop false)
    return (node.prop, { list with objPool := pool })
  else
    let (allNodes, pool) ← match node.nextSameProp with
      | some next => do
        let pool ← pool.write (some next) (PropCountNode.resetPreSameProp none)
        match (list.allNodes.lookup node.prop).getD [] with
        | [] => none
        | _ :: rest => some (list.allNodes.insert node.prop rest, pool)
      | none => some (list.allNodes.erase node.prop, pool)
    let pool ← pool.write node.nextListProp (PropCountNode.resetPreListProp node.preListProp)
    let pool ← pool.write node.preListProp (PropCountNode.resetNextListProp node.nextListProp)
    return (node.prop,
      { beginNode := if list.beginNode = some front then node.nextListProp else list.beginNode
        endNode := if list.endNode = some front then node.preListProp else list.endNode
        allNodes
        objPool := pool.deallocate front })

/-- Whether a pointer is non-null and leads to a node of the property. -/
def leadsTo (pool : NodePool P) (prop : P) : Option NodePtr → Option Bool
  | none => some false
  | some ptr => (pool.cell ptr).map (fun node => node.prop = prop)

/-- The loop of `remove_prop` over the nodes of one property. -/
def removeNodes (prop : P) : List NodePtr → Bool → Bool → PropCountNodeList P →
    Option (PropCountNodeList P)
  | [], _, _, list => some list
  | item :: rest, needCompBegin, needCompEnd, list => do
    let node ← list.objPool.cell item
    let pool ← list.objPool.write node.preListProp
      (PropCountNode.resetNextListProp node.nextListProp)
    let pool ← pool.write node.nextListProp (PropCountNode.resetPreListProp node.preListProp)
    let (beginNode, needCompBegin, pool) ←
      if needCompBegin ∧ list.beginNode = some item then do
        let pool ← pool.write node.nextListProp (PropCountNode.resetPreListProp none)
        let still ← leadsTo pool prop node.nextListProp
        some (node.nextListProp, still, pool)
      else some (list.beginNode, needCompBegin, pool)
    let (endNode, needCompEnd, pool) ←
      if needCompEnd ∧ list.endNode = some item then do
        let pool ← pool.write node.preListProp (PropCountNode.resetNextListProp none)
        let still ← leadsTo pool prop node.preListProp
        some (node.preListProp, still, pool)
      else some (list.endNode, needCompEnd, pool)
    removeNodes prop rest needCompBegin needCompEnd
      { list with beginNode, endNode, objPool := pool.deallocate item }

def removeProp (list : PropCountNodeList P) (prop : P) : Option (PropCountNodeList P) := do
  match list.allNodes.lookup prop with
  | none => return list
  | some nodes =>
    let needCompBegin ← leadsTo list.objPool prop list.beginNode
    let needCompEnd ← leadsTo list.objPool prop list.endNode
    let list ← removeNodes prop nodes needCompBegin needCompEnd list
    return { list with allNodes := list.allNodes.erase prop }

/-- The loop of `clear`: deallocate from a node on. -/
def deallocateFrom (pool : NodePool P) : Nat → Option NodePtr → Option (NodePool P)
  | 0, some _ => none
  | _, none => some pool
  | fuel + 1, some ptr => do
    let node ← pool.cell ptr
    deallocateFrom (pool.deallocate ptr) fuel node.nextListProp

def clear (list : PropCountNodeList P) : Option (PropCountNodeList P) := do
  let pool ← deallocateFrom list.objPool list.objPool.fresh list.beginNode
  return ⟨none, none, ∅, pool⟩

end PropCountNodeList

end BTool.TaskQueue
