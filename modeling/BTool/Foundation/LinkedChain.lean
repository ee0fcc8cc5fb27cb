import Mathlib.Data.List.Basic
import Mathlib.Data.List.Nodup

/-! Doubly linked chains: two link maps that agree with one sequence of nodes. Singly linked chains that end
in a null node: the nodes that one comes to from a first one. The node type and the store behind the link maps
are arbitrary. -/

namespace BTool.Foundation

universe u

variable {Node : Type u} {pre next pre' next' : Node → Option Node}
  {before after : Option Node} {front back nodes : List Node} {node : Node}

/-- The nodes in order, each linked back to its predecessor and on to its
successor. `before` and `after` are what the two ends link to. -/
def Linked (pre next : Node → Option Node) : Option Node → List Node → Option Node → Prop
  | _, [], _ => True
  | before, node :: rest, after =>
      pre node = before ∧ next node = rest.head?.or after ∧ Linked pre next (some node) rest after

@[simp] theorem linked_nil : Linked pre next before [] after := trivial

theorem linked_cons : Linked pre next before (node :: nodes) after ↔
    pre node = before ∧ next node = nodes.head?.or after ∧
      Linked pre next (some node) nodes after := Iff.rfl

private theorem getLast?_cons_or (node : Node) (nodes : List Node) (before : Option Node) :
    (node :: nodes).getLast?.or before = nodes.getLast?.or (some node) := by
  rw [List.getLast?_cons]
  cases nodes.getLast? <;> rfl

/-- A chain splits at any point; each half ends where the other begins. -/
theorem linked_append : Linked pre next before (front ++ back) after ↔
    Linked pre next before front (back.head?.or after) ∧
      Linked pre next (front.getLast?.or before) back after := by
  induction front generalizing before with
  | nil => simp
  | cons first rest ih =>
    rw [List.cons_append, linked_cons, linked_cons, ih, getLast?_cons_or, List.head?_append,
      Option.or_assoc]
    simp only [and_assoc]

theorem Linked.congr (linked : Linked pre next before nodes after)
    (samePre : ∀ node ∈ nodes, pre' node = pre node)
    (sameNext : ∀ node ∈ nodes, next' node = next node) :
    Linked pre' next' before nodes after := by
  induction nodes generalizing before with
  | nil => exact linked_nil
  | cons first rest ih =>
    obtain ⟨back, ahead, remaining⟩ := linked
    refine ⟨?_, ?_, ih remaining ?_ ?_⟩
    · rw [samePre first (by simp), back]
    · rw [sameNext first (by simp), ahead]
    · exact fun node member => samePre node (List.mem_cons_of_mem _ member)
    · exact fun node member => sameNext node (List.mem_cons_of_mem _ member)

/-- Only the last node of a chain sees what the chain ends in. -/
theorem Linked.reroute_after (linked : Linked pre next before nodes after)
    (distinct : nodes.Nodup) (samePre : ∀ node ∈ nodes, pre' node = pre node)
    (sameNext : ∀ node ∈ nodes, some node ≠ nodes.getLast? → next' node = next node)
    (rerouted : ∀ node, nodes.getLast? = some node → next' node = before') :
    Linked pre' next' before nodes before' := by
  rcases List.eq_nil_or_concat nodes with empty | ⟨init, last, same⟩
  · subst empty
    exact linked_nil
  · subst same
    rw [List.concat_eq_append] at *
    obtain ⟨kept, back, _, _⟩ := linked_append.mp linked
    have apart : last ∉ init := fun member =>
      List.disjoint_of_nodup_append distinct member (by simp)
    refine linked_append.mpr ⟨?_, ?_, ?_, linked_nil⟩
    · refine kept.congr (fun node member => samePre node (by simp [member])) ?_
      intro node member
      apply sameNext node (by simp [member])
      intro same
      have equal : node = last := by simpa using same
      exact apart (equal ▸ member)
    · rw [samePre last (by simp), back]
    · simpa using rerouted last (by simp)

/-- Only the first node of a chain sees what the chain starts from. -/
theorem Linked.reroute_before (linked : Linked pre next before nodes after)
    (distinct : nodes.Nodup) (sameNext : ∀ node ∈ nodes, next' node = next node)
    (samePre : ∀ node ∈ nodes, some node ≠ nodes.head? → pre' node = pre node)
    (rerouted : ∀ node, nodes.head? = some node → pre' node = before') :
    Linked pre' next' before' nodes after := by
  cases nodes with
  | nil => exact linked_nil
  | cons first rest =>
    obtain ⟨_, ahead, remaining⟩ := linked
    have apart : first ∉ rest := (List.nodup_cons.mp distinct).1
    refine ⟨rerouted first rfl, by rw [sameNext first (by simp), ahead], ?_⟩
    refine remaining.congr ?_ (fun node member => sameNext node (by simp [member]))
    intro node member
    apply samePre node (by simp [member])
    intro same
    have equal : node = first := by simpa using same
    exact apart (equal ▸ member)

/-- The links of an inner node are its neighbours in the sequence. -/
theorem Linked.links (linked : Linked pre next none (front ++ node :: back) none) :
    pre node = front.getLast? ∧ next node = back.head? := by
  obtain ⟨_, behind, ahead, _⟩ := linked_append.mp linked
  simpa using And.intro behind ahead

/-- Joining the neighbours of a node takes it out of the chain. -/
theorem Linked.unlink [DecidableEq Node] (linked : Linked pre next none (front ++ node :: back) none)
    (distinct : (front ++ node :: back).Nodup)
    (joinPre : ∀ other ∈ front ++ back,
      pre' other = if next node = some other then pre node else pre other)
    (joinNext : ∀ other ∈ front ++ back,
      next' other = if pre node = some other then next node else next other) :
    Linked pre' next' none (front ++ back) none := by
  obtain ⟨behind, ahead⟩ := linked.links
  obtain ⟨kept, _, _, remaining⟩ := linked_append.mp linked
  obtain ⟨frontDistinct, restDistinct, apart⟩ := List.nodup_append.mp distinct
  have backDistinct := (List.nodup_cons.mp restDistinct).2
  refine linked_append.mpr ⟨?_, ?_⟩
  · apply kept.reroute_after frontDistinct
    · intro other member
      rw [joinPre other (by simp [member]), ahead, if_neg]
      intro same
      exact apart other member other (by simp [List.mem_of_mem_head? same]) rfl
    · intro other member notLast
      rw [joinNext other (by simp [member]), behind, if_neg (fun same => notLast same.symm)]
    · intro other last
      rw [joinNext other (by simp [List.mem_of_getLast? last]), behind, if_pos last, ahead]
      simp
  · apply remaining.reroute_before backDistinct
    · intro other member
      rw [joinNext other (by simp [member]), behind, if_neg]
      intro same
      exact apart other (List.mem_of_getLast? same) other (by simp [member]) rfl
    · intro other member notFirst
      rw [joinPre other (by simp [member]), ahead, if_neg (fun same => notFirst same.symm)]
    · intro other first
      rw [joinPre other (by simp [List.mem_of_mem_head? first]), ahead, if_pos first, behind]
      simp

/-- Linking a fresh node behind the last one puts it at the end of the chain. -/
theorem Linked.snoc [DecidableEq Node] (linked : Linked pre next none nodes none) (distinct : nodes.Nodup)
    (behind : pre' node = nodes.getLast?) (ended : next' node = none)
    (samePre : ∀ other ∈ nodes, pre' other = pre other)
    (joinNext : ∀ other ∈ nodes,
      next' other = if nodes.getLast? = some other then some node else next other) :
    Linked pre' next' none (nodes ++ [node]) none := by
  refine linked_append.mpr ⟨?_, by simpa using behind, by simpa using ended, linked_nil⟩
  apply linked.reroute_after distinct samePre
  · intro other member notLast
    rw [joinNext other member, if_neg (fun same => notLast same.symm)]
  · intro other last
    rw [joinNext other (List.mem_of_getLast? last), if_pos last]
    simp

/-- Follow the forward links from a starting point, for at most `fuel` nodes. -/
def follow (next : Node → Option Node) : Nat → Option Node → List Node
  | 0, _ => []
  | _ + 1, none => []
  | fuel + 1, some node => node :: follow next fuel (next node)

/-- Enough fuel to reach the end of a chain yields exactly its nodes. -/
theorem Linked.follow_eq (linked : Linked pre next before nodes none)
    (enough : nodes.length ≤ fuel) : follow next fuel nodes.head? = nodes := by
  induction nodes generalizing fuel before with
  | nil => cases fuel <;> rfl
  | cons first rest ih =>
    obtain ⟨_, ahead, remaining⟩ := linked
    cases fuel with
    | zero => simp at enough
    | succ fuel =>
      have shorter : rest.length ≤ fuel := by simpa using enough
      simp only [List.head?_cons, follow, ahead, Option.or_none]
      rw [ih remaining shorter]

section SinglyLinked

variable {next next' : Node → Node} {null first : Node} {others : List Node}

/-- The nodes from a first one on, each with the next one, up to the null node. -/
def Threaded (next : Node → Node) (null : Node) : Node → List Node → Prop
  | first, [] => first = null
  | first, node :: rest => first = node ∧ node ≠ null ∧ Threaded next null (next node) rest

namespace Threaded

/-- Only the nodes of a chain have to be linked as they were. -/
theorem congr (threaded : Threaded next null first nodes) (same : ∀ node ∈ nodes, next' node = next node) :
    Threaded next' null first nodes := by
  induction nodes generalizing first with
  | nil => exact threaded
  | cons node rest ih =>
    obtain ⟨here, real, remaining⟩ := threaded
    refine ⟨here, real, ?_⟩
    rw [same node List.mem_cons_self]
    exact ih remaining fun other member => same other (List.mem_cons_of_mem _ member)

/-- A node that is linked to the first one is put in front of it. -/
theorem push (threaded : Threaded next null first nodes) (real : node ≠ null) (linked : next' node = first)
    (same : ∀ other ∈ nodes, next' other = next other) : Threaded next' null node (node :: nodes) :=
  ⟨rfl, real, linked ▸ threaded.congr same⟩

/-- Behind the first node is the rest. -/
theorem pop (threaded : Threaded next null first nodes) (real : first ≠ null) :
    ∃ rest, nodes = first :: rest ∧ Threaded next null (next first) rest := by
  cases nodes with
  | nil => exact absurd threaded real
  | cons node rest =>
    obtain ⟨rfl, _, remaining⟩ := threaded
    exact ⟨rest, rfl, remaining⟩

theorem eq_nil (threaded : Threaded next null null nodes) : nodes = [] := by
  cases nodes with
  | nil => rfl
  | cons node rest => exact absurd threaded.1.symm threaded.2.1

/-- There is one chain from a node on. -/
theorem eq (threaded : Threaded next null first nodes) (other : Threaded next null first others) :
    others = nodes := by
  induction nodes generalizing first others with
  | nil =>
    obtain rfl : first = null := threaded
    exact other.eq_nil
  | cons node rest ih =>
    obtain ⟨rfl, real, remaining⟩ := threaded
    obtain ⟨more, rfl, further⟩ := other.pop real
    rw [ih remaining further]

end Threaded

end SinglyLinked

end BTool.Foundation
