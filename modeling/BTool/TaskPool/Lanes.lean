import Mathlib.Data.List.Nodup
import Mathlib.Logic.Function.Basic
import BTool.Foundation.Fifo
import BTool.TaskQueue.SerialTaskQueue

/-! What the pools with a fixed share of the properties for each worker have in common:
numbered queues, each emptied by the worker of its number, and a log of what was executed. -/

namespace BTool.TaskPool

open BTool.Foundation BTool.TaskQueue

/-- An accepted task, with the number of those accepted before it. -/
structure Entry (P F : Type) where
  id : Nat
  prop : P
  func : TaskItem F
deriving DecidableEq

structure Lanes (P F : Type) where
  queues : Nat → Journal (Entry P F)
  /-- The task that the worker of a queue has taken and not yet executed to its end. -/
  executing : Nat → Option (Entry P F)
  executed : List (Entry P F)
  accepted : Nat
  /-- The tasks whose `add_task` returned true before `stop` was called. -/
  promised : List (Entry P F)

/-- How far `stop` has come. -/
inductive Stops where
  | before
  | called
  | returned
deriving DecidableEq

/-- `m_thread_num` of a pool for these properties, on a machine with `coreNum` cores. -/
def rotateThreadNum {P : Type} (coreNum threadNum : Nat) (props : List P) : Nat :=
  min props.length (if threadNum = 0 then coreNum else threadNum)

/-- `m_prop_index`, where `value` is the conversion of a property to `size_t`. -/
def rotatePropIndex {P : Type} [DecidableEq P] (value : P → Nat) (props : List P) (threadNum : Nat)
    (prop : P) : Option Nat :=
  if prop ∈ props then some (value prop % threadNum) else none

theorem rotatePropIndex_eq_some {P : Type} [DecidableEq P] {value : P → Nat} {props : List P}
    {threadNum lane : Nat} {prop : P} (found : rotatePropIndex value props threadNum prop = some lane) :
    prop ∈ props ∧ value prop % threadNum = lane := by
  unfold rotatePropIndex at found
  split at found
  · rename_i registered
    exact ⟨registered, Option.some.inj found⟩
  · cases found

namespace Lanes

variable {P F : Type}

def construct : Lanes P F :=
  { queues := fun _ => .empty, executing := fun _ => none, executed := [], accepted := 0, promised := [] }

/-- `LockFreeTaskQueue::add_task`. -/
def addTask (lanes : Lanes P F) (lane : Nat) (prop : P) (func : TaskItem F) : Lanes P F :=
  { lanes with
    queues := Function.update lanes.queues lane ((lanes.queues lane).enqueue ⟨lanes.accepted, prop, func⟩)
    accepted := lanes.accepted + 1 }

/-- `LockFreeTaskQueue::pop_task`, by the worker of the queue: it goes on to execute what it
has taken unless that is an empty function. -/
def popTask (lanes : Lanes P F) (lane : Nat) : Lanes P F :=
  match (lanes.queues lane).dequeue with
  | none => lanes
  | some (entry, rest) =>
    { lanes with
      queues := Function.update lanes.queues lane rest
      executing := Function.update lanes.executing lane
        (if entry.func.isSome then some entry else none) }

def finish (lanes : Lanes P F) (lane : Nat) : Lanes P F :=
  { lanes with
    executing := Function.update lanes.executing lane none
    executed := lanes.executed ++ (lanes.executing lane).toList }

def clear (lanes : Lanes P F) (lane : Nat) : Lanes P F :=
  { lanes with queues := Function.update lanes.queues lane (lanes.queues lane).clear }

def promise (lanes : Lanes P F) (entry : Entry P F) : Lanes P F :=
  { lanes with promised := lanes.promised ++ [entry] }

/-- The tasks of each property have been executed in the order in which they were added. -/
def InOrder [DecidableEq P] (lanes : Lanes P F) : Prop :=
  ∀ prop, (lanes.executed.filter fun entry => entry.prop = prop).Pairwise fun first second =>
    first.id < second.id

/-- No two workers execute tasks of one property. -/
def Exclusive (lanes : Lanes P F) : Prop :=
  ∀ first second entry other, lanes.executing first = some entry →
    lanes.executing second = some other → entry.prop = other.prop → first = second

/-- Every promised task that is not an empty function has been executed. -/
def Fulfilled (lanes : Lanes P F) : Prop :=
  ∀ entry ∈ lanes.promised, entry.func.isSome = true → entry ∈ lanes.executed

/-- Nothing promised is left in the queue but empty functions. -/
def OwesNothing (lanes : Lanes P F) (lane : Nat) : Prop :=
  ∀ entry ∈ lanes.promised, entry.func.isSome = true → entry ∉ (lanes.queues lane).items

/-- A pop that ends a drain with an empty function leaves nothing promised behind it. -/
def EndsClean (lanes : Lanes P F) (lane : Nat) : Prop :=
  ∀ first rest, (lanes.queues lane).items = first :: rest → first.func = none →
    ∀ entry ∈ lanes.promised, entry.func.isSome = true → entry ∉ rest

/-- Every queue holds the tasks of its own properties in the order of their numbers, and the
callable ones that have been taken out of it have been executed in this order, but for the
one that is executing. -/
structure Orderly (index : P → Nat) (lanes : Lanes P F) : Prop where
  homed : ∀ lane, ∀ entry ∈ (lanes.queues lane).pushed, index entry.prop = lane
  sorted : ∀ lane, (lanes.queues lane).pushed.Pairwise fun first second => first.id < second.id
  fresh : ∀ lane, ∀ entry ∈ (lanes.queues lane).pushed, entry.id < lanes.accepted
  logged : ∀ lane, (lanes.executed.filter fun entry => index entry.prop = lane) ++
    (lanes.executing lane).toList = (lanes.queues lane).taken.filter fun entry => entry.func.isSome
  kept : ∀ entry ∈ lanes.promised, entry ∈ (lanes.queues (index entry.prop)).pushed

variable {index : P → Nat} {lanes : Lanes P F} {lane : Nat} {prop : P} {func : TaskItem F}
  {entry : Entry P F}

theorem construct_orderly : Orderly index (construct : Lanes P F) where
  homed := by simp [construct, Journal.empty, Journal.pushed]
  sorted := by simp [construct, Journal.empty, Journal.pushed]
  fresh := by simp [construct, Journal.empty, Journal.pushed]
  logged := by simp [construct, Journal.empty]
  kept := by simp [construct]

theorem pushed_addTask (other : Nat) : ((lanes.addTask lane prop func).queues other).pushed =
    if other = lane then (lanes.queues lane).pushed ++ [⟨lanes.accepted, prop, func⟩]
    else (lanes.queues other).pushed := by
  by_cases here : other = lane
  · subst here
    simp [addTask]
  · simp [addTask, here]

theorem Orderly.addTask (orderly : Orderly index lanes) (home : index prop = lane) :
    Orderly index (lanes.addTask lane prop func) where
  homed := by
    intro other entry member
    rw [pushed_addTask] at member
    split at member
    · rename_i here
      subst here
      rcases List.mem_append.mp member with before | new
      · exact orderly.homed other entry before
      · rw [List.mem_singleton.mp new]
        exact home
    · exact orderly.homed other entry member
  sorted := by
    intro other
    rw [pushed_addTask]
    split
    · apply List.pairwise_append.mpr
      refine ⟨orderly.sorted lane, List.pairwise_singleton _ _, ?_⟩
      intro first member second new
      rw [List.mem_singleton.mp new]
      exact orderly.fresh lane first member
    · exact orderly.sorted other
  fresh := by
    intro other entry member
    rw [pushed_addTask] at member
    simp only [Lanes.addTask]
    split at member
    · rcases List.mem_append.mp member with before | new
      · have := orderly.fresh lane entry before
        omega
      · rw [List.mem_singleton.mp new]
        exact Nat.lt_succ_self _
    · have := orderly.fresh other entry member
      omega
  logged := by
    intro other
    have same := orderly.logged other
    by_cases here : other = lane
    · subst here
      simpa [Lanes.addTask] using same
    · simpa [Lanes.addTask, here] using same
  kept := by
    intro entry member
    have before := orderly.kept entry member
    rw [pushed_addTask]
    split
    · rename_i here
      exact List.mem_append_left _ (here ▸ before)
    · exact before

/-- What a pop finds, and what it leaves behind. -/
theorem popTask_cases (lanes : Lanes P F) (lane : Nat) :
    ((lanes.queues lane).items = [] ∧ lanes.popTask lane = lanes) ∨
      ∃ entry rest, (lanes.queues lane).dequeue = some (entry, rest) ∧
        lanes.popTask lane = { lanes with
          queues := Function.update lanes.queues lane rest
          executing := Function.update lanes.executing lane
            (if entry.func.isSome then some entry else none) } := by
  unfold popTask
  split
  · rename_i nothing
    exact .inl ⟨Journal.dequeue_eq_none.mp nothing, rfl⟩
  · rename_i entry rest taken
    exact .inr ⟨entry, rest, taken, rfl⟩

theorem pushed_popTask (other : Nat) :
    ((lanes.popTask lane).queues other).pushed = (lanes.queues other).pushed := by
  rcases popTask_cases lanes lane with ⟨_, same⟩ | ⟨entry, rest, taken, same⟩
  · rw [same]
  · rw [same]
    by_cases here : other = lane
    · subst here
      simpa using Journal.pushed_dequeue taken
    · simp [here]

theorem popTask_frame (lanes : Lanes P F) (lane : Nat) : (lanes.popTask lane).executed = lanes.executed ∧
    (lanes.popTask lane).accepted = lanes.accepted ∧
      (lanes.popTask lane).promised = lanes.promised := by
  rcases popTask_cases lanes lane with ⟨_, same⟩ | ⟨entry, rest, _, same⟩ <;> rw [same] <;>
    exact ⟨rfl, rfl, rfl⟩

/-- The other workers go on with what they execute. -/
theorem executing_popTask {other : Nat} (apart : other ≠ lane) :
    (lanes.popTask lane).executing other = lanes.executing other := by
  rcases popTask_cases lanes lane with ⟨_, same⟩ | ⟨_, _, _, same⟩ <;> rw [same]
  simp [apart]

theorem owesNothing_popTask_of_ne {other : Nat} (apart : other ≠ lane) :
    (lanes.popTask lane).OwesNothing other ↔ lanes.OwesNothing other := by
  rcases popTask_cases lanes lane with ⟨_, same⟩ | ⟨_, _, _, same⟩ <;> rw [same]
  simp [OwesNothing, apart]

/-- A pop that gives the worker something to execute has not met an empty function. -/
theorem endsClean_of_executing (goesOn : ((lanes.popTask lane).executing lane).isSome) :
    lanes.EndsClean lane := by
  intro first rest split empty
  rcases popTask_cases lanes lane with ⟨nothing, _⟩ | ⟨entry, others, dequeued, same⟩
  · simp [nothing] at split
  · obtain ⟨rfl, _⟩ := List.cons.inj (split.symm.trans (Journal.dequeue_cases dequeued).1)
    simp [same, empty] at goesOn

theorem Orderly.popTask (orderly : Orderly index lanes) (idle : lanes.executing lane = none) :
    Orderly index (lanes.popTask lane) := by
  obtain ⟨executed, accepted, promised⟩ := popTask_frame lanes lane
  refine ⟨?_, ?_, ?_, ?_, ?_⟩
  · simpa only [pushed_popTask] using orderly.homed
  · simpa only [pushed_popTask] using orderly.sorted
  · simpa only [pushed_popTask, accepted] using orderly.fresh
  · intro other
    rw [executed]
    have before := orderly.logged other
    rcases popTask_cases lanes lane with ⟨_, same⟩ | ⟨entry, rest, taken, same⟩
    · rw [same]
      exact before
    · rw [same]
      by_cases here : other = lane
      · subst here
        rw [idle, Option.toList_none, List.append_nil] at before
        simp only [Function.update_self, (Journal.dequeue_cases taken).2, List.filter_append, before]
        cases callable : entry.func.isSome <;> simp [callable]
      · simpa [here] using before
  · simpa only [pushed_popTask, promised] using orderly.kept

/-- What a worker executes was taken out of its own queue, and can be called. -/
theorem Orderly.mem_taken (orderly : Orderly index lanes) (executing : lanes.executing lane = some entry) :
    entry ∈ (lanes.queues lane).taken ∧ index entry.prop = lane := by
  have logged := orderly.logged lane
  have member : entry ∈ (lanes.queues lane).taken.filter fun entry => entry.func.isSome := by
    rw [← logged, executing]
    simp
  have taken := (List.mem_filter.mp member).1
  exact ⟨taken, orderly.homed lane entry (List.mem_append_left _ taken)⟩

theorem Orderly.finish (orderly : Orderly index lanes) : Orderly index (lanes.finish lane) where
  homed := orderly.homed
  sorted := orderly.sorted
  fresh := orderly.fresh
  logged := by
    intro other
    have before := orderly.logged other
    cases executing : lanes.executing lane with
    | none =>
      have unchanged : Function.update lanes.executing lane none = lanes.executing := by
        rw [← executing, Function.update_eq_self]
      simpa [Lanes.finish, executing, unchanged] using before
    | some entry =>
      have home := (orderly.mem_taken executing).2
      by_cases here : other = lane
      · subst here
        simpa [Lanes.finish, executing, home] using before
      · have apart : index entry.prop ≠ other := by omega
        simpa [Lanes.finish, executing, here, apart] using before
  kept := orderly.kept

theorem Orderly.promise (orderly : Orderly index lanes)
    (member : entry ∈ (lanes.queues (index entry.prop)).pushed) :
    Orderly index (lanes.promise entry) where
  homed := orderly.homed
  sorted := orderly.sorted
  fresh := orderly.fresh
  logged := orderly.logged
  kept := by
    intro other promised
    rcases List.mem_append.mp promised with before | new
    · exact orderly.kept other before
    · rw [List.mem_singleton.mp new]
      exact member

/-- The executed tasks of a queue are among those taken out of it, in the same order. -/
theorem Orderly.executed_sublist (orderly : Orderly index lanes) (lane : Nat) :
    (lanes.executed.filter fun entry => index entry.prop = lane).Sublist (lanes.queues lane).pushed := by
  apply (List.sublist_append_left _ (lanes.executing lane).toList).trans
  rw [orderly.logged lane]
  exact List.filter_sublist.trans (List.sublist_append_left _ _)

theorem Orderly.inOrder [DecidableEq P] (orderly : Orderly index lanes) : lanes.InOrder := by
  intro prop
  have sorted := (orderly.sorted (index prop)).sublist (orderly.executed_sublist (index prop))
  have own := sorted.filter fun entry => entry.prop = prop
  rw [List.filter_filter] at own
  have same : (lanes.executed.filter fun entry => entry.prop = prop && index entry.prop = index prop) =
      lanes.executed.filter fun entry => entry.prop = prop := by
    apply List.filter_congr
    intro entry _
    by_cases here : entry.prop = prop <;> simp [here]
  rwa [same] at own

/-- No task is executed twice. -/
theorem Orderly.nodup (orderly : Orderly index lanes) : lanes.executed.Nodup := by
  apply List.nodup_iff_sublist.mpr
  intro entry twice
  have again := (twice.filter fun other => index other.prop = index entry.prop).trans
    (orderly.executed_sublist (index entry.prop))
  have sorted := (orderly.sorted (index entry.prop)).sublist again
  simp at sorted

theorem Orderly.exclusive (orderly : Orderly index lanes) : lanes.Exclusive := by
  intro first second entry other one two same
  rw [← (orderly.mem_taken one).2, ← (orderly.mem_taken two).2, same]

/-- What still stands in a queue has not been executed. -/
theorem Orderly.not_mem_executed (orderly : Orderly index lanes)
    (waits : entry ∈ (lanes.queues lane).items) : entry ∉ lanes.executed := by
  intro done
  have home := orderly.homed lane entry (List.mem_append_right _ waits)
  have member : entry ∈ (lanes.queues lane).taken.filter fun entry => entry.func.isSome := by
    rw [← orderly.logged lane]
    exact List.mem_append_left _ (List.mem_filter.mpr ⟨done, by simpa using home⟩)
  have taken := (List.mem_filter.mp member).1
  have earlier := (List.pairwise_append.mp (orderly.sorted lane)).2.2 entry taken entry waits
  omega

/-- A promised task has been executed, or is executing, or waits in the queue of its property. -/
theorem Orderly.accounted (orderly : Orderly index lanes) (promised : entry ∈ lanes.promised)
    (callable : entry.func.isSome = true) : entry ∈ lanes.executed ∨
      lanes.executing (index entry.prop) = some entry ∨
      entry ∈ (lanes.queues (index entry.prop)).items := by
  rcases List.mem_append.mp (orderly.kept entry promised) with taken | waits
  · have member : entry ∈ (lanes.queues (index entry.prop)).taken.filter fun entry => entry.func.isSome :=
      List.mem_filter.mpr ⟨taken, callable⟩
    rw [← orderly.logged] at member
    rcases List.mem_append.mp member with done | now
    · exact .inl (List.mem_filter.mp done).1
    · exact .inr (.inl (by simpa using now))
  · exact .inr (.inr waits)

theorem owesNothing_of_nil (nothing : (lanes.queues lane).items = []) : lanes.OwesNothing lane := by
  intro entry _ _
  rw [nothing]
  exact List.not_mem_nil

/-- A pop that gives the worker nothing to execute leaves its queue owing nothing exactly when
it ends clean. -/
theorem owesNothing_popTask (idle : (lanes.popTask lane).executing lane = none) :
    (lanes.popTask lane).OwesNothing lane ↔ lanes.EndsClean lane := by
  rcases popTask_cases lanes lane with ⟨nothing, same⟩ | ⟨entry, rest, taken, same⟩
  · rw [same]
    refine iff_of_true (owesNothing_of_nil nothing) fun first rest split => ?_
    rw [nothing] at split
    cases split
  · have split := (Journal.dequeue_cases taken).1
    have empty : entry.func = none := by
      rw [same] at idle
      cases callable : entry.func with
      | none => rfl
      | some task => simp [callable] at idle
    have left : (lanes.popTask lane).OwesNothing lane ↔
        ∀ entry ∈ lanes.promised, entry.func.isSome = true → entry ∉ rest.items := by
      simp [OwesNothing, same]
    rw [left]
    constructor
    · intro none first others shape _
      rw [split] at shape
      obtain ⟨_, rfl⟩ := List.cons.inj shape
      exact none
    · intro clean
      exact clean entry rest.items split empty

/-- Adding a task that has not been promised makes no queue owe it. -/
theorem Orderly.owesNothing_addTask (orderly : Orderly index lanes) (other : Nat) :
    (lanes.addTask lane prop func).OwesNothing other ↔ lanes.OwesNothing other := by
  have unknown : (⟨lanes.accepted, prop, func⟩ : Entry P F) ∉ lanes.promised := by
    intro promised
    have early := orderly.fresh _ _ (orderly.kept _ promised)
    exact Nat.lt_irrefl _ early
  by_cases here : other = lane
  · subst here
    simp only [OwesNothing, Lanes.addTask, Function.update_self, Journal.items_enqueue, List.mem_append,
      List.mem_singleton, not_or]
    constructor
    · exact fun owes entry promised callable => (owes entry promised callable).1
    · intro owes entry promised callable
      refine ⟨owes entry promised callable, ?_⟩
      rintro rfl
      exact unknown promised
  · simp [OwesNothing, Lanes.addTask, here]

/-- Once no worker executes, every promise has been fulfilled if no queue owes anything. -/
theorem Orderly.fulfilled_iff {threadNum : Nat} (orderly : Orderly index lanes)
    (idle : ∀ lane, lanes.executing lane = none)
    (within : ∀ lane, threadNum ≤ lane → (lanes.queues lane).pushed = []) :
    lanes.Fulfilled ↔ ∀ lane < threadNum, lanes.OwesNothing lane := by
  constructor
  · intro fulfilled lane _ entry promised callable waits
    exact orderly.not_mem_executed waits (fulfilled entry promised callable)
  · intro owes entry promised callable
    rcases orderly.accounted promised callable with done | executing | waits
    · exact done
    · simp [idle] at executing
    · rcases Nat.lt_or_ge (index entry.prop) threadNum with below | beyond
      · exact absurd waits (owes _ below entry promised callable)
      · have nothing := within _ beyond
        simp [(List.append_eq_nil_iff.mp nothing).2] at waits

end Lanes

end BTool.TaskPool
