import BTool.Foundation.KeyedList

/-! Queues that are first in first out: one that remembers what has been taken from it, and one that is
first in first out for each producer, and no more. -/

namespace BTool.Foundation

/-- What has been taken, and what is in the queue. -/
structure Journal (Item : Type) where
  taken : List Item
  items : List Item
deriving DecidableEq

namespace Journal

variable {Item : Type} {journal after : Journal Item} {item : Item}

def empty : Journal Item := ⟨[], []⟩

/-- Everything that was put in and not cleared away, in this order. -/
def pushed (journal : Journal Item) : List Item := journal.taken ++ journal.items

def enqueue (journal : Journal Item) (item : Item) : Journal Item :=
  { journal with items := journal.items ++ [item] }

def dequeue (journal : Journal Item) : Option (Item × Journal Item) :=
  match journal.items with
  | [] => none
  | item :: rest => some (item, ⟨journal.taken ++ [item], rest⟩)

def clear (journal : Journal Item) : Journal Item := { journal with items := [] }

@[simp] theorem taken_enqueue : (journal.enqueue item).taken = journal.taken := rfl

@[simp] theorem items_enqueue : (journal.enqueue item).items = journal.items ++ [item] := rfl

@[simp] theorem pushed_enqueue : (journal.enqueue item).pushed = journal.pushed ++ [item] := by
  simp [pushed]

/-- The first item leaves, and is remembered as the last one taken. -/
theorem dequeue_cases (success : journal.dequeue = some (item, after)) :
    journal.items = item :: after.items ∧ after.taken = journal.taken ++ [item] := by
  unfold dequeue at success
  split at success
  · cases success
  · rename_i first rest shape
    cases success
    exact ⟨shape, rfl⟩

theorem dequeue_eq_none : journal.dequeue = none ↔ journal.items = [] := by
  unfold dequeue
  split <;> simp [*]

theorem pushed_dequeue (success : journal.dequeue = some (item, after)) :
    after.pushed = journal.pushed := by
  obtain ⟨shape, taken⟩ := dequeue_cases success
  simp [pushed, shape, taken]

end Journal

/-- The items in the order in which they were enqueued, each with its producer. -/
abbrev ProducerQueue (Producer Item : Type) : Type := List (Producer × Item)

namespace ProducerQueue

variable {Producer Item : Type} [DecidableEq Producer] [DecidableEq Item]

def enqueue (queue : ProducerQueue Producer Item) (producer : Producer) (item : Item) :
    ProducerQueue Producer Item := queue ++ [(producer, item)]

/-- What a consumer gets who looks at this producer. -/
inductive Dequeued (Producer Item : Type) where
  /-- There is nothing of any producer. -/
  | empty
  /-- There is something, but not of this producer. -/
  | elsewhere
  | item (item : Item) (rest : ProducerQueue Producer Item)

def tryDequeue (queue : ProducerQueue Producer Item) (producer : Producer) : Dequeued Producer Item :=
  match ofKey producer queue with
  | item :: _ => .item item (queue.erase (producer, item))
  | [] => if queue = [] then .empty else .elsewhere

/-- Nobody but this producer has anything in the queue. -/
def Only (queue : ProducerQueue Producer Item) (producer : Producer) : Prop :=
  ∀ entry ∈ queue, entry.1 = producer

instance (queue : ProducerQueue Producer Item) (producer : Producer) : Decidable (queue.Only producer) := by
  unfold Only
  infer_instance

variable {queue rest : ProducerQueue Producer Item} {producer : Producer} {item : Item}

/-- An item that is taken was in the queue, and is not any more. -/
theorem tryDequeue_eq_item (dequeued : queue.tryDequeue producer = .item item rest) :
    (producer, item) ∈ queue ∧ rest = queue.erase (producer, item) := by
  unfold tryDequeue at dequeued
  split at dequeued
  · rename_i first others filed
    cases dequeued
    exact ⟨mem_ofKey.mp (by rw [filed]; exact List.mem_cons_self), rfl⟩
  · split at dequeued <;> cases dequeued

/-- With one producer, the first item is taken. -/
theorem eq_cons_of_only {owner : Producer} (only : queue.Only owner)
    (dequeued : queue.tryDequeue producer = .item item rest) : queue = (producer, item) :: rest := by
  unfold tryDequeue at dequeued
  split at dequeued
  · rename_i first others filed
    cases dequeued
    cases queue with
    | nil => cases filed
    | cons entry tail =>
      obtain ⟨source, value⟩ := entry
      have mine : (producer, item) ∈ (source, value) :: tail :=
        mem_ofKey.mp (by rw [filed]; exact List.mem_cons_self)
      obtain rfl : source = producer :=
        (only (source, value) List.mem_cons_self).trans (only (producer, item) mine).symm
      rw [ofKey_cons, if_pos rfl] at filed
      obtain ⟨rfl, _⟩ := List.cons.inj filed
      rw [List.erase_cons_head]
  · split at dequeued <;> cases dequeued

end ProducerQueue

end BTool.Foundation
