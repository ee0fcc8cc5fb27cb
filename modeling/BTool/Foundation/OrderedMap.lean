import Mathlib.Data.List.Sort
import Mathlib.Order.Defs.LinearOrder

/-! Maps that keep their keys in order, and maps of such maps. -/

namespace BTool.Foundation

/-- A map whose entries are in the order of their keys, each key once. -/
structure OrderedMap (Key Value : Type) [LinearOrder Key] where
  entries : List (Key × Value)
  sorted : entries.Pairwise fun first second => first.1 < second.1
deriving DecidableEq

namespace OrderedMap

variable {Key Value : Type} [LinearOrder Key]

def empty : OrderedMap Key Value := ⟨[], .nil⟩

def isEmpty (map : OrderedMap Key Value) : Bool := map.entries.isEmpty

def size (map : OrderedMap Key Value) : Nat := map.entries.length

def find? (map : OrderedMap Key Value) (key : Key) : Option Value :=
  (map.entries.find? fun entry => entry.1 = key).map Prod.snd

/-- The value of the least key. -/
def first? (map : OrderedMap Key Value) : Option Value := map.entries.head?.map Prod.snd

theorem sorted_insert {entries : List (Key × Value)}
    (sorted : entries.Pairwise fun first second => first.1 < second.1) (key : Key) (value : Value) :
    (entries.filter (fun entry => entry.1 < key) ++ (key, value) :: entries.filter fun entry => key < entry.1).Pairwise
      fun first second => first.1 < second.1 := by
  refine List.pairwise_append.mpr ⟨sorted.filter _, List.pairwise_cons.mpr ⟨?_, sorted.filter _⟩, ?_⟩
  · intro entry member
    simpa using (List.mem_filter.mp member).2
  · intro first before second after
    have below : first.1 < key := by simpa using (List.mem_filter.mp before).2
    rcases List.mem_cons.mp after with rfl | after
    · exact below
    · exact below.trans (by simpa using (List.mem_filter.mp after).2)

def insert (map : OrderedMap Key Value) (key : Key) (value : Value) : OrderedMap Key Value :=
  ⟨_, sorted_insert map.sorted key value⟩

def erase (map : OrderedMap Key Value) (key : Key) : OrderedMap Key Value :=
  ⟨map.entries.filter fun entry => entry.1 ≠ key, map.sorted.filter _⟩

variable {map : OrderedMap Key Value} {key other : Key} {value : Value}

private theorem find_sorted {entries : List (Key × Value)}
    (sorted : entries.Pairwise fun first second => first.1 < second.1) :
    (entries.find? fun entry => entry.1 = key).map Prod.snd = some value ↔
    (key, value) ∈ entries := by
  induction entries with
  | nil => simp
  | cons entry rest ih =>
    obtain ⟨front, back⟩ := List.pairwise_cons.mp sorted
    obtain ⟨least, first⟩ := entry
    by_cases same : least = key
    · subst same
      have once : (least, value) ∉ rest := fun member => (front (least, value) member).ne rfl
      simp [once, eq_comm]
    · have apart : (key, value) ≠ (least, first) := fun pair => same (congrArg Prod.fst pair).symm
      simp only [List.find?_cons, same, decide_false, List.mem_cons, apart, false_or]
      exact ih back

theorem find?_eq_some_iff : map.find? key = some value ↔ (key, value) ∈ map.entries :=
  find_sorted map.sorted

theorem find?_eq_none_iff : map.find? key = none ↔ ∀ value, (key, value) ∉ map.entries := by
  rw [Option.eq_none_iff_forall_ne_some]
  exact forall_congr' fun value => not_congr find?_eq_some_iff

@[simp] theorem find?_empty : (empty : OrderedMap Key Value).find? key = none := rfl

theorem find?_insert :
    (map.insert key value).find? other = if other = key then some value else map.find? other := by
  by_cases same : other = key
  · rw [if_pos same, find?_eq_some_iff]
    simp [insert, same]
  · rw [if_neg same]
    apply Option.ext
    intro held
    have kept : (other, held) ∈ (map.insert key value).entries ↔ (other, held) ∈ map.entries := by
      simp only [insert, List.mem_append, List.mem_cons, List.mem_filter, Prod.mk.injEq, same,
        false_and, false_or,
        decide_eq_true_eq, ← and_or_left, lt_or_lt_iff_ne, ne_eq, not_false_eq_true, and_true]
    rw [find?_eq_some_iff, find?_eq_some_iff, kept]

theorem find?_erase :
    (map.erase key).find? other = if other = key then none else map.find? other := by
  by_cases same : other = key
  · rw [if_pos same, find?_eq_none_iff]
    simp [erase, same]
  · rw [if_neg same]
    apply Option.ext
    intro held
    rw [find?_eq_some_iff, find?_eq_some_iff]
    simp [erase, same]

theorem isEmpty_iff : map.isEmpty = true ↔ ∀ key, map.find? key = none := by
  unfold isEmpty
  constructor
  · intro nothing key
    rw [find?_eq_none_iff, List.isEmpty_iff.mp nothing]
    simp
  · intro absent
    rw [List.isEmpty_iff, List.eq_nil_iff_forall_not_mem]
    rintro ⟨key, value⟩ member
    exact find?_eq_none_iff.mp (absent key) value member

theorem isEmpty_insert : (map.insert key value).isEmpty = false := by
  simp [isEmpty, insert]

/-- The first value belongs to a key that no other is below. -/
theorem first?_spec (filled : map.isEmpty = false) :
    ∃ least first, map.first? = some first ∧ map.find? least = some first ∧
      ∀ key value, map.find? key = some value → least ≤ key := by
  have sorted := map.sorted
  cases listed : map.entries with
  | nil => simp [isEmpty, listed] at filled
  | cons entry rest =>
    rw [listed] at sorted
    refine ⟨entry.1, entry.2, by simp [first?, listed], ?_, fun key value found => ?_⟩
    · rw [find?_eq_some_iff, listed]
      exact List.mem_cons_self
    · rw [find?_eq_some_iff, listed] at found
      rcases List.mem_cons.mp found with rfl | later
      · exact le_rfl
      · exact ((List.pairwise_cons.mp sorted).1 _ later).le

theorem first?_eq_some {first : Value} (isFirst : map.first? = some first) :
    ∃ least, map.find? least = some first ∧ ∀ key value, map.find? key = some value →
      least ≤ key := by
  have filled : map.isEmpty = false := by
    by_contra nothing
    have none : map.entries = [] := List.isEmpty_iff.mp (by simpa [isEmpty] using nothing)
    simp [first?, none] at isFirst
  obtain ⟨least, other, same, found, below⟩ := first?_spec filled
  obtain rfl := Option.some.inj (isFirst.symm.trans same)
  exact ⟨least, found, below⟩

theorem keys_nodup : (map.entries.map Prod.fst).Nodup :=
  (List.pairwise_map.mpr map.sorted).imp fun below => below.ne

end OrderedMap

/-- A map of slots, each of which is a map itself. -/
abbrev SlotMap (Slot Key Value : Type) [LinearOrder Slot] [LinearOrder Key] : Type :=
  OrderedMap Slot (OrderedMap Key Value)

namespace SlotMap

variable {Slot Key Value : Type} [LinearOrder Slot] [LinearOrder Key]

def lookup (slots : SlotMap Slot Key Value) (slot : Slot) (key : Key) : Option Value :=
  (slots.find? slot).bind fun items => items.find? key

/-- Put a value into its slot, which is made if it is not there. -/
def put (slots : SlotMap Slot Key Value) (slot : Slot) (key : Key) (value : Value) :
    SlotMap Slot Key Value :=
  slots.insert slot (((slots.find? slot).getD .empty).insert key value)

/-- Take a key out of its slot, and the slot with its last key. -/
def remove (slots : SlotMap Slot Key Value) (slot : Slot) (key : Key) : SlotMap Slot Key Value :=
  match slots.find? slot with
  | none => slots
  | some items =>
    match items.find? key with
    | none => slots
    | some _ => if (items.erase key).isEmpty then slots.erase slot else slots.insert slot (items.erase key)

/-- The first value of the first slot. -/
def front? (slots : SlotMap Slot Key Value) : Option Value := slots.first?.bind OrderedMap.first?

/-- No slot is empty. -/
def Filled (slots : SlotMap Slot Key Value) : Prop :=
  ∀ slot items, slots.find? slot = some items → items.isEmpty = false

variable {slots : SlotMap Slot Key Value} {slot other : Slot} {key key' : Key} {value : Value}

@[simp] theorem lookup_empty : lookup (.empty : SlotMap Slot Key Value) slot key = none := rfl

theorem lookup_put :
    (slots.put slot key value).lookup other key' = if other = slot ∧ key' = key then some value
      else slots.lookup other key' := by
  unfold lookup put
  rw [OrderedMap.find?_insert]
  by_cases same : other = slot
  · subst same
    cases found : slots.find? other with
    | none => simp [OrderedMap.find?_insert]
    | some items => simp [OrderedMap.find?_insert]
  · simp [same]

theorem lookup_remove :
    (slots.remove slot key).lookup other key' = if other = slot ∧ key' = key then none
      else slots.lookup other key' := by
  unfold remove
  split
  · rename_i absent
    split
    · rename_i both
      rw [lookup, both.1, absent, Option.bind_none]
    · rfl
  · rename_i items found
    split
    · rename_i absent
      split
      · rename_i both
        rw [lookup, both.1, found, Option.bind_some, both.2, absent]
      · rfl
    · by_cases same : other = slot
      · subst same
        split
        · rename_i nothing
          have gone := OrderedMap.isEmpty_iff.mp nothing key'
          rw [OrderedMap.find?_erase] at gone
          simp only [lookup, OrderedMap.find?_erase, found, Option.bind_some, Option.bind_none,
            true_and, if_true]
          split
          · rfl
          · rename_i apart
            rw [if_neg apart] at gone
            exact gone.symm
        · simp [lookup, OrderedMap.find?_insert, OrderedMap.find?_erase, found]
      · have kept (items : OrderedMap Key Value) :
            lookup (slots.insert slot items) other key' = slots.lookup other key' := by
          simp [lookup, OrderedMap.find?_insert, same]
        have erased : lookup (slots.erase slot) other key' = slots.lookup other key' := by
          simp [lookup, OrderedMap.find?_erase, same]
        simp only [same, false_and, if_false]
        split
        · exact erased
        · exact kept _

theorem lookup_erase :
    lookup (slots.erase slot) other key = if other = slot then none else slots.lookup other key := by
  unfold lookup
  rw [OrderedMap.find?_erase]
  split <;> rfl

theorem Filled.empty : Filled (.empty : SlotMap Slot Key Value) := nofun

theorem Filled.put (filled : slots.Filled) : (slots.put slot key value).Filled := by
  intro other items found
  rw [SlotMap.put, OrderedMap.find?_insert] at found
  split at found
  · cases found
    exact OrderedMap.isEmpty_insert
  · exact filled other items found

theorem Filled.erase (filled : slots.Filled) : Filled (slots.erase slot) := by
  intro other items found
  rw [OrderedMap.find?_erase] at found
  split at found
  · cases found
  · exact filled other items found

theorem Filled.remove (filled : slots.Filled) : (slots.remove slot key).Filled := by
  unfold SlotMap.remove
  split
  · exact filled
  · split
    · exact filled
    · split
      · exact filled.erase
      · rename_i rest
        intro other items found
        rw [OrderedMap.find?_insert] at found
        split at found
        · cases found
          simpa using rest
        · exact filled other items found

/-- With anything in a slot there is a front, and nothing is in a slot before it. -/
theorem Filled.front?_spec (filled : slots.Filled) (found : slots.lookup slot key = some value) :
    ∃ least first front, slots.front? = some front ∧ slots.lookup least first = some front ∧
      ∀ other key value, slots.lookup other key = some value → least ≤ other := by
  have some_of_lookup {other : Slot} {key : Key} {value : Value}
      (found : slots.lookup other key = some value) :
      ∃ items, slots.find? other = some items :=
    (Option.bind_eq_some_iff.mp found).imp fun _ both => both.1
  have any : slots.isEmpty = false := by
    by_contra nothing
    obtain ⟨items, there⟩ := some_of_lookup found
    rw [OrderedMap.isEmpty_iff.mp (by simpa using nothing)] at there
    cases there
  obtain ⟨least, items, head, there, below⟩ := OrderedMap.first?_spec any
  obtain ⟨first, front, begins, held, _⟩ := OrderedMap.first?_spec (filled least items there)
  refine ⟨least, first, front, by rw [front?, head, Option.bind_some, begins],
    by rw [lookup, there, Option.bind_some, held], ?_⟩
  intro other key value found
  obtain ⟨items, there⟩ := some_of_lookup found
  exact below other items there

/-- The front is in front of everything else. -/
theorem front?_eq_some (isFront : slots.front? = some value) :
    ∃ slot key, slots.lookup slot key = some value ∧
      ∀ other key', (slots.lookup other key').isSome → slot < other ∨ slot = other ∧
        key ≤ key' := by
  obtain ⟨items, head, begins⟩ := Option.bind_eq_some_iff.mp isFront
  obtain ⟨slot, there, below⟩ := OrderedMap.first?_eq_some head
  obtain ⟨key, held, least⟩ := OrderedMap.first?_eq_some begins
  refine ⟨slot, key, by rw [lookup, there, Option.bind_some, held], fun other key' found => ?_⟩
  obtain ⟨value, found⟩ := Option.isSome_iff_exists.mp found
  obtain ⟨items', there', held'⟩ := Option.bind_eq_some_iff.mp found
  rcases (below other items' there').lt_or_eq with before | rfl
  · exact .inl before
  · obtain rfl := Option.some.inj (there.symm.trans there')
    exact .inr ⟨rfl, least key' value held'⟩

/-- What is taken out elsewhere leaves the front where it is. -/
theorem Filled.front?_keep {after : SlotMap Slot Key Value} (filled : after.Filled)
    (isFront : slots.front? = some value)
    (kept : ∀ slot key, slots.lookup slot key = some value → after.lookup slot key = some value)
    (fewer : ∀ slot key, (after.lookup slot key).isSome → (slots.lookup slot key).isSome) :
    after.front? = some value := by
  obtain ⟨slot, key, found, least⟩ := front?_eq_some isFront
  obtain ⟨_, _, front, isFront, _, _⟩ := filled.front?_spec (kept slot key found)
  obtain ⟨slot', key', found', least'⟩ := front?_eq_some isFront
  have there : (slots.lookup slot' key').isSome := fewer slot' key' (by rw [found']; rfl)
  have here : (after.lookup slot key).isSome := by rw [kept slot key found]; rfl
  have same : slot = slot' ∧ key = key' := by
    rcases least slot' key' there with before | ⟨rfl, below⟩
    · rcases least' slot key here with after | ⟨rfl, _⟩
      · exact absurd before after.asymm
      · exact absurd before (lt_irrefl _)
    · rcases least' slot key here with after | ⟨_, above⟩
      · exact absurd after (lt_irrefl _)
      · exact ⟨rfl, le_antisymm below above⟩
  obtain ⟨rfl, rfl⟩ := same
  rw [isFront, ← found', kept slot key found]

end SlotMap

end BTool.Foundation
