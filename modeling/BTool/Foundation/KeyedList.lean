import Mathlib.Data.List.Basic
import Mathlib.Data.List.Perm.Basic

/-! Lists of keyed entries, and the entries of one key in order. -/

namespace BTool.Foundation

variable {Key Value : Type} [DecidableEq Key]

/-- The values filed under a key, in list order. -/
def ofKey (key : Key) (entries : List (Key × Value)) : List Value :=
  (entries.filter fun entry => entry.1 = key).map Prod.snd

variable {key other : Key} {value : Value} {entries front back : List (Key × Value)}
  {rest : List Value}

@[simp] theorem ofKey_nil : ofKey key ([] : List (Key × Value)) = [] := rfl

@[simp] theorem ofKey_append : ofKey key (front ++ back) = ofKey key front ++ ofKey key back := by
  simp [ofKey]

theorem ofKey_cons : ofKey key ((other, value) :: entries) =
    if other = key then value :: ofKey key entries else ofKey key entries := by
  by_cases same : other = key <;> simp [ofKey, same]

theorem mem_ofKey : value ∈ ofKey key entries ↔ (key, value) ∈ entries := by
  simp [ofKey]

theorem ofKey_eq_nil : ofKey key entries = [] ↔ key ∉ entries.map Prod.fst := by
  constructor
  · intro nothing member
    obtain ⟨⟨_, value⟩, inside, rfl⟩ := List.mem_map.mp member
    have filed : value ∈ ofKey _ entries := mem_ofKey.mpr inside
    simp [nothing] at filed
  · intro absent
    apply List.eq_nil_iff_forall_not_mem.mpr
    intro value filed
    exact absent (List.mem_map.mpr ⟨_, mem_ofKey.mp filed, rfl⟩)

theorem length_ofKey : (ofKey key entries).length = (entries.map Prod.fst).count key := by
  induction entries with
  | nil => rfl
  | cons entry tail ih =>
    obtain ⟨other, value⟩ := entry
    by_cases same : other = key <;> simp [ofKey_cons, same, ih]

theorem ofKey_map {Other : Type} (change : Value → Other) :
    ofKey key (entries.map fun entry => (entry.1, change entry.2)) =
      (ofKey key entries).map change := by
  simp [ofKey, List.filter_map, Function.comp_def]

theorem ofKey_filter_ne : ofKey other (entries.filter fun entry => entry.1 ≠ key) =
    if other = key then [] else ofKey other entries := by
  unfold ofKey
  rw [List.filter_filter]
  split
  · rename_i same
    subst same
    simp
  · rename_i different
    congr 1
    apply List.filter_congr
    intro entry _
    by_cases here : entry.1 = other <;> simp [here, different]

section Erase

variable [BEq Value] [LawfulBEq Value]

/-- Erasing the first entry of a key takes the head of what is filed under it. -/
theorem ofKey_erase (filed : ofKey key entries = value :: rest) :
    ofKey other (entries.erase (key, value)) = if other = key then rest else ofKey other entries := by
  induction entries with
  | nil => cases filed
  | cons entry tail ih =>
    obtain ⟨k, v⟩ := entry
    rw [ofKey_cons] at filed
    by_cases same : k = key
    · subst same
      rw [if_pos rfl] at filed
      obtain ⟨rfl, rfl⟩ := List.cons.inj filed
      rw [List.erase_cons_head, ofKey_cons]
      by_cases equal : other = k
      · simp [equal]
      · simp [equal, Ne.symm equal]
    · rw [if_neg same] at filed
      have apart : ((k, v) == (key, value)) = false := by simp [same]
      rw [List.erase_cons_tail (by simp [apart]), ofKey_cons, ih filed, ofKey_cons]
      by_cases equal : other = key
      · subst equal
        simp [same]
      · simp [equal]

theorem keys_erase (filed : ofKey key entries = value :: rest) :
    (entries.erase (key, value)).map Prod.fst = (entries.map Prod.fst).erase key := by
  induction entries with
  | nil => cases filed
  | cons entry tail ih =>
    obtain ⟨k, v⟩ := entry
    rw [ofKey_cons] at filed
    by_cases same : k = key
    · subst same
      rw [if_pos rfl] at filed
      obtain ⟨rfl, _⟩ := List.cons.inj filed
      simp
    · rw [if_neg same] at filed
      have apart : ((k, v) == (key, value)) = false := by simp [same]
      have keysApart : (k == key) = false := by simp [same]
      rw [List.erase_cons_tail (by simp [apart]), List.map_cons, List.map_cons,
        List.erase_cons_tail (by simp [keysApart]), ih filed]

end Erase

/-- The first entry whose key passes a test is the first entry of its key. -/
theorem ofKey_of_find? (test : Key → Bool)
    (found : entries.find? (fun entry => test entry.1) = some (key, value)) :
    ∃ rest, ofKey key entries = value :: rest := by
  obtain ⟨passes, front, back, rfl, blocked⟩ := List.find?_eq_some_iff_append.mp found
  have nothing : ofKey key front = [] := by
    apply ofKey_eq_nil.mpr
    intro member
    obtain ⟨entry, inside, same⟩ := List.mem_map.mp member
    have fails := blocked entry inside
    rw [same] at fails
    simp [passes] at fails
  exact ⟨ofKey key back, by rw [ofKey_append, nothing, ofKey_cons, if_pos rfl, List.nil_append]⟩

/-- The other way around: a first key that passes is met at its first entry. -/
theorem find?_of_keys (test : Key → Bool) (found : (entries.map Prod.fst).find? test = some key)
    (filed : ofKey key entries = value :: rest) :
    entries.find? (fun entry => test entry.1) = some (key, value) := by
  rw [List.find?_map] at found
  obtain ⟨entry, first, same⟩ := Option.map_eq_some_iff.mp found
  obtain ⟨k, v⟩ := entry
  obtain rfl : k = key := same
  obtain ⟨rest', filed'⟩ := ofKey_of_find? test first
  obtain ⟨rfl, _⟩ := List.cons.inj (filed.symm.trans filed')
  exact first

end BTool.Foundation
