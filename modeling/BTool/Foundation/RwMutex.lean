import Mathlib.Data.Finset.Erase
import Mathlib.Data.Finset.Insert
import Mathlib.Logic.Function.Basic

/-! A readers-writer lock: one writer, or any number of readers. -/

namespace BTool.Foundation

structure RwMutex (Thread : Type) where
  writer : Option Thread
  readers : Finset Thread
  exclusive : writer ≠ none → readers = ∅

namespace RwMutex

variable {Thread : Type} [DecidableEq Thread] {mutex after : RwMutex Thread}
  {thread other : Thread}

def free : RwMutex Thread := ⟨none, ∅, fun _ => rfl⟩

/-- The write lock; `none` where the thread has to wait. -/
def lock (mutex : RwMutex Thread) (thread : Thread) : Option (RwMutex Thread) :=
  if mutex.writer = none ∧ mutex.readers = ∅ then some ⟨some thread, ∅, fun _ => rfl⟩ else none

def unlock (mutex : RwMutex Thread) : RwMutex Thread := ⟨none, mutex.readers, fun held => absurd rfl held⟩

/-- A read lock; `none` where the thread has to wait. -/
def lockShared (mutex : RwMutex Thread) (thread : Thread) : Option (RwMutex Thread) :=
  if mutex.writer = none then some ⟨none, insert thread mutex.readers, fun held => absurd rfl held⟩
  else none

def unlockShared (mutex : RwMutex Thread) (thread : Thread) : RwMutex Thread where
  writer := mutex.writer
  readers := mutex.readers.erase thread
  exclusive held := by rw [mutex.exclusive held]; rfl

theorem lock_cases (locked : mutex.lock thread = some after) :
    mutex.writer = none ∧ mutex.readers = ∅ ∧ after.writer = some thread ∧ after.readers = ∅ := by
  unfold lock at locked
  split at locked
  · rename_i open_
    cases locked
    exact ⟨open_.1, open_.2, rfl, rfl⟩
  · cases locked

theorem lockShared_cases (locked : mutex.lockShared thread = some after) :
    mutex.writer = none ∧ after.writer = none ∧ after.readers = insert thread mutex.readers := by
  unfold lockShared at locked
  split at locked
  · rename_i open_
    cases locked
    exact ⟨open_, rfl, rfl⟩
  · cases locked

/-- The lock is held by the threads that are at the places where they have it. -/
structure Tracks {Pc : Type} (mutex : RwMutex Thread) (writes reads : Pc → Bool) (places : Thread → Pc) :
    Prop where
  writer : ∀ thread, mutex.writer = some thread ↔ writes (places thread) = true
  reader : ∀ thread, thread ∈ mutex.readers ↔ reads (places thread) = true

namespace Tracks

variable {Pc : Type} {writes reads : Pc → Bool} {places : Thread → Pc} {pc : Pc}

omit [DecidableEq Thread] in
/-- Nobody reads while another one writes. -/
theorem reads_eq_false (tracks : mutex.Tracks writes reads places)
    (writing : writes (places thread) = true) (other : Thread) : reads (places other) = false := by
  have held := (tracks.writer thread).mpr writing
  have empty := mutex.exclusive (by simp [held])
  cases reading : reads (places other) with
  | false => rfl
  | true =>
    have member := (tracks.reader other).mpr reading
    simp [empty] at member

omit [DecidableEq Thread] in
/-- Nobody writes while another one reads. -/
theorem writes_eq_false (tracks : mutex.Tracks writes reads places)
    (reading : reads (places thread) = true) (other : Thread) : writes (places other) = false := by
  cases writing : writes (places other) with
  | false => rfl
  | true => simp [tracks.reads_eq_false writing thread] at reading

omit [DecidableEq Thread] in
theorem eq_of_writes (tracks : mutex.Tracks writes reads places)
    (writing : writes (places thread) = true) (also : writes (places other) = true) : other = thread := by
  have first := (tracks.writer thread).mpr writing
  rw [(tracks.writer other).mpr also] at first
  exact Option.some.inj first

theorem keep (tracks : mutex.Tracks writes reads places) (sameWrites : writes pc = writes (places thread))
    (sameReads : reads pc = reads (places thread)) :
    mutex.Tracks writes reads (Function.update places thread pc) := by
  constructor
  · intro other
    by_cases here : other = thread
    · subst here
      rw [Function.update_self, sameWrites]
      exact tracks.writer other
    · rw [Function.update_of_ne here]
      exact tracks.writer other
  · intro other
    by_cases here : other = thread
    · subst here
      rw [Function.update_self, sameReads]
      exact tracks.reader other
    · rw [Function.update_of_ne here]
      exact tracks.reader other

theorem lock (tracks : mutex.Tracks writes reads places) (locked : mutex.lock thread = some after)
    (nowWrites : writes pc = true) (notReads : reads pc = false) :
    after.Tracks writes reads (Function.update places thread pc) := by
  obtain ⟨nobody, none, held, empty⟩ := lock_cases locked
  constructor
  · intro other
    by_cases here : other = thread
    · simp [here, held, nowWrites]
    · have away := tracks.writer other
      rw [nobody] at away
      rw [held, Function.update_of_ne here, ← away]
      simp [Ne.symm here]
  · intro other
    rw [empty]
    by_cases here : other = thread
    · simp [here, notReads]
    · rw [Function.update_of_ne here, ← tracks.reader other, none]

theorem unlock (tracks : mutex.Tracks writes reads places) (wrote : writes (places thread) = true)
    (notWrites : writes pc = false) (notReads : reads pc = false) :
    mutex.unlock.Tracks writes reads (Function.update places thread pc) := by
  constructor
  · intro other
    by_cases here : other = thread
    · simp [RwMutex.unlock, here, notWrites]
    · have away : writes (places other) ≠ true := fun also => here (tracks.eq_of_writes wrote also)
      simp [RwMutex.unlock, here, away]
  · intro other
    have away := tracks.reads_eq_false wrote
    have member := tracks.reader other
    rw [away other] at member
    by_cases here : other = thread
    · subst here
      simp [RwMutex.unlock, member, notReads]
    · simp [RwMutex.unlock, member, here, away other]

theorem lockShared (tracks : mutex.Tracks writes reads places)
    (locked : mutex.lockShared thread = some after) (notWrites : writes pc = false)
    (nowReads : reads pc = true) : after.Tracks writes reads (Function.update places thread pc) := by
  obtain ⟨nobody, none, more⟩ := lockShared_cases locked
  constructor
  · intro other
    have away := tracks.writer other
    rw [nobody] at away
    rw [none]
    by_cases here : other = thread
    · simp [here, notWrites]
    · rw [Function.update_of_ne here, ← away]
  · intro other
    rw [more, Finset.mem_insert]
    by_cases here : other = thread
    · simp [here, nowReads]
    · rw [Function.update_of_ne here, ← tracks.reader other]
      simp [here]

theorem unlockShared (tracks : mutex.Tracks writes reads places) (wasReading : reads (places thread) = true)
    (notWrites : writes pc = false) (notReads : reads pc = false) :
    (mutex.unlockShared thread).Tracks writes reads (Function.update places thread pc) := by
  constructor
  · intro other
    by_cases here : other = thread
    · subst here
      have away := tracks.writes_eq_false wasReading other
      have held := tracks.writer other
      rw [away] at held
      simpa [RwMutex.unlockShared, notWrites] using held
    · rw [Function.update_of_ne here]
      exact tracks.writer other
  · intro other
    by_cases here : other = thread
    · simp [RwMutex.unlockShared, here, notReads]
    · rw [Function.update_of_ne here, ← tracks.reader other]
      simp [RwMutex.unlockShared, here]

end Tracks

end RwMutex

end BTool.Foundation
