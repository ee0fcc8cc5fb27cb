import BTool.Foundation.CondVar
import BTool.Foundation.SignedArithmetic

/-! The recursive `mutex` of `sync.hpp` that is made of an owner, a count and a flag.

Every thread takes its own steps. `unlock` of a thread that is not the owner gives `m_mtx` back and goes on
all the same, without it. -/

namespace BTool.Sync

open BTool.Foundation

variable {Thread : Type}

inductive Call where
  | lock
  | trylock
  | unlock
deriving DecidableEq

/-- What a thread does next. -/
inductive Pc where
  | outside
  /-- It takes `m_mtx`. -/
  | entry (call : Call)
  /-- It compares itself with the owner. -/
  | test (call : Call)
  | again
  /-- It tests the flag in the loop of `lock`. -/
  | look
  | asleep
  /-- It takes `m_mtx` at the end of `pthread_cond_wait`. -/
  | woken
  | take
  | count
  | signal
  /-- It gives `m_mtx` back, and `trylock` returns this. -/
  | leave (ret : Bool)
deriving DecidableEq

structure Mutex (Thread : Type) where
  mtx : Option Thread
  unlocked : CondVar Thread
  tid : Option Thread
  count : Int
  locked : Bool

/-- A mutex and the threads, with the successful locks of each and its unlocks of what it had. -/
structure State (Thread : Type) where
  mutex : Mutex Thread
  places : Thread → Pc
  locks : Thread → Nat
  unlocks : Thread → Nat
  /-- The behaviour is defined so far. -/
  running : Bool

inductive Action (Thread : Type) where
  | call (thread : Thread) (call : Call)
  | step (thread : Thread)
  | signal (thread : Thread) (woken : Option Thread)
  /-- A wakeup without a signal. -/
  | wake (thread : Thread)

namespace Mutex

def construct [DecidableEq Thread] : Mutex Thread := ⟨none, .empty, none, 0, false⟩

/-- The thread is the owner. -/
def Mine (mutex : Mutex Thread) (thread : Thread) : Prop := mutex.locked = true ∧ mutex.tid = some thread

instance [DecidableEq Thread] (mutex : Mutex Thread) (thread : Thread) : Decidable (mutex.Mine thread) :=
  inferInstanceAs (Decidable (_ ∧ _))

end Mutex

namespace State

variable [DecidableEq Thread]

def init : State Thread := ⟨.construct, fun _ => .outside, fun _ => 0, fun _ => 0, true⟩

def goto (state : State Thread) (thread : Thread) (pc : Pc) : State Thread :=
  { state with places := Function.update state.places thread pc }

def withMtx (state : State Thread) (mtx : Option Thread) : State Thread :=
  { state with mutex := { state.mutex with mtx } }

/-- `pthread_mutex_lock`, for which a thread waits while another one has the mutex. -/
def lockMtx (state : State Thread) (thread : Thread) (pc : Pc) : Option (State Thread) :=
  if state.mutex.mtx = none then some ((state.withMtx (some thread)).goto thread pc) else none

def fault (state : State Thread) : State Thread := { state with running := false }

/-- The test after `m_mtx` has been taken. -/
def test (state : State Thread) (thread : Thread) : Call → State Thread
  | .lock => state.goto thread (if state.mutex.Mine thread then .again else .look)
  | .trylock =>
    state.goto thread
      (if state.mutex.Mine thread then .again
      else if state.mutex.locked then .leave false
      else .take)
  | .unlock =>
    if state.mutex.locked ∧ state.mutex.tid ≠ some thread then (state.withMtx none).goto thread .count
    else state.goto thread .count

def again (state : State Thread) (thread : Thread) : State Thread :=
  match checkInt (state.mutex.count + 1) with
  | none => state.fault
  | some count =>
    { state with
      mutex := { state.mutex with count }
      locks := Function.update state.locks thread (state.locks thread + 1) }.goto thread (.leave true)

/-- `pthread_cond_wait` gives `m_mtx` back and sleeps in one. -/
def look (state : State Thread) (thread : Thread) : State Thread :=
  if state.mutex.locked then
    { state with
      mutex := { state.mutex with mtx := none, unlocked := state.mutex.unlocked.wait thread } }.goto thread .asleep
  else state.goto thread .take

def take (state : State Thread) (thread : Thread) : State Thread :=
  { state with
    mutex := { state.mutex with tid := some thread, count := 1, locked := true }
    locks := Function.update state.locks thread (state.locks thread + 1) }.goto thread (.leave true)

/-- The count and, where it becomes zero, the flag. Only what a thread has is unlocked by it. -/
def countDown (state : State Thread) (thread : Thread) : State Thread :=
  match checkInt (state.mutex.count - 1) with
  | none => state.fault
  | some count =>
    { state with
      mutex := { state.mutex with count, locked := state.mutex.locked && count != 0 }
      unlocks :=
        if state.unlocks thread < state.locks thread then
          Function.update state.unlocks thread (state.unlocks thread + 1)
        else state.unlocks }.goto thread (if count = 0 then .signal else .leave true)

/-- `pthread_mutex_unlock`, which is undefined where the thread has not locked the mutex. -/
def leave (state : State Thread) (thread : Thread) : State Thread :=
  if state.mutex.mtx = some thread then (state.withMtx none).goto thread .outside else state.fault

def step (state : State Thread) (thread : Thread) : Option (State Thread) :=
  match state.places thread with
  | .entry call => state.lockMtx thread (.test call)
  | .test call => some (state.test thread call)
  | .again => some (state.again thread)
  | .look => some (state.look thread)
  | .woken => state.lockMtx thread .look
  | .take => some (state.take thread)
  | .count => some (state.countDown thread)
  | .leave _ => some (state.leave thread)
  | .outside | .asleep | .signal => none

/-- One step of a thread, or one that waits gets up. -/
def next (state : State Thread) (action : Action Thread) : Option (State Thread) :=
  if state.running then
    match action with
    | .call thread call => if state.places thread = .outside then some (state.goto thread (.entry call)) else none
    | .step thread => state.step thread
    | .signal thread woken =>
      if state.places thread = .signal then
        (state.mutex.unlocked.notifyOne woken).map fun unlocked =>
          let signalled := { state with mutex := { state.mutex with unlocked } }.goto thread (.leave true)
          woken.elim signalled (signalled.goto · .woken)
      else none
    | .wake thread =>
      (state.mutex.unlocked.notifyOne (some thread)).map fun unlocked =>
        { state with mutex := { state.mutex with unlocked } }.goto thread .woken
  else none

end State

end BTool.Sync
