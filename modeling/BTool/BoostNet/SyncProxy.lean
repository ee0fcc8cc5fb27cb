import BTool.BoostNet.CallbackProxy
import BTool.Foundation.Locals

/-! `SyncProxy`, which keeps the promises of requests whose callers wait, and the `sync_send_impl` of
any number of threads beside the readers that handle responses.

Each access to the map is a critical section of its own. A reader satisfies a promise, and a caller
waits for it, in none of them. -/

namespace BTool.BoostNet

open BTool.Foundation

/-- A `std::promise` of a response. -/
structure Promise where
  value : Option ProxyMsg
  /-- Its future has been retrieved. -/
  retrieved : Bool
deriving DecidableEq

namespace Promise

def construct : Promise := ⟨none, false⟩

/-- `none` is `promise_already_satisfied`. -/
def setValue (promise : Promise) (item : ProxyMsg) : Option Promise :=
  if promise.value = none then some { promise with value := some item } else none

/-- `none` is `future_already_retrieved`. -/
def getFuture (promise : Promise) : Option Promise :=
  if promise.retrieved then none else some { promise with retrieved := true }

theorem eq_of_setValue {promise satisfied : Promise} {item : ProxyMsg}
    (success : promise.setValue item = some satisfied) :
    satisfied = { promise with value := some item } := by
  unfold setValue at success
  split at success
  · exact (Option.some.inj success).symm
  · cases success

theorem eq_of_getFuture {promise taken : Promise} (success : promise.getFuture = some taken) :
    taken = { promise with retrieved := true } := by
  unfold getFuture at success
  split at success
  · cases success
  · exact (Option.some.inj success).symm

end Promise

/-- A promise is known by the number of those made before it. -/
structure SyncProxy where
  curReqId : UInt32
  futureMap : UInt32 → Option Nat

namespace SyncProxy

def construct : SyncProxy := ⟨0, fun _ => none⟩

def getNextPromise (proxy : SyncProxy) (promise : Nat) : SyncProxy × UInt32 :=
  let reqId := proxy.curReqId + 1
  (⟨reqId, emplace proxy.futureMap reqId promise⟩, reqId)

def getPromise (proxy : SyncProxy) (reqId : UInt32) : Option Nat := proxy.futureMap reqId

def remove (proxy : SyncProxy) (reqId : UInt32) : SyncProxy :=
  { proxy with futureMap := Function.update proxy.futureMap reqId none }

end SyncProxy

/-- A request that has been numbered, with the promise made for it and the number of responses that
had come in before. -/
structure SyncRequest where
  reqId : UInt32
  made : Nat
  since : Nat
deriving DecidableEq

/-- Where a thread is in `sync_send_impl` and in `wait_for`. -/
inductive SendPc where
  | idle
  | writes (request : SyncRequest)
  | looks (request : SyncRequest)
  | found (request : SyncRequest) (promise : Nat)
  | waits (request : SyncRequest) (promise : Nat)
  | removes (request : SyncRequest) (promise : Nat) (ready : Bool)
  | returned (request : SyncRequest) (status : MsgStatus) (item : Option ProxyMsg)
  /-- `wait_for` has a null promise. -/
  | undefined (request : SyncRequest)
  /-- `get_future` has thrown. -/
  | threw (request : SyncRequest)
deriving DecidableEq

/-- The request of a call that has not returned. -/
def SendPc.request? : SendPc → Option SyncRequest
  | .idle => none
  | .writes request => some request
  | .looks request => some request
  | .found request _ => some request
  | .waits request _ => some request
  | .removes request _ _ => some request
  | .returned _ _ _ => none
  | .undefined request => some request
  | .threw request => some request

/-- A step of `sync_send_impl` or of `wait_for`. -/
inductive SendStep where
  | getNextPromise
  /-- `write_impl` returns this. -/
  | write (written : Bool)
  /-- A caller that does not wait removes its request; `sync_send_impl` never does. -/
  | giveUp
  | getPromise
  | getFuture
  /-- `wait_for` of the future returns `ready`. -/
  | ready
  /-- `wait_for` of the future returns without a value. -/
  | timeout
  | remove
deriving DecidableEq

inductive SyncAction (Thread Reader : Type) where
  | call (thread : Thread) (step : SendStep)
  /-- `invoke` looks the promise of a response up. -/
  | receive (reader : Reader) (item : ProxyMsg)
  /-- `invoke` sets the value of the promise that it has found. -/
  | setValue (reader : Reader)
deriving DecidableEq

structure SyncCalls (Thread Reader : Type) where
  proxy : SyncProxy
  /-- The number of promises that have been made. -/
  made : Nat
  promises : Nat → Promise
  callers : Thread → SendPc
  /-- The promise that a reader has found, and the response for it. -/
  readers : Reader → Option (Nat × ProxyMsg)
  received : List ProxyMsg
  /-- `promise_already_satisfied` has been thrown out of a read handler. -/
  threw : Bool

namespace SyncCalls

variable {Thread Reader : Type} [DecidableEq Thread]

def construct : SyncCalls Thread Reader :=
  ⟨.construct, 0, fun _ => .construct, fun _ => .idle, fun _ => none, [], false⟩

def move (state : SyncCalls Thread Reader) (thread : Thread) (pc : SendPc) : SyncCalls Thread Reader :=
  { state with callers := Function.update state.callers thread pc }

def draw (state : SyncCalls Thread Reader) (thread : Thread) : SyncCalls Thread Reader :=
  let (proxy, reqId) := state.proxy.getNextPromise state.made
  { state with proxy, made := state.made + 1 }.move thread
    (.writes ⟨reqId, state.made, state.received.length⟩)

/-- The request is removed, and its call is at an end. -/
def close (state : SyncCalls Thread Reader) (thread : Thread) (request : SyncRequest) (pc : SendPc) :
    SyncCalls Thread Reader :=
  { state with proxy := state.proxy.remove request.reqId }.move thread pc

def setPromise (state : SyncCalls Thread Reader) (index : Nat) (promise : Promise) :
    SyncCalls Thread Reader :=
  { state with promises := Function.update state.promises index promise }

def advance (state : SyncCalls Thread Reader) (thread : Thread) :
    SendPc → SendStep → Option (SyncCalls Thread Reader)
  | .idle, .getNextPromise => some (state.draw thread)
  | .returned _ _ _, .getNextPromise => some (state.draw thread)
  | .writes request, .write written =>
    some (state.move thread (if written then .looks request else .returned request .sendError none))
  | .writes request, .giveUp => some (state.close thread request .idle)
  | .looks request, .getPromise =>
    match state.proxy.getPromise request.reqId with
    | none => some (state.move thread (.undefined request))
    | some promise => some (state.move thread (.found request promise))
  | .found request promise, .getFuture =>
    match (state.promises promise).getFuture with
    | none => some (state.move thread (.threw request))
    | some retrieved => some ((state.setPromise promise retrieved).move thread (.waits request promise))
  | .waits request promise, .ready =>
    if (state.promises promise).value = none then none
    else some (state.move thread (.removes request promise true))
  | .waits request promise, .timeout =>
    if (state.promises promise).value = none then
      some (state.move thread (.removes request promise false))
    else none
  | .removes request promise ready, .remove =>
    some (state.close thread request
      (if ready then .returned request .ok (state.promises promise).value
      else .returned request .timeout none))
  | _, _ => none

section

variable {before : SyncCalls Thread Reader} {thread : Thread} {request : SyncRequest}

/-- The request that a thread has after a draw. -/
theorem draw_request {other : Thread}
    (has : ((before.draw thread).callers other).request? = some request) :
    (other = thread ∧ request = ⟨before.proxy.curReqId + 1, before.made, before.received.length⟩) ∨
      (other ≠ thread ∧ (before.callers other).request? = some request) := by
  by_cases here : other = thread
  · subst here
    replace has : (Function.update before.callers other _ other).request? = some request := has
    rw [Function.update_self] at has
    exact .inl ⟨rfl, (Option.some.inj has).symm⟩
  · replace has : (Function.update before.callers thread _ other).request? = some request := has
    rw [Function.update_of_ne here] at has
    exact .inr ⟨here, has⟩

theorem draw_self : ((before.draw thread).callers thread).request? =
    some ⟨before.proxy.curReqId + 1, before.made, before.received.length⟩ := by
  show (Function.update before.callers thread _ thread).request? = _
  rw [Function.update_self]
  rfl

/-- An entry after a draw is that of the promise just made, or an earlier one. -/
theorem draw_entry {reqId : UInt32} {promise : Nat}
    (entry : (before.draw thread).proxy.futureMap reqId = some promise) :
    (reqId = before.proxy.curReqId + 1 ∧ promise = before.made) ∨
      before.proxy.futureMap reqId = some promise := by
  replace entry : emplace before.proxy.futureMap (before.proxy.curReqId + 1) before.made reqId =
    some promise := entry
  unfold emplace at entry
  split at entry
  · exact .inr entry
  · by_cases here : reqId = before.proxy.curReqId + 1
    · subst here
      rw [Function.update_self] at entry
      exact .inl ⟨rfl, (Option.some.inj entry).symm⟩
    · rw [Function.update_of_ne here] at entry
      exact .inr entry

/-- What is entered and not removed was entered before. -/
theorem close_entry {pc : SendPc} {reqId : UInt32} {promise : Nat}
    (entry : (before.close thread request pc).proxy.futureMap reqId = some promise) :
    reqId ≠ request.reqId ∧ before.proxy.futureMap reqId = some promise := by
  replace entry : Function.update before.proxy.futureMap request.reqId none reqId = some promise := entry
  by_cases here : reqId = request.reqId
  · subst here
    rw [Function.update_self] at entry
    cases entry
  · rw [Function.update_of_ne here] at entry
    exact ⟨here, entry⟩

/-- A fresh id gets the entry of the promise made for it. -/
theorem draw_fresh (fresh : before.proxy.futureMap (before.proxy.curReqId + 1) = none) :
    (before.draw thread).proxy.futureMap =
      Function.update before.proxy.futureMap (before.proxy.curReqId + 1) (some before.made) := by
  show emplace _ _ _ = _
  unfold emplace
  rw [fresh]
  rfl

end

variable [DecidableEq Reader]

def setReader (state : SyncCalls Thread Reader) (reader : Reader) (found : Option (Nat × ProxyMsg)) :
    SyncCalls Thread Reader :=
  { state with readers := Function.update state.readers reader found }

def next (state : SyncCalls Thread Reader) :
    SyncAction Thread Reader → Option (SyncCalls Thread Reader)
  | .call thread step => state.advance thread (state.callers thread) step
  | .receive reader item =>
    if state.readers reader = none then
      some ({ state with received := state.received ++ [item] }.setReader reader
        ((state.proxy.getPromise item.head.reqId).map fun promise => (promise, item)))
    else none
  | .setValue reader =>
    match state.readers reader with
    | none => none
    | some (promise, item) =>
      match (state.promises promise).setValue item with
      | none => some ({ state with threw := true }.setReader reader none)
      | some satisfied => some ((state.setPromise promise satisfied).setReader reader none)

/-- What a step does. -/
inductive Change (before : SyncCalls Thread Reader) :
    SyncAction Thread Reader → SyncCalls Thread Reader → Prop where
  | drawn {thread : Thread} (free : (before.callers thread).request? = none) :
      Change before (.call thread .getNextPromise) (before.draw thread)
  | written {thread : Thread} {request : SyncRequest} (place : before.callers thread = .writes request) :
      Change before (.call thread (.write true)) (before.move thread (.looks request))
  | unsent {thread : Thread} {request : SyncRequest} (place : before.callers thread = .writes request) :
      Change before (.call thread (.write false))
        (before.move thread (.returned request .sendError none))
  | gaveUp {thread : Thread} {request : SyncRequest} (place : before.callers thread = .writes request) :
      Change before (.call thread .giveUp) (before.close thread request .idle)
  | missed {thread : Thread} {request : SyncRequest} (place : before.callers thread = .looks request)
      (missing : before.proxy.futureMap request.reqId = none) :
      Change before (.call thread .getPromise) (before.move thread (.undefined request))
  | found {thread : Thread} {request : SyncRequest} {promise : Nat}
      (place : before.callers thread = .looks request)
      (entry : before.proxy.futureMap request.reqId = some promise) :
      Change before (.call thread .getPromise) (before.move thread (.found request promise))
  | refused {thread : Thread} {request : SyncRequest} {promise : Nat}
      (place : before.callers thread = .found request promise)
      (again : (before.promises promise).retrieved = true) :
      Change before (.call thread .getFuture) (before.move thread (.threw request))
  | retrieved {thread : Thread} {request : SyncRequest} {promise : Nat}
      (place : before.callers thread = .found request promise) :
      Change before (.call thread .getFuture)
        ((before.setPromise promise { before.promises promise with retrieved := true }).move thread
          (.waits request promise))
  | woken {thread : Thread} {request : SyncRequest} {promise : Nat}
      (place : before.callers thread = .waits request promise)
      (satisfied : (before.promises promise).value ≠ none) :
      Change before (.call thread .ready) (before.move thread (.removes request promise true))
  | expired {thread : Thread} {request : SyncRequest} {promise : Nat}
      (place : before.callers thread = .waits request promise) :
      Change before (.call thread .timeout) (before.move thread (.removes request promise false))
  | removed {thread : Thread} {request : SyncRequest} {promise : Nat} {ready : Bool}
      (place : before.callers thread = .removes request promise ready) :
      Change before (.call thread .remove) (before.close thread request
        (if ready then .returned request .ok (before.promises promise).value
        else .returned request .timeout none))
  | received {reader : Reader} {item : ProxyMsg} (free : before.readers reader = none) :
      Change before (.receive reader item)
        ({ before with received := before.received ++ [item] }.setReader reader
          ((before.proxy.futureMap item.head.reqId).map fun promise => (promise, item)))
  | satisfied {reader : Reader} {item : ProxyMsg} {promise : Nat}
      (place : before.readers reader = some (promise, item)) :
      Change before (.setValue reader)
        ((before.setPromise promise { before.promises promise with value := some item }).setReader
          reader none)
  | threw {reader : Reader} {item : ProxyMsg} {promise : Nat}
      (place : before.readers reader = some (promise, item))
      (again : (before.promises promise).value ≠ none) :
      Change before (.setValue reader) ({ before with threw := true }.setReader reader none)

variable {before after : SyncCalls Thread Reader} {action : SyncAction Thread Reader}

private theorem change_of_advance {thread : Thread} {step : SendStep}
    (taken : before.advance thread (before.callers thread) step = some after) :
    Change before (.call thread step) after := by
  cases place : before.callers thread <;> cases step <;> rw [place] at taken <;>
    simp only [advance, reduceCtorEq] at taken
  case idle.getNextPromise =>
    cases taken
    exact .drawn (by rw [place]; rfl)
  case returned.getNextPromise =>
    cases taken
    exact .drawn (by rw [place]; rfl)
  case writes.write request written =>
    cases taken
    cases written with
    | true => exact .written place
    | false => exact .unsent place
  case writes.giveUp =>
    cases taken
    exact .gaveUp place
  case looks.getPromise request =>
    split at taken <;> cases taken
    · rename_i missing
      exact .missed place missing
    · rename_i promise entry
      exact .found place entry
  case found.getFuture request promise =>
    split at taken <;> cases taken
    · rename_i refused
      refine .refused place ?_
      by_contra free
      simp [Promise.getFuture, free] at refused
    · rename_i retrieved success
      rw [Promise.eq_of_getFuture success]
      exact .retrieved place
  case waits.ready request promise =>
    split at taken <;> cases taken
    rename_i satisfied
    exact .woken place satisfied
  case waits.timeout request promise =>
    split at taken <;> cases taken
    exact .expired place
  case removes.remove request promise ready =>
    cases taken
    exact .removed place

theorem change_of_next (taken : before.next action = some after) : Change before action after := by
  cases action with
  | call thread step => exact change_of_advance taken
  | receive reader item =>
    simp only [next] at taken
    split at taken <;> cases taken
    rename_i free
    exact .received free
  | setValue reader =>
    simp only [next] at taken
    split at taken
    · cases taken
    · rename_i promise item place
      split at taken <;> cases taken
      · rename_i refused
        refine .threw place fun unset => ?_
        simp [Promise.setValue, unset] at refused
      · rename_i satisfied success
        rw [Promise.eq_of_setValue success]
        exact .satisfied place

end SyncCalls

end BTool.BoostNet
