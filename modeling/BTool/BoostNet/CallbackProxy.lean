import Mathlib.Logic.Function.Basic
import BTool.BoostNet.RpcMessage
import BTool.Timer.TimerManager

/-! `CallbackProxy`, which keeps the callbacks of requests until a response, a timeout or a failed send.

`insert_timer` registers the timer of a request first, and enters it into a map in a critical section
of its own. The timer may expire in between. -/

namespace BTool.BoostNet

open BTool.Timer

structure SessionTimer where
  sessionId : UInt64
  timerId : Nat
deriving DecidableEq

/-- What a callback is called with. -/
structure Invocation where
  sessionId : UInt64
  status : MsgStatus
  msg : Option ProxyMsg
deriving DecidableEq

/-- `emplace` of an `unordered_map`. -/
def emplace {Value : Type} (map : UInt32 → Option Value) (key : UInt32) (value : Value) :
    UInt32 → Option Value :=
  if (map key).isSome then map else Function.update map key (some value)

structure CallbackProxy (Callback : Type) where
  deadlineTimer : TimerManager
  /-- The request that the function of a timer task has captured, by the address of the task. -/
  captured : Nat → UInt32
  curReqId : UInt32
  overtimeReqs : UInt32 → Option SessionTimer
  callbackMap : UInt32 → Option Callback

namespace CallbackProxy

variable {Callback : Type}

def construct : CallbackProxy Callback :=
  { deadlineTimer := .construct 1000, captured := fun _ => 0, curReqId := 0
    overtimeReqs := fun _ => none, callbackMap := fun _ => none }

def removeTimer (proxy : CallbackProxy Callback) (reqId : UInt32) :
    CallbackProxy Callback × SessionTimer :=
  match proxy.overtimeReqs reqId with
  | none => (proxy, ⟨0, 0⟩)
  | some sessionTimer =>
    ({ proxy with
      deadlineTimer := proxy.deadlineTimer.erase sessionTimer.timerId
      overtimeReqs := Function.update proxy.overtimeReqs reqId none }, sessionTimer)

/-- What `invoke` and `remove` do in their critical sections. -/
def finish (proxy : CallbackProxy Callback) (reqId : UInt32) (status : MsgStatus)
    (msg : Option ProxyMsg) :
    CallbackProxy Callback × Option (Callback × Invocation) :=
  let sessionTimer := (proxy.removeTimer reqId).2
  let proxy := (proxy.removeTimer reqId).1
  match proxy.callbackMap reqId with
  | none => (proxy, none)
  | some callback =>
    ({ proxy with callbackMap := Function.update proxy.callbackMap reqId none },
      some (callback, ⟨sessionTimer.sessionId, status, msg⟩))

def invoke (proxy : CallbackProxy Callback) (msg : ProxyMsg) :
    CallbackProxy Callback × Option (Callback × Invocation) :=
  proxy.finish msg.head.reqId .ok (some msg)

def remove (proxy : CallbackProxy Callback) (reqId : UInt32) (status : MsgStatus) :
    CallbackProxy Callback × Option (Callback × Invocation) :=
  proxy.finish reqId status none

def insert (proxy : CallbackProxy Callback) (callback : Callback) :
    CallbackProxy Callback × UInt32 :=
  let reqId := proxy.curReqId + 1
  ({ proxy with curReqId := reqId, callbackMap := emplace proxy.callbackMap reqId callback }, reqId)

/-- `insert_timer` registers a timer, which is no part of its critical section. -/
def insertTimerRegister (proxy : CallbackProxy Callback) (overtime : UInt64) (now : Int)
    (reqId : UInt32) :
    CallbackProxy Callback × Nat :=
  let address := proxy.deadlineTimer.timerQueue.allocated
  let (deadlineTimer, timerId) := proxy.deadlineTimer.insertDurationOnce now overtime.toUInt32
  ({ proxy with deadlineTimer, captured := Function.update proxy.captured address reqId }, timerId)

/-- The critical section of `insert_timer`. -/
def insertTimerEmplace (proxy : CallbackProxy Callback) (sessionId : UInt64) (timerId : Nat)
    (reqId : UInt32) :
    CallbackProxy Callback :=
  { proxy with overtimeReqs := emplace proxy.overtimeReqs reqId ⟨sessionId, timerId⟩ }

theorem removeTimer_spec (proxy : CallbackProxy Callback) (reqId : UInt32) :
    (proxy.removeTimer reqId).1.overtimeReqs = Function.update proxy.overtimeReqs reqId none ∧
      (proxy.removeTimer reqId).1.callbackMap = proxy.callbackMap ∧
      (proxy.removeTimer reqId).2.sessionId = (proxy.overtimeReqs reqId).elim 0 SessionTimer.sessionId := by
  unfold removeTimer
  cases entered : proxy.overtimeReqs reqId with
  | none =>
    refine ⟨?_, rfl, rfl⟩
    exact (Function.update_eq_iff.mpr ⟨entered.symm, fun _ _ => rfl⟩).symm
  | some sessionTimer => exact ⟨rfl, rfl, rfl⟩

/-- Afterwards neither map has the request. The callback is called with the session that has been
entered for the request, or else with 0. -/
theorem finish_spec (proxy : CallbackProxy Callback) (reqId : UInt32) (status : MsgStatus)
    (msg : Option ProxyMsg) :
    (proxy.finish reqId status msg).1.overtimeReqs = Function.update proxy.overtimeReqs reqId none ∧
      (proxy.finish reqId status msg).1.callbackMap = Function.update proxy.callbackMap reqId none ∧
      (proxy.finish reqId status msg).2 = (proxy.callbackMap reqId).map fun callback =>
        (callback, ⟨(proxy.overtimeReqs reqId).elim 0 SessionTimer.sessionId, status, msg⟩) := by
  obtain ⟨overtime, same, session⟩ := removeTimer_spec proxy reqId
  unfold finish
  simp only [same, session]
  cases found : proxy.callbackMap reqId with
  | none =>
    refine ⟨overtime, ?_, rfl⟩
    exact same.trans (Function.update_eq_iff.mpr ⟨found.symm, fun _ _ => rfl⟩).symm
  | some callback => exact ⟨overtime, rfl, rfl⟩

end CallbackProxy

/-- Where a call is behind the insertion of its callback. -/
inductive CallPc where
  | registersTimer
  | emplacesTimer (timerId : Nat)
  | writes
  | removes
  | returned
deriving DecidableEq

/-- The timer of the call has not been entered. -/
def CallPc.Early : CallPc → Prop
  | .registersTimer => True
  | .emplacesTimer _ => True
  | .writes => False
  | .removes => False
  | .returned => False

instance (pc : CallPc) : Decidable pc.Early := by
  cases pc <;> unfold CallPc.Early <;> infer_instance

structure CallbackCall where
  sessionId : UInt64
  reqId : UInt32
  pc : CallPc
  /-- A response, a timeout or a failed send of its request has been handled. -/
  answered : Bool
deriving DecidableEq

def CallbackCall.answer (reqId : UInt32) (call : CallbackCall) : CallbackCall :=
  { call with answered := call.answered || call.reqId = reqId }

inductive CallbackAction where
  /-- A callback is inserted, and its call goes on to `callback_send`. -/
  | insert (sessionId : UInt64)
  | registerTimer (index : Nat) (overtime : UInt64) (now : Int)
  | emplaceTimer (index : Nat)
  /-- `write_impl` returns this. -/
  | write (index : Nat) (written : Bool)
  | removeUnsent (index : Nat)
  /-- A response comes in. -/
  | invoke (msg : ProxyMsg)
  /-- The waits of the timer are completed. -/
  | complete (error : WaitError)
  | handle (wait : Wait) (error : WaitError)
  /-- The worker of the timer manager runs a task that has expired. -/
  | timeout
deriving DecidableEq

/-- A `CallbackProxy` and the calls of any number of threads. The callback of a call is known by the
place of the call. -/
structure CallbackCalls where
  proxy : CallbackProxy Nat
  calls : List CallbackCall
  /-- The callbacks that have been called. -/
  invoked : List (Nat × Invocation)

namespace CallbackCalls

def construct : CallbackCalls := ⟨.construct, [], []⟩

def move (state : CallbackCalls) (index : Nat) (pc : CallPc) : CallbackCalls :=
  { state with calls := state.calls.modify index fun call => { call with pc } }

/-- A response, a timeout or a failed send of this request has been handled. -/
def handled (state : CallbackCalls) (reqId : UInt32)
    (result : CallbackProxy Nat × Option (Nat × Invocation)) : CallbackCalls :=
  { proxy := result.1
    calls := state.calls.map (CallbackCall.answer reqId)
    invoked := state.invoked ++ result.2.toList }

def timer (state : CallbackCalls) (action : TimerManager.Action) : Option CallbackCalls :=
  (state.proxy.deadlineTimer.next action).map fun deadlineTimer =>
    { state with proxy := { state.proxy with deadlineTimer } }

/-- The worker takes the first task. -/
def takeTask (state : CallbackCalls) (tasks : List (Nat × Int)) : CallbackProxy Nat :=
  let manager := state.proxy.deadlineTimer
  { state.proxy with
    deadlineTimer := { manager with timerQueue := { manager.timerQueue with taskPool := tasks } } }

/-- The next step of a call. -/
def step (state : CallbackCalls) (index : Nat) (call : CallbackCall) :
    CallbackAction → Option CallbackCalls
  | .registerTimer _ overtime now =>
    if call.pc = .registersTimer then
      let (proxy, timerId) := state.proxy.insertTimerRegister overtime now call.reqId
      some ({ state with proxy }.move index (.emplacesTimer timerId))
    else none
  | .emplaceTimer _ =>
    match call.pc with
    | .emplacesTimer timerId =>
      some ({ state with proxy := state.proxy.insertTimerEmplace call.sessionId timerId call.reqId }.move index .writes)
    | _ => none
  | .write _ written =>
    if call.pc = .writes then some (state.move index (if written then .returned else .removes)) else none
  | .removeUnsent _ =>
    if call.pc = .removes then
      some ((state.handled call.reqId (state.proxy.remove call.reqId .sendError)).move index .returned)
    else none
  | _ => none

def next (state : CallbackCalls) : CallbackAction → Option CallbackCalls
  | .insert sessionId =>
    let (proxy, reqId) := state.proxy.insert state.calls.length
    some { state with proxy, calls := state.calls ++ [⟨sessionId, reqId, .registersTimer, false⟩] }
  | .registerTimer index overtime now =>
    state.calls[index]?.bind fun call => state.step index call (.registerTimer index overtime now)
  | .emplaceTimer index => state.calls[index]?.bind fun call =>
    state.step index call (.emplaceTimer index)
  | .write index written => state.calls[index]?.bind fun call =>
    state.step index call (.write index written)
  | .removeUnsent index => state.calls[index]?.bind fun call =>
    state.step index call (.removeUnsent index)
  | .invoke msg => some (state.handled msg.head.reqId (state.proxy.invoke msg))
  | .complete error => state.timer (.complete error)
  | .handle wait error => state.timer (.handle wait error)
  | .timeout =>
    match state.proxy.deadlineTimer.timerQueue.taskPool with
    | [] => none
    | (address, _) :: tasks =>
      let reqId := state.proxy.captured address
      some (state.handled reqId ((state.takeTask tasks).remove reqId .timeout))

end CallbackCalls

end BTool.BoostNet
