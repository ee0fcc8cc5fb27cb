import BTool.BoostNet.CallbackProxy
import BTool.Foundation.Transition

/-! The mutex of a `CallbackProxy`, which `invoke` and `remove` hold while they call a callback. A
callback may issue calls of its own, and each of them takes the mutex again in `insert`. -/

namespace BTool.BoostNet

open BTool.Timer BTool.Foundation BTool.Foundation.Path

/-- A callback, by the sessions and the callbacks of the calls that it issues when it is called. -/
inductive UserCallback where
  | node (issues : Invocation → List (UInt64 × UserCallback))

def UserCallback.issues : UserCallback → Invocation → List (UInt64 × UserCallback)
  | .node issues => issues

/-- A function that a thread has entered, and where it is in it. -/
inductive CallFrame where
  | inserts (sessionId : UInt64) (callback : UserCallback)
  | registersTimer (sessionId : UInt64) (reqId : UInt32)
  | emplacesTimer (sessionId : UInt64) (timerId : Nat) (reqId : UInt32)
  | writes (reqId : UInt32)
  | removes (reqId : UInt32) (status : MsgStatus)
  | invokes (msg : ProxyMsg)
  /-- `invoke` or `remove` calls the callback of the request, which has these calls left to issue. -/
  | runs (reqId : UInt32) (issues : List (UInt64 × UserCallback))

namespace CallFrame

/-- The function is about to take the mutex. -/
def Locks : CallFrame → Prop
  | .inserts _ _ => True
  | .registersTimer _ _ => False
  | .emplacesTimer _ _ _ => True
  | .writes _ => False
  | .removes _ _ => True
  | .invokes _ => True
  | .runs _ _ => False

instance (frame : CallFrame) : Decidable frame.Locks := by
  cases frame <;> unfold Locks <;> infer_instance

end CallFrame

inductive ThreadAction (Thread : Type) where
  /-- A thread that does nothing else issues a call. -/
  | call (thread : Thread) (sessionId : UInt64) (callback : UserCallback)
  /-- A response comes in. -/
  | receive (thread : Thread) (msg : ProxyMsg)
  /-- The worker of the timer manager runs a task that has expired. -/
  | timeout (thread : Thread)
  | timer (action : TimerManager.Action)
  /-- A thread takes the mutex. It gives it back unless it calls a callback. -/
  | lock (thread : Thread)
  | registerTimer (thread : Thread) (overtime : UInt64) (now : Int)
  /-- `write_impl` returns this. -/
  | write (thread : Thread) (written : Bool)
  /-- A callback issues its next call, or returns. -/
  | proceed (thread : Thread)

/-- The thread that takes the step. -/
def ThreadAction.thread? {Thread : Type} : ThreadAction Thread → Option Thread
  | .call thread _ _ => some thread
  | .receive thread _ => some thread
  | .timeout thread => some thread
  | .timer _ => none
  | .lock thread => some thread
  | .registerTimer thread _ _ => some thread
  | .write thread _ => some thread
  | .proceed thread => some thread

/-- A `CallbackProxy` with its mutex and the functions that the threads have entered, the last one
first. -/
structure ProxyThreads (Thread : Type) where
  mtx : Option Thread
  proxy : CallbackProxy UserCallback
  frames : Thread → List CallFrame

namespace ProxyThreads

variable {Thread : Type} [DecidableEq Thread]

def construct : ProxyThreads Thread := ⟨none, .construct, fun _ => []⟩

def setFrames (state : ProxyThreads Thread) (thread : Thread) (stack : List CallFrame) :
    ProxyThreads Thread :=
  { state with frames := Function.update state.frames thread stack }

/-- A thread that is in none of the functions enters one. -/
def enter (state : ProxyThreads Thread) (thread : Thread) (frame : CallFrame) :
    Option (ProxyThreads Thread) :=
  match state.frames thread with
  | [] => some (state.setFrames thread [frame])
  | _ :: _ => none

/-- What the callback of a request is called with. -/
def invocation (state : ProxyThreads Thread) (reqId : UInt32) (status : MsgStatus)
    (msg : Option ProxyMsg) : Invocation :=
  ⟨(state.proxy.removeTimer reqId).2.sessionId, status, msg⟩

/-- `invoke` and `remove` as far as the callback. -/
def answer (state : ProxyThreads Thread) (thread : Thread) (reqId : UInt32) (status : MsgStatus)
    (msg : Option ProxyMsg) (stack : List CallFrame) : ProxyThreads Thread :=
  let proxy := (state.proxy.removeTimer reqId).1
  match proxy.callbackMap reqId with
  | none => { state with proxy }.setFrames thread stack
  | some callback => { state with mtx := some thread, proxy }.setFrames thread
    (.runs reqId (callback.issues (state.invocation reqId status msg)) :: stack)

/-- What a thread does with the mutex. -/
def locked (state : ProxyThreads Thread) (thread : Thread) :
    List CallFrame → Option (ProxyThreads Thread)
  | .inserts sessionId callback :: stack =>
    let (proxy, reqId) := state.proxy.insert callback
    some ({ state with proxy }.setFrames thread (.registersTimer sessionId reqId :: stack))
  | .emplacesTimer sessionId timerId reqId :: stack =>
    let proxy := state.proxy.insertTimerEmplace sessionId timerId reqId
    some ({ state with proxy }.setFrames thread (.writes reqId :: stack))
  | .removes reqId status :: stack => some (state.answer thread reqId status none stack)
  | .invokes msg :: stack => some (state.answer thread msg.head.reqId .ok (some msg) stack)
  | _ => none

def next (state : ProxyThreads Thread) : ThreadAction Thread → Option (ProxyThreads Thread)
  | .call thread sessionId callback => state.enter thread (.inserts sessionId callback)
  | .receive thread msg => state.enter thread (.invokes msg)
  | .timeout thread =>
    let manager := state.proxy.deadlineTimer
    match manager.timerQueue.taskPool with
    | [] => none
    | (address, _) :: taskPool =>
      let deadlineTimer := { manager with timerQueue := { manager.timerQueue with taskPool } }
      { state with proxy := { state.proxy with deadlineTimer } }.enter thread
        (.removes (state.proxy.captured address) .timeout)
  | .timer action => (state.proxy.deadlineTimer.next action).map fun deadlineTimer =>
    { state with proxy := { state.proxy with deadlineTimer } }
  | .lock thread => if state.mtx = none then state.locked thread (state.frames thread) else none
  | .registerTimer thread overtime now =>
    match state.frames thread with
    | .registersTimer sessionId reqId :: stack =>
      let (proxy, timerId) := state.proxy.insertTimerRegister overtime now reqId
      some ({ state with proxy }.setFrames thread (.emplacesTimer sessionId timerId reqId :: stack))
    | _ => none
  | .write thread written =>
    match state.frames thread with
    | .writes reqId :: stack =>
      some (state.setFrames thread (if written then stack else .removes reqId .sendError :: stack))
    | _ => none
  | .proceed thread =>
    match state.frames thread with
    | .runs reqId [] :: stack =>
      let callbackMap := Function.update state.proxy.callbackMap reqId none
      some ({ state with mtx := none, proxy := { state.proxy with callbackMap } }.setFrames thread stack)
    | .runs reqId ((sessionId, callback) :: issues) :: stack =>
      some (state.setFrames thread (.inserts sessionId callback :: .runs reqId issues :: stack))
    | _ => none

/-- The function that the thread is in is about to take the mutex. -/
def Locks (state : ProxyThreads Thread) (thread : Thread) : Prop :=
  ∃ frame ∈ (state.frames thread).head?, frame.Locks

instance (state : ProxyThreads Thread) (thread : Thread) : Decidable (state.Locks thread) := by
  unfold Locks
  infer_instance

/-- Who has the mutex is not about to take it, and gives it back by steps of its own. -/
structure Completes (state : ProxyThreads Thread) : Prop where
  apart : ∀ thread, state.mtx = some thread → ¬ state.Locks thread
  returns : ∀ thread, state.mtx = some thread → ∃ steps after,
    (∀ step ∈ steps, step.thread? = some thread) ∧ Path (Taken next) state steps after ∧
      after.mtx = none

/-- The callback of this request issues no calls when it is called. -/
def Quiet (state : ProxyThreads Thread) (reqId : UInt32) (status : MsgStatus) (msg : Option ProxyMsg) :
    Prop :=
  ∀ callback ∈ state.proxy.callbackMap reqId, callback.issues (state.invocation reqId status msg) = []

/-- A callback that a response, a timeout or a failed send calls issues no calls. -/
def Silent (state : ProxyThreads Thread) : ThreadAction Thread → Prop
  | .lock thread =>
    match state.frames thread with
    | .removes reqId status :: _ => state.Quiet reqId status none
    | .invokes msg :: _ => state.Quiet msg.head.reqId .ok (some msg)
    | _ => True
  | _ => True

variable {state before after last : ProxyThreads Thread} {step : ThreadAction Thread}
  {steps : List (ThreadAction Thread)} {thread : Thread} {reqId : UInt32} {status : MsgStatus}
  {msg : Option ProxyMsg} {stack : List CallFrame}

/-- Who has the mutex calls a callback that has no calls left to issue. -/
def Holding (state : ProxyThreads Thread) : Prop :=
  ∀ thread, state.mtx = some thread → ∃ reqId stack, state.frames thread = .runs reqId [] :: stack

/-- A thread that has the mutex and is to take it again, or has a callback that is to. -/
def Stuck (state : ProxyThreads Thread) (thread : Thread) : Prop :=
  state.mtx = some thread ∧ ∃ frame stack, state.frames thread = frame :: stack ∧
    (frame.Locks ∨ ∃ reqId call issues, frame = .runs reqId (call :: issues))

/-- A callback that has issued its calls returns, and is erased. -/
private theorem proceed_last (here : state.frames thread = .runs reqId [] :: stack) :
    state.next (.proceed thread) = some ({ state with
      mtx := none
      proxy := { state.proxy with
        callbackMap := Function.update state.proxy.callbackMap reqId none } }.setFrames thread
          stack) := by
  simp only [next, here]

theorem Holding.completes (holding : state.Holding) : state.Completes := by
  refine ⟨fun thread holds locks => ?_, fun thread holds => ?_⟩
  · obtain ⟨reqId, stack, here⟩ := holding thread holds
    obtain ⟨frame, top, locks⟩ := locks
    rw [here] at top
    cases top
    exact locks
  · obtain ⟨reqId, stack, here⟩ := holding thread holds
    have own : ∀ step ∈ [ThreadAction.proceed thread], step.thread? = some thread := by
      simp [ThreadAction.thread?]
    exact ⟨[.proceed thread], _, own, .cons (proceed_last here) (.nil _), rfl⟩

omit [DecidableEq Thread] in
theorem Holding.of_free (free : state.mtx = none) : state.Holding := by
  intro thread holds
  rw [free] at holds
  cases holds

/-- A thread that does not return from a callback leaves the mutex to who has it. -/
theorem Holding.setFrames (holding : before.Holding)
    {stack' : List CallFrame} (here : before.frames thread = stack')
    (elsewhere : ∀ reqId rest, stack' ≠ .runs reqId [] :: rest)
    (mtx : after.mtx = before.mtx)
    (frames : after.frames = Function.update before.frames thread stack) :
    after.Holding := by
  intro other holds
  rw [mtx] at holds
  obtain ⟨reqId, rest, runs⟩ := holding other holds
  refine ⟨reqId, rest, ?_⟩
  have apart : other ≠ thread := by
    rintro rfl
    exact elsewhere reqId rest (here.symm.trans runs)
  rw [frames, Function.update_of_ne apart, runs]

/-- A stuck thread is stuck after each of its steps. -/
private theorem Stuck.next (stuck : before.Stuck thread) (own : step.thread? = some thread)
    (taken : before.next step = some after) : after.Stuck thread := by
  obtain ⟨holds, frame, stack, here, why⟩ := stuck
  cases step with
  | timer action => cases own
  | call other sessionId callback =>
    cases own
    simp only [ProxyThreads.next, enter, here] at taken
    cases taken
  | receive other msg =>
    cases own
    simp only [ProxyThreads.next, enter, here] at taken
    cases taken
  | timeout other =>
    cases own
    simp only [ProxyThreads.next] at taken
    split at taken
    · cases taken
    · simp only [enter, here] at taken
      cases taken
  | lock other =>
    cases own
    simp only [ProxyThreads.next, holds] at taken
    cases taken
  | registerTimer other overtime now =>
    cases own
    simp only [ProxyThreads.next, here] at taken
    split at taken
    · rename_i same
      cases same
      exact absurd why (by simp [CallFrame.Locks])
    · cases taken
  | write other written =>
    cases own
    simp only [ProxyThreads.next, here] at taken
    split at taken
    · rename_i same
      cases same
      exact absurd why (by simp [CallFrame.Locks])
    · cases taken
  | proceed other =>
    cases own
    rcases why with locks | ⟨reqId, ⟨sessionId, callback⟩, issues, rfl⟩
    · simp only [ProxyThreads.next, here] at taken
      split at taken
      · rename_i same
        cases same
        exact locks.elim
      · rename_i same
        cases same
        exact locks.elim
      · cases taken
    · simp only [ProxyThreads.next, here] at taken
      cases taken
      exact ⟨holds, .inserts sessionId callback, .runs reqId issues :: stack,
        Function.update_self .., .inl trivial⟩

private theorem Stuck.not_completes (stuck : state.Stuck thread) : ¬ state.Completes := by
  intro completes
  obtain ⟨steps, after, own, path, free⟩ := completes.returns thread stuck.1
  have still := (path.guard own).invariant (fun state => state.Stuck thread)
    (fun _ _ _ stuck step => stuck.next step.1 step.2) stuck
  rw [still.1] at free
  cases free

private theorem holding_answer (free : state.mtx = none) (quiet : state.Quiet reqId status msg) :
    (state.answer thread reqId status msg stack).Holding := by
  unfold answer
  have same := (CallbackProxy.removeTimer_spec state.proxy reqId).2.1
  cases found : state.proxy.callbackMap reqId with
  | none =>
    simp only [same, found]
    exact .of_free free
  | some callback =>
    simp only [same, found, quiet callback found]
    intro holder holds
    obtain rfl := Option.some.inj holds
    exact ⟨reqId, stack, Function.update_self ..⟩

private theorem stuck_answer (loud : ¬ state.Quiet reqId status msg) :
    (state.answer thread reqId status msg stack).Stuck thread := by
  unfold answer
  have same := (CallbackProxy.removeTimer_spec state.proxy reqId).2.1
  simp only [Quiet, Option.mem_def, not_forall] at loud
  obtain ⟨callback, found, issues⟩ := loud
  obtain ⟨call, rest, isCons⟩ := List.exists_cons_of_ne_nil issues
  simp only [same, found, isCons]
  exact ⟨rfl, _, stack, Function.update_self .., .inr ⟨reqId, call, rest, rfl⟩⟩

/-- With a quiet callback `invoke` and `remove` come to do what `finish` does. -/
theorem finish_of_quiet (free : state.mtx = none) (quiet : state.Quiet reqId status msg) :
    ∃ steps after, Path (Taken next) (state.answer thread reqId status msg stack) steps after ∧
      after.mtx = none ∧ after.frames thread = stack ∧
        after.proxy = (state.proxy.finish reqId status msg).1 := by
  unfold answer CallbackProxy.finish
  have same := (CallbackProxy.removeTimer_spec state.proxy reqId).2.1
  cases found : state.proxy.callbackMap reqId with
  | none =>
    simp only [same, found]
    exact ⟨[], _, .nil _, free, Function.update_self .., rfl⟩
  | some callback =>
    simp only [same, found, quiet callback found]
    have step := proceed_last (Function.update_self thread (.runs reqId [] :: stack) state.frames :
      ({ state with mtx := some thread, proxy := (state.proxy.removeTimer reqId).1 }.setFrames thread
        (.runs reqId [] :: stack)).frames thread = _)
    refine ⟨[.proceed thread], _, .cons step (.nil _), rfl, Function.update_self .., ?_⟩
    simp only [setFrames, same]

/-- After `invoke` or `remove` has taken the mutex it completes if and only if the callback is quiet. -/
private theorem completes_answer (free : state.mtx = none) :
    ((state.answer thread reqId status msg stack).Completes ↔ state.Quiet reqId status msg) ∧
      ((state.answer thread reqId status msg stack).Completes →
        (state.answer thread reqId status msg stack).Holding) := by
  by_cases quiet : state.Quiet reqId status msg
  · have holding : (state.answer thread reqId status msg stack).Holding := holding_answer free quiet
    exact ⟨iff_of_true holding.completes quiet, fun _ => holding⟩
  · have stuck : ¬ (state.answer thread reqId status msg stack).Completes :=
      (stuck_answer quiet).not_completes
    exact ⟨iff_of_false stuck quiet, fun completes => absurd completes stuck⟩

private theorem holding_enter {frame : CallFrame} (holding : before.Holding)
    (taken : before.enter thread frame = some after) : after.Holding := by
  unfold enter at taken
  split at taken
  · rename_i nothing
    cases taken
    exact holding.setFrames nothing nofun rfl rfl
  · cases taken

/-- A step from a state in which the mutex is given back ends in one if and only if it is silent. -/
private theorem completes_next (holding : before.Holding) (taken : before.next step = some after) :
    (after.Completes ↔ before.Silent step) ∧ (after.Completes → after.Holding) := by
  have kept (holding : after.Holding) (silent : before.Silent step) :
      (after.Completes ↔ before.Silent step) ∧ (after.Completes → after.Holding) :=
    ⟨iff_of_true holding.completes silent, fun _ => holding⟩
  cases step with
  | call other sessionId callback => exact kept (holding_enter holding taken) trivial
  | receive other msg => exact kept (holding_enter holding taken) trivial
  | timeout other =>
    simp only [next] at taken
    split at taken
    · cases taken
    · refine kept (holding_enter ?_ taken) trivial
      exact holding
  | timer action =>
    obtain ⟨deadlineTimer, _, rfl⟩ := Option.map_eq_some_iff.mp taken
    exact kept holding trivial
  | lock other =>
    simp only [next] at taken
    split at taken
    · rename_i free
      cases here : before.frames other with
      | nil =>
        rw [here] at taken
        cases taken
      | cons frame stack =>
        rw [here] at taken
        cases frame with
        | inserts sessionId callback =>
          cases taken
          exact kept (.of_free free) (by simp only [Silent, here])
        | registersTimer sessionId reqId => cases taken
        | emplacesTimer sessionId timerId reqId =>
          cases taken
          exact kept (.of_free free) (by simp only [Silent, here])
        | writes reqId => cases taken
        | removes reqId status =>
          cases taken
          simp only [Silent, here]
          exact completes_answer free
        | invokes msg =>
          cases taken
          simp only [Silent, here]
          exact completes_answer free
        | runs reqId issues => cases taken
    · cases taken
  | registerTimer other overtime now =>
    simp only [next] at taken
    split at taken
    · rename_i here
      cases taken
      exact kept (holding.setFrames here nofun rfl rfl) trivial
    · cases taken
  | write other written =>
    simp only [next] at taken
    split at taken
    · rename_i here
      cases taken
      exact kept (holding.setFrames here nofun rfl rfl) trivial
    · cases taken
  | proceed other =>
    simp only [next] at taken
    split at taken
    · cases taken
      exact kept (.of_free rfl) trivial
    · rename_i here
      cases taken
      exact kept (holding.setFrames here nofun rfl rfl) trivial
    · cases taken

/-- In a run no thread ever takes the mutex that it has, and who has it gives it back, if and only if
no callback that is called by `invoke` or `remove` issues a call. -/
theorem completes_iff_silent (path : Path (Taken next) construct steps last) :
    (∀ state, Visits (Taken next) construct steps state → state.Completes) ↔
      ∀ state step, Takes (Taken next) construct steps state step → state.Silent step := by
  have free : (construct : ProxyThreads Thread).Holding := .of_free rfl
  exact path.visits_iff_all_takes Holding
    (fun _ _ _ holding _ taken => completes_next holding taken) free.completes free

/-- A response whose callback issues nothing is handled by a thread of its own. -/
theorem completes_iff_silent_one_call :
    ∃ (steps : List (ThreadAction Bool)) (last : ProxyThreads Bool),
      Path (Taken next) construct steps last ∧
        ((∀ state, Visits (Taken next) construct steps state → state.Completes) ↔
          ∀ state step, Takes (Taken next) construct steps state step → state.Silent step) ∧
        last.mtx = none ∧ (last.proxy.callbackMap 1).isNone := by
  let response : ProxyMsg := ⟨[102], ⟨CommModel.rsponse, RpcModel.callback, 1, 1, 1⟩, [0]⟩
  let steps : List (ThreadAction Bool) :=
    [.call true 7 (.node fun _ => []), .lock true, .registerTimer true 1000 0, .lock true,
      .write true true, .receive false response, .lock false, .proceed false]
  have runs : ∃ last ∈ exec next construct steps, last.mtx = none ∧
      (last.proxy.callbackMap 1).isNone := by
    decide
  obtain ⟨last, run, free, gone⟩ := runs
  have path := exec_eq_some_iff.mp run
  exact ⟨steps, last, path, completes_iff_silent path, free, gone⟩

/-- The callback of a call issues another call. The thread that handles the response has the mutex and
waits for it. -/
theorem not_completes_nested_call :
    ∃ (steps : List (ThreadAction Bool)) (last : ProxyThreads Bool),
      Path (Taken next) construct steps last ∧ last.mtx = some false ∧ last.Locks false ∧
        ¬ ∀ state, Visits (Taken next) construct steps state → state.Completes := by
  let response : ProxyMsg := ⟨[102], ⟨CommModel.rsponse, RpcModel.callback, 1, 1, 1⟩, [0]⟩
  let steps : List (ThreadAction Bool) :=
    [.call true 7 (.node fun _ => [(7, .node fun _ => [])]), .lock true, .registerTimer true 1000 0,
      .lock true, .write true true, .receive false response, .lock false, .proceed false]
  have runs : ∃ last ∈ exec next construct steps, last.mtx = some false ∧ last.Locks false := by
    decide
  obtain ⟨last, run, holds, locks⟩ := runs
  have path := exec_eq_some_iff.mp run
  refine ⟨steps, last, path, holds, locks, fun completes => ?_⟩
  exact (completes last ⟨steps, [], (List.append_nil _).symm, path⟩).apart false holds locks

end ProxyThreads

end BTool.BoostNet
