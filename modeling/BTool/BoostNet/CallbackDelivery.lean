import BTool.BoostNet.CallbackProxy
import BTool.Foundation.KeyedList
import BTool.Foundation.Transition

/-! Every callback is called once, with the session of its request, in the runs that handle nothing for a
request whose timer has not been entered, and that do not use the id of a request again while its
callback waits. -/

namespace BTool.BoostNet

open BTool.Foundation BTool.Timer

namespace CallbackCalls

variable {state after : CallbackCalls} {action : CallbackAction} {index place : Nat}
    {call other : CallbackCall} {reqId : UInt32}
  {pc : CallPc} {status : MsgStatus} {msg : Option ProxyMsg}

/-- No call with this request id has its timer still to be entered. -/
def Entered (state : CallbackCalls) (reqId : UInt32) : Prop :=
  ∀ call ∈ state.calls, call.reqId = reqId → ¬ call.pc.Early

/-- The next id is not that of a callback that waits, and what is handled has been entered. -/
def Careful (state : CallbackCalls) : CallbackAction → Prop
  | .insert _ => state.proxy.callbackMap (state.proxy.curReqId + 1) = none
  | .removeUnsent index => ∀ call ∈ state.calls[index]?, state.Entered call.reqId
  | .invoke msg => state.Entered msg.head.reqId
  | .timeout =>
    ∀ task ∈ state.proxy.deadlineTimer.timerQueue.taskPool.head?,
      state.Entered (state.proxy.captured task.1)
  | _ => True

instance : Decidable (state.Entered reqId) := by
  unfold Entered
  infer_instance

instance : Decidable (state.Careful action) := by
  cases action <;> unfold Careful <;> infer_instance

/-- The call at this place. -/
def At (state : CallbackCalls) (index : Nat) (call : CallbackCall) : Prop :=
  state.calls[index]? = some call

theorem At.unique (here : state.At index call) (there : state.At index other) : other = call :=
  Option.some.inj (there.symm.trans here)

theorem at_move : (state.move index pc).At place other ↔
    ∃ call, state.At place call ∧ other = if place = index then { call with pc } else call := by
  unfold At move
  rw [List.getElem?_modify]
  by_cases same : index = place
  · simp [same, eq_comm]
  · simp [same, Ne.symm same, eq_comm]

theorem at_handled {result : CallbackProxy Nat × Option (Nat × Invocation)} :
    (state.handled reqId result).At place other ↔ ∃ call, state.At place call ∧
    other = call.answer reqId := by
  simp [At, handled, eq_comm]

/-- What is kept in every careful run. -/
structure Attended (state : CallbackCalls) : Prop where
  waits : ∀ reqId index, state.proxy.callbackMap reqId = some index ↔
    ∃ call, state.At index call ∧ call.reqId = reqId ∧ call.answered = false
  entered : ∀ reqId sessionTimer, state.proxy.overtimeReqs reqId = some sessionTimer →
    ∃ index call, state.At index call ∧ call.reqId = reqId ∧ call.answered = false ∧ ¬ call.pc.Early
  enters : ∀ index call, state.At index call → call.answered = false → ¬ call.pc.Early →
    ∃ timerId, state.proxy.overtimeReqs call.reqId = some ⟨call.sessionId, timerId⟩
  early : ∀ index call, state.At index call → call.pc.Early → call.answered = false
  older : ∀ first second call other, first < second → state.At first call → state.At second other →
    call.reqId = other.reqId → call.answered = true
  once : ∀ index call, state.At index call → call.answered = true →
    ∃ status msg, ofKey index state.invoked = [⟨call.sessionId, status, msg⟩]
  never : ∀ index, (∀ call, state.At index call → call.answered = false) →
    ofKey index state.invoked = []

theorem construct_attended : construct.Attended := by
  constructor <;> simp [construct, CallbackProxy.construct, At]

theorem Attended.frame (attended : state.Attended) {proxy : CallbackProxy Nat}
    (waits : proxy.callbackMap = state.proxy.callbackMap)
    (entered : proxy.overtimeReqs = state.proxy.overtimeReqs) :
    Attended { state with proxy } := by
  obtain ⟨waiting, entering, enters, early, older, once, never⟩ := attended
  rw [← waits] at waiting
  rw [← entered] at entering enters
  exact ⟨waiting, entering, enters, early, older, once, never⟩

/-- Only one call of a request has not been answered. -/
theorem Attended.alone (attended : state.Attended) (here : state.At index call)
    (there : state.At place other) (same : other.reqId = call.reqId)
    (open' : call.answered = false) (open'' : other.answered = false) : place = index := by
  have holds := (attended.waits call.reqId index).mpr ⟨call, here, rfl, open'⟩
  have holds' := (attended.waits call.reqId place).mpr ⟨other, there, same, open''⟩
  exact Option.some.inj (holds'.symm.trans holds)

theorem Attended.absent (attended : state.Attended) (here : state.At index call)
    (early : call.pc.Early) : state.proxy.overtimeReqs call.reqId = none := by
  by_contra present
  obtain ⟨sessionTimer, entry⟩ := Option.ne_none_iff_exists'.mp present
  obtain ⟨place, other, there, same, open', late⟩ := attended.entered call.reqId sessionTimer entry
  obtain rfl := attended.alone here there same (attended.early index call here early) open'
  obtain rfl : other = call := here.unique there
  exact late early

/-- A call goes on, and the entry of its request is what it is to be at the new place. -/
theorem Attended.advance (attended : state.Attended) (here : state.At index call)
    {proxy : CallbackProxy Nat} (waits : proxy.callbackMap = state.proxy.callbackMap)
    (others : ∀ reqId, reqId ≠ call.reqId ∨ call.answered = true →
      proxy.overtimeReqs reqId = state.proxy.overtimeReqs reqId)
    (late : call.answered = false → ¬ pc.Early →
      ∃ timerId, proxy.overtimeReqs call.reqId = some ⟨call.sessionId, timerId⟩)
    (early : pc.Early → call.answered = false ∧ proxy.overtimeReqs call.reqId = none) :
    Attended ({ state with proxy }.move index pc) := by
  have back {place : Nat} {other : CallbackCall} (moved : ({ state with proxy }.move index pc).At place other) :
      ∃ before, state.At place before ∧ before.sessionId = other.sessionId ∧
        before.reqId = other.reqId ∧
        before.answered = other.answered ∧ other.pc = if place = index then pc else before.pc := by
    obtain ⟨before, there, rfl⟩ := at_move.mp moved
    refine ⟨before, there, ?_⟩
    split <;> exact ⟨rfl, rfl, rfl, rfl⟩
  have forth {place : Nat} {before : CallbackCall} (there : state.At place before) :
      ∃ other, ({ state with proxy }.move index pc).At place other ∧ before.reqId = other.reqId ∧
        before.answered = other.answered ∧ other.pc = if place = index then pc else before.pc := by
    refine ⟨_, at_move.mpr ⟨before, there, rfl⟩, ?_⟩
    split <;> exact ⟨rfl, rfl, rfl⟩
  refine ⟨fun reqId place => ?_, fun reqId sessionTimer entry => ?_,
    fun place other there open' apart => ?_, fun place other there now => ?_,
    fun first second one two before there there' => ?_, fun place other there => ?_,
    fun place all => ?_⟩
  · change proxy.callbackMap reqId = some place ↔ _
    rw [waits, attended.waits reqId place]
    constructor
    · intro ⟨before, there, id, answered⟩
      obtain ⟨other, moved, id', answered', _⟩ := forth there
      exact ⟨other, moved, id' ▸ id, answered' ▸ answered⟩
    · intro ⟨other, moved, id, answered⟩
      obtain ⟨before, there, _, id', answered', _⟩ := back moved
      exact ⟨before, there, id' ▸ id, answered' ▸ answered⟩
  · change proxy.overtimeReqs reqId = some sessionTimer at entry
    by_cases same : reqId = call.reqId ∧ call.answered = false
    · obtain ⟨rfl, open'⟩ := same
      obtain ⟨other, moved, id, answered, place⟩ := forth here
      refine ⟨index, other, moved, id.symm, answered.symm.trans open', ?_⟩
      rw [place, if_pos rfl]
      intro now
      cases (early now).2.symm.trans entry
    · have kept : reqId ≠ call.reqId ∨ call.answered = true := by
        rwa [not_and_or, Bool.not_eq_false] at same
      rw [others reqId kept] at entry
      obtain ⟨place, before, there, id, open', apart⟩ := attended.entered reqId sessionTimer entry
      obtain ⟨other, moved, id', answered, pc'⟩ := forth there
      refine ⟨place, other, moved, id'.symm.trans id, answered.symm.trans open', ?_⟩
      have elsewhere : place ≠ index := by
        rintro rfl
        obtain rfl : before = call := here.unique there
        exact same ⟨id.symm, open'⟩
      rwa [pc', if_neg elsewhere]
  · change ∃ timerId, proxy.overtimeReqs other.reqId = _
    obtain ⟨before, was, session, id, answered, pc'⟩ := back there
    rw [← answered] at open'
    rw [← id, ← session]
    by_cases mine : place = index
    · subst mine
      obtain rfl : before = call := here.unique was
      rw [pc', if_pos rfl] at apart
      exact late open' apart
    · rw [pc', if_neg mine] at apart
      have kept : before.reqId ≠ call.reqId ∨ call.answered = true := by
        by_contra both
        rw [not_or, not_not, Bool.not_eq_true] at both
        exact mine (attended.alone here was both.1 both.2 open')
      rw [others before.reqId kept]
      exact attended.enters place before was open' apart
  · obtain ⟨before, was, _, _, answered, pc'⟩ := back there
    rw [← answered]
    by_cases mine : place = index
    · subst mine
      obtain rfl : before = call := here.unique was
      rw [pc', if_pos rfl] at now
      exact (early now).1
    · rw [pc', if_neg mine] at now
      exact attended.early place before was now
  · obtain ⟨was, at', _, id, answered, _⟩ := back there
    obtain ⟨was', at'', _, id', _, _⟩ := back there'
    rw [← id, ← id', ← answered]
    exact attended.older first second was was' before at' at''
  · obtain ⟨before, was, session, _, answered, _⟩ := back there
    rw [← answered, ← session]
    exact attended.once place before was
  · refine attended.never place fun before there => ?_
    obtain ⟨other, moved, _, answered, _⟩ := forth there
    exact answered.trans (all other moved)

/-- A call goes on to a place at which its timer is entered as it was. -/
theorem Attended.move (attended : state.Attended) (here : state.At index call)
    (same : pc.Early ↔ call.pc.Early) : (state.move index pc).Attended := by
  apply attended.advance here rfl (fun _ _ => rfl)
  · exact fun open' late => attended.enters index call here open' fun early => late (same.mpr early)
  · intro early
    have early := same.mp early
    exact ⟨attended.early index call here early, attended.absent here early⟩

/-- The timer of a request is entered. -/
theorem Attended.enter (attended : state.Attended) (here : state.At index call)
    (early : call.pc.Early) (timerId : Nat) :
    Attended ({ state with
      proxy := state.proxy.insertTimerEmplace call.sessionId timerId call.reqId }.move index .writes) := by
  have open' := attended.early index call here early
  have map : (state.proxy.insertTimerEmplace call.sessionId timerId call.reqId).overtimeReqs =
      Function.update state.proxy.overtimeReqs call.reqId (some ⟨call.sessionId, timerId⟩) := by
    change emplace state.proxy.overtimeReqs call.reqId _ = _
    rw [emplace, if_neg (by rw [attended.absent here early]; nofun)]
  have callbacks : (state.proxy.insertTimerEmplace call.sessionId timerId call.reqId).callbackMap =
      state.proxy.callbackMap := rfl
  apply attended.advance here callbacks
  · rintro reqId (apart | answered)
    · rw [map, Function.update_of_ne apart]
    · cases open'.symm.trans answered
  · intro _ _
    rw [map, Function.update_self]
    exact ⟨timerId, rfl⟩
  · exact fun never => never.elim

theorem answered_answer_iff :
    (call.answer reqId).answered = false ↔ call.answered = false ∧ call.reqId ≠ reqId := by
  simp [CallbackCall.answer]

/-- A response, a timeout or a failed send of a request that has been entered. -/
theorem Attended.handled (attended : state.Attended) (ready : state.Entered reqId) :
    (state.handled reqId (state.proxy.finish reqId status msg)).Attended := by
  obtain ⟨entries, callbacks, found⟩ := state.proxy.finish_spec reqId status msg
  have unanswered {place : Nat} {before : CallbackCall} (there : state.At place before)
      (open' : (before.answer reqId).answered = false) :
      before.answered = false ∧ before.reqId ≠ reqId :=
    answered_answer_iff.mp open'
  -- Only the callback of this request is called, and its call has not been answered.
  have log (place : Nat) :
    ofKey place (state.handled reqId (state.proxy.finish reqId status msg)).invoked =
      ofKey place state.invoked ++ if state.proxy.callbackMap reqId = some place then
        [⟨(state.proxy.overtimeReqs reqId).elim 0 SessionTimer.sessionId, status, msg⟩] else [] := by
    rw [CallbackCalls.handled, ofKey_append, found]
    cases state.proxy.callbackMap reqId with
    | none => simp
    | some holder => simp [ofKey_cons]
  refine ⟨fun id place => ?_, fun id sessionTimer entry => ?_,
    fun place call there open' late => ?_, fun place call there early => ?_,
    fun first second one two before there there' same => ?_,
    fun place call there answered => ?_, fun place all => ?_⟩
  · change (state.proxy.finish reqId status msg).1.callbackMap id = some place ↔ _
    rw [callbacks]
    by_cases same : id = reqId
    · subst same
      rw [Function.update_self]
      refine iff_of_false (by simp) ?_
      rintro ⟨call, there, is, open'⟩
      obtain ⟨before, was, rfl⟩ := at_handled.mp there
      exact (unanswered was open').2 is
    · rw [Function.update_of_ne same, attended.waits]
      constructor
      · rintro ⟨before, there, is, open'⟩
        refine ⟨before.answer reqId, at_handled.mpr ⟨before, there, rfl⟩, is, ?_⟩
        exact answered_answer_iff.mpr ⟨open', fun other => same (is.symm.trans other)⟩
      · rintro ⟨call, there, is, open'⟩
        obtain ⟨before, was, rfl⟩ := at_handled.mp there
        exact ⟨before, was, is, (unanswered was open').1⟩
  · change (state.proxy.finish reqId status msg).1.overtimeReqs id = some sessionTimer at entry
    rw [entries] at entry
    by_cases same : id = reqId
    · rw [same, Function.update_self] at entry
      cases entry
    · rw [Function.update_of_ne same] at entry
      obtain ⟨place, before, there, is, open', late⟩ := attended.entered id sessionTimer entry
      refine ⟨place, before.answer reqId, at_handled.mpr ⟨before, there, rfl⟩, is, ?_, late⟩
      exact answered_answer_iff.mpr ⟨open', fun other => same (is.symm.trans other)⟩
  · obtain ⟨before, was, rfl⟩ := at_handled.mp there
    obtain ⟨open', apart⟩ := unanswered was open'
    change ∃ timerId, (state.proxy.finish reqId status msg).1.overtimeReqs before.reqId = _
    rw [entries, Function.update_of_ne apart]
    exact attended.enters place before was open' late
  · obtain ⟨before, was, rfl⟩ := at_handled.mp there
    refine answered_answer_iff.mpr ⟨attended.early place before was early, fun same => ?_⟩
    exact ready before (List.mem_of_getElem? was) same early
  · obtain ⟨was, here, rfl⟩ := at_handled.mp there
    obtain ⟨was', here', rfl⟩ := at_handled.mp there'
    have answered := attended.older first second was was' before here here' same
    simp [CallbackCall.answer, answered]
  · obtain ⟨before, was, rfl⟩ := at_handled.mp there
    rw [log]
    cases done : before.answered with
    | true =>
      have other : state.proxy.callbackMap reqId ≠ some place := by
        intro holds
        obtain ⟨call, is, _, open'⟩ := (attended.waits reqId place).mp holds
        obtain rfl : call = before := was.unique is
        cases done.symm.trans open'
      rw [if_neg other, List.append_nil]
      exact attended.once place before was done
    | false =>
      have mine : before.reqId = reqId := by simpa [CallbackCall.answer, done] using answered
      have late : ¬ before.pc.Early := ready before (List.mem_of_getElem? was) mine
      obtain ⟨timerId, entry⟩ := attended.enters place before was done late
      have nothing : ofKey place state.invoked = [] := by
        refine attended.never place fun call there => ?_
        obtain rfl : call = before := was.unique there
        exact done
      rw [mine] at entry
      rw [if_pos ((attended.waits reqId place).mpr ⟨before, was, mine, done⟩), nothing, entry]
      exact ⟨status, msg, rfl⟩
  · have open' (call : CallbackCall) (there : state.At place call) :
        call.answered = false ∧ call.reqId ≠ reqId :=
      unanswered there (all _ (at_handled.mpr ⟨call, there, rfl⟩))
    have other : state.proxy.callbackMap reqId ≠ some place := by
      intro holds
      obtain ⟨call, is, mine, _⟩ := (attended.waits reqId place).mp holds
      exact (open' call is).2 mine
    rw [log, if_neg other, List.append_nil]
    exact attended.never place fun call there => (open' call there).1

/-- The callback of a request whose id does not wait. -/
theorem Attended.insert (attended : state.Attended)
    (free : state.proxy.callbackMap (state.proxy.curReqId + 1) = none) (sessionId : UInt64) :
    Attended
      { state with
        proxy := (state.proxy.insert state.calls.length).1
        calls := state.calls ++ [⟨sessionId, state.proxy.curReqId + 1, .registersTimer, false⟩] } := by
  let id := state.proxy.curReqId + 1
  let added : CallbackCall := ⟨sessionId, id, .registersTimer, false⟩
  let inserted : CallbackCalls :=
    { state with
      proxy := (state.proxy.insert state.calls.length).1
      calls := state.calls ++ [added] }
  have map :
      inserted.proxy.callbackMap = Function.update state.proxy.callbackMap id
      (some state.calls.length) := by
    change emplace state.proxy.callbackMap id _ = _
    rw [emplace, if_neg (by rw [free]; nofun)]
  have within {place : Nat} {call : CallbackCall} (there : state.At place call) :
      place < state.calls.length :=
    (List.getElem?_eq_some_iff.mp there).1
  have keep {place : Nat} {call : CallbackCall} (there : state.At place call) :
      inserted.At place call := by
    change (state.calls ++ [added])[place]? = some call
    rwa [List.getElem?_append_left (within there)]
  have last : inserted.At state.calls.length added := by
    change (state.calls ++ [added])[state.calls.length]? = some added
    simp
  have split {place : Nat} {call : CallbackCall} (there : inserted.At place call) :
      state.At place call ∨ place = state.calls.length ∧ call = added := by
    have there : (state.calls ++ [added])[place]? = some call := there
    rw [List.getElem?_append] at there
    split at there
    · exact .inl there
    · obtain ⟨here, same⟩ := List.getElem?_eq_some_iff.mp there
      rw [List.length_singleton] at here
      refine .inr ⟨by omega, ?_⟩
      rw [← same]
      simp
  have answered {place : Nat} {call : CallbackCall} (there : state.At place call) (same : call.reqId = id) :
      call.answered = true := by
    by_contra open'
    have holds := (attended.waits id place).mpr ⟨call, there, same, by simpa using open'⟩
    cases free.symm.trans holds
  change inserted.Attended
  refine ⟨fun reqId place => ?_, fun reqId sessionTimer entry => ?_,
    fun place call there open' late => ?_, fun place call there early => ?_,
    fun first second one two before there there' same => ?_, fun place call there done => ?_,
    fun place all => attended.never place fun call there => all call (keep there)⟩
  · rw [map]
    by_cases same : reqId = id
    · subst same
      rw [Function.update_self]
      constructor
      · intro holds
        cases holds
        exact ⟨added, last, rfl, rfl⟩
      · intro ⟨call, there, is, open'⟩
        rcases split there with old | ⟨rfl, _⟩
        · cases (answered old is).symm.trans open'
        · rfl
    · rw [Function.update_of_ne same, attended.waits]
      constructor
      · intro ⟨call, there, is⟩
        exact ⟨call, keep there, is⟩
      · intro ⟨call, there, is, open'⟩
        rcases split there with old | ⟨_, rfl⟩
        · exact ⟨call, old, is, open'⟩
        · exact absurd is.symm same
  · obtain ⟨place, call, there, is⟩ := attended.entered reqId sessionTimer entry
    exact ⟨place, call, keep there, is⟩
  · rcases split there with old | ⟨_, rfl⟩
    · exact attended.enters place call old open' late
    · exact absurd trivial late
  · rcases split there with old | ⟨_, rfl⟩
    · exact attended.early place call old early
    · rfl
  · rcases split there with old | ⟨rfl, _⟩
    · rcases split there' with old' | ⟨_, rfl⟩
      · exact attended.older first second one two before old old' same
      · exact answered old same
    · rcases split there' with old' | ⟨rfl, _⟩
      · have := within old'
        omega
      · omega
  · rcases split there with old | ⟨_, rfl⟩
    · exact attended.once place call old done
    · cases done

/-- The timer does something of its own. -/
theorem Attended.timer (attended : state.Attended) {action : TimerManager.Action}
    (taken : state.timer action = some after) : after.Attended := by
  obtain ⟨_, _, rfl⟩ := Option.map_eq_some_iff.mp taken
  exact attended.frame rfl rfl

/-- A step of a careful run. -/
theorem Attended.next (attended : state.Attended) (careful : state.Careful action)
    (taken : state.next action = some after) : after.Attended := by
  cases action with
  | insert sessionId =>
    cases taken
    exact attended.insert careful sessionId
  | registerTimer index overtime now =>
    obtain ⟨call, here, taken⟩ := Option.bind_eq_some_iff.mp taken
    obtain ⟨pc, taken⟩ := Option.ite_none_right_eq_some.mp taken
    cases taken
    refine Attended.move (attended.frame ?_ ?_) here (by simp [pc, CallPc.Early]) <;> rfl
  | emplaceTimer index =>
    obtain ⟨call, here, taken⟩ := Option.bind_eq_some_iff.mp taken
    simp only [step] at taken
    split at taken
    · rename_i timerId pc
      cases taken
      exact attended.enter here (by simp [pc, CallPc.Early]) timerId
    · cases taken
  | write index written =>
    obtain ⟨call, here, taken⟩ := Option.bind_eq_some_iff.mp taken
    obtain ⟨pc, taken⟩ := Option.ite_none_right_eq_some.mp taken
    cases taken
    apply attended.move here
    cases written <;> simp [pc, CallPc.Early]
  | removeUnsent index =>
    obtain ⟨call, here, taken⟩ := Option.bind_eq_some_iff.mp taken
    obtain ⟨pc, taken⟩ := Option.ite_none_right_eq_some.mp taken
    cases taken
    have ready : state.Entered call.reqId := careful call here
    refine (attended.handled ready).move (at_handled.mpr ⟨call, here, rfl⟩) ?_
    simp [CallbackCall.answer, pc, CallPc.Early]
  | invoke msg =>
    cases taken
    exact attended.handled careful
  | complete error => exact attended.timer taken
  | handle wait error => exact attended.timer taken
  | timeout =>
    simp only [CallbackCalls.next] at taken
    split at taken
    · cases taken
    · rename_i address timePoint tasks pool
      cases taken
      have ready : state.Entered (state.proxy.captured address) :=
        careful (address, timePoint) (by rw [pool]; rfl)
      have framed : Attended { state with proxy := state.takeTask tasks } := attended.frame rfl rfl
      exact framed.handled ready

/-- The callback of an answered call has been called once, with its session, and neither map has its
request, unless a later call has the same id. Another callback has not been called. -/
structure Delivers (state : CallbackCalls) (index : Nat) (call : CallbackCall) : Prop where
  never : call.answered = false → ofKey index state.invoked = []
  once : call.answered = true → ∃ status msg, ofKey index state.invoked = [⟨call.sessionId, status, msg⟩]
  forgotten : call.answered = true →
    (∀ later other, index < later → state.At later other → other.reqId ≠ call.reqId) →
    state.proxy.callbackMap call.reqId = none ∧ state.proxy.overtimeReqs call.reqId = none

theorem Attended.delivers (attended : state.Attended) (here : state.At index call) :
    state.Delivers index call := by
  refine ⟨fun open' => attended.never index ?_, attended.once index call here,
    fun answered last => ?_⟩
  · intro other there
    obtain rfl : other = call := here.unique there
    exact open'
  · have nobody (place : Nat) (other : CallbackCall) (there : state.At place other)
        (same : other.reqId = call.reqId) : other.answered = true := by
      rcases Nat.lt_trichotomy place index with before | rfl | behind
      · exact attended.older place index other call before there here same
      · obtain rfl : other = call := here.unique there
        exact answered
      · exact absurd same (last place other behind there)
    constructor
    · by_contra present
      obtain ⟨place, holds⟩ := Option.ne_none_iff_exists'.mp present
      obtain ⟨other, there, same, open'⟩ := (attended.waits call.reqId place).mp holds
      cases (nobody place other there same).symm.trans open'
    · by_contra present
      obtain ⟨sessionTimer, entry⟩ := Option.ne_none_iff_exists'.mp present
      obtain ⟨place, other, there, same, open', _⟩ := attended.entered call.reqId sessionTimer entry
      cases (nobody place other there same).symm.trans open'

/-- In every careful run, every callback is called once when its request is answered. -/
theorem delivers_of_careful {actions : List CallbackAction}
    (path : Path (Guarded (Taken next) Careful) construct actions state)
    (here : state.At index call) :
    state.Delivers index call := by
  have attended : state.Attended := by
    apply path.invariant Attended _ construct_attended
    intro before action after attended ⟨careful, taken⟩
    exact attended.next careful taken
  exact attended.delivers here

/-- A response, a failed send and a timeout. -/
theorem delivers_three_calls :
    ∃ state : CallbackCalls, ∃ call, state.At 2 call ∧ call.answered = true ∧
      state.Delivers 2 call := by
  let response : ProxyMsg := ⟨[102], ⟨CommModel.rsponse, RpcModel.callback, 1, 1, 1⟩, [0]⟩
  let enter (index : Nat) (sessionId : UInt64) : List CallbackAction :=
    [.insert sessionId, .registerTimer index 1000 0, .emplaceTimer index]
  let first : List CallbackAction := enter 0 7 ++ [.write 0 true, .invoke response]
  let second : List CallbackAction := enter 1 8 ++ [.write 1 false, .removeUnsent 1]
  let third : List CallbackAction := enter 2 9 ++
    [.write 2 true, .handle ⟨0, 1000000000⟩ .operationAborted, .complete .success,
      .handle ⟨2, 1000000000⟩ .success, .timeout]
  have done : ((exec (checked next Careful) construct (first ++ second ++ third)).bind fun state =>
      state.calls[2]?).any CallbackCall.answered = true := by decide
  obtain ⟨call, found, answered⟩ := (Option.any_eq_true _ _).mp done
  obtain ⟨state, run, here⟩ := Option.bind_eq_some_iff.mp found
  exact ⟨state, call, here, answered, delivers_of_careful (Path.of_checked run) here⟩

/-- A timer that expires before it has been entered: the callback is called with no session, and the
timer stays in its map. -/
theorem not_delivers_early_timeout :
    ∃ state call,
      exec next construct
        [.insert 7, .registerTimer 0 0 0, .complete .success, .handle ⟨0, 0⟩ .success, .timeout,
          .emplaceTimer 0] = some state ∧
      state.At 0 call ∧ call.sessionId = 7 ∧ call.answered = true ∧
      ofKey 0 state.invoked = [⟨0, .timeout, none⟩] ∧
      state.proxy.overtimeReqs call.reqId = some ⟨7, 1⟩ ∧ ¬ state.Delivers 0 call := by
  refine ⟨_, _, rfl, rfl, rfl, rfl, rfl, rfl, fun delivers => ?_⟩
  obtain ⟨status, msg, once⟩ := delivers.once rfl
  cases once

end CallbackCalls

end BTool.BoostNet
