import BTool.BoostNet.CallbackProxy
import BTool.BoostNet.RpcWire
import BTool.BoostNet.SyncProxy

/-! A call from end to end: the threads of a client that call and wait, or leave a callback, the session on which
their requests go out, the service that answers them, and the session on which its answers come back. -/

namespace BTool.BoostNet

open BTool.Foundation BTool.Foundation.Path BTool.Timer

/-- The id that `get_next_promise` and `insert` give to the call of this number. -/
def callId (number : Nat) : UInt32 := UInt32.ofNat (number + 1)

theorem callId_inj {number other : Nat} (below : number < 2 ^ 32) (below' : other < 2 ^ 32)
    (same : callId number = callId other) : number = other := by
  have same := congrArg UInt32.toNat same
  simp only [callId, UInt32.toNat_ofNat'] at same
  omega

namespace SyncCalls

variable {Thread Reader : Type} [DecidableEq Thread] [DecidableEq Reader]
  {before after : SyncCalls Thread Reader} {action : SyncAction Thread Reader} {thread : Thread}
  {request : SyncRequest}

/-- What a thread has belongs to its own call. -/
def OwnId (made : Nat) (received : List ProxyMsg) : SendPc → Prop
  | .idle => True
  | .writes request => request.made < made ∧ request.reqId = callId request.made
  | .looks request => request.made < made ∧ request.reqId = callId request.made
  | .found request promise => request.made < made ∧ request.reqId = callId request.made ∧
    callId promise = request.reqId
  | .waits request promise => request.made < made ∧ request.reqId = callId request.made ∧
    callId promise = request.reqId
  | .removes request promise _ => request.made < made ∧ request.reqId = callId request.made ∧
    callId promise = request.reqId
  | .returned request _ item => request.made < made ∧ request.reqId = callId request.made ∧
    ∀ msg, item = some msg → msg.head.reqId = request.reqId ∧ msg ∈ received
  | .undefined _ => True
  | .threw _ => True

theorem OwnId.mono {made made' : Nat} {received received' : List ProxyMsg} {pc : SendPc}
    (own : OwnId made received pc) (le : made ≤ made') (more : ∀ msg ∈ received, msg ∈ received') :
    OwnId made' received' pc := by
  cases pc with
  | idle => trivial
  | writes request => exact ⟨own.1.trans_le le, own.2⟩
  | looks request => exact ⟨own.1.trans_le le, own.2⟩
  | found request promise => exact ⟨own.1.trans_le le, own.2⟩
  | waits request promise => exact ⟨own.1.trans_le le, own.2⟩
  | removes request promise ready => exact ⟨own.1.trans_le le, own.2⟩
  | returned request status item =>
    exact ⟨own.1.trans_le le, own.2.1, fun msg same => ⟨(own.2.2 msg same).1, more msg (own.2.2 msg same).2⟩⟩
  | undefined request => trivial
  | threw request => trivial

/-- Whatever the ids: a promise is found, satisfied and waited for under the id that it was made for. -/
structure Truthful (state : SyncCalls Thread Reader) : Prop where
  counted : state.proxy.curReqId = UInt32.ofNat state.made
  entry : ∀ reqId promise, state.proxy.futureMap reqId = some promise → reqId = callId promise
  reader : ∀ reader promise item, state.readers reader = some (promise, item) →
    item.head.reqId = callId promise ∧ item ∈ state.received
  value : ∀ promise item, (state.promises promise).value = some item →
    item.head.reqId = callId promise ∧ item ∈ state.received
  callers : Everywhere (OwnId state.made state.received) state.callers

omit [DecidableEq Thread] [DecidableEq Reader] in
theorem truthful_construct : (construct : SyncCalls Thread Reader).Truthful where
  counted := rfl
  entry := by intro reqId promise entry; cases entry
  reader := by intro reader promise item found; cases found
  value := by intro promise item held; cases held
  callers := fun _ => trivial

omit [DecidableEq Reader] in
/-- A thread goes to a place with what is its own. -/
theorem Truthful.move {pc : SendPc} (truthful : before.Truthful) (own : OwnId before.made before.received pc) :
    (before.move thread pc).Truthful :=
  ⟨truthful.counted, truthful.entry, truthful.reader, truthful.value, truthful.callers.move own⟩

omit [DecidableEq Reader] in
theorem Truthful.close {pc : SendPc} (truthful : before.Truthful)
    (own : OwnId before.made before.received pc) : (before.close thread request pc).Truthful :=
  ⟨truthful.counted, fun reqId promise entry => truthful.entry reqId promise (close_entry entry).2,
    truthful.reader, truthful.value, truthful.callers.move own⟩

omit [DecidableEq Reader] in
theorem Truthful.draw (truthful : before.Truthful) : (before.draw thread).Truthful := by
  have next : before.proxy.curReqId + 1 = callId before.made := by
    rw [truthful.counted, callId]
    exact (UInt32.ofNat_add _ _).symm
  refine ⟨next, fun reqId promise entry => ?_, truthful.reader, truthful.value, ?_⟩
  · rcases draw_entry entry with ⟨rfl, rfl⟩ | had
    · exact next
    · exact truthful.entry reqId promise had
  · have older : Everywhere (OwnId (before.made + 1) before.received) before.callers := fun other =>
      (truthful.callers other).mono (Nat.le_succ _) fun _ member => member
    exact older.move ⟨Nat.lt_succ_self _, next⟩

omit [DecidableEq Thread] [DecidableEq Reader] in
/-- What holds of a thread, by its place. -/
theorem Truthful.at_place {pc : SendPc} (truthful : before.Truthful) (place : before.callers thread = pc) :
    OwnId before.made before.received pc := place ▸ truthful.callers thread

omit [DecidableEq Thread] in
/-- A reader sets down a response that has come in, or has done with one. -/
theorem Truthful.setReader {found : Option (Nat × ProxyMsg)} {reader : Reader} (truthful : before.Truthful)
    (own : ∀ promise item, found = some (promise, item) →
      item.head.reqId = callId promise ∧ item ∈ before.received) :
    (before.setReader reader found).Truthful := by
  refine ⟨truthful.counted, truthful.entry, fun other promise item held => ?_, truthful.value, truthful.callers⟩
  dsimp only [SyncCalls.setReader] at held
  by_cases here : other = reader
  · rw [here, Function.update_self] at held
    exact own promise item held
  · rw [Function.update_of_ne here] at held
    exact truthful.reader other promise item held

omit [DecidableEq Thread] [DecidableEq Reader] in
theorem Truthful.setPromise {promise : Nat} {changed : Promise} (truthful : before.Truthful)
    (own : ∀ item, changed.value = some item → item.head.reqId = callId promise ∧ item ∈ before.received) :
    (before.setPromise promise changed).Truthful := by
  refine ⟨truthful.counted, truthful.entry, truthful.reader, fun other item held => ?_, truthful.callers⟩
  dsimp only [SyncCalls.setPromise] at held
  by_cases here : other = promise
  · rw [here, Function.update_self] at held
    exact here ▸ own item held
  · rw [Function.update_of_ne here] at held
    exact truthful.value other item held

omit [DecidableEq Thread] [DecidableEq Reader] in
theorem Truthful.log (truthful : before.Truthful) (item : ProxyMsg) :
    ({ before with received := before.received ++ [item] } : SyncCalls Thread Reader).Truthful where
  counted := truthful.counted
  entry := truthful.entry
  reader := fun reader promise other found =>
    ⟨(truthful.reader reader promise other found).1,
      List.mem_append_left _ (truthful.reader reader promise other found).2⟩
  value := fun promise other held =>
    ⟨(truthful.value promise other held).1, List.mem_append_left _ (truthful.value promise other held).2⟩
  callers := fun thread => (truthful.callers thread).mono (Nat.le_refl _)
    fun _ member => List.mem_append_left _ member

theorem Truthful.change (truthful : before.Truthful) (change : Change before action after) :
    after.Truthful := by
  cases change with
  | drawn free => exact truthful.draw
  | written place =>
    have own := truthful.at_place place
    exact truthful.move own
  | unsent place =>
    have own := truthful.at_place place
    exact truthful.move ⟨own.1, own.2, by intro msg same; cases same⟩
  | gaveUp place => exact truthful.close trivial
  | missed place missing => exact truthful.move trivial
  | found place entry =>
    have own := truthful.at_place place
    exact truthful.move ⟨own.1, own.2, (truthful.entry _ _ entry).symm⟩
  | refused place again => exact truthful.move trivial
  | @retrieved thread request promise place =>
    have found := truthful.at_place place
    have own : OwnId before.made before.received (.waits request promise) := found
    refine Truthful.move (truthful.setPromise ?_) own
    exact fun item held => truthful.value promise item held
  | woken place satisfied =>
    have own := truthful.at_place place
    exact truthful.move own
  | expired place =>
    have own := truthful.at_place place
    exact truthful.move own
  | @removed thread request promise ready place =>
    obtain ⟨below, named, same⟩ := truthful.at_place place
    refine truthful.close ?_
    cases ready with
    | false => exact ⟨below, named, by intro msg none; cases none⟩
    | true =>
      refine ⟨below, named, fun msg held => ?_⟩
      obtain ⟨id, member⟩ := truthful.value promise msg held
      exact ⟨id.trans same, member⟩
  | @received reader item free =>
    refine (truthful.log item).setReader fun promise other found => ?_
    obtain ⟨entered, entry, same⟩ := Option.map_eq_some_iff.mp found
    obtain ⟨rfl, rfl⟩ := Prod.mk.inj same
    exact ⟨truthful.entry _ _ entry, by simp⟩
  | @satisfied reader item promise place =>
    refine (truthful.setPromise fun other held => ?_).setReader (by intro promise item none; cases none)
    obtain rfl := Option.some.inj held
    exact truthful.reader reader promise item place
  | threw place again =>
    have same : ({ before with threw := true } : SyncCalls Thread Reader).Truthful :=
      ⟨truthful.counted, truthful.entry, truthful.reader, truthful.value, truthful.callers⟩
    exact same.setReader (by intro promise item none; cases none)

/-- More promises are made, and only `receive` has responses come in. -/
theorem Change.grows (change : Change before action after) :
    before.made ≤ after.made ∧
      ∀ msg ∈ after.received, msg ∈ before.received ∨ ∃ reader, action = .receive reader msg := by
  cases change with
  | drawn free => exact ⟨Nat.le_succ _, fun msg member => .inl member⟩
  | @received reader item free =>
    refine ⟨Nat.le_refl _, fun msg member => ?_⟩
    rcases List.mem_append.mp member with old | new
    · exact .inl old
    · exact .inr ⟨reader, by rw [List.mem_singleton.mp new]⟩
  | _ => exact ⟨Nat.le_refl _, fun msg member => .inl member⟩

end SyncCalls

namespace CallbackCalls

variable {state middle after : CallbackCalls} {action : CallbackAction} {index : Nat} {pc : CallPc} {reqId : UInt32}
  {status : MsgStatus} {msg : Option ProxyMsg}

/-- The callbacks and the ids of the calls are as before, and what has been called. -/
structure Alike (state after : CallbackCalls) : Prop where
  curReqId : after.proxy.curReqId = state.proxy.curReqId
  callbackMap : after.proxy.callbackMap = state.proxy.callbackMap
  ids : after.calls.map CallbackCall.reqId = state.calls.map CallbackCall.reqId
  invoked : after.invoked = state.invoked

theorem alike_move : state.Alike (state.move index pc) where
  curReqId := rfl
  callbackMap := rfl
  ids := by
    refine List.ext_getElem? fun place => ?_
    simp only [move, List.getElem?_map, List.getElem?_modify]
    cases state.calls[place]? with
    | none => rfl
    | some call => by_cases here : index = place <;> simp [here]
  invoked := rfl

theorem Alike.trans (first : state.Alike middle) (second : middle.Alike after) : state.Alike after where
  curReqId := second.curReqId.trans first.curReqId
  callbackMap := second.callbackMap.trans first.callbackMap
  ids := second.ids.trans first.ids
  invoked := second.invoked.trans first.invoked

/-- The status of what a callback is called with tells whether there is a response, which only `invoke` brings. -/
def Brings (action : CallbackAction) (reqId : UInt32) (status : MsgStatus) (msg : Option ProxyMsg) : Prop :=
  match msg with
  | none => status = .sendError ∨ status = .timeout
  | some item => status = .ok ∧ action = .invoke item ∧ item.head.reqId = reqId

/-- A step inserts a callback, or handles what has come in for a request, or leaves both alone. -/
theorem next_cases (taken : state.next action = some after) :
    (∃ sessionId, action = .insert sessionId ∧ after = { state with
        proxy := (state.proxy.insert state.calls.length).1
        calls := state.calls ++ [⟨sessionId, state.proxy.curReqId + 1, .registersTimer, false⟩] }) ∨
      state.Alike after ∨
      ∃ middle reqId status msg, state.Alike middle ∧ Brings action reqId status msg ∧
        (middle.handled reqId (middle.proxy.finish reqId status msg)).Alike after := by
  have alike : state.Alike state := ⟨rfl, rfl, rfl, rfl⟩
  have timed {action : TimerManager.Action} (taken : state.timer action = some after) : state.Alike after := by
    obtain ⟨deadlineTimer, _, rfl⟩ := Option.map_eq_some_iff.mp taken
    exact ⟨rfl, rfl, rfl, rfl⟩
  cases action with
  | insert sessionId =>
    cases taken
    exact .inl ⟨sessionId, rfl, rfl⟩
  | registerTimer index overtime now =>
    obtain ⟨call, _, stepped⟩ := Option.bind_eq_some_iff.mp taken
    obtain ⟨_, same⟩ := Option.ite_none_right_eq_some.mp stepped
    cases same
    have registered : state.Alike { state with
        proxy := (state.proxy.insertTimerRegister overtime now call.reqId).1 } := ⟨rfl, rfl, rfl, rfl⟩
    exact .inr (.inl (registered.trans alike_move))
  | emplaceTimer index =>
    obtain ⟨call, _, stepped⟩ := Option.bind_eq_some_iff.mp taken
    simp only [step] at stepped
    split at stepped
    · rename_i timerId _
      cases stepped
      have entered : state.Alike { state with
          proxy := state.proxy.insertTimerEmplace call.sessionId timerId call.reqId } := ⟨rfl, rfl, rfl, rfl⟩
      exact .inr (.inl (entered.trans alike_move))
    · cases stepped
  | write index written =>
    obtain ⟨call, _, stepped⟩ := Option.bind_eq_some_iff.mp taken
    obtain ⟨_, same⟩ := Option.ite_none_right_eq_some.mp stepped
    cases same
    exact .inr (.inl alike_move)
  | removeUnsent index =>
    obtain ⟨call, _, stepped⟩ := Option.bind_eq_some_iff.mp taken
    obtain ⟨_, same⟩ := Option.ite_none_right_eq_some.mp stepped
    cases same
    exact .inr (.inr ⟨state, call.reqId, .sendError, none, alike, .inl rfl, alike_move⟩)
  | invoke item =>
    cases taken
    exact .inr (.inr ⟨state, item.head.reqId, .ok, some item, alike, ⟨rfl, rfl, rfl⟩, ⟨rfl, rfl, rfl, rfl⟩⟩)
  | complete error => exact .inr (.inl (timed taken))
  | handle wait error => exact .inr (.inl (timed taken))
  | timeout =>
    simp only [CallbackCalls.next] at taken
    split at taken
    · cases taken
    · rename_i address time tasks _
      cases taken
      have took : state.Alike { state with proxy := state.takeTask tasks } := ⟨rfl, rfl, rfl, rfl⟩
      exact .inr (.inr ⟨_, state.proxy.captured address, .timeout, none, took, .inr rfl, ⟨rfl, rfl, rfl, rfl⟩⟩)

/-- Whatever the ids: a callback waits under the id that it was given, until it is called, once and with what has
this id. -/
structure Faithful (state : CallbackCalls) : Prop where
  counted : state.proxy.curReqId = UInt32.ofNat state.calls.length
  named : state.calls.map CallbackCall.reqId = (List.range state.calls.length).map callId
  entry : ∀ reqId index, state.proxy.callbackMap reqId = some index →
    reqId = callId index ∧ index < state.calls.length ∧ index ∉ state.invoked.map Prod.fst
  once : (state.invoked.map Prod.fst).Nodup
  below : ∀ index ∈ state.invoked.map Prod.fst, index < state.calls.length
  status : ∀ entry ∈ state.invoked, entry.2.status = .ok ↔ entry.2.msg.isSome = true
  value : ∀ entry ∈ state.invoked, ∀ item, entry.2.msg = some item → item.head.reqId = callId entry.1

theorem faithful_construct : construct.Faithful where
  counted := rfl
  named := rfl
  entry := by intro reqId index entry; cases entry
  once := List.nodup_nil
  below := by intro index member; cases member
  status := by intro entry member; cases member
  value := by intro entry member; cases member

theorem Alike.length (alike : state.Alike after) : after.calls.length = state.calls.length := by
  have same := congrArg List.length alike.ids
  simpa using same

theorem Faithful.alike (faithful : state.Faithful) (alike : state.Alike after) : after.Faithful := by
  have length := alike.length
  obtain ⟨counted, named, entry, once, below, status, value⟩ := faithful
  refine ⟨?_, ?_, ?_, ?_, ?_, ?_, ?_⟩
  · rw [alike.curReqId, length, counted]
  · rw [alike.ids, length, named]
  · rw [alike.callbackMap, length, alike.invoked]
    exact entry
  · rw [alike.invoked]
    exact once
  · rw [alike.invoked, length]
    exact below
  · rw [alike.invoked]
    exact status
  · rw [alike.invoked]
    exact value

theorem curReqId_finish (proxy : CallbackProxy Nat) :
    (proxy.finish reqId status msg).1.curReqId = proxy.curReqId := by
  have timer : (proxy.removeTimer reqId).1.curReqId = proxy.curReqId := by
    unfold CallbackProxy.removeTimer
    split <;> rfl
  unfold CallbackProxy.finish
  dsimp only
  split <;> exact timer

/-- A callback is called with what has come in for its request. -/
theorem Faithful.handled (faithful : state.Faithful) (brings : Brings action reqId status msg) :
    (state.handled reqId (state.proxy.finish reqId status msg)).Faithful := by
  obtain ⟨_, callbacks, found⟩ := state.proxy.finish_spec reqId status msg
  have length : (state.handled reqId (state.proxy.finish reqId status msg)).calls.length = state.calls.length := by
    simp [CallbackCalls.handled]
  have counted : (state.proxy.finish reqId status msg).1.curReqId = UInt32.ofNat state.calls.length :=
    (curReqId_finish _).trans faithful.counted
  have named : (state.calls.map (CallbackCall.answer reqId)).map CallbackCall.reqId =
      (List.range state.calls.length).map callId := by
    rw [← faithful.named, List.map_map]
    rfl
  have kept (id : UInt32) (index : Nat)
      (holds : (state.proxy.finish reqId status msg).1.callbackMap id = some index) :
      id ≠ reqId ∧ state.proxy.callbackMap id = some index := by
    rw [callbacks] at holds
    by_cases same : id = reqId
    · rw [same, Function.update_self] at holds
      cases holds
    · exact ⟨same, by rwa [Function.update_of_ne same] at holds⟩
  cases waits : state.proxy.callbackMap reqId with
  | none =>
    have nothing : (state.handled reqId (state.proxy.finish reqId status msg)).invoked = state.invoked := by
      simp [CallbackCalls.handled, found, waits]
    refine ⟨?_, ?_, fun id index holds => ?_, ?_, ?_, ?_, ?_⟩
    · rw [length]
      exact counted
    · rw [length]
      exact named
    · rw [length, nothing]
      exact faithful.entry id index (kept id index holds).2
    · rw [nothing]
      exact faithful.once
    · rw [nothing, length]
      exact faithful.below
    · rw [nothing]
      exact faithful.status
    · rw [nothing]
      exact faithful.value
  | some caller =>
    obtain ⟨mine, below, fresh⟩ := faithful.entry reqId caller waits
    obtain ⟨invocation, isStatus, isMsg, more⟩ : ∃ invocation : Invocation, invocation.status = status ∧
        invocation.msg = msg ∧ (state.handled reqId (state.proxy.finish reqId status msg)).invoked =
          state.invoked ++ [(caller, invocation)] :=
      ⟨⟨(state.proxy.overtimeReqs reqId).elim 0 SessionTimer.sessionId, status, msg⟩, rfl, rfl,
        by simp [CallbackCalls.handled, found, waits]⟩
    have keys : (state.handled reqId (state.proxy.finish reqId status msg)).invoked.map Prod.fst =
        state.invoked.map Prod.fst ++ [caller] := by
      rw [more, List.map_append]
      rfl
    refine ⟨?_, ?_, fun id index holds => ?_, ?_, ?_, fun entry member => ?_, fun entry member item has => ?_⟩
    · rw [length]
      exact counted
    · rw [length]
      exact named
    · obtain ⟨apart, held⟩ := kept id index holds
      obtain ⟨its, isBelow, isFresh⟩ := faithful.entry id index held
      rw [length, keys]
      refine ⟨its, isBelow, fun member => ?_⟩
      rcases List.mem_append.mp member with old | new
      · exact isFresh old
      · obtain rfl := List.mem_singleton.mp new
        exact apart (its.trans mine.symm)
    · rw [keys]
      exact faithful.once.append (List.nodup_singleton _) (by simpa using fresh)
    · rw [keys, length]
      intro index member
      rcases List.mem_append.mp member with old | new
      · exact faithful.below index old
      · rwa [List.mem_singleton.mp new]
    · rw [more] at member
      rcases List.mem_append.mp member with old | new
      · exact faithful.status entry old
      · obtain rfl := List.mem_singleton.mp new
        show invocation.status = .ok ↔ invocation.msg.isSome = true
        rw [isStatus, isMsg]
        cases msg with
        | none => rcases brings with rfl | rfl <;> simp
        | some item => simp [brings.1]
    · rw [more] at member
      rcases List.mem_append.mp member with old | new
      · exact faithful.value entry old item has
      · obtain rfl := List.mem_singleton.mp new
        obtain rfl := isMsg.symm.trans has
        exact brings.2.2.trans mine

theorem Faithful.insert (faithful : state.Faithful) (sessionId : UInt64) :
    Faithful { state with
      proxy := (state.proxy.insert state.calls.length).1
      calls := state.calls ++ [⟨sessionId, state.proxy.curReqId + 1, .registersTimer, false⟩] } := by
  have next : state.proxy.curReqId + 1 = callId state.calls.length := by
    rw [faithful.counted, callId]
    exact (UInt32.ofNat_add _ _).symm
  have length (call : CallbackCall) : (state.calls ++ [call]).length = state.calls.length + 1 := List.length_append
  refine ⟨?_, ?_, fun id index holds => ?_, faithful.once, fun index member => ?_, faithful.status, faithful.value⟩
  · rw [length]
    exact next
  · rw [length, List.map_append, faithful.named, List.range_succ, List.map_append]
    exact congrArg (fun id => (List.range state.calls.length).map callId ++ [id]) next
  · rw [length]
    have holds : emplace state.proxy.callbackMap (state.proxy.curReqId + 1) state.calls.length id = some index :=
      holds
    have old (had : state.proxy.callbackMap id = some index) : id = callId index ∧
        index < state.calls.length + 1 ∧ index ∉ state.invoked.map Prod.fst := by
      obtain ⟨its, below, fresh⟩ := faithful.entry id index had
      exact ⟨its, Nat.lt_succ_of_lt below, fresh⟩
    unfold emplace at holds
    split at holds
    · exact old holds
    · by_cases here : id = state.proxy.curReqId + 1
      · rw [here, Function.update_self] at holds
        obtain rfl := Option.some.inj holds
        exact ⟨here.trans next, Nat.lt_succ_self _, fun member => Nat.lt_irrefl _ (faithful.below _ member)⟩
      · rw [Function.update_of_ne here] at holds
        exact old holds
  · rw [length]
    exact Nat.lt_succ_of_lt (faithful.below index member)

theorem Faithful.next (faithful : state.Faithful) (taken : state.next action = some after) : after.Faithful := by
  rcases next_cases taken with ⟨sessionId, _, rfl⟩ | alike | ⟨middle, reqId, status, msg, front, brings, back⟩
  · exact faithful.insert sessionId
  · exact faithful.alike alike
  · exact ((faithful.alike front).handled brings).alike back

theorem Faithful.reqId_eq (faithful : state.Faithful) {call : CallbackCall}
    (found : state.calls[index]? = some call) : call.reqId = callId index := by
  have below := (List.getElem?_eq_some_iff.mp found).1
  have same := congrArg (fun ids : List UInt32 => ids[index]?) faithful.named
  simp only [List.getElem?_map, found, List.getElem?_range below, Option.map_some, Option.some.injEq] at same
  exact same

/-- Calls are only added, and only `invoke` brings a response to a callback. -/
theorem invoked_next (taken : state.next action = some after) : state.calls.length ≤ after.calls.length ∧
    ∀ entry ∈ after.invoked, entry ∈ state.invoked ∨ ∀ item, entry.2.msg = some item → action = .invoke item := by
  rcases next_cases taken with ⟨sessionId, _, rfl⟩ | alike | ⟨middle, reqId, status, msg, front, brings, back⟩
  · exact ⟨by simp, fun entry member => .inl member⟩
  · exact ⟨alike.length.ge, fun entry member => .inl (alike.invoked ▸ member)⟩
  · have length : after.calls.length = state.calls.length := by
      rw [back.length, ← front.length]
      simp [CallbackCalls.handled]
    refine ⟨length.ge, fun entry member => ?_⟩
    rw [back.invoked, CallbackCalls.handled, front.invoked, (middle.proxy.finish_spec reqId status msg).2.2] at member
    rcases List.mem_append.mp member with old | new
    · exact .inl old
    · obtain ⟨caller, _, rfl⟩ := Option.map_eq_some_iff.mp (Option.mem_toList.mp new)
      right
      rintro item rfl
      exact brings.2.1

end CallbackCalls

/-- What `sync_send_impl` and `callback_send` leave to the session: what `write_impl` returns, and what comes in. -/
def CallbackAction.isOwn : CallbackAction → Bool
  | .write .. => false
  | .invoke _ => false
  | _ => true

/-- A client and a service. -/
structure RpcCall (Thread Server Reader : Type) where
  calls : SyncCalls Thread Reader
  callbacks : CallbackCalls
  link : RpcLink Thread Server
  /-- How many of the messages that the client has got it has dealt with. -/
  dispatched : Nat

inductive RpcAction (Thread Server Reader : Type) where
  /-- A step of `sync_send_impl` but its `write_impl`. -/
  | call (thread : Thread) (step : SendStep)
  /-- `sync_send_impl` packages its request and enters `write_impl`. -/
  | send (thread : Thread) (package : Package) (room : Bool)
  /-- `write_impl` returns. -/
  | sent (thread : Thread) (written : Bool)
  /-- A step of a call with a callback but its `write_impl`, or of the timer. -/
  | callback (action : CallbackAction)
  /-- `callback_send` packages its request and enters `write_impl`. -/
  | callbackSend (thread : Thread) (index : Nat) (package : Package) (room : Bool)
  | callbackSent (index : Nat) (written : Bool)
  /-- A step of a session, or an answer of the service. -/
  | link (action : LinkAction Thread Server)
  /-- `read_cbk` hands the next message that the client has got to its proxy. -/
  | receive (reader : Reader)
  | setValue (reader : Reader)

namespace RpcCall

variable {Thread Server Reader : Type} [DecidableEq Thread] [DecidableEq Server] [DecidableEq Reader]

def start : RpcCall Thread Server Reader := ⟨.construct, .construct, .start, 0⟩

def next (state : RpcCall Thread Server Reader) :
    RpcAction Thread Server Reader → Option (RpcCall Thread Server Reader)
  | .call thread step =>
    match step with
    | .write _ => none
    | _ => (state.calls.next (.call thread step)).map fun calls => { state with calls }
  | .send thread package room =>
    match state.calls.callers thread with
    | .writes request =>
      if package.reqId = request.reqId then
        (state.link.next (.request thread (.future request.made) package room)).map fun link => { state with link }
      else none
    | _ => none
  | .sent thread written =>
    match state.calls.callers thread with
    | .writes request =>
      if .future request.made ∈ state.link.requests.map Prod.fst ∧
          state.link.up.session.places thread = .outside then
        (state.calls.next (.call thread (.write written))).map fun calls => { state with calls }
      else none
    | _ => none
  | .callback action =>
    if action.isOwn then (state.callbacks.next action).map fun callbacks => { state with callbacks } else none
  | .callbackSend thread index package room =>
    match state.callbacks.calls[index]? with
    | none => none
    | some call =>
      if call.pc = .writes ∧ package.reqId = call.reqId then
        (state.link.next (.request thread (.callback index) package room)).map fun link => { state with link }
      else none
  | .callbackSent index written =>
    if .callback index ∈ state.link.requests.map Prod.fst then
      (state.callbacks.next (.write index written)).map fun callbacks => { state with callbacks }
    else none
  | .link action => if action.isRequest then none else (state.link.next action).map fun link => { state with link }
  | .receive reader =>
    match state.link.down.client.delivered[state.dispatched]? with
    | none => none
    | some (.sync, item) => (state.calls.next (.receive reader item)).map fun calls =>
        { state with calls, dispatched := state.dispatched + 1 }
    | some (.callback, item) => (state.callbacks.next (.invoke item)).map fun callbacks =>
        { state with callbacks, dispatched := state.dispatched + 1 }
    | some (.bind, _) => some { state with dispatched := state.dispatched + 1 }
  | .setValue reader => (state.calls.next (.setValue reader)).map fun calls => { state with calls }

/-- What is written has a name of 1 to 255 bytes and less than 2^31 bytes of content. -/
def Fine (state : RpcCall Thread Server Reader) : RpcAction Thread Server Reader → Prop
  | .send _ package _ => package.Fits
  | .callbackSend _ _ package _ => package.Fits
  | .link action => state.link.Fine action
  | _ => True

instance (state : RpcCall Thread Server Reader) (action : RpcAction Thread Server Reader) :
    Decidable (state.Fine action) := by
  induction action using RpcAction.casesOn <;> unfold Fine <;> infer_instance

/-- What goes through the two sessions, and what the calls have made of it. -/
structure Linked (state : RpcCall Thread Server Reader) : Prop where
  link : state.link.Kept
  calls : state.calls.Truthful
  callbacks : state.callbacks.Faithful
  future : ∀ made package, (.future made, package) ∈ state.link.requests →
    made < state.calls.made ∧ package.reqId = callId made
  callback : ∀ index package, (.callback index, package) ∈ state.link.requests →
    index < state.callbacks.calls.length ∧ package.reqId = callId index
  received : ∀ item ∈ state.calls.received, ∃ made, state.link.Answers (.future made) item
  invoked : ∀ entry ∈ state.callbacks.invoked, ∀ item, entry.2.msg = some item →
    ∃ index, state.link.Answers (.callback index) item

variable {state after last : RpcCall Thread Server Reader} {actions : List (RpcAction Thread Server Reader)}

omit [DecidableEq Thread] [DecidableEq Server] [DecidableEq Reader] in
theorem linked_start : (start : RpcCall Thread Server Reader).Linked where
  link := RpcLink.kept_start
  calls := SyncCalls.truthful_construct
  callbacks := CallbackCalls.faithful_construct
  future := by intro made package member; cases member
  callback := by intro index package member; cases member
  received := by intro item member; cases member
  invoked := by intro entry member; cases member

omit [DecidableEq Server] in
/-- A step of the calls that wait, which may bring a response. -/
theorem Linked.step_calls {action : SyncAction Thread Reader} {calls : SyncCalls Thread Reader} {dispatched : Nat}
    (linked : state.Linked) (taken : state.calls.next action = some calls)
    (comes : ∀ reader item, action = .receive reader item → ∃ made, state.link.Answers (.future made) item) :
    ({ state with calls, dispatched } : RpcCall Thread Server Reader).Linked := by
  have change := SyncCalls.change_of_next taken
  obtain ⟨more, fewer⟩ := change.grows
  refine ⟨linked.link, linked.calls.change change, linked.callbacks, fun made package member => ?_,
    linked.callback, fun item member => ?_, linked.invoked⟩
  · obtain ⟨below, named⟩ := linked.future made package member
    exact ⟨below.trans_le more, named⟩
  · rcases fewer item member with old | ⟨reader, rfl⟩
    · exact linked.received item old
    · exact comes reader item rfl

omit [DecidableEq Thread] [DecidableEq Server] [DecidableEq Reader] in
/-- A step of the calls with a callback, which may bring a response. -/
theorem Linked.step_callbacks {action : CallbackAction} {callbacks : CallbackCalls} {dispatched : Nat}
    (linked : state.Linked) (taken : state.callbacks.next action = some callbacks)
    (comes : ∀ item, action = .invoke item → ∃ index, state.link.Answers (.callback index) item) :
    ({ state with callbacks, dispatched } : RpcCall Thread Server Reader).Linked := by
  obtain ⟨more, fewer⟩ := CallbackCalls.invoked_next taken
  refine ⟨linked.link, linked.calls, linked.callbacks.next taken, linked.future,
    fun index package member => ?_, linked.received, fun entry member item has => ?_⟩
  · obtain ⟨below, named⟩ := linked.callback index package member
    exact ⟨below.trans_le more, named⟩
  · rcases fewer entry member with old | brings
    · exact linked.invoked entry old item has
    · exact comes item (brings item has)

omit [DecidableEq Reader] in
/-- A step of the link, with a request whose id is that of its call. -/
theorem Linked.step_link {action : LinkAction Thread Server} {link : RpcLink Thread Server} (linked : state.Linked)
    (fine : state.link.Fine action) (taken : state.link.next action = some link)
    (future : ∀ thread made package room, action = .request thread (.future made) package room →
      made < state.calls.made ∧ package.reqId = callId made)
    (callback : ∀ thread index package room, action = .request thread (.callback index) package room →
      index < state.callbacks.calls.length ∧ package.reqId = callId index) :
    ({ state with link } : RpcCall Thread Server Reader).Linked := by
  have grows := RpcLink.grows_of_next taken
  have added (key : CallKey) (package : Package) (member : (key, package) ∈ link.requests) :
      (key, package) ∈ state.link.requests ∨ ∃ thread room, action = .request thread key package room :=
    RpcLink.requests_of_next taken member
  refine ⟨linked.link.next fine taken, linked.calls, linked.callbacks, fun made package member => ?_,
    fun index package member => ?_, fun item member => ?_, fun entry member item has => ?_⟩
  · rcases added _ package member with old | ⟨thread, room, rfl⟩
    · exact linked.future made package old
    · exact future thread made package room rfl
  · rcases added _ package member with old | ⟨thread, room, rfl⟩
    · exact linked.callback index package old
    · exact callback thread index package room rfl
  · obtain ⟨made, answers⟩ := linked.received item member
    exact ⟨made, grows.answered answers⟩
  · obtain ⟨index, answers⟩ := linked.invoked entry member item has
    exact ⟨index, grows.answered answers⟩

omit [DecidableEq Thread] [DecidableEq Server] [DecidableEq Reader] in
/-- The next message that the client has got is an answer to one of its requests. -/
theorem Linked.delivered {proxy : Proxy} {item : ProxyMsg} (linked : state.Linked)
    (found : state.link.down.client.delivered[state.dispatched]? = some (proxy, item)) :
    ∃ key, key.proxy = proxy ∧ state.link.Answers key item :=
  linked.link.delivered (List.mem_of_getElem? found)

theorem Linked.next {action : RpcAction Thread Server Reader} (linked : state.Linked)
    (fine : state.Fine action) (taken : state.next action = some after) : after.Linked := by
  cases action with
  | call thread step =>
    simp only [RpcCall.next] at taken
    split at taken
    · cases taken
    · obtain ⟨calls, isNext, rfl⟩ := Option.map_eq_some_iff.mp taken
      exact linked.step_calls isNext (by intro reader item same; cases same)
  | send thread package room =>
    simp only [RpcCall.next] at taken
    split at taken
    · rename_i request place
      obtain ⟨reqId, taken⟩ := Option.ite_none_right_eq_some.mp taken
      obtain ⟨link, isNext, rfl⟩ := Option.map_eq_some_iff.mp taken
      obtain ⟨below, named⟩ := linked.calls.at_place place
      have fits : state.link.Fine (.request thread (.future request.made) package room) := fine
      refine linked.step_link fits isNext ?_ (by intro thread index package room same; cases same)
      rintro _ _ _ _ ⟨⟩
      exact ⟨below, reqId.trans named⟩
    · cases taken
  | sent thread written =>
    simp only [RpcCall.next] at taken
    split at taken
    · obtain ⟨_, taken⟩ := Option.ite_none_right_eq_some.mp taken
      obtain ⟨calls, isNext, rfl⟩ := Option.map_eq_some_iff.mp taken
      exact linked.step_calls isNext (by intro reader item same; cases same)
    · cases taken
  | callback action =>
    obtain ⟨own, taken⟩ := Option.ite_none_right_eq_some.mp taken
    obtain ⟨callbacks, isNext, rfl⟩ := Option.map_eq_some_iff.mp taken
    refine linked.step_callbacks isNext ?_
    rintro item rfl
    cases own
  | callbackSend thread index package room =>
    simp only [RpcCall.next] at taken
    split at taken
    · cases taken
    · rename_i call found
      obtain ⟨⟨_, reqId⟩, taken⟩ := Option.ite_none_right_eq_some.mp taken
      obtain ⟨link, isNext, rfl⟩ := Option.map_eq_some_iff.mp taken
      have fits : state.link.Fine (.request thread (.callback index) package room) := fine
      refine linked.step_link fits isNext (by intro thread made package room same; cases same) ?_
      rintro _ _ _ _ ⟨⟩
      exact ⟨(List.getElem?_eq_some_iff.mp found).1, reqId.trans (linked.callbacks.reqId_eq found)⟩
  | callbackSent index written =>
    obtain ⟨_, taken⟩ := Option.ite_none_right_eq_some.mp taken
    obtain ⟨callbacks, isNext, rfl⟩ := Option.map_eq_some_iff.mp taken
    exact linked.step_callbacks isNext (by intro item same; cases same)
  | link action =>
    obtain ⟨other, taken⟩ := Option.ite_none_left_eq_some.mp taken
    obtain ⟨link, isNext, rfl⟩ := Option.map_eq_some_iff.mp taken
    refine linked.step_link fine isNext ?_ ?_
    · rintro _ _ _ _ rfl
      exact absurd rfl other
    · rintro _ _ _ _ rfl
      exact absurd rfl other
  | receive reader =>
    simp only [RpcCall.next] at taken
    split at taken
    · cases taken
    · rename_i item found
      obtain ⟨calls, isNext, rfl⟩ := Option.map_eq_some_iff.mp taken
      refine linked.step_calls isNext ?_
      rintro _ _ ⟨⟩
      obtain ⟨key, isProxy, answers⟩ := linked.delivered found
      cases key with
      | future made => exact ⟨made, answers⟩
      | callback index => cases isProxy
    · rename_i item found
      obtain ⟨callbacks, isNext, rfl⟩ := Option.map_eq_some_iff.mp taken
      refine linked.step_callbacks isNext ?_
      rintro _ ⟨⟩
      obtain ⟨key, isProxy, answers⟩ := linked.delivered found
      cases key with
      | future made => cases isProxy
      | callback index => exact ⟨index, answers⟩
    · cases taken
      exact ⟨linked.link, linked.calls, linked.callbacks, linked.future, linked.callback, linked.received,
        linked.invoked⟩
  | setValue reader =>
    obtain ⟨calls, isNext, rfl⟩ := Option.map_eq_some_iff.mp taken
    exact linked.step_calls isNext (by intro reader item same; cases same)

theorem linked_of_path (path : Path (Guarded (Taken next) Fine) start actions last) : last.Linked :=
  path.invariant Linked (fun _ _ _ linked step => linked.next step.1 step.2) linked_start

omit [DecidableEq Thread] [DecidableEq Server] [DecidableEq Reader] in
/-- A call has one request. -/
theorem Linked.request_iff {key : CallKey} {package other : Package} (linked : state.Linked)
    (entry : (key, package) ∈ state.link.requests) : (key, other) ∈ state.link.requests ↔ other = package := by
  refine ⟨fun isEntry => ?_, fun same => same ▸ entry⟩
  have same := List.inj_on_of_nodup_map linked.link.keyed isEntry entry rfl
  exact (Prod.mk.inj same).2

/-- However callers, sessions, service and readers take their turns, in a run of at most 2^32 calls a call
that returns a response has had one request written, and returns what the service has written for this very
request, as it was, with its name and its id. -/
theorem answered_of_path (path : Path (Guarded (Taken next) Fine) start actions last)
    (few : last.calls.made ≤ 2 ^ 32) {thread : Thread} {request : SyncRequest} {item : ProxyMsg}
    (returned : last.calls.callers thread = .returned request .ok (some item)) :
    ∃ package response, (∀ other, (.future request.made, other) ∈ last.link.requests ↔ other = package) ∧
      (package.message, response) ∈ last.link.answers ∧ response.message = item ∧
      response.rpcName = package.rpcName ∧ response.reqId = package.reqId := by
  have linked := linked_of_path path
  obtain ⟨below, named, own⟩ := linked.calls.at_place returned
  obtain ⟨sameId, member⟩ := own item rfl
  obtain ⟨made, package, response, entry, answer, rfl, rpcName, reqId⟩ := linked.received item member
  obtain ⟨belowToo, namedToo⟩ := linked.future made package entry
  -- The response carries the id of the request it answers and of the call that returns it.
  have same : made = request.made := by
    refine callId_inj (belowToo.trans_le few) (below.trans_le few) ?_
    rw [← namedToo, ← named, ← sameId]
    exact reqId.symm
  subst same
  exact ⟨package, response, fun other => linked.request_iff entry, answer, rfl, rpcName, reqId⟩

/-- One call, of which the request and the answer each come in at once. -/
theorem answered_of_path_one_call :
    let package : Package := ⟨[102], CommModel.request, RpcModel.future, 1, .ok, []⟩
    let response := package.message.response .ok [.value [7]]
    let goes (thread count : Nat) : List (WireAction Nat) := List.replicate count (.session (.step thread))
    let opens : List (WireAction Nat) := .session (.start 0) :: goes 0 7
    let ups (actions : List (WireAction Nat)) : List (RpcAction Nat Nat Nat) :=
      actions.map fun action => .link (.up action)
    let downs (actions : List (WireAction Nat)) : List (RpcAction Nat Nat Nat) :=
      actions.map fun action => .link (.down action)
    let actions := ups opens ++ downs opens ++ [.call 1 .getNextPromise, .send 1 package true] ++ ups (goes 1 4) ++
      [.sent 1 true, .call 1 .getPromise, .call 1 .getFuture] ++ ups [.receive package.bytes] ++
      .link (.answer 1 0 .ok [.value [7]] true) :: downs (goes 1 4 ++ [.receive response.bytes]) ++
      [.receive 0, .setValue 0, .call 1 .ready, .call 1 .remove]
    ∃ last : RpcCall Nat Nat Nat, Path (Guarded (Taken next) Fine) start actions last ∧
      last.calls.callers 1 = .returned ⟨1, 0, 0⟩ .ok (some response.message) ∧
      ∃ package other, (∀ another, (.future 0, another) ∈ last.link.requests ↔ another = package) ∧
        (package.message, other) ∈ last.link.answers ∧ other.message = response.message ∧
        other.rpcName = package.rpcName ∧ other.reqId = package.reqId := by
  intro package response goes opens ups downs actions
  have runs : (exec (checked next Fine) start actions).map (fun last =>
      decide (last.calls.made ≤ 2 ^ 32 ∧
        last.calls.callers 1 = .returned ⟨1, 0, 0⟩ .ok (some response.message))) = some true := by
    decide +kernel
  obtain ⟨last, run, decided⟩ := Option.map_eq_some_iff.mp runs
  have path := of_checked run
  obtain ⟨few, returned⟩ := of_decide_eq_true decided
  exact ⟨last, path, returned, answered_of_path path few returned⟩

end RpcCall

end BTool.BoostNet
