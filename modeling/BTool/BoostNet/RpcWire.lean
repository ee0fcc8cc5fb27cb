import BTool.BoostNet.RpcSegmentation
import BTool.BoostNet.TcpSessionRuns

/-! What a service writes to a session, and what its client makes of the bytes that have arrived. -/

namespace BTool.BoostNet

open BTool.Foundation BTool.Foundation.Path BTool.TaskPool

/-- The message that a thread in `write` has still to append. -/
def SessionPc.inHand : SessionPc → Option (List UInt8)
  | .sending sendMsg _ | .sendTest sendMsg _ _ => some sendMsg
  | _ => none

def SessionAction.isWrite {Thread : Type} : SessionAction Thread → Bool
  | .write .. => true
  | _ => false

namespace Package

/-- The package gets to somebody: it is a request, or a response of a known model. -/
def Routed (package : Package) : Prop :=
  package.commModel = CommModel.request ∨ package.model = RpcModel.future ∨ package.model = RpcModel.callback

instance (package : Package) : Decidable package.Routed := inferInstanceAs (Decidable (_ ∨ _))

/-- Who is to get the package. -/
def proxy (package : Package) : Proxy :=
  if package.commModel = CommModel.request then .bind
  else if package.model = RpcModel.future then .sync
  else .callback

/-- The bytes that are written. -/
def bytes (package : Package) : List UInt8 := package.packageMsg.getPackage

end Package

/-- A session of a service, with its client. -/
structure RpcWire (Thread : Type) where
  session : SessionLife Thread
  /-- What the client has read from its socket. -/
  arrived : List UInt8
  client : Connection

inductive WireAction (Thread : Type) where
  | session (action : SessionAction Thread)
  /-- A thread packages a message, as `rsp_bind`, `callback_send` and `sync_send_impl` do, and writes it. -/
  | write (thread : Thread) (package : Package) (room : Bool)
  /-- Some of what has been sent and not been read yet comes in. -/
  | receive (chunk : List UInt8)

namespace RpcWire

variable {Thread : Type} [DecidableEq Thread]

def start : RpcWire Thread := ⟨.construct, [], .opened⟩

def next (wire : RpcWire Thread) : WireAction Thread → Option (RpcWire Thread)
  | .session action =>
    if action.isWrite then none else (wire.session.next action).map fun session => { wire with session }
  | .write thread package room =>
    (wire.session.next (.write thread package.bytes room)).map fun session => { wire with session }
  | .receive chunk =>
    if wire.arrived ++ chunk <+: wire.session.sent.flatten then
      some { wire with arrived := wire.arrived ++ chunk, client := RpcClient.readCbk wire.client chunk }
    else none

/-- A package that is written has a name of 1 to 255 bytes, less than 2^31 bytes of content, and goes to
somebody. -/
def Fine (_ : RpcWire Thread) : WireAction Thread → Prop
  | .write _ package _ => package.Fits ∧ package.Routed
  | _ => True

instance (wire : RpcWire Thread) (action : WireAction Thread) : Decidable (wire.Fine action) := by
  induction action using WireAction.casesOn <;> unfold Fine <;> infer_instance

/-- The packages whose `write` returned true, of which the client has got the first ones, each once, in order and
as it was, and has as much of the next one as has arrived. -/
structure Delivers (wire : RpcWire Thread) (packages received : List Package) : Prop where
  packaged : ∀ package ∈ packages, package.Fits ∧ package.Routed
  accepted : wire.session.accepted = packages.map Package.bytes
  inOrder : received <+: packages
  opened : wire.client.closed = false
  delivered : wire.client.delivered = received.map fun package => (package.proxy, package.message)
  arrived : wire.arrived = (received.map Package.bytes).flatten ++ wire.client.buffer
  next : wire.client.buffer = [] ∨ ∃ package, received ++ [package] <+: packages ∧
    wire.client.buffer <+: package.bytes ∧ wire.client.buffer.length < package.bytes.length

end RpcWire

namespace SessionLife

variable {Thread : Type} [DecidableEq Thread] {life after : SessionLife Thread} {thread : Thread}
  {fact : List UInt8 → Prop}

/-- A fact about every message that has been taken, and every one in the hands of a thread. -/
structure Tells (fact : List UInt8 → Prop) (life : SessionLife Thread) : Prop where
  accepted : ∀ msg ∈ life.accepted, fact msg
  inHand : ∀ thread msg, (life.places thread).inHand = some msg → fact msg

/-- A thread goes to a place with no message in its hands that it did not have. -/
structure Hands (life : SessionLife Thread) (thread : Thread) (later : SessionLife Thread) (pc : SessionPc) :
    Prop where
  places : later.places = life.places
  accepted : ∀ msg ∈ later.accepted, msg ∈ life.accepted ∨ (life.places thread).inHand = some msg
  inHand : ∀ msg, pc.inHand = some msg → (life.places thread).inHand = some msg
  sent : life.sent <+: later.sent

private theorem Tells.goto {pc : SessionPc} (tells : life.Tells fact) (hands : Hands life thread after pc) :
    (after.goto thread pc).Tells fact := by
  refine ⟨fun msg member => ?_, fun other msg held => ?_⟩
  · rcases hands.accepted msg member with before | held
    · exact tells.accepted msg before
    · exact tells.inHand thread msg held
  · dsimp only [SessionLife.goto] at held
    by_cases here : other = thread
    · rw [here, Function.update_self] at held
      exact tells.inHand thread msg (hands.inHand msg held)
    · rw [Function.update_of_ne here, hands.places] at held
      exact tells.inHand other msg held

omit [DecidableEq Thread] in
theorem writeNext_spec : life.writeNext.accepted = life.accepted ∧ life.writeNext.places = life.places ∧
    life.sent <+: life.writeNext.sent := by
  unfold writeNext
  split
  · exact ⟨rfl, rfl, List.prefix_rfl⟩
  · exact ⟨rfl, rfl, List.prefix_append ..⟩

omit [DecidableEq Thread] in
theorem send_spec (sendMsg : List UInt8) :
    (life.send sendMsg).accepted = life.accepted ++ [sendMsg] ∧ (life.send sendMsg).places = life.places ∧
      life.sent <+: (life.send sendMsg).sent := by
  unfold send
  simp only
  split
  · exact ⟨rfl, rfl, List.prefix_rfl⟩
  · exact writeNext_spec

omit [DecidableEq Thread] in
private theorem Hands.of_none {later : SessionLife Thread} {pc : SessionPc} (places : later.places = life.places)
    (accepted : later.accepted = life.accepted) (none : pc.inHand = none) (sent : life.sent <+: later.sent) :
    Hands life thread later pc := by
  refine ⟨places, fun msg member => .inl (accepted ▸ member), fun msg held => ?_, sent⟩
  rw [none] at held
  cases held

/-- A thread goes on in its function. -/
private theorem hands_of_step (taken : life.step thread = some after) :
    ∃ later pc, after = later.goto thread pc ∧ Hands life thread later pc := by
  have goes {later : SessionLife Thread} {pc : SessionPc} (places : later.places = life.places)
      (accepted : later.accepted = life.accepted) (none : pc.inHand = none)
      (taken : some (later.goto thread pc) = some after) (sent : life.sent <+: later.sent) :
      ∃ later pc, after = later.goto thread pc ∧ Hands life thread later pc :=
    ⟨later, pc, (Option.some.inj taken).symm, .of_none places accepted none sent⟩
  cases here : life.places thread with
  | outside => simp [SessionLife.step, here] at taken
  | init =>
    simp only [SessionLife.step, here] at taken
    refine goes (by rfl) (by rfl) ?_ taken List.prefix_rfl
    split <;> rfl
  | starting pc =>
    simp only [SessionLife.step, here] at taken
    split at taken
    · exact goes (by rfl) (by rfl) rfl taken List.prefix_rfl
    · exact goes (by rfl) (by rfl) rfl taken List.prefix_rfl
    · exact goes (by rfl) (by rfl) rfl taken List.prefix_rfl
  | firstRead | atOpenCbk | openCbk | readCbk | nextRead | writeCbk | clearing | atCloseCbk | closeCbk =>
    simp only [SessionLife.step, here] at taken
    exact goes (by rfl) (by rfl) rfl taken List.prefix_rfl
  | readTest pc | writeTest pc =>
    simp only [SessionLife.step, here] at taken
    refine goes (by rfl) (by rfl) ?_ taken List.prefix_rfl
    cases life.switch.hasStoped pc with
    | goes pc => rfl
    | returns stoped => cases stoped <;> rfl
  | release =>
    simp only [SessionLife.step, here] at taken
    obtain ⟨_, taken⟩ := Option.ite_none_right_eq_some.mp taken
    have same : life.release.accepted = life.accepted ∧ life.release.places = life.places ∧
      life.sent <+: life.release.sent := writeNext_spec
    exact goes same.2.1 same.1 rfl taken same.2.2
  | sending sendMsg room =>
    simp only [SessionLife.step, here, lockWrite] at taken
    obtain ⟨_, taken⟩ := Option.ite_none_right_eq_some.mp taken
    refine ⟨_, _, (Option.some.inj taken).symm, by rfl, fun msg member => .inl member, fun msg held => ?_,
      List.prefix_rfl⟩
    rw [here]
    exact held
  | sendTest sendMsg room pc =>
    simp only [SessionLife.step, here] at taken
    split at taken
    · refine ⟨_, _, (Option.some.inj taken).symm, by rfl, fun msg member => .inl member, fun msg held => ?_,
        List.prefix_rfl⟩
      rw [here]
      exact held
    · rename_i isStarted test
      refine ⟨_, _, (Option.some.inj taken).symm, ?_, fun msg member => ?_, (by intro msg held; cases held), ?_⟩
      · dsimp only
        split
        · exact (send_spec sendMsg).2.1
        · rfl
      · dsimp only at member
        split at member
        · rw [(send_spec sendMsg).1, List.mem_append, List.mem_singleton] at member
          rw [here]
          exact member.imp_right fun same => congrArg some same.symm
        · exact .inl member
      · dsimp only
        split
        · exact (send_spec sendMsg).2.2
        · exact List.prefix_rfl
  | stopping pc =>
    simp only [SessionLife.step, here] at taken
    split at taken
    · exact goes (by rfl) (by rfl) rfl taken List.prefix_rfl
    · exact goes (by rfl) (by rfl) rfl taken List.prefix_rfl
    · exact goes (by rfl) (by rfl) rfl taken List.prefix_rfl
  | closing =>
    simp only [SessionLife.step, here, lockWrite] at taken
    obtain ⟨_, taken⟩ := Option.ite_none_right_eq_some.mp taken
    exact goes (by rfl) (by rfl) rfl taken List.prefix_rfl
  | resetting pc =>
    simp only [SessionLife.step, here] at taken
    refine goes (by rfl) (by rfl) ?_ taken List.prefix_rfl
    cases (life.switch.reset pc).2 with
    | goes pc => rfl
    | returns done => rfl

/-- What is written is all that gets into the hands of a thread. -/
theorem Tells.next {action : SessionAction Thread} (tells : life.Tells fact)
    (taken : life.next action = some after)
    (writes : ∀ thread sendMsg room, action = .write thread sendMsg room → fact sendMsg) :
    after.Tells fact ∧ life.sent <+: after.sent := by
  have enters {begun : SessionLife Thread} {thread : Thread} {pc : SessionPc} (places : begun.places = life.places)
      (accepted : begun.accepted = life.accepted) (sent : begun.sent = life.sent)
      (holds : ∀ msg, pc.inHand = some msg → fact msg) (taken : begun.enter thread pc = some after) :
      after.Tells fact ∧ life.sent <+: after.sent := by
    obtain ⟨_, taken⟩ := Option.ite_none_right_eq_some.mp taken
    obtain rfl := Option.some.inj taken
    refine ⟨⟨fun msg member => tells.accepted msg (accepted ▸ member), fun other msg held => ?_⟩,
      by rw [← sent]; exact List.prefix_rfl⟩
    dsimp only [SessionLife.goto] at held
    by_cases here : other = thread
    · rw [here, Function.update_self] at held
      exact holds msg held
    · rw [Function.update_of_ne here, places] at held
      exact tells.inHand other msg held
  cases action with
  | start thread =>
    obtain ⟨_, taken⟩ := Option.ite_none_left_eq_some.mp taken
    exact enters (by rfl) (by rfl) (by rfl) (by intro msg held; cases held) taken
  | shutdown thread => exact enters (by rfl) (by rfl) (by rfl) (by intro msg held; cases held) taken
  | write thread sendMsg room =>
    refine enters (by rfl) (by rfl) (by rfl) (fun msg held => ?_) taken
    exact Option.some.inj held ▸ writes thread sendMsg room rfl
  | readDone thread success | writeDone thread success =>
    obtain ⟨_, taken⟩ := Option.ite_none_left_eq_some.mp taken
    refine enters (by rfl) (by rfl) (by rfl) ?_ taken
    intro msg held
    cases success <;> cases held
  | step thread =>
    obtain ⟨later, pc, rfl, hands⟩ := hands_of_step taken
    exact ⟨tells.goto hands, hands.sent⟩

end SessionLife

namespace RpcWire

variable {Thread : Type} [DecidableEq Thread] {wire after last : RpcWire Thread} {packages : List Package}
  {actions : List (WireAction Thread)}

/-- The bytes of a package that the client can make something of. -/
def IsPackage (msg : List UInt8) : Prop := ∃ package : Package, package.Fits ∧ package.Routed ∧ package.bytes = msg

/-- The bytes that have arrived are the first of what was sent, and the client is what they make of it. -/
structure Carries (wire : RpcWire Thread) : Prop where
  settled : wire.session.Settled
  flows : wire.session.Flows
  tells : wire.session.Tells IsPackage
  arrived : wire.arrived <+: wire.session.sent.flatten
  client : ∃ items rest bad, Follows wire.client wire.arrived items rest bad

omit [DecidableEq Thread] in
theorem carries_start : (start : RpcWire Thread).Carries := by
  refine ⟨SessionLife.settled_construct, SessionLife.flows_construct, ⟨?_, ?_⟩, List.nil_prefix,
    [], [], false, opened_follows⟩
  · intro msg member
    cases member
  · intro thread msg held
    cases held

/-- A step of the session. -/
private theorem Carries.session {action : SessionAction Thread} {session : SessionLife Thread}
    (carries : wire.Carries) (taken : wire.session.next action = some session)
    (writes : ∀ thread sendMsg room, action = .write thread sendMsg room → IsPackage sendMsg) :
    ({ wire with session } : RpcWire Thread).Carries := by
  obtain ⟨thread, steps, _⟩ := carries.settled.steps_of_next taken
  obtain ⟨tells, sent⟩ := carries.tells.next taken writes
  obtain ⟨more, sent⟩ := sent
  refine ⟨carries.settled.steps steps, carries.flows.steps carries.settled steps, tells,
    carries.arrived.trans ?_, carries.client⟩
  dsimp only
  rw [← sent, List.flatten_append]
  exact List.prefix_append ..

theorem Carries.next {action : WireAction Thread} (carries : wire.Carries) (fine : wire.Fine action)
    (taken : wire.next action = some after) : after.Carries := by
  cases action with
  | session action =>
    obtain ⟨other, taken⟩ := Option.ite_none_left_eq_some.mp taken
    obtain ⟨session, isNext, rfl⟩ := Option.map_eq_some_iff.mp taken
    refine carries.session isNext ?_
    rintro thread sendMsg room rfl
    exact absurd rfl other
  | write thread package room =>
    obtain ⟨session, isNext, rfl⟩ := Option.map_eq_some_iff.mp taken
    refine carries.session isNext ?_
    rintro _ _ _ ⟨⟩
    exact ⟨package, fine.1, fine.2, rfl⟩
  | receive chunk =>
    obtain ⟨isPart, taken⟩ := Option.ite_none_right_eq_some.mp taken
    obtain rfl := Option.some.inj taken
    obtain ⟨items, rest, bad, follows⟩ := carries.client
    exact ⟨carries.settled, carries.flows, carries.tells, isPart, follows.readCbk chunk⟩

/-- Packages that go to somebody are all dispatched. -/
theorem dispatch_packages (routed : ∀ package ∈ packages, package.Routed) :
    dispatch (packages.map Package.message) =
      (packages.map fun package => (package.proxy, package.message), false) := by
  induction packages with
  | nil => rfl
  | cons package packages ih =>
    have rest := ih fun other member => routed other (List.mem_cons_of_mem _ member)
    have model : package.message.head.commModel = package.commModel ∧
        package.message.head.rpcModel = package.model := ⟨rfl, rfl⟩
    rw [List.map_cons, List.map_cons, dispatch, rest, model.1, model.2, Package.proxy]
    by_cases isRequest : package.commModel = CommModel.request
    · rw [if_pos isRequest, if_pos isRequest]
    · by_cases isFuture : package.model = RpcModel.future
      · rw [if_neg isRequest, if_pos isFuture, if_neg isRequest, if_pos isFuture]
      · have isCallback := ((routed package List.mem_cons_self).resolve_left isRequest).resolve_left isFuture
        rw [if_neg isRequest, if_neg isFuture, if_pos isCallback, if_neg isRequest, if_neg isFuture]

/-- Messages that are all packages. -/
private theorem exists_packages {msgs : List (List UInt8)} (all : ∀ msg ∈ msgs, IsPackage msg) :
    ∃ packages : List Package, (∀ package ∈ packages, package.Fits ∧ package.Routed) ∧
      msgs = packages.map Package.bytes := by
  induction msgs with
  | nil => exact ⟨[], by simp, rfl⟩
  | cons msg msgs ih =>
    obtain ⟨package, fits, routed, rfl⟩ := all msg List.mem_cons_self
    obtain ⟨packages, holds, rfl⟩ := ih fun other member => all other (List.mem_cons_of_mem _ member)
    exact ⟨package :: packages, List.forall_mem_cons.mpr ⟨⟨fits, routed⟩, holds⟩, rfl⟩

omit [DecidableEq Thread] in
theorem Carries.delivers (carries : wire.Carries) : ∃ packages received, wire.Delivers packages received := by
  obtain ⟨packages, holds, accepted⟩ := exists_packages carries.tells.accepted
  obtain ⟨items, rest, bad, follows⟩ := carries.client
  let frames := packages.map fun package => (package.bytes, package.message)
  have whole : ∀ frame ∈ frames, rpcFraming.front frame.1 = .frame frame.2 frame.1.length := by
    intro frame member
    obtain ⟨package, isPackage, rfl⟩ := List.mem_map.mp member
    have alone := (holds package isPackage).1.unpackageOne []
    rwa [List.append_nil] at alone
  have all : frames.map Prod.fst = packages.map Package.bytes := by simp [frames, Function.comp_def]
  have isPart : wire.arrived <+: (frames.map Prod.fst).flatten := by
    obtain ⟨more, sent⟩ := carries.flows.sentOf
    rw [all, ← accepted, ← sent, List.flatten_append]
    exact carries.arrived.trans (List.prefix_append ..)
  obtain ⟨read, left, part, split, arrived, drains, behind⟩ := Framing.drains_part whole isPart
  obtain ⟨received, remaining, rfl, rfl, rfl⟩ := List.map_eq_append_iff.mp split
  obtain ⟨rfl, rfl, rfl⟩ := drains.unique follows.drains
  have routed : ∀ package ∈ received, package.Routed := fun package member =>
    (holds package (List.mem_append_left _ member)).2
  have messages : (received.map fun package => (package.bytes, package.message)).map Prod.snd =
      received.map Package.message := by simp [Function.comp_def]
  have closed := follows.closed
  have delivered := follows.delivered rfl
  rw [messages, dispatch_packages routed] at closed delivered
  have buffer := follows.buffer closed
  refine ⟨received ++ remaining, received, holds, accepted, List.prefix_append .., closed, delivered, ?_, ?_⟩
  · rw [buffer, arrived]
    simp [Function.comp_def]
  · rw [buffer]
    refine behind.imp_right ?_
    rintro ⟨next, later, isNext, begins, short⟩
    obtain ⟨package, others, rfl, rfl, rfl⟩ := List.map_eq_cons_iff.mp isNext
    exact ⟨package, by simp, begins, short⟩

theorem length_bytes_pos (package : Package) : 0 < package.bytes.length := by
  simp only [Package.bytes, Package.packageMsg, ProxyMsg.getPackage, List.length_append, MessageHead.length_bytes,
    MessageHead.size]
  omega

omit [DecidableEq Thread] in
/-- Once all that was taken has arrived, the client has got it all. -/
theorem Delivers.all {received : List Package} (delivers : wire.Delivers packages received)
    (arrived : wire.arrived = wire.session.accepted.flatten) : received = packages := by
  obtain ⟨more, rfl⟩ := delivers.inOrder
  have behind : wire.client.buffer = (more.map Package.bytes).flatten := by
    have both := delivers.arrived.symm.trans arrived
    rw [delivers.accepted, List.map_append, List.flatten_append] at both
    exact List.append_cancel_left both
  cases more with
  | nil => exact (List.append_nil _).symm
  | cons package more =>
    exfalso
    have positive := length_bytes_pos package
    rw [List.map_cons, List.flatten_cons] at behind
    have long := congrArg List.length behind
    rw [List.length_append] at long
    rcases delivers.next with nothing | ⟨other, isNext, _, short⟩
    · rw [nothing, List.length_nil] at long
      omega
    · obtain ⟨_, same⟩ := (List.prefix_append_right_inj received).mp isNext
      obtain ⟨rfl, _⟩ := List.cons.inj same
      omega

/-- However the threads of the service take their turns with the writes of packages and the completions of the
session, and however its bytes come in, the client gets the packages whose `write` returned true, each once, in
order and as it was, and nothing else; and all of them once all of their bytes have arrived. -/
theorem delivers_of_path (path : Path (Guarded (Taken next) Fine) start actions last) :
    ∃ packages received, last.Delivers packages received ∧
      (last.arrived = last.session.accepted.flatten → received = packages) := by
  have carries := path.invariant Carries
    (fun before action after carries step => carries.next step.1 step.2) carries_start
  obtain ⟨packages, received, delivers⟩ := carries.delivers
  exact ⟨packages, received, delivers, delivers.all⟩

/-- Two responses, of which the second one is written while the first one is on its way, come in in three
pieces. -/
theorem delivers_of_path_two_responses :
    let first : Package := ⟨[102], CommModel.rsponse, RpcModel.callback, 1, .ok, [.value [7]]⟩
    let second : Package := ⟨[103], CommModel.rsponse, RpcModel.future, 2, .fail, []⟩
    let stream := first.bytes ++ second.bytes
    let goes (thread count : Nat) : List (WireAction Nat) :=
      List.replicate count (.session (.step thread))
    let actions := .session (.start 0) :: goes 0 7 ++ .write 1 first true :: goes 1 4 ++
      .receive (stream.take 5) :: .write 2 second true :: goes 2 4 ++
      .session (.writeDone 3 true) :: goes 3 5 ++ [.receive ((stream.drop 5).take 12), .receive (stream.drop 17)]
    ∃ last : RpcWire Nat, Path (Guarded (Taken next) Fine) start actions last ∧
      (∃ packages received, last.Delivers packages received ∧
        (last.arrived = last.session.accepted.flatten → received = packages)) ∧
      last.client.delivered = [(.callback, first.message), (.sync, second.message)] := by
  intro first second stream goes actions
  have runs : (exec (checked next Fine) start actions).map (fun last =>
      decide (last.client.delivered = [(.callback, first.message), (.sync, second.message)])) = some true := by
    decide +kernel
  obtain ⟨last, run, decided⟩ := Option.map_eq_some_iff.mp runs
  have path := of_checked run
  exact ⟨last, path, delivers_of_path path, of_decide_eq_true decided⟩

end RpcWire

/-- A call of the client, by its number among those of its kind. -/
inductive CallKey where
  | future (made : Nat)
  | callback (index : Nat)
deriving DecidableEq

namespace CallKey

def model : CallKey → UInt8
  | .future _ => RpcModel.future
  | .callback _ => RpcModel.callback

/-- Who is to get the answer. -/
def proxy : CallKey → Proxy
  | .future _ => .sync
  | .callback _ => .callback

end CallKey

/-- What `rsp_bind` packages for a request. -/
def ProxyMsg.response (request : ProxyMsg) (status : MsgStatus) (args : List Arg) : Package :=
  ⟨request.rpcName, CommModel.rsponse, request.head.rpcModel, request.head.reqId, status, args⟩

/-- The sessions between a client and a service, on each of which one of them writes and the other one reads. -/
structure RpcLink (Thread Server : Type) where
  /-- From the client to the service. -/
  up : RpcWire Thread
  down : RpcWire Server
  /-- The request that has been packaged for a call. -/
  requests : List (CallKey × Package)
  /-- The requests that have been answered, with what has been packaged for them. -/
  answers : List (ProxyMsg × Package)

inductive LinkAction (Thread Server : Type) where
  /-- A call packages its request and writes it. -/
  | request (thread : Thread) (key : CallKey) (package : Package) (room : Bool)
  | up (action : WireAction Thread)
  /-- The service answers a request that it has got. -/
  | answer (server : Server) (index : Nat) (status : MsgStatus) (args : List Arg) (room : Bool)
  | down (action : WireAction Server)

def LinkAction.isRequest {Thread Server : Type} : LinkAction Thread Server → Bool
  | .request .. => true
  | _ => false

def WireAction.isWrite {Thread : Type} : WireAction Thread → Bool
  | .write .. => true
  | _ => false

namespace RpcLink

variable {Thread Server : Type} [DecidableEq Thread] [DecidableEq Server]

def start : RpcLink Thread Server := ⟨.start, .start, [], []⟩

def next (link : RpcLink Thread Server) : LinkAction Thread Server → Option (RpcLink Thread Server)
  | .request thread key package room =>
    if package.commModel = CommModel.request ∧ package.model = key.model ∧ key ∉ link.requests.map Prod.fst then
      (link.up.next (.write thread package room)).map fun up =>
        { link with up, requests := link.requests ++ [(key, package)] }
    else none
  | .up action => if action.isWrite then none else (link.up.next action).map fun up => { link with up }
  | .answer server index status args room =>
    match link.up.client.delivered[index]? with
    | some (.bind, request) =>
      (link.down.next (.write server (request.response status args) room)).map fun down =>
        { link with down, answers := link.answers ++ [(request, request.response status args)] }
    | _ => none
  | .down action => if action.isWrite then none else (link.down.next action).map fun down => { link with down }

/-- What is written has a name of 1 to 255 bytes and less than 2^31 bytes of content. -/
def Fine (link : RpcLink Thread Server) : LinkAction Thread Server → Prop
  | .request _ _ package _ => package.Fits
  | .answer _ index status args _ =>
    ∀ delivered ∈ link.up.client.delivered[index]?, (delivered.2.response status args).Fits
  | _ => True

instance (link : RpcLink Thread Server) (action : LinkAction Thread Server) : Decidable (link.Fine action) := by
  induction action using LinkAction.casesOn <;> unfold Fine <;> infer_instance

/-- The bytes of a request. -/
def Asked (requests : List (CallKey × Package)) (msg : List UInt8) : Prop :=
  ∃ key package, (key, package) ∈ requests ∧ package.Fits ∧ package.bytes = msg

/-- The bytes of an answer. -/
def Answered (answers : List (ProxyMsg × Package)) (msg : List UInt8) : Prop :=
  ∃ request response, (request, response) ∈ answers ∧ response.Fits ∧ response.bytes = msg

/-- The answer goes to a request that has been written, and carries its name, its model and its id. -/
structure Replies (requests : List (CallKey × Package)) (request : ProxyMsg) (response : Package) : Prop where
  asked : ∃ key package, (key, package) ∈ requests ∧ package.message = request
  commModel : response.commModel = CommModel.rsponse
  rpcName : response.rpcName = request.rpcName
  model : response.model = request.head.rpcModel
  reqId : response.reqId = request.head.reqId

/-- The message is an answer that has been written for the request of this call. -/
def Answers (link : RpcLink Thread Server) (key : CallKey) (item : ProxyMsg) : Prop :=
  ∃ package response, (key, package) ∈ link.requests ∧ (package.message, response) ∈ link.answers ∧
    response.message = item ∧ response.rpcName = package.rpcName ∧ response.reqId = package.reqId

/-- What goes through the two sessions are the requests and their answers. -/
structure Kept (link : RpcLink Thread Server) : Prop where
  up : link.up.Carries
  down : link.down.Carries
  asked : link.up.session.Tells (Asked link.requests)
  answered : link.down.session.Tells (Answered link.answers)
  keyed : (link.requests.map Prod.fst).Nodup
  models : ∀ key package, (key, package) ∈ link.requests → package.model = key.model
  answers : ∀ request response, (request, response) ∈ link.answers → Replies link.requests request response

variable {link after : RpcLink Thread Server} {key : CallKey} {item : ProxyMsg}

omit [DecidableEq Thread] [DecidableEq Server] in
theorem kept_start : (start : RpcLink Thread Server).Kept where
  up := RpcWire.carries_start
  down := RpcWire.carries_start
  asked := ⟨(by intro msg member; cases member), (by intro thread msg held; cases held)⟩
  answered := ⟨(by intro msg member; cases member), (by intro thread msg held; cases held)⟩
  keyed := List.nodup_nil
  models := by intro key package member; cases member
  answers := by intro request response member; cases member

/-- Packages of the same bytes are the same message. -/
theorem message_of_bytes {package other : Package} (fits : package.Fits) (fits' : other.Fits)
    (same : package.bytes = other.bytes) : package.message = other.message := by
  have first := fits.unpackageOne []
  have second := fits'.unpackageOne []
  rw [show package.packageMsg.getPackage = other.packageMsg.getPackage from same, second] at first
  exact (Front.frame.inj first).1.symm

omit [DecidableEq Thread] in
/-- What the far end of a session has got was written there. -/
theorem delivered_mem {wire : RpcWire Thread} {fact : List UInt8 → Prop} {proxy : Proxy}
    (carries : wire.Carries) (tells : wire.session.Tells fact) (member : (proxy, item) ∈ wire.client.delivered) :
    ∃ package : Package, package.Fits ∧ fact package.bytes ∧ package.proxy = proxy ∧ package.message = item := by
  obtain ⟨packages, received, delivers⟩ := carries.delivers
  rw [delivers.delivered] at member
  obtain ⟨package, isReceived, same⟩ := List.mem_map.mp member
  obtain ⟨rfl, rfl⟩ := Prod.mk.inj same
  have isWritten := delivers.inOrder.subset isReceived
  refine ⟨package, (delivers.packaged package isWritten).1, tells.accepted _ ?_, rfl, rfl⟩
  rw [delivers.accepted]
  exact List.mem_map_of_mem isWritten

omit [DecidableEq Thread] in
/-- A fact that is known of what is in a session and of no less later. -/
theorem tells_mono {life : SessionLife Thread} {fact weaker : List UInt8 → Prop} (tells : life.Tells fact)
    (weaken : ∀ msg, fact msg → weaker msg) : life.Tells weaker :=
  ⟨fun msg member => weaken msg (tells.accepted msg member),
    fun thread msg held => weaken msg (tells.inHand thread msg held)⟩

theorem tells_wire {wire wire' : RpcWire Thread} {action : WireAction Thread} {fact : List UInt8 → Prop}
    (tells : wire.session.Tells fact) (taken : wire.next action = some wire')
    (writes : ∀ thread package room, action = .write thread package room → fact package.bytes) :
    wire'.session.Tells fact := by
  cases action with
  | session action =>
    obtain ⟨other, taken⟩ := Option.ite_none_left_eq_some.mp taken
    obtain ⟨session, isNext, rfl⟩ := Option.map_eq_some_iff.mp taken
    refine (tells.next isNext ?_).1
    rintro thread sendMsg room rfl
    exact absurd rfl other
  | write thread package room =>
    obtain ⟨session, isNext, rfl⟩ := Option.map_eq_some_iff.mp taken
    refine (tells.next isNext ?_).1
    rintro _ _ _ ⟨⟩
    exact writes thread package room rfl
  | receive chunk =>
    obtain ⟨isPart, taken⟩ := Option.ite_none_right_eq_some.mp taken
    obtain rfl := Option.some.inj taken
    exact tells

omit [DecidableEq Thread] in
theorem fine_of_read {wire : RpcWire Thread} {action : WireAction Thread} (read : ¬ action.isWrite = true) :
    wire.Fine action := by
  cases action with
  | write thread package room => exact absurd rfl read
  | session action => trivial
  | receive chunk => trivial

/-- Requests and answers are only added. -/
structure Grows (link after : RpcLink Thread Server) : Prop where
  requests : ∀ entry ∈ link.requests, entry ∈ after.requests
  answers : ∀ entry ∈ link.answers, entry ∈ after.answers

omit [DecidableEq Thread] [DecidableEq Server] in
theorem Grows.answered (grows : link.Grows after) (answers : link.Answers key item) : after.Answers key item := by
  obtain ⟨package, response, request, answer, rest⟩ := answers
  exact ⟨package, response, grows.requests _ request, grows.answers _ answer, rest⟩

theorem grows_of_next {action : LinkAction Thread Server} (taken : link.next action = some after) :
    link.Grows after := by
  cases action with
  | request thread key package room =>
    obtain ⟨_, taken⟩ := Option.ite_none_right_eq_some.mp taken
    obtain ⟨up, _, rfl⟩ := Option.map_eq_some_iff.mp taken
    exact ⟨fun entry member => List.mem_append_left _ member, fun entry member => member⟩
  | up action =>
    obtain ⟨_, taken⟩ := Option.ite_none_left_eq_some.mp taken
    obtain ⟨up, _, rfl⟩ := Option.map_eq_some_iff.mp taken
    exact ⟨fun entry member => member, fun entry member => member⟩
  | answer server index status args room =>
    simp only [RpcLink.next] at taken
    split at taken
    · obtain ⟨down, _, rfl⟩ := Option.map_eq_some_iff.mp taken
      exact ⟨fun entry member => member, fun entry member => List.mem_append_left _ member⟩
    · cases taken
  | down action =>
    obtain ⟨_, taken⟩ := Option.ite_none_left_eq_some.mp taken
    obtain ⟨down, _, rfl⟩ := Option.map_eq_some_iff.mp taken
    exact ⟨fun entry member => member, fun entry member => member⟩

/-- Only a call adds a request. -/
theorem requests_of_next {action : LinkAction Thread Server} {package : Package}
    (taken : link.next action = some after) (member : (key, package) ∈ after.requests) :
    (key, package) ∈ link.requests ∨ ∃ thread room, action = .request thread key package room := by
  cases action with
  | request thread key package room =>
    obtain ⟨_, taken⟩ := Option.ite_none_right_eq_some.mp taken
    obtain ⟨up, _, rfl⟩ := Option.map_eq_some_iff.mp taken
    rcases List.mem_append.mp member with old | new
    · exact .inl old
    · cases List.mem_singleton.mp new
      exact .inr ⟨thread, room, rfl⟩
  | up action =>
    obtain ⟨_, taken⟩ := Option.ite_none_left_eq_some.mp taken
    obtain ⟨up, _, rfl⟩ := Option.map_eq_some_iff.mp taken
    exact .inl member
  | answer server index status args room =>
    simp only [RpcLink.next] at taken
    split at taken
    · obtain ⟨down, _, rfl⟩ := Option.map_eq_some_iff.mp taken
      exact .inl member
    · cases taken
  | down action =>
    obtain ⟨_, taken⟩ := Option.ite_none_left_eq_some.mp taken
    obtain ⟨down, _, rfl⟩ := Option.map_eq_some_iff.mp taken
    exact .inl member

/-- A response goes to the proxy of its model. -/
theorem proxy_of_model {package : Package} (isResponse : package.commModel = CommModel.rsponse)
    (model : package.model = key.model) : package.Routed ∧ package.proxy = key.proxy := by
  have other : CommModel.rsponse ≠ CommModel.request := by decide
  unfold Package.Routed Package.proxy
  rw [isResponse, model, if_neg other]
  cases key with
  | future made => exact ⟨.inr (.inl rfl), rfl⟩
  | callback index => exact ⟨.inr (.inr rfl), rfl⟩

theorem Kept.next {action : LinkAction Thread Server} (kept : link.Kept) (fine : link.Fine action)
    (taken : link.next action = some after) : after.Kept := by
  cases action with
  | request thread key package room =>
    obtain ⟨⟨isRequest, model, unsent⟩, taken⟩ := Option.ite_none_right_eq_some.mp taken
    obtain ⟨up, isNext, rfl⟩ := Option.map_eq_some_iff.mp taken
    have fits : link.up.Fine (.write thread package room) := ⟨fine, .inl isRequest⟩
    refine ⟨kept.up.next fits isNext, kept.down, tells_wire (tells_mono kept.asked ?_) isNext ?_, kept.answered,
      ?_, ?_, ?_⟩
    · rintro msg ⟨key, other, member, rest⟩
      exact ⟨key, other, List.mem_append_left _ member, rest⟩
    · rintro _ _ _ ⟨⟩
      exact ⟨key, package, by simp, fine, rfl⟩
    · rw [List.map_append]
      exact kept.keyed.append (List.nodup_singleton _) (by simpa using unsent)
    · intro other package' member
      rcases List.mem_append.mp member with old | new
      · exact kept.models other package' old
      · cases List.mem_singleton.mp new
        exact model
    · intro request response member
      obtain ⟨⟨other, package', asked, message⟩, commModel, rpcName, model, reqId⟩ :=
        kept.answers request response member
      exact ⟨⟨other, package', List.mem_append_left _ asked, message⟩, commModel, rpcName, model, reqId⟩
  | up action =>
    obtain ⟨other, taken⟩ := Option.ite_none_left_eq_some.mp taken
    obtain ⟨up, isNext, rfl⟩ := Option.map_eq_some_iff.mp taken
    refine ⟨kept.up.next (fine_of_read other) isNext, kept.down, tells_wire kept.asked isNext ?_, kept.answered,
      kept.keyed, kept.models, kept.answers⟩
    rintro thread package room rfl
    exact absurd rfl other
  | answer server index status args room =>
    simp only [RpcLink.next] at taken
    split at taken
    · rename_i request found
      obtain ⟨down, isNext, rfl⟩ := Option.map_eq_some_iff.mp taken
      have fits : (request.response status args).Fits := fine _ found
      obtain ⟨sent, sentFits, ⟨key, package, asked, fits', same⟩, _, rfl⟩ :=
        delivered_mem kept.up kept.asked (List.mem_of_getElem? found)
      have message := message_of_bytes fits' sentFits same
      have model : sent.message.head.rpcModel = key.model := by
        rw [← message]
        exact kept.models key package asked
      have isResponse : (sent.message.response status args).commModel = CommModel.rsponse := rfl
      have isFine : link.down.Fine (.write server (sent.message.response status args) room) :=
        ⟨fits, (proxy_of_model isResponse model).1⟩
      refine ⟨kept.up, kept.down.next isFine isNext, kept.asked,
        tells_wire (tells_mono kept.answered ?_) isNext ?_, kept.keyed, kept.models, ?_⟩
      · rintro msg ⟨other, response, member, rest⟩
        exact ⟨other, response, List.mem_append_left _ member, rest⟩
      · rintro _ _ _ ⟨⟩
        exact ⟨sent.message, _, by simp, fits, rfl⟩
      · intro other response member
        rcases List.mem_append.mp member with old | new
        · exact kept.answers other response old
        · cases List.mem_singleton.mp new
          exact ⟨⟨key, package, asked, message⟩, rfl, rfl, rfl, rfl⟩
    · cases taken
  | down action =>
    obtain ⟨other, taken⟩ := Option.ite_none_left_eq_some.mp taken
    obtain ⟨down, isNext, rfl⟩ := Option.map_eq_some_iff.mp taken
    refine ⟨kept.up, kept.down.next (fine_of_read other) isNext, kept.asked, tells_wire kept.answered isNext ?_,
      kept.keyed, kept.models, kept.answers⟩
    rintro thread package room rfl
    exact absurd rfl other

omit [DecidableEq Thread] [DecidableEq Server] in
/-- What the client has got are answers to its requests, each for the proxy of its call. -/
theorem Kept.delivered {proxy : Proxy} (kept : link.Kept)
    (member : (proxy, item) ∈ link.down.client.delivered) : ∃ key, key.proxy = proxy ∧ link.Answers key item := by
  obtain ⟨sent, sentFits, ⟨request, response, answer, fits, same⟩, rfl, rfl⟩ :=
    delivered_mem kept.down kept.answered member
  obtain ⟨⟨key, package, asked, rfl⟩, commModel, rpcName, model, reqId⟩ := kept.answers request response answer
  have message := message_of_bytes fits sentFits same
  have head := congrArg ProxyMsg.head message
  have isResponse : sent.commModel = CommModel.rsponse := (congrArg MessageHead.commModel head).symm.trans commModel
  have sentModel : sent.model = key.model :=
    (congrArg MessageHead.rpcModel head).symm.trans (model.trans (kept.models key package asked))
  exact ⟨key, (proxy_of_model isResponse sentModel).2.symm, package, response, asked, answer, message, rpcName, reqId⟩

end RpcLink

end BTool.BoostNet
