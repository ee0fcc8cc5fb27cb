import BTool.BoostNet.SyncBookkeeping
import Mathlib.Data.Fintype.Basic

/-! The callers of a `SyncProxy` receive the first responses to their requests, as long as no response
finds a promise that has had one. -/

namespace BTool.BoostNet

open BTool.Foundation BTool.Foundation.Path

/-- The first response with the id of the request, of those that have come in since it got its id. -/
def SyncRequest.first (request : SyncRequest) (received : List ProxyMsg) : Option ProxyMsg :=
  (received.drop request.since).find? fun item => item.head.reqId = request.reqId

theorem SyncRequest.first_of_prefix {request : SyncRequest} {received received' : List ProxyMsg}
    {item : ProxyMsg} (log : received <+: received') (first : request.first received = some item) :
    request.first received' = some item := by
  obtain ⟨more, rfl⟩ := log
  unfold SyncRequest.first at first ⊢
  rw [List.drop_append, List.find?_append, first]
  rfl

theorem SyncRequest.first_append {request : SyncRequest} {received : List ProxyMsg} (item : ProxyMsg)
    (since : request.since ≤ received.length) (nothing : request.first received = none) :
    request.first (received ++ [item]) =
      if item.head.reqId = request.reqId then some item else none := by
  unfold SyncRequest.first at nothing ⊢
  rw [List.drop_append_of_le_length since, List.find?_append, nothing, Option.none_or]
  by_cases same : item.head.reqId = request.reqId <;> simp [same]

namespace SyncCalls

variable {Thread Reader : Type} {state before after last : SyncCalls Thread Reader}
  {action : SyncAction Thread Reader} {actions : List (SyncAction Thread Reader)} {thread : Thread}
  {reader : Reader} {request : SyncRequest} {promise : Nat} {reqId : UInt32}

/-- No promise has been satisfied twice. What has come in first for a call is in its promise, or a
reader is about to set it; and this is what the call returns. -/
structure Delivered (state : SyncCalls Thread Reader) : Prop where
  satisfied : state.threw = false
  held : ∀ thread request item, (state.callers thread).request? = some request →
    request.first state.received = some item → ∃ promise,
      state.proxy.futureMap request.reqId = some promise ∧
        ((state.promises promise).value = some item ∨
          ∃ reader, state.readers reader = some (promise, item))
  received : ∀ thread request item, state.callers thread = .returned request .ok item →
    item ≠ none ∧ item = request.first state.received
  undisturbed : ∀ thread request,
    state.callers thread ≠ .undefined request ∧ state.callers thread ≠ .threw request

/-- If there is a promise under this id, it has no value and no reader is about to set one. -/
def Unanswered (state : SyncCalls Thread Reader) (reqId : UInt32) : Prop :=
  ∀ promise ∈ state.proxy.futureMap reqId, (state.promises promise).value = none ∧
    ∀ reader, (state.readers reader).map Prod.fst ≠ some promise

/-- A response finds no promise that has had one before. No id is drawn of a call that has not
returned, nor one with such a promise. -/
def Single (state : SyncCalls Thread Reader) : SyncAction Thread Reader → Prop
  | .call _ .getNextPromise => state.Unanswered (state.proxy.curReqId + 1) ∧
    ∀ thread, (state.callers thread).request?.map SyncRequest.reqId ≠ some (state.proxy.curReqId + 1)
  | .receive _ item => state.Unanswered item.head.reqId
  | _ => True

instance [Fintype Reader] : Decidable (state.Unanswered reqId) := by
  unfold Unanswered
  infer_instance

instance [Fintype Thread] [Fintype Reader] : Decidable (state.Single action) := by
  unfold Single
  split <;> infer_instance

/-- What holds of a promise and of the responses to the request it is entered for. -/
structure Answers (request : SyncRequest) (promise : Nat) (state : SyncCalls Thread Reader) : Prop where
  since : request.since ≤ state.received.length
  waiting : request.first state.received = none → (state.promises promise).value = none ∧
    ∀ reader item, state.readers reader ≠ some (promise, item)
  here : ∀ item, request.first state.received = some item →
    (state.promises promise).value = some item ∨ ∃ reader, state.readers reader = some (promise, item)

/-- What holds of a thread at each place. -/
def Placed (futureMap : UInt32 → Option Nat) (promises : Nat → Promise) (received : List ProxyMsg) :
    SendPc → Prop
  | .idle => True
  | .writes request => ∃ promise, futureMap request.reqId = some promise ∧
    (promises promise).retrieved = false
  | .looks request => ∃ promise, futureMap request.reqId = some promise ∧
    (promises promise).retrieved = false
  | .found request promise => futureMap request.reqId = some promise ∧
    (promises promise).retrieved = false
  | .waits request promise => futureMap request.reqId = some promise
  | .removes request promise ready => futureMap request.reqId = some promise ∧
    (ready = true → (promises promise).value ≠ none)
  | .returned request status item => status = .ok → item ≠ none ∧ item = request.first received
  | .undefined _ => False
  | .threw _ => False

/-- A promise that is about to be set has no value, and no other reader is about to set it. -/
structure Fresh (state : SyncCalls Thread Reader) : Prop where
  unmade : ∀ promise, state.made ≤ promise → state.promises promise = .construct
  found : ∀ reader promise item, state.readers reader = some (promise, item) →
    promise < state.made ∧ (state.promises promise).value = none
  alone : ∀ reader other promise item item', state.readers reader = some (promise, item) →
    state.readers other = some (promise, item') → reader = other
  satisfied : state.threw = false

/-- The invariant of the runs in which responses are single. -/
structure Serves (state : SyncCalls Thread Reader) : Prop extends Entered state, Fresh state where
  apart : ∀ first second request other, (state.callers first).request? = some request →
    (state.callers second).request? = some other → request.reqId = other.reqId → first = second
  left : ∀ reqId promise, state.proxy.futureMap reqId = some promise →
    (∀ thread request, (state.callers thread).request? = some request → request.reqId ≠ reqId) →
      (state.promises promise).retrieved = false
  placed : Everywhere (Placed state.proxy.futureMap state.promises state.received) state.callers
  answers : ∀ thread request promise, (state.callers thread).request? = some request →
    state.proxy.futureMap request.reqId = some promise → Answers request promise state

/-- The request of a thread in its place has an entry. -/
theorem Placed.entry {futureMap : UInt32 → Option Nat} {promises : Nat → Promise}
    {received : List ProxyMsg} {pc : SendPc} (placed : Placed futureMap promises received pc)
    (has : pc.request? = some request) : ∃ promise, futureMap request.reqId = some promise := by
  cases pc with
  | idle => cases has
  | writes _ =>
    cases has
    exact ⟨_, placed.choose_spec.1⟩
  | looks _ =>
    cases has
    exact ⟨_, placed.choose_spec.1⟩
  | found _ _ =>
    cases has
    exact ⟨_, placed.1⟩
  | waits _ _ =>
    cases has
    exact ⟨_, placed⟩
  | removes _ _ _ =>
    cases has
    exact ⟨_, placed.1⟩
  | returned _ _ _ => cases has
  | undefined _ => exact placed.elim
  | threw _ => exact placed.elim

/-- What holds of a thread, by its place. -/
theorem Serves.at_place {pc : SendPc} (serves : state.Serves) (place : state.callers thread = pc) :
    Placed state.proxy.futureMap state.promises state.received pc := by
  rw [← place]
  exact serves.placed thread

theorem Serves.delivered (serves : state.Serves) : state.Delivered := by
  refine ⟨serves.satisfied, fun thread request item has first => ?_,
    fun thread request item place => serves.at_place place rfl, fun thread request => ?_⟩
  · obtain ⟨promise, entry⟩ := (serves.placed thread).entry has
    exact ⟨promise, entry, (serves.answers thread request promise has entry).here item first⟩
  · exact ⟨fun place => serves.at_place place, fun place => serves.at_place place⟩

theorem serves_construct : (construct : SyncCalls Thread Reader).Serves :=
  { below := nofun, sole := nofun, unmade := fun _ _ => rfl, found := nofun, alone := nofun
    satisfied := rfl, apart := nofun, left := nofun, placed := fun _ => trivial, answers := nofun }

/-- What holds of a thread goes on to hold while its entry stays and its promise is only satisfied. -/
theorem Placed.mono {futureMap futureMap' : UInt32 → Option Nat} {promises promises' : Nat → Promise}
    {received received' : List ProxyMsg} {pc : SendPc} (placed : Placed futureMap promises received pc)
    (log : received <+: received')
    (entry : ∀ request promise, pc.request? = some request → futureMap request.reqId = some promise →
      futureMap' request.reqId = some promise ∧
        (promises' promise).retrieved = (promises promise).retrieved)
    (value : ∀ promise, (promises promise).value ≠ none → (promises' promise).value ≠ none) :
    Placed futureMap' promises' received' pc := by
  cases pc with
  | idle => trivial
  | writes request =>
    obtain ⟨promise, entered, retrieved⟩ := placed
    obtain ⟨kept, same⟩ := entry request promise rfl entered
    exact ⟨promise, kept, same.trans retrieved⟩
  | looks request =>
    obtain ⟨promise, entered, retrieved⟩ := placed
    obtain ⟨kept, same⟩ := entry request promise rfl entered
    exact ⟨promise, kept, same.trans retrieved⟩
  | found request promise =>
    obtain ⟨entered, retrieved⟩ := placed
    obtain ⟨kept, same⟩ := entry request promise rfl entered
    exact ⟨kept, same.trans retrieved⟩
  | waits request promise => exact (entry request promise rfl placed).1
  | removes request promise ready =>
    obtain ⟨entered, satisfied⟩ := placed
    exact ⟨(entry request promise rfl entered).1, fun isReady => value promise (satisfied isReady)⟩
  | returned request status item =>
    intro isOk
    obtain ⟨some', first⟩ := placed isOk
    obtain ⟨msg, isMsg⟩ := Option.ne_none_iff_exists'.mp some'
    refine ⟨some', ?_⟩
    rw [isMsg] at first ⊢
    exact (SyncRequest.first_of_prefix log first.symm).symm
  | undefined _ => exact placed.elim
  | threw _ => exact placed.elim

section

variable [DecidableEq Thread]

/-- A thread goes on with its request. -/
theorem Serves.move {pc : SendPc} (serves : before.Serves)
    (was : (before.callers thread).request? = some request) (goesOn : pc.request? = some request)
    (placed : Placed before.proxy.futureMap before.promises before.received pc) :
    (before.move thread pc).Serves := by
  have same (other : Thread) : (Function.update before.callers thread pc other).request? =
      (before.callers other).request? := view_move SendPc.request? (goesOn.trans was.symm) other
  exact { serves with
    apart := fun first second request other has has' =>
      serves.apart first second request other ((same first).symm.trans has)
        ((same second).symm.trans has')
    left := fun reqId promise entry free => serves.left reqId promise entry fun other request has =>
      free other request ((same other).trans has)
    placed := serves.placed.move placed
    answers := fun other request promise has entry =>
      have answers := serves.answers other request promise ((same other).symm.trans has) entry
      ⟨answers.since, answers.waiting, answers.here⟩ }

/-- A call returns and leaves its entry, whose future has not been retrieved. -/
theorem Serves.leave {pc : SendPc} (serves : before.Serves)
    (place : before.callers thread = .writes request)
    (gone : pc.request? = none)
    (placed : Placed before.proxy.futureMap before.promises before.received pc) :
    (before.move thread pc).Serves := by
  refine { serves with apart := ?_, left := ?_, placed := serves.placed.move placed, answers := ?_ }
  · intro first second request other has has'
    exact serves.apart first second request other (view_other gone has).2 (view_other gone has').2
  · intro reqId promise entry free
    by_cases same : request.reqId = reqId
    · obtain ⟨own, entered, retrieved⟩ := serves.at_place place
      rw [same] at entered
      obtain rfl := Option.some.inj (entered.symm.trans entry)
      exact retrieved
    · refine serves.left reqId promise entry fun other found has => ?_
      by_cases here : other = thread
      · subst here
        rw [place] at has
        cases has
        exact same
      · exact free other found ((view_elsewhere SendPc.request? here).trans has)
  · intro other request promise has entry
    have answers := serves.answers other request promise (view_other gone has).2 entry
    exact ⟨answers.since, answers.waiting, answers.here⟩

/-- A call removes its request. -/
theorem Serves.close {pc : SendPc} (serves : before.Serves)
    (was : (before.callers thread).request? = some request) (gone : pc.request? = none)
    (placed : Placed before.proxy.futureMap before.promises before.received pc) :
    (before.close thread request pc).Serves := by
  refine { serves with
    toEntered := serves.toEntered.close, apart := ?_, left := ?_, placed := ?_, answers := ?_ }
  · intro first second found other has has'
    exact serves.apart first second found other (view_other gone has).2 (view_other gone has').2
  · intro reqId promise entry free
    obtain ⟨apart, entered⟩ := close_entry entry
    refine serves.left reqId promise entered fun other found has => ?_
    by_cases here : other = thread
    · subst here
      obtain rfl := Option.some.inj (has.symm.trans was)
      exact apart.symm
    · exact free other found ((view_elsewhere SendPc.request? here).trans has)
  · intro other
    show Placed (Function.update before.proxy.futureMap request.reqId none) before.promises
      before.received (Function.update before.callers thread pc other)
    by_cases here : other = thread
    · rw [here, Function.update_self]
      refine placed.mono List.prefix_rfl (fun found promise has _ => ?_) fun _ => id
      rw [gone] at has
      cases has
    · rw [Function.update_of_ne here]
      refine (serves.placed other).mono List.prefix_rfl (fun found promise has entry => ⟨?_, rfl⟩)
        fun _ => id
      rw [Function.update_of_ne]
      · exact entry
      · exact fun same => here (serves.apart other thread found request has was same)
  · intro other found promise has entry
    have answers := serves.answers other found promise (view_other gone has).2 (close_entry entry).2
    exact ⟨answers.since, answers.waiting, answers.here⟩

/-- The future of a promise is retrieved by its only caller. -/
theorem Serves.retrieve (serves : before.Serves)
    (place : before.callers thread = .found request promise) :
    ((before.setPromise promise { before.promises promise with retrieved := true }).move thread
      (.waits request promise)).Serves := by
  have was : (before.callers thread).request? = some request := by rw [place]; rfl
  have entry : before.proxy.futureMap request.reqId = some promise := (serves.at_place place).1
  let promises := Function.update before.promises promise
    { before.promises promise with retrieved := true }
  have value (other : Nat) : (promises other).value = (before.promises other).value := by
    by_cases here : other = promise
    · subst here
      simp [promises]
    · simp [promises, here]
  have elsewhere {other : Nat} (apart : other ≠ promise) : promises other = before.promises other :=
    Function.update_of_ne apart _ _
  have same (other : Thread) :
      (Function.update before.callers thread (.waits request promise) other).request? =
        (before.callers other).request? :=
    view_move SendPc.request? (by rw [was]; rfl) other
  refine { serves with
    unmade := ?_, found := ?_, apart := ?_, left := ?_, placed := ?_, answers := ?_ }
  · intro other large
    have below := serves.below request.reqId promise entry
    have large : before.made ≤ other := large
    exact (elsewhere (by omega)).trans (serves.unmade other large)
  · intro reader other item place
    obtain ⟨below, unset⟩ := serves.found reader other item place
    exact ⟨below, (value other).trans unset⟩
  · intro first second found other has has'
    exact serves.apart first second found other ((same first).symm.trans has)
      ((same second).symm.trans has')
  · intro reqId other entered free
    have apart : other ≠ promise := by
      rintro rfl
      have ids := serves.sole request.reqId reqId other entry entered
      exact free thread request ((same thread).trans was) ids
    show (promises other).retrieved = false
    rw [elsewhere apart]
    exact serves.left reqId other entered fun holder found has =>
      free holder found ((same holder).trans has)
  · intro other
    show Placed before.proxy.futureMap promises before.received
      (Function.update before.callers thread (.waits request promise) other)
    by_cases here : other = thread
    · rw [here, Function.update_self]
      exact entry
    · rw [Function.update_of_ne here]
      refine (serves.placed other).mono List.prefix_rfl (fun found own has entered => ⟨entered, ?_⟩)
        fun own set => by rwa [value]
      rw [elsewhere]
      rintro rfl
      have ids := serves.sole found.reqId request.reqId own entered entry
      exact here (serves.apart other thread found request has was ids)
  · intro other found own has entered
    have answers := serves.answers other found own ((same other).symm.trans has) entered
    refine ⟨answers.since, fun nothing => ?_, fun item first => ?_⟩
    · exact ⟨(value own).trans (answers.waiting nothing).1, (answers.waiting nothing).2⟩
    · exact (answers.here item first).imp_left (value own).trans

/-- An entry is not overwritten. -/
private theorem entry_draw (entry : before.proxy.futureMap reqId = some promise) :
    (before.draw thread).proxy.futureMap reqId = some promise := by
  show emplace before.proxy.futureMap (before.proxy.curReqId + 1) before.made reqId = some promise
  unfold emplace
  split
  · exact entry
  · rename_i unused
    rw [Function.update_of_ne]
    · exact entry
    · rintro rfl
      rw [entry] at unused
      exact unused rfl

/-- A call gets an id, of which no promise has had a response. -/
theorem Serves.draw (serves : before.Serves) (free : (before.callers thread).request? = none)
    (unanswered : before.Unanswered (before.proxy.curReqId + 1))
    (unused : ∀ thread, (before.callers thread).request?.map SyncRequest.reqId ≠
      some (before.proxy.curReqId + 1)) :
    (before.draw thread).Serves := by
  have apart {other : Thread} {found : SyncRequest}
      (has : (before.callers other).request? = some found) :
      found.reqId ≠ before.proxy.curReqId + 1 := by
    intro same
    refine unused other ?_
    rw [has, Option.map_some, same]
  refine { serves with
    toEntered := serves.toEntered.draw, unmade := ?_, found := ?_, apart := ?_, left := ?_
    placed := ?_, answers := ?_ }
  · intro other large
    exact serves.unmade other (Nat.le_of_succ_le large)
  · intro reader other item place
    obtain ⟨below, unset⟩ := serves.found reader other item place
    exact ⟨Nat.lt_succ_of_lt below, unset⟩
  · intro first second found other has has' same
    rcases draw_request has with ⟨rfl, rfl⟩ | ⟨_, had⟩ <;>
      rcases draw_request has' with ⟨rfl, rfl⟩ | ⟨_, had'⟩
    · rfl
    · exact absurd same.symm (apart had')
    · exact absurd same (apart had)
    · exact serves.apart first second found other had had' same
  · intro reqId own entry free'
    rcases draw_entry entry with ⟨rfl, rfl⟩ | entered
    · exact absurd rfl (free' thread _ draw_self)
    · refine serves.left reqId own entered fun other found has => free' other found ?_
      have elsewhere : other ≠ thread := by
        intro here
        rw [here, free] at has
        cases has
      exact (view_elsewhere SendPc.request? elsewhere).trans has
  · refine Everywhere.move (fun other => ?_) ?_
    · exact (serves.placed other).mono List.prefix_rfl
        (fun found own _ entry => ⟨entry_draw entry, rfl⟩) fun _ => id
    · show ∃ promise, (before.draw thread).proxy.futureMap (before.proxy.curReqId + 1) = some promise ∧
        (before.promises promise).retrieved = false
      cases entry : before.proxy.futureMap (before.proxy.curReqId + 1) with
      | some own => exact ⟨own, entry_draw entry, serves.left _ own entry fun _ _ has => apart has⟩
      | none =>
        rw [draw_fresh entry, Function.update_self]
        exact ⟨before.made, rfl, by rw [serves.unmade _ (Nat.le_refl _)]; rfl⟩
  · intro other found own has entry
    rcases draw_request has with ⟨rfl, rfl⟩ | ⟨_, had⟩
    · have nothing : SyncRequest.first ⟨before.proxy.curReqId + 1, before.made, before.received.length⟩
          before.received = none := by
        rw [SyncRequest.first, List.drop_length]
        rfl
      refine ⟨Nat.le_refl _, fun _ => ?_, fun item first => ?_⟩
      · rcases draw_entry entry with ⟨_, rfl⟩ | entered
        · refine ⟨?_, fun reader item place => ?_⟩
          · show (before.promises before.made).value = none
            rw [serves.unmade _ (Nat.le_refl _)]
            rfl
          · exact Nat.lt_irrefl _ (serves.found reader _ item place).1
        · obtain ⟨unset, nobody⟩ := unanswered own entered
          refine ⟨unset, fun reader item place => nobody reader ?_⟩
          replace place : before.readers reader = some (own, item) := place
          rw [place]
          rfl
      · replace first : SyncRequest.first _ before.received = some item := first
        rw [nothing] at first
        cases first
    · rcases draw_entry entry with ⟨same, _⟩ | entered
      · exact absurd same (apart had)
      · have answers := serves.answers other found own had entered
        exact ⟨answers.since, answers.waiting, answers.here⟩

end

section

variable [DecidableEq Reader]

/-- What a reader has found, after one of them has found something else. -/
private theorem reader_cases {readers : Reader → Option (Nat × ProxyMsg)} {other : Reader}
    {found held : Option (Nat × ProxyMsg)} (has : Function.update readers reader found other = held) :
    (other = reader ∧ found = held) ∨ (other ≠ reader ∧ readers other = held) := by
  by_cases here : other = reader
  · subst here
    exact .inl ⟨rfl, by rwa [Function.update_self] at has⟩
  · rw [Function.update_of_ne here] at has
    exact .inr ⟨here, has⟩

/-- A response comes in, and if it finds a promise that promise has had none. -/
theorem Serves.receive {item : ProxyMsg} (serves : before.Serves) (free : before.readers reader = none)
    (unanswered : before.Unanswered item.head.reqId) :
    ({ before with received := before.received ++ [item] }.setReader reader
      ((before.proxy.futureMap item.head.reqId).map fun promise => (promise, item))).Serves := by
  let found := (before.proxy.futureMap item.head.reqId).map fun promise => (promise, item)
  have isFound {own : Nat} {msg : ProxyMsg} (held : found = some (own, msg)) :
      before.proxy.futureMap item.head.reqId = some own ∧ msg = item := by
    obtain ⟨promise, entry, same⟩ := Option.map_eq_some_iff.mp held
    cases same
    exact ⟨entry, rfl⟩
  have nobody {own : Nat} {msg : ProxyMsg} (held : found = some (own, msg)) (other : Reader)
      (msg' : ProxyMsg) : before.readers other ≠ some (own, msg') := by
    intro place
    refine (unanswered own (isFound held).1).2 other ?_
    rw [place]
    rfl
  refine { serves with found := ?_, alone := ?_, placed := ?_, answers := ?_ }
  · intro other own msg held
    rcases reader_cases held with ⟨_, isHeld⟩ | ⟨_, had⟩
    · obtain ⟨entry, rfl⟩ := isFound isHeld
      exact ⟨serves.below _ own entry, (unanswered own entry).1⟩
    · exact serves.found other own msg had
  · intro first second own msg msg' held held'
    rcases reader_cases held with ⟨rfl, isHeld⟩ | ⟨_, had⟩ <;>
      rcases reader_cases held' with ⟨rfl, isHeld'⟩ | ⟨_, had'⟩
    · rfl
    · exact absurd had' (nobody isHeld second msg')
    · exact absurd had (nobody isHeld' first msg)
    · exact serves.alone first second own msg msg' had had'
  · intro other
    exact (serves.placed other).mono (List.prefix_append ..) (fun _ _ _ entry => ⟨entry, rfl⟩)
      fun _ => id
  · intro other request own has entry
    replace entry : before.proxy.futureMap request.reqId = some own := entry
    have answers := serves.answers other request own has entry
    have since : request.since ≤ (before.received ++ [item]).length := by
      rw [List.length_append]
      exact Nat.le_add_right_of_le answers.since
    cases first : request.first before.received with
    | some msg =>
      have now : request.first (before.received ++ [item]) = some msg :=
        SyncRequest.first_of_prefix (List.prefix_append ..) first
      refine ⟨since, fun nothing => ?_, fun msg' first' => ?_⟩
      · exact absurd (now.symm.trans nothing) (Option.some_ne_none _)
      · obtain rfl := Option.some.inj (now.symm.trans first')
        refine (answers.here msg first).imp_right fun ⟨holder, held⟩ => ⟨holder, ?_⟩
        show Function.update before.readers reader found holder = some (own, msg)
        rw [Function.update_of_ne]
        · exact held
        · rintro rfl
          rw [free] at held
          cases held
    | none =>
      obtain ⟨unset, nobody'⟩ := answers.waiting first
      have now := SyncRequest.first_append item answers.since first
      by_cases same : item.head.reqId = request.reqId
      · rw [if_pos same] at now
        refine ⟨since, fun nothing => ?_, fun msg first' => ?_⟩
        · exact absurd (now.symm.trans nothing) (Option.some_ne_none _)
        · obtain rfl := Option.some.inj (now.symm.trans first')
          refine .inr ⟨reader, ?_⟩
          show Function.update before.readers reader found reader = some (own, item)
          rw [Function.update_self]
          show (before.proxy.futureMap item.head.reqId).map _ = _
          rw [same, entry]
          rfl
      · rw [if_neg same] at now
        refine ⟨since, fun _ => ⟨unset, fun holder msg held => ?_⟩, fun msg first' => ?_⟩
        · rcases reader_cases held with ⟨_, isHeld⟩ | ⟨_, had⟩
          · exact same (serves.sole _ _ own (isFound isHeld).1 entry)
          · exact nobody' holder msg had
        · exact absurd (first'.symm.trans now) (Option.some_ne_none _)

/-- The promise that a reader has found gets its response. -/
theorem Serves.satisfy {item : ProxyMsg} (serves : before.Serves)
    (place : before.readers reader = some (promise, item)) :
    ((before.setPromise promise { before.promises promise with value := some item }).setReader
      reader none).Serves := by
  let promises := Function.update before.promises promise
    { before.promises promise with value := some item }
  obtain ⟨below, unset⟩ := serves.found reader promise item place
  have elsewhere {other : Nat} (apart : other ≠ promise) : promises other = before.promises other :=
    Function.update_of_ne apart _ _
  have retrieved (other : Nat) : (promises other).retrieved = (before.promises other).retrieved := by
    by_cases here : other = promise
    · subst here
      simp [promises]
    · simp [promises, here]
  refine { serves with
    unmade := ?_, found := ?_, alone := ?_, left := ?_, placed := ?_, answers := ?_ }
  · intro other large
    have large : before.made ≤ other := large
    exact (elsewhere (by omega)).trans (serves.unmade other large)
  · intro holder own msg held
    rcases reader_cases held with ⟨_, nothing⟩ | ⟨apart, had⟩
    · cases nothing
    · obtain ⟨ownBelow, ownUnset⟩ := serves.found holder own msg had
      refine ⟨ownBelow, ?_⟩
      show (promises own).value = none
      rw [elsewhere]
      · exact ownUnset
      · rintro rfl
        exact apart (serves.alone holder reader own msg item had place)
  · intro first second own msg msg' held held'
    rcases reader_cases held with ⟨_, nothing⟩ | ⟨_, had⟩
    · cases nothing
    · rcases reader_cases held' with ⟨_, nothing⟩ | ⟨_, had'⟩
      · cases nothing
      · exact serves.alone first second own msg msg' had had'
  · intro reqId own entry free
    exact (retrieved own).trans (serves.left reqId own entry free)
  · intro other
    refine (serves.placed other).mono List.prefix_rfl (fun _ own _ entry => ⟨entry, retrieved own⟩)
      fun own set => ?_
    show (promises own).value ≠ none
    rwa [elsewhere]
    rintro rfl
    exact set unset
  · intro other request own has entry
    have answers := serves.answers other request own has entry
    refine ⟨answers.since, fun nothing => ?_, fun msg first => ?_⟩
    · obtain ⟨ownUnset, nobody⟩ := answers.waiting nothing
      have apart : own ≠ promise := by
        rintro rfl
        exact nobody reader item place
      refine ⟨?_, fun holder msg held => ?_⟩
      · show (promises own).value = none
        rwa [elsewhere apart]
      · rcases reader_cases held with ⟨_, nothing⟩ | ⟨_, had⟩
        · cases nothing
        · exact nobody holder msg had
    · by_cases mine : own = promise
      · subst mine
        rcases answers.here msg first with set | ⟨holder, held⟩
        · exact absurd (unset.symm.trans set) (Option.some_ne_none _).symm
        · obtain rfl := serves.alone holder reader own msg item held place
          obtain ⟨_, rfl⟩ := Prod.mk.inj (Option.some.inj (held.symm.trans place))
          left
          show (promises own).value = some msg
          simp [promises]
      · refine (answers.here msg first).imp (fun set => ?_) fun ⟨holder, held⟩ => ⟨holder, ?_⟩
        · show (promises own).value = some msg
          rwa [elsewhere mine]
        · show Function.update before.readers reader none holder = some (own, msg)
          rw [Function.update_of_ne]
          · exact held
          · rintro rfl
            exact mine (Prod.mk.inj (Option.some.inj (held.symm.trans place))).1

end

variable [DecidableEq Thread] [DecidableEq Reader]

theorem Serves.change (serves : before.Serves) (single : before.Single action)
    (change : Change before action after) : after.Serves := by
  cases change with
  | drawn free => exact serves.draw free single.1 single.2
  | written place =>
    have placed := serves.at_place place
    exact serves.move (by rw [place]; rfl) rfl placed
  | unsent place => exact serves.leave place rfl nofun
  | gaveUp place => exact serves.close (by rw [place]; rfl) rfl trivial
  | @missed thread request place missing =>
    obtain ⟨promise, entry⟩ := (serves.placed thread).entry (by rw [place]; rfl)
    rw [missing] at entry
    cases entry
  | found place entry =>
    obtain ⟨own, entered, retrieved⟩ := serves.at_place place
    obtain rfl := Option.some.inj (entry.symm.trans entered)
    exact serves.move (by rw [place]; rfl) rfl ⟨entry, retrieved⟩
  | refused place again =>
    rw [(serves.at_place place).2] at again
    cases again
  | retrieved place => exact serves.retrieve place
  | woken place satisfied =>
    have entry := serves.at_place place
    exact serves.move (by rw [place]; rfl) rfl ⟨entry, fun _ => satisfied⟩
  | expired place =>
    have entry := serves.at_place place
    exact serves.move (by rw [place]; rfl) rfl ⟨entry, nofun⟩
  | @removed thread request promise ready place =>
    have was : (before.callers thread).request? = some request := by rw [place]; rfl
    obtain ⟨entry, satisfied⟩ := serves.at_place place
    refine serves.close was (by cases ready <;> rfl) ?_
    cases ready with
    | false => exact nofun
    | true =>
      have answers := serves.answers thread request promise was entry
      have set := satisfied rfl
      refine fun _ => ⟨set, ?_⟩
      cases first : request.first before.received with
      | none => exact absurd (answers.waiting first).1 set
      | some item =>
        rcases answers.here item first with isItem | ⟨reader, held⟩
        · exact isItem
        · exact absurd (serves.found reader promise item held).2 set
  | received free => exact serves.receive free single
  | satisfied place => exact serves.satisfy place
  | @threw reader item promise place again =>
    exact absurd (serves.found reader promise item place).2 again

/-- No promise is satisfied twice, and the callers receive the first responses to their requests, in
every run in which each response that finds a promise is the first one that does. -/
theorem delivered_of_single (path : Path (Guarded (Taken next) Single) construct actions state) :
    state.Delivered :=
  (path.invariant Serves (fun _ _ _ serves step => serves.change step.1 (change_of_next step.2))
    serves_construct).delivered

/-- A call receives its response, and a late one with its id finds nothing. -/
theorem delivered_of_single_late_response :
    ∃ (actions : List (SyncAction Unit Unit)) (state : SyncCalls Unit Unit) (item late : ProxyMsg),
      Path (Guarded (Taken next) Single) construct actions state ∧ item ≠ late ∧
        state.callers () = .returned ⟨1, 0, 0⟩ .ok (some item) ∧ state.received = [item, late] ∧
        state.Delivered := by
  let item : ProxyMsg := ⟨[], ⟨CommModel.rsponse, RpcModel.future, 1, 0, 0⟩, []⟩
  let late : ProxyMsg := ⟨[], ⟨CommModel.rsponse, RpcModel.future, 1, 0, 0⟩, [1]⟩
  let actions : List (SyncAction Unit Unit) :=
    [.call () .getNextPromise, .call () (.write true), .call () .getPromise, .call () .getFuture,
      .receive () item, .setValue (), .call () .ready, .call () .remove, .receive () late]
  have runs : ∃ state ∈ exec (checked next Single) construct actions,
      state.callers () = .returned ⟨1, 0, 0⟩ .ok (some item) ∧ state.received = [item, late] := by
    decide
  obtain ⟨state, run, returned, received⟩ := runs
  have path := of_checked run
  exact ⟨actions, state, item, late, path, by decide, returned, received, delivered_of_single path⟩

/-- The response of a call comes in twice before the call has removed its request, and
`promise_already_satisfied` is thrown out of the read handler. -/
theorem not_delivered_twice :
    ∃ (actions : List (SyncAction Unit Unit)) (state : SyncCalls Unit Unit),
      Path (Taken next) construct actions state ∧ state.callers () = .waits ⟨1, 0, 0⟩ 0 ∧
        state.threw = true ∧ ¬ state.Delivered := by
  let item : ProxyMsg := ⟨[], ⟨CommModel.rsponse, RpcModel.future, 1, 0, 0⟩, []⟩
  let actions : List (SyncAction Unit Unit) :=
    [.call () .getNextPromise, .call () (.write true), .call () .getPromise, .call () .getFuture,
      .receive () item, .setValue (), .receive () item, .setValue ()]
  have runs : ∃ state ∈ exec next construct actions,
      state.callers () = .waits ⟨1, 0, 0⟩ 0 ∧ state.threw = true := by
    decide
  obtain ⟨state, run, waits, threw⟩ := runs
  refine ⟨actions, state, exec_eq_some_iff.mp run, waits, threw, fun delivered => ?_⟩
  exact absurd (threw.symm.trans delivered.satisfied) (by decide)

end SyncCalls

end BTool.BoostNet
