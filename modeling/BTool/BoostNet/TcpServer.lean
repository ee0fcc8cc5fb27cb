import BTool.BoostNet.TcpSessionRuns
import BTool.Foundation.OrderedMap

/-! The sessions of a `TcpServer`, which are found by their ids from their accept to their close.

The threads run the handlers of any of the sessions, and look sessions up to write to them or to close them. -/

namespace BTool.BoostNet

open BTool.Foundation BTool.Foundation.Path BTool.TaskPool BTool.TaskPool.AtomicSwitch

/-- What is done with a session that was found. -/
inductive FoundCall where
  | write (sendMsg : List UInt8) (room : Bool)
  | close
deriving DecidableEq

/-- What the thread calls of the session. -/
def FoundCall.action {Thread : Type} (thread : Thread) : FoundCall → SessionAction Thread
  | .write sendMsg room => .write thread sendMsg room
  | .close => .shutdown thread

/-- The sessions are numbered as they are made, here or elsewhere in the program. -/
structure TcpServer (Thread : Type) where
  lives : Nat → SessionLife Thread
  /-- `m_sessions`. -/
  sessions : OrderedMap Nat Nat
  /-- `next_session_id`, of which the id is the rest by 2^64. -/
  nextSessionId : Nat
  /-- The session that waits in `async_accept`. -/
  listening : Nat
  accepted : List Nat
  /-- How often `on_close_cbk` has been called for a session. -/
  removed : Nat → Nat
  /-- The sessions that `clear` has taken out. -/
  forgotten : List Nat
  /-- The session that a thread has found. -/
  found : Thread → Option (Nat × FoundCall)

inductive ServerAction (Thread : Type) where
  /-- A session is made elsewhere. -/
  | takeId
  | accept (success : Bool)
  | session (number : Nat) (action : SessionAction Thread)
  | find (thread : Thread) (id : Nat) (call : FoundCall)
  | call (thread : Thread)
  | clear
deriving DecidableEq

/-- What is run for a session by its `io_context`. -/
def SessionAction.Driven {Thread : Type} : SessionAction Thread → Prop
  | .shutdown _ | .write .. => False
  | _ => True

instance {Thread : Type} (action : SessionAction Thread) : Decidable action.Driven := by
  induction action using SessionAction.casesOn <;> unfold SessionAction.Driven <;> infer_instance

/-- `GetNextSessionID`, where that many sessions have been made. -/
def sessionId (number : Nat) : Nat := number % 2 ^ 64

namespace TcpServer

variable {Thread : Type} [DecidableEq Thread]

/-- The server listens, and its first session waits. -/
def listen (made : Nat) : TcpServer Thread :=
  ⟨fun _ => .construct, .empty, made + 1, made + 1, [], fun _ => 0, [], fun _ => none⟩

/-- `start_accept`. -/
def startAccept (server : TcpServer Thread) : TcpServer Thread :=
  { server with nextSessionId := server.nextSessionId + 1, listening := server.nextSessionId + 1 }

/-- `handle_accept`. A session that is not registered goes, as one whose accept has failed. -/
def handleAccept (server : TcpServer Thread) (success : Bool) : TcpServer Thread :=
  if success ∧ server.sessions.find? (sessionId server.listening) = none then
    { server.startAccept with
      sessions := server.sessions.insert (sessionId server.listening) server.listening
      accepted := server.listening :: server.accepted }
  else server.startAccept

/-- `on_close_cbk`. -/
def onCloseCbk (server : TcpServer Thread) (number : Nat) : TcpServer Thread :=
  { server with
    sessions := server.sessions.erase (sessionId number)
    removed := Function.update server.removed number (server.removed number + 1) }

/-- The thread is at the close callback of the session. -/
def Closes (server : TcpServer Thread) (number : Nat) : SessionAction Thread → Prop
  | .step thread => (server.lives number).places thread = .closeCbk
  | _ => False

instance (server : TcpServer Thread) (number : Nat) (action : SessionAction Thread) :
    Decidable (server.Closes number action) := by
  induction action using SessionAction.casesOn <;> unfold Closes <;> infer_instance

def withLife (server : TcpServer Thread) (number : Nat) (life : SessionLife Thread) : TcpServer Thread :=
  { server with lives := Function.update server.lives number life }

def next (server : TcpServer Thread) : ServerAction Thread → Option (TcpServer Thread)
  | .takeId => some { server with nextSessionId := server.nextSessionId + 1 }
  | .accept success => some (server.handleAccept success)
  | .session number action =>
    if number ∈ server.accepted ∧ action.Driven then
      ((server.lives number).next action).map fun life =>
        (if server.Closes number action then server.onCloseCbk number else server).withLife number life
    else none
  | .find thread id call =>
    if server.found thread = none then
      match server.sessions.find? id with
      | none => some server
      | some number => some { server with found := Function.update server.found thread (some (number, call)) }
    else none
  | .call thread =>
    match server.found thread with
    | none => none
    | some (number, call) =>
      ((server.lives number).next (call.action thread)).map fun life =>
        { server with found := Function.update server.found thread none }.withLife number life
  | .clear =>
    some { server with
      sessions := .empty
      forgotten := server.sessions.entries.map Prod.snd ++ server.forgotten }

section Runs

open SessionPc

variable {server after last : TcpServer Thread} {actions : List (ServerAction Thread)} {number : Nat}
  {life : SessionLife Thread}

/-- The map has the sessions that were accepted, and not closed or taken out since. -/
structure Registered (server : TcpServer Thread) : Prop where
  own : ∀ number, ∃ actions, Path (Taken SessionLife.next) .construct actions (server.lives number)
  below : (∀ number ∈ server.accepted, number < server.listening) ∧ server.listening ≤ server.nextSessionId
  fresh : ∀ number, number ∉ server.accepted → server.removed number = 0 ∧ number ∉ server.forgotten
  finished : ∀ number, Accounts isCalling (server.lives number).places (server.removed number)
    (server.lives number).closed
  found_iff : ∀ id number, server.sessions.find? id = some number ↔ id = sessionId number ∧
    number ∈ server.accepted ∧ server.removed number = 0 ∧ number ∉ server.forgotten
  held : ∀ thread number call, server.found thread = some (number, call) → number ∈ server.accepted

/-- So long as the counter has not come round, the ids are the numbers. -/
private theorem id_eq (below : number < 2 ^ 64) : sessionId number = number := Nat.mod_eq_of_lt below

omit [DecidableEq Thread] in
/-- What a step of a session says of its close callbacks. -/
private theorem closed_of_steps [DecidableEq Thread] {life after : SessionLife Thread} {thread : Thread}
    (steps : life.Steps thread after) :
    ∃ pc, after.places = Function.update life.places thread pc ∧
      after.closed = life.closed + pc.isCalling.toNat := by
  cases steps with
  | walk walks => exact ⟨_, rfl, by rw [walks.calls]; rfl⟩
  | release here _ =>
    obtain ⟨items, currentSendMsg, writes, sent, same⟩ :=
      SessionLife.writeNext_eq { life with currentSendMsg := none }
    rw [SessionLife.release, same]
    exact ⟨_, rfl, rfl⟩
  | sent here =>
    obtain ⟨items, currentSendMsg, writes, accepted, sent, same⟩ := life.send_eq _
    rw [same]
    exact ⟨_, rfl, rfl⟩
  | readDone _ _ is | writeDone _ _ is =>
    rcases is with rfl | rfl
    · exact ⟨_, rfl, rfl⟩
    · exact ⟨_, rfl, rfl⟩
  | _ => exact ⟨_, rfl, rfl⟩

/-- The threads at the close callback of the session are accounted for by its steps. -/
private theorem finished_step {removed : Nat} {action : SessionAction Thread} {before : SessionLife Thread}
    (settled : before.Settled) (accounts : Accounts isCalling before.places removed before.closed)
    (taken : before.next action = some life) :
    (∃ thread, action = .step thread ∧ before.places thread = .closeCbk) ∧
        Accounts isCalling life.places (removed + 1) life.closed ∨
      (∀ thread, action = .step thread → before.places thread ≠ .closeCbk) ∧
        Accounts isCalling life.places removed life.closed := by
  obtain ⟨thread, steps, which⟩ := settled.steps_of_next taken
  obtain ⟨pc, places, closed⟩ := closed_of_steps steps
  rw [places, closed]
  by_cases calls : before.places thread = .closeCbk
  · refine .inl ⟨?_, accounts.move _ _ (by rw [calls]; simp [isCalling]; omega)⟩
    rcases which with same | ⟨outside, _⟩
    · exact ⟨thread, same, calls⟩
    · rw [calls] at outside
      cases outside
  · refine .inr ⟨fun other same => ?_, accounts.move _ _ ?_⟩
    · rcases which with own | ⟨_, no⟩
      · obtain rfl := SessionAction.step.inj (own.symm.trans same)
        exact calls
      · exact absurd same (no other)
    · have not : (before.places thread).isCalling = false := by
        revert calls
        cases before.places thread <;> simp [isCalling]
      rw [not, Bool.toNat_false]
      omega

/-- A session takes a step, at its close callback or not. -/
private theorem registered_step (registered : server.Registered) {action : SessionAction Thread}
    {found : Thread → Option (Nat × FoundCall)}
    (held : ∀ thread number call, found thread = some (number, call) → number ∈ server.accepted)
    (bound : ∀ number ∈ server.accepted, number < 2 ^ 64) (member : number ∈ server.accepted)
    (taken : (server.lives number).next action = some life) :
    ({ (if server.Closes number action then server.onCloseCbk number else server) with found }.withLife number
      life).Registered := by
  obtain ⟨own, below, fresh, finished, found_iff, _⟩ := registered
  obtain ⟨done, path⟩ := own number
  have owns (other : Nat) : ∃ actions,
      Path (Taken SessionLife.next) .construct actions (Function.update server.lives number life other) := by
    by_cases same : other = number
    · rw [same, Function.update_self]
      exact ⟨_, path.snoc taken⟩
    · rw [Function.update_of_ne same]
      exact own other
  rcases finished_step (SessionLife.settled_of_path path) (finished number) taken with
    ⟨⟨thread, rfl, calls⟩, accounts⟩ | ⟨no, accounts⟩
  · rw [if_pos (show server.Closes number (.step thread) from calls)]
    refine ⟨owns, below, fun other absent => ?_, fun other => ?_, fun id other => ?_, held⟩
    · have apart : other ≠ number := fun same => absent (same ▸ member)
      refine ⟨?_, (fresh other absent).2⟩
      show Function.update server.removed number _ other = 0
      rw [Function.update_of_ne apart]
      exact (fresh other absent).1
    · show Accounts isCalling (Function.update server.lives number life other).places
        (Function.update server.removed number _ other) (Function.update server.lives number life other).closed
      by_cases same : other = number
      · rw [same, Function.update_self, Function.update_self]
        exact accounts
      · rw [Function.update_of_ne same, Function.update_of_ne same]
        exact finished other
    · show (server.sessions.erase (sessionId number)).find? id = some other ↔ id = sessionId other ∧
        other ∈ server.accepted ∧ Function.update server.removed number _ other = 0 ∧ other ∉ server.forgotten
      rw [OrderedMap.find?_erase]
      by_cases same : other = number
      · subst same
        rw [Function.update_self]
        refine iff_of_false ?_ (by simp)
        by_cases its : id = sessionId other
        · rw [if_pos its]
          simp
        · rw [if_neg its]
          exact fun found => its ((found_iff id other).mp found).1
      · rw [Function.update_of_ne same]
        by_cases its : id = sessionId number
        · rw [if_pos its]
          refine iff_of_false (by simp) ?_
          rintro ⟨itsOther, inside, _⟩
          rw [its, id_eq (bound number member), id_eq (bound other inside)] at itsOther
          exact same itsOther.symm
        · rw [if_neg its]
          exact found_iff id other
  · have not : ¬ server.Closes number action := by
      cases action with
      | step thread => exact no thread rfl
      | _ => exact id
    rw [if_neg not]
    refine ⟨owns, below, fresh, fun other => ?_, found_iff, held⟩
    show Accounts isCalling (Function.update server.lives number life other).places (server.removed other)
      (Function.update server.lives number life other).closed
    by_cases same : other = number
    · rw [same, Function.update_self]
      exact accounts
    · rw [Function.update_of_ne same]
      exact finished other

private theorem registered_listen (made : Nat) : (listen made : TcpServer Thread).Registered where
  own := fun _ => ⟨[], .nil _⟩
  below := ⟨by simp [listen], Nat.le_refl _⟩
  fresh := fun _ _ => ⟨rfl, by simp [listen]⟩
  finished := fun _ => .zero fun _ => rfl
  found_iff := by simp [listen]
  held := by simp [listen]

private theorem registered_accept (registered : server.Registered) (success : Bool)
    (bound : server.listening < 2 ^ 64) : (server.handleAccept success).Registered := by
  obtain ⟨own, ⟨below, most⟩, fresh, finished, found_iff, held⟩ := registered
  have absent : server.listening ∉ server.accepted := fun member => Nat.lt_irrefl _ (below _ member)
  unfold handleAccept
  split
  · obtain ⟨unremoved, unforgotten⟩ := fresh _ absent
    refine ⟨own, ⟨fun other member => ?_, Nat.le_refl _⟩, fun other no => ?_, finished, fun id other => ?_,
      fun thread other call holds => List.mem_cons_of_mem _ (held thread other call holds)⟩
    · show other < server.nextSessionId + 1
      rcases List.mem_cons.mp member with rfl | member
      · omega
      · have := below other member
        omega
    · exact fresh other fun member => no (List.mem_cons_of_mem _ member)
    · show (server.sessions.insert (sessionId server.listening) server.listening).find? id = some other ↔
        id = sessionId other ∧ other ∈ server.listening :: server.accepted ∧ server.removed other = 0 ∧
          other ∉ server.forgotten
      rw [OrderedMap.find?_insert, List.mem_cons]
      by_cases its : id = sessionId server.listening
      · rw [if_pos its, Option.some.injEq]
        constructor
        · rintro rfl
          exact ⟨its, .inl rfl, unremoved, unforgotten⟩
        · rintro ⟨itsOther, rfl | member, _⟩
          · rfl
          · have := below other member
            rw [its, id_eq bound, id_eq (by omega)] at itsOther
            exact itsOther
      · rw [if_neg its, found_iff]
        refine and_congr_right fun itsOther => and_congr_left fun _ => ?_
        exact ⟨.inr, fun either => either.resolve_left fun same => its (same ▸ itsOther)⟩
  · refine ⟨own, ⟨fun other member => ?_, Nat.le_refl _⟩, fresh, finished, found_iff, held⟩
    have := below other member
    show other < server.nextSessionId + 1
    omega

private theorem held_update {found : Thread → Option (Nat × FoundCall)} {thread : Thread}
    {entry : Option (Nat × FoundCall)} {accepted : List Nat}
    (held : ∀ thread number call, found thread = some (number, call) → number ∈ accepted)
    (new : ∀ number call, entry = some (number, call) → number ∈ accepted) (other : Thread) (number : Nat)
    (call : FoundCall) (holds : Function.update found thread entry other = some (number, call)) :
    number ∈ accepted := by
  by_cases same : other = thread
  · rw [same, Function.update_self] at holds
    exact new number call holds
  · rw [Function.update_of_ne same] at holds
    exact held other number call holds

private theorem registered_next {action : ServerAction Thread} (registered : server.Registered)
    (bound : server.nextSessionId < 2 ^ 64) (taken : server.next action = some after) : after.Registered := by
  have listening : server.listening < 2 ^ 64 := Nat.lt_of_le_of_lt registered.below.2 bound
  have accepted (number : Nat) (member : number ∈ server.accepted) : number < 2 ^ 64 :=
    Nat.lt_trans (registered.below.1 number member) listening
  cases action with
  | takeId =>
    cases taken
    exact { registered with below := ⟨registered.below.1, Nat.le_succ_of_le registered.below.2⟩ }
  | accept success =>
    cases taken
    exact registered_accept registered success listening
  | session number action =>
    obtain ⟨⟨member, _⟩, mapped⟩ := Option.ite_none_right_eq_some.mp taken
    obtain ⟨life, moved, rfl⟩ := Option.map_eq_some_iff.mp mapped
    have step := registered_step registered registered.held accepted member moved
    split
    · rename_i closes
      rw [if_pos closes] at step
      exact step
    · rename_i no
      rw [if_neg no] at step
      exact step
  | find thread id call =>
    obtain ⟨_, taken⟩ := Option.ite_none_right_eq_some.mp taken
    split at taken
    · cases taken
      exact registered
    · rename_i number found
      cases taken
      refine { registered with held := held_update registered.held fun other call' same => ?_ }
      obtain ⟨rfl, _⟩ := Prod.mk.inj (Option.some.inj same)
      exact ((registered.found_iff id _).mp found).2.1
  | call thread =>
    simp only [next] at taken
    split at taken
    · cases taken
    · rename_i number call has
      obtain ⟨life, moved, rfl⟩ := Option.map_eq_some_iff.mp taken
      have no : ¬ server.Closes number (call.action thread) := by
        cases call <;> exact id
      have held : ∀ other number call, Function.update server.found thread none other = some (number, call) →
          number ∈ server.accepted :=
        held_update registered.held fun _ _ same => by cases same
      have step := registered_step registered held accepted (registered.held _ _ _ has) moved
      rw [if_neg no] at step
      exact step
  | clear =>
    cases taken
    obtain ⟨own, below, fresh, finished, found_iff, held⟩ := registered
    have entry (number : Nat) : number ∈ server.sessions.entries.map Prod.snd ↔
        ∃ id, server.sessions.find? id = some number := by
      simp [OrderedMap.find?_eq_some_iff]
    refine ⟨own, below, fun other absent => ⟨(fresh other absent).1, fun member => ?_⟩, finished,
      fun id other => iff_of_false (by simp) ?_, held⟩
    · rcases List.mem_append.mp member with inside | before
      · obtain ⟨id, found⟩ := (entry other).mp inside
        exact absent ((found_iff id other).mp found).2.1
      · exact (fresh other absent).2 before
    · rintro ⟨its, member, unremoved, unforgotten⟩
      obtain ⟨no, before⟩ := not_or.mp fun either => unforgotten (List.mem_append.mpr either)
      exact no ((entry other).mpr ⟨id, (found_iff id other).mpr ⟨its, member, unremoved, before⟩⟩)

private theorem nextSessionId_le {action : ServerAction Thread} (taken : server.next action = some after) :
    server.nextSessionId ≤ after.nextSessionId := by
  cases action with
  | takeId =>
    cases taken
    exact Nat.le_succ _
  | accept success =>
    cases taken
    unfold handleAccept
    split <;> exact Nat.le_succ _
  | session number action =>
    obtain ⟨_, mapped⟩ := Option.ite_none_right_eq_some.mp taken
    obtain ⟨life, _, rfl⟩ := Option.map_eq_some_iff.mp mapped
    split <;> exact Nat.le_refl _
  | find thread id call =>
    obtain ⟨_, taken⟩ := Option.ite_none_right_eq_some.mp taken
    split at taken <;> cases taken <;> exact Nat.le_refl _
  | call thread =>
    simp only [next] at taken
    split at taken
    · cases taken
    · obtain ⟨life, _, rfl⟩ := Option.map_eq_some_iff.mp taken
      exact Nat.le_refl _
  | clear =>
    cases taken
    exact Nat.le_refl _

/-- A session is found by its id from its accept until its close callback is called or `clear` takes it out. No
two sessions have one id. One that is found while no thread is in it is not left to itself: it is still to be
started, or it is started and reads. -/
structure Serves (server : TcpServer Thread) : Prop where
  found_iff : ∀ id number, server.sessions.find? id = some number ↔ id = sessionId number ∧
    number ∈ server.accepted ∧ server.removed number = 0 ∧ number ∉ server.forgotten
  ids : ∀ first ∈ server.accepted, ∀ second ∈ server.accepted, sessionId first = sessionId second → first = second
  live : ∀ id number, server.sessions.find? id = some number →
    (∀ thread, (server.lives number).places thread = .outside) → (server.lives number).called = true →
    (server.lives number).switch = .started ∧ (server.lives number).reads = 1

/-- Until the counter of the ids has come round, every run of the server keeps its map. -/
theorem serves_of_path {made : Nat} (path : Path (Taken next) (listen made) actions last)
    (bound : last.nextSessionId < 2 ^ 64) : last.Serves := by
  have registered : last.Registered := by
    refine path.invariant (fun server => server.nextSessionId < 2 ^ 64 → server.Registered)
      (fun before action after kept taken less => ?_) (fun _ => registered_listen made) bound
    have before := Nat.lt_of_le_of_lt (nextSessionId_le taken) less
    exact registered_next (kept before) before taken
  have below (number : Nat) (member : number ∈ last.accepted) : number < 2 ^ 64 := by
    have := registered.below.1 number member
    have := registered.below.2
    omega
  refine ⟨registered.found_iff, fun first member second member' same => ?_, fun id number found outside called => ?_⟩
  · rw [id_eq (below first member), id_eq (below second member')] at same
    exact same
  · obtain ⟨_, _, unremoved, _⟩ := (registered.found_iff id number).mp found
    obtain ⟨done, own⟩ := registered.own number
    have settled := SessionLife.settled_of_path own
    have flows := SessionLife.flows_of_path own
    have closed : (last.lives number).closes = 0 := by
      rw [← settled.reporting.eq fun thread => by rw [outside]; rfl,
        ← (registered.finished number).eq fun thread => by rw [outside]; rfl, unremoved]
    have starts : (last.lives number).starts = 1 := by
      rw [settled.beginning.eq fun thread => by rw [outside]; rfl, called]
      rfl
    have started := settled.unclosed (by omega) closed
    have reads := flows.reading.le
    rw [called] at reads
    rcases flows.live started with outstanding | ⟨thread, there⟩
    · exact ⟨started, Nat.le_antisymm reads outstanding⟩
    · rw [outside] at there
      cases there

/-- The same steps of one session. -/
def drives (number : Nat) (actions : List (SessionAction Nat)) : List (ServerAction Nat) :=
  actions.map (.session number)

/-- Two clients have come, with a session made elsewhere between them. The first one is closed by its id, and
its read fails afterwards. -/
theorem serves_of_path_two_sessions :
    let opens := fun thread => SessionAction.start thread :: SessionLife.goes thread 7
    let actions := .accept true :: drives 1 (opens 0) ++ .takeId :: .accept true :: drives 2 (opens 0) ++
      .find 1 1 .close :: .call 1 :: drives 1 (SessionLife.goes 1 10) ++
      drives 1 (.readDone 0 false :: SessionLife.goes 0 1)
    ∃ last : TcpServer Nat, Path (Taken next) (listen 0) actions last ∧ last.Serves ∧
      last.sessions.find? 1 = none ∧ last.sessions.find? 2 = some 2 ∧ last.listening = 4 := by
  intro opens actions
  have runs : (exec next (listen 0) actions).map (fun last => decide (last.nextSessionId < 2 ^ 64 ∧
      last.sessions.find? 1 = none ∧ last.sessions.find? 2 = some 2 ∧ last.listening = 4)) = some true := by
    decide
  obtain ⟨last, run, decided⟩ := Option.map_eq_some_iff.mp runs
  obtain ⟨bound, holds⟩ := of_decide_eq_true decided
  have path := exec_eq_some_iff.mp run
  exact ⟨last, path, serves_of_path path bound, holds⟩

end Runs

end TcpServer

end BTool.BoostNet
