import BTool.BoostNet.SyncProxy
import BTool.Foundation.Transition

/-! The entries of a `SyncProxy` are the requests of the calls that have not returned, as long as
every request is written and no id is drawn that still has an entry. -/

namespace BTool.BoostNet

open BTool.Foundation BTool.Foundation.Path

namespace SyncCalls

variable {Thread Reader : Type} {before after last : SyncCalls Thread Reader}
  {action : SyncAction Thread Reader} {actions : List (SyncAction Thread Reader)} {thread : Thread}
  {request : SyncRequest}

/-- A call that has not returned has its own promise in the map, and an id that is in the map is
that of a call that has not returned. -/
structure Booked (state : SyncCalls Thread Reader) : Prop where
  own : ∀ thread request, (state.callers thread).request? = some request →
    state.proxy.futureMap request.reqId = some request.made
  only : ∀ reqId promise, state.proxy.futureMap reqId = some promise →
    ∃ thread request, (state.callers thread).request? = some request ∧ request.reqId = reqId ∧
      request.made = promise

/-- The request is written, and the id that is drawn has no entry. -/
def Tidy (state : SyncCalls Thread Reader) : SyncAction Thread Reader → Prop
  | .call _ .getNextPromise => state.proxy.futureMap (state.proxy.curReqId + 1) = none
  | .call _ (.write written) => written = true
  | _ => True

/-- A promise is entered under one id at most. -/
structure Entered (state : SyncCalls Thread Reader) : Prop where
  below : ∀ reqId promise, state.proxy.futureMap reqId = some promise → promise < state.made
  sole : ∀ reqId other promise, state.proxy.futureMap reqId = some promise →
    state.proxy.futureMap other = some promise → reqId = other

/-- Requests are told apart by the promises made for them, too. -/
structure Numbered (state : SyncCalls Thread Reader) : Prop extends Entered state where
  made : ∀ thread request, (state.callers thread).request? = some request →
    request.made < state.made
  distinct : ∀ first second request other, (state.callers first).request? = some request →
    (state.callers second).request? = some other → request.made = other.made → first = second

theorem booked_construct : (construct : SyncCalls Thread Reader).Booked :=
  ⟨nofun, nofun⟩

theorem entered_construct : (construct : SyncCalls Thread Reader).Entered := ⟨nofun, nofun⟩

theorem numbered_construct : (construct : SyncCalls Thread Reader).Numbered :=
  ⟨entered_construct, nofun, nofun⟩

variable [DecidableEq Thread]

/-- What a step does to the requests and to the entries. -/
inductive Turn (before : SyncCalls Thread Reader) :
    SyncAction Thread Reader → SyncCalls Thread Reader → Prop where
  | draws {thread : Thread} (free : (before.callers thread).request? = none) :
      Turn before (.call thread .getNextPromise) (before.draw thread)
  | leaves {thread : Thread} {request : SyncRequest}
      (place : before.callers thread = .writes request) :
      Turn before (.call thread (.write false))
        (before.move thread (.returned request .sendError none))
  | closes {action : SyncAction Thread Reader} {thread : Thread} {request : SyncRequest} {pc : SendPc}
      (tidy : Tidy before action) (was : (before.callers thread).request? = some request)
      (gone : pc.request? = none) : Turn before action (before.close thread request pc)
  | stays {action : SyncAction Thread Reader} {after : SyncCalls Thread Reader}
      (tidy : Tidy before action)
      (same : ∀ thread, (after.callers thread).request? = (before.callers thread).request?)
      (entries : after.proxy = before.proxy) (count : after.made = before.made) :
      Turn before action after

theorem Entered.draw (entered : before.Entered) : (before.draw thread).Entered := by
  refine ⟨fun reqId promise entry => ?_, fun reqId other promise entry entry' => ?_⟩
  · rcases draw_entry entry with ⟨_, rfl⟩ | had
    · exact Nat.lt_succ_self _
    · exact Nat.lt_succ_of_lt (entered.below reqId promise had)
  · rcases draw_entry entry with ⟨rfl, rfl⟩ | had <;>
      rcases draw_entry entry' with ⟨rfl, made⟩ | had'
    · rfl
    · exact absurd (entered.below other _ had') (Nat.lt_irrefl _)
    · subst made
      exact absurd (entered.below reqId _ had) (Nat.lt_irrefl _)
    · exact entered.sole reqId other promise had had'

theorem Entered.close {pc : SendPc} (entered : before.Entered) :
    (before.close thread request pc).Entered := by
  refine ⟨fun reqId promise entry => ?_, fun reqId other promise entry entry' => ?_⟩
  · exact entered.below reqId promise (close_entry entry).2
  · exact entered.sole reqId other promise (close_entry entry).2 (close_entry entry').2

theorem Numbered.turn (numbered : before.Numbered) (turn : Turn before action after) :
    after.Numbered := by
  obtain ⟨entered, made, distinct⟩ := numbered
  cases turn with
  | draws free =>
    refine ⟨entered.draw, fun other request has => ?_,
      fun first second request other has has' same => ?_⟩
    · rcases draw_request has with ⟨_, rfl⟩ | ⟨_, had⟩
      · exact Nat.lt_succ_self _
      · exact Nat.lt_succ_of_lt (made other request had)
    · rcases draw_request has with ⟨rfl, rfl⟩ | ⟨_, had⟩ <;>
        rcases draw_request has' with ⟨rfl, rfl⟩ | ⟨_, had'⟩
      · rfl
      · exact absurd same.symm (Nat.ne_of_lt (made second other had'))
      · exact absurd same (Nat.ne_of_lt (made first request had))
      · exact distinct first second request other had had' same
  | leaves place =>
    refine ⟨⟨entered.below, entered.sole⟩, fun other request has => ?_,
      fun first second request other has has' same => ?_⟩
    · exact made other request (view_other rfl has).2
    · exact distinct first second request other (view_other rfl has).2 (view_other rfl has').2 same
  | closes _ was gone =>
    refine ⟨entered.close, fun other request has => ?_,
      fun first second request other has has' same => ?_⟩
    · exact made other request (view_other gone has).2
    · exact distinct first second request other (view_other gone has).2 (view_other gone has').2 same
  | stays _ same entries count =>
    refine ⟨⟨?_, ?_⟩, ?_, ?_⟩
    · simpa only [entries, count] using entered.below
    · simpa only [entries] using entered.sole
    · simpa only [same, count] using made
    · simpa only [same] using distinct

/-- Calls keep their promises in the map while no id is drawn that has an entry. -/
theorem own_of_turn (numbered : before.Numbered)
    (own : ∀ thread request, (before.callers thread).request? = some request →
      before.proxy.futureMap request.reqId = some request.made)
    (fresh : ∀ thread, action = .call thread .getNextPromise →
      before.proxy.futureMap (before.proxy.curReqId + 1) = none)
    (turn : Turn before action after) :
    ∀ thread request, (after.callers thread).request? = some request →
      after.proxy.futureMap request.reqId = some request.made := by
  intro other request has
  cases turn with
  | @draws thread free =>
    have unused := fresh thread rfl
    rw [draw_fresh unused]
    rcases draw_request has with ⟨_, rfl⟩ | ⟨_, had⟩
    · exact Function.update_self ..
    · have entry := own other request had
      rw [Function.update_of_ne]
      · exact entry
      · intro same
        rw [same, unused] at entry
        cases entry
  | leaves place => exact own other request (view_other rfl has).2
  | @closes _ thread closed _ _ was gone =>
    obtain ⟨apart, had⟩ := view_other gone has
    have entry := own other request had
    show Function.update before.proxy.futureMap closed.reqId none request.reqId = _
    rw [Function.update_of_ne]
    · exact entry
    · intro same
      rw [same, own thread closed was] at entry
      have made := (Option.some.inj entry).symm
      exact apart (numbered.distinct other thread request closed had was made)
  | stays _ same entries _ =>
    rw [same] at has
    rw [entries]
    exact own other request has

private theorem booked_turn (numbered : before.Numbered) (booked : before.Booked)
    (turn : Turn before action after) : after.Booked ↔ Tidy before action := by
  have own (fresh : ∀ thread, action = .call thread .getNextPromise →
      before.proxy.futureMap (before.proxy.curReqId + 1) = none) :=
    own_of_turn numbered booked.own fresh turn
  cases turn with
  | @draws thread free =>
    constructor
    · intro kept
      by_contra used
      obtain ⟨promise, entry⟩ := Option.ne_none_iff_exists'.mp used
      have mine : emplace before.proxy.futureMap (before.proxy.curReqId + 1) before.made
        (before.proxy.curReqId + 1) = some before.made := kept.own thread _ draw_self
      have below := numbered.below _ promise entry
      rw [emplace, if_pos (by rw [entry]; rfl), entry] at mine
      exact absurd (Option.some.inj mine) (Nat.ne_of_lt below)
    · intro fresh
      refine ⟨own fun _ _ => fresh, fun reqId promise entry => ?_⟩
      rcases draw_entry entry with ⟨rfl, rfl⟩ | entered
      · exact ⟨thread, _, draw_self, rfl, rfl⟩
      · obtain ⟨other, request, had, same⟩ := booked.only reqId promise entered
        have apart : other ≠ thread := by
          intro here
          rw [here, free] at had
          cases had
        exact ⟨other, request, (view_elsewhere SendPc.request? apart).trans had, same⟩
  | @leaves thread request place =>
    refine iff_of_false (fun kept => ?_) Bool.false_ne_true
    have was : (before.callers thread).request? = some request := by rw [place]; rfl
    obtain ⟨other, found, has, _, same⟩ := kept.only request.reqId request.made
      (booked.own thread request was)
    obtain ⟨apart, had⟩ := view_other rfl has
    exact apart (numbered.distinct other thread found request had was same)
  | @closes _ thread request _ tidy was gone =>
    refine iff_of_true ⟨own fun _ same => ?_, fun reqId promise entry => ?_⟩ tidy
    · subst same
      exact tidy
    · obtain ⟨other, entered⟩ := close_entry entry
      obtain ⟨holder, found, had, same⟩ := booked.only reqId promise entered
      have apart : holder ≠ thread := by
        intro here
        rw [here, was] at had
        cases had
        exact other same.1.symm
      exact ⟨holder, found, (view_elsewhere SendPc.request? apart).trans had, same⟩
  | stays tidy same entries count =>
    refine iff_of_true ⟨?_, ?_⟩ tidy
    · simpa only [same, entries] using booked.own
    · simpa only [same, entries] using booked.only

variable [DecidableEq Reader]

theorem Change.turn (change : Change before action after) : Turn before action after := by
  have moved {thread : Thread} {request : SyncRequest} {pc : SendPc}
      (was : (before.callers thread).request? = some request) (is' : pc.request? = some request) :
      ∀ other, (Function.update before.callers thread pc other).request? =
        (before.callers other).request? :=
    view_move SendPc.request? (is'.trans was.symm)
  cases change with
  | drawn free => exact .draws free
  | written place => exact .stays rfl (moved (by rw [place]; rfl) rfl) rfl rfl
  | unsent place => exact .leaves place
  | gaveUp place => exact .closes trivial (by rw [place]; rfl) rfl
  | missed place _ => exact .stays trivial (moved (by rw [place]; rfl) rfl) rfl rfl
  | found place _ => exact .stays trivial (moved (by rw [place]; rfl) rfl) rfl rfl
  | refused place _ => exact .stays trivial (moved (by rw [place]; rfl) rfl) rfl rfl
  | retrieved place => exact .stays trivial (moved (by rw [place]; rfl) rfl) rfl rfl
  | woken place _ => exact .stays trivial (moved (by rw [place]; rfl) rfl) rfl rfl
  | expired place => exact .stays trivial (moved (by rw [place]; rfl) rfl) rfl rfl
  | @removed _ _ _ ready place =>
    exact .closes trivial (by rw [place]; rfl) (by cases ready <;> rfl)
  | received _ => exact .stays trivial (fun _ => rfl) rfl rfl
  | satisfied _ => exact .stays trivial (fun _ => rfl) rfl rfl
  | threw _ _ => exact .stays trivial (fun _ => rfl) rfl rfl

/-- In a run the entries are at all times the requests of the calls that have not returned, if and
only if every step of it is tidy. -/
theorem booked_iff_tidy (path : Path (Taken next) construct actions last) :
    (∀ state, Visits (Taken next) construct actions state → Booked state) ↔
      ∀ state action, Takes (Taken next) construct actions state action → Tidy state action := by
  refine path.visits_iff_all_takes Numbered ?_ booked_construct numbered_construct
  intro before action after numbered booked taken
  have turn := (change_of_next taken).turn
  exact ⟨booked_turn numbered booked turn, fun _ => numbered.turn turn⟩

/-- Two calls, of which one gets its response and the other one is removed when it has timed out. -/
theorem booked_iff_tidy_two_calls :
    ∃ (actions : List (SyncAction Bool Unit)) (last : SyncCalls Bool Unit),
      Path (Taken next) construct actions last ∧
        ((∀ state, Visits (Taken next) construct actions state → Booked state) ↔
          ∀ state action, Takes (Taken next) construct actions state action → Tidy state action) ∧
        last.proxy.futureMap 1 = none ∧ last.proxy.futureMap 2 = none := by
  let item : ProxyMsg := ⟨[], ⟨CommModel.rsponse, RpcModel.future, 1, 0, 0⟩, []⟩
  let actions : List (SyncAction Bool Unit) :=
    [.call true .getNextPromise, .call false .getNextPromise, .call true (.write true),
      .call false (.write true), .call true .getPromise, .call true .getFuture, .receive () item,
      .call false .getPromise, .setValue (), .call true .ready, .call false .getFuture,
      .call true .remove, .call false .timeout, .call false .remove]
  have runs : ∃ last ∈ exec next construct actions, last.proxy.futureMap 1 = none ∧
      last.proxy.futureMap 2 = none := by
    decide
  obtain ⟨last, run, first, second⟩ := runs
  have path := exec_eq_some_iff.mp run
  exact ⟨actions, last, path, booked_iff_tidy path, first, second⟩

/-- A call whose request is not written has returned `send_error`, and its id is still in the map. -/
theorem not_booked_unsent :
    ∃ (actions : List (SyncAction Unit Unit)) (last : SyncCalls Unit Unit),
      Path (Taken next) construct actions last ∧
        last.callers () = .returned ⟨1, 0, 0⟩ .sendError none ∧ last.proxy.futureMap 1 = some 0 ∧
        ¬ ∀ state, Visits (Taken next) construct actions state → Booked state := by
  let actions : List (SyncAction Unit Unit) := [.call () .getNextPromise, .call () (.write false)]
  have runs : ∃ last ∈ exec next construct actions,
      last.callers () = .returned ⟨1, 0, 0⟩ .sendError none ∧ last.proxy.futureMap 1 = some 0 := by
    decide
  obtain ⟨last, run, returned, entry⟩ := runs
  have path := exec_eq_some_iff.mp run
  refine ⟨actions, last, path, returned, entry, fun booked => ?_⟩
  have now := booked last ⟨actions, [], (List.append_nil _).symm, path⟩
  obtain ⟨thread, request, has, _⟩ := now.only 1 0 entry
  cases thread
  rw [returned] at has
  cases has

end SyncCalls

end BTool.BoostNet
