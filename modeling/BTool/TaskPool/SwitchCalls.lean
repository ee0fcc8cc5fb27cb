import Mathlib.Data.Fintype.Basic
import BTool.Foundation.Locals
import BTool.Foundation.Transition
import BTool.TaskPool.AtomicSwitch

/-! Any number of threads that call `init`, `start`, `stop` and `reset` of one `AtomicSwitch`.

A `reset` stores the flags one after the other. What it leaves is the switch as constructed only if
no other call sets, in the middle of it, a flag that it has stored already. -/

namespace BTool.TaskPool

open BTool.Foundation AtomicSwitch

/-- Where a thread is in its call. -/
inductive SwitchPc where
  | outside
  | init
  | start (pc : StartPc)
  | stop (pc : StopPc)
  | reset (pc : ResetPc)
deriving DecidableEq

inductive SwitchAction (T : Type) where
  | init (thread : T)
  | start (thread : T)
  | stop (thread : T)
  | reset (thread : T)
  /-- The next access of a thread to a flag. -/
  | step (thread : T)
deriving DecidableEq

@[ext] structure SwitchCalls (T : Type) where
  switch : AtomicSwitch
  caller : T → SwitchPc
  /-- How many calls of `init` have returned true. -/
  inits : Nat
  /-- How many calls of `start` have returned true since an `init` last did. -/
  starts : Nat
  /-- How many calls of `stop` have returned true since an `init` last did. -/
  stops : Nat
  /-- A `start` has returned true, and since then `reset` has not been called. -/
  settled : Bool

namespace SwitchCalls

variable {T : Type} [DecidableEq T]

def construct : SwitchCalls T := ⟨.construct, fun _ => .outside, 0, 0, 0, false⟩

def move (calls : SwitchCalls T) (thread : T) (pc : SwitchPc) : SwitchCalls T :=
  { calls with caller := Function.update calls.caller thread pc }

def step (calls : SwitchCalls T) (thread : T) : Option (SwitchCalls T) :=
  match calls.caller thread with
  | .outside => none
  | .init =>
    match calls.switch.init with
    | (switch, true) =>
      some ({ calls with switch, inits := calls.inits + 1, starts := 0, stops := 0 }.move thread .outside)
    | (switch, false) => some ({ calls with switch }.move thread .outside)
  | .start pc =>
    match calls.switch.start pc with
    | (switch, .goes pc) => some ({ calls with switch }.move thread (.start pc))
    | (switch, .returns true) =>
      some ({ calls with switch, starts := calls.starts + 1, settled := true }.move thread .outside)
    | (switch, .returns false) => some ({ calls with switch }.move thread .outside)
  | .stop pc =>
    match calls.switch.stop pc with
    | (switch, .goes pc) => some ({ calls with switch }.move thread (.stop pc))
    | (switch, .returns true) =>
      some ({ calls with switch, stops := calls.stops + 1 }.move thread .outside)
    | (switch, .returns false) => some ({ calls with switch }.move thread .outside)
  | .reset pc =>
    let (switch, progress) := calls.switch.reset pc
    some ({ calls with switch }.move thread (progress.elim .reset fun _ => .outside))

def next (calls : SwitchCalls T) : SwitchAction T → Option (SwitchCalls T)
  | .init thread => if calls.caller thread = .outside then some (calls.move thread .init) else none
  | .start thread =>
    if calls.caller thread = .outside then some (calls.move thread (.start .loadStop)) else none
  | .stop thread =>
    if calls.caller thread = .outside then some (calls.move thread (.stop .loadInit)) else none
  | .reset thread =>
    if calls.caller thread = .outside then
      some ({ calls with settled := false }.move thread (.reset .storeStart))
    else none
  | .step thread => calls.step thread

/-- No call is in progress. -/
def Quiescent (calls : SwitchCalls T) : Prop := ∀ thread, calls.caller thread = .outside

/-- In a `reset` that has still to store `m_bstart`. -/
def ClearsStart (pc : SwitchPc) : Prop := pc = .reset .storeStart

/-- In a `reset` that has still to store `m_bstop`. -/
def ClearsStop (pc : SwitchPc) : Prop := pc = .reset .storeStart ∨ pc = .reset .storeStop

/-- In a `reset`. -/
def Resets (pc : SwitchPc) : Prop := ∃ reset, pc = .reset reset

/-- A `start` sets its flag on an initialised switch and in no `reset`. A `stop` sets its flag on an
initialised switch that is started or being reset, and in no `reset` that has stored that flag. -/
def Careful (calls : SwitchCalls T) : SwitchAction T → Prop
  | .step thread =>
    match calls.caller thread with
    | .start .exchange =>
      calls.switch.bstart = false → calls.switch.binit = true ∧ ¬ Somewhere Resets calls.caller
    | .stop .exchange =>
      calls.switch.bstop = false → calls.switch.binit = true ∧
        ¬ Somewhere (fun pc => pc = .reset .storeInit) calls.caller ∧
        (calls.switch.bstart = true ∨ Somewhere Resets calls.caller)
    | _ => True
  | _ => True

instance (pc : SwitchPc) : Decidable (Resets pc) :=
  match pc with
  | .reset pc => .isTrue ⟨pc, rfl⟩
  | .outside => .isFalse nofun
  | .init => .isFalse nofun
  | .start _ => .isFalse nofun
  | .stop _ => .isFalse nofun

instance [Fintype T] (calls : SwitchCalls T) : Decidable calls.Quiescent := by
  unfold Quiescent
  infer_instance

instance [Fintype T] (calls : SwitchCalls T) (action : SwitchAction T) :
    Decidable (calls.Careful action) := by
  unfold Careful Somewhere
  split
  · split <;> infer_instance
  · infer_instance

/-- What is kept in every careful run. A flag counts only as far as no `reset` will clear it. -/
structure Tidy (calls : SwitchCalls T) : Prop where
  first : calls.inits = 0 → calls.switch.binit = false ∧ calls.starts = 0 ∧ calls.stops = 0
  stop : calls.switch.bstop = true → Somewhere ClearsStop calls.caller ∨
    calls.switch.bstart = true ∧ ¬ Somewhere ClearsStart calls.caller
  start : calls.switch.bstart = true → Somewhere ClearsStart calls.caller ∨
    calls.switch.binit = true ∧ ¬ Somewhere Resets calls.caller
  starts : calls.starts = 0 ∨ calls.starts = 1 ∧
    (calls.switch.bstart = true ∨ calls.switch.binit = false ∨
    Somewhere Resets calls.caller)
  stops : calls.stops = 0 ∨ calls.stops = 1 ∧
    (calls.switch.bstop = true ∨ calls.switch.binit = false ∨
    Somewhere (fun pc => pc = .reset .storeInit) calls.caller)
  settled : calls.settled = true → calls.switch.binit = true ∧ ¬ Somewhere Resets calls.caller

variable {calls after : SwitchCalls T} {thread : T} {pc : SwitchPc} {action : SwitchAction T}

theorem somewhere_move_iff {holds : SwitchPc → Prop}
    (same : holds pc ↔ holds (calls.caller thread)) :
    Somewhere holds (calls.move thread pc).caller ↔ Somewhere holds calls.caller :=
  ⟨fun found => found.back same.mp, fun found => found.move same.mpr⟩

/-- Moves outside of `reset` change nothing for the flags. -/
theorem Tidy.move (tidy : calls.Tidy) (was : ¬ Resets (calls.caller thread)) (now : ¬ Resets pc) :
    (calls.move thread pc).Tidy := by
  have same (holds : SwitchPc → Prop) (within : ∀ pc, holds pc → Resets pc) :
      Somewhere holds (calls.move thread pc).caller ↔ Somewhere holds calls.caller := by
    apply somewhere_move_iff
    exact iff_of_false (fun holds => now (within _ holds)) (fun holds => was (within _ holds))
  have clearsStart := same ClearsStart fun _ here => ⟨_, here⟩
  have clearsStop := same ClearsStop fun _ here =>
    here.elim (fun here => ⟨_, here⟩) fun here => ⟨_, here⟩
  have resets := same Resets fun _ here => here
  have last := same (fun pc => pc = .reset .storeInit) fun _ here => ⟨_, here⟩
  refine ⟨tidy.first, ?_, ?_, ?_, ?_, ?_⟩
  · rw [clearsStop, clearsStart]
    exact tidy.stop
  · rw [clearsStart, resets]
    exact tidy.start
  · rw [resets]
    exact tidy.starts
  · rw [last]
    exact tidy.stops
  · rw [resets]
    exact tidy.settled

omit [DecidableEq T] in
/-- `init` succeeds. -/
theorem Tidy.init (tidy : calls.Tidy) (unset : calls.switch.binit = false) :
    Tidy { calls with
      switch := { calls.switch with binit := true }
      inits := calls.inits + 1
      starts := 0
      stops := 0 } := by
  refine ⟨nofun, tidy.stop, fun set => ?_, .inl rfl, .inl rfl, fun settled => ?_⟩
  · rcases tidy.start set with clears | ⟨initialised, _⟩
    · exact .inl clears
    · cases unset.symm.trans initialised
  · cases unset.symm.trans (tidy.settled settled).1

omit [DecidableEq T] in
/-- `start` succeeds. -/
theorem Tidy.started (tidy : calls.Tidy) (unset : calls.switch.bstart = false)
    (initialised : calls.switch.binit = true) (apart : ¬ Somewhere Resets calls.caller) :
    Tidy { calls with
      switch := { calls.switch with bstart := true }
      starts := calls.starts + 1
      settled := true } := by
  have later (first : calls.inits = 0) : False :=
    nomatch (tidy.first first).1.symm.trans initialised
  refine ⟨fun first => (later first).elim, fun stopped => ?_, fun _ => .inr ⟨initialised, apart⟩,
    .inr ⟨?_, .inl rfl⟩, tidy.stops, fun _ => ⟨initialised, apart⟩⟩
  · exact (tidy.stop stopped).imp_right fun ⟨started, _⟩ => nomatch unset.symm.trans started
  · rcases tidy.starts with none | ⟨_, started | cleared | resets⟩
    · rw [none]
    · cases unset.symm.trans started
    · cases cleared.symm.trans initialised
    · exact absurd resets apart

omit [DecidableEq T] in
/-- `stop` succeeds. -/
theorem Tidy.stopped (tidy : calls.Tidy) (unset : calls.switch.bstop = false)
    (initialised : calls.switch.binit = true)
    (apart : ¬ Somewhere (fun pc => pc = .reset .storeInit) calls.caller)
    (started : calls.switch.bstart = true ∨ Somewhere Resets calls.caller) :
    Tidy { calls with switch := { calls.switch with bstop := true }, stops := calls.stops + 1 } := by
  have later (first : calls.inits = 0) : False :=
    nomatch (tidy.first first).1.symm.trans initialised
  refine ⟨fun first => (later first).elim, fun _ => ?_, tidy.start, tidy.starts,
    .inr ⟨?_, .inl rfl⟩, tidy.settled⟩
  · have clears (thread : T) (pc : ResetPc) (here : calls.caller thread = .reset pc) :
        Somewhere ClearsStop calls.caller := by
      cases pc with
      | storeStart => exact ⟨thread, .inl here⟩
      | storeStop => exact ⟨thread, .inr here⟩
      | storeInit => exact absurd ⟨thread, here⟩ apart
    by_cases resets : Somewhere Resets calls.caller
    · obtain ⟨thread, pc, here⟩ := resets
      exact .inl (clears thread pc here)
    · refine .inr ⟨started.resolve_right resets, fun ⟨thread, here⟩ => resets ⟨thread, _, here⟩⟩
  · rcases tidy.stops with none | ⟨_, stopped | cleared | resets⟩
    · rw [none]
    · cases unset.symm.trans stopped
    · cases cleared.symm.trans initialised
    · exact absurd resets apart

/-- `reset` is called. -/
theorem Tidy.resets (tidy : calls.Tidy) (outside : calls.caller thread = .outside) :
    Tidy ({ calls with settled := false }.move thread (.reset .storeStart)) := by
  have keep {holds : SwitchPc → Prop} (found : Somewhere holds calls.caller) (not : ¬ holds .outside) :
      Somewhere holds (calls.move thread (.reset .storeStart)).caller :=
    found.move fun there => absurd (outside ▸ there) not
  refine ⟨tidy.first, fun _ => .inl (.here (.inl rfl)), fun _ => .inl (.here rfl), ?_, ?_, nofun⟩
  · exact tidy.starts.imp_right (And.imp_right (Or.imp_right (Or.imp_right fun _ => .here ⟨_, rfl⟩)))
  · exact tidy.stops.imp_right (And.imp_right (Or.imp_right (Or.imp_right fun found => keep found nofun)))

/-- A `reset` stores a flag. -/
theorem Tidy.reset (tidy : calls.Tidy) {reset : ResetPc}
    (here : calls.caller thread = .reset reset) :
    Tidy ({ calls with switch := (calls.switch.reset reset).1 }.move thread
      ((calls.switch.reset reset).2.elim .reset fun _ => .outside)) := by
  have resetting : Somewhere Resets calls.caller := ⟨thread, reset, here⟩
  have unsettled {Goal : Prop} (settled : calls.settled = true) : Goal :=
    absurd resetting (tidy.settled settled).2
  cases reset with
  | storeStart =>
    refine ⟨tidy.first, fun _ => .inl (.here (.inr rfl)), nofun, ?_, ?_,
      fun settled => unsettled settled⟩
    · exact tidy.starts.imp_right (And.imp_right fun _ => .inr (.inr (.here ⟨_, rfl⟩)))
    · refine tidy.stops.imp_right (And.imp_right (Or.imp_right (Or.imp_right fun found => found.move ?_)))
      rw [here]
      nofun
  | storeStop =>
    refine ⟨tidy.first, nofun, fun started => ?_, ?_, ?_, fun settled => unsettled settled⟩
    · rcases tidy.start started with clears | ⟨_, apart⟩
      · refine .inl (clears.move ?_)
        rw [here]
        nofun
      · exact absurd resetting apart
    · exact tidy.starts.imp_right (And.imp_right fun _ => .inr (.inr (.here ⟨_, rfl⟩)))
    · exact tidy.stops.imp_right (And.imp_right fun _ => .inr (.inr (.here rfl)))
  | storeInit =>
    refine ⟨fun first => ⟨rfl, (tidy.first first).2⟩, fun stopped => ?_, fun started => ?_, ?_, ?_,
      fun settled => unsettled settled⟩
    · rcases tidy.stop stopped with clears | ⟨started, apart⟩
      · refine .inl (clears.move ?_)
        rw [here]
        nofun
      · exact .inr ⟨started, fun found => apart (found.back nofun)⟩
    · rcases tidy.start started with clears | ⟨_, apart⟩
      · refine .inl (clears.move ?_)
        rw [here]
        nofun
      · exact absurd resetting apart
    · exact tidy.starts.imp_right (And.imp_right fun _ => .inr (.inl rfl))
    · exact tidy.stops.imp_right (And.imp_right fun _ => .inr (.inl rfl))

theorem Tidy.step (tidy : calls.Tidy) (careful : calls.Careful (.step thread))
    (taken : calls.step thread = some after) : after.Tidy := by
  unfold SwitchCalls.step at taken
  cases here : calls.caller thread with
  | outside => simp [here] at taken
  | init =>
    have was : ¬ Resets (calls.caller thread) := by
      rw [here]
      nofun
    simp only [here] at taken
    cases set : calls.switch.binit with
    | true =>
      simp only [AtomicSwitch.init, set] at taken
      cases taken
      exact tidy.move was (by nofun)
    | false =>
      simp only [AtomicSwitch.init, set] at taken
      cases taken
      exact (tidy.init set).move was (by nofun)
  | start pc =>
    have was : ¬ Resets (calls.caller thread) := by
      rw [here]
      nofun
    simp only [Careful, here] at careful
    simp only [here] at taken
    cases pc with
    | loadStop =>
      cases set : calls.switch.bstop <;> simp only [AtomicSwitch.start, set] at taken <;> cases taken <;>
        exact tidy.move was (by nofun)
    | loadInit =>
      cases set : calls.switch.binit <;> simp only [AtomicSwitch.start, set] at taken <;> cases taken <;>
        exact tidy.move was (by nofun)
    | exchange =>
      cases set : calls.switch.bstart with
      | true =>
        simp only [AtomicSwitch.start, set] at taken
        cases taken
        exact tidy.move was (by nofun)
      | false =>
        simp only [AtomicSwitch.start, set] at taken
        cases taken
        obtain ⟨initialised, apart⟩ := careful set
        exact (tidy.started set initialised apart).move was (by nofun)
  | stop pc =>
    have was : ¬ Resets (calls.caller thread) := by
      rw [here]
      nofun
    simp only [Careful, here] at careful
    simp only [here] at taken
    cases pc with
    | loadInit =>
      cases set : calls.switch.binit <;> simp only [AtomicSwitch.stop, set] at taken <;> cases taken <;>
        exact tidy.move was (by nofun)
    | loadStart =>
      cases set : calls.switch.bstart <;> simp only [AtomicSwitch.stop, set] at taken <;> cases taken <;>
        exact tidy.move was (by nofun)
    | exchange =>
      cases set : calls.switch.bstop with
      | true =>
        simp only [AtomicSwitch.stop, set] at taken
        cases taken
        exact tidy.move was (by nofun)
      | false =>
        simp only [AtomicSwitch.stop, set] at taken
        cases taken
        obtain ⟨initialised, apart, started⟩ := careful set
        exact (tidy.stopped set initialised apart started).move was (by nofun)
  | reset pc =>
    simp only [here, Option.some.injEq] at taken
    rw [← taken]
    exact tidy.reset here

theorem Tidy.next (tidy : calls.Tidy) (careful : calls.Careful action)
    (taken : calls.next action = some after) :
    after.Tidy := by
  have begins {thread : T} {pc : SwitchPc} (outside : calls.caller thread = .outside) (now : ¬ Resets pc) :
      (calls.move thread pc).Tidy := by
    refine tidy.move ?_ now
    rw [outside]
    nofun
  cases action with
  | init thread =>
    obtain ⟨outside, same⟩ := Option.ite_none_right_eq_some.mp taken
    cases same
    exact begins outside nofun
  | start thread =>
    obtain ⟨outside, same⟩ := Option.ite_none_right_eq_some.mp taken
    cases same
    exact begins outside nofun
  | stop thread =>
    obtain ⟨outside, same⟩ := Option.ite_none_right_eq_some.mp taken
    cases same
    exact begins outside nofun
  | reset thread =>
    obtain ⟨outside, same⟩ := Option.ite_none_right_eq_some.mp taken
    cases same
    exact tidy.resets outside
  | step thread => exact tidy.step careful taken

omit [DecidableEq T] in
theorem construct_tidy : (construct : SwitchCalls T).Tidy :=
  ⟨fun _ => ⟨rfl, rfl, rfl⟩, nofun, nofun, .inl rfl, .inl rfl, nofun⟩

omit [DecidableEq T] in
/-- With no call in progress, the flags are those of a switch before `init`, before `start`, before
`stop` or before `reset`. -/
theorem Tidy.flags (tidy : calls.Tidy) (quiet : calls.Quiescent) :
    calls.switch = .construct ∨ calls.switch = ⟨true, false, false⟩ ∨ calls.switch = .started ∨
      calls.switch = ⟨true, true, true⟩ := by
  have nobody {holds : SwitchPc → Prop} (never : ¬ holds .outside) :
      ¬ Somewhere holds calls.caller :=
    fun ⟨thread, there⟩ => never (quiet thread ▸ there)
  have started (stopped : calls.switch.bstop = true) : calls.switch.bstart = true :=
    ((tidy.stop stopped).resolve_left (nobody (by simp [ClearsStop]))).1
  have initialised (started : calls.switch.bstart = true) : calls.switch.binit = true :=
    ((tidy.start started).resolve_left (nobody (by simp [ClearsStart]))).1
  cases stop : calls.switch.bstop with
  | true =>
    exact .inr (.inr (.inr (AtomicSwitch.ext (initialised (started stop)) (started stop) stop)))
  | false =>
    cases start : calls.switch.bstart with
    | true => exact .inr (.inr (.inl (AtomicSwitch.ext (initialised start) start stop)))
    | false =>
      cases init : calls.switch.binit with
      | true => exact .inr (.inl (AtomicSwitch.ext init start stop))
      | false => exact .inl (AtomicSwitch.ext init start stop)

/-- From the flags of a constructed switch, `init` and then `start` succeed. -/
theorem starts_of_construct (quiet : calls.Quiescent) (flags : calls.switch = .construct)
    (thread : T) :
    exec next calls (.init thread :: .step thread :: .start thread :: List.replicate 3 (.step thread)) =
      some { calls with switch := .started, inits := calls.inits + 1, starts := 1, stops := 0, settled := true } := by
  have outside := quiet thread
  have back : Function.update calls.caller thread .outside = calls.caller := by
    rw [← outside, Function.update_eq_self]
  simp [exec, next, step, move, outside, flags, AtomicSwitch.construct, AtomicSwitch.init,
    AtomicSwitch.start, AtomicSwitch.started, List.replicate, back]

/-- In every run of calls of any number of threads: with no call in progress the flags are in order,
`start` and `stop` return true at most once for each `init` that does, what a `start` has started
stays initialised until a `reset` is called, and a switch that has been reset can be started. -/
theorem flags_of_careful {actions : List (SwitchAction T)} {last : SwitchCalls T}
    (path : Path (Guarded (Taken next) Careful) construct actions last) :
    (last.Quiescent → last.switch = .construct ∨ last.switch = ⟨true, false, false⟩ ∨ last.switch = .started ∨
      last.switch = ⟨true, true, true⟩) ∧
    (last.starts ≤ 1 ∧ last.stops ≤ 1 ∧ (last.inits = 0 → last.starts = 0 ∧ last.stops = 0)) ∧
    (last.settled = true → last.switch.binit = true) ∧
    (last.Quiescent → last.switch.binit = false → ∀ thread,
      exec next last (.init thread :: .step thread :: .start thread :: List.replicate 3 (.step thread)) =
        some { last with switch := .started, inits := last.inits + 1, starts := 1, stops := 0, settled := true }) := by
  have tidy : last.Tidy := path.invariant Tidy
    (fun _ _ _ tidy ⟨careful, taken⟩ => tidy.next careful taken) construct_tidy
  refine ⟨tidy.flags, ⟨?_, ?_, fun first => (tidy.first first).2⟩,
    fun settled => (tidy.settled settled).1, ?_⟩
  · rcases tidy.starts with none | ⟨one, _⟩ <;> omega
  · rcases tidy.stops with none | ⟨one, _⟩ <;> omega
  · intro quiet unset thread
    rcases tidy.flags quiet with flags | flags | flags | flags
    · exact starts_of_construct quiet flags thread
    all_goals simp [flags, AtomicSwitch.started] at unset

/-- A call of `init`, of `start` and of `stop`. -/
def lifeOf (thread : Fin 2) : List (SwitchAction (Fin 2)) :=
  List.flatten
    [[.init thread, .step thread], .start thread :: List.replicate 3 (.step thread),
      .stop thread :: List.replicate 3 (.step thread)]

theorem flags_of_careful_reset :
    ∃ last : SwitchCalls (Fin 2),
      exec next construct (List.flatten [lifeOf 0, .reset 1 :: List.replicate 3 (.step 1)]) = some last ∧
      last.switch = .construct ∧
      exec next last (.init 0 :: .step 0 :: .start 0 :: List.replicate 3 (.step 0)) =
        some { last with switch := .started, inits := last.inits + 1, starts := 1, stops := 0, settled := true } := by
  have runs : ∃ last ∈ exec (checked next Careful) (construct : SwitchCalls (Fin 2))
      (List.flatten [lifeOf 0, .reset 1 :: List.replicate 3 (.step 1)]),
      last.Quiescent ∧ last.switch = .construct := by
    decide
  obtain ⟨last, run, quiet, flags⟩ := runs
  have path := Path.of_checked run
  refine ⟨last, exec_eq_some_iff.mpr (path.mono fun _ _ _ step => step.2), flags, ?_⟩
  exact (flags_of_careful path).2.2.2 quiet (by rw [flags]; rfl) 0

/-- Between the stores of a `reset`, `start` returns true a second time. Then the switch is started
and not initialised, so that `init` returns true and `start` false. -/
theorem reset_wedged_by_start :
    ∃ last wedged : SwitchCalls (Fin 2),
      exec next construct
        (List.flatten [lifeOf 0, [.reset 0, .step 0, .step 0], .start 1 :: List.replicate 3 (.step 1), [.step 0]]) =
        some last ∧
      last.Quiescent ∧ last.switch = ⟨false, true, false⟩ ∧ last.inits = 1 ∧ last.starts = 2 ∧
      exec next last (.init 1 :: .step 1 :: .start 1 :: List.replicate 3 (.step 1)) = some wedged ∧
      wedged.Quiescent ∧ wedged.inits = 2 ∧ wedged.starts = 0 := by
  have runs : ∃ last ∈ exec next (construct : SwitchCalls (Fin 2))
      (List.flatten [lifeOf 0, [.reset 0, .step 0, .step 0], .start 1 :: List.replicate 3 (.step 1), [.step 0]]),
      last.Quiescent ∧ last.switch = ⟨false, true, false⟩ ∧ last.inits = 1 ∧ last.starts = 2 ∧
      ∃ wedged ∈ exec next last (.init 1 :: .step 1 :: .start 1 :: List.replicate 3 (.step 1)),
        wedged.Quiescent ∧ wedged.inits = 2 ∧ wedged.starts = 0 := by
    decide
  obtain ⟨last, run, quiet, flags, inits, starts, wedged, later, rest⟩ := runs
  exact ⟨last, wedged, run, quiet, flags, inits, starts, later, rest⟩

end SwitchCalls

end BTool.TaskPool
