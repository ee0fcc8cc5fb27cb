import BTool.TaskQueue.SPMCSerialSteps

/-! Tasks that a `SPMCSerialTaskQueue` keeps for ever. Nothing unsets `m_bclear`: once a clear has
set it, `not_empty` and `pop_task` find nothing in the queue, whatever is added. -/

namespace BTool.TaskQueue.SPMCSerialTaskQueue

open BTool.Foundation

variable {P F Q W : Type}

namespace State

def Quiescent (state : State P F Q W) : Prop :=
  (∀ caller, state.caller caller = .outside) ∧ ∀ worker, state.worker worker = .outside

/-- A clear comes to its end. -/
def EndsClear (state : State P F Q W) : Action P F Q W → Prop
  | .caller caller _ => state.caller caller = .clear .storeSize
  | _ => False

/-- Where `pop_task` finds a task, if it finds any. -/
def Selectable (state : State P F Q W) (task : AddedTask P F) : Prop :=
  (state.queue.bclear = false ∨ state.Clearing) ∧ task.prop ∈ state.queue.registered ∧
  task.func.isSome = true

/-- `add_task` returns true for no task that is to wait but a function of a registered property,
where no clear has come to its end. -/
def Takeable (state : State P F Q W) : Action P F Q W → Prop
  | .caller caller _ =>
    match state.caller caller with
    | .storeSingle task => task ∈ state.executed ∨ state.Selectable task
    | .countSingle task => task ∈ state.executed ∨ state.Selectable task
    | _ => True
  | _ => True

section Decidable

variable [DecidableEq P] [DecidableEq F] [DecidableEq Q] [Fintype Q] (state : State P F Q W)
  (action : Action P F Q W)

instance (task : AddedTask P F) : Decidable (state.Selectable task) := by
  unfold Selectable
  infer_instance

instance : Decidable (state.EndsClear action) := by
  induction action using Action.casesOn <;> unfold EndsClear <;> infer_instance

instance : Decidable (state.Takeable action) := by
  induction action using Action.casesOn with
  | caller caller source =>
    dsimp only [Takeable]
    induction state.caller caller using CallerPc.casesOn <;> infer_instance
  | _ => exact .isTrue trivial

end Decidable

theorem Selectable.mono {state after : State P F Q W} {task : AddedTask P F}
    (onward : state.Onward after)
    (clearing : state.Clearing → after.Clearing) (selectable : state.Selectable task) :
    after.Selectable task := by
  obtain ⟨flag, prop, func⟩ := selectable
  refine ⟨?_, onward.registered prop, func⟩
  rcases flag with unset | busy
  · exact onward.sets unset
  · exact .inr (clearing busy)

section Steps

variable [DecidableEq P] [DecidableEq F] [DecidableEq Q] [DecidableEq W]
    {state after : State P F Q W}
  {action : Action P F Q W} {caller source : Q} {worker : W} {task : AddedTask P F}

omit [DecidableEq W] in
theorem Clearing.callStep (clearing : state.Clearing)
    (last : state.caller caller ≠ .clear .storeSize)
    (taken : state.callStep caller source = some after) : after.Clearing := by
  unfold State.callStep at taken
  split at taken
  case h_1 => cases taken
  case h_12 pc here =>
    obtain ⟨⟨queue, next⟩, step, rfl⟩ := Option.map_eq_some_iff.mp taken
    obtain ⟨_, _, busy | ⟨final, _⟩⟩ := clearStep_facts step
    · exact .here busy
    · exact absurd (final ▸ here) last
  all_goals
    rename_i here
    cases taken
    refine clearing.move fun inside => ?_
    rw [here] at inside
    cases inside

/-- A clear goes on until it comes to its end. -/
theorem Clearing.next (clearing : state.Clearing) (goes : ¬ state.EndsClear action)
    (taken : state.next action = some after) : after.Clearing := by
  cases action with
  | resetProps props =>
    cases taken
    exact clearing
  | caller caller source => exact clearing.callStep goes taken
  | callPop worker =>
    obtain ⟨_, same⟩ := Option.ite_none_right_eq_some.mp taken
    cases same
    exact clearing
  | pop worker source =>
    rw [Clearing, (onward_of_popStep taken).2.1]
    exact clearing
  | _ =>
    obtain ⟨outside, same⟩ := Option.ite_none_right_eq_some.mp taken
    cases same
    refine clearing.move fun inside => ?_
    rw [outside] at inside
    cases inside

omit [DecidableEq W] in
/-- A task becomes accepted where it is selectable, or has been executed before. -/
theorem accepted_of_callStep (takeable : state.Takeable (.caller caller source))
    (taken : state.callStep caller source = some after) (accepted : task ∈ after.accepted) :
    task ∈ state.accepted ∨ task ∈ state.executed ∨ state.Selectable task := by
  unfold State.callStep at taken
  split at taken
  case h_1 => cases taken
  case h_12 pc here =>
    obtain ⟨_, _, rfl⟩ := Option.map_eq_some_iff.mp taken
    exact .inl accepted
  case h_7 held here =>
    cases taken
    simp only [Takeable, here] at takeable
    rcases List.mem_append.mp accepted with before | now
    · exact .inl before
    · exact List.mem_singleton.mp now ▸ .inr takeable
  case h_9 held here =>
    cases taken
    simp only [Takeable, here] at takeable
    rcases List.mem_append.mp accepted with before | now
    · exact .inl before
    · exact List.mem_singleton.mp now ▸ .inr takeable
  all_goals
    cases taken
    exact .inl accepted

theorem accepted_of_next (takeable : state.Takeable action) (taken : state.next action = some after)
    (accepted : task ∈ after.accepted) :
    task ∈ state.accepted ∨ task ∈ state.executed ∨ state.Selectable task := by
  cases action with
  | resetProps props =>
    cases taken
    exact .inl accepted
  | caller caller source => exact accepted_of_callStep takeable taken accepted
  | pop worker source => exact .inl ((onward_of_popStep taken).2.2 ▸ accepted)
  | _ =>
    obtain ⟨_, same⟩ := Option.ite_none_right_eq_some.mp taken
    cases same
    exact .inl accepted

/-- After the last clear, every accepted task that has not been executed is selectable. -/
theorem selectable_of_path {middle last : State P F Q W} {actions : List (Action P F Q W)}
    (path : Path (Guarded (Taken next) fun state action =>
        (state.Takeable action ∧ state.InRange action) ∧ ¬ state.EndsClear action) middle actions last)
    (accepted : task ∈ last.accepted) :
    task ∈ middle.accepted ∨ task ∈ last.executed ∨ last.Selectable task := by
  have kept := path.invariant (fun state => ∀ task ∈ state.accepted,
    task ∈ middle.accepted ∨ task ∈ state.executed ∨ state.Selectable task) ?_ ?_
  · exact kept task accepted
  · intro before action after holds ⟨⟨⟨takeable, _⟩, goes⟩, taken⟩ task member
    have onward := onward_of_next taken
    have since : task ∈ middle.accepted ∨ task ∈ before.executed ∨ before.Selectable task := by
      rcases accepted_of_next takeable taken member with earlier | now
      · exact holds task earlier
      · exact .inr now
    rcases since with old | done | selectable
    · exact .inl old
    · exact .inr (.inl (onward.executed done))
    · exact .inr (.inr (selectable.mono onward fun clearing => clearing.next goes taken))
  · exact fun task member => .inl member

end Steps

/-- A queue strands no task: in a quiescent state, a task that has been accepted since the last clear
and not been executed is one that `pop_task` can select. -/
theorem none_stranded [DecidableEq P] [DecidableEq F] [DecidableEq Q] [DecidableEq W]
    {maxTaskCount maxSingleTaskCount : UInt64} {middle last : State P F Q W}
    {front back : List (Action P F Q W)}
    (cleared : Path (Guarded (Taken next) fun state action => state.Takeable action ∧ state.InRange action)
      (init maxTaskCount maxSingleTaskCount) front middle)
    (since : Path (Guarded (Taken next) fun state action =>
        (state.Takeable action ∧ state.InRange action) ∧ ¬ state.EndsClear action) middle back last)
    (quiescent : last.Quiescent) {task : AddedTask P F} (accepted : task ∈ last.accepted)
    (fresh : task ∉ middle.accepted) (waits : task ∉ last.executed) :
    last.queue.notEmpty = true ∧ task.prop ∈ last.queue.registered ∧ last.queue.allProps ≠ [] := by
  have path := cleared.append (since.mono fun _ _ _ step => ⟨step.1.1, step.2⟩)
  have steady := path.invariant (fun state => state.queue.bclear = false → state.Steady)
    (fun before action after steady ⟨⟨_, inRange⟩, taken⟩ unset =>
      (steady ((onward_of_next taken).unset unset)).next inRange taken unset)
    (fun _ => init_steady maxTaskCount maxSingleTaskCount)
  obtain ⟨callers, workers⟩ := quiescent
  obtain ⟨flag, prop, func⟩ :=
    ((selectable_of_path since accepted).resolve_left fresh).resolve_left waits
  have unset : last.queue.bclear = false := by
    apply flag.resolve_right
    rintro ⟨caller, inside⟩
    simp [callers, CallerPc.clearing] at inside
  have steady := steady unset
  obtain ⟨source, queued⟩ : ∃ source, (source, task) ∈ last.queue.waitTasks task.prop := by
    rcases steady.accepted task accepted with none | done | there | ⟨worker, has⟩
    · simp [none] at func
    · exact absurd done waits
    · exact there
    · simp [workers, PopPc.task] at has
  refine ⟨steady.notEmpty ?_ accepted queued, prop, ?_⟩
  · rintro ⟨caller, _, uncounted, _⟩
    simp [callers, CallerPc.uncounted] at uncounted
  · rintro empty
    simp [registered, empty] at prop

def addOne : List (Action Nat Nat (Fin 1) (Fin 1)) :=
  .callAdd 0 5 (some 50) :: List.replicate 6 (.caller 0 0)

theorem none_stranded_one_task :
    ∃ last : State Nat Nat (Fin 1) (Fin 1),
      exec next (init 0 0) (.resetProps [5] :: addOne) = some last ∧ last.queue.notEmpty = true ∧
        5 ∈ last.queue.registered ∧ last.queue.allProps ≠ [] := by
  have runs : ∃ last ∈ exec (checked next fun state action =>
        (state.Takeable action ∧ state.InRange action) ∧ ¬ state.EndsClear action)
      (init 0 0 : State Nat Nat (Fin 1) (Fin 1)) (.resetProps [5] :: addOne),
      last.accepted = [⟨0, 5, some 50⟩] ∧ last.executed = [] ∧ last.caller 0 = .outside ∧
        last.worker 0 = .outside := by
    decide
  obtain ⟨last, ends, accepted, executed, caller, worker⟩ := runs
  have path := Path.of_checked ends
  have quiescent : last.Quiescent :=
    ⟨fun thread => Fin.fin_one_eq_zero thread ▸ caller,
      fun thread => Fin.fin_one_eq_zero thread ▸ worker⟩
  have member : ⟨0, 5, some 50⟩ ∈ last.accepted := by simp [accepted]
  have waits : ⟨0, 5, some 50⟩ ∉ last.executed := by simp [executed]
  refine ⟨last, exec_eq_some_iff.mpr (path.mono fun _ _ _ step => step.2), ?_⟩
  exact none_stranded (.nil _) path quiescent member List.not_mem_nil waits

/-- After a clear, the queue does not see the task that it has accepted. -/
theorem stranded_after_clear :
    ∃ middle last : State Nat Nat (Fin 1) (Fin 1),
      Path (Taken next) (init 0 0)
        (List.flatten [[.resetProps [5], .callClear 0], List.replicate 11 (.caller 0 0)]) middle ∧
      Path (Guarded (Taken next) fun state action => ¬ state.EndsClear action) middle addOne last ∧
      last.Quiescent ∧ ⟨0, 5, some 50⟩ ∈ last.accepted ∧ ⟨0, 5, some 50⟩ ∉ middle.accepted ∧
      ⟨0, 5, some 50⟩ ∉ last.executed ∧ last.queue.notEmpty = false := by
  have runs : ∃ middle ∈ exec next (init 0 0 : State Nat Nat (Fin 1) (Fin 1))
      (List.flatten [[.resetProps [5], .callClear 0], List.replicate 11 (.caller 0 0)]),
      middle.accepted = [] ∧ middle.caller 0 = .outside ∧
      ∃ last ∈ exec (checked next fun state action => ¬ state.EndsClear action) middle addOne,
        last.accepted = [⟨0, 5, some 50⟩] ∧ last.executed = [] ∧ last.caller 0 = .outside ∧
          last.worker 0 = .outside ∧ last.queue.notEmpty = false := by
    decide
  obtain ⟨middle, first, none, outside, last, second, accepted, executed, caller, worker, empty⟩ := runs
  have quiescent : last.Quiescent :=
    ⟨fun thread => Fin.fin_one_eq_zero thread ▸ caller,
      fun thread => Fin.fin_one_eq_zero thread ▸ worker⟩
  refine ⟨middle, last, exec_eq_some_iff.mp first, Path.of_checked second, quiescent, ?_, ?_, ?_, empty⟩
  · simp [accepted]
  · simp [none]
  · simp [executed]

end State

end BTool.TaskQueue.SPMCSerialTaskQueue
