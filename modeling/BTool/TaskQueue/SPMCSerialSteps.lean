import Mathlib.Data.Fintype.Basic
import BTool.Foundation.Locals
import BTool.TaskQueue.SPMCSerialCounter

/-! What a step of any call can do to a `SPMCSerialTaskQueue`: slots, accepted and executed tasks only
become more, and only a clear sets `m_bclear`. -/

namespace BTool.TaskQueue.SPMCSerialTaskQueue

open BTool.Foundation

variable {P F Q W : Type}

def CallerPc.clearing : CallerPc P F → Bool
  | .clear _ => true
  | _ => false

namespace State

/-- Some thread is in `clear_inner`. -/
def Clearing (state : State P F Q W) : Prop := Somewhere (fun pc => pc.clearing = true) state.caller

instance [DecidableEq P] [DecidableEq F] [Fintype Q] (state : State P F Q W) :
    Decidable state.Clearing := by
  unfold Clearing Somewhere
  infer_instance

/-- What a step does to the flag, the slots, the tasks and the clears. -/
structure Onward (state after : State P F Q W) : Prop where
  registered : state.queue.registered ⊆ after.queue.registered
  accepted : state.accepted ⊆ after.accepted
  executed : state.executed ⊆ after.executed
  unset : after.queue.bclear = false → state.queue.bclear = false
  sets : state.queue.bclear = false → after.queue.bclear = false ∨ after.Clearing

theorem Onward.keep {state after : State P F Q W}
    (registered : after.queue.registered = state.queue.registered)
    (bclear : after.queue.bclear = state.queue.bclear) (accepted : state.accepted ⊆ after.accepted)
    (executed : state.executed ⊆ after.executed) : state.Onward after :=
  ⟨registered ▸ List.Subset.refl _, accepted, executed, bclear ▸ id,
    fun unset => .inl (bclear.trans unset)⟩

section Steps

variable [DecidableEq P] [DecidableEq F] [DecidableEq Q] [DecidableEq W]
    {state after : State P F Q W}
  {action : Action P F Q W} {caller source : Q} {worker : W}

/-- One step of `clear_inner`, which does not go back: only its last store leaves it. -/
theorem clearStep_facts {queue cleared : SPMCSerialTaskQueue P F Q} {pc : ClearPc P}
    {last : CallerPc P F} (taken : clearStep queue source pc = some (cleared, last)) :
    cleared.registered = queue.registered ∧
    (cleared.bclear = queue.bclear ∨ cleared.bclear = true) ∧
      (last.clearing = true ∨ (pc = .storeSize ∧ cleared.bclear = queue.bclear)) := by
  unfold clearStep at taken
  split at taken
  case h_1 =>
    cases taken
    exact ⟨rfl, .inr rfl, .inl rfl⟩
  case h_2 index =>
    split at taken <;> cases taken
    · exact ⟨registered_setCanPop, .inl rfl, .inl rfl⟩
    · exact ⟨rfl, .inl rfl, .inl rfl⟩
  case h_3 =>
    cases taken
    exact ⟨rfl, .inl rfl, .inl rfl⟩
  case h_4 prop rest =>
    split at taken <;> cases taken <;> exact ⟨rfl, .inl rfl, .inl rfl⟩
  case h_5 =>
    cases taken
    exact ⟨rfl, .inl rfl, .inl rfl⟩
  case h_6 prop rest =>
    cases taken
    exact ⟨rfl, .inl rfl, .inl rfl⟩
  case h_7 =>
    cases taken
    exact ⟨rfl, .inl rfl, .inl rfl⟩
  case h_8 index =>
    split at taken <;> cases taken
    · exact ⟨registered_setCanPop, .inl rfl, .inl rfl⟩
    · exact ⟨rfl, .inl rfl, .inl rfl⟩
  case h_9 =>
    cases taken
    exact ⟨rfl, .inl rfl, .inr ⟨rfl, rfl⟩⟩

omit [DecidableEq W] in
theorem onward_of_callStep (taken : state.callStep caller source = some after) :
    state.Onward after := by
  unfold State.callStep at taken
  split at taken
  case h_1 => cases taken
  case h_7 =>
    cases taken
    exact .keep rfl rfl (List.subset_append_left _ _) (List.Subset.refl _)
  case h_9 =>
    cases taken
    exact .keep rfl rfl (List.subset_append_left _ _) (List.Subset.refl _)
  case h_12 pc here =>
    obtain ⟨⟨queue, last⟩, step, rfl⟩ := Option.map_eq_some_iff.mp taken
    obtain ⟨registered, bclear, busy⟩ := clearStep_facts step
    rcases busy with busy | ⟨_, same⟩
    · refine ⟨registered ▸ List.Subset.refl _, List.Subset.refl _, List.Subset.refl _, ?_,
        fun _ => .inr (.here busy)⟩
      rcases bclear with same | set
      · exact same ▸ id
      · intro unset
        exact nomatch set.symm.trans unset
    · exact .keep registered same (List.Subset.refl _) (List.Subset.refl _)
  all_goals
    cases taken
    exact .keep rfl rfl (List.Subset.refl _) (List.Subset.refl _)

/-- A step of `pop_task`. -/
theorem onward_of_popStep (taken : state.popStep worker source = some after) :
    state.Onward after ∧ after.caller = state.caller ∧ after.accepted = state.accepted := by
  unfold State.popStep at taken
  split at taken
  case h_1 => cases taken
  case h_4 =>
    split at taken
    · cases taken
    · cases taken
      exact ⟨.keep rfl rfl (List.Subset.refl _) (List.Subset.refl _), rfl, rfl⟩
  case h_5 index here =>
    obtain ⟨status, _, rfl⟩ := Option.map_eq_some_iff.mp taken
    split
    · exact ⟨.keep registered_setCanPop rfl (List.Subset.refl _) (List.Subset.refl _), rfl, rfl⟩
    · exact ⟨.keep rfl rfl (List.Subset.refl _) (List.Subset.refl _), rfl, rfl⟩
  case h_6 index here =>
    obtain ⟨status, _, step⟩ := Option.bind_eq_some_iff.mp taken
    split at step <;> cases step <;> exact ⟨.keep rfl rfl (List.Subset.refl _) (List.Subset.refl _), rfl, rfl⟩
  case h_9 index here =>
    obtain ⟨status, _, rfl⟩ := Option.map_eq_some_iff.mp taken
    exact ⟨.keep rfl rfl (List.Subset.refl _) (List.Subset.refl _), rfl, rfl⟩
  case h_11 index task here =>
    obtain ⟨status, _, rfl⟩ := Option.map_eq_some_iff.mp taken
    exact ⟨.keep rfl rfl (List.Subset.refl _) (List.Subset.refl _), rfl, rfl⟩
  case h_12 index task here =>
    cases taken
    exact ⟨.keep rfl rfl (List.Subset.refl _) (List.subset_append_left _ _), rfl, rfl⟩
  case h_13 index here =>
    cases taken
    exact ⟨.keep registered_setCanPop rfl (List.Subset.refl _) (List.Subset.refl _), rfl, rfl⟩
  all_goals
    cases taken
    exact ⟨.keep rfl rfl (List.Subset.refl _) (List.Subset.refl _), rfl, rfl⟩

theorem onward_of_next (taken : state.next action = some after) : state.Onward after := by
  cases action with
  | resetProps props =>
    cases taken
    refine ⟨?_, List.Subset.refl _, List.Subset.refl _, ?_, ?_⟩
    · rw [registered, registered, allProps_resetProps, List.map_append]
      exact List.subset_append_left _ _
    · exact (bclear_resetProps props).symm.trans
    · exact fun unset => .inl ((bclear_resetProps props).trans unset)
  | caller caller source => exact onward_of_callStep taken
  | pop worker source => exact (onward_of_popStep taken).1
  | _ =>
    obtain ⟨_, same⟩ := Option.ite_none_right_eq_some.mp taken
    cases same
    exact .keep rfl rfl (List.Subset.refl _) (List.Subset.refl _)

/-- The other workers stay where they are. -/
theorem worker_of_popStep (taken : state.popStep worker source = some after) {other : W}
    (apart : other ≠ worker) :
    after.worker other = state.worker other := by
  cases worked_of_popStep taken <;> exact Function.update_of_ne apart _ _

omit [DecidableEq W] in
theorem workers_of_callStep (plain : (state.caller caller).plain = true)
    (taken : state.callStep caller source = some after) : after.worker = state.worker := by
  cases called_of_callStep plain taken <;> rfl

omit [DecidableEq W] in
/-- The other callers stay where they are, and a call of `add_task` stays one. -/
theorem caller_of_callStep (plain : (state.caller caller).plain = true)
    (taken : state.callStep caller source = some after) :
    (∀ other, other ≠ caller → after.caller other = state.caller other) ∧
      (after.caller caller).plain = true := by
  cases called_of_callStep plain taken with
  | keep stays _ _ =>
    exact ⟨fun other apart => Function.update_of_ne apart _ _,
      by simpa [State.moveCaller] using stays⟩
  | enqueue =>
    exact ⟨fun other apart => Function.update_of_ne apart _ _,
      by simp [State.moveCaller, CallerPc.plain]⟩

omit [DecidableEq W] in
/-- An accepted task that waits has been waiting before the step. -/
theorem waits_of_callStep (plain : (state.caller caller).plain = true) (apart : state.Apart)
    (taken : state.callStep caller source = some after) {task : AddedTask P F}
    (accepted : task ∈ state.accepted)
    {producer : Q} (waits : (producer, task) ∈ after.queue.waitTasks task.prop) :
    (producer, task) ∈ state.queue.waitTasks task.prop := by
  cases called_of_callStep plain taken with
  | keep _ _ waitTasks =>
    rw [State.moveCaller, waitTasks] at waits
    exact waits
  | @enqueue prop func _ _ _ waitTasks =>
    rw [State.moveCaller, waitTasks] at waits
    by_cases same : task.prop = prop
    · rw [same, Function.update_self, ProducerQueue.enqueue, List.mem_append,
        List.mem_singleton] at waits
      rcases waits with before | now
      · exact same ▸ before
      · have earlier := (apart.accepted task accepted).1
        rw [(Prod.mk.inj now).2] at earlier
        exact absurd earlier (Nat.lt_irrefl _)
    · rwa [Function.update_of_ne same] at waits

theorem waits_of_popStep (taken : state.popStep worker source = some after) {prop : P}
    {entry : Q × AddedTask P F} (waits : entry ∈ after.queue.waitTasks prop) :
    entry ∈ state.queue.waitTasks prop := by
  cases worked_of_popStep taken with
  | keep _ _ _ waitTasks =>
    rw [State.moveWorker, waitTasks] at waits
    exact waits
  | @dequeue index status source task tasks _ _ dequeued =>
    simp only [State.moveWorker] at waits
    by_cases same : prop = status.prop
    · subst same
      rw [Function.update_self, (ProducerQueue.tryDequeue_eq_item dequeued).2] at waits
      exact List.mem_of_mem_erase waits
    · rwa [Function.update_of_ne same] at waits
  | _ => exact waits

end Steps

end State

end BTool.TaskQueue.SPMCSerialTaskQueue
