import BTool.TaskQueue.SerialSections

/-! The counter `m_approx_size` that `not_full` compares with the maximum. -/

namespace BTool.TaskQueue.SerialTaskQueue

open BTool.Foundation

variable {P F W : Type} [DecidableEq P] [DecidableEq F] [DecidableEq W]
  {state after : State P F W} {held : Finset P} {action : Action P F W}
  {maxTaskCount : UInt64} {actions : List (Action P F W)}

/-- The counter is the number of waiting tasks, and `not_full` is true below the maximum. -/
structure State.Counts (state : State P F W) : Prop where
  tally : state.queue.approxSize.toNat = state.pending.length
  room : state.pending.length < state.queue.maxTaskCount.toNat → state.queue.notFull = true

/-- No waiting task is dropped by `remove_prop`, `clear` or `stop(false)`, none is added to
an orphaned property, and the counter has room for one more. -/
def KeepsCount (state : State P F W) (action : Action P F W) : Prop :=
  NoAddToOrphan state action ∧
    match action with
    | .addTask _ _ => state.queue.bstop = true ∨ state.pending.length + 1 < 2 ^ 64
    | .removeProp prop => prop ∉ state.pending.map Prod.fst
    | .clear => state.pending = []
    | .stop bwait => state.queue.bstop = true ∨ bwait = true ∨ state.pending = []
    | _ => True

instance [Fintype W] (state : State P F W) (action : Action P F W) :
    Decidable (KeepsCount state action) := by
  induction action using Action.casesOn <;> unfold KeepsCount <;> infer_instance

omit [DecidableEq F] [DecidableEq W] in
/-- A counter that is exact tells correctly whether there is room. -/
private theorem counts_of_tally (tally : state.queue.approxSize.toNat = state.pending.length) :
    state.Counts := by
  refine ⟨tally, ?_⟩
  intro below
  rw [← tally] at below
  simp [notFull, UInt64.lt_iff_toNat_lt, below]

theorem tally_step (tally : state.queue.approxSize.toNat = state.pending.length)
    (consistent : Consistent state held) (guarded : KeepsCount state action)
    (taken : state.next action = some after) :
    after.queue.approxSize.toNat = after.pending.length := by
  obtain ⟨_, room⟩ := guarded
  cases action with
  | addTask prop func =>
    rcases State.addTask_cases taken with ⟨_, rfl⟩ | ⟨opened, rfl⟩
    · exact tally
    · have bound := room.resolve_left (by simp [opened])
      simp only [State.accept, pushTask, List.length_append, List.length_singleton,
        UInt64.toNat_add, tally]
      exact Nat.mod_eq_of_lt bound
  | popBegin worker =>
    obtain ⟨_, ⟨_, rfl⟩ | ⟨prop, func, queue, begun, rfl⟩⟩ := State.popBegin_cases taken
    · exact tally
    · obtain ⟨_, _, _, _, count, _⟩ := popBegin_frame begun
      have member := List.mem_of_find?_eq_some (consistent.tracks.popBegin begun).1
      have positive : 0 < state.pending.length := List.length_pos_of_mem member
      have atLeast : (1 : UInt64) ≤ state.queue.approxSize := by
        rw [UInt64.le_iff_toNat_le, tally]
        exact positive
      simp only [State.take]
      rw [count, UInt64.toNat_sub_of_le _ _ atLeast, tally, List.length_erase_of_mem member]
      rfl
  | popFinish worker =>
    obtain ⟨current, queue, isRunning, finished, rfl⟩ := State.popFinish_cases taken
    exact (congrArg UInt64.toNat (popFinish_frame finished).2.2.1).trans tally
  | removeProp prop =>
    cases taken
    have all : (state.pending.filter fun entry => entry.1 ≠ prop) = state.pending := by
      apply List.filter_eq_self.mpr
      intro entry member
      have different : entry.1 ≠ prop := fun same =>
        room (List.mem_map.mpr ⟨entry, member, same⟩)
      simpa using different
    dsimp only
    rw [all]
    exact tally
  | clear =>
    cases taken
    exact tally.trans (congrArg List.length room)
  | stop bwait =>
    cases taken
    have same : (state.queue.stop bwait).approxSize = state.queue.approxSize := by
      unfold SerialTaskQueue.stop
      split
      · rfl
      · split <;> rfl
    dsimp only
    rw [same, tally]
    split
    · rfl
    · rename_i drops
      have nothing : state.pending = [] := by
        rcases room with stopped | waits | nothing
        · simp [stopped] at drops
        · simp [waits] at drops
        · exact nothing
      rw [nothing]
  | start =>
    cases taken
    exact tally

/-- In a run that drops no waiting task the counter stays exact. -/
theorem counts_of_keeping
    (path : Path (Guarded (Taken State.next) KeepsCount) (State.init maxTaskCount) actions state) :
    state.Counts := by
  have kept := path.invariant
    (fun state => (∃ held, Consistent state held) ∧
      state.queue.approxSize.toNat = state.pending.length)
    (fun _ _ _ ⟨⟨held, consistent⟩, tally⟩ ⟨guarded, taken⟩ =>
      ⟨⟨_, consistent.step guarded.1 taken⟩, tally_step tally consistent guarded taken⟩)
    ⟨⟨∅, init_consistent maxTaskCount⟩, rfl⟩
  exact counts_of_tally kept.2

/-- `clear` leaves the counter as it was: the empty queue stays full. -/
theorem clear_keeps_counter :
    ∃ state, Path (Taken State.next) (State.init 1 : State Nat Nat (Fin 1))
      [.addTask 1 (some 10), .clear] state ∧
      state.pending = [] ∧ state.queue.approxSize = 1 ∧ state.queue.notFull = false ∧
      ¬ state.Counts := by
  have runs : ∃ state ∈ exec State.next (State.init 1 : State Nat Nat (Fin 1))
      [.addTask 1 (some 10), .clear],
      state.pending = [] ∧ state.queue.approxSize = 1 ∧ state.queue.notFull = false := by
    decide
  obtain ⟨state, ends, pending, count, full⟩ := runs
  refine ⟨state, exec_eq_some_iff.mp ends, pending, count, full, ?_⟩
  intro counts
  have same := counts.tally
  rw [pending, count] at same
  exact absurd same (by decide)

/-- Clearing once the only task has started drops nothing. -/
theorem counts_after_begin :
    ∃ state, exec (checked State.next KeepsCount) (State.init 1 : State Nat Nat (Fin 1))
      [.addTask 1 (some 10), .popBegin 0, .clear, .popFinish 0, .addTask 1 (some 11)] =
        some state ∧ state.pending = [(1, some 11)] ∧ state.Counts := by
  have runs : ∃ state ∈ exec (checked State.next KeepsCount)
      (State.init 1 : State Nat Nat (Fin 1))
      [.addTask 1 (some 10), .popBegin 0, .clear, .popFinish 0, .addTask 1 (some 11)],
      state.pending = [(1, some 11)] := by
    decide
  obtain ⟨state, ends, pending⟩ := runs
  exact ⟨state, ends, pending, counts_of_keeping (Path.of_checked ends)⟩

end BTool.TaskQueue.SerialTaskQueue
