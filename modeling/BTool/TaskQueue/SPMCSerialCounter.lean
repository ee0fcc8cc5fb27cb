import Mathlib.Data.Finset.Sum
import BTool.Foundation.Tally
import BTool.Foundation.Transition
import BTool.TaskQueue.SPMCSerialTasks

/-! The counter of a `SPMCSerialTaskQueue` until `m_bclear` is set, which is for ever: it is raised
after the enqueue and lowered after the dequeue, so it tells how many tasks wait, with those that
workers have not counted off yet and without those that producers have not counted yet. -/

namespace BTool.TaskQueue.SPMCSerialTaskQueue

open BTool.Foundation

variable {P F Q W : Type}

/-- Between the enqueue of a task and its count. -/
def CallerPc.uncounted : CallerPc P F → Bool
  | .clearTest _ => true
  | .countSize _ => true
  | _ => false

/-- Where no thread gets before `m_bclear` is set. -/
def CallerPc.cleared : CallerPc P F → Bool
  | .storeSize _ => true
  | .storeSingle _ => true
  | .clear .storeClear => false
  | .clear _ => true
  | _ => false

/-- Between the dequeue of a task and its count. -/
def PopPc.uncounted : PopPc P F → Bool
  | .loadClear _ _ => true
  | .countSize _ _ => true
  | _ => false

/-- Where no worker gets before `m_bclear` is set. -/
def PopPc.cleared : PopPc P F → Bool
  | .storeSize _ => true
  | .storeSingle _ => true
  | _ => false

theorem toInt_add_one {count : Int32} (room : count ≠ Int32.maxValue) :
    (count + 1).toInt = count.toInt + 1 := by
  have upper := count.toInt_lt
  have lower := count.le_toInt
  have apart : count.toInt ≠ 2 ^ 31 - 1 := fun same => room (Int32.toInt_inj.mp same)
  rw [Int32.toInt_add]
  exact Int.bmod_eq_of_le (by simp; omega) (by simp; omega)

theorem toInt_sub_one {count : Int32} (room : count ≠ Int32.minValue) :
    (count - 1).toInt = count.toInt - 1 := by
  have upper := count.toInt_lt
  have lower := count.le_toInt
  have apart : count.toInt ≠ -2 ^ 31 := fun same => room (Int32.toInt_inj.mp same)
  rw [Int32.toInt_sub]
  exact Int.bmod_eq_of_le (by simp; omega) (by simp; omega)

section Keys

variable [DecidableEq P] {queue : SPMCSerialTaskQueue P F Q}

theorem bclear_resetProps (props : List P) : (queue.resetProps props).bclear = queue.bclear := by
  induction props using List.reverseRecOn with
  | nil => rfl
  | append_singleton front prop ih =>
    rw [← ih, SPMCSerialTaskQueue.resetProps, List.foldl_append]
    rfl

theorem approxSize_resetProps (props : List P) :
    (queue.resetProps props).approxSize = queue.approxSize := by
  induction props using List.reverseRecOn with
  | nil => rfl
  | append_singleton front prop ih =>
    rw [← ih, SPMCSerialTaskQueue.resetProps, List.foldl_append]
    rfl

end Keys

namespace State

/-- Until `m_bclear` is set, a task that has been enqueued waits, or a worker has it, or it has been
executed, or there is nothing to execute. -/
def Placed (state : State P F Q W) (task : AddedTask P F) : Prop :=
  task.func = none ∨ task ∈ state.executed ∨
  (∃ source, (source, task) ∈ state.queue.waitTasks task.prop) ∨
    ∃ worker, (state.worker worker).task = some task

/-- What the counter tells. -/
def Counted (state : State P F Q W) : Prop :=
  ∃ adding popping : Nat, Tally CallerPc.uncounted state.caller adding ∧
    Tally PopPc.uncounted state.worker popping ∧
    state.queue.approxSize.toInt = state.queue.waiting + popping - adding

/-- What holds until `m_bclear` is set. -/
structure Steady (state : State P F Q W) : Prop where
  unset : state.queue.bclear = false
  callers : ∀ caller, (state.caller caller).cleared = false
  workers : ∀ worker, (state.worker worker).cleared = false
  keyed : state.queue.Keyed
  counted : state.Counted
  adding : ∀ caller task, (state.caller caller).task = some task → state.Placed task
  accepted : ∀ task ∈ state.accepted, state.Placed task
  apart : state.Apart

/-- The counter does not overflow. -/
def InRange (state : State P F Q W) : Action P F Q W → Prop
  | .caller caller _ =>
    match state.caller caller with
    | .countSize _ => state.queue.approxSize ≠ Int32.maxValue
    | _ => True
  | .pop worker _ =>
    match state.worker worker with
    | .countSize _ _ => state.queue.approxSize ≠ Int32.minValue
    | _ => True
  | _ => True

instance (state : State P F Q W) (action : Action P F Q W) : Decidable (state.InRange action) := by
  induction action using Action.casesOn with
  | caller caller source =>
    dsimp only [InRange]
    induction state.caller caller using CallerPc.casesOn <;> infer_instance
  | pop worker source =>
    dsimp only [InRange]
    induction state.worker worker using PopPc.casesOn <;> infer_instance
  | _ => exact .isTrue trivial

section Steps

variable {state after : State P F Q W} {caller source : Q} {worker : W}

theorem Counted.moveCaller [DecidableEq Q] (counted : state.Counted)
    {queue : SPMCSerialTaskQueue P F Q} {pc : CallerPc P F} (change : Int)
    (approxSize : queue.approxSize.toInt = state.queue.approxSize.toInt + change)
    (balance : (queue.waiting : Int) - pc.uncounted.toNat =
      state.queue.waiting - (state.caller caller).uncounted.toNat + change) :
    (state.moveCaller caller queue pc).Counted := by
  obtain ⟨adding, popping, adds, pops, size⟩ := counted
  obtain ⟨adding', adds', same⟩ := adds.move caller pc
  refine ⟨adding', popping, adds', pops, ?_⟩
  rw [State.moveCaller, approxSize, size]
  dsimp only
  omega

theorem Counted.moveWorker [DecidableEq W] (counted : state.Counted)
    {queue : SPMCSerialTaskQueue P F Q} {pc : PopPc P F} (change : Int)
    (approxSize : queue.approxSize.toInt = state.queue.approxSize.toInt + change)
    (balance : (queue.waiting : Int) + pc.uncounted.toNat =
      state.queue.waiting + (state.worker worker).uncounted.toNat + change) :
    (state.moveWorker worker queue pc).Counted := by
  obtain ⟨adding, popping, adds, pops, size⟩ := counted
  obtain ⟨popping', pops', same⟩ := pops.move worker pc
  refine ⟨adding, popping', adds, pops', ?_⟩
  rw [State.moveWorker, approxSize, size]
  dsimp only
  omega

/-- A call goes on, and neither the keys nor the queues change. -/
theorem Steady.moveCaller [DecidableEq Q] (steady : state.Steady)
    {queue : SPMCSerialTaskQueue P F Q}
    {pc : CallerPc P F} {accepted : List (AddedTask P F)} (change : Int)
    (unset : queue.bclear = false)
    (cleared : pc.cleared = false) (props : queue.props = state.queue.props)
    (waitTasks : queue.waitTasks = state.queue.waitTasks)
    (approxSize : queue.approxSize.toInt = state.queue.approxSize.toInt + change)
    (balance : ((state.caller caller).uncounted.toNat : Int) = pc.uncounted.toNat + change)
    (task : ∀ task, pc.task = some task → (state.caller caller).task = some task)
    (accepts : ∀ task ∈ accepted, task ∈ state.accepted ∨
      ((state.caller caller).task = some task ∧ pc.task = none)) :
    Steady ({ state with accepted }.moveCaller caller queue pc) := by
  have placed {task : AddedTask P F} (was : state.Placed task) :
      Placed ({ state with accepted }.moveCaller caller queue pc) task := by
    unfold Placed State.moveCaller
    rw [waitTasks]
    exact was
  have waits : queue.waiting = state.queue.waiting := by rw [waiting, waiting, props, waitTasks]
  refine ⟨unset, ?_, steady.workers, ?_, ?_, ?_, ?_, steady.apart.moveCaller waitTasks task accepts⟩
  · intro other
    by_cases here : other = caller
    · simp only [State.moveCaller, here, Function.update_self, cleared]
    · simpa [State.moveCaller, here] using steady.callers other
  · exact ⟨props ▸ steady.keyed.distinct, by rw [State.moveCaller, props, waitTasks]; exact steady.keyed.keys⟩
  · have counted : State.Counted { state with accepted } := steady.counted
    apply counted.moveCaller change approxSize
    rw [waits]
    dsimp only
    omega
  · intro other held has
    by_cases here : other = caller
    · simp only [State.moveCaller, here, Function.update_self] at has
      exact placed (steady.adding caller held (task held has))
    · simp only [State.moveCaller, Function.update_of_ne here] at has
      exact placed (steady.adding other held has)
  · intro held member
    rcases accepts held member with before | ⟨now, _⟩
    · exact placed (steady.accepted held before)
    · exact placed (steady.adding caller held now)

/-- A worker goes on, and neither the keys nor the queues change. -/
theorem Steady.moveWorker [DecidableEq W] (steady : state.Steady)
    {queue : SPMCSerialTaskQueue P F Q}
    {pc : PopPc P F} {executed : List (AddedTask P F)} (change : Int) (unset : queue.bclear = false)
    (cleared : pc.cleared = false) (props : queue.props = state.queue.props)
    (waitTasks : queue.waitTasks = state.queue.waitTasks)
    (approxSize : queue.approxSize.toInt = state.queue.approxSize.toInt + change)
    (balance : (pc.uncounted.toNat : Int) = (state.worker worker).uncounted.toNat + change)
    (grows : state.executed ⊆ executed)
    (task : ∀ task, (state.worker worker).task = some task →
      pc.task = some task ∨ task ∈ executed ∨ task.func = none) :
    Steady ({ state with executed }.moveWorker worker queue pc) := by
  have placed {held : AddedTask P F} (was : state.Placed held) :
      Placed ({ state with executed }.moveWorker worker queue pc) held := by
    unfold Placed State.moveWorker
    rw [waitTasks]
    rcases was with none | done | waits | ⟨other, has⟩
    · exact .inl none
    · exact .inr (.inl (grows done))
    · exact .inr (.inr (.inl waits))
    · by_cases here : other = worker
      · rw [here] at has
        rcases task held has with stays | done | none
        · exact .inr (.inr (.inr ⟨worker, by simpa using stays⟩))
        · exact .inr (.inl done)
        · exact .inl none
      · exact .inr (.inr (.inr ⟨other, by simpa [here] using has⟩))
  have waits : queue.waiting = state.queue.waiting := by rw [waiting, waiting, props, waitTasks]
  have fewer (prop : P) :
      (queue.waitTasks prop).Sublist (state.queue.waitTasks prop) := by rw [waitTasks]
  refine ⟨unset, steady.callers, ?_, ?_, ?_, ?_, ?_, steady.apart.moveWorker fewer⟩
  · intro other
    by_cases here : other = worker
    · simp only [State.moveWorker, here, Function.update_self, cleared]
    · simpa [State.moveWorker, here] using steady.workers other
  · exact ⟨props ▸ steady.keyed.distinct, by rw [State.moveWorker, props, waitTasks]; exact steady.keyed.keys⟩
  · have counted : State.Counted { state with executed } := steady.counted
    apply counted.moveWorker change approxSize
    rw [waits]
    dsimp only
    omega
  · exact fun other held has => placed (steady.adding other held has)
  · exact fun held member => placed (steady.accepted held member)

/-- A task is enqueued, and not counted yet. -/
theorem Steady.enqueue [DecidableEq P] [DecidableEq Q] (steady : state.Steady) {prop : P}
    {func : TaskItem F} (here : state.caller caller = .enqueue prop func) :
    Steady ({ state with added := state.added + 1 }.moveCaller caller
      { state.queue.emplace prop with
        waitTasks := Function.update (state.queue.emplace prop).waitTasks prop
          (((state.queue.emplace prop).waitTasks prop).enqueue caller ⟨state.added, prop, func⟩) }
      (.clearTest ⟨state.added, prop, func⟩)) := by
  have keyed : (state.queue.emplace prop).Keyed := steady.keyed.emplace
  have longer := keyed.waiting_update mem_emplace
    (((state.queue.emplace prop).waitTasks prop).enqueue caller ⟨state.added, prop, func⟩)
  rw [ProducerQueue.enqueue, List.length_append, List.length_singleton,
    steady.keyed.waiting_emplace] at longer
  have placed {task : AddedTask P F} (was : state.Placed task) :
      Placed ({ state with added := state.added + 1 }.moveCaller caller
        { state.queue.emplace prop with
          waitTasks := Function.update (state.queue.emplace prop).waitTasks prop
            (((state.queue.emplace prop).waitTasks prop).enqueue caller ⟨state.added, prop, func⟩) }
        (.clearTest ⟨state.added, prop, func⟩)) task := by
    rcases was with none | done | ⟨source, waits⟩ | held
    · exact .inl none
    · exact .inr (.inl done)
    · refine .inr (.inr (.inl ⟨source, ?_⟩))
      by_cases same : task.prop = prop
      · rw [same] at waits
        simp only [State.moveCaller, same, Function.update_self, ProducerQueue.enqueue]
        exact List.mem_append_left _ waits
      · simp only [State.moveCaller, Function.update_of_ne same]
        exact waits
    · exact .inr (.inr (.inr held))
  refine ⟨steady.unset, ?_, steady.workers, keyed.update mem_emplace _, ?_, ?_, ?_,
    steady.apart.enqueue rfl⟩
  · intro other
    by_cases same : other = caller
    · simp [State.moveCaller, same, CallerPc.cleared]
    · simpa [State.moveCaller, same] using steady.callers other
  · have counted : State.Counted { state with added := state.added + 1 } := steady.counted
    apply counted.moveCaller 0
    · simp [emplace]
    · simp only [here, CallerPc.uncounted, ProducerQueue.enqueue] at longer ⊢
      simp only [Bool.toNat_true, Bool.toNat_false]
      omega
  · intro other held has
    by_cases same : other = caller
    · simp only [State.moveCaller, same, Function.update_self, CallerPc.task,
        Option.some.injEq] at has
      subst has
      refine .inr (.inr (.inl ⟨caller, ?_⟩))
      simp [State.moveCaller, ProducerQueue.enqueue]
    · simp only [State.moveCaller, Function.update_of_ne same] at has
      exact placed (steady.adding other held has)
  · exact fun held member => placed (steady.accepted held member)

/-- A worker takes a task, and has not counted it off yet. -/
theorem Steady.dequeue [DecidableEq P] [DecidableEq F] [DecidableEq Q] [DecidableEq W]
    (steady : state.Steady)
    {index : Nat} {prop : P} {task : AddedTask P F} {tasks : ProducerQueue Q (AddedTask P F)}
    (here : state.worker worker = .dequeue index)
    (dequeued : (state.queue.waitTasks prop).tryDequeue source = .item task tasks) :
    Steady (state.moveWorker worker
      { state.queue with waitTasks := Function.update state.queue.waitTasks prop tasks }
      (.loadClear index task)) := by
  obtain ⟨member, rest⟩ := ProducerQueue.tryDequeue_eq_item dequeued
  have key := steady.keyed.keys prop (List.ne_nil_of_mem member)
  have shorter := steady.keyed.waiting_update key tasks
  have length : tasks.length + 1 = (state.queue.waitTasks prop).length := by
    rw [rest, List.length_erase_of_mem member]
    have := List.length_pos_of_mem member
    omega
  have placed {held : AddedTask P F} (was : state.Placed held) :
      Placed (state.moveWorker worker
        { state.queue with waitTasks := Function.update state.queue.waitTasks prop tasks }
        (.loadClear index task)) held := by
    rcases was with none | done | ⟨producer, waits⟩ | ⟨other, has⟩
    · exact .inl none
    · exact .inr (.inl done)
    · by_cases taken : held = task
      · exact .inr (.inr (.inr ⟨worker, by simp [State.moveWorker, PopPc.task, taken]⟩))
      · refine .inr (.inr (.inl ⟨producer, ?_⟩))
        by_cases same : held.prop = prop
        · rw [same] at waits
          simp only [State.moveWorker, same, Function.update_self, rest]
          exact (List.mem_erase_of_ne (by simp [taken])).mpr waits
        · simpa only [State.moveWorker, Function.update_of_ne same] using waits
    · by_cases same : other = worker
      · rw [same, here] at has
        cases has
      · exact .inr (.inr (.inr ⟨other, by simpa [State.moveWorker, same] using has⟩))
  refine ⟨steady.unset, steady.callers, ?_, steady.keyed.update key tasks, ?_, ?_, ?_, ?_⟩
  · intro other
    by_cases same : other = worker
    · simp [State.moveWorker, same, PopPc.cleared]
    · simpa [State.moveWorker, same] using steady.workers other
  · apply steady.counted.moveWorker 0
    · simp
    · simp only [here, PopPc.uncounted, Bool.toNat_true, Bool.toNat_false]
      omega
  · exact fun other held has => placed (steady.adding other held has)
  · exact fun held member => placed (steady.accepted held member)
  · apply steady.apart.moveWorker
    intro other
    by_cases same : other = prop
    · subst same
      simp only [Function.update_self, rest]
      exact List.erase_sublist
    · simp only [Function.update_of_ne same, List.Sublist.refl]

/-- A step of a call that leaves `m_bclear` unset. -/
theorem Steady.callStep [DecidableEq P] [DecidableEq F] [DecidableEq Q] (steady : state.Steady)
    (inRange : state.InRange (.caller caller source))
    (taken : state.callStep caller source = some after) (unset : after.queue.bclear = false) :
    after.Steady := by
  have before := steady.unset
  have never := steady.callers caller
  unfold State.callStep at taken
  split at taken
  case h_1 => cases taken
  case h_2 prop func here =>
    cases taken
    apply steady.moveCaller 0 <;> (try split) <;>
      simp +contextual [here, before, CallerPc.cleared, CallerPc.task, CallerPc.uncounted]
  case h_3 prop func here =>
    cases taken
    apply steady.moveCaller 0 <;> (try split) <;>
      simp +contextual [here, before, CallerPc.cleared, CallerPc.task, CallerPc.uncounted]
  case h_4 prop func here =>
    cases taken
    exact steady.enqueue here
  case h_5 task here =>
    cases taken
    rw [before]
    apply steady.moveCaller 0 <;>
      simp +contextual [here, before, CallerPc.cleared, CallerPc.task, CallerPc.uncounted]
  case h_6 task here => simp [here, CallerPc.cleared] at never
  case h_7 task here => simp [here, CallerPc.cleared] at never
  case h_8 task here =>
    cases taken
    simp only [InRange, here] at inRange
    apply steady.moveCaller 1
    case approxSize => exact toInt_add_one inRange
    all_goals simp +contextual [here, before, CallerPc.cleared, CallerPc.task, CallerPc.uncounted]
  case h_9 task here =>
    cases taken
    apply steady.moveCaller 0 <;>
      simp +contextual [here, before, setSingle, or_imp, CallerPc.cleared, CallerPc.task, CallerPc.uncounted]
  case h_10 here =>
    cases taken
    apply steady.moveCaller 0 <;>
      simp +contextual [here, before, CallerPc.cleared, CallerPc.task, CallerPc.uncounted]
  case h_11 bwait here =>
    cases taken
    apply steady.moveCaller 0 <;> (try split) <;>
      simp +contextual [here, before, CallerPc.cleared, CallerPc.task, CallerPc.uncounted]
  case h_12 pc here =>
    cases pc with
    | storeClear =>
      simp only [clearStep, Option.map_some, Option.some.injEq] at taken
      simp [← taken, State.moveCaller] at unset
    | _ => simp [here, CallerPc.cleared] at never

/-- A step of `pop_task` before `m_bclear` is set. -/
theorem Steady.popStep [DecidableEq P] [DecidableEq F] [DecidableEq Q] [DecidableEq W]
    (steady : state.Steady) (inRange : state.InRange (.pop worker source))
    (taken : state.popStep worker source = some after) :
    after.Steady := by
  have before := steady.unset
  have never := steady.workers worker
  unfold State.popStep at taken
  split at taken
  case h_1 => cases taken
  case h_2 here =>
    cases taken
    apply steady.moveWorker 0 <;> (try split) <;>
      simp [here, before, PopPc.cleared, PopPc.task, PopPc.uncounted]
  case h_3 here =>
    cases taken
    apply steady.moveWorker 0 <;> (try split) <;>
      simp [here, before, PopPc.cleared, PopPc.task, PopPc.uncounted]
  case h_4 here =>
    split at taken
    · cases taken
    · cases taken
      apply steady.moveWorker 0 <;> simp [here, before, PopPc.cleared, PopPc.task, PopPc.uncounted]
  case h_5 index here =>
    obtain ⟨status, _, rfl⟩ := Option.map_eq_some_iff.mp taken
    split <;> apply steady.moveWorker 0 <;>
      simp [here, setCanPop, before, PopPc.cleared, PopPc.task, PopPc.uncounted]
  case h_6 index here =>
    obtain ⟨status, _, step⟩ := Option.bind_eq_some_iff.mp taken
    split at step
    · cases step
    · cases step
      apply steady.moveWorker 0 <;> simp [here, before, PopPc.cleared, PopPc.task, PopPc.uncounted]
    · rename_i task tasks dequeued
      cases step
      exact steady.dequeue here dequeued
  case h_7 index task here =>
    cases taken
    rw [before]
    apply steady.moveWorker 0 <;> simp [here, before, PopPc.cleared, PopPc.task, PopPc.uncounted]
  case h_8 index here => simp [here, PopPc.cleared] at never
  case h_9 index here => simp [here, PopPc.cleared] at never
  case h_10 index task here =>
    cases taken
    simp only [InRange, here] at inRange
    apply steady.moveWorker (-1)
    case approxSize => exact toInt_sub_one inRange
    all_goals simp [here, before, PopPc.cleared, PopPc.task, PopPc.uncounted]
  case h_11 index task here =>
    obtain ⟨status, _, rfl⟩ := Option.map_eq_some_iff.mp taken
    cases runs : task.func with
    | none =>
      apply steady.moveWorker 0 <;>
        simp [here, setSingle, runs, before, PopPc.cleared, PopPc.task, PopPc.uncounted]
    | some func =>
      apply steady.moveWorker 0 <;> simp [here, setSingle, before, PopPc.cleared, PopPc.task, PopPc.uncounted]
  case h_12 index task here =>
    cases taken
    apply steady.moveWorker 0 <;> simp [here, before, PopPc.cleared, PopPc.task, PopPc.uncounted]
  case h_13 index here =>
    cases taken
    apply steady.moveWorker 0 <;> simp [here, setCanPop, before, PopPc.cleared, PopPc.task, PopPc.uncounted]

theorem Steady.resetProps [DecidableEq P] (steady : state.Steady) (props : List P) :
    Steady { state with queue := state.queue.resetProps props } := by
  obtain ⟨keyed, same⟩ := steady.keyed.resetProps props
  have placed {task : AddedTask P F} (was : state.Placed task) :
      Placed { state with queue := state.queue.resetProps props } task := by
    unfold Placed
    rw [waitTasks_resetProps]
    exact was
  refine ⟨?_, steady.callers, steady.workers, keyed, ?_, ?_, ?_, ?_⟩
  · rw [bclear_resetProps]
    exact steady.unset
  · unfold Counted
    rw [same, approxSize_resetProps]
    exact steady.counted
  · exact fun other held has => placed (steady.adding other held has)
  · exact fun held member => placed (steady.accepted held member)
  · exact steady.apart.resetProps props

/-- A step that leaves `m_bclear` unset. -/
theorem Steady.next [DecidableEq P] [DecidableEq F] [DecidableEq Q] [DecidableEq W]
    {action : Action P F Q W} (steady : state.Steady) (inRange : state.InRange action)
    (taken : state.next action = some after)
    (unset : after.queue.bclear = false) : after.Steady := by
  have call {caller : Q} {pc : CallerPc P F} (plain : pc.uncounted = false) (cleared : pc.cleared = false)
      (nothing : pc.task = none) (outside : state.caller caller = .outside) :
      (state.moveCaller caller state.queue pc).Steady := by
    have counted : (state.caller caller).uncounted = false := by rw [outside]; rfl
    apply steady.moveCaller 0 <;> simp +contextual [counted, steady.unset, plain, cleared, nothing]
  cases action with
  | resetProps props =>
    cases taken
    exact steady.resetProps props
  | callAdd caller prop func =>
    obtain ⟨outside, same⟩ := Option.ite_none_right_eq_some.mp taken
    cases same
    exact call rfl rfl rfl outside
  | callStart caller =>
    obtain ⟨outside, same⟩ := Option.ite_none_right_eq_some.mp taken
    cases same
    exact call rfl rfl rfl outside
  | callStop caller bwait =>
    obtain ⟨outside, same⟩ := Option.ite_none_right_eq_some.mp taken
    cases same
    exact call rfl rfl rfl outside
  | callClear caller =>
    obtain ⟨outside, same⟩ := Option.ite_none_right_eq_some.mp taken
    cases same
    exact call rfl rfl rfl outside
  | caller caller source => exact steady.callStep inRange taken unset
  | callPop worker =>
    obtain ⟨outside, same⟩ := Option.ite_none_right_eq_some.mp taken
    cases same
    apply steady.moveWorker 0 <;> simp [outside, steady.unset, PopPc.cleared, PopPc.task, PopPc.uncounted]
  | pop worker source => exact steady.popStep inRange taken

end Steps

/-- A worker has counted off a task that its producer has not counted yet. -/
def Overdrawn (state : State P F Q W) : Prop :=
  ∃ caller task, (state.caller caller).uncounted = true ∧ (state.caller caller).task = some task ∧
    (∀ source, (source, task) ∉ state.queue.waitTasks task.prop) ∧
    ∀ worker, (state.worker worker).uncounted = true → (state.worker worker).task ≠ some task

/-- Where an uncounted task is that has not been counted off: it waits, or a worker has it. -/
private theorem place_of_uncounted {state : State P F Q W} (covered : ¬ state.Overdrawn)
    {caller : Q} (uncounted : (state.caller caller).uncounted = true) :
    ∃ task, (state.caller caller).task = some task ∧
      ((∃ source, (source, task) ∈ state.queue.waitTasks task.prop) ∨
        ∃ worker, (state.worker worker).uncounted = true ∧
          (state.worker worker).task = some task) := by
  obtain ⟨task, has⟩ : ∃ task, (state.caller caller).task = some task := by
    cases here : state.caller caller <;> simp_all [CallerPc.uncounted, CallerPc.task]
  refine ⟨task, has, ?_⟩
  by_contra nowhere
  obtain ⟨gone, counted⟩ := not_or.mp nowhere
  exact covered ⟨caller, task, uncounted, has, fun source waits => gone ⟨source, waits⟩,
    fun worker holds held => counted ⟨worker, holds, held⟩⟩

/-- Those who have not counted their tasks are fewer than the tasks that wait or that workers have
not counted off, when an accepted task waits. -/
private theorem Steady.uncounted_lt {state : State P F Q W} (steady : state.Steady)
    (covered : ¬ state.Overdrawn) {source : Q} {task : AddedTask P F}
    (accepted : task ∈ state.accepted)
    (waits : (source, task) ∈ state.queue.waitTasks task.prop) {callers : Finset Q}
    {workers : Finset W} (adds : ∀ caller ∈ callers, (state.caller caller).uncounted = true)
    (pops : ∀ worker, (state.worker worker).uncounted = true → worker ∈ workers) :
    callers.card < state.queue.waiting + workers.card := by
  classical
  have queued : task ∈ state.queue.tasks :=
    (mem_tasks steady.keyed steady.apart).mpr ⟨source, waits⟩
  let places := (state.queue.tasks.toFinset.erase task).disjSum workers
  have total : places.card + 1 = state.queue.waiting + workers.card := by
    have length := length_tasks state.queue
    have := List.length_pos_of_mem queued
    rw [Finset.card_disjSum, Finset.card_erase_of_mem (List.mem_toFinset.mpr queued),
      List.toFinset_card_of_nodup (nodup_tasks steady.keyed steady.apart)]
    omega
  have placed : ∀ caller ∈ callers, ∃ place ∈ places, ∃ held,
    (state.caller caller).task = some held ∧
      place.elim (fun queued => queued = held) fun worker =>
      (state.worker worker).task = some held := by
    intro caller member
    obtain ⟨held, has, ⟨source, waits⟩ | ⟨worker, uncounted, holds⟩⟩ :=
      place_of_uncounted covered (adds caller member)
    · refine ⟨.inl held, Finset.inl_mem_disjSum.mpr (Finset.mem_erase.mpr ⟨?_, ?_⟩), held, has, rfl⟩
      · rintro rfl
        exact (steady.apart.accepted held accepted).2 caller has
      · exact List.mem_toFinset.mpr ((mem_tasks steady.keyed steady.apart).mpr ⟨source, waits⟩)
    · exact ⟨.inr worker, Finset.inr_mem_disjSum.mpr (pops worker uncounted), held, has, holds⟩
  have : Nonempty (AddedTask P F) := ⟨task⟩
  choose! place member held has holds using placed
  have atMost : callers.card ≤ places.card := by
    apply Finset.card_le_card_of_injOn place member
    intro first firstIn second secondIn same
    have same_task : held first = held second := by
      have here := holds first firstIn
      have there := holds second secondIn
      rw [same] at here
      cases found : place second with
      | inl queued =>
        rw [found] at here there
        exact here.symm.trans there
      | inr worker =>
        rw [found] at here there
        exact Option.some.inj (here.symm.trans there)
    exact steady.apart.mine first second _ (has first firstIn) (same_task ▸ has second secondIn)
  omega

/-- Where nobody has overdrawn the counter, the queue says that it is not empty as long as an accepted
task waits. -/
theorem Steady.notEmpty {state : State P F Q W} (steady : state.Steady)
    (covered : ¬ state.Overdrawn)
    {source : Q} {task : AddedTask P F} (accepted : task ∈ state.accepted)
    (waits : (source, task) ∈ state.queue.waitTasks task.prop) : state.queue.notEmpty = true := by
  obtain ⟨adding, popping, ⟨callers, adds, rfl⟩, ⟨workers, pops, rfl⟩, size⟩ := steady.counted
  have fewer := steady.uncounted_lt covered accepted waits (fun caller => (adds caller).mp)
    fun worker => (pops worker).mpr
  have positive : 0 < state.queue.approxSize := by
    rw [Int32.lt_iff_toInt_lt, size, Int32.toInt_zero]
    omega
  simp [SPMCSerialTaskQueue.notEmpty, steady.unset, positive]

theorem init_steady [DecidableEq P] (maxTaskCount maxSingleTaskCount : UInt64) :
    (init maxTaskCount maxSingleTaskCount : State P F Q W).Steady := by
  refine ⟨rfl, fun _ => rfl, fun _ => rfl, ⟨List.nodup_nil, ?_⟩, ?_, ?_, ?_, ?_⟩
  · exact fun prop waits => absurd rfl waits
  · exact ⟨0, 0, .none fun _ => rfl, .none fun _ => rfl, rfl⟩
  · exact fun caller task has => nomatch has
  · exact fun task member => nomatch member
  · exact init_apart

end State

end BTool.TaskQueue.SPMCSerialTaskQueue
