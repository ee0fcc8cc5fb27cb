import Mathlib.Algebra.GroupWithZero.Nat
import BTool.Foundation.Locals
import BTool.TaskQueue.SPMCSerialOrder

/-! The tasks of a `SPMCSerialTaskQueue` by number: how many wait, and that no task is anywhere
twice. -/

namespace BTool.TaskQueue.SPMCSerialTaskQueue

open BTool.Foundation

variable {P F Q W : Type}

/-- How many tasks wait. -/
def waiting (queue : SPMCSerialTaskQueue P F Q) : Nat :=
  (queue.props.map fun prop => (queue.waitTasks prop).length).sum

/-- The tasks that wait. -/
def tasks (queue : SPMCSerialTaskQueue P F Q) : List (AddedTask P F) :=
  queue.props.flatMap fun prop => (queue.waitTasks prop).map Prod.snd

theorem length_tasks (queue : SPMCSerialTaskQueue P F Q) : queue.tasks.length = queue.waiting := by
  simp [tasks, waiting, List.length_flatMap]

/-- The task that a thread has enqueued and not yet returned from. -/
def CallerPc.task : CallerPc P F → Option (AddedTask P F)
  | .clearTest task => some task
  | .storeSize task => some task
  | .storeSingle task => some task
  | .countSize task => some task
  | .countSingle task => some task
  | _ => none

theorem sum_map_update [DecidableEq P] {props : List P} {prop : P} (sizes : P → Nat) (size : Nat)
    (distinct : props.Nodup) (member : prop ∈ props) :
    (props.map (Function.update sizes prop size)).sum + sizes prop = (props.map sizes).sum + size := by
  induction props with
  | nil => cases member
  | cons head rest ih =>
    obtain ⟨fresh, distinct⟩ := List.nodup_cons.mp distinct
    rw [List.map_cons, List.sum_cons, List.map_cons, List.sum_cons]
    by_cases here : head = prop
    · subst here
      have rest_same : rest.map (Function.update sizes head size) = rest.map sizes := by
        apply List.map_congr_left
        intro other there
        exact Function.update_of_ne (ne_of_mem_of_not_mem there fresh) _ _
      rw [Function.update_self, rest_same]
      omega
    · have there : prop ∈ rest := (List.mem_cons.mp member).resolve_left (Ne.symm here)
      rw [Function.update_of_ne here]
      have := ih distinct there
      omega

/-- The keys are distinct, and no task waits for a property that is no key. -/
structure Keyed (queue : SPMCSerialTaskQueue P F Q) : Prop where
  distinct : queue.props.Nodup
  keys : ∀ prop, queue.waitTasks prop ≠ [] → prop ∈ queue.props

section Keys

variable [DecidableEq P] {queue : SPMCSerialTaskQueue P F Q} {prop : P}

theorem mem_emplace : prop ∈ (queue.emplace prop).props := by
  unfold emplace
  split <;> simp_all

theorem Keyed.emplace (keyed : queue.Keyed) : (queue.emplace prop).Keyed := by
  unfold SPMCSerialTaskQueue.emplace
  split
  · exact keyed
  · rename_i fresh
    refine ⟨?_, fun other waits => List.mem_append_left _ (keyed.keys other waits)⟩
    exact List.nodup_append_comm.mp (List.nodup_cons.mpr ⟨fresh, keyed.distinct⟩)

theorem Keyed.waiting_emplace (keyed : queue.Keyed) :
    (queue.emplace prop).waiting = queue.waiting := by
  unfold SPMCSerialTaskQueue.emplace waiting
  split
  · rfl
  · rename_i fresh
    have nothing : queue.waitTasks prop = [] := by
      by_contra waits
      exact fresh (keyed.keys prop waits)
    simp [nothing]

/-- The queue of a key changes. -/
theorem Keyed.update (keyed : queue.Keyed) (member : prop ∈ queue.props)
    (tasks : ProducerQueue Q (AddedTask P F)) :
    Keyed { queue with waitTasks := Function.update queue.waitTasks prop tasks } := by
  refine ⟨keyed.distinct, fun other waits => ?_⟩
  by_cases here : other = prop
  · exact here ▸ member
  · exact keyed.keys other (by simpa [here] using waits)

theorem Keyed.waiting_update (keyed : queue.Keyed) (member : prop ∈ queue.props)
    (tasks : ProducerQueue Q (AddedTask P F)) :
    waiting { queue with waitTasks := Function.update queue.waitTasks prop tasks } +
      (queue.waitTasks prop).length =
      queue.waiting + tasks.length := by
  have lengths : (fun other => (Function.update queue.waitTasks prop tasks other).length) =
      Function.update (fun other => (queue.waitTasks other).length) prop tasks.length := by
    exact Function.comp_update List.length queue.waitTasks prop tasks
  simp only [waiting, lengths]
  exact sum_map_update (fun other => (queue.waitTasks other).length) _ keyed.distinct member

theorem Keyed.resetProps (keyed : queue.Keyed) (props : List P) :
    (queue.resetProps props).Keyed ∧ (queue.resetProps props).waiting = queue.waiting := by
  induction props using List.reverseRecOn with
  | nil => exact ⟨⟨keyed.distinct, keyed.keys⟩, rfl⟩
  | append_singleton front prop ih =>
    obtain ⟨keyed, same⟩ := ih
    rw [SPMCSerialTaskQueue.resetProps, List.foldl_append]
    exact ⟨⟨keyed.emplace.distinct, keyed.emplace.keys⟩, keyed.waiting_emplace.trans same⟩

end Keys

namespace State

/-- No task is enqueued twice, and who adds one that is not accepted yet is the only one. -/
structure Apart (state : State P F Q W) : Prop where
  fresh : ∀ caller task, (state.caller caller).task = some task → task.id < state.added
  mine : ∀ first second task, (state.caller first).task = some task →
    (state.caller second).task = some task →
    first = second
  accepted : ∀ task ∈ state.accepted, task.id < state.added ∧
    ∀ caller, (state.caller caller).task ≠ some task
  homed : ∀ prop, ∀ entry ∈ state.queue.waitTasks prop, entry.2.prop = prop ∧
    entry.2.id < state.added
  once : ∀ prop, ((state.queue.waitTasks prop).map Prod.snd).Nodup

section Waiting

variable {state : State P F Q W} {task : AddedTask P F}

theorem mem_tasks (keyed : state.queue.Keyed) (apart : state.Apart) :
    task ∈ state.queue.tasks ↔ ∃ source, (source, task) ∈ state.queue.waitTasks task.prop := by
  unfold tasks
  rw [List.mem_flatMap]
  constructor
  · rintro ⟨prop, _, member⟩
    obtain ⟨⟨source, task⟩, waits, rfl⟩ := List.mem_map.mp member
    obtain ⟨home, _⟩ := apart.homed prop _ waits
    exact ⟨source, home ▸ waits⟩
  · rintro ⟨source, waits⟩
    exact ⟨task.prop, keyed.keys task.prop (List.ne_nil_of_mem waits), List.mem_map_of_mem waits⟩

theorem nodup_tasks (keyed : state.queue.Keyed) (apart : state.Apart) :
    state.queue.tasks.Nodup := by
  apply List.nodup_flatMap.mpr ⟨fun prop _ => apart.once prop, ?_⟩
  apply keyed.distinct.imp
  intro first second different task waits waits'
  obtain ⟨entry, member, rfl⟩ := List.mem_map.mp waits
  obtain ⟨entry', member', same⟩ := List.mem_map.mp waits'
  apply different
  rw [← (apart.homed first entry member).1, ← same, (apart.homed second entry' member').1]

end Waiting

section Steps

variable {state : State P F Q W} {caller : Q} {worker : W}

theorem Apart.moveCaller [DecidableEq Q] (apart : state.Apart) {queue : SPMCSerialTaskQueue P F Q}
    {pc : CallerPc P F} {accepted : List (AddedTask P F)}
    (waitTasks : queue.waitTasks = state.queue.waitTasks)
    (task : ∀ task, pc.task = some task → (state.caller caller).task = some task)
    (accepts : ∀ task ∈ accepted, task ∈ state.accepted ∨
      ((state.caller caller).task = some task ∧ pc.task = none)) :
    Apart ({ state with accepted }.moveCaller caller queue pc) := by
  have held {other : Q} {held : AddedTask P F}
      (has : (Function.update state.caller caller pc other).task = some held) :
      (state.caller other).task = some held := by
    by_cases same : other = caller
    · subst same
      exact task held (by rwa [Function.update_self] at has)
    · rwa [Function.update_of_ne same] at has
  refine ⟨fun other task has => apart.fresh other task (held has), ?_, ?_, ?_, ?_⟩
  · exact fun first second task has has' => apart.mine first second task (held has) (held has')
  · intro task member
    rcases accepts task member with before | ⟨now, nothing⟩
    · obtain ⟨earlier, nobody⟩ := apart.accepted task before
      exact ⟨earlier, fun other has => nobody other (held has)⟩
    · refine ⟨apart.fresh caller task now, fun other has => ?_⟩
      obtain ⟨same, has⟩ := view_other nothing has
      exact same (apart.mine other caller task has now)
  · rw [State.moveCaller, waitTasks]
    exact apart.homed
  · rw [State.moveCaller, waitTasks]
    exact apart.once

theorem Apart.enqueue [DecidableEq Q] (apart : state.Apart) {queue : SPMCSerialTaskQueue P F Q}
    {prop : P} {func : TaskItem F} [DecidableEq P]
    (waitTasks : queue.waitTasks = Function.update state.queue.waitTasks prop
      ((state.queue.waitTasks prop).enqueue caller ⟨state.added, prop, func⟩)) :
    Apart ({ state with added := state.added + 1 }.moveCaller caller queue
      (.clearTest ⟨state.added, prop, func⟩)) := by
  have held {other : Q} {held : AddedTask P F} (has : (Function.update state.caller caller
      (.clearTest ⟨state.added, prop, func⟩) other).task = some held) :
      (other = caller ∧ held = ⟨state.added, prop, func⟩) ∨
      (state.caller other).task = some held := by
    by_cases same : other = caller
    · subst same
      rw [Function.update_self] at has
      exact .inl ⟨rfl, (Option.some.inj has).symm⟩
    · rw [Function.update_of_ne same] at has
      exact .inr has
  have entries {other : P} {entry : Q × AddedTask P F} (member : entry ∈ queue.waitTasks other) :
      entry ∈ state.queue.waitTasks other ∨
      (other = prop ∧ entry = (caller, ⟨state.added, prop, func⟩)) := by
    rw [waitTasks] at member
    by_cases same : other = prop
    · subst same
      rw [Function.update_self, ProducerQueue.enqueue, List.mem_append,
        List.mem_singleton] at member
      exact member.imp_right fun now => ⟨rfl, now⟩
    · rw [Function.update_of_ne same] at member
      exact .inl member
  refine ⟨?_, ?_, ?_, ?_, ?_⟩
  · intro other task has
    rcases held has with ⟨_, rfl⟩ | before
    · exact Nat.lt_succ_self _
    · exact Nat.lt_succ_of_lt (apart.fresh other task before)
  · intro first second task has has'
    rcases held has with ⟨rfl, rfl⟩ | before
    · rcases held has' with ⟨rfl, _⟩ | before'
      · rfl
      · exact absurd (apart.fresh second _ before') (Nat.lt_irrefl _)
    · rcases held has' with ⟨rfl, rfl⟩ | before'
      · exact absurd (apart.fresh first _ before) (Nat.lt_irrefl _)
      · exact apart.mine first second task before before'
  · intro task member
    obtain ⟨earlier, nobody⟩ := apart.accepted task member
    refine ⟨Nat.lt_succ_of_lt earlier, fun other has => ?_⟩
    rcases held has with ⟨_, rfl⟩ | before
    · exact absurd earlier (Nat.lt_irrefl _)
    · exact nobody other before
  · intro other entry member
    rcases entries member with before | ⟨rfl, rfl⟩
    · obtain ⟨home, earlier⟩ := apart.homed other entry before
      exact ⟨home, Nat.lt_succ_of_lt earlier⟩
    · exact ⟨rfl, Nat.lt_succ_self _⟩
  · intro other
    rw [State.moveCaller, waitTasks]
    by_cases same : other = prop
    · subst same
      rw [Function.update_self, ProducerQueue.enqueue, List.map_append, List.nodup_append]
      refine ⟨apart.once other, List.nodup_singleton _, ?_⟩
      intro before member now here
      obtain ⟨entry, waits, rfl⟩ := List.mem_map.mp member
      obtain rfl := List.mem_singleton.mp here
      intro same
      have earlier := (apart.homed other entry waits).2
      rw [same] at earlier
      exact absurd earlier (Nat.lt_irrefl _)
    · rw [Function.update_of_ne same]
      exact apart.once other

theorem Apart.moveWorker [DecidableEq W] (apart : state.Apart) {queue : SPMCSerialTaskQueue P F Q}
    {pc : PopPc P F} {executed : List (AddedTask P F)}
    (fewer : ∀ prop, (queue.waitTasks prop).Sublist (state.queue.waitTasks prop)) :
    Apart ({ state with executed }.moveWorker worker queue pc) :=
  ⟨apart.fresh, apart.mine, apart.accepted,
    fun prop entry member => apart.homed prop entry ((fewer prop).subset member),
    fun prop => (apart.once prop).sublist ((fewer prop).map Prod.snd)⟩

theorem Apart.resetProps [DecidableEq P] (apart : state.Apart) (props : List P) :
    Apart { state with queue := state.queue.resetProps props } := by
  refine ⟨apart.fresh, apart.mine, apart.accepted, ?_, ?_⟩
  · rw [waitTasks_resetProps]
    exact apart.homed
  · rw [waitTasks_resetProps]
    exact apart.once

end Steps

theorem init_apart [DecidableEq P] {maxTaskCount maxSingleTaskCount : UInt64} :
    (init maxTaskCount maxSingleTaskCount : State P F Q W).Apart where
  fresh := fun _ _ has => nomatch has
  mine := fun _ _ _ has => nomatch has
  accepted := fun _ member => nomatch member
  homed := fun _ _ member => nomatch member
  once := fun _ => List.nodup_nil

end State

end BTool.TaskQueue.SPMCSerialTaskQueue
