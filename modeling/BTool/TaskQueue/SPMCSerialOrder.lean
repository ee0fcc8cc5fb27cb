import Mathlib.Data.Fintype.Basic
import BTool.Foundation.Locals
import BTool.Foundation.Transition
import BTool.TaskQueue.SPMCSerialTaskQueue

/-! Serial execution in a `SPMCSerialTaskQueue`: a worker that has a slot has it alone, so the tasks
of a property that has one slot are executed one at a time, in the order of their queue.

`reset_props` makes a new slot for a property that has one already, and then two workers may execute
tasks of this property at once. -/

namespace BTool.TaskQueue.SPMCSerialTaskQueue

open BTool.Foundation

variable {P F Q W : Type}

/-- The slot that a worker is about to get. -/
def PopPc.wanted : PopPc P F → Option Nat
  | .exchange index => some index
  | _ => none

/-- The slot that a worker has. -/
def PopPc.slot : PopPc P F → Option Nat
  | .dequeue index => some index
  | .loadClear index _ => some index
  | .storeSize index => some index
  | .storeSingle index => some index
  | .countSize index _ => some index
  | .countSingle index _ => some index
  | .executing index _ => some index
  | .release index => some index
  | _ => none

/-- The task that a worker has dequeued and not yet executed to its end. -/
def PopPc.task : PopPc P F → Option (AddedTask P F)
  | .loadClear _ task => some task
  | .countSize _ task => some task
  | .countSingle _ task => some task
  | .executing _ task => some task
  | _ => none

theorem PopPc.slot_of_task {pc : PopPc P F} {task : AddedTask P F} (has : pc.task = some task) :
    ∃ index, pc.slot = some index := by
  cases pc with
  | loadClear index held => exact ⟨index, rfl⟩
  | countSize index held => exact ⟨index, rfl⟩
  | countSingle index held => exact ⟨index, rfl⟩
  | executing index held => exact ⟨index, rfl⟩
  | _ => cases has

/-- The property to which a thread is adding a task. -/
def CallerPc.adding : CallerPc P F → Option P
  | .stopTest prop _ => some prop
  | .fullTest prop _ => some prop
  | .enqueue prop _ => some prop
  | .clearTest task => some task.prop
  | .storeSize task => some task.prop
  | .storeSingle task => some task.prop
  | .countSize task => some task.prop
  | .countSingle task => some task.prop
  | _ => none

/-- The property of which a thread is about to enqueue a task. -/
def CallerPc.enqueuing : CallerPc P F → Option P
  | .enqueue prop _ => some prop
  | _ => none

/-- In no call but those of `add_task`. -/
def CallerPc.plain : CallerPc P F → Bool
  | .start => false
  | .stop _ => false
  | .clear _ => false
  | _ => true

/-- The property of each slot. -/
def registered (queue : SPMCSerialTaskQueue P F Q) : List P := queue.allProps.map AlignedStatus.prop

/-- When this slot is free, the others of its property are free as well. -/
def FreeTogether (queue : SPMCSerialTaskQueue P F Q) (index : Nat) : Prop :=
  ∀ status ∈ queue.allProps[index]?, status.canPop = true →
    ∀ other ∈ queue.allProps.eraseIdx index, other.prop = status.prop → other.canPop = true

instance [DecidableEq P] (queue : SPMCSerialTaskQueue P F Q) (index : Nat) :
    Decidable (queue.FreeTogether index) := by
  unfold FreeTogether
  infer_instance

/-- The property of a slot. -/
def propAt (queue : SPMCSerialTaskQueue P F Q) (index : Nat) : Option P :=
  queue.allProps[index]?.map AlignedStatus.prop

theorem getElem?_setCanPop {queue : SPMCSerialTaskQueue P F Q} {index slot : Nat} {canPop : Bool}
    (ne : slot ≠ index) : (queue.setCanPop index canPop).allProps[slot]? = queue.allProps[slot]? := by
  simp [setCanPop, ne.symm]

@[simp] theorem waitTasks_resetProps [DecidableEq P] (queue : SPMCSerialTaskQueue P F Q) (props : List P) :
    (queue.resetProps props).waitTasks = queue.waitTasks := by
  induction props using List.reverseRecOn with
  | nil => rfl
  | append_singleton front prop ih =>
    rw [← ih, resetProps, List.foldl_append]
    rfl

/-- Each registration makes a slot, also that of a property that has one. -/
theorem allProps_resetProps [DecidableEq P] (queue : SPMCSerialTaskQueue P F Q) (props : List P) :
    (queue.resetProps props).allProps = queue.allProps ++ props.map fun prop => ⟨prop, true⟩ := by
  induction props using List.reverseRecOn with
  | nil => exact (List.append_nil _).symm
  | append_singleton front prop ih =>
    rw [List.map_append, ← List.append_assoc, ← ih, resetProps, List.foldl_append]
    rfl

@[simp] theorem propAt_setCanPop {queue : SPMCSerialTaskQueue P F Q} {index : Nat} {canPop : Bool} :
    (queue.setCanPop index canPop).propAt = queue.propAt := by
  funext slot
  by_cases same : slot = index
  · rw [same]
    cases found : queue.allProps[index]? <;> simp [propAt, setCanPop, found]
  · rw [propAt, getElem?_setCanPop same, propAt]

@[simp] theorem registered_setCanPop {queue : SPMCSerialTaskQueue P F Q} {index : Nat} {canPop : Bool} :
    (queue.setCanPop index canPop).registered = queue.registered := by
  apply List.ext_getElem?
  intro slot
  rw [registered, registered, List.getElem?_map, List.getElem?_map]
  exact congrFun propAt_setCanPop slot

theorem freeTogether_of_nodup {queue : SPMCSerialTaskQueue P F Q} (distinct : queue.registered.Nodup)
    (index : Nat) : queue.FreeTogether index := by
  intro status found _ other member same
  obtain ⟨slot, ne, at_slot⟩ := List.mem_eraseIdx_iff_getElem?.mp member
  have found : queue.registered[index]? = some status.prop := by simp [registered, Option.mem_def.mp found]
  have found' : queue.registered[slot]? = some status.prop := by simp [registered, at_slot, same]
  obtain ⟨within, _⟩ := List.getElem?_eq_some_iff.mp found'
  exact absurd ((List.getElem?_inj within distinct).mp (found'.trans found.symm)) ne

namespace State

/-- Properties are registered while no worker has a slot, tasks are added to registered properties,
by one thread at a time for each, and there are no calls but these and those of `pop_task`. -/
def Regular (state : State P F Q W) : Action P F Q W → Prop
  | .resetProps _ => ∀ worker, (state.worker worker).slot = none
  | .callAdd _ prop _ =>
    prop ∈ state.queue.registered ∧ ∀ other, (state.caller other).adding ≠ some prop
  | .callStart _ => False
  | .callStop _ _ => False
  | .callClear _ => False
  | _ => True

/-- Who gets a slot finds the other slots of its property free. -/
def Careful (state : State P F Q W) : Action P F Q W → Prop
  | .pop worker _ => ∀ index ∈ (state.worker worker).wanted, state.queue.FreeTogether index
  | _ => True

/-- Who enqueues a task finds no task of another thread in front of it. -/
def Unmixed (state : State P F Q W) : Action P F Q W → Prop
  | .caller caller _ => ∀ prop ∈ (state.caller caller).enqueuing, (state.queue.waitTasks prop).Only caller
  | _ => True

/-- No property is registered that has a slot, or twice at once. -/
def Fresh (state : State P F Q W) : Action P F Q W → Prop
  | .resetProps props => (state.queue.registered ++ props).Nodup
  | _ => True

instance [DecidableEq P] [DecidableEq F] [Fintype Q] [Fintype W] (state : State P F Q W)
    (action : Action P F Q W) : Decidable (state.Regular action) := by
  -- `casesOn` leaves no equations in what `decide` evaluates
  induction action using Action.casesOn <;> unfold Regular <;> infer_instance

instance [DecidableEq P] (state : State P F Q W) (action : Action P F Q W) : Decidable (state.Careful action) := by
  cases action <;> unfold Careful <;> infer_instance

instance [DecidableEq Q] (state : State P F Q W) (action : Action P F Q W) : Decidable (state.Unmixed action) := by
  cases action <;> unfold Unmixed <;> infer_instance

/-- No property has two tasks executing at once, and those of each property have been executed in
the order in which they were added. -/
structure Serial [DecidableEq P] (state : State P F Q W) : Prop where
  alone : ∀ first second index slot task other, state.worker first = .executing index task →
    state.worker second = .executing slot other → task.prop = other.prop → first = second
  inOrder : ∀ prop, (state.executed.filter fun task => task.prop = prop).Pairwise fun first second =>
    first.id < second.id

/-- The task stands between what has been executed of its property and what waits. -/
structure Next (state : State P F Q W) (task : AddedTask P F) : Prop where
  added : task.id < state.added
  done : ∀ done ∈ state.executed, done.prop = task.prop → done.id < task.id
  waits : ∀ entry ∈ state.queue.waitTasks task.prop, task.id < entry.2.id

/-- Each property has one worker, which has the only task of it that is neither waiting nor
executed. -/
structure Sound [DecidableEq P] (state : State P F Q W) : Prop where
  plain : ∀ caller, (state.caller caller).plain = true
  held : ∀ worker index, (state.worker worker).slot = some index →
    ∃ status, state.queue.allProps[index]? = some status ∧ status.canPop = false
  apart : ∀ first second index slot prop, (state.worker first).slot = some index →
    (state.worker second).slot = some slot → state.queue.propAt index = some prop →
      state.queue.propAt slot = some prop → first = second
  mine : ∀ worker index task, (state.worker worker).slot = some index →
    (state.worker worker).task = some task → state.queue.propAt index = some task.prop
  homed : ∀ prop, ∀ entry ∈ state.queue.waitTasks prop, entry.2.prop = prop ∧ entry.2.id < state.added
  single : ∀ prop, ∀ entry ∈ state.queue.waitTasks prop, (state.queue.waitTasks prop).Only entry.1
  waits : ∀ prop, (state.queue.waitTasks prop).Pairwise fun first second => first.2.id < second.2.id
  past : ∀ done ∈ state.executed, done.id < state.added ∧
    ∀ entry ∈ state.queue.waitTasks done.prop, done.id < entry.2.id
  taken : ∀ worker task, (state.worker worker).task = some task → state.Next task
  inOrder : ∀ prop, (state.executed.filter fun task => task.prop = prop).Pairwise fun first second =>
    first.id < second.id

section Steps

variable [DecidableEq P] [DecidableEq F] [DecidableEq Q] [DecidableEq W] {state after : State P F Q W}
  {caller source : Q} {worker : W}

/-- What a step of a call can do that is not `clear_inner`. -/
inductive Called (state : State P F Q W) (caller : Q) : State P F Q W → Prop where
  | keep {queue : SPMCSerialTaskQueue P F Q} {pc : CallerPc P F} {accepted : List (AddedTask P F)}
      (plain : pc.plain = true) (allProps : queue.allProps = state.queue.allProps)
      (waitTasks : queue.waitTasks = state.queue.waitTasks) :
      Called state caller ({ state with accepted }.moveCaller caller queue pc)
  | enqueue {prop : P} {func : TaskItem F} {queue : SPMCSerialTaskQueue P F Q}
      (here : state.caller caller = .enqueue prop func) (allProps : queue.allProps = state.queue.allProps)
      (waitTasks : queue.waitTasks = Function.update state.queue.waitTasks prop
        ((state.queue.waitTasks prop).enqueue caller ⟨state.added, prop, func⟩)) :
      Called state caller ({ state with added := state.added + 1 }.moveCaller caller queue
        (.clearTest ⟨state.added, prop, func⟩))

omit [DecidableEq W] in
theorem called_of_callStep (plain : (state.caller caller).plain = true)
    (taken : state.callStep caller source = some after) : Called state caller after := by
  cases here : state.caller caller with
  | outside => simp [callStep, here] at taken
  | stopTest prop func =>
    simp only [callStep, here, Option.some.injEq] at taken
    rw [← taken]
    exact .keep (by split <;> rfl) rfl rfl
  | fullTest prop func =>
    simp only [callStep, here, Option.some.injEq] at taken
    rw [← taken]
    exact .keep (by split <;> rfl) rfl rfl
  | enqueue prop func =>
    simp only [callStep, here, Option.some.injEq] at taken
    rw [← taken]
    exact .enqueue here rfl rfl
  | clearTest task =>
    simp only [callStep, here, Option.some.injEq] at taken
    rw [← taken]
    exact .keep (by split <;> rfl) rfl rfl
  | storeSize task =>
    simp only [callStep, here, Option.some.injEq] at taken
    rw [← taken]
    exact .keep rfl rfl rfl
  | storeSingle task =>
    simp only [callStep, here, Option.some.injEq] at taken
    rw [← taken]
    exact .keep rfl rfl rfl
  | countSize task =>
    simp only [callStep, here, Option.some.injEq] at taken
    rw [← taken]
    exact .keep rfl rfl rfl
  | countSingle task =>
    simp only [callStep, here, Option.some.injEq] at taken
    rw [← taken]
    exact .keep rfl rfl rfl
  | _ => simp [here, CallerPc.plain] at plain

/-- What a step of `pop_task` can do. -/
inductive Worked (state : State P F Q W) (worker : W) : State P F Q W → Prop where
  | keep {queue : SPMCSerialTaskQueue P F Q} {pc : PopPc P F} (slot : pc.slot = (state.worker worker).slot)
      (task : ∀ task, pc.task = some task → (state.worker worker).task = some task)
      (allProps : queue.allProps = state.queue.allProps)
      (waitTasks : queue.waitTasks = state.queue.waitTasks) :
      Worked state worker (state.moveWorker worker queue pc)
  | take {index : Nat} {status : AlignedStatus P} (here : state.worker worker = .exchange index)
      (found : state.queue.allProps[index]? = some status) (free : status.canPop = true) :
      Worked state worker (state.moveWorker worker (state.queue.setCanPop index false) (.dequeue index))
  | dequeue {index : Nat} {status : AlignedStatus P} {source : Q} {task : AddedTask P F}
      {tasks : ProducerQueue Q (AddedTask P F)} (here : state.worker worker = .dequeue index)
      (found : state.queue.allProps[index]? = some status)
      (dequeued : (state.queue.waitTasks status.prop).tryDequeue source = .item task tasks) :
      Worked state worker (state.moveWorker worker
        { state.queue with waitTasks := Function.update state.queue.waitTasks status.prop tasks }
        (.loadClear index task))
  | finish {index : Nat} {task : AddedTask P F} (here : state.worker worker = .executing index task) :
      Worked state worker ({ state with executed := state.executed ++ [task] }.moveWorker worker state.queue
        (.dequeue index))
  | release {index : Nat} (here : state.worker worker = .release index) :
      Worked state worker (state.moveWorker worker (state.queue.setCanPop index true) .outside)

theorem worked_of_popStep (taken : state.popStep worker source = some after) : Worked state worker after := by
  cases here : state.worker worker with
  | outside => simp [popStep, here] at taken
  | clearTest =>
    simp only [popStep, here, Option.some.injEq] at taken
    rw [← taken]
    exact .keep (by rw [here]; split <;> rfl) (by split <;> nofun) rfl rfl
  | sizeTest =>
    simp only [popStep, here, Option.some.injEq] at taken
    rw [← taken]
    exact .keep (by rw [here]; split <;> rfl) (by split <;> nofun) rfl rfl
  | takeIndex =>
    simp only [popStep, here] at taken
    split at taken <;> cases taken
    exact .keep (by rw [here]; rfl) nofun rfl rfl
  | exchange index =>
    simp only [popStep, here] at taken
    obtain ⟨status, found, moved⟩ := Option.map_eq_some_iff.mp taken
    split at moved
    · rename_i free
      rw [← moved]
      exact .take here found free
    · rw [← moved]
      exact .keep (by rw [here]; rfl) nofun rfl rfl
  | dequeue index =>
    simp only [popStep, here] at taken
    obtain ⟨status, found, moved⟩ := Option.bind_eq_some_iff.mp taken
    split at moved <;> cases moved
    · exact .keep (by rw [here]; rfl) nofun rfl rfl
    · rename_i task tasks dequeued
      exact .dequeue here found dequeued
  | loadClear index task =>
    simp only [popStep, here, Option.some.injEq] at taken
    rw [← taken]
    refine .keep (by rw [here]; split <;> rfl) ?_ rfl rfl
    rw [here]
    split <;> simp [PopPc.task]
  | storeSize index =>
    simp only [popStep, here, Option.some.injEq] at taken
    rw [← taken]
    exact .keep (by rw [here]; rfl) nofun rfl rfl
  | storeSingle index =>
    simp only [popStep, here] at taken
    obtain ⟨status, found, moved⟩ := Option.map_eq_some_iff.mp taken
    rw [← moved]
    exact .keep (by rw [here]; rfl) nofun rfl rfl
  | countSize index task =>
    simp only [popStep, here, Option.some.injEq] at taken
    rw [← taken]
    exact .keep (by rw [here]; rfl) (by simp [here, PopPc.task]) rfl rfl
  | countSingle index task =>
    simp only [popStep, here] at taken
    obtain ⟨status, found, moved⟩ := Option.map_eq_some_iff.mp taken
    rw [← moved]
    refine .keep (by rw [here]; split <;> rfl) ?_ rfl rfl
    rw [here]
    split <;> simp [PopPc.task]
  | executing index task =>
    simp only [popStep, here, Option.some.injEq] at taken
    rw [← taken]
    exact .finish here
  | release index =>
    simp only [popStep, here, Option.some.injEq] at taken
    rw [← taken]
    exact .release here

end Steps

section Kept

variable [DecidableEq P] {state after : State P F Q W}

/-- A step that moves no task, and no slot, keeps who has what. -/
theorem Sound.keep (sound : state.Sound) (plain : ∀ caller, (after.caller caller).plain = true)
    (allProps : after.queue.allProps = state.queue.allProps)
    (waitTasks : after.queue.waitTasks = state.queue.waitTasks)
    (slot : ∀ worker, (after.worker worker).slot = (state.worker worker).slot)
    (task : ∀ worker task, (after.worker worker).task = some task → (state.worker worker).task = some task)
    (added : after.added = state.added) (executed : after.executed = state.executed) : after.Sound := by
  have same : after.queue.propAt = state.queue.propAt := by
    funext index
    rw [propAt, propAt, allProps]
  have next {task : AddedTask P F} (was : state.Next task) : after.Next task :=
    ⟨added ▸ was.added, executed ▸ was.done, waitTasks ▸ was.waits⟩
  refine ⟨plain, ?_, ?_, ?_, ?_, ?_, ?_, ?_, ?_, ?_⟩
  · intro worker index has
    rw [allProps]
    exact sound.held worker index (slot worker ▸ has)
  · intro first second index other prop hasFirst hasSecond
    rw [same]
    exact sound.apart first second index other prop (slot first ▸ hasFirst) (slot second ▸ hasSecond)
  · intro worker index held has works
    rw [same]
    exact sound.mine worker index held (slot worker ▸ has) (task worker held works)
  · rw [waitTasks, added]
    exact sound.homed
  · rw [waitTasks]
    exact sound.single
  · rw [waitTasks]
    exact sound.waits
  · rw [waitTasks, added, executed]
    exact sound.past
  · intro worker held works
    exact next (sound.taken worker held (task worker held works))
  · rw [executed]
    exact sound.inOrder

theorem Sound.enqueue [DecidableEq Q] {caller : Q} {prop : P} {func : TaskItem F}
    {queue : SPMCSerialTaskQueue P F Q} (sound : state.Sound) (only : (state.queue.waitTasks prop).Only caller)
    (allProps : queue.allProps = state.queue.allProps)
    (waitTasks : queue.waitTasks = Function.update state.queue.waitTasks prop
      ((state.queue.waitTasks prop).enqueue caller ⟨state.added, prop, func⟩)) :
    Sound ({ state with added := state.added + 1 }.moveCaller caller queue
      (.clearTest ⟨state.added, prop, func⟩)) := by
  have same : queue.propAt = state.queue.propAt := by
    funext index
    rw [propAt, propAt, allProps]
  have entries (other : P) {entry : Q × AddedTask P F} (waiting : entry ∈ queue.waitTasks other) :
      entry ∈ state.queue.waitTasks other ∨ (other = prop ∧ entry = (caller, ⟨state.added, prop, func⟩)) := by
    rw [waitTasks] at waiting
    by_cases here : other = prop
    · subst here
      rw [Function.update_self] at waiting
      exact (List.mem_append.mp waiting).imp_right fun last => ⟨rfl, List.mem_singleton.mp last⟩
    · rw [Function.update_of_ne here] at waiting
      exact .inl waiting
  have later (other : P) (id : Nat) (before : id < state.added)
      (waits : ∀ entry ∈ state.queue.waitTasks other, id < entry.2.id) :
      ∀ entry ∈ queue.waitTasks other, id < entry.2.id := by
    intro entry waiting
    rcases entries other waiting with was | ⟨_, rfl⟩
    · exact waits entry was
    · exact before
  refine ⟨?_, ?_, ?_, ?_, ?_, ?_, ?_, ?_, ?_, sound.inOrder⟩
  · intro other
    by_cases here : other = caller
    · simp [moveCaller, here, CallerPc.plain]
    · simpa [moveCaller, here] using sound.plain other
  · simpa only [moveCaller, allProps] using sound.held
  · simpa only [moveCaller, same] using sound.apart
  · simpa only [moveCaller, same] using sound.mine
  · intro other entry waiting
    rcases entries other waiting with was | ⟨rfl, rfl⟩
    · exact ⟨(sound.homed other entry was).1, Nat.lt_succ_of_lt (sound.homed other entry was).2⟩
    · exact ⟨rfl, Nat.lt_succ_self _⟩
  · intro other entry waiting
    by_cases here : other = prop
    · subst here
      have mine : (queue.waitTasks other).Only caller := by
        intro entry waiting
        rcases entries other waiting with was | ⟨_, rfl⟩
        · exact only entry was
        · rfl
      rw [mine entry waiting]
      exact mine
    · simp only [moveCaller, waitTasks, Function.update_of_ne here] at waiting ⊢
      exact sound.single other entry waiting
  · intro other
    by_cases here : other = prop
    · subst here
      simp only [moveCaller, waitTasks, Function.update_self, ProducerQueue.enqueue]
      refine List.pairwise_append.mpr ⟨sound.waits other, List.pairwise_singleton _ _, ?_⟩
      intro first waiting second last
      rw [List.mem_singleton.mp last]
      exact (sound.homed other first waiting).2
    · simpa only [moveCaller, waitTasks, Function.update_of_ne here] using sound.waits other
  · intro done executed
    obtain ⟨before, waits⟩ := sound.past done executed
    exact ⟨Nat.lt_succ_of_lt before, later done.prop done.id before waits⟩
  · intro worker task works
    have was := sound.taken worker task works
    exact ⟨Nat.lt_succ_of_lt was.added, was.done, later task.prop task.id was.added was.waits⟩

theorem Sound.take [DecidableEq W] {worker : W} {index : Nat} {status : AlignedStatus P} (sound : state.Sound)
    (careful : state.queue.FreeTogether index) (here : state.worker worker = .exchange index)
    (found : state.queue.allProps[index]? = some status) (free : status.canPop = true) :
    Sound (state.moveWorker worker (state.queue.setCanPop index false) (.dequeue index)) := by
  -- Nobody has this slot, or another one of its property.
  have elsewhere (other : W) (slot : Nat) (has : (state.worker other).slot = some slot) :
      slot ≠ index ∧ state.queue.propAt slot ≠ state.queue.propAt index := by
    obtain ⟨held, at_slot, taken⟩ := sound.held other slot has
    have ne : slot ≠ index := by
      rintro rfl
      rw [found, Option.some.injEq] at at_slot
      rw [← at_slot, free] at taken
      cases taken
    refine ⟨ne, fun same => ?_⟩
    rw [propAt, propAt, at_slot, found, Option.map_some, Option.map_some, Option.some.injEq] at same
    have member := List.mem_eraseIdx_iff_getElem?.mpr ⟨slot, ne, at_slot⟩
    rw [careful status found free held member same] at taken
    cases taken
  have tasks (other : W) {task : AddedTask P F}
      (works : (Function.update state.worker worker (.dequeue index) other).task = some task) :=
    view_other rfl works
  refine ⟨sound.plain, ?_, ?_, ?_, sound.homed, sound.single, sound.waits, sound.past, ?_, sound.inOrder⟩
  · intro other slot has
    by_cases self : other = worker
    · subst self
      simp only [moveWorker, Function.update_self, PopPc.slot, Option.some.injEq] at has
      subst has
      exact ⟨⟨status.prop, false⟩, by simp [moveWorker, setCanPop, found], rfl⟩
    · simp only [moveWorker, Function.update_of_ne self] at has ⊢
      rw [getElem?_setCanPop (elsewhere other slot has).1]
      exact sound.held other slot has
  · intro first second slot other prop hasFirst hasSecond atFirst atSecond
    simp only [moveWorker, propAt_setCanPop] at hasFirst hasSecond atFirst atSecond
    by_cases self : first = worker
    · by_cases self' : second = worker
      · rw [self, self']
      · subst self
        rw [Function.update_self] at hasFirst
        rw [Function.update_of_ne self'] at hasSecond
        cases hasFirst
        exact absurd (atSecond.trans atFirst.symm) (elsewhere second other hasSecond).2
    · rw [Function.update_of_ne self] at hasFirst
      by_cases self' : second = worker
      · subst self'
        rw [Function.update_self] at hasSecond
        cases hasSecond
        exact absurd (atFirst.trans atSecond.symm) (elsewhere first slot hasFirst).2
      · rw [Function.update_of_ne self'] at hasSecond
        exact sound.apart first second slot other prop hasFirst hasSecond atFirst atSecond
  · intro other slot task has works
    obtain ⟨self, was⟩ := tasks other works
    simp only [moveWorker, Function.update_of_ne self, propAt_setCanPop] at has ⊢
    exact sound.mine other slot task has was
  · intro other task works
    obtain ⟨_, was⟩ := tasks other works
    have next := sound.taken other task was
    exact ⟨next.added, next.done, next.waits⟩

theorem Sound.dequeue [DecidableEq Q] [DecidableEq F] [DecidableEq W] {worker : W} {index : Nat}
    {status : AlignedStatus P} {source : Q} {task : AddedTask P F} {tasks : ProducerQueue Q (AddedTask P F)}
    (sound : state.Sound) (here : state.worker worker = .dequeue index)
    (found : state.queue.allProps[index]? = some status)
    (dequeued : (state.queue.waitTasks status.prop).tryDequeue source = .item task tasks) :
    Sound (state.moveWorker worker
      { state.queue with waitTasks := Function.update state.queue.waitTasks status.prop tasks }
      (.loadClear index task)) := by
  have member := (ProducerQueue.tryDequeue_eq_item dequeued).1
  have split := ProducerQueue.eq_cons_of_only (sound.single _ _ member) dequeued
  obtain ⟨home, added⟩ := sound.homed _ _ member
  have ordered := sound.waits status.prop
  rw [split, List.pairwise_cons] at ordered
  have subset (prop : P) {entry : Q × AddedTask P F}
      (waiting : entry ∈ Function.update state.queue.waitTasks status.prop tasks prop) :
      entry ∈ state.queue.waitTasks prop := by
    by_cases same : prop = status.prop
    · subst same
      rw [Function.update_self] at waiting
      rw [split]
      exact List.mem_cons_of_mem _ waiting
    · rwa [Function.update_of_ne same] at waiting
  have slots : ∀ other, (Function.update state.worker worker (.loadClear index task) other).slot =
      (state.worker other).slot := view_move PopPc.slot (by rw [here]; rfl)
  refine ⟨sound.plain, ?_, ?_, ?_, ?_, ?_, ?_, ?_, ?_, sound.inOrder⟩
  · intro other slot has
    exact sound.held other slot (slots other ▸ has)
  · intro first second slot other prop hasFirst hasSecond
    exact sound.apart first second slot other prop (slots first ▸ hasFirst) (slots second ▸ hasSecond)
  · intro other slot held has works
    by_cases self : other = worker
    · subst self
      simp only [moveWorker, Function.update_self, PopPc.slot, PopPc.task, Option.some.injEq] at has works
      subst has works
      rw [home]
      simp [moveWorker, propAt, found]
    · simp only [moveWorker, Function.update_of_ne self] at has works
      exact sound.mine other slot held has works
  · intro prop entry waiting
    exact sound.homed prop entry (subset prop waiting)
  · intro prop entry waiting other present
    exact sound.single prop entry (subset prop waiting) other (subset prop present)
  · intro prop
    by_cases same : prop = status.prop
    · subst same
      simpa only [moveWorker, Function.update_self] using ordered.2
    · simpa only [moveWorker, Function.update_of_ne same] using sound.waits prop
  · intro done executed
    obtain ⟨before, waits⟩ := sound.past done executed
    exact ⟨before, fun entry waiting => waits entry (subset done.prop waiting)⟩
  · intro other held works
    by_cases self : other = worker
    · subst self
      simp only [moveWorker, Function.update_self, PopPc.task, Option.some.injEq] at works
      subst works
      refine ⟨added, ?_, ?_⟩
      · intro done executed same
        rw [← home, ← same] at member
        exact (sound.past done executed).2 _ member
      · intro entry waiting
        rw [home] at waiting
        simp only [moveWorker, Function.update_self] at waiting
        exact ordered.1 entry waiting
    · simp only [moveWorker, Function.update_of_ne self] at works
      have next := sound.taken other held works
      exact ⟨next.added, next.done, fun entry waiting => next.waits entry (subset held.prop waiting)⟩

theorem Sound.finish [DecidableEq W] {worker : W} {index : Nat} {task : AddedTask P F} (sound : state.Sound)
    (here : state.worker worker = .executing index task) :
    Sound ({ state with executed := state.executed ++ [task] }.moveWorker worker state.queue
      (.dequeue index)) := by
  have mine := sound.mine worker index task (by rw [here]; rfl) (by rw [here]; rfl)
  have next := sound.taken worker task (by rw [here]; rfl)
  have slots : ∀ other, (Function.update state.worker worker (.dequeue index) other).slot =
      (state.worker other).slot := view_move PopPc.slot (by rw [here]; rfl)
  have tasks (other : W) {held : AddedTask P F}
      (works : (Function.update state.worker worker (.dequeue index) other).task = some held) :=
    view_other rfl works
  refine ⟨sound.plain, ?_, ?_, ?_, sound.homed, sound.single, sound.waits, ?_, ?_, ?_⟩
  · intro other slot has
    exact sound.held other slot (slots other ▸ has)
  · intro first second slot other prop hasFirst hasSecond
    exact sound.apart first second slot other prop (slots first ▸ hasFirst) (slots second ▸ hasSecond)
  · intro other slot held has works
    exact sound.mine other slot held (slots other ▸ has) (tasks other works).2
  · intro done executed
    rcases List.mem_append.mp executed with was | now
    · exact sound.past done was
    · rw [List.mem_singleton.mp now]
      exact ⟨next.added, next.waits⟩
  · intro other held works
    obtain ⟨self, was⟩ := tasks other works
    have further := sound.taken other held was
    refine ⟨further.added, fun done executed same => ?_, further.waits⟩
    rcases List.mem_append.mp executed with before | now
    · exact further.done done before same
    -- Another worker has no task of this property.
    · rw [List.mem_singleton.mp now] at same
      obtain ⟨slot, has⟩ := PopPc.slot_of_task was
      have other_mine := sound.mine other slot held has was
      rw [← same] at other_mine
      exact absurd (sound.apart other worker slot index task.prop has (by rw [here]; rfl) other_mine mine) self
  · intro prop
    simp only [moveWorker, List.filter_append]
    refine List.pairwise_append.mpr ⟨sound.inOrder prop, ?_, ?_⟩
    · exact (List.pairwise_singleton _ _).filter _
    · intro done executed last now
      obtain ⟨before, filed⟩ := List.mem_filter.mp executed
      obtain ⟨here, sameProp⟩ := List.mem_filter.mp now
      obtain rfl := List.mem_singleton.mp here
      exact next.done done before ((of_decide_eq_true filed).trans (of_decide_eq_true sameProp).symm)

theorem Sound.release [DecidableEq W] {worker : W} {index : Nat} (sound : state.Sound)
    (here : state.worker worker = .release index) :
    Sound (state.moveWorker worker (state.queue.setCanPop index true) .outside) := by
  have has_index : (state.worker worker).slot = some index := by rw [here]; rfl
  have slots (other : W) {slot : Nat}
      (has : (Function.update state.worker worker .outside other).slot = some slot) := view_other rfl has
  have tasks (other : W) {task : AddedTask P F}
      (works : (Function.update state.worker worker .outside other).task = some task) := view_other rfl works
  refine ⟨sound.plain, ?_, ?_, ?_, sound.homed, sound.single, sound.waits, sound.past, ?_, sound.inOrder⟩
  · intro other slot has
    obtain ⟨self, was⟩ := slots other has
    obtain ⟨status, found, taken⟩ := sound.held other slot was
    have ne : slot ≠ index := by
      rintro rfl
      have at_slot : state.queue.propAt slot = some status.prop := by simp [propAt, found]
      exact self (sound.apart other worker slot slot status.prop was has_index at_slot at_slot)
    exact ⟨status, (getElem?_setCanPop ne).trans found, taken⟩
  · intro first second slot other prop hasFirst hasSecond atFirst atSecond
    simp only [moveWorker, propAt_setCanPop] at atFirst atSecond
    exact sound.apart first second slot other prop (slots first hasFirst).2 (slots second hasSecond).2 atFirst
      atSecond
  · intro other slot task has works
    simp only [moveWorker, propAt_setCanPop]
    exact sound.mine other slot task (slots other has).2 (tasks other works).2
  · intro other task works
    have next := sound.taken other task (tasks other works).2
    exact ⟨next.added, next.done, next.waits⟩

/-- While nobody has a slot, nobody has a task. -/
theorem Sound.resetProps (sound : state.Sound) (free : ∀ worker, (state.worker worker).slot = none)
    (props : List P) : Sound { state with queue := state.queue.resetProps props } := by
  have slots (worker : W) {index : Nat} : (state.worker worker).slot ≠ some index := by
    rw [free worker]
    nofun
  have tasks (worker : W) {task : AddedTask P F} (has : (state.worker worker).task = some task) : False := by
    obtain ⟨_, holds⟩ := PopPc.slot_of_task has
    exact slots worker holds
  refine ⟨sound.plain, ?_, ?_, ?_, ?_, ?_, ?_, ?_, ?_, sound.inOrder⟩
  · exact fun worker _ has => absurd has (slots worker)
  · exact fun worker _ _ _ _ has => absurd has (slots worker)
  · exact fun worker _ _ has => absurd has (slots worker)
  · rw [waitTasks_resetProps]
    exact sound.homed
  · rw [waitTasks_resetProps]
    exact sound.single
  · rw [waitTasks_resetProps]
    exact sound.waits
  · rw [waitTasks_resetProps]
    exact sound.past
  · exact fun worker _ works => (tasks worker works).elim

theorem Sound.moveCaller [DecidableEq Q] {caller : Q} {queue : SPMCSerialTaskQueue P F Q} {pc : CallerPc P F}
    {accepted : List (AddedTask P F)} (sound : state.Sound) (plain : pc.plain = true)
    (allProps : queue.allProps = state.queue.allProps) (waitTasks : queue.waitTasks = state.queue.waitTasks) :
    Sound ({ state with accepted }.moveCaller caller queue pc) := by
  refine sound.keep ?_ allProps waitTasks (fun _ => rfl) (fun _ _ works => works) rfl rfl
  intro other
  by_cases self : other = caller
  · simp [State.moveCaller, self, plain]
  · simpa [State.moveCaller, self] using sound.plain other

theorem Sound.moveWorker [DecidableEq W] {worker : W} {queue : SPMCSerialTaskQueue P F Q} {pc : PopPc P F}
    (sound : state.Sound) (slot : pc.slot = (state.worker worker).slot)
    (task : ∀ task, pc.task = some task → (state.worker worker).task = some task)
    (allProps : queue.allProps = state.queue.allProps) (waitTasks : queue.waitTasks = state.queue.waitTasks) :
    Sound (state.moveWorker worker queue pc) := by
  refine sound.keep sound.plain allProps waitTasks ?_ ?_ rfl rfl
  · exact view_move PopPc.slot slot
  · intro other held
    by_cases self : other = worker
    · simpa [State.moveWorker, self] using task held
    · simp [State.moveWorker, self]

/-- Who executes a task has a slot of its property, and has it alone. -/
theorem Sound.serial (sound : state.Sound) : state.Serial := by
  refine ⟨?_, sound.inOrder⟩
  intro first second index slot task other executing executing' same
  have has : (state.worker first).slot = some index := by rw [executing]; rfl
  have has' : (state.worker second).slot = some slot := by rw [executing']; rfl
  have mine := sound.mine first index task has (by rw [executing]; rfl)
  have mine' := sound.mine second slot other has' (by rw [executing']; rfl)
  exact sound.apart first second index slot task.prop has has' mine (same ▸ mine')

end Kept

section Runs

variable [DecidableEq P] [DecidableEq F] [DecidableEq Q] [DecidableEq W] {state after : State P F Q W}
  {action : Action P F Q W} {actions : List (Action P F Q W)}

theorem Sound.next (sound : state.Sound) (regular : state.Regular action) (unmixed : state.Unmixed action)
    (careful : state.Careful action) (taken : state.next action = some after) : after.Sound := by
  cases action with
  | resetProps props =>
    cases taken
    exact sound.resetProps regular props
  | callAdd caller prop func =>
    simp only [State.next] at taken
    split at taken <;> cases taken
    exact sound.moveCaller rfl rfl rfl
  | callStart caller => exact regular.elim
  | callStop caller bwait => exact regular.elim
  | callClear caller => exact regular.elim
  | caller caller source =>
    cases called_of_callStep (sound.plain caller) taken with
    | keep plain allProps waitTasks => exact sound.moveCaller plain allProps waitTasks
    | enqueue here allProps waitTasks =>
      exact sound.enqueue (unmixed _ (by rw [here]; rfl)) allProps waitTasks
  | callPop worker =>
    simp only [State.next] at taken
    split at taken <;> cases taken
    rename_i outside
    exact sound.moveWorker (by rw [outside]; rfl) nofun rfl rfl
  | pop worker source =>
    cases worked_of_popStep taken with
    | keep slot task allProps waitTasks => exact sound.moveWorker slot task allProps waitTasks
    | take here found free =>
      exact sound.take (careful _ (by rw [here]; rfl)) here found free
    | dequeue here found dequeued => exact sound.dequeue here found dequeued
    | finish here => exact sound.finish here
    | release here => exact sound.release here

omit [DecidableEq F] [DecidableEq Q] [DecidableEq W] in
theorem init_sound (maxTaskCount maxSingleTaskCount : UInt64) :
    (init maxTaskCount maxSingleTaskCount : State P F Q W).Sound := by
  refine ⟨fun _ => rfl, nofun, nofun, nofun, nofun, nofun, ?_, nofun, nofun, ?_⟩
  · exact fun _ => .nil
  · exact fun _ => .nil

/-- A property has no more slots than registrations. -/
theorem registered_next (sound : state.Sound) (regular : state.Regular action) (fresh : state.Fresh action)
    (taken : state.next action = some after) (distinct : state.queue.registered.Nodup) :
    after.queue.registered.Nodup := by
  cases action with
  | resetProps props =>
    cases taken
    have added : (state.queue.resetProps props).registered = state.queue.registered ++ props := by
      simp [registered, allProps_resetProps, Function.comp_def]
    rw [added]
    exact fresh
  | callAdd caller prop func =>
    simp only [State.next] at taken
    split at taken <;> cases taken
    exact distinct
  | callStart caller => exact regular.elim
  | callStop caller bwait => exact regular.elim
  | callClear caller => exact regular.elim
  | caller caller source =>
    cases called_of_callStep (sound.plain caller) taken with
    | keep plain allProps waitTasks => simpa only [State.moveCaller, registered, allProps] using distinct
    | enqueue here allProps waitTasks => simpa only [State.moveCaller, registered, allProps] using distinct
  | callPop worker =>
    simp only [State.next] at taken
    split at taken <;> cases taken
    exact distinct
  | pop worker source =>
    cases worked_of_popStep taken with
    | keep slot task allProps waitTasks => simpa only [State.moveWorker, registered, allProps] using distinct
    | take here found free => simpa only [State.moveWorker, registered_setCanPop] using distinct
    | dequeue here found dequeued => exact distinct
    | finish here => exact distinct
    | release here => simpa only [State.moveWorker, registered_setCanPop] using distinct

/-- When each property is registered once, that is enough. -/
theorem serial_of_fresh {maxTaskCount maxSingleTaskCount : UInt64}
    (path : Path (Guarded (Taken next) fun state action =>
        state.Regular action ∧ state.Unmixed action ∧ state.Fresh action)
      (init maxTaskCount maxSingleTaskCount) actions state) : state.Serial := by
  have kept := path.invariant (fun state => state.Sound ∧ state.queue.registered.Nodup)
    (fun state action after ⟨sound, distinct⟩ ⟨⟨regular, unmixed, fresh⟩, taken⟩ => by
      have careful : state.Careful action := by
        cases action with
        | pop worker source => exact fun index _ => freeTogether_of_nodup distinct index
        | _ => trivial
      exact ⟨sound.next regular unmixed careful taken, registered_next sound regular fresh taken distinct⟩)
    ⟨init_sound maxTaskCount maxSingleTaskCount, .nil⟩
  exact kept.1.serial

/-- Tasks of one property are executed one at a time and in the order in which they were added, in
every run in which nobody gets a slot of a property that has another slot in use, and no task is
added behind those of another thread. -/
theorem serial_of_careful {maxTaskCount maxSingleTaskCount : UInt64}
    (path : Path (Guarded (Taken next) fun state action =>
        state.Regular action ∧ state.Unmixed action ∧ state.Careful action)
      (init maxTaskCount maxSingleTaskCount) actions state) : state.Serial :=
  (path.invariant Sound
    (fun _ _ _ sound ⟨⟨regular, unmixed, careful⟩, taken⟩ => sound.next regular unmixed careful taken)
    (init_sound maxTaskCount maxSingleTaskCount)).serial

/-- Two tasks are added, and each of two workers takes a slot. -/
def twoWorkers (props : List Nat) (first second : Nat) : List (Action Nat Nat (Fin 1) (Fin 2)) :=
  List.flatten
    [[.resetProps props, .callAdd 0 first (some 50)], List.replicate 6 (.caller 0 0),
      [.callAdd 0 second (some 51)], List.replicate 6 (.caller 0 0), [.callPop 0], List.replicate 8 (.pop 0 0),
      [.callPop 1], List.replicate 8 (.pop 1 0)]

/-- With a slot for each property, they execute at once, each its own property. -/
theorem serial_of_careful_two_props :
    ∃ state : State Nat Nat (Fin 1) (Fin 2),
      exec (checked next fun state action => state.Regular action ∧ state.Unmixed action ∧ state.Careful action)
        (init 0 0) (twoWorkers [5, 6] 5 6) = some state ∧
      state.worker 0 = .executing 0 ⟨0, 5, some 50⟩ ∧ state.worker 1 = .executing 1 ⟨1, 6, some 51⟩ ∧
      state.Serial := by
  have runs : ∃ state ∈
      exec (checked next fun state action => state.Regular action ∧ state.Unmixed action ∧ state.Careful action)
        (init 0 0 : State Nat Nat (Fin 1) (Fin 2)) (twoWorkers [5, 6] 5 6),
      state.worker 0 = .executing 0 ⟨0, 5, some 50⟩ ∧ state.worker 1 = .executing 1 ⟨1, 6, some 51⟩ := by
    decide
  obtain ⟨state, ends, first, second⟩ := runs
  exact ⟨state, ends, first, second, serial_of_careful (Path.of_checked ends)⟩

/-- A property that is registered twice has two slots, and then both execute its tasks. -/
theorem twice_registered_twice_executing :
    ∃ state : State Nat Nat (Fin 1) (Fin 2),
      Path (Guarded (Taken next) Regular) (init 0 0) (twoWorkers [5, 5] 5 5) state ∧ ¬ state.Serial := by
  have runs : ∃ state ∈ exec (checked next Regular) (init 0 0 : State Nat Nat (Fin 1) (Fin 2))
      (twoWorkers [5, 5] 5 5),
      state.worker 0 = .executing 0 ⟨0, 5, some 50⟩ ∧ state.worker 1 = .executing 1 ⟨1, 5, some 51⟩ := by
    decide
  obtain ⟨state, ends, first, second⟩ := runs
  refine ⟨state, Path.of_checked ends, fun serial => ?_⟩
  have same := serial.alone 0 1 _ _ _ _ first second rfl
  cases same

end Runs

end State

end BTool.TaskQueue.SPMCSerialTaskQueue
