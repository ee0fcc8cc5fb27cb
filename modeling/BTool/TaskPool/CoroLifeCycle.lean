import BTool.Foundation.Transition
import BTool.TaskPool.CoroSerialTaskPool

/-! What the channels, the coroutines and the switch of a `CoroSerialTaskPool` are in every run in which no
task is pushed behind the back of a coroutine that has drained its channel. -/

namespace BTool.TaskPool.CoroSerialTaskPool

open BTool.Foundation BTool.TaskQueue

variable {P F C : Type}

/-- The switch has been started and stopped, and not been reset. -/
def stopped : AtomicSwitch := ⟨true, true, true⟩

/-- No call of `stop` that does not wait. -/
def Action.Graceful : Action P F C → Prop
  | .stop bwait => bwait = true
  | _ => True

instance (action : Action P F C) : Decidable action.Graceful := by
  induction action using Action.casesOn <;> unfold Action.Graceful <;> infer_instance

/-- The coroutine will not pop any more. -/
def CoroPc.drained : CoroPc P F → Bool
  | .close => true
  | .exit => true
  | .ended => true
  | _ => false

/-- The scheduler has been found empty. -/
def ControlPc.halting : ControlPc P → Bool
  | .schedulerStop => true
  | .reset _ => true
  | _ => false

/-- Started, and not yet found empty by `stop`. -/
def Open (pool : CoroSerialTaskPool P F C) : Prop :=
  pool.atomicSwitch.bstart = true ∧ pool.control.halting = false

/-- A task is pushed while the pool is open and the coroutine has not finished to drain the channel. -/
def Careful (pool : CoroSerialTaskPool P F C) : Action P F C → Prop
  | .caller caller =>
    match pool.caller caller with
    | .push prop _ => pool.Open ∧ (pool.coro prop).drained = false
    | _ => True
  | _ => True

instance (pool : CoroSerialTaskPool P F C) : Decidable pool.Open := by
  unfold Open
  infer_instance

instance (pool : CoroSerialTaskPool P F C) (action : Action P F C) :
    Decidable (pool.Careful action) := by
  unfold Careful
  split
  · split <;> infer_instance
  · infer_instance

/-- A step of the runs that are looked at. -/
def Permitted (pool : CoroSerialTaskPool P F C) (action : Action P F C) : Prop :=
  action.Graceful ∧ pool.Careful action

instance (pool : CoroSerialTaskPool P F C) (action : Action P F C) :
    Decidable (pool.Permitted action) := by
  unfold Permitted
  infer_instance

/-- The tasks of a property that are still to be executed, the first of them by the coroutine now. -/
def waiting (pool : CoroSerialTaskPool P F C) (prop : P) : List (AddedTask P F) :=
  (pool.coro prop).calling ++ (pool.goTasks prop).items.filterMap SerialTask.callable

/-- The tasks of a property, without those that have an empty function. -/
def tasksOf [DecidableEq P] (prop : P) (tasks : List (AddedTask P F)) : List (AddedTask P F) :=
  tasks.filter fun task => task.prop = prop ∧ task.func.isSome

/-- What is kept of the channels and the coroutines. -/
structure Stored [DecidableEq P] (pool : CoroSerialTaskPool P F C) : Prop where
  ordered : ∀ prop, tasksOf prop pool.executed ++ pool.waiting prop = tasksOf prop pool.added
  callable : ∀ task ∈ pool.executed, task.func.isSome = true
  drained : ∀ prop, (pool.coro prop).drained = true → pool.waiting prop = []
  closed : ∀ prop, (pool.goTasks prop).closed = true → (pool.coro prop).drained = true
  present : ∀ prop, pool.coro prop ≠ .absent ↔ prop ∈ pool.props
  absent : ∀ prop, prop ∉ pool.props → (pool.goTasks prop).items = []
  kinds : ∀ prop, ∀ item ∈ (pool.goTasks prop).items,
    item.exit = .notExit ∨ item.exit = .exitWait ∧ item.task = none

/-- What a step of the coroutine of a property does, which executes these tasks. -/
structure CoroMove (pool after : CoroSerialTaskPool P F C) (prop : P)
    (new : List (AddedTask P F)) : Prop where
  here : pool.coro prop ≠ .absent
  live : after.coro prop ≠ .absent
  others : ∀ other, other ≠ prop → after.coro other = pool.coro other ∧
    after.goTasks other = pool.goTasks other
  items : ∀ item ∈ (after.goTasks prop).items, item ∈ (pool.goTasks prop).items
  waits : pool.waiting prop = new ++ after.waiting prop
  drained : (after.coro prop).drained = true → after.waiting prop = []
  closed : (after.goTasks prop).closed = true → (after.coro prop).drained = true
  executed : after.executed = pool.executed ++ new
  props : after.props = pool.props
  added : after.added = pool.added
  accepted : after.accepted = pool.accepted
  caller : after.caller = pool.caller
  control : after.control = pool.control
  atomicSwitch : after.atomicSwitch = pool.atomicSwitch

theorem CoroMove.elsewhere {pool after : CoroSerialTaskPool P F C} {prop other : P}
    {new : List (AddedTask P F)} (move : CoroMove pool after prop new) (apart : other ≠ prop) :
    after.waiting other = pool.waiting other := by
  rw [waiting, waiting, (move.others other apart).1, (move.others other apart).2]

/-- The switch, where the calls of `init_props`, `start` and `stop` are. -/
def Fits (switch : AtomicSwitch) : ControlPc P → Prop
  | .start _ => switch = ⟨true, false, false⟩
  | .goStart => switch = .started
  | .stop bwait .loadInit => bwait = true ∧ (switch = .construct ∨ switch = .started)
  | .stop bwait _ => bwait = true ∧ switch = .started
  | .lockStop bwait => bwait = true ∧ switch = stopped
  | .push bwait _ => bwait = true ∧ switch = stopped
  | .pushed bwait _ _ => bwait = true ∧ switch = stopped
  | .pushedClosed bwait _ _ => bwait = true ∧ switch = stopped
  | .popExited bwait _ _ => bwait = true ∧ switch = stopped
  | .isEmpty => switch = stopped
  | .schedulerStop => switch = stopped
  | .reset .storeStart => switch = stopped
  | .reset .storeStop => switch = ⟨true, false, true⟩
  | .reset .storeInit => switch = ⟨true, false, false⟩
  | _ => switch = .construct ∨ switch = .started

/-- The properties whose channels `stop` has still to push its marker into. -/
def ControlPc.left : ControlPc P → List P
  | .push _ props => props
  | .pushed _ _ props => props
  | .pushedClosed _ _ props => props
  | .popExited _ _ props => props
  | _ => []

/-- The task that has been pushed by a call of `add_task` that has not returned. -/
def ProducerPc.task : ProducerPc P F → Option (AddedTask P F)
  | .pushed task => some task
  | .pushedClosed task => some task
  | _ => none

/-- What is kept in every such run. -/
structure Sound [DecidableEq P] (pool : CoroSerialTaskPool P F C) : Prop where
  stored : pool.Stored
  fits : Fits pool.atomicSwitch pool.control
  shut : ¬ pool.Open → ∀ prop, pool.waiting prop = []
  left : ∀ prop ∈ pool.control.left, prop ∈ pool.props
  pushing : ∀ caller prop func, pool.caller caller = .push prop func → prop ∈ pool.props
  pushed : ∀ caller task, (pool.caller caller).task = some task → task ∈ pool.added
  accepted : pool.accepted ⊆ pool.added

section Steps

variable [DecidableEq P] {pool after : CoroSerialTaskPool P F C} {prop other : P}
    {task : AddedTask P F}
  {new : List (AddedTask P F)}

theorem Stored.mem_waiting (stored : pool.Stored) (waits : task ∈ pool.waiting prop) :
    task ∈ pool.added ∧ task.prop = prop ∧ task.func.isSome = true := by
  have member : task ∈ tasksOf prop pool.added := by
    rw [← stored.ordered prop]
    exact List.mem_append_right _ waits
  simpa [tasksOf] using member

theorem Stored.waiting_of_fresh (stored : pool.Stored) (fresh : prop ∉ pool.props) :
    pool.waiting prop = [] := by
  have absent : pool.coro prop = .absent := by
    by_contra live
    exact fresh ((stored.present prop).mp live)
  rw [waiting, absent, stored.absent prop fresh]
  rfl

/-- Where a task waits, there is a coroutine that has not drained the channel. -/
theorem Stored.serves (stored : pool.Stored) (waits : task ∈ pool.waiting prop) :
    pool.coro prop ≠ .absent ∧ (pool.coro prop).drained = false := by
  constructor
  · rw [stored.present prop]
    by_contra fresh
    rw [stored.waiting_of_fresh fresh] at waits
    cases waits
  · by_contra drained
    rw [stored.drained prop (Bool.eq_true_of_not_eq_false drained)] at waits
    cases waits

/-- The coroutine of a property takes a step. -/
theorem Stored.advance (stored : pool.Stored) (move : CoroMove pool after prop new) :
    after.Stored := by
  obtain ⟨here, live, others, items, waits, drained, closed, executed, props, added, _⟩ := id move
  have mine (task : AddedTask P F) (member : task ∈ new) :
      task.prop = prop ∧ task.func.isSome = true :=
    (stored.mem_waiting (by rw [waits]; exact List.mem_append_left _ member)).2
  refine ⟨fun other => ?_, fun task member => ?_, fun other => ?_, fun other => ?_, fun other => ?_,
    fun other => ?_, fun other => ?_⟩
  · rw [executed, added, ← stored.ordered other, tasksOf, List.filter_append, List.append_assoc]
    congr 1
    by_cases same : other = prop
    · subst same
      rw [waits, List.filter_eq_self.mpr fun task member => by simpa using mine task member]
    · rw [move.elsewhere same, List.filter_eq_nil_iff.mpr, List.nil_append]
      intro task member
      simp [(mine task member).1, Ne.symm same]
  · rw [executed] at member
    rcases List.mem_append.mp member with old | fresh
    · exact stored.callable task old
    · exact (mine task fresh).2
  · by_cases same : other = prop
    · subst same
      exact drained
    · rw [move.elsewhere same, (others other same).1]
      exact stored.drained other
  · by_cases same : other = prop
    · subst same
      exact closed
    · rw [(others other same).1, (others other same).2]
      exact stored.closed other
  · rw [props, ← stored.present other]
    by_cases same : other = prop
    · subst same
      exact iff_of_true live here
    · rw [(others other same).1]
  · rw [props]
    intro absent
    have apart : other ≠ prop := by
      rintro rfl
      exact absent ((stored.present other).mp here)
    rw [(others other apart).2]
    exact stored.absent other absent
  · by_cases same : other = prop
    · subst same
      exact fun item member => stored.kinds other item (items item member)
    · rw [(others other same).2]
      exact stored.kinds other

/-- The coroutine goes on to a place, with what its channel is then. -/
private theorem coroMove_goes {chan : CoChan (SerialTask P F)} {pc : CoroPc P F}
    (coro : after.coro = Function.update pool.coro prop pc)
    (chans : after.goTasks = Function.update pool.goTasks prop chan)
    (executed : after.executed = pool.executed ++ new)
    (kept : after.props = pool.props ∧ after.added = pool.added ∧ after.accepted = pool.accepted ∧
      after.caller = pool.caller ∧ after.control = pool.control ∧
      after.atomicSwitch = pool.atomicSwitch)
    (here : pool.coro prop ≠ .absent) (live : pc ≠ .absent)
    (items : ∀ item ∈ chan.items, item ∈ (pool.goTasks prop).items)
    (waits : pool.waiting prop = new ++ (pc.calling ++ chan.items.filterMap SerialTask.callable))
    (drained : pc.drained = true → pc.calling ++ chan.items.filterMap SerialTask.callable = [])
    (closed : chan.closed = true → pc.drained = true) : CoroMove pool after prop new := by
  obtain ⟨props, added, accepted, caller, control, atomicSwitch⟩ := kept
  have pc' : after.coro prop = pc := by rw [coro, Function.update_self]
  have chan' : after.goTasks prop = chan := by rw [chans, Function.update_self]
  have waiting' : after.waiting prop = pc.calling ++ chan.items.filterMap SerialTask.callable := by
    rw [waiting, pc', chan']
  refine ⟨here, ?_, fun other apart => ⟨?_, ?_⟩, ?_, ?_, ?_, ?_, executed, props, added, accepted,
    caller, control, atomicSwitch⟩
  · rwa [pc']
  · rw [coro, Function.update_of_ne apart]
  · rw [chans, Function.update_of_ne apart]
  · rwa [chan']
  · rwa [waiting']
  · rwa [pc', waiting']
  · rwa [pc', chan']

/-- The coroutine takes the first item of its channel, to execute what there is to execute in it. -/
private theorem Stored.takes (stored : pool.Stored) {item : SerialTask P F}
    {rest : List (SerialTask P F)}
    {pc : CoroPc P F} (items : (pool.goTasks prop).items = item :: rest)
    (here : pool.coro prop ≠ .absent)
    (idle : (pool.coro prop).calling = []) (pops : (pool.coro prop).drained = false)
    (live : pc ≠ .absent)
    (calling : pc.calling = item.callable.toList) (goes : pc.drained = false) :
    CoroMove pool ((pool.setChan prop { pool.goTasks prop with items := rest }).moveCoro prop pc) prop [] := by
  refine coroMove_goes rfl rfl (List.append_nil _).symm ⟨rfl, rfl, rfl, rfl, rfl, rfl⟩ here live ?_ ?_ ?_ ?_
  · intro other member
    rw [items]
    exact List.mem_cons_of_mem _ member
  · rw [waiting, idle, items, calling, List.filterMap_cons]
    cases item.callable <;> rfl
  · exact fun drained => nomatch goes.symm.trans drained
  · exact fun closed => nomatch pops.symm.trans (stored.closed prop closed)

/-- The coroutine has executed its task. -/
private theorem Stored.finishes (stored : pool.Stored) {pc : CoroPc P F}
    (here : pool.coro prop ≠ .absent)
    (calling : (pool.coro prop).calling = [task]) (pops : (pool.coro prop).drained = false)
    (live : pc ≠ .absent) (idle : pc.calling = []) (goes : pc.drained = false) :
    CoroMove pool ({ pool with executed := pool.executed ++ [task] }.moveCoro prop pc) prop [task] := by
  have chans : pool.goTasks = Function.update pool.goTasks prop (pool.goTasks prop) :=
    (Function.update_eq_self ..).symm
  refine coroMove_goes rfl chans rfl ⟨rfl, rfl, rfl, rfl, rfl, rfl⟩ here live (fun _ => id) ?_ ?_ ?_
  · rw [waiting, calling, idle, List.nil_append]
  · exact fun drained => nomatch goes.symm.trans drained
  · exact fun closed => nomatch pops.symm.trans (stored.closed prop closed)

/-- The coroutine has drained its channel, and goes on with nothing to execute. -/
private theorem coroMove_leaves {chan : CoChan (SerialTask P F)} {pc : CoroPc P F}
    (coro : after.coro = Function.update pool.coro prop pc)
    (chans : after.goTasks = Function.update pool.goTasks prop chan)
    (executed : after.executed = pool.executed)
    (kept : after.props = pool.props ∧ after.added = pool.added ∧ after.accepted = pool.accepted ∧
      after.caller = pool.caller ∧ after.control = pool.control ∧
      after.atomicSwitch = pool.atomicSwitch)
    (here : pool.coro prop ≠ .absent) (empty : pool.waiting prop = []) (live : pc ≠ .absent)
    (idle : pc.calling = []) (leaves : pc.drained = true)
    (items : chan.items = (pool.goTasks prop).items) :
    CoroMove pool after prop [] := by
  have nothing : chan.items.filterMap SerialTask.callable = [] := by
    rw [items]
    exact (List.append_eq_nil_iff.mp empty).2
  refine coroMove_goes coro chans (by rw [executed, List.append_nil]) kept here live ?_ ?_ ?_ fun _ => leaves
  · rw [items]
    exact fun _ => id
  · rw [empty, idle, nothing]
    rfl
  · rw [idle, nothing]
    exact fun _ => rfl

/-- Every step of a coroutine is such a move. -/
theorem Stored.coroMove (stored : pool.Stored) (taken : pool.coroStep prop = some after) :
    ∃ new, CoroMove pool after prop new := by
  obtain ⟨_, taken⟩ := Option.ite_none_right_eq_some.mp taken
  have live : pool.coro prop ≠ .absent := by
    intro absent
    simp [absent] at taken
  have chans : pool.goTasks = Function.update pool.goTasks prop (pool.goTasks prop) :=
    (Function.update_eq_self ..).symm
  have drained := stored.drained prop
  cases here : pool.coro prop with
  | absent => exact absurd here live
  | pop =>
    simp only [here] at taken
    split at taken
    · cases taken
    · rename_i item rest items
      cases taken
      refine ⟨[], stored.takes items live (by rw [here]; rfl) (by rw [here]; rfl) ?_ ?_ ?_⟩
      all_goals
        rcases stored.kinds prop item (by rw [items]; exact List.mem_cons_self) with task | ⟨marker, nothing⟩
      · rw [task]
        cases item.callable <;> nofun
      · rw [marker]
        nofun
      · rw [task]
        cases item.callable <;> rfl
      · rw [marker, SerialTask.callable, nothing]
        rfl
      · rw [task]
        cases item.callable <;> rfl
      · rw [marker]
        rfl
  | call task =>
    simp only [here] at taken
    cases taken
    exact ⟨[task], stored.finishes live (by rw [here]; rfl) (by rw [here]; rfl) nofun rfl rfl⟩
  | tryPop =>
    simp only [here] at taken
    split at taken
    · rename_i items
      cases taken
      have empty : pool.waiting prop = [] := by
        rw [waiting, here, items]
        rfl
      exact ⟨[], coroMove_leaves rfl chans rfl ⟨rfl, rfl, rfl, rfl, rfl, rfl⟩ live empty nofun rfl rfl rfl⟩
    · rename_i item rest items
      cases taken
      refine ⟨[], stored.takes items live (by rw [here]; rfl) (by rw [here]; rfl) ?_ ?_ ?_⟩
      all_goals cases item.callable
      all_goals first | rfl | nofun
  | callRest task =>
    simp only [here] at taken
    cases taken
    exact ⟨[task], stored.finishes live (by rw [here]; rfl) (by rw [here]; rfl) nofun rfl rfl⟩
  | close =>
    simp only [here] at taken
    cases taken
    have empty := drained (by rw [here]; rfl)
    exact ⟨[], coroMove_leaves rfl rfl rfl ⟨rfl, rfl, rfl, rfl, rfl, rfl⟩ live empty nofun rfl rfl rfl⟩
  | exit =>
    simp only [here] at taken
    cases taken
    have empty := drained (by rw [here]; rfl)
    exact ⟨[], coroMove_leaves rfl chans rfl ⟨rfl, rfl, rfl, rfl, rfl, rfl⟩ live empty nofun rfl rfl rfl⟩
  | ended => simp [here] at taken

theorem Stored.congr (stored : pool.Stored) (props : after.props = pool.props)
    (goTasks : after.goTasks = pool.goTasks)
    (coro : after.coro = pool.coro) (added : after.added = pool.added)
    (executed : after.executed = pool.executed) :
    after.Stored := by
  have same (prop : P) :
      after.waiting prop = pool.waiting prop := by rw [waiting, waiting, goTasks, coro]
  obtain ⟨ordered, callable, drained, closed, present, absent, kinds⟩ := stored
  simp only [← same] at ordered drained
  rw [← executed] at ordered callable
  rw [← added] at ordered
  rw [← coro] at drained closed present
  rw [← goTasks] at closed absent kinds
  rw [← props] at present absent
  exact ⟨ordered, callable, drained, closed, present, absent, kinds⟩

/-- What is started has nothing in its channel. -/
theorem Stored.waiting_startProp (stored : pool.Stored) (other : P) :
    (pool.startProp prop).waiting other = pool.waiting other := by
  unfold startProp
  split
  · rfl
  · rename_i fresh
    by_cases same : other = prop
    · subst same
      rw [stored.waiting_of_fresh fresh]
      simp [waiting, moveCoro, setChan, CoroPc.calling, CoChan.open']
    · simp [waiting, moveCoro, setChan, same]

theorem mem_startProp :
    other ∈ (pool.startProp prop).props ↔ other = prop ∨ other ∈ pool.props := by
  unfold CoroSerialTaskPool.startProp
  split
  · rename_i member
    exact ⟨.inr, fun either => either.elim (fun same => same ▸ member) id⟩
  · change other ∈ pool.props ++ [prop] ↔ _
    rw [List.mem_append, List.mem_singleton, or_comm]

theorem startProp_kept (pool : CoroSerialTaskPool P F C) (prop : P) :
    (pool.startProp prop).added = pool.added ∧ (pool.startProp prop).executed = pool.executed ∧
      (pool.startProp prop).accepted = pool.accepted ∧ (pool.startProp prop).caller = pool.caller ∧
      (pool.startProp prop).control = pool.control ∧
      (pool.startProp prop).atomicSwitch = pool.atomicSwitch := by
  unfold startProp
  split <;> exact ⟨rfl, rfl, rfl, rfl, rfl, rfl⟩

theorem Stored.startProp (stored : pool.Stored) : (pool.startProp prop).Stored := by
  obtain ⟨added, executed, _⟩ := startProp_kept pool prop
  by_cases member : prop ∈ pool.props
  · have same : pool.startProp prop = pool := if_pos member
    rwa [same]
  · have coro : (pool.startProp prop).coro = Function.update pool.coro prop .pop := by
      rw [CoroSerialTaskPool.startProp, if_neg member]
      rfl
    have chan :
        (pool.startProp prop).goTasks = Function.update pool.goTasks prop
        (.open' pool.maxSingleTaskCount) := by
      rw [CoroSerialTaskPool.startProp, if_neg member]
      rfl
    refine ⟨fun other => ?_, by rw [executed]; exact stored.callable, fun other => ?_,
      fun other => ?_, fun other => ?_, fun other => ?_, fun other => ?_⟩
    · rw [stored.waiting_startProp, added, executed]
      exact stored.ordered other
    · rw [stored.waiting_startProp, coro]
      by_cases same : other = prop
      · subst same
        rw [Function.update_self]
        nofun
      · rw [Function.update_of_ne same]
        exact stored.drained other
    · rw [coro, chan]
      by_cases same : other = prop
      · subst same
        rw [Function.update_self]
        nofun
      · rw [Function.update_of_ne same, Function.update_of_ne same]
        exact stored.closed other
    · rw [coro, mem_startProp]
      by_cases same : other = prop
      · subst same
        rw [Function.update_self]
        exact iff_of_true nofun (.inl rfl)
      · rw [Function.update_of_ne same, stored.present other]
        exact ⟨.inr, fun either => either.resolve_left same⟩
    · rw [chan, mem_startProp]
      intro out
      obtain ⟨apart, out⟩ := not_or.mp out
      rw [Function.update_of_ne apart]
      exact stored.absent other out
    · rw [chan]
      by_cases same : other = prop
      · subst same
        rw [Function.update_self]
        nofun
      · rw [Function.update_of_ne same]
        exact stored.kinds other

/-- An item is pushed, a task only where the coroutine has not drained the channel. -/
theorem Stored.push (stored : pool.Stored) {item : SerialTask P F} (member : prop ∈ pool.props)
    (kind : item.exit = .notExit ∨ item.exit = .exitWait ∧ item.task = none)
    (own : ∀ task, item.task = some task → task.prop = prop ∧ (pool.coro prop).drained = false)
    (props : after.props = pool.props)
    (goTasks : after.goTasks = Function.update pool.goTasks prop ((pool.goTasks prop).push item))
    (coro : after.coro = pool.coro) (added : after.added = pool.added ++ item.task.toList)
    (executed : after.executed = pool.executed) : after.Stored := by
  have elsewhere {other : P} (apart : other ≠ prop) : after.waiting other = pool.waiting other := by
    rw [waiting, waiting, coro, goTasks, Function.update_of_ne apart]
  have nothing (drained : (pool.coro prop).drained = true) : item.callable = none := by
    cases task : item.task with
    | none => simp [SerialTask.callable, task]
    | some task' => cases drained.symm.trans (own task' task).2
  have items : ((pool.goTasks prop).push item).items.filterMap SerialTask.callable =
      (pool.goTasks prop).items.filterMap SerialTask.callable ++ item.callable.toList := by
    unfold CoChan.push
    split
    · rename_i closed
      rw [nothing (stored.closed prop closed), Option.toList_none, List.append_nil]
    · rw [List.filterMap_append]
      cases found : item.callable <;> simp [found]
  have here : after.waiting prop = pool.waiting prop ++ item.callable.toList := by
    rw [waiting, waiting, coro, goTasks, Function.update_self, items, List.append_assoc]
  refine ⟨fun other => ?_, by rw [executed]; exact stored.callable, fun other => ?_,
    fun other => ?_, fun other => ?_, fun other => ?_, fun other => ?_⟩
  · rw [executed, added, tasksOf, tasksOf, List.filter_append, ← tasksOf, ← tasksOf,
      ← stored.ordered other, List.append_assoc]
    congr 1
    by_cases same : other = prop
    · subst same
      rw [here]
      congr 1
      cases task : item.task with
      | none => simp [SerialTask.callable, task]
      | some task' =>
        have mine := (own task' task).1
        cases callable : task'.func <;> simp [SerialTask.callable, task, mine, callable]
    · rw [elsewhere same]
      cases task : item.task with
      | none => simp
      | some task' => simp [(own task' task).1, Ne.symm same]
  · rw [coro]
    by_cases same : other = prop
    · subst same
      intro drained
      rw [here, nothing drained, stored.drained other drained]
      rfl
    · rw [elsewhere same]
      exact stored.drained other
  · rw [coro, goTasks]
    by_cases same : other = prop
    · subst same
      rw [Function.update_self]
      intro closed
      apply stored.closed other
      unfold CoChan.push at closed
      split at closed <;> assumption
    · rw [Function.update_of_ne same]
      exact stored.closed other
  · rw [coro, props]
    exact stored.present other
  · rw [props, goTasks]
    intro absent
    have apart : other ≠ prop := by
      rintro rfl
      exact absent member
    rw [Function.update_of_ne apart]
    exact stored.absent other absent
  · rw [goTasks]
    by_cases same : other = prop
    · subst same
      rw [Function.update_self]
      intro entry inside
      unfold CoChan.push at inside
      split at inside
      · exact stored.kinds other entry inside
      · rcases List.mem_append.mp inside with old | new
        · exact stored.kinds other entry old
        · rw [List.mem_singleton.mp new]
          exact kind
    · rw [Function.update_of_ne same]
      exact stored.kinds other

/-- A call of `add_task` goes on. -/
theorem Sound.moveCaller [DecidableEq C] (sound : pool.Sound) {caller : C} {pc : ProducerPc P F}
    (pushing : ∀ prop func, pc = .push prop func → prop ∈ pool.props)
    (pushed : ∀ task, pc.task = some task → task ∈ pool.added) :
    (pool.moveCaller caller pc).Sound := by
  refine ⟨sound.stored.congr rfl rfl rfl rfl rfl, sound.fits, sound.shut, sound.left,
    fun other prop func here => ?_, fun other task here => ?_, sound.accepted⟩
  · have here : Function.update pool.caller caller pc other = .push prop func := here
    by_cases same : other = caller
    · rw [same, Function.update_self] at here
      exact pushing prop func here
    · rw [Function.update_of_ne same] at here
      exact sound.pushing other prop func here
  · have here : (Function.update pool.caller caller pc other).task = some task := here
    by_cases same : other = caller
    · rw [same, Function.update_self] at here
      exact pushed task here
    · rw [Function.update_of_ne same] at here
      exact sound.pushed other task here

theorem Sound.accept (sound : pool.Sound) {tasks : List (AddedTask P F)}
    (added : tasks ⊆ pool.added)
    (holder : Option (Option C)) : Sound { pool with accepted := pool.accepted ++ tasks, holder } :=
  ⟨sound.stored.congr rfl rfl rfl rfl rfl, sound.fits, sound.shut, sound.left, sound.pushing,
    sound.pushed, List.append_subset.mpr ⟨sound.accepted, added⟩⟩

theorem Sound.startProp (sound : pool.Sound) (prop : P) : (pool.startProp prop).Sound := by
  obtain ⟨added, _, accepted, caller, control, atomicSwitch⟩ := startProp_kept pool prop
  refine ⟨sound.stored.startProp, ?_, ?_, ?_, ?_, ?_, ?_⟩
  · rw [control, atomicSwitch]
    exact sound.fits
  · rw [Open, control, atomicSwitch]
    intro shut other
    rw [sound.stored.waiting_startProp]
    exact sound.shut shut other
  · rw [control]
    exact fun other left => mem_startProp.mpr (.inr (sound.left other left))
  · rw [caller]
    exact fun caller other func here => mem_startProp.mpr (.inr (sound.pushing caller other func here))
  · rw [caller, added]
    exact sound.pushed
  · rw [accepted, added]
    exact sound.accepted

/-- A task is pushed into the channel of an open pool that has not been drained. -/
theorem Sound.pushTask (sound : pool.Sound) (open' : pool.Open) (member : task.prop ∈ pool.props)
    (late : (pool.coro task.prop).drained = false) :
    Sound
      { pool.setChan task.prop ((pool.goTasks task.prop).push ⟨.notExit, some task⟩) with
        added := pool.added ++ [task] } := by
  let item : SerialTask P F := ⟨.notExit, some task⟩
  have own (other : AddedTask P F) (same : item.task = some other) :
      other.prop = task.prop ∧ (pool.coro task.prop).drained = false := by
    cases same
    exact ⟨rfl, late⟩
  refine ⟨?_, sound.fits, fun shut => absurd open' shut, sound.left, sound.pushing,
    fun caller task here => ?_, ?_⟩
  · exact sound.stored.push member (.inl rfl) own rfl rfl rfl rfl rfl
  · exact List.mem_append_left _ (sound.pushed caller task here)
  · exact fun task inside => List.mem_append_left _ (sound.accepted inside)

/-- The coroutine of a property takes a step. -/
theorem Sound.advance (sound : pool.Sound) (move : CoroMove pool after prop new) : after.Sound := by
  refine ⟨sound.stored.advance move, ?_, ?_, ?_, ?_, ?_, ?_⟩
  · rw [move.control, move.atomicSwitch]
    exact sound.fits
  · rw [Open, move.control, move.atomicSwitch]
    intro shut other
    have empty := sound.shut shut
    by_cases same : other = prop
    · subst same
      have split := (move.waits.symm.trans (empty other))
      exact (List.append_eq_nil_iff.mp split).2
    · rw [move.elsewhere same]
      exact empty other
  · rw [move.control, move.props]
    exact sound.left
  · rw [move.caller, move.props]
    exact sound.pushing
  · rw [move.caller, move.added]
    exact sound.pushed
  · rw [move.accepted, move.added]
    exact sound.accepted

variable [DecidableEq F] [DecidableEq C] {noLock closedReturns : Bool} {caller : C}
    {action : Action P F C}

/-- A step of a careful call of `add_task`. -/
theorem Sound.callerStep (sound : pool.Sound) (careful : pool.Careful (.caller caller))
    (taken : pool.callerStep noLock closedReturns caller = some after) : after.Sound := by
  cases here : pool.caller caller with
  | outside => simp [CoroSerialTaskPool.callerStep, here] at taken
  | startTest prop func pc =>
    simp only [CoroSerialTaskPool.callerStep, here] at taken
    cases taken
    cases pool.atomicSwitch.hasStarted pc with
    | goes pc => exact sound.moveCaller (by nofun) (by nofun)
    | returns started => cases started <;> exact sound.moveCaller (by nofun) (by nofun)
  | enter prop func =>
    simp only [CoroSerialTaskPool.callerStep, here] at taken
    split at taken
    · cases taken
      split
      · rename_i member
        refine sound.moveCaller (fun prop' func' same => ?_) (by nofun)
        cases same
        exact member
      · exact sound.moveCaller (by nofun) (by nofun)
    · split at taken <;> cases taken
      have held : Sound { pool with holder := some (some caller) } := by
        have held := sound.accept (List.nil_subset _) (some (some caller))
        rwa [List.append_nil] at held
      refine (held.startProp prop).moveCaller (fun prop' func' same => ?_) (by nofun)
      cases same
      exact mem_startProp.mpr (.inl rfl)
  | push prop func =>
    have member := sound.pushing caller prop func here
    simp only [Careful, here] at careful
    obtain ⟨open', late⟩ := careful
    simp only [CoroSerialTaskPool.callerStep, here] at taken
    cases taken
    let task : AddedTask P F := ⟨pool.added.length, prop, func⟩
    have pushed :
      Sound { pool.setChan task.prop ((pool.goTasks task.prop).push ⟨.notExit, some task⟩) with
        added := pool.added ++ [task] } := sound.pushTask open' member late
    split
    · refine pushed.moveCaller (by nofun) fun other same => ?_
      cases same
      exact List.mem_append_right _ List.mem_cons_self
    · refine pushed.moveCaller (by nofun) fun other same => ?_
      cases same
      exact List.mem_append_right _ List.mem_cons_self
  | pushed task =>
    have added := sound.pushed caller task (by rw [here]; rfl)
    simp only [CoroSerialTaskPool.callerStep, here] at taken
    split at taken <;> cases taken
    exact (sound.accept (by simpa using added) _).moveCaller (by nofun) (by nofun)
  | pushedClosed task =>
    have added := sound.pushed caller task (by rw [here]; rfl)
    simp only [CoroSerialTaskPool.callerStep, here] at taken
    split at taken <;> cases taken
    exact (sound.accept (by simpa using added) _).moveCaller (by nofun) (by nofun)

omit [DecidableEq F] [DecidableEq C] in
/-- A call of `init_props`, `start` or `stop` goes on. -/
theorem Sound.moveControl (sound : pool.Sound) {control : ControlPc P} {atomicSwitch : AtomicSwitch}
    {holder : Option (Option C)} {scheduling : Bool} {exited : P → Nat}
    (fits : Fits atomicSwitch control) (left : ∀ prop ∈ control.left, prop ∈ pool.props)
    (shut : pool.Open →
      (atomicSwitch.bstart = true ∧ control.halting = false) ∨ ∀ prop, pool.waiting prop = []) :
    Sound ({ pool with atomicSwitch, holder, scheduling, exited }.moveControl control) := by
  refine ⟨sound.stored.congr rfl rfl rfl rfl rfl, fits, fun now prop => ?_, left, sound.pushing,
    sound.pushed, sound.accepted⟩
  by_cases open' : pool.Open
  · exact (shut open').resolve_left now prop
  · exact sound.shut open' prop

omit [DecidableEq F] [DecidableEq C] in
/-- The switch stays as it is. -/
theorem Sound.stays (sound : pool.Sound) {control : ControlPc P}
    (fits : Fits pool.atomicSwitch control)
    (left : ∀ prop ∈ control.left, prop ∈ pool.props) (goes : control.halting = false) :
    (pool.moveControl control).Sound :=
  sound.moveControl fits left fun open' => .inl ⟨open'.1, goes⟩

omit [DecidableEq F] [DecidableEq C] in
/-- Where no coroutine is left, nothing waits. -/
theorem Sound.empty (sound : pool.Sound) (ended : ∀ prop ∈ pool.props, pool.coro prop = .ended)
    (prop : P) :
    pool.waiting prop = [] := by
  by_cases member : prop ∈ pool.props
  · apply sound.stored.drained
    rw [ended prop member]
    rfl
  · exact sound.stored.waiting_of_fresh member

omit [DecidableEq F] [DecidableEq C] in
/-- `stop(true)` pushes its marker. -/
theorem Sound.pushMarker (sound : pool.Sound) (member : prop ∈ pool.props) :
    Sound (pool.setChan prop ((pool.goTasks prop).push ⟨.exitWait, none⟩)) := by
  let marker : SerialTask P F := ⟨.exitWait, none⟩
  have own (task : AddedTask P F) (same : marker.task = some task) :
      task.prop = prop ∧ (pool.coro prop).drained = false := nomatch same
  have stored : Stored (pool.setChan prop ((pool.goTasks prop).push marker)) :=
    sound.stored.push member (.inr ⟨rfl, rfl⟩) own rfl rfl rfl (List.append_nil _).symm rfl
  refine ⟨stored, sound.fits, fun shut other => ?_, sound.left, sound.pushing, sound.pushed,
    sound.accepted⟩
  have all := (stored.ordered other).trans (sound.stored.ordered other).symm
  rw [sound.shut shut other] at all
  exact List.append_cancel_left all

omit [DecidableEq C] in
/-- A step of `init_props`, `start` or `stop`. -/
theorem Sound.controlStep (sound : pool.Sound)
    (taken : pool.controlStep noLock closedReturns = some after) :
    after.Sound := by
  have fits := sound.fits
  have left := sound.left
  -- A call that leaves the switch and is not halting keeps an open pool open.
  have stays {Goal : Prop} (open' : pool.Open) :
      (pool.atomicSwitch.bstart = true ∧ false = false) ∨ Goal :=
    .inl ⟨open'.1, rfl⟩
  have off {Goal : Prop} (unset : pool.atomicSwitch.bstart = false) (open' : pool.Open) : Goal :=
    nomatch unset.symm.trans open'.1
  cases here : pool.control with
  | idle => simp [CoroSerialTaskPool.controlStep, here] at taken
  | lockProps props =>
    rw [here] at fits
    simp only [CoroSerialTaskPool.controlStep, here] at taken
    split at taken
    · cases taken
      exact sound.moveControl fits nofun stays
    · split at taken <;> cases taken
      exact sound.moveControl fits nofun stays
  | startProps props =>
    rw [here] at fits
    simp only [CoroSerialTaskPool.controlStep, here] at taken
    cases props with
    | nil =>
      cases taken
      exact sound.moveControl fits nofun stays
    | cons prop rest =>
      cases taken
      have started := sound.startProp prop
      obtain ⟨_, _, _, _, _, atomicSwitch⟩ := startProp_kept pool prop
      rw [← atomicSwitch] at fits
      exact started.stays fits nofun rfl
  | init =>
    rw [here] at fits
    simp only [CoroSerialTaskPool.controlStep, here] at taken
    cases taken
    rcases fits with switch | switch
    · rw [switch]
      exact sound.moveControl rfl nofun (off (by rw [switch]; rfl))
    · rw [switch]
      exact sound.moveControl (.inr rfl) nofun fun _ => .inl ⟨rfl, rfl⟩
  | start pc =>
    rw [here] at fits
    simp only [CoroSerialTaskPool.controlStep, here] at taken
    cases taken
    have switch : pool.atomicSwitch = ⟨true, false, false⟩ := fits
    rw [switch]
    cases pc with
    | loadStop => exact sound.moveControl rfl nofun (off (by rw [switch]))
    | loadInit => exact sound.moveControl rfl nofun (off (by rw [switch]))
    | exchange => exact sound.moveControl rfl nofun (off (by rw [switch]))
  | goStart =>
    rw [here] at fits
    simp only [CoroSerialTaskPool.controlStep, here] at taken
    cases taken
    exact sound.moveControl (.inr fits) nofun stays
  | stop bwait pc =>
    rw [here] at fits
    simp only [CoroSerialTaskPool.controlStep, here] at taken
    cases taken
    cases pc with
    | loadInit =>
      obtain ⟨waits, switch | switch⟩ := fits
      · rw [switch]
        exact sound.moveControl (.inl rfl) nofun (off (by rw [switch]; rfl))
      · rw [switch]
        exact sound.moveControl ⟨waits, rfl⟩ nofun fun _ => .inl ⟨rfl, rfl⟩
    | loadStart =>
      obtain ⟨waits, switch⟩ := fits
      rw [switch]
      exact sound.moveControl ⟨waits, rfl⟩ nofun fun _ => .inl ⟨rfl, rfl⟩
    | exchange =>
      obtain ⟨waits, switch⟩ := fits
      rw [switch]
      exact sound.moveControl ⟨waits, rfl⟩ nofun fun _ => .inl ⟨rfl, rfl⟩
  | lockStop bwait =>
    rw [here] at fits
    simp only [CoroSerialTaskPool.controlStep, here] at taken
    split at taken
    · cases taken
      exact sound.moveControl fits (fun _ => id) stays
    · split at taken <;> cases taken
      exact sound.moveControl fits (fun _ => id) stays
  | push bwait props =>
    rw [here] at fits left
    obtain ⟨rfl, switch⟩ := fits
    simp only [CoroSerialTaskPool.controlStep, here] at taken
    cases props with
    | nil =>
      cases taken
      exact sound.moveControl switch nofun stays
    | cons prop rest =>
      cases taken
      have pushed := sound.pushMarker (left prop List.mem_cons_self)
      have later (prop : P) (member : prop ∈ rest) : prop ∈ pool.props :=
        left prop (List.mem_cons_of_mem _ member)
      apply pushed.stays
      · split <;> exact ⟨rfl, switch⟩
      · split <;> exact later
      · split <;> rfl
  | pushed bwait prop rest =>
    rw [here] at fits left
    simp only [CoroSerialTaskPool.controlStep, here] at taken
    obtain ⟨_, same⟩ := Option.ite_none_right_eq_some.mp taken
    cases same
    exact sound.stays fits left rfl
  | pushedClosed bwait prop rest =>
    rw [here] at fits left
    simp only [CoroSerialTaskPool.controlStep, here] at taken
    split at taken <;> cases taken
    exact sound.moveControl fits left stays
  | popExited bwait prop rest =>
    rw [here] at fits left
    simp only [CoroSerialTaskPool.controlStep, here] at taken
    split at taken <;> cases taken
    exact sound.moveControl fits left stays
  | isEmpty =>
    rw [here] at fits
    simp only [CoroSerialTaskPool.controlStep, here] at taken
    split at taken <;> cases taken
    rename_i ended
    exact sound.moveControl fits nofun fun _ => .inr (sound.empty ended)
  | schedulerStop =>
    rw [here] at fits
    simp only [CoroSerialTaskPool.controlStep, here] at taken
    cases taken
    exact sound.moveControl fits nofun fun open' => nomatch here ▸ open'.2
  | reset pc =>
    have halted {Goal : Prop} (open' : pool.Open) : Goal := by
      have going := open'.2
      rw [here] at going
      cases going
    rw [here] at fits
    simp only [CoroSerialTaskPool.controlStep, here] at taken
    cases taken
    cases pc with
    | storeStart =>
      have switch : pool.atomicSwitch = stopped := fits
      rw [switch]
      exact sound.moveControl rfl nofun halted
    | storeStop =>
      have switch : pool.atomicSwitch = ⟨true, false, true⟩ := fits
      rw [switch]
      exact sound.moveControl rfl nofun halted
    | storeInit =>
      have switch : pool.atomicSwitch = ⟨true, false, false⟩ := fits
      rw [switch]
      exact sound.moveControl (.inl rfl) nofun halted

omit [DecidableEq F] [DecidableEq C] in
theorem construct_sound (maxSingleTaskCount : Nat) :
    (construct maxSingleTaskCount : CoroSerialTaskPool P F C).Sound where
  stored := by constructor <;> simp [construct, waiting, CoroPc.calling, CoroPc.drained, tasksOf, CoChan.open']
  fits := .inl rfl
  shut _ _ := rfl
  left := nofun
  pushing := nofun
  pushed := nofun
  accepted := fun _ => id

/-- What is kept by every step of a careful run without a `stop(false)`. -/
theorem Sound.next (sound : pool.Sound) (permitted : pool.Permitted action)
    (taken : next noLock closedReturns pool action = some after) : after.Sound := by
  obtain ⟨graceful, careful⟩ := permitted
  have fits (idle : pool.control = .idle) :
      pool.atomicSwitch = .construct ∨ pool.atomicSwitch = .started := by
    have fits := sound.fits
    rwa [idle] at fits
  cases action with
  | initProps props =>
    obtain ⟨idle, same⟩ := Option.ite_none_right_eq_some.mp taken
    cases same
    exact sound.stays (fits idle) nofun rfl
  | start =>
    obtain ⟨idle, same⟩ := Option.ite_none_right_eq_some.mp taken
    cases same
    exact sound.stays (fits idle) nofun rfl
  | stop bwait =>
    obtain ⟨idle, same⟩ := Option.ite_none_right_eq_some.mp taken
    cases same
    exact sound.stays ⟨graceful, fits idle⟩ nofun rfl
  | control => exact sound.controlStep taken
  | add caller prop func =>
    obtain ⟨_, same⟩ := Option.ite_none_right_eq_some.mp taken
    cases same
    exact sound.moveCaller (by nofun) (by nofun)
  | caller caller => exact sound.callerStep careful taken
  | coro prop =>
    obtain ⟨new, move⟩ := sound.stored.coroMove taken
    exact sound.advance move

end Steps

end BTool.TaskPool.CoroSerialTaskPool
