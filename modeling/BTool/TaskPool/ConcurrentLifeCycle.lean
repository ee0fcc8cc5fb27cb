import BTool.Foundation.Transition
import BTool.TaskPool.ConcurrentSerialTaskPool

/-! What the switch, the threads and the tasks of a `ConcurrentSerialTaskPool` are at each point of its
calls of `start` and `stop`, in every run. -/

namespace BTool.TaskPool.ConcurrentSerialTaskPool

open BTool.Foundation BTool.TaskQueue

variable {P F C : Type}

/-- The switch has been started and stopped, and not been reset. -/
def stopped : AtomicSwitch := ⟨true, true, true⟩

/-- The worker has seen no sign that it should leave. -/
def WorkerPc.staying : WorkerPc P F → Bool
  | .outside => false
  | .sizeTest => false
  | .swap => false
  | _ => true

/-- Only callable functions are added. -/
def Action.Callable : Action P F C → Prop
  | .add _ _ func => func.isSome = true
  | _ => True

/-- No call of `start` or `stop`. -/
def Action.Within : Action P F C → Prop
  | .start => False
  | .stop _ => False
  | _ => True

def Action.Working : Action P F C → Prop
  | .worker _ _ => True
  | _ => False

instance (action : Action P F C) : Decidable action.Callable := by
  cases action <;> unfold Action.Callable <;> infer_instance

instance (action : Action P F C) : Decidable action.Within := by
  cases action <;> unfold Action.Within <;> infer_instance

/-- A thread of this property stays in its loop. -/
def Manned (pool : ConcurrentSerialTaskPool P F C) (prop : P) : Prop :=
  ∃ thread, pool.que thread = some prop ∧ (pool.worker thread).staying = true

def Gone (pool : ConcurrentSerialTaskPool P F C) : Prop := ∀ thread, pool.worker thread = .outside

/-- Started, with a thread for each property. -/
def Up (pool : ConcurrentSerialTaskPool P F C) : Prop :=
  pool.atomicSwitch = .started ∧ ∀ prop ∈ pool.props, pool.Manned prop

/-- Not started, or stopped for ever. -/
def Down (pool : ConcurrentSerialTaskPool P F C) : Prop :=
  (pool.atomicSwitch = .construct ∨ pool.atomicSwitch = stopped) ∧ pool.Gone

/-- What the switch and the threads are where the calls of `start` and `stop` are. -/
def Fits (pool : ConcurrentSerialTaskPool P F C) : ControlPc P → Prop
  | .start _ => pool.atomicSwitch = ⟨true, false, false⟩ ∧ pool.Gone
  | .sizeTest => pool.atomicSwitch = .started ∧ pool.Gone
  | .create rest =>
    pool.atomicSwitch = .started ∧ (∀ prop ∈ rest, prop ∈ pool.props) ∧
      ∀ prop ∈ pool.props, prop ∈ rest ∨ pool.Manned prop
  | .stop _ .loadStart => pool.Up ∨ (pool.atomicSwitch = stopped ∧ pool.Gone)
  | .stop _ .exchange => pool.Up ∨ (pool.atomicSwitch = stopped ∧ pool.Gone)
  | .reset .storeStart => pool.atomicSwitch = stopped
  | .reset .storeStop => pool.atomicSwitch = ⟨true, false, true⟩
  | .reset .storeInit => pool.atomicSwitch = ⟨true, false, false⟩
  | .join threads =>
    (pool.atomicSwitch = .construct ∨ pool.atomicSwitch = stopped) ∧
      ∀ thread, pool.worker thread ≠ .outside → thread ∈ threads
  | _ => pool.Up ∨ pool.Down

/-- Where a task is that has been accepted. -/
def Placed (pool : ConcurrentSerialTaskPool P F C) (task : AddedTask P F) : Prop :=
  task ∈ pool.executed ∨ task ∈ pool.dropped ∨ (∃ source, (source, task) ∈ pool.queues task.prop) ∨
    ∃ thread, pool.worker thread = .run task

/-- What is kept in every run. -/
structure Orderly (pool : ConcurrentSerialTaskPool P F C) : Prop where
  fits : pool.Fits pool.control
  owned : ∀ thread, pool.worker thread ≠ .outside → thread ∈ pool.consumers
  fresh : ∀ thread, pool.created ≤ thread → pool.worker thread = .outside
  serves : ∀ thread, pool.worker thread ≠ .outside → ∃ prop ∈ pool.props,
    pool.que thread = some prop
  swaps : ∀ thread, pool.worker thread = .swap → pool.atomicSwitch.binit = false
  found : ∀ caller prop func, pool.caller caller = .enqueue prop func → prop ∈ pool.props
  homed : ∀ prop, ∀ entry ∈ pool.queues prop, entry.2.prop = prop ∧ prop ∈ pool.props ∧
    entry.2 ∈ pool.accepted
  discarded : pool.dropped ⊆ pool.accepted
  accepted : ∀ task ∈ pool.accepted, pool.Placed task

section Steps

variable [DecidableEq P] [DecidableEq F] [DecidableEq C]
    {pool after : ConcurrentSerialTaskPool P F C}
  {caller source : C} {thread : Nat} {coreNum : UInt32} {action : Action P F C} {props : List P}

omit [DecidableEq P] [DecidableEq F] [DecidableEq C] in
/-- The call of `start` or `stop` goes on, and creates no thread. -/
theorem Orderly.moveControl (orderly : pool.Orderly) {control : ControlPc P}
    {atomicSwitch : AtomicSwitch} {consumers : List Nat}
    (fits : Fits ({ pool with atomicSwitch, consumers }.moveControl control) control)
    (owned : ∀ thread, pool.worker thread ≠ .outside → thread ∈ consumers)
    (binit : pool.atomicSwitch.binit = false → atomicSwitch.binit = false ∨ pool.Gone) :
    Orderly ({ pool with atomicSwitch, consumers }.moveControl control) := by
  refine ⟨fits, owned, orderly.fresh, orderly.serves, fun thread here => ?_, orderly.found,
    orderly.homed, orderly.discarded, orderly.accepted⟩
  rcases binit (orderly.swaps thread here) with unset | gone
  · exact unset
  · exact nomatch here.symm.trans (gone thread)

omit [DecidableEq P] [DecidableEq F] [DecidableEq C] in
theorem Orderly.createThread (orderly : pool.Orderly) {prop : P} {rest : List P}
    (here : pool.control = .create (prop :: rest)) :
    Orderly ((pool.createThread prop).moveControl (.create rest)) := by
  have fits := orderly.fits
  rw [here] at fits
  obtain ⟨switch, within, manned⟩ := fits
  have member : prop ∈ pool.props := within prop List.mem_cons_self
  have old {thread : Nat} (live : pool.worker thread ≠ .outside) : thread ≠ pool.created := by
    rintro rfl
    exact live (orderly.fresh _ (Nat.le_refl _))
  have que {thread : Nat} (apart : thread ≠ pool.created) :
      ((pool.createThread prop).moveControl (.create rest)).que thread = pool.que thread :=
    Function.update_of_ne apart _ _
  have worker {thread : Nat} (apart : thread ≠ pool.created) :
      ((pool.createThread prop).moveControl (.create rest)).worker thread = pool.worker thread :=
    Function.update_of_ne apart _ _
  have newQue : ((pool.createThread prop).moveControl (.create rest)).que pool.created = some prop :=
    Function.update_self ..
  have newWorker : ((pool.createThread prop).moveControl (.create rest)).worker pool.created = .tryDequeue :=
    Function.update_self ..
  refine ⟨⟨switch, fun held left => within held (List.mem_cons_of_mem _ left), fun held member => ?_⟩, ?_, ?_, ?_, ?_,
    orderly.found, orderly.homed, orderly.discarded, ?_⟩
  · rcases manned held member with left | ⟨thread, serves, stays⟩
    · rcases List.mem_cons.mp left with rfl | left
      · exact .inr ⟨pool.created, newQue, by rw [newWorker]; rfl⟩
      · exact .inl left
    · have apart : thread ≠ pool.created := by
        apply old
        intro outside
        simp [outside, WorkerPc.staying] at stays
      exact .inr ⟨thread, by rw [que apart, serves], by rw [worker apart, stays]⟩
  · intro thread live
    by_cases same : thread = pool.created
    · exact List.mem_append_right _ (List.mem_singleton.mpr same)
    · rw [worker same] at live
      exact List.mem_append_left _ (orderly.owned thread live)
  · intro thread late
    have later : pool.created + 1 ≤ thread := late
    rw [worker (by omega)]
    exact orderly.fresh thread (by omega)
  · intro thread live
    by_cases same : thread = pool.created
    · exact ⟨prop, member, by rw [same, newQue]⟩
    · rw [worker same] at live
      rw [que same]
      exact orderly.serves thread live
  · intro thread here
    by_cases same : thread = pool.created
    · rw [same, newWorker] at here
      cases here
    · rw [worker same] at here
      exact orderly.swaps thread here
  · intro task accepted
    rcases orderly.accepted task accepted with done | dropped | waits | ⟨thread, runs⟩
    · exact .inl done
    · exact .inr (.inl dropped)
    · exact .inr (.inr (.inl waits))
    · have apart : thread ≠ pool.created := old (by rw [runs]; nofun)
      exact .inr (.inr (.inr ⟨thread, by rw [worker apart, runs]⟩))

omit [DecidableEq C] in
theorem Orderly.controlStep (orderly : pool.Orderly)
    (few : pool.props.length ≤ (maxThreadNum coreNum).toNat)
    (taken : pool.controlStep coreNum = some after) : after.Orderly := by
  have fits := orderly.fits
  have on {Goal : Prop} (set : pool.atomicSwitch.binit = true)
      (unset : pool.atomicSwitch.binit = false) : Goal :=
    nomatch set.symm.trans unset
  cases here : pool.control with
  | idle => simp [ConcurrentSerialTaskPool.controlStep, here] at taken
  | init =>
    rw [here] at fits
    simp only [ConcurrentSerialTaskPool.controlStep, here, Option.some.injEq] at taken
    rw [← taken]
    rcases fits with ⟨switch, manned⟩ | ⟨switch | switch, gone⟩
    · rw [switch]
      exact orderly.moveControl (.inl ⟨rfl, manned⟩) orderly.owned (on (by rw [switch]; rfl))
    · rw [switch]
      exact orderly.moveControl ⟨rfl, gone⟩ orderly.owned fun _ => .inr gone
    · rw [switch]
      exact orderly.moveControl (.inr ⟨.inr rfl, gone⟩) orderly.owned fun _ => .inr gone
  | start pc =>
    rw [here] at fits
    obtain ⟨switch, gone⟩ := fits
    simp only [ConcurrentSerialTaskPool.controlStep, here, Option.some.injEq] at taken
    rw [← taken, switch]
    cases pc with
    | loadStop => exact orderly.moveControl ⟨rfl, gone⟩ orderly.owned fun _ => .inr gone
    | loadInit => exact orderly.moveControl ⟨rfl, gone⟩ orderly.owned fun _ => .inr gone
    | exchange => exact orderly.moveControl ⟨rfl, gone⟩ orderly.owned fun _ => .inr gone
  | sizeTest =>
    rw [here] at fits
    obtain ⟨switch, gone⟩ := fits
    simp only [ConcurrentSerialTaskPool.controlStep, here, Option.some.injEq] at taken
    rw [← taken, if_neg (by omega)]
    exact orderly.moveControl ⟨switch, fun _ member => member,
      fun _ member => .inl member⟩ orderly.owned .inl
  | create rest =>
    cases rest with
    | nil =>
      rw [here] at fits
      obtain ⟨switch, _, manned⟩ := fits
      simp only [ConcurrentSerialTaskPool.controlStep, here, Option.some.injEq] at taken
      rw [← taken]
      exact orderly.moveControl (.inl ⟨switch, fun prop member => (manned prop member).resolve_left (by simp)⟩)
        orderly.owned .inl
    | cons prop rest =>
      simp only [ConcurrentSerialTaskPool.controlStep, here, Option.some.injEq] at taken
      rw [← taken]
      exact orderly.createThread here
  | stop bwait pc =>
    rw [here] at fits
    simp only [ConcurrentSerialTaskPool.controlStep, here, Option.some.injEq] at taken
    rw [← taken]
    cases pc with
    | loadInit =>
      rcases fits with ⟨switch, manned⟩ | ⟨switch | switch, gone⟩
      · rw [switch]
        exact orderly.moveControl (.inl ⟨rfl, manned⟩) orderly.owned (on (by rw [switch]; rfl))
      · rw [switch]
        exact orderly.moveControl (.inr ⟨.inl rfl, gone⟩) orderly.owned fun _ => .inr gone
      · rw [switch]
        exact orderly.moveControl (.inr ⟨rfl, gone⟩) orderly.owned fun _ => .inr gone
    | loadStart =>
      rcases fits with ⟨switch, manned⟩ | ⟨switch, gone⟩
      · rw [switch]
        exact orderly.moveControl (.inl ⟨rfl, manned⟩) orderly.owned (on (by rw [switch]; rfl))
      · rw [switch]
        exact orderly.moveControl (.inr ⟨rfl, gone⟩) orderly.owned fun _ => .inr gone
    | exchange =>
      rcases fits with ⟨switch, manned⟩ | ⟨switch, gone⟩
      · rw [switch]
        cases bwait with
        | false => exact orderly.moveControl rfl orderly.owned (on (by rw [switch]; rfl))
        | true => exact orderly.moveControl ⟨.inr rfl, orderly.owned⟩ orderly.owned (on (by rw [switch]; rfl))
      · rw [switch]
        exact orderly.moveControl (.inr ⟨.inr rfl, gone⟩) orderly.owned fun _ => .inr gone
  | reset pc =>
    rw [here] at fits
    simp only [ConcurrentSerialTaskPool.controlStep, here, Option.some.injEq] at taken
    rw [← taken]
    cases pc with
    | storeStart =>
      have switch : pool.atomicSwitch = stopped := fits
      rw [switch]
      exact orderly.moveControl rfl orderly.owned (on (by rw [switch]; rfl))
    | storeStop =>
      have switch : pool.atomicSwitch = ⟨true, false, true⟩ := fits
      rw [switch]
      exact orderly.moveControl rfl orderly.owned (on (by rw [switch]))
    | storeInit =>
      have switch : pool.atomicSwitch = ⟨true, false, false⟩ := fits
      rw [switch]
      exact orderly.moveControl ⟨.inl rfl, orderly.owned⟩ orderly.owned (on (by rw [switch]))
  | join threads =>
    rw [here] at fits
    obtain ⟨switch, among⟩ := fits
    cases threads with
    | nil =>
      simp only [ConcurrentSerialTaskPool.controlStep, here, Option.some.injEq] at taken
      rw [← taken]
      have gone (thread : Nat) : pool.worker thread = .outside := by
        by_contra live
        exact List.not_mem_nil (among thread live)
      exact orderly.moveControl (.inr ⟨switch, gone⟩) (fun thread live => absurd (gone thread) live) .inl
    | cons first rest =>
      simp only [ConcurrentSerialTaskPool.controlStep, here] at taken
      obtain ⟨left, same⟩ := Option.ite_none_right_eq_some.mp taken
      cases same
      refine orderly.moveControl ⟨switch, fun thread live => ?_⟩ orderly.owned .inl
      apply (List.mem_cons.mp (among thread live)).resolve_left
      rintro rfl
      exact live left

omit [DecidableEq P] [DecidableEq F] in
theorem Orderly.moveCaller (orderly : pool.Orderly) {pc : ProducerPc P F}
    (found : ∀ prop func, pc = .enqueue prop func → prop ∈ pool.props) :
    (pool.moveCaller caller pc).Orderly := by
  refine ⟨orderly.fits, orderly.owned, orderly.fresh, orderly.serves, orderly.swaps, ?_,
    orderly.homed, orderly.discarded, orderly.accepted⟩
  intro other prop func here
  by_cases same : other = caller
  · simp only [ConcurrentSerialTaskPool.moveCaller, same, Function.update_self] at here
    exact found prop func here
  · simp only [ConcurrentSerialTaskPool.moveCaller, Function.update_of_ne same] at here
    exact orderly.found other prop func here

omit [DecidableEq F] [DecidableEq C] in
/-- A task is enqueued, and so accepted. -/
theorem Orderly.enqueue (orderly : pool.Orderly) {prop : P} {func : TaskItem F}
    (member : prop ∈ pool.props) :
    Orderly { pool with
      queues :=
        Function.update pool.queues prop ((pool.queues prop).enqueue caller ⟨pool.added, prop, func⟩)
      added := pool.added + 1
      accepted := pool.accepted ++ [⟨pool.added, prop, func⟩] } := by
  refine ⟨orderly.fits, orderly.owned, orderly.fresh, orderly.serves, orderly.swaps, orderly.found, ?_,
    List.subset_append_of_subset_left _ orderly.discarded, ?_⟩
  · intro other entry waits
    have old (before : entry ∈ pool.queues other) :
        entry.2.prop = other ∧ other ∈ pool.props ∧
        entry.2 ∈ pool.accepted ++ [⟨pool.added, prop, func⟩] := by
      obtain ⟨home, listed, known⟩ := orderly.homed other entry before
      exact ⟨home, listed, List.mem_append_left _ known⟩
    by_cases same : other = prop
    · subst same
      simp only [Function.update_self, ProducerQueue.enqueue, List.mem_append,
        List.mem_singleton] at waits
      rcases waits with before | rfl
      · exact old before
      · exact ⟨rfl, member, List.mem_append_right _ List.mem_cons_self⟩
    · simp only [Function.update_of_ne same] at waits
      exact old waits
  · intro task accepted
    rcases List.mem_append.mp accepted with before | now
    · rcases orderly.accepted task before with done | dropped | ⟨source, waits⟩ | runs
      · exact .inl done
      · exact .inr (.inl dropped)
      · refine .inr (.inr (.inl ⟨source, ?_⟩))
        by_cases same : task.prop = prop
        · simp only [same, Function.update_self]
          exact List.mem_append_left _ (same ▸ waits)
        · simpa only [Function.update_of_ne same] using waits
      · exact .inr (.inr (.inr runs))
    · obtain rfl := List.mem_singleton.mp now
      refine .inr (.inr (.inl ⟨caller, ?_⟩))
      simp [ProducerQueue.enqueue]

omit [DecidableEq F] in
theorem Orderly.callerStep (orderly : pool.Orderly) (taken : pool.callerStep caller = some after) :
    after.Orderly := by
  cases here : pool.caller caller with
  | outside => simp [ConcurrentSerialTaskPool.callerStep, here] at taken
  | startTest prop func pc =>
    simp only [ConcurrentSerialTaskPool.callerStep, here, Option.some.injEq] at taken
    rw [← taken]
    apply orderly.moveCaller
    intro other func
    cases pool.atomicSwitch.hasStarted pc with
    | goes pc => nofun
    | returns started => cases started <;> nofun
  | find prop func =>
    simp only [ConcurrentSerialTaskPool.callerStep, here, Option.some.injEq] at taken
    rw [← taken]
    apply orderly.moveCaller
    split
    · rename_i member
      rintro _ _ ⟨⟩
      exact member
    · nofun
  | enqueue prop func =>
    simp only [ConcurrentSerialTaskPool.callerStep, here, Option.some.injEq] at taken
    rw [← taken]
    exact (orderly.enqueue (orderly.found caller prop func here)).moveCaller nofun

omit [DecidableEq F] in
/-- What a producer leaves alone. -/
theorem kept_of_callerStep (taken : pool.callerStep caller = some after) :
    after.control = pool.control ∧ after.atomicSwitch = pool.atomicSwitch ∧
    after.executed = pool.executed ∧
      after.dropped = pool.dropped := by
  simp only [ConcurrentSerialTaskPool.callerStep] at taken
  split at taken <;> cases taken <;> exact ⟨rfl, rfl, rfl, rfl⟩

/-- What a step of a worker does to the tasks of its queue. -/
inductive Worked (pool : ConcurrentSerialTaskPool P F C) (thread : Nat) (prop : P) :
    ConcurrentSerialTaskPool P F C → Prop where
  | moves {pc : WorkerPc P F} (live : pool.worker thread ≠ .outside)
      (idle : ∀ task, pool.worker thread ≠ .run task) (next : ∀ task, pc ≠ .run task)
      (leaves : pc = .outside → pool.worker thread = .sizeTest ∧ pool.queues prop = [])
      (swaps : pc = .swap → pool.atomicSwitch.binit = false)
      (stays : pool.atomicSwitch = .started → (pool.worker thread).staying = true →
        pc.staying = true) :
      Worked pool thread prop (pool.moveWorker thread pc)
  | takes {source : C} {task : AddedTask P F} {rest : ProducerQueue C (AddedTask P F)}
      (here : pool.worker thread = .tryDequeue)
      (dequeued : (pool.queues prop).tryDequeue source = .item task rest) :
      Worked pool thread prop
        ({ pool with queues := Function.update pool.queues prop rest }.moveWorker thread (.run task))
  | runs {task : AddedTask P F} (here : pool.worker thread = .run task) (callable : task.func.isSome = true) :
      Worked pool thread prop ({ pool with executed := pool.executed ++ [task] }.moveWorker thread .initTest)
  | swapped (here : pool.worker thread = .swap) :
      Worked pool thread prop ({ pool with
        queues := Function.update pool.queues prop []
        dropped := pool.dropped ++ (pool.queues prop).map Prod.snd }.moveWorker thread .outside)

theorem worked_of_workerStep (taken : pool.workerStep thread source = some after) :
    ∃ prop, pool.que thread = some prop ∧ Worked pool thread prop after := by
  obtain ⟨prop, serves, step⟩ := Option.bind_eq_some_iff.mp taken
  refine ⟨prop, serves, ?_⟩
  cases here : pool.worker thread with
  | outside => simp [here] at step
  | tryDequeue =>
    simp only [here] at step
    split at step
    · cases step
    · cases step
      exact .moves (by simp [here]) (by simp [here]) nofun nofun nofun fun _ _ => rfl
    · rename_i dequeued
      cases step
      exact .takes here dequeued
  | run task =>
    simp only [here] at step
    obtain ⟨callable, same⟩ := Option.ite_none_right_eq_some.mp step
    cases same
    exact .runs here callable
  | stopTest pc =>
    simp only [here, Option.some.injEq] at step
    rw [← step]
    cases answer : pool.atomicSwitch.hasStoped pc with
    | goes later => exact .moves (by simp [here]) (by simp [here]) nofun nofun nofun fun _ _ => rfl
    | returns stoped =>
      cases stoped with
      | false => exact .moves (by simp [here]) (by simp [here]) nofun nofun nofun fun _ _ => rfl
      | true =>
        refine .moves (by simp [here]) (by simp [here]) nofun nofun nofun fun started _ => ?_
        rw [started] at answer
        cases pc <;> simp [AtomicSwitch.hasStoped, AtomicSwitch.started] at answer
  | sizeTest =>
    simp only [here, Option.some.injEq] at step
    rw [← step]
    split
    · rename_i empty
      exact .moves (by simp [here]) (by simp [here]) nofun (fun _ => ⟨here, empty⟩) nofun
        fun _ stays => by simp [here, WorkerPc.staying] at stays
    · exact .moves (by simp [here]) (by simp [here]) nofun nofun nofun fun _ _ => rfl
  | initTest =>
    simp only [here, Option.some.injEq] at step
    rw [← step]
    split
    · exact .moves (by simp [here]) (by simp [here]) nofun nofun nofun fun _ _ => rfl
    · rename_i unset
      refine .moves (by simp [here]) (by simp [here]) nofun nofun (fun _ => by simpa using unset)
        fun started _ => ?_
      rw [started] at unset
      exact absurd rfl unset
  | swap =>
    simp only [here, Option.some.injEq] at step
    rw [← step]
    exact .swapped here

omit [DecidableEq P] [DecidableEq F] [DecidableEq C] in
/-- A worker takes a step: none enters its loop, and who stays in it in a started pool does so. -/
theorem Fits.worked {control : ControlPc P} (fits : pool.Fits control)
    (atomicSwitch : after.atomicSwitch = pool.atomicSwitch) (props : after.props = pool.props)
    (que : after.que = pool.que)
    (live : ∀ other, after.worker other ≠ .outside → pool.worker other ≠ .outside)
    (stays : pool.atomicSwitch = .started → ∀ other, (pool.worker other).staying = true →
      (after.worker other).staying = true) : after.Fits control := by
  have gone (nobody : pool.Gone) : after.Gone := by
    intro other
    by_contra there
    exact live other there (nobody other)
  have manned (started : pool.atomicSwitch = .started) {prop : P} (manned : pool.Manned prop) :
      after.Manned prop := by
    obtain ⟨thread, serves, here⟩ := manned
    exact ⟨thread, que ▸ serves, stays started thread here⟩
  have up (up : pool.Up) : after.Up := by
    refine ⟨atomicSwitch.trans up.1, fun prop member => manned up.1 (up.2 prop (props ▸ member))⟩
  have down (down : pool.Down) : after.Down := ⟨atomicSwitch ▸ down.1, gone down.2⟩
  cases control with
  | start pc => exact ⟨atomicSwitch.trans fits.1, gone fits.2⟩
  | sizeTest => exact ⟨atomicSwitch.trans fits.1, gone fits.2⟩
  | create rest =>
    obtain ⟨started, within, others⟩ := fits
    refine ⟨atomicSwitch.trans started, props ▸ within, fun prop member => ?_⟩
    exact (others prop (props ▸ member)).imp_right (manned started)
  | stop bwait pc =>
    cases pc with
    | loadInit => exact fits.imp up down
    | loadStart => exact fits.imp up fun past => ⟨atomicSwitch.trans past.1, gone past.2⟩
    | exchange => exact fits.imp up fun past => ⟨atomicSwitch.trans past.1, gone past.2⟩
  | reset pc => cases pc <;> exact atomicSwitch.trans fits
  | join threads =>
    exact ⟨atomicSwitch ▸ fits.1, fun other there => fits.2 other (live other there)⟩
  | idle => exact fits.imp up down
  | init => exact fits.imp up down

omit [DecidableEq P] [DecidableEq F] [DecidableEq C] in
/-- The places of the workers after a step of one of them. -/
private theorem place_worked {pc : WorkerPc P F} (live : pool.worker thread ≠ .outside)
    (stays : pool.atomicSwitch = .started → (pool.worker thread).staying = true →
      pc.staying = true) :
    (∀ other, Function.update pool.worker thread pc other ≠ .outside → pool.worker other ≠ .outside) ∧
      (pool.atomicSwitch = .started → ∀ other, (pool.worker other).staying = true →
        (Function.update pool.worker thread pc other).staying = true) := by
  constructor
  · intro other there
    by_cases same : other = thread
    · exact same ▸ live
    · rwa [Function.update_of_ne same] at there
  · intro started other here
    by_cases same : other = thread
    · subst same
      rw [Function.update_self]
      exact stays started here
    · rwa [Function.update_of_ne same]

omit [DecidableEq P] [DecidableEq F] [DecidableEq C] in
/-- A worker takes a step. -/
theorem Orderly.advance (orderly : pool.Orderly) {pc : WorkerPc P F}
    {queues : P → ProducerQueue C (AddedTask P F)} {executed dropped : List (AddedTask P F)}
    (live : pool.worker thread ≠ .outside)
    (stays : pool.atomicSwitch = .started → (pool.worker thread).staying = true → pc.staying = true)
    (swaps : pc = .swap → pool.atomicSwitch.binit = false)
    (homed : ∀ prop, queues prop ⊆ pool.queues prop) (discarded : dropped ⊆ pool.accepted)
    (placed : ∀ task ∈ pool.accepted, pool.Placed task →
      Placed ({ pool with queues, executed, dropped }.moveWorker thread pc) task) :
    Orderly ({ pool with queues, executed, dropped }.moveWorker thread pc) := by
  obtain ⟨lives, stay⟩ := place_worked live stays
  refine ⟨orderly.fits.worked rfl rfl rfl lives stay,
    fun other there => orderly.owned other (lives other there), ?_,
    fun other there => orderly.serves other (lives other there), ?_, orderly.found,
    fun prop entry waits => orderly.homed prop entry (homed prop waits), discarded,
    fun task accepted => placed task accepted (orderly.accepted task accepted)⟩
  · intro other late
    by_contra there
    exact lives other there (orderly.fresh other late)
  · intro other here
    by_cases same : other = thread
    · subst same
      exact swaps (by simpa only [ConcurrentSerialTaskPool.moveWorker, Function.update_self] using here)
    · simp only [ConcurrentSerialTaskPool.moveWorker, Function.update_of_ne same] at here
      exact orderly.swaps other here

omit [DecidableEq F] [DecidableEq C] in
theorem update_subset {prop : P} {rest : ProducerQueue C (AddedTask P F)}
    (fewer : rest ⊆ pool.queues prop) (other : P) :
    Function.update pool.queues prop rest other ⊆ pool.queues other := by
  by_cases same : other = prop
  · subst same
    rwa [Function.update_self]
  · rw [Function.update_of_ne same]
    exact List.Subset.refl _

omit [DecidableEq P] [DecidableEq F] [DecidableEq C] in
theorem runs_elsewhere {pc : WorkerPc P F} {task : AddedTask P F}
    (idle : pool.worker thread ≠ .run task) (runs : ∃ other, pool.worker other = .run task) :
    ∃ other, Function.update pool.worker thread pc other = .run task := by
  obtain ⟨other, here⟩ := runs
  have apart : other ≠ thread := by
    rintro rfl
    exact idle here
  exact ⟨other, by rw [Function.update_of_ne apart, here]⟩

/-- A task that waits, and is not the one that is taken, goes on waiting. -/
theorem waits_taken {prop : P} {task other : AddedTask P F} {rest : ProducerQueue C (AddedTask P F)}
    (dequeued : (pool.queues prop).tryDequeue source = .item task rest) (apart : other ≠ task)
    (waits : ∃ source, (source, other) ∈ pool.queues other.prop) :
    ∃ source, (source, other) ∈ Function.update pool.queues prop rest other.prop := by
  obtain ⟨by', waits⟩ := waits
  refine ⟨by', ?_⟩
  by_cases same : other.prop = prop
  · rw [same, Function.update_self, (ProducerQueue.tryDequeue_eq_item dequeued).2]
    exact (List.mem_erase_of_ne fun pair => apart (congrArg Prod.snd pair)).mpr (same ▸ waits)
  · rwa [Function.update_of_ne same]

theorem Orderly.worked (orderly : pool.Orderly) {prop : P}
    (worked : Worked pool thread prop after) :
    after.Orderly := by
  cases worked with
  | moves live idle next leaves swaps stays =>
    refine orderly.advance live stays swaps (fun _ => List.Subset.refl _) orderly.discarded ?_
    rintro task _ (done | dropped | waits | runs)
    · exact .inl done
    · exact .inr (.inl dropped)
    · exact .inr (.inr (.inl waits))
    · exact .inr (.inr (.inr (runs_elsewhere (idle task) runs)))
  | @takes source task rest here dequeued =>
    obtain ⟨_, rfl⟩ := ProducerQueue.tryDequeue_eq_item dequeued
    refine orderly.advance (by simp [here]) (fun _ _ => rfl) nofun
      (update_subset (List.erase_subset ..)) orderly.discarded ?_
    rintro other _ (done | dropped | waits | runs)
    · exact .inl done
    · exact .inr (.inl dropped)
    · by_cases same : other = task
      · exact .inr (.inr (.inr ⟨thread, by rw [same]; exact Function.update_self ..⟩))
      · exact .inr (.inr (.inl (waits_taken dequeued same waits)))
    · exact .inr (.inr (.inr (runs_elsewhere (by simp [here]) runs)))
  | @runs task here _ =>
    refine orderly.advance (by simp [here]) (fun _ _ => rfl) nofun (fun _ => List.Subset.refl _)
      orderly.discarded ?_
    rintro other _ (done | dropped | waits | runs)
    · exact .inl (List.mem_append_left _ done)
    · exact .inr (.inl dropped)
    · exact .inr (.inr (.inl waits))
    · by_cases same : other = task
      · exact .inl (List.mem_append_right _ (List.mem_singleton.mpr same))
      · refine .inr (.inr (.inr (runs_elsewhere ?_ runs)))
        rw [here]
        exact fun both => same (WorkerPc.run.inj both).symm
  | swapped here =>
    refine orderly.advance (by simp [here]) (fun _ stays => by simp [here, WorkerPc.staying] at stays) nofun
      (update_subset (List.nil_subset _)) ?_ ?_
    · intro task
      simp only [List.mem_append, List.mem_map]
      rintro (before | ⟨entry, waits, rfl⟩)
      · exact orderly.discarded before
      · exact (orderly.homed prop entry waits).2.2
    · rintro task _ (done | dropped | ⟨source, waits⟩ | runs)
      · exact .inl done
      · exact .inr (.inl (List.mem_append_left _ dropped))
      · by_cases same : task.prop = prop
        · exact .inr (.inl (List.mem_append_right _ (List.mem_map_of_mem (f := Prod.snd) (same ▸ waits))))
        · refine .inr (.inr (.inl ⟨source, ?_⟩))
          show (source, task) ∈ Function.update pool.queues prop [] task.prop
          rwa [Function.update_of_ne same]
      · exact .inr (.inr (.inr (runs_elsewhere (by simp [here]) runs)))

theorem Orderly.next (orderly : pool.Orderly)
    (few : pool.props.length ≤ (maxThreadNum coreNum).toNat)
    (taken : next coreNum pool action = some after) : after.Orderly := by
  cases action with
  | start =>
    obtain ⟨here, same⟩ := Option.ite_none_right_eq_some.mp taken
    cases same
    have fits := orderly.fits
    rw [here] at fits
    exact orderly.moveControl fits orderly.owned .inl
  | stop bwait =>
    obtain ⟨here, same⟩ := Option.ite_none_right_eq_some.mp taken
    cases same
    have fits := orderly.fits
    rw [here] at fits
    exact orderly.moveControl fits orderly.owned .inl
  | control => exact orderly.controlStep few taken
  | add caller prop func =>
    obtain ⟨_, same⟩ := Option.ite_none_right_eq_some.mp taken
    cases same
    exact orderly.moveCaller nofun
  | caller caller => exact orderly.callerStep taken
  | worker thread source =>
    obtain ⟨prop, _, worked⟩ := worked_of_workerStep taken
    exact orderly.worked worked

theorem props_of_next (taken : next coreNum pool action = some after) :
    after.props = pool.props := by
  cases action with
  | start =>
    obtain ⟨_, same⟩ := Option.ite_none_right_eq_some.mp taken
    cases same
    rfl
  | stop bwait =>
    obtain ⟨_, same⟩ := Option.ite_none_right_eq_some.mp taken
    cases same
    rfl
  | control =>
    simp only [ConcurrentSerialTaskPool.next, ConcurrentSerialTaskPool.controlStep] at taken
    split at taken
    case h_10 =>
      obtain ⟨_, same⟩ := Option.ite_none_right_eq_some.mp taken
      cases same
      rfl
    all_goals cases taken; try rfl
  | add caller prop func =>
    obtain ⟨_, same⟩ := Option.ite_none_right_eq_some.mp taken
    cases same
    rfl
  | caller caller =>
    simp only [ConcurrentSerialTaskPool.next, ConcurrentSerialTaskPool.callerStep] at taken
    split at taken <;> cases taken <;> rfl
  | worker thread source =>
    obtain ⟨prop, _, worked⟩ := worked_of_workerStep taken
    cases worked <;> rfl

omit [DecidableEq P] [DecidableEq F] [DecidableEq C] in
theorem construct_orderly : (construct props : ConcurrentSerialTaskPool P F C).Orderly where
  fits := .inr ⟨.inl rfl, fun _ => rfl⟩
  owned := fun _ live => absurd rfl live
  fresh := fun _ _ => rfl
  serves := fun _ live => absurd rfl live
  swaps := nofun
  found := nofun
  homed := fun _ _ waits => nomatch waits
  discarded := List.nil_subset _
  accepted := fun _ accepted => nomatch accepted

end Steps

end BTool.TaskPool.ConcurrentSerialTaskPool
