import Mathlib.Data.Fintype.Basic
import BTool.Foundation.Locals
import BTool.Foundation.Transition
import BTool.TaskPool.CallSteps
import BTool.TaskPool.SerialTaskPool

/-! The life cycle of a pool under concurrent `start`, `stop` and `reset_thread_num` calls.

`start` sets the switch before it restarts the queue and creates the threads, so a `stop`
may overtake it. A run in which that never happens leaves the pool running or stopped
whenever no call is in progress. -/

namespace BTool.TaskPool

open BTool.Foundation

variable {Queue Add C : Type} [TQueueType Queue Add] [DecidableEq C]

namespace CallerPc

/-- Holding `m_bstop`. -/
def Stopping (pc : CallerPc Add) : Prop := 1 ≤ pc.stage ∧ pc.stage ≤ 5

/-- Between initialising and starting the switch, or in a `stop`. -/
def Switching (pc : CallerPc Add) : Prop := pc.starting = true ∨ 1 ≤ pc.stage

end CallerPc

namespace TaskPoolBase

variable {pool after : TaskPoolBase Queue Add C} {caller : C} {thread coreNum : Nat}
  {action : PoolAction Add C} {actions : List (PoolAction Add C)} {queue : Queue}
  {switch : AtomicSwitch} {callers : C → CallerPc Add} {before pc : CallerPc Add}

def Quiescent (pool : TaskPoolBase Queue Add C) : Prop :=
  ∀ caller, (pool.caller caller).quiet = true

/-- Started and not stopped, the queue too, with threads of the current version. -/
structure Running (pool : TaskPoolBase Queue Add C) : Prop where
  switched : pool.atomicSwitch = .started
  opened : TQueueType.bstop pool.taskQueue = false
  manned : ∃ thread ∈ pool.curThreads, pool.version thread = pool.curThreadVer ∧ pool.Live thread
  owned : ∀ thread, pool.Live thread → thread ∈ pool.curThreads

/-- Reset, the queue stopped, and no thread left. -/
structure Stopped (pool : TaskPoolBase Queue Add C) : Prop where
  switched : pool.atomicSwitch = .construct
  closed : TQueueType.bstop pool.taskQueue = true
  unmanned : ∀ thread, ¬ pool.Live thread
  released : pool.curThreads = []

/-- The queue is restarted and threads are created only while the switch is initialised,
and not behind a `stop` that has already stopped the queue or taken the threads. -/
structure OnTime (pool : TaskPoolBase Queue Add C) (caller : C) : Prop where
  restarting : (pool.caller caller).restarting = true → pool.atomicSwitch.binit = true ∧
    ∀ other, (pool.caller other).stage < 2
  creating : (pool.caller caller).creating = true → pool.atomicSwitch.binit = true ∧
    ∀ other, (pool.caller other).stage < 3

/-- The flags of the switch, and the calls that have still to change them. -/
structure SwitchLaw (switch : AtomicSwitch) (callers : C → CallerPc Add) : Prop where
  stopping : switch.bstop = true ↔ Somewhere CallerPc.Stopping callers
  alone : Alone CallerPc.Stopping callers
  begun : switch.binit = true → switch.bstart = false → Somewhere CallerPc.Switching callers
  slipped : switch.bstart = true →
    (switch.binit = false ∨ Somewhere (fun pc => 5 ≤ pc.stage) callers) →
    Somewhere (fun pc => pc.restarting = true) callers

/-- A step that keeps a thread where it is with respect to the switch. -/
private theorem SwitchLaw.move (law : SwitchLaw switch callers) (here : callers caller = before)
    (stopping : pc.Stopping ↔ before.Stopping) (late : 5 ≤ pc.stage → 5 ≤ before.stage)
    (switching : before.Switching → pc.Switching)
    (restarting : before.restarting = true → pc.restarting = true) :
    SwitchLaw switch (Function.update callers caller pc) where
  stopping := by
    subst here
    exact law.stopping.trans
      ⟨fun found => found.move stopping.mpr, fun found => found.back stopping.mp⟩
  alone := law.alone.move (here ▸ stopping.mp)
  begun := fun set unset => (law.begun set unset).move (here ▸ switching)
  slipped := fun set reason =>
    (law.slipped set (reason.imp_right fun found => found.back (here ▸ late))).move (here ▸ restarting)

private theorem SwitchLaw.initialise (law : SwitchLaw switch callers) {threadNum : Nat}
    (here : callers caller = .init threadNum) (unset : switch.binit = false) :
    SwitchLaw { switch with binit := true }
      (Function.update callers caller (.start threadNum .loadStop)) := by
  have kept : SwitchLaw switch (Function.update callers caller (.start threadNum .loadStop)) := law.move here
    (by simp [CallerPc.Stopping, CallerPc.stage]) (by simp [CallerPc.stage])
    (fun _ => .inl rfl) (by simp [CallerPc.restarting])
  exact ⟨kept.stopping, kept.alone, fun _ _ => .here (.inl rfl),
    fun set _ => kept.slipped set (.inl unset)⟩

/-- A `start` gives up only where the switch is on its way to a reset. -/
private theorem SwitchLaw.refuse (law : SwitchLaw switch callers)
    (here : (callers caller).starting = true)
    (reason : switch.bstop = true ∨ switch.binit = false ∨ switch.bstart = true) :
    SwitchLaw switch (Function.update callers caller .idle) := by
  obtain ⟨_, outer, settled, _, _⟩ := CallerPc.outer_of_starting here
  refine ⟨law.stopping.trans ⟨?_, ?_⟩, law.alone.move ?_, ?_, ?_⟩
  · exact fun found => found.move (by simp [CallerPc.Stopping, outer])
  · exact fun found => found.back (by simp [CallerPc.Stopping, CallerPc.stage])
  · simp [CallerPc.Stopping, CallerPc.stage]
  · intro set unset
    rcases reason with stopped | cleared | started
    · obtain ⟨other, stopping⟩ := law.stopping.mp stopped
      have advanced : Somewhere (fun pc : CallerPc Add => 1 ≤ pc.stage) callers := ⟨other, stopping.1⟩
      have kept : Somewhere (fun pc => 1 ≤ pc.stage) (Function.update callers caller .idle) :=
        advanced.move (by simp [outer])
      obtain ⟨other, stopping⟩ := kept
      exact ⟨other, .inr stopping⟩
    · simp [cleared] at set
    · simp [started] at unset
  · intro set late
    have before := law.slipped set (late.imp_right fun found => found.back (by simp [CallerPc.stage]))
    exact before.move (by simp [settled])

private theorem SwitchLaw.start (law : SwitchLaw switch callers) {threadNum : Nat}
    (here : (callers caller).starting = true) :
    SwitchLaw { switch with bstart := true }
      (Function.update callers caller (.queueStart threadNum)) := by
  have outer := (CallerPc.outer_of_starting here).2.1
  refine ⟨law.stopping.trans ⟨?_, ?_⟩, law.alone.move ?_, by simp, fun _ _ => .here rfl⟩
  · exact fun found => found.move (by simp [CallerPc.Stopping, outer])
  · exact fun found => found.back (by simp [CallerPc.Stopping, CallerPc.stage])
  · simp [CallerPc.Stopping, CallerPc.stage]

private theorem SwitchLaw.restart (law : SwitchLaw switch callers) {threadNum : Nat}
    (here : callers caller = .queueStart threadNum) (set : switch.binit = true)
    (early : ∀ other, (callers other).stage < 2) :
    SwitchLaw switch (Function.update callers caller (.createThread threadNum)) := by
  refine ⟨law.stopping.trans ⟨?_, ?_⟩, law.alone.move ?_, ?_, ?_⟩
  · exact fun found => found.move (by simp [here, CallerPc.Stopping, CallerPc.stage])
  · exact fun found => found.back (by simp [CallerPc.Stopping, CallerPc.stage])
  · simp [CallerPc.Stopping, CallerPc.stage]
  · intro set unset
    exact (law.begun set unset).move
      (by simp [here, CallerPc.Switching, CallerPc.starting, CallerPc.stage])
  · rintro _ (cleared | late)
    · simp [cleared] at set
    · obtain ⟨other, past⟩ := late.back (fun past => by simp [CallerPc.stage] at past)
      have := early other
      omega

private theorem SwitchLaw.stop (law : SwitchLaw switch callers) {bwait : Bool}
    (here : callers caller = .stop bwait .exchange) (unset : switch.bstop = false) :
    SwitchLaw { switch with bstop := true }
      (Function.update callers caller (.queueStop bwait)) := by
  have nobody : ¬ Somewhere CallerPc.Stopping callers := by simp [← law.stopping, unset]
  have now : (CallerPc.queueStop bwait : CallerPc Add).Stopping := by
    simp [CallerPc.Stopping, CallerPc.stage]
  refine ⟨⟨fun _ => .here now, fun _ => rfl⟩, .enter nobody, fun _ _ => .here (.inr now.1), ?_⟩
  intro set late
  have before := law.slipped set (late.imp_right fun found => found.back (by simp [CallerPc.stage]))
  exact before.move (by simp [here, CallerPc.restarting])

omit [DecidableEq C] in
private theorem switching_reset (pc : AtomicSwitch.ResetPc) : (CallerPc.reset pc : CallerPc Add).Switching := by
  right
  cases pc <;> simp [CallerPc.stage]

private theorem SwitchLaw.storeStart (law : SwitchLaw switch callers)
    (here : callers caller = .reset .storeStart) :
    SwitchLaw { switch with bstart := false }
      (Function.update callers caller (.reset .storeStop)) := by
  refine ⟨law.stopping.trans ⟨?_, ?_⟩, law.alone.move ?_, fun _ _ => .here (switching_reset _), ?_⟩
  · exact fun found => found.move (by simp [CallerPc.Stopping, CallerPc.stage])
  · exact fun found => found.back (by simp [here, CallerPc.Stopping, CallerPc.stage])
  · simp [here, CallerPc.Stopping, CallerPc.stage]
  · exact fun set => nomatch set

private theorem SwitchLaw.storeStop (law : SwitchLaw switch callers)
    (here : callers caller = .reset .storeStop) :
    SwitchLaw { switch with bstop := false }
      (Function.update callers caller (.reset .storeInit)) := by
  have gone : ¬ Somewhere CallerPc.Stopping (Function.update callers caller (.reset .storeInit)) :=
    law.alone.gone (by simp [here, CallerPc.Stopping, CallerPc.stage]) (by simp [CallerPc.Stopping, CallerPc.stage])
  refine ⟨⟨fun set => (nomatch set), fun found => absurd found gone⟩, law.alone.move ?_,
    fun _ _ => .here (switching_reset _), ?_⟩
  · simp [CallerPc.Stopping, CallerPc.stage]
  · intro set late
    have before := law.slipped set
      (late.imp_right fun found => found.back (by simp [here, CallerPc.stage]))
    exact before.move (by simp [here, CallerPc.restarting])

private theorem SwitchLaw.storeInit (law : SwitchLaw switch callers)
    (here : callers caller = .reset .storeInit) :
    SwitchLaw { switch with binit := false } (Function.update callers caller .idle) := by
  refine ⟨law.stopping.trans ⟨?_, ?_⟩, law.alone.move ?_, fun set => (nomatch set), ?_⟩
  · exact fun found => found.move (by simp [here, CallerPc.Stopping, CallerPc.stage])
  · exact fun found => found.back (by simp [CallerPc.Stopping, CallerPc.stage])
  · simp [CallerPc.Stopping, CallerPc.stage]
  · intro set _
    have before := law.slipped set (.inr ⟨caller, by simp [here, CallerPc.stage]⟩)
    exact before.move (by simp [here, CallerPc.restarting])

/-- In a run whose steps are on time the flags never outlive the calls they belong to. -/
theorem SwitchLaw.moved (law : SwitchLaw pool.atomicSwitch pool.caller)
    (onTime : pool.OnTime caller) (moved : Moved coreNum pool caller after) :
    SwitchLaw after.atomicSwitch after.caller := by
  cases moved with
  | along alike =>
    apply law.move rfl
    · simp [CallerPc.Stopping, alike.stage]
    · simp [alike.stage]
    · simp [CallerPc.Switching, alike.stage, alike.starting]
    · simp [alike.restarting]
  | initialised here unset => exact law.initialise here unset
  | refused here reason => exact law.refuse here reason
  | started here _ => exact law.start here
  | queueStarted here =>
    obtain ⟨set, early⟩ := onTime.restarting (by rw [here]; rfl)
    exact law.restart here set early
  | stopped here unset => exact law.stop here unset
  | storeStart here => exact law.storeStart here
  | storeStop here => exact law.storeStop here
  | storeInit here => exact law.storeInit here
  | _ here =>
    refine law.move here ?_ ?_ ?_ ?_ <;>
      simp [CallerPc.Stopping, CallerPc.Switching, CallerPc.stage, CallerPc.starting, CallerPc.restarting]

/-- What a `stop` closes on its way: from that stage on, and while the switch is reset, it
is closed, unless the pool has never been started. -/
structure Closed (limit : Nat) (binit : Bool) (closed : Prop) (ver : Nat)
    (callers : C → CallerPc Add) : Prop where
  closes : Everywhere (fun pc => limit ≤ pc.stage → closed) callers
  reset : binit = false → closed ∨ ver = 0

section Closed

variable {limit ver : Nat} {binit : Bool} {closed : Prop}

/-- A call that is on time may open what no `stop` has come to close. -/
private theorem Closed.of_early (set : binit = true) (early : ∀ other, (callers other).stage < limit)
    (outer : pc.stage < limit) : Closed limit binit closed ver (Function.update callers caller pc) where
  closes := by
    have always : Everywhere (fun pc : CallerPc Add => pc.stage < limit) callers := early
    have kept : Everywhere (fun pc => pc.stage < limit) (Function.update callers caller pc) :=
      always.move outer
    intro other late
    exact absurd (kept other) (Nat.not_lt.mpr late)
  reset := by simp [set]

private theorem Closed.moved
    (law : Closed limit pool.atomicSwitch.binit closed pool.curThreadVer pool.caller)
    (moved : Moved coreNum pool caller after) (bounded : limit ≤ 6)
    (stays : limit ≤ (after.caller caller).stage → limit ≤ (pool.caller caller).stage)
    (version : after.curThreadVer = pool.curThreadVer) :
    Closed limit after.atomicSwitch.binit closed after.curThreadVer after.caller where
  closes := by
    rw [caller_of_moved moved]
    exact law.closes.move fun late => law.closes caller (stays late)
  reset := by
    intro unset
    rcases binit_of_moved moved unset with before | here
    · rw [version]
      exact law.reset before
    · exact .inl (law.closes caller (by rw [here]; exact bounded))

end Closed

/-- Whether the queue is stopped, and the calls that have still to restart it. -/
structure QueueLaw (pool : TaskPoolBase Queue Add C) : Prop where
  closed : Closed 2 pool.atomicSwitch.binit (TQueueType.bstop pool.taskQueue = true)
    pool.curThreadVer pool.caller
  reopens : pool.atomicSwitch.bstart = true → TQueueType.bstop pool.taskQueue = true →
    Somewhere (fun pc => pc.restarting = true ∨ (2 ≤ pc.stage ∧ pc.stage ≤ 4)) pool.caller

private theorem QueueLaw.closed_moved (law : QueueLaw pool) (onTime : pool.OnTime caller)
    (moved : Moved coreNum pool caller after) :
    Closed 2 after.atomicSwitch.binit (TQueueType.bstop after.taskQueue = true)
      after.curThreadVer after.caller := by
  have kept := law.closed.moved moved (by omega)
  cases moved with
  | along alike => exact kept (by simp [moveCaller, alike.stage]) rfl
  | queueStarted here =>
    obtain ⟨set, early⟩ := onTime.restarting (by rw [here]; rfl)
    exact .of_early set early (by simp [CallerPc.stage])
  | created here =>
    obtain ⟨set, _⟩ := onTime.creating (by rw [here]; rfl)
    refine ⟨law.closed.closes.move (by simp [CallerPc.stage]), ?_⟩
    simp [moveCaller, createThread, set]
  | queueStopped here =>
    have shut := TQueueType.bstop_stop pool.taskQueue
    exact ⟨fun _ _ => shut _, fun _ => .inl (shut _)⟩
  | added here =>
    simpa only [moveCaller, TQueueType.bstop_addTask] using
      kept (by simp [moveCaller, CallerPc.stage]) rfl
  | swapped here => exact kept (by simp [moveCaller, here, CallerPc.stage]) rfl
  | joined here _ => exact kept (by simp [moveCaller, here, CallerPc.stage]) rfl
  | released here => exact kept (by simp [moveCaller, here, CallerPc.stage]) rfl
  | storeStart here => exact kept (by simp [moveCaller, here, CallerPc.stage]) rfl
  | storeStop here => exact kept (by simp [moveCaller, here, CallerPc.stage]) rfl
  | _ => exact kept (by simp [moveCaller, CallerPc.stage]) rfl

theorem QueueLaw.moved (law : QueueLaw pool) (onTime : pool.OnTime caller)
    (moved : Moved coreNum pool caller after) : QueueLaw after := by
  refine ⟨law.closed_moved onTime moved, fun set shut => ?_⟩
  cases moved with
  | along alike => exact (law.reopens set shut).move (by simp [alike.stage, alike.restarting])
  | started => exact .here (.inl rfl)
  | queueStarted => simp [moveCaller, TQueueType.bstop_start] at shut
  | queueStopped => exact .here (.inr (by simp [CallerPc.stage]))
  | storeStart => cases set
  | refused here _ =>
    obtain ⟨_, stage, restarting, _, _⟩ := CallerPc.outer_of_starting here
    exact (law.reopens set shut).move (by simp [stage, restarting])
  | added here =>
    simp only [moveCaller, TQueueType.bstop_addTask] at shut
    exact (law.reopens set shut).move (by simp [here, CallerPc.stage, CallerPc.restarting])
  | _ here =>
    exact (law.reopens set shut).move (by simp [here, CallerPc.stage, CallerPc.restarting])

/-- Whether the threads have been taken, and who keeps a started pool going. -/
structure ThreadLaw (pool : TaskPoolBase Queue Add C) : Prop where
  closed : Closed 3 pool.atomicSwitch.binit (pool.curThreads = []) pool.curThreadVer pool.caller
  manned : pool.atomicSwitch = .started →
    (∃ thread ∈ pool.curThreads, pool.version thread = pool.curThreadVer ∧
      (pool.worker thread).staying = true) ∨
    Somewhere (fun pc => pc.restarting = true ∨ pc.creating = true) pool.caller

private theorem ThreadLaw.closed_moved (law : ThreadLaw pool) (onTime : pool.OnTime caller)
    (moved : Moved coreNum pool caller after) :
    Closed 3 after.atomicSwitch.binit (after.curThreads = []) after.curThreadVer after.caller := by
  have kept := law.closed.moved moved (by omega)
  cases moved with
  | along alike => exact kept (by simp [moveCaller, alike.stage]) rfl
  | created here =>
    obtain ⟨set, early⟩ := onTime.creating (by rw [here]; rfl)
    exact .of_early set early (by simp [CallerPc.stage])
  | swapped => exact ⟨fun _ _ => rfl, fun _ => .inl rfl⟩
  | joined here _ => exact kept (by simp [moveCaller, here, CallerPc.stage]) rfl
  | released here => exact kept (by simp [moveCaller, here, CallerPc.stage]) rfl
  | storeStart here => exact kept (by simp [moveCaller, here, CallerPc.stage]) rfl
  | storeStop here => exact kept (by simp [moveCaller, here, CallerPc.stage]) rfl
  | _ => exact kept (by simp [moveCaller, CallerPc.stage]) rfl

omit [TQueueType Queue Add] [DecidableEq C] in
private theorem threadCount_pos (cores : 0 < coreNum) (threadNum : Nat) :
    0 < threadCount coreNum threadNum := by
  unfold threadCount maxThread
  dsimp only
  split <;> split <;> omega

theorem ThreadLaw.moved (law : ThreadLaw pool)
    (switchLaw : SwitchLaw pool.atomicSwitch pool.caller) (cores : 0 < coreNum)
    (onTime : pool.OnTime caller) (moved : Moved coreNum pool caller after) : ThreadLaw after := by
  refine ⟨law.closed_moved onTime moved, fun started => ?_⟩
  have slips (set : pool.atomicSwitch.bstart = true)
      (reason : pool.atomicSwitch.binit = false ∨
        Somewhere (fun pc => 5 ≤ pc.stage) pool.caller) :
      Somewhere (fun pc : CallerPc Add => pc.restarting = true ∨ pc.creating = true) pool.caller := by
    obtain ⟨other, restarting⟩ := switchLaw.slipped set reason
    exact ⟨other, .inl restarting⟩
  cases moved with
  | along alike =>
    refine (law.manned started).imp_right fun found => found.move ?_
    exact Or.imp (fun was => alike.restarting.trans was) alike.creating
  | initialised here unset =>
    have set := congrArg AtomicSwitch.bstart started
    exact .inr ((slips set (.inl unset)).move (by simp [here, CallerPc.restarting, CallerPc.creating]))
  | started => exact .inr (.here (.inl rfl))
  | queueStarted => exact .inr (.here (.inr rfl))
  | @created threadNum here =>
    have fresh : pool.created ∈ List.range' pool.created (threadCount coreNum threadNum) := by
      have := threadCount_pos cores threadNum
      simpa
    exact .inl ⟨pool.created, List.mem_append_right _ fresh, if_pos fresh,
      (congrArg WorkerPc.staying (if_pos fresh) : _ = WorkerPc.staying (.stopTest .loadInit))⟩
  | stopped => cases congrArg AtomicSwitch.bstop started
  | storeStart => cases congrArg AtomicSwitch.bstart started
  | storeInit => cases congrArg AtomicSwitch.binit started
  | storeStop here =>
    have set := congrArg AtomicSwitch.bstart started
    have late : Somewhere (fun pc : CallerPc Add => 5 ≤ pc.stage) pool.caller :=
      ⟨caller, by simp [here, CallerPc.stage]⟩
    exact .inr ((slips set (.inr late)).move (by simp [here, CallerPc.restarting, CallerPc.creating]))
  | swapped here =>
    have stopping := switchLaw.stopping.mpr ⟨caller, by simp [here, CallerPc.Stopping, CallerPc.stage]⟩
    have unset : pool.atomicSwitch.bstop = false := congrArg AtomicSwitch.bstop started
    simp [stopping] at unset
  | refused here _ =>
    obtain ⟨_, _, restarting, creating, _⟩ := CallerPc.outer_of_starting here
    exact (law.manned started).imp_right fun found => found.move (by simp [restarting, creating])
  | _ here =>
    exact (law.manned started).imp_right fun found =>
      found.move (by simp [here, CallerPc.restarting, CallerPc.creating])

/-- What is kept in a run whose steps are on time. -/
structure Orderly (pool : TaskPoolBase Queue Add C) : Prop where
  switch : SwitchLaw pool.atomicSwitch pool.caller
  queue : QueueLaw pool
  threads : ThreadLaw pool
  owned : Owned pool

omit [DecidableEq C] in
theorem construct_orderly : Orderly (construct queue : TaskPoolBase Queue Add C) where
  switch := by
    refine ⟨?_, ?_, fun set => (nomatch set), fun set => (nomatch set)⟩
    · simp [construct, AtomicSwitch.construct, Somewhere, CallerPc.Stopping, CallerPc.stage]
    · intro first second firstStops
      simp [construct, CallerPc.Stopping, CallerPc.stage] at firstStops
  queue := ⟨⟨fun _ late => by simp [construct, CallerPc.stage] at late, fun _ => .inr rfl⟩,
    fun set => (nomatch set)⟩
  threads := ⟨⟨fun _ late => by simp [construct, CallerPc.stage] at late, fun _ => .inr rfl⟩,
    fun started => by simp [construct, AtomicSwitch.construct, AtomicSwitch.started] at started⟩
  owned := fun thread live => absurd rfl live

theorem Orderly.moved (orderly : Orderly pool) (cores : 0 < coreNum) (onTime : pool.OnTime caller)
    (moved : Moved coreNum pool caller after) : Orderly after where
  switch := orderly.switch.moved onTime moved
  queue := orderly.queue.moved onTime moved
  threads := orderly.threads.moved orderly.switch cores onTime moved
  owned := orderly.owned.moved moved

omit [DecidableEq C] in
theorem Orderly.worked (orderly : Orderly pool) (worked : Worked pool thread after) :
    Orderly after := by
  have around := worked.around
  refine ⟨?_, ⟨?_, ?_⟩, ⟨?_, ?_⟩, orderly.owned.worked worked⟩
  · rw [around.atomicSwitch, around.caller]
    exact orderly.switch
  · rw [around.atomicSwitch, around.bstop, around.curThreadVer, around.caller]
    exact orderly.queue.closed
  · rw [around.atomicSwitch, around.bstop, around.caller]
    exact orderly.queue.reopens
  · rw [around.atomicSwitch, around.curThreads, around.curThreadVer, around.caller]
    exact orderly.threads.closed
  · rw [around.atomicSwitch, around.curThreads, around.version, around.curThreadVer, around.caller]
    intro started
    apply (orderly.threads.manned started).imp_left
    rintro ⟨other, member, current, stays⟩
    refine ⟨other, member, current, ?_⟩
    by_cases same : other = thread
    · subst same
      exact staying_worked started current stays worked
    · rw [around.worker other same]
      exact stays

/-- Steps of workers and beginnings of calls are always on time. -/
def InTime (pool : TaskPoolBase Queue Add C) : PoolAction Add C → Prop
  | .caller caller => pool.OnTime caller
  | _ => True

instance [Fintype C] (pool : TaskPoolBase Queue Add C) (action : PoolAction Add C) :
    Decidable (pool.InTime action) := by
  cases action with
  | caller caller =>
    exact decidable_of_iff
      (((pool.caller caller).restarting = true → pool.atomicSwitch.binit = true ∧
          ∀ other, (pool.caller other).stage < 2) ∧
        ((pool.caller caller).creating = true → pool.atomicSwitch.binit = true ∧
          ∀ other, (pool.caller other).stage < 3))
      ⟨fun both => ⟨both.1, both.2⟩, fun both => ⟨both.1, both.2⟩⟩
  | _ => exact .isTrue trivial

theorem Orderly.step (orderly : Orderly pool) (cores : 0 < coreNum) (inTime : pool.InTime action)
    (taken : pool.next coreNum action = some after) : Orderly after := by
  cases action with
  | call caller operation =>
    have idle : pool.caller caller = .idle := by
      simp only [next] at taken
      split at taken
      · assumption
      · cases taken
    have onTime : pool.OnTime caller := by
      constructor <;> simp [idle, CallerPc.restarting, CallerPc.creating]
    exact orderly.moved cores onTime (moved_of_call taken)
  | caller caller => exact orderly.moved cores inTime (moved_of_callStep taken)
  | worker thread => exact orderly.worked (worked_of_threadFun taken)

omit [DecidableEq C] in
/-- With no call in progress the flags, the queue and the threads agree. -/
theorem Orderly.settled (orderly : Orderly pool) (quiescent : pool.Quiescent)
    (launched : pool.curThreadVer ≠ 0) : pool.Running ∨ pool.Stopped := by
  have outer (caller : C) := (CallerPc.outer_of_quiet (quiescent caller)).2
  have inCur (thread : Nat) (live : pool.Live thread) : thread ∈ pool.curThreads := by
    rcases orderly.owned thread live with mine | ⟨caller, joins⟩
    · exact mine
    · simp [(outer caller).2.2.2.2] at joins
  have unstopped : pool.atomicSwitch.bstop = false := by
    by_contra set
    obtain ⟨caller, stopping⟩ := orderly.switch.stopping.mp (by simpa using set)
    have := (outer caller).1
    have := stopping.1
    omega
  cases start : pool.atomicSwitch.bstart with
  | true =>
    left
    have idle (found : Somewhere (fun pc : CallerPc Add => pc.restarting = true) pool.caller) : False := by
      obtain ⟨caller, restarting⟩ := found
      simp [(outer caller).2.2.1] at restarting
    have set : pool.atomicSwitch.binit = true := by
      by_contra unset
      exact idle (orderly.switch.slipped start (.inl (by simpa using unset)))
    have started : pool.atomicSwitch = .started := AtomicSwitch.ext set start unstopped
    refine ⟨started, ?_, ?_, inCur⟩
    · by_contra shut
      obtain ⟨caller, restarting | late⟩ := orderly.queue.reopens start (by simpa using shut)
      · exact idle ⟨caller, restarting⟩
      · have := (outer caller).1
        omega
    · rcases orderly.threads.manned started with ⟨thread, member, current, stays⟩ | ⟨caller, creates⟩
      · refine ⟨thread, member, current, fun gone => ?_⟩
        simp [gone, WorkerPc.staying] at stays
      · simp [(outer caller).2.2.1, (outer caller).2.2.2.1] at creates
  | false =>
    right
    have unset : pool.atomicSwitch.binit = false := by
      by_contra set
      obtain ⟨caller, switching⟩ := orderly.switch.begun (by simpa using set) start
      simp [CallerPc.Switching, (outer caller).1, (outer caller).2.1] at switching
    have released := (orderly.threads.closed.reset unset).resolve_right launched
    refine ⟨AtomicSwitch.ext unset start unstopped,
      (orderly.queue.closed.reset unset).resolve_right launched, fun thread live => ?_, released⟩
    simpa [released] using inCur thread live

/-- In every run in which no call of `start` or `reset_thread_num` restarts the queue or
creates threads behind a `stop`, a pool that has been started is running or stopped
whenever no call is in progress. -/
theorem running_or_stopped (cores : 0 < coreNum)
    (path : Path (Guarded (Taken (next coreNum)) InTime)
      (construct queue : TaskPoolBase Queue Add C) actions pool)
    (quiescent : pool.Quiescent) (launched : pool.curThreadVer ≠ 0) :
    pool.Running ∨ pool.Stopped := by
  have orderly : Orderly pool := path.invariant Orderly
    (fun _ _ _ orderly ⟨inTime, taken⟩ => orderly.step cores inTime taken) construct_orderly
  exact orderly.settled quiescent launched

/-- One thread starts the pool while another one, refused at first, stops it and waits for
the worker. -/
def startStop : List (PoolAction (Nat × TaskQueue.TaskItem Nat) (Fin 2)) :=
  List.flatten
    [[.call 0 (.start 1), .call 1 (.stop false), .caller 0], List.replicate 2 (.caller 1),
      List.replicate 5 (.caller 0), [.call 1 (.stop false)], List.replicate 5 (.caller 1),
      List.replicate 4 (.worker 0), List.replicate 5 (.caller 1)]

theorem running_or_stopped_start_stop :
    ∃ pool, Path (Guarded (Taken (next 1)) InTime)
      (construct (.init 0) : SerialTaskPool Nat Nat (Fin 2)) startStop pool ∧
      (pool.Running ∨ pool.Stopped) := by
  have runs : ∃ pool ∈ exec (checked (next 1) InTime)
      (construct (.init 0) : SerialTaskPool Nat Nat (Fin 2)) startStop,
      (∀ caller, (pool.caller caller).quiet = true) ∧ pool.curThreadVer ≠ 0 := by
    decide
  obtain ⟨pool, ends, quiescent, launched⟩ := runs
  have path := Path.of_checked ends
  exact ⟨pool, path, running_or_stopped (by decide) path quiescent launched⟩

/-- A `stop` overtakes a `start` that has set the switch and not yet restarted the queue. -/
def overtaken : List (PoolAction (Nat × TaskQueue.TaskItem Nat) (Fin 2)) :=
  List.flatten
    [[.call 0 (.start 1)], List.replicate 4 (.caller 0), [.call 1 (.stop false)],
      List.replicate 9 (.caller 1), List.replicate 2 (.caller 0)]

/-- The pool ends with a reset switch over an open queue and threads in its vector. -/
theorem stop_overtakes_start :
    ∃ pool, Path (Taken (next 1)) (construct (.init 0) : SerialTaskPool Nat Nat (Fin 2)) overtaken pool ∧
      pool.Quiescent ∧ pool.curThreadVer ≠ 0 ∧ ¬ (pool.Running ∨ pool.Stopped) := by
  have runs : ∃ pool ∈ exec (next 1) (construct (.init 0) : SerialTaskPool Nat Nat (Fin 2)) overtaken,
      (∀ caller, (pool.caller caller).quiet = true) ∧ pool.curThreadVer ≠ 0 ∧
        pool.atomicSwitch ≠ .started ∧ pool.curThreads ≠ [] := by
    decide
  obtain ⟨pool, ends, quiescent, launched, unstarted, kept⟩ := runs
  refine ⟨pool, exec_eq_some_iff.mp ends, quiescent, launched, ?_⟩
  rintro (running | stopped)
  · exact unstarted running.switched
  · exact kept stopped.released

end TaskPoolBase

end BTool.TaskPool
