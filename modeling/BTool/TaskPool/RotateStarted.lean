import BTool.TaskPool.RotateLanes

/-! The start of a `RotateSerialTaskPool`: once it has returned, each inner pool has its worker. -/

namespace BTool.TaskPool

open AtomicSwitch BTool.Foundation BTool.TaskQueue BTool.TaskQueue.ParallelTaskQueue

namespace ParallelTaskPool

variable {F C : Type} [DecidableEq F] [DecidableEq C] {maxTaskCount : UInt64} {starter : C}
  {pool after : ParallelTaskPool F (Option C)} {coreNum thread : Nat} {mover : Option C}

/-- A pool that has a worker, and that nobody has used. -/
structure Ready (pool : ParallelTaskPool F (Option C)) : Prop where
  sole : Sole False pool
  out : ∀ user, pool.Out (some user)
  pushed : pool.pushed = []
  executing : pool.executing = pool.taken

/-- A pool without a worker, and with one thread in a call. -/
def fresh (maxTaskCount : UInt64) (starter : C) (atomicSwitch : AtomicSwitch)
    (pc : CallerPc (Option C × TaskItem F)) : ParallelTaskPool F (Option C) :=
  ({ TaskPoolBase.construct (State.init maxTaskCount) with atomicSwitch } :
    ParallelTaskPool F (Option C)).moveCaller (some starter) pc

/-- What holds where the thread that starts the pool is. -/
def StartFits (switch : AtomicSwitch) : CallerPc (Option C × TaskItem F) → Prop
  | .init threadNum => switch = .construct ∧ threadNum = 1
  | .start threadNum _ => switch = ⟨true, false, false⟩ ∧ threadNum = 1
  | .queueStart threadNum => switch = .started ∧ threadNum = 1
  | .createThread threadNum => switch = .started ∧ threadNum = 1
  | _ => False

/-- A pool that is being started, or has been. -/
def Starting (maxTaskCount : UInt64) (starter : C) (pool : ParallelTaskPool F (Option C)) : Prop :=
  (∃ switch pc, StartFits switch pc ∧ pool = fresh maxTaskCount starter switch pc) ∨ pool.Ready

omit [DecidableEq F] [DecidableEq C] in
theorem taken_sublist_pushed : pool.taken.Sublist pool.pushed := by
  unfold ParallelTaskPool.taken pushed Journal.pushed
  rw [List.reduceOption_append]
  exact List.sublist_append_left _ _

/-- The worker finds nothing to execute. -/
theorem Ready.worker_step (ready : pool.Ready) (taken : pool.threadFun thread = some after) :
    after.Ready ∧ pool.finished thread = [] := by
  obtain ⟨kept, _⟩ := ready.sole.worker_step taken
  have pushed : after.pushed = [] := by rw [kept.pushed, ready.pushed, List.append_nil]
  have nothing : after.taken = [] := by
    rw [← List.sublist_nil, ← pushed]
    exact taken_sublist_pushed
  have books := kept.taken [] (by rw [List.nil_append, ready.executing])
  rw [List.nil_append, nothing] at books
  obtain ⟨finished, executing⟩ := List.append_eq_nil_iff.mp books
  refine ⟨⟨kept.sole, fun user => ?_, pushed, executing.trans nothing.symm⟩, finished⟩
  obtain ⟨pc, stage⟩ := kept.others (some user) (by simp)
  rw [Out, pc, stage]
  exact ready.out user

omit [DecidableEq F] in
private theorem caller_fresh {switch : AtomicSwitch} {pc : CallerPc (Option C × TaskItem F)} {caller : Option C}
    (apart : caller ≠ some starter) : (fresh maxTaskCount starter switch pc).caller caller = .idle := by
  simp [fresh, TaskPoolBase.moveCaller, TaskPoolBase.construct, apart]

omit [DecidableEq F] in
private theorem ids_one : List.range' 0 (TaskPoolBase.threadCount coreNum 1) = [0] := by
  simp [TaskPoolBase.threadCount, TaskPoolBase.maxThread]

omit [DecidableEq F] in
/-- A pool is ready as soon as its worker has been created. -/
theorem ready_createThread :
    Ready (((fresh maxTaskCount starter .started (.createThread 1) : ParallelTaskPool F (Option C)).createThread
      coreNum 1).moveCaller (some starter) .idle) := by
  have idle (caller : Option C) : (((fresh maxTaskCount starter .started (.createThread 1) :
      ParallelTaskPool F (Option C)).createThread coreNum 1).moveCaller (some starter) .idle).caller caller = .idle := by
    by_cases here : caller = some starter
    · simp [here, TaskPoolBase.moveCaller]
    · simpa [TaskPoolBase.moveCaller, TaskPoolBase.createThread, here] using caller_fresh here
  have worker (thread : Nat) : (((fresh maxTaskCount starter .started (.createThread 1) :
      ParallelTaskPool F (Option C)).createThread coreNum 1).moveCaller (some starter) .idle).worker thread =
        if thread = 0 then .stopTest .loadInit else .outside := by
    simp [TaskPoolBase.moveCaller, TaskPoolBase.createThread, fresh, TaskPoolBase.construct, ids_one]
  constructor
  · constructor
    · intro thread apart
      rw [worker, if_neg apart]
    · simp [TaskPoolBase.moveCaller, TaskPoolBase.createThread, fresh, TaskPoolBase.construct, ids_one]
    · exact fun _ _ => rfl
    · rw [idle]
      exact .inl rfl
    · intro _
      simp [TaskPoolBase.moveCaller, TaskPoolBase.createThread, fresh, TaskPoolBase.construct, ids_one]
    · intro user
      rw [idle]
      trivial
    · rfl
    · exact fun user _ => idle (some user)
    · intro _
      refine ⟨rfl, idle none, ?_⟩
      simp [worker]
    · simp
    · exact fun _ => rfl
  · exact fun user => ⟨idle (some user), rfl⟩
  · rfl
  · rfl

omit [DecidableEq F] in
private theorem place_fresh {switch : AtomicSwitch} {pc : CallerPc (Option C × TaskItem F)} :
    (fresh maxTaskCount starter switch pc).caller (some starter) = pc := by
  simp [fresh, TaskPoolBase.moveCaller]

/-- A step of the call that starts a pool. -/
theorem fresh_step {switch : AtomicSwitch} {pc : CallerPc (Option C × TaskItem F)} (fits : StartFits switch pc)
    (taken : TaskPoolBase.callStep coreNum (fresh maxTaskCount starter switch pc) (some starter) = some after) :
    Starting maxTaskCount starter after := by
  cases pc with
  | init threadNum =>
    obtain ⟨rfl, rfl⟩ := fits
    simp only [TaskPoolBase.callStep, place_fresh, Option.some.injEq] at taken
    refine .inl ⟨⟨true, false, false⟩, .start 1 .loadStop, ⟨rfl, rfl⟩, ?_⟩
    simp [← taken, fresh, TaskPoolBase.moveCaller, AtomicSwitch.init, AtomicSwitch.construct]
  | start threadNum pc =>
    obtain ⟨rfl, rfl⟩ := fits
    simp only [TaskPoolBase.callStep, place_fresh, Option.some.injEq] at taken
    cases pc with
    | loadStop =>
      refine .inl ⟨⟨true, false, false⟩, .start 1 .loadInit, ⟨rfl, rfl⟩, ?_⟩
      simp [← taken, fresh, TaskPoolBase.moveCaller, AtomicSwitch.start, Progress.elim]
    | loadInit =>
      refine .inl ⟨⟨true, false, false⟩, .start 1 .exchange, ⟨rfl, rfl⟩, ?_⟩
      simp [← taken, fresh, TaskPoolBase.moveCaller, AtomicSwitch.start, Progress.elim]
    | exchange =>
      refine .inl ⟨.started, .queueStart 1, ⟨rfl, rfl⟩, ?_⟩
      simp [← taken, fresh, TaskPoolBase.moveCaller, AtomicSwitch.start, Progress.elim, AtomicSwitch.started]
  | queueStart threadNum =>
    obtain ⟨rfl, rfl⟩ := fits
    simp only [TaskPoolBase.callStep, place_fresh, Option.some.injEq] at taken
    refine .inl ⟨.started, .createThread 1, ⟨rfl, rfl⟩, ?_⟩
    simp [← taken, fresh, TaskPoolBase.moveCaller, TaskPoolBase.construct, TQueueType.start, ParallelTaskQueue.start,
      State.init, ParallelTaskQueue.construct]
  | createThread threadNum =>
    obtain ⟨rfl, rfl⟩ := fits
    simp only [TaskPoolBase.callStep, place_fresh, Option.some.injEq] at taken
    rw [← taken]
    exact .inr ready_createThread
  | _ => exact fits.elim

omit [DecidableEq F] [DecidableEq C] in
theorem Ready.out_all (ready : pool.Ready) : pool.Out mover := by
  cases mover with
  | none => exact ⟨(ready.sole.opened not_false).2.1, ready.sole.silent⟩
  | some user => exact ready.out user

/-- In a ready pool only its worker moves. -/
theorem Ready.still (ready : pool.Ready) : pool.callStep coreNum mover = none := by
  simp [TaskPoolBase.callStep, ready.out_all.1]

omit [DecidableEq F] in
theorem Ready.still_queue (ready : pool.Ready) : pool.queueStep mover = none := by
  simp [queueStep, State.next, ready.out_all.2, ParallelTaskQueue.addTask]

/-- A step takes a pool further in its start, if it has not been done. -/
structure Rises (maxTaskCount : UInt64) (starter : C) (pool after : ParallelTaskPool F (Option C)) : Prop where
  ready : pool.Ready → after.Ready
  starting : Starting maxTaskCount starter pool → Starting maxTaskCount starter after
  moved : pool ≠ TaskPoolBase.construct (State.init maxTaskCount)

theorem rises_callStep (taken : pool.callStep coreNum mover = some after) :
    Rises maxTaskCount starter pool after where
  ready ready := by
    rw [ready.still] at taken
    cases taken
  starting starting := by
    rcases starting with ⟨switch, pc, fits, rfl⟩ | ready
    · by_cases here : mover = some starter
      · subst here
        exact fresh_step fits taken
      · simp [TaskPoolBase.callStep, caller_fresh here] at taken
    · rw [ready.still] at taken
      cases taken
  moved := by
    rintro rfl
    simp [TaskPoolBase.callStep, TaskPoolBase.construct] at taken

theorem rises_threadFun (taken : pool.threadFun thread = some after) :
    Rises maxTaskCount starter pool after where
  ready ready := (ready.worker_step taken).1
  starting starting := by
    rcases starting with ⟨switch, pc, fits, rfl⟩ | ready
    · cases taken
    · exact .inr (ready.worker_step taken).1
  moved := by
    rintro rfl
    cases taken

end ParallelTaskPool

namespace RotateSerialTaskPool

open ParallelTaskPool

variable {P F C : Type}

/-- How far the inner pools are when the thread that starts the pool is there. -/
def Raised [DecidableEq C] (starter : C) (pool : RotateSerialTaskPool P F C) : CallerPc P F → Prop
  | .init _ => pool.atomicSwitch = .construct ∧ pool.taskPools = []
  | .start _ _ => pool.atomicSwitch = ⟨true, false, false⟩ ∧ pool.taskPools = []
  | .lockStart _ => pool.atomicSwitch = .started ∧ pool.taskPools = []
  | .createThreads _ => pool.atomicSwitch = .started ∧ pool.taskPools = []
  | .startPool next => pool.atomicSwitch = .started ∧ pool.Pools fun index inner =>
      if index < next then inner.Ready else inner = TaskPoolBase.construct (.init pool.maxTaskCount)
  | .startingPool next => pool.atomicSwitch = .started ∧ pool.Pools fun index inner =>
      if index < next then inner.Ready
      else if index = next then Starting pool.maxTaskCount starter inner
      else inner = TaskPoolBase.construct (.init pool.maxTaskCount)
  | .idle => pool.atomicSwitch = .started ∧ pool.Pools fun _ inner => inner.Ready
  | _ => False

/-- What every step keeps while one thread starts the pool and nobody else has called it. -/
structure Starts [DecidableEq C] (starter : C) (pool : RotateSerialTaskPool P F C) : Prop where
  raised : pool.Raised starter (pool.caller starter)
  others : ∀ caller ≠ starter, pool.caller caller = .idle
  added : pool.added = []
  accepted : pool.accepted = []
  executed : pool.executed = []

section Steps

variable [DecidableEq P] [DecidableEq F] [DecidableEq C] {starter stopper : C}
  {pool after : RotateSerialTaskPool P F C} {coreNum index : Nat} {inner reached : InnerPool P F C}

omit [DecidableEq P] [DecidableEq F] [DecidableEq C] in
private theorem ne_nil_of_found (found : pool.taskPools[index]? = some inner) : pool.taskPools ≠ [] := by
  intro none
  simp [none] at found

omit [DecidableEq P] [DecidableEq F] in
/-- An inner pool moves. -/
theorem Raised.stepped {pc : CallerPc P F} {executed : List (Entry P F)} (raised : pool.Raised starter pc)
    (found : pool.taskPools[index]? = some inner) (rises : Rises pool.maxTaskCount starter inner reached) :
    Raised starter { pool with taskPools := pool.taskPools.set index reached, executed } pc := by
  have each {holds : Nat → InnerPool P F C → Prop} (all : pool.Pools holds)
      (kept : holds index inner → holds index reached) :
      Pools { pool with taskPools := pool.taskPools.set index reached, executed } holds :=
    all.set rfl (kept (all index inner found)) fun _ _ _ still => still
  have filled := ne_nil_of_found found
  cases pc with
  | init threadNum => exact absurd raised.2 filled
  | start threadNum pc => exact absurd raised.2 filled
  | lockStart threadNum => exact absurd raised.2 filled
  | createThreads threadNum => exact absurd raised.2 filled
  | startPool next =>
    refine ⟨raised.1, each raised.2 fun holds => ?_⟩
    split
    · rename_i below
      exact rises.ready (by simpa [below] using holds)
    · rename_i beyond
      exact absurd (by simpa [beyond] using holds) rises.moved
  | startingPool next =>
    refine ⟨raised.1, each raised.2 fun holds => ?_⟩
    split
    · rename_i below
      exact rises.ready (by simpa [below] using holds)
    · rename_i beyond
      split
      · rename_i here
        exact rises.starting (by simpa [beyond, here] using holds)
      · rename_i apart
        exact absurd (by simpa [beyond, apart] using holds) rises.moved
  | idle => exact ⟨raised.1, each raised.2 rises.ready⟩
  | _ => exact raised.elim

omit [DecidableEq P] [DecidableEq F] in
/-- While it starts, each inner pool is new, being started, or ready. -/
theorem Raised.known {pc : CallerPc P F} (raised : pool.Raised starter pc) :
    pool.Pools fun _ inner => Starting pool.maxTaskCount starter inner ∨
      inner = TaskPoolBase.construct (.init pool.maxTaskCount) := by
  intro index inner found
  have filled := ne_nil_of_found found
  cases pc with
  | init threadNum => exact absurd raised.2 filled
  | start threadNum pc => exact absurd raised.2 filled
  | lockStart threadNum => exact absurd raised.2 filled
  | createThreads threadNum => exact absurd raised.2 filled
  | startPool next =>
    have holds := raised.2 index inner found
    dsimp only at holds
    split at holds
    · exact .inl (.inr holds)
    · exact .inr holds
  | startingPool next =>
    have holds := raised.2 index inner found
    dsimp only at holds
    split at holds
    · exact .inl (.inr holds)
    · split at holds
      · exact .inl holds
      · exact .inr holds
  | idle => exact .inl (.inr (raised.2 index inner found))
  | _ => exact raised.elim

omit [DecidableEq P] [DecidableEq F] in
/-- The thread that starts the pool goes on. -/
private theorem Starts.moved (starts : Starts starter pool) {pc : CallerPc P F} {atomicSwitch : AtomicSwitch}
    {mtx : RwMutex C} {taskPools : List (InnerPool P F C)}
    (raised : Raised starter { pool with atomicSwitch, taskPools } pc) :
    Starts starter ({ pool with atomicSwitch, mtx, taskPools }.moveCaller starter pc) where
  raised := by
    simp only [moveCaller, Function.update_self]
    cases pc <;> exact raised
  others caller apart := by simpa [moveCaller, apart] using starts.others caller apart
  added := starts.added
  accepted := starts.accepted
  executed := starts.executed

/-- A step of `start`. -/
theorem Starts.call_step (starts : Starts starter pool) (taken : pool.callStep coreNum starter = some after) :
    Starts starter after := by
  have raised := starts.raised
  cases place : pool.caller starter with
  | idle => simp [callStep, place] at taken
  | init threadNum =>
    rw [place] at raised
    obtain ⟨set, none⟩ := raised
    simp only [callStep, place, set, AtomicSwitch.init, AtomicSwitch.construct, Option.some.injEq] at taken
    rw [← taken]
    exact starts.moved ⟨rfl, none⟩
  | start threadNum pc =>
    rw [place] at raised
    obtain ⟨set, none⟩ := raised
    cases pc with
    | loadStop =>
      simp only [callStep, place, set, AtomicSwitch.start, Option.some.injEq] at taken
      rw [← taken]
      exact starts.moved ⟨rfl, none⟩
    | loadInit =>
      simp only [callStep, place, set, AtomicSwitch.start, Option.some.injEq] at taken
      rw [← taken]
      exact starts.moved ⟨rfl, none⟩
    | exchange =>
      simp only [callStep, place, set, AtomicSwitch.start, Option.some.injEq] at taken
      rw [← taken]
      exact starts.moved ⟨rfl, none⟩
  | lockStart threadNum =>
    rw [place] at raised
    simp only [callStep, place] at taken
    obtain ⟨mtx, _, rfl⟩ := Option.map_eq_some_iff.mp taken
    exact starts.moved raised
  | createThreads threadNum =>
    rw [place] at raised
    obtain ⟨set, none⟩ := raised
    simp only [callStep, place, createThreads, none, Option.some.injEq] at taken
    subst taken
    refine starts.moved ⟨set, fun index inner found => ?_⟩
    obtain ⟨_, same⟩ := List.getElem?_eq_some_iff.mp found
    simpa using same.symm
  | startPool index =>
    rw [place] at raised
    obtain ⟨set, pools⟩ := raised
    simp only [callStep, place] at taken
    split at taken
    · obtain ⟨_, stepped, rfl⟩ := Option.map_eq_some_iff.mp taken
      obtain ⟨inner, reached, found, call, rfl⟩ := callPool_cases stepped
      have new : inner = TaskPoolBase.construct (.init pool.maxTaskCount) := by
        simpa using pools index inner found
      have starting : Starting pool.maxTaskCount starter reached := by
        refine .inl ⟨.construct, .init 1, ⟨rfl, rfl⟩, ?_⟩
        simp only [new, TaskPoolBase.next, TaskPoolBase.construct, Option.some.injEq] at call
        rw [← call]
        rfl
      refine starts.moved ⟨set, Pools.set pools rfl (by simpa using starting) ?_⟩
      intro other innerPool apart holds
      simpa [apart] using holds
    · rename_i all
      cases taken
      refine starts.moved ⟨set, fun other inner found => ?_⟩
      have below : other < pool.taskPools.length := (List.getElem?_eq_some_iff.mp found).1
      have before : other < index := by omega
      simpa [before] using pools other inner found
  | startingPool index =>
    rw [place] at raised
    obtain ⟨set, pools⟩ := raised
    simp only [callStep, place] at taken
    split at taken
    · rename_i left
      obtain ⟨started, there, out⟩ := left
      cases taken
      refine starts.moved ⟨set, fun other inner found => ?_⟩
      have holds := pools other inner found
      rcases Nat.lt_trichotomy other index with below | rfl | beyond
      · have before : other < index + 1 := by omega
        simpa [before, below] using holds
      · cases found.symm.trans there
        have starting : Starting pool.maxTaskCount starter started := by simpa using holds
        rcases starting with ⟨switch, pc, fits, rfl⟩ | ready
        · have idle := out.1
          rw [place_fresh] at idle
          subst idle
          exact fits.elim
        · simpa using ready
      · have notBefore : ¬ other < index + 1 := by omega
        have notBelow : ¬ other < index := by omega
        have apart : other ≠ index := by omega
        simpa [notBefore, notBelow, apart] using holds
    · cases taken
  | _ =>
    rw [place] at raised
    exact raised.elim

/-- Every step but a call keeps what holds while the pool is being started. -/
theorem Starts.next {action : Action P F C} (starts : Starts starter pool)
    (quiet : ∀ caller operation, action ≠ .call caller operation) (taken : pool.next coreNum action = some after) :
    Starts starter after := by
  cases action with
  | call caller operation => exact absurd rfl (quiet caller operation)
  | caller caller =>
    by_cases here : caller = starter
    · subst here
      exact starts.call_step taken
    · simp [RotateSerialTaskPool.next, callStep, starts.others caller here] at taken
  | inner index mover =>
    obtain ⟨inner, found, stepped⟩ := Option.bind_eq_some_iff.mp taken
    obtain ⟨reached, moved, rfl⟩ := Option.map_eq_some_iff.mp stepped
    exact ⟨starts.raised.stepped found (rises_callStep moved), starts.others, starts.added, starts.accepted,
      starts.executed⟩
  | queue index mover =>
    obtain ⟨inner, found, stepped⟩ := Option.bind_eq_some_iff.mp taken
    obtain ⟨reached, moved, rfl⟩ := Option.map_eq_some_iff.mp stepped
    rcases starts.raised.known index inner found with (⟨switch, pc, _, rfl⟩ | ready) | rfl
    · cases moved
    · rw [ready.still_queue] at moved
      cases moved
    · cases moved
  | worker index thread =>
    obtain ⟨inner, found, stepped⟩ := Option.bind_eq_some_iff.mp taken
    obtain ⟨reached, moved, rfl⟩ := Option.map_eq_some_iff.mp stepped
    refine ⟨starts.raised.stepped found (rises_threadFun moved), starts.others, starts.added, starts.accepted, ?_⟩
    have nothing : inner.finished thread = [] := by
      rcases starts.raised.known index inner found with (⟨switch, pc, _, rfl⟩ | ready) | rfl
      · cases moved
      · exact (ready.worker_step moved).2
      · cases moved
    simp only [nothing, List.append_nil]
    exact starts.executed

omit [DecidableEq F] in
/-- Once `start` has returned, every inner pool has its worker. -/
theorem Starts.staged (starts : Starts starter pool) (returned : pool.caller starter = .idle) :
    Staged False stopper pool := by
  have raised := starts.raised
  rw [returned] at raised
  obtain ⟨set, ready⟩ := raised
  have idle (caller : C) : pool.caller caller = .idle := by
    by_cases here : caller = starter
    · rw [here, returned]
    · exact starts.others caller here
  have open_ : Closing stopper pool.caller = False := by
    simp [Closing, idle, CallerPc.kind, Kind.writes]
  constructor
  · constructor
    · intro caller
      rw [idle]
      rfl
    · intro index inner found
      have inner := ready index inner found
      rw [open_, starts.added, starts.executed]
      refine ⟨inner.sole, fun caller there => absurd (inner.out caller) there, ?_, inner.pushed, inner.executing⟩
      simp [idle]
    · simp [idle, CallerPc.entry]
    · simp [idle, CallerPc.entry]
    · simp [idle, CallerPc.entry]
    · simp [starts.added]
    · simp [starts.added]
    · simp [starts.accepted]
    · simp [starts.executed]
    · simp [starts.added]
  · rw [idle]
    exact .inl ⟨not_false, set⟩

end Steps

end RotateSerialTaskPool

end BTool.TaskPool
