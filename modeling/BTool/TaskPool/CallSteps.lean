import BTool.Foundation.Locals
import BTool.TaskPool.TaskPoolBase

/-! What one step of a call or of a worker thread can do to a pool, said once for the
proofs about its runs. -/

namespace BTool.TaskPool

open BTool.Foundation AtomicSwitch

variable {Queue Add C : Type} [TQueueType Queue Add] [DecidableEq C]

namespace CallerPc

/-- How far a `stop` has come that has set the switch, from `m_task_queue.stop` on. -/
def stage : CallerPc Add → Nat
  | .queueStop _ => 1
  | .swap => 2
  | .join _ => 3
  | .reset .storeStart => 4
  | .reset .storeStop => 5
  | .reset .storeInit => 6
  | _ => 0

/-- In `AtomicSwitch::start`, having initialised the switch. -/
def starting : CallerPc Add → Bool
  | .start _ _ => true
  | _ => false

/-- About to restart the queue. -/
def restarting : CallerPc Add → Bool
  | .queueStart _ => true
  | _ => false

/-- About to create threads. -/
def creating : CallerPc Add → Bool
  | .createThread _ => true
  | _ => false

/-- The threads that are still to be joined. -/
def joining : CallerPc Add → List Nat
  | .join threads => threads
  | _ => []

/-- In none of `start`, `stop` and `reset_thread_num`. -/
def quiet : CallerPc Add → Bool
  | .idle => true
  | .addTest _ _ => true
  | .addTask _ => true
  | _ => false

/-- In neither `start` nor `reset_thread_num`, and in no `stop(false)`. -/
def graceful : CallerPc Add → Bool
  | .stop bwait _ => bwait
  | .queueStop bwait => bwait
  | .init _ => false
  | .start _ _ => false
  | .queueStart _ => false
  | .createThread _ => false
  | .resetTest _ _ => false
  | _ => true

/-- A move that takes a thread into no other part of a call, except towards the creation
of threads. -/
structure Alike (before after : CallerPc Add) : Prop where
  stage : after.stage = before.stage
  starting : after.starting = before.starting
  restarting : after.restarting = before.restarting
  creating : before.creating = true → after.creating = true
  joining : after.joining = before.joining

/-- A move inside a call or out of it. -/
structure Within (before after : CallerPc Add) : Prop where
  quiet : before.quiet = true → after.quiet = true
  graceful : before.graceful = true → after.graceful = true

theorem outer_of_quiet {pc : CallerPc Add} (here : pc.quiet = true) :
    pc.graceful = true ∧ pc.stage = 0 ∧ pc.starting = false ∧ pc.restarting = false ∧
      pc.creating = false ∧ pc.joining = [] := by
  cases pc <;> first | exact ⟨rfl, rfl, rfl, rfl, rfl, rfl⟩ | cases here

theorem outer_of_starting {pc : CallerPc Add} (here : pc.starting = true) :
    pc.graceful = false ∧ pc.stage = 0 ∧ pc.restarting = false ∧ pc.creating = false ∧
      pc.joining = [] := by
  cases pc <;> first | exact ⟨rfl, rfl, rfl, rfl, rfl⟩ | cases here

end CallerPc

/-- The worker has seen no sign that it should leave. -/
def WorkerPc.staying : WorkerPc → Bool
  | .outside => false
  | .emptyTest => false
  | _ => true

namespace TaskPoolBase

variable {pool after : TaskPoolBase Queue Add C} {caller : C} {coreNum thread : Nat}

/-- The steps of a call. -/
inductive Moved (coreNum : Nat) (pool : TaskPoolBase Queue Add C) (caller : C) :
    TaskPoolBase Queue Add C → Prop where
  | along {pc : CallerPc Add} (alike : (pool.caller caller).Alike pc)
      (within : pool.caller caller = .idle ∨ (pool.caller caller).Within pc) :
      Moved coreNum pool caller (pool.moveCaller caller pc)
  | initialised {threadNum : Nat} (here : pool.caller caller = .init threadNum)
      (unset : pool.atomicSwitch.binit = false) :
      Moved coreNum pool caller
        ({ pool with atomicSwitch := { pool.atomicSwitch with binit := true } }.moveCaller caller
          (.start threadNum .loadStop))
  | refused (here : (pool.caller caller).starting = true)
      (reason : pool.atomicSwitch.bstop = true ∨ pool.atomicSwitch.binit = false ∨
        pool.atomicSwitch.bstart = true) :
      Moved coreNum pool caller (pool.moveCaller caller .idle)
  | started {threadNum : Nat} (here : (pool.caller caller).starting = true)
      (unset : pool.atomicSwitch.bstart = false) :
      Moved coreNum pool caller
        ({ pool with atomicSwitch := { pool.atomicSwitch with bstart := true } }.moveCaller caller
          (.queueStart threadNum))
  | queueStarted {threadNum : Nat} (here : pool.caller caller = .queueStart threadNum) :
      Moved coreNum pool caller
        ({ pool with taskQueue := TQueueType.start pool.taskQueue }.moveCaller caller
          (.createThread threadNum))
  | created {threadNum : Nat} (here : pool.caller caller = .createThread threadNum) :
      Moved coreNum pool caller ((pool.createThread coreNum threadNum).moveCaller caller .idle)
  | stopped {bwait : Bool} (here : pool.caller caller = .stop bwait .exchange)
      (unset : pool.atomicSwitch.bstop = false) :
      Moved coreNum pool caller
        ({ pool with atomicSwitch := { pool.atomicSwitch with bstop := true } }.moveCaller caller
          (.queueStop bwait))
  | queueStopped {bwait : Bool} (here : pool.caller caller = .queueStop bwait) :
      Moved coreNum pool caller
        ({ pool with taskQueue := TQueueType.stop pool.taskQueue bwait }.moveCaller caller .swap)
  | swapped (here : pool.caller caller = .swap) :
      Moved coreNum pool caller ({ pool with curThreads := [] }.moveCaller caller (.join pool.curThreads))
  | joined {first : Nat} {rest : List Nat} (here : pool.caller caller = .join (first :: rest))
      (gone : pool.worker first = .outside) :
      Moved coreNum pool caller (pool.moveCaller caller (.join rest))
  | released (here : pool.caller caller = .join []) :
      Moved coreNum pool caller (pool.moveCaller caller (.reset .storeStart))
  | storeStart (here : pool.caller caller = .reset .storeStart) :
      Moved coreNum pool caller
        ({ pool with atomicSwitch := { pool.atomicSwitch with bstart := false } }.moveCaller caller
          (.reset .storeStop))
  | storeStop (here : pool.caller caller = .reset .storeStop) :
      Moved coreNum pool caller
        ({ pool with atomicSwitch := { pool.atomicSwitch with bstop := false } }.moveCaller caller
          (.reset .storeInit))
  | storeInit (here : pool.caller caller = .reset .storeInit) :
      Moved coreNum pool caller
        ({ pool with atomicSwitch := { pool.atomicSwitch with binit := false } }.moveCaller caller
          .idle)
  | added {add : Add} (here : pool.caller caller = .addTask add) :
      Moved coreNum pool caller
        ({ pool with taskQueue := TQueueType.addTask pool.taskQueue add }.moveCaller caller .idle)

theorem moved_of_call {operation : Operation Add}
    (taken : pool.next coreNum (.call caller operation) = some after) :
    Moved coreNum pool caller after := by
  simp only [next] at taken
  split at taken
  · rename_i here
    cases taken
    refine .along ?_ (.inl here)
    rw [here]
    cases operation <;> exact ⟨rfl, rfl, rfl, id, rfl⟩
  · cases taken

private theorem within_idle {before : CallerPc Add} : before.Within .idle := ⟨fun _ => rfl, fun _ => rfl⟩

private theorem along_from {before pc : CallerPc Add} (here : pool.caller caller = before)
    (alike : before.Alike pc) (within : before.Within pc) :
    Moved coreNum pool caller (pool.moveCaller caller pc) :=
  .along (here ▸ alike) (.inr (here ▸ within))

/-- A call of `start` is refused by one of its three accesses or goes on. -/
private theorem moved_of_start {threadNum : Nat} {pc : StartPc}
    (here : pool.caller caller = .start threadNum pc)
    (taken : pool.callStep coreNum caller = some after) : Moved coreNum pool caller after := by
  have starting : (pool.caller caller).starting = true := by rw [here]; rfl
  cases pc with
  | loadStop =>
    cases set : pool.atomicSwitch.bstop with
    | true =>
      obtain rfl : pool.moveCaller caller .idle = after := by
        simpa [callStep, here, AtomicSwitch.start, set, Progress.elim] using taken
      exact .refused starting (.inl set)
    | false =>
      obtain rfl : pool.moveCaller caller (.start threadNum .loadInit) = after := by
        simpa [callStep, here, AtomicSwitch.start, set, Progress.elim] using taken
      exact along_from here ⟨rfl, rfl, rfl, id, rfl⟩ ⟨id, id⟩
  | loadInit =>
    cases set : pool.atomicSwitch.binit with
    | false =>
      obtain rfl : pool.moveCaller caller .idle = after := by
        simpa [callStep, here, AtomicSwitch.start, set, Progress.elim] using taken
      exact .refused starting (.inr (.inl set))
    | true =>
      obtain rfl : pool.moveCaller caller (.start threadNum .exchange) = after := by
        simpa [callStep, here, AtomicSwitch.start, set, Progress.elim] using taken
      exact along_from here ⟨rfl, rfl, rfl, id, rfl⟩ ⟨id, id⟩
  | exchange =>
    cases set : pool.atomicSwitch.bstart with
    | true =>
      obtain rfl : pool.moveCaller caller .idle = after := by
        simpa [callStep, here, AtomicSwitch.start, set, Progress.elim] using taken
      exact .refused starting (.inr (.inr set))
    | false =>
      simp only [callStep, here, AtomicSwitch.start, set, Option.some.injEq] at taken
      rw [← taken]
      exact .started starting set

/-- A call of `stop` goes on or returns, until it sets `m_bstop`. -/
private theorem moved_of_stop {bwait : Bool} {pc : StopPc} (here : pool.caller caller = .stop bwait pc)
    (taken : pool.callStep coreNum caller = some after) : Moved coreNum pool caller after := by
  cases pc with
  | loadInit =>
    cases set : pool.atomicSwitch.binit with
    | false =>
      obtain rfl : pool.moveCaller caller .idle = after := by
        simpa [callStep, here, AtomicSwitch.stop, set, Progress.elim] using taken
      exact along_from here ⟨rfl, rfl, rfl, id, rfl⟩ within_idle
    | true =>
      obtain rfl : pool.moveCaller caller (.stop bwait .loadStart) = after := by
        simpa [callStep, here, AtomicSwitch.stop, set, Progress.elim] using taken
      exact along_from here ⟨rfl, rfl, rfl, id, rfl⟩ ⟨id, id⟩
  | loadStart =>
    cases set : pool.atomicSwitch.bstart with
    | false =>
      obtain rfl : pool.moveCaller caller .idle = after := by
        simpa [callStep, here, AtomicSwitch.stop, set, Progress.elim] using taken
      exact along_from here ⟨rfl, rfl, rfl, id, rfl⟩ within_idle
    | true =>
      obtain rfl : pool.moveCaller caller (.stop bwait .exchange) = after := by
        simpa [callStep, here, AtomicSwitch.stop, set, Progress.elim] using taken
      exact along_from here ⟨rfl, rfl, rfl, id, rfl⟩ ⟨id, id⟩
  | exchange =>
    cases set : pool.atomicSwitch.bstop with
    | true =>
      obtain rfl : pool.moveCaller caller .idle = after := by
        simpa [callStep, here, AtomicSwitch.stop, set, Progress.elim] using taken
      exact along_from here ⟨rfl, rfl, rfl, id, rfl⟩ within_idle
    | false =>
      simp only [callStep, here, AtomicSwitch.stop, set, Option.some.injEq] at taken
      rw [← taken]
      exact .stopped here set

theorem moved_of_callStep (taken : pool.callStep coreNum caller = some after) :
    Moved coreNum pool caller after := by
  cases here : pool.caller caller with
  | idle => simp [callStep, here] at taken
  | init threadNum =>
    cases set : pool.atomicSwitch.binit with
    | true =>
      obtain rfl : pool.moveCaller caller .idle = after := by
        simpa [callStep, here, AtomicSwitch.init, set] using taken
      exact along_from here ⟨rfl, rfl, rfl, id, rfl⟩ within_idle
    | false =>
      simp only [callStep, here, AtomicSwitch.init, set, Option.some.injEq] at taken
      rw [← taken]
      exact .initialised here set
  | start threadNum pc => exact moved_of_start here taken
  | queueStart threadNum =>
    simp only [callStep, here, Option.some.injEq] at taken
    rw [← taken]
    exact .queueStarted here
  | createThread threadNum =>
    simp only [callStep, here, Option.some.injEq] at taken
    rw [← taken]
    exact .created here
  | stop bwait pc => exact moved_of_stop here taken
  | queueStop bwait =>
    simp only [callStep, here, Option.some.injEq] at taken
    rw [← taken]
    exact .queueStopped here
  | swap =>
    simp only [callStep, here, Option.some.injEq] at taken
    rw [← taken]
    exact .swapped here
  | join threads =>
    cases threads with
    | nil =>
      simp only [callStep, here, Option.some.injEq] at taken
      rw [← taken]
      exact .released here
    | cons first rest =>
      simp only [callStep, here] at taken
      split at taken
      · rename_i gone
        rw [← Option.some.inj taken]
        exact .joined here gone
      · cases taken
  | reset pc =>
    cases pc with
    | storeStart =>
      simp only [callStep, here, AtomicSwitch.reset, Option.some.injEq] at taken
      rw [← taken]
      exact .storeStart here
    | storeStop =>
      simp only [callStep, here, AtomicSwitch.reset, Option.some.injEq] at taken
      rw [← taken]
      exact .storeStop here
    | storeInit =>
      simp only [callStep, here, AtomicSwitch.reset, Option.some.injEq] at taken
      rw [← taken]
      exact .storeInit here
  | resetTest threadNum pc =>
    simp only [callStep, here, Option.some.injEq] at taken
    rw [← taken]
    rcases pool.atomicSwitch.hasStarted pc with pc' | _ | _
    · exact along_from here ⟨rfl, rfl, rfl, id, rfl⟩ ⟨id, id⟩
    · exact along_from here ⟨rfl, rfl, rfl, id, rfl⟩ within_idle
    · exact along_from here ⟨rfl, rfl, rfl, nofun, rfl⟩ ⟨nofun, nofun⟩
  | addTest add pc =>
    simp only [callStep, here, Option.some.injEq] at taken
    rw [← taken]
    rcases pool.atomicSwitch.hasStarted pc with pc' | _ | _
    · exact along_from here ⟨rfl, rfl, rfl, id, rfl⟩ ⟨id, id⟩
    · exact along_from here ⟨rfl, rfl, rfl, id, rfl⟩ within_idle
    · exact along_from here ⟨rfl, rfl, rfl, id, rfl⟩ ⟨id, id⟩
  | addTask add =>
    simp only [callStep, here, Option.some.injEq] at taken
    rw [← taken]
    exact .added here

/-- A step of a call moves the caller alone. -/
theorem caller_of_moved (moved : Moved coreNum pool caller after) :
    after.caller = Function.update pool.caller caller (after.caller caller) := by
  cases moved <;> simp [moveCaller, createThread]

/-- Only the end of a `stop` resets the switch. -/
theorem binit_of_moved (moved : Moved coreNum pool caller after)
    (unset : after.atomicSwitch.binit = false) :
    pool.atomicSwitch.binit = false ∨ pool.caller caller = .reset .storeInit := by
  cases moved with
  | storeInit here => exact .inr here
  | initialised => cases unset
  | _ => exact .inl unset

/-- The steps of a worker thread. -/
inductive Worked (pool : TaskPoolBase Queue Add C) (thread : Nat) : TaskPoolBase Queue Add C → Prop where
  | testing {pc pc' : HasStopedPc} (here : pool.worker thread = .stopTest pc)
      (goes : pool.atomicSwitch.hasStoped pc = .goes pc') :
      Worked pool thread (pool.moveWorker thread (.stopTest pc'))
  | tested {pc : HasStopedPc} {stoped : Bool} (here : pool.worker thread = .stopTest pc)
      (answer : pool.atomicSwitch.hasStoped pc = .returns stoped) :
      Worked pool thread (pool.moveWorker thread (if stoped then .emptyTest else .versionTest))
  | drained (here : pool.worker thread = .emptyTest) (empty : TQueueType.empty pool.taskQueue = true) :
      Worked pool thread (pool.moveWorker thread .outside)
  | pending (here : pool.worker thread = .emptyTest)
      (filled : TQueueType.empty pool.taskQueue = false) :
      Worked pool thread (pool.moveWorker thread .versionTest)
  | outdated (here : pool.worker thread = .versionTest)
      (older : pool.version thread < pool.curThreadVer) :
      Worked pool thread (pool.moveWorker thread .outside)
  | current (here : pool.worker thread = .versionTest) :
      Worked pool thread (pool.moveWorker thread .popTask)
  | popped {taskQueue : Queue} {more : Bool} (here : pool.worker thread = .popTask)
      (popped : TQueueType.popTask pool.taskQueue thread = some (taskQueue, more)) :
      Worked pool thread ({ pool with taskQueue }.moveWorker thread
        (if more then .popTask else .stopTest .loadInit))

omit [DecidableEq C] in
theorem worked_of_threadFun (taken : pool.threadFun thread = some after) :
    Worked pool thread after := by
  cases here : pool.worker thread with
  | outside => simp [threadFun, here] at taken
  | stopTest pc =>
    simp only [threadFun, here, Option.some.injEq] at taken
    rw [← taken]
    cases answer : pool.atomicSwitch.hasStoped pc with
    | goes pc' => exact .testing here answer
    | returns stoped => exact .tested here answer
  | emptyTest =>
    simp only [threadFun, here, Option.some.injEq] at taken
    rw [← taken]
    cases empty : TQueueType.empty pool.taskQueue with
    | true => exact .drained here empty
    | false => exact .pending here empty
  | versionTest =>
    simp only [threadFun, here, Option.some.injEq] at taken
    rw [← taken]
    split
    · rename_i older
      exact .outdated here older
    · exact .current here
  | popTask =>
    simp only [threadFun, here] at taken
    obtain ⟨⟨taskQueue, more⟩, popped, rfl⟩ := Option.map_eq_some_iff.mp taken
    exact .popped here popped

/-- What the step of a worker leaves alone. -/
structure SameAround (pool after : TaskPoolBase Queue Add C) (thread : Nat) : Prop where
  atomicSwitch : after.atomicSwitch = pool.atomicSwitch
  bstop : TQueueType.bstop after.taskQueue = TQueueType.bstop pool.taskQueue
  curThreads : after.curThreads = pool.curThreads
  curThreadVer : after.curThreadVer = pool.curThreadVer
  version : after.version = pool.version
  caller : after.caller = pool.caller
  worker : ∀ other, other ≠ thread → after.worker other = pool.worker other

omit [DecidableEq C] in
theorem Worked.around (worked : Worked pool thread after) : SameAround pool after thread := by
  have apart (pc : WorkerPc) (other : Nat) (different : other ≠ thread) :
      Function.update pool.worker thread pc other = pool.worker other :=
    Function.update_of_ne different _ _
  cases worked with
  | popped _ popped =>
    exact ⟨rfl, TQueueType.bstop_popTask popped, rfl, rfl, rfl, rfl, apart _⟩
  | _ => exact ⟨rfl, rfl, rfl, rfl, rfl, rfl, apart _⟩

omit [DecidableEq C] in
/-- A worker that has made a step was running, and the others are where they were. -/
theorem Worked.live (worked : Worked pool thread after) {other : Nat}
    (live : after.worker other ≠ .outside) : pool.worker other ≠ .outside := by
  by_cases same : other = thread
  · subst same
    cases worked <;> simp [*]
  · cases worked <;> simpa [moveWorker, same] using live

/-- The thread runs `thread_fun`. -/
def Live (pool : TaskPoolBase Queue Add C) (thread : Nat) : Prop := pool.worker thread ≠ .outside

/-- Every running thread is in `m_cur_threads`, or some `stop` is going to join it. -/
def Owned (pool : TaskPoolBase Queue Add C) : Prop :=
  ∀ thread, pool.Live thread →
    thread ∈ pool.curThreads ∨ Somewhere (fun pc => thread ∈ pc.joining) pool.caller

theorem Owned.moved (owned : Owned pool) (moved : Moved coreNum pool caller after) :
    Owned after := by
  intro thread live
  cases moved with
  | along alike =>
    exact (owned thread live).imp_right fun found => found.move (by simp [alike.joining])
  | @created threadNum here =>
    by_cases new : thread ∈ List.range' pool.created (threadCount coreNum threadNum)
    · exact .inl (List.mem_append_right _ new)
    · have before : pool.Live thread := fun gone => live ((if_neg new).trans gone)
      rcases owned thread before with mine | found
      · exact .inl (List.mem_append_left _ mine)
      · exact .inr (found.move (by simp [here, CallerPc.joining]))
  | swapped here =>
    rcases owned thread live with mine | found
    · exact .inr (.here mine)
    · exact .inr (found.move (by simp [here, CallerPc.joining]))
  | @joined first rest here gone =>
    have different : thread ≠ first := by
      rintro rfl
      exact live gone
    refine (owned thread live).imp_right fun found => found.move ?_
    simp [here, CallerPc.joining, different]
  | refused here _ =>
    have nothing := (CallerPc.outer_of_starting here).2.2.2.2
    exact (owned thread live).imp_right fun found => found.move (by simp [nothing])
  | started here _ =>
    have nothing := (CallerPc.outer_of_starting here).2.2.2.2
    exact (owned thread live).imp_right fun found => found.move (by simp [nothing])
  | _ here => exact (owned thread live).imp_right fun found => found.move (by simp [here, CallerPc.joining])

omit [DecidableEq C] in
theorem Owned.worked (owned : Owned pool) (worked : Worked pool thread after) : Owned after := by
  intro other live
  have before := owned other (worked.live live)
  cases worked <;> exact before

omit [DecidableEq C] in
/-- A worker of the current version stays in its loop while the switch is started. -/
theorem staying_worked (started : pool.atomicSwitch = .started)
    (current : pool.version thread = pool.curThreadVer)
    (stays : (pool.worker thread).staying = true) (worked : Worked pool thread after) :
    (after.worker thread).staying = true := by
  cases worked with
  | testing => simp [moveWorker, WorkerPc.staying]
  | @tested pc stoped here answer =>
    have goesOn : stoped = false := by
      rw [started] at answer
      cases pc <;> simp_all [AtomicSwitch.hasStoped, AtomicSwitch.started]
    simp [moveWorker, goesOn, WorkerPc.staying]
  | drained here => simp [here, WorkerPc.staying] at stays
  | pending => simp [moveWorker, WorkerPc.staying]
  | outdated _ older => omega
  | current => simp [moveWorker, WorkerPc.staying]
  | @popped taskQueue more => cases more <;> simp [moveWorker, WorkerPc.staying]

end TaskPoolBase

end BTool.TaskPool
