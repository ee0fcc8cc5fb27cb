import BTool.Foundation.CondVar
import BTool.TaskQueue.SerialRefinement

/-! Producers and workers around a `SerialTaskQueue`, one step for each thing a thread
does between two acquisitions of `m_mtx`: the fast path of `add_task` tests the capacity
before it takes the lock, waits release the lock and sleep, and notifications are given
after the lock has been released. -/

namespace BTool.TaskQueue.SerialTaskQueue

open BTool.Foundation

/-- Where a producer is in `add_task`. -/
inductive ProducerPc (P F : Type) where
  | outside
  /-- At the capacity test of the fast path. -/
  | entered (prop : P) (func : TaskItem F)
  /-- At `try_lock`, having seen `not_full()`. -/
  | fast (prop : P) (func : TaskItem F)
  /-- At the lock of the slow path, or asleep in its wait. -/
  | slow (prop : P) (func : TaskItem F)
  /-- At `m_cv_not_empty.notify_one()`. -/
  | notifying

/-- Where a worker is in its loop over `pop_task`. -/
inductive WorkerPc where
  /-- At the lock of the first section, or asleep in its wait. -/
  | entering
  | executing
  /-- At `m_cv_not_full.notify_one()`. -/
  | notifying
deriving DecidableEq

structure Threads (P F W Q : Type) [DecidableEq P] where
  sections : State P F W
  producer : Q → ProducerPc P F
  worker : W → WorkerPc
  notFull : CondVar Q
  notEmpty : CondVar W

inductive ThreadAction (P F W Q : Type) where
  | call (producer : Q) (prop : P) (func : TaskItem F)
  | fastTest (producer : Q)
  | tryLock (producer : Q) (locked : Bool)
  | lock (producer : Q)
  | notifyNotEmpty (producer : Q) (woken : Option W)
  | popBegin (worker : W)
  | popFinish (worker : W)
  | notifyNotFull (worker : W) (woken : Option Q)

variable {P F W Q : Type} [DecidableEq P] [DecidableEq F] [DecidableEq W] [DecidableEq Q]

namespace Threads

def init (maxTaskCount : UInt64) : Threads P F W Q :=
  { sections := .init maxTaskCount, producer := fun _ => .outside, worker := fun _ => .entering,
    notFull := .empty, notEmpty := .empty }

abbrev queue (threads : Threads P F W Q) : SerialTaskQueue P F := threads.sections.queue

def moveProducer (threads : Threads P F W Q) (producer : Q) (pc : ProducerPc P F) :
    Threads P F W Q :=
  { threads with producer := Function.update threads.producer producer pc }

def moveWorker (threads : Threads P F W Q) (worker : W) (pc : WorkerPc) : Threads P F W Q :=
  { threads with worker := Function.update threads.worker worker pc }

/-- The locked section of `add_task`, left with a notification to give unless stopped. -/
def push (threads : Threads P F W Q) (producer : Q) (prop : P) (func : TaskItem F) :
    Option (Threads P F W Q) :=
  (threads.sections.next (.addTask prop func)).map fun sections =>
    { threads with sections }.moveProducer producer
      (if threads.queue.bstop then .outside else .notifying)

def next (threads : Threads P F W Q) : ThreadAction P F W Q → Option (Threads P F W Q)
  | .call producer prop func =>
    match threads.producer producer with
    | .outside =>
      some (if threads.queue.bstop then threads
        else threads.moveProducer producer (.entered prop func))
    | _ => none
  | .fastTest producer =>
    match threads.producer producer with
    | .entered prop func => some (threads.moveProducer producer
        (if threads.queue.notFull then .fast prop func else .slow prop func))
    | _ => none
  | .tryLock producer locked =>
    match threads.producer producer with
    | .fast prop func =>
      if locked then threads.push producer prop func
      else some (threads.moveProducer producer (.slow prop func))
    | _ => none
  | .lock producer =>
    match threads.producer producer with
    | .slow prop func =>
      if producer ∈ threads.notFull.waiters then none
      else if threads.queue.bstop || threads.queue.notFull then threads.push producer prop func
      else some { threads with notFull := threads.notFull.wait producer }
    | _ => none
  | .notifyNotEmpty producer woken =>
    match threads.producer producer with
    | .notifying => (threads.notEmpty.notifyOne woken).map fun notEmpty =>
        { threads with notEmpty }.moveProducer producer .outside
    | _ => none
  | .popBegin worker =>
    match threads.worker worker with
    | .entering =>
      if worker ∈ threads.notEmpty.waiters then none
      else
        match threads.queue.popBegin with
        | .waits => some { threads with notEmpty := threads.notEmpty.wait worker }
        | _ => (threads.sections.next (.popBegin worker)).map fun sections =>
            { threads with sections }.moveWorker worker
              (if (sections.running worker).isSome then .executing else .entering)
    | _ => none
  | .popFinish worker =>
    match threads.worker worker with
    | .executing => (threads.sections.next (.popFinish worker)).map fun sections =>
        { threads with sections }.moveWorker worker .notifying
    | _ => none
  | .notifyNotFull worker woken =>
    match threads.worker worker with
    | .notifying => (threads.notFull.notifyOne woken).map fun notFull =>
        { threads with notFull }.moveWorker worker .entering
    | _ => none

section Cases

variable {threads after : Threads P F W Q} {producer : Q} {worker : W} {prop : P}
  {func : TaskItem F} {locked : Bool}

theorem push_cases (opened : threads.queue.bstop = false)
    (pushed : threads.push producer prop func = some after) :
    threads.sections.next (.addTask prop func) = some (threads.sections.accept prop func) ∧
      after = { threads with sections := threads.sections.accept prop func }.moveProducer producer
        .notifying := by
  have accepts : threads.sections.next (.addTask prop func) =
      some (threads.sections.accept prop func) := by
    simp [State.next, show threads.sections.queue.bstop = false from opened]
  refine ⟨accepts, ?_⟩
  simp only [push, accepts, opened, Option.map_some, Option.some.injEq] at pushed
  exact pushed.symm

theorem call_cases (taken : threads.next (.call producer prop func) = some after) :
    threads.producer producer = .outside ∧
      (after = threads ∨ after = threads.moveProducer producer (.entered prop func)) := by
  simp only [next] at taken
  split at taken
  · rename_i here
    refine ⟨here, ?_⟩
    split at taken <;> cases taken
    · exact .inl rfl
    · exact .inr rfl
  · cases taken

theorem fastTest_cases (taken : threads.next (.fastTest producer) = some after) :
    ∃ prop func, threads.producer producer = .entered prop func ∧
      after = threads.moveProducer producer
        (if threads.queue.notFull then .fast prop func else .slow prop func) := by
  simp only [next] at taken
  split at taken
  · rename_i prop func here
    exact ⟨prop, func, here, (Option.some.inj taken).symm⟩
  · cases taken

theorem tryLock_cases (taken : threads.next (.tryLock producer locked) = some after) :
    ∃ prop func, threads.producer producer = .fast prop func ∧
      ((locked = true ∧ threads.push producer prop func = some after) ∨
        (locked = false ∧ after = threads.moveProducer producer (.slow prop func))) := by
  simp only [next] at taken
  split at taken
  · rename_i prop func here
    refine ⟨prop, func, here, ?_⟩
    split at taken
    · rename_i yes
      exact .inl ⟨yes, taken⟩
    · rename_i no
      exact .inr ⟨by simpa using no, (Option.some.inj taken).symm⟩
  · cases taken

theorem lock_cases (opened : threads.queue.bstop = false)
    (taken : threads.next (.lock producer) = some after) :
    ∃ prop func, threads.producer producer = .slow prop func ∧
      producer ∉ threads.notFull.waiters ∧
      ((threads.queue.notFull = true ∧ threads.push producer prop func = some after) ∨
        (threads.queue.notFull = false ∧
          after = { threads with notFull := threads.notFull.wait producer })) := by
  simp only [next] at taken
  split at taken
  · rename_i prop func here
    split at taken
    · cases taken
    · rename_i awake
      refine ⟨prop, func, here, awake, ?_⟩
      cases room : threads.queue.notFull with
      | true =>
        left
        exact ⟨rfl, by simpa [room] using taken⟩
      | false =>
        right
        exact ⟨rfl, by simpa [room, opened] using taken.symm⟩
  · cases taken

theorem notifyNotEmpty_cases {woken : Option W}
    (taken : threads.next (.notifyNotEmpty producer woken) = some after) :
    threads.producer producer = .notifying ∧ ∃ notEmpty,
      threads.notEmpty.notifyOne woken = some notEmpty ∧
        after = { threads with notEmpty }.moveProducer producer .outside := by
  simp only [next] at taken
  split at taken
  · rename_i here
    obtain ⟨notEmpty, notified, same⟩ := Option.map_eq_some_iff.mp taken
    exact ⟨here, notEmpty, notified, same.symm⟩
  · cases taken

/-- The first section of `pop_task` either sleeps on an empty queue or is a section of
the queue. -/
theorem begin_cases (taken : threads.next (.popBegin worker) = some after) :
    threads.worker worker = .entering ∧ worker ∉ threads.notEmpty.waiters ∧
      ((threads.queue.popBegin = .waits ∧
          after = { threads with notEmpty := threads.notEmpty.wait worker }) ∨
        ∃ sections, threads.sections.next (.popBegin worker) = some sections ∧
          after = { threads with sections }.moveWorker worker
            (if (sections.running worker).isSome then .executing else .entering)) := by
  simp only [next] at taken
  split at taken
  · rename_i here
    split at taken
    · cases taken
    · rename_i awake
      refine ⟨here, awake, ?_⟩
      split at taken
      · rename_i waits
        exact .inl ⟨waits, (Option.some.inj taken).symm⟩
      · obtain ⟨sections, begun, same⟩ := Option.map_eq_some_iff.mp taken
        exact .inr ⟨sections, begun, same.symm⟩
  · cases taken

theorem finish_cases (taken : threads.next (.popFinish worker) = some after) :
    threads.worker worker = .executing ∧ ∃ sections,
      threads.sections.next (.popFinish worker) = some sections ∧
        after = { threads with sections }.moveWorker worker .notifying := by
  simp only [next] at taken
  split at taken
  · rename_i here
    obtain ⟨sections, finished, same⟩ := Option.map_eq_some_iff.mp taken
    exact ⟨here, sections, finished, same.symm⟩
  · cases taken

theorem notifyNotFull_cases {woken : Option Q}
    (taken : threads.next (.notifyNotFull worker woken) = some after) :
    threads.worker worker = .notifying ∧ ∃ notFull,
      threads.notFull.notifyOne woken = some notFull ∧
        after = { threads with notFull }.moveWorker worker .entering := by
  simp only [next] at taken
  split at taken
  · rename_i here
    obtain ⟨notFull, notified, same⟩ := Option.map_eq_some_iff.mp taken
    exact ⟨here, notFull, notified, same.symm⟩
  · cases taken

end Cases

end Threads

/-- The function that a producer has still to add. -/
def ProducerPc.func : ProducerPc P F → Option (TaskItem F)
  | .entered _ func => some func
  | .fast _ func => some func
  | .slow _ func => some func
  | _ => none

namespace Threads

variable {threads after : Threads P F W Q} {action : ThreadAction P F W Q} {held : Finset P}

/-- A step of a thread is a section of the queue, or does not touch the queue. -/
theorem sections_of_next (opened : threads.queue.bstop = false)
    (taken : threads.next action = some after) : after.sections = threads.sections ∨
      ∃ inner : Action P F W, threads.sections.next inner = some after.sections ∧
        ((∃ worker, inner = .popBegin worker ∨ inner = .popFinish worker) ∨
          ∃ producer prop func, (threads.producer producer).func = some func ∧
            inner = .addTask prop func) := by
  cases action with
  | call producer prop func =>
    obtain ⟨_, rfl | rfl⟩ := call_cases taken <;> exact .inl rfl
  | fastTest producer =>
    obtain ⟨prop, func, _, rfl⟩ := fastTest_cases taken
    exact .inl rfl
  | tryLock producer locked =>
    obtain ⟨prop, func, here, ⟨_, pushed⟩ | ⟨_, rfl⟩⟩ := tryLock_cases taken
    · obtain ⟨added, rfl⟩ := push_cases opened pushed
      exact .inr ⟨_, added, .inr ⟨producer, prop, func, by rw [here]; rfl, rfl⟩⟩
    · exact .inl rfl
  | lock producer =>
    obtain ⟨prop, func, here, _, ⟨_, pushed⟩ | ⟨_, rfl⟩⟩ := lock_cases opened taken
    · obtain ⟨added, rfl⟩ := push_cases opened pushed
      exact .inr ⟨_, added, .inr ⟨producer, prop, func, by rw [here]; rfl, rfl⟩⟩
    · exact .inl rfl
  | notifyNotEmpty producer woken =>
    obtain ⟨_, notEmpty, _, rfl⟩ := notifyNotEmpty_cases taken
    exact .inl rfl
  | popBegin worker =>
    obtain ⟨_, _, ⟨_, rfl⟩ | ⟨sections, begun, rfl⟩⟩ := begin_cases taken
    · exact .inl rfl
    · exact .inr ⟨_, begun, .inl ⟨worker, .inl rfl⟩⟩
  | popFinish worker =>
    obtain ⟨_, sections, finished, rfl⟩ := finish_cases taken
    exact .inr ⟨_, finished, .inl ⟨worker, .inr rfl⟩⟩
  | notifyNotFull worker woken =>
    obtain ⟨_, notFull, _, rfl⟩ := notifyNotFull_cases taken
    exact .inl rfl

/-- Whatever the threads do, the queue stays steady. -/
theorem steady_step (steady : Steady threads.sections held)
    (taken : threads.next action = some after) : ∃ held, Steady after.sections held := by
  rcases sections_of_next steady.opened taken with same | ⟨inner, stepped, which⟩
  · exact ⟨held, same ▸ steady⟩
  · have lasting : inner.Lasting := by
      rcases which with ⟨worker, rfl | rfl⟩ | ⟨_, prop, func, _, rfl⟩ <;> trivial
    exact ⟨_, steady.step lasting stepped⟩

omit [DecidableEq F] [DecidableEq W] [DecidableEq Q] in
theorem init_steady (maxTaskCount : UInt64) :
    Steady (init maxTaskCount : Threads P F W Q).sections ∅ := init_settled.toSteady

end Threads

end BTool.TaskQueue.SerialTaskQueue
