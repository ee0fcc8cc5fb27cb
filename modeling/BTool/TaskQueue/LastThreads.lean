import BTool.Foundation.CondVar
import BTool.TaskQueue.LatestTask

/-! Callers and workers around a `LastTaskQueue`, one step for each thing a thread does
between two acquisitions of `m_mtx`. `start` clears `m_bstop` without the lock, so
`add_task`, which reads it twice under the lock, takes two steps there. A sleeper may also
wake up by itself and look at the queue again. -/

namespace BTool.TaskQueue.LastTaskQueue

open BTool.Foundation

/-- Where a thread is in the member function of the queue that it calls. -/
inductive CallerPc (P F : Type) where
  | outside
  /-- At the lock of `add_task`, or asleep in its wait. -/
  | adding (prop : P) (func : TaskItem F)
  /-- Past the wait, with the lock, before `m_bstop` is read again. -/
  | holding (prop : P) (func : TaskItem F)
  /-- At `m_cv_not_empty.notify_one()` of `add_task`. -/
  | added
  /-- At `m_cv_not_full.notify_one()` of `remove_prop`. -/
  | removed
  /-- In `start`, at `m_cv_not_full.notify_all()`. -/
  | started
  /-- In `start`, at `m_cv_not_empty.notify_all()`. -/
  | starting

/-- Where a worker is in its loop over `pop_task`. -/
inductive WorkerPc where
  /-- At the lock of the first section, or asleep in its wait. -/
  | entering
  | executing
  /-- At `m_cv_not_full.notify_one()`. -/
  | notifying
deriving DecidableEq

structure Threads (P F W Q : Type) [DecidableEq P] where
  sections : State P F W
  /-- The thread that keeps `m_mtx` from one step to the next. -/
  mtx : Option Q
  caller : Q → CallerPc P F
  worker : W → WorkerPc
  notFull : CondVar Q
  notEmpty : CondVar W

inductive ThreadAction (P F W Q : Type) where
  | addTask (caller : Q) (prop : P) (func : TaskItem F)
  | lock (caller : Q)
  | push (caller : Q)
  | notifyNotEmpty (caller : Q) (woken : Option W)
  | removeProp (caller : Q) (prop : P)
  | notifyRemoved (caller : Q) (woken : Option Q)
  | clear
  | stop (bwait : Bool)
  | start (caller : Q)
  | notifyStarted (caller : Q)
  | popBegin (worker : W)
  | popFinish (worker : W)
  | notifyNotFull (worker : W) (woken : Option Q)
  /-- A spurious wake-up of a caller in its wait on `m_cv_not_full`. -/
  | wakeCaller (caller : Q)
  /-- A spurious wake-up of a worker in its wait on `m_cv_not_empty`. -/
  | wakeWorker (worker : W)

variable {P F W Q : Type} [DecidableEq P] [DecidableEq W] [DecidableEq Q]

namespace Threads

def init (maxTaskCount : UInt64) : Threads P F W Q :=
  { sections := .init maxTaskCount, mtx := none, caller := fun _ => .outside,
    worker := fun _ => .entering, notFull := .empty, notEmpty := .empty }

abbrev queue (threads : Threads P F W Q) : LastTaskQueue P F := threads.sections.queue

def moveCaller (threads : Threads P F W Q) (caller : Q) (pc : CallerPc P F) : Threads P F W Q :=
  { threads with caller := Function.update threads.caller caller pc }

def moveWorker (threads : Threads P F W Q) (worker : W) (pc : WorkerPc) : Threads P F W Q :=
  { threads with worker := Function.update threads.worker worker pc }

def setQueue (threads : Threads P F W Q) (queue : LastTaskQueue P F) : Threads P F W Q :=
  { threads with sections.queue := queue }

/-- Both condition variables after `notify_all`. -/
def wakeAll (threads : Threads P F W Q) : Threads P F W Q :=
  { threads with notFull := .empty, notEmpty := .empty }

def next (threads : Threads P F W Q) : ThreadAction P F W Q → Option (Threads P F W Q)
  | .addTask caller prop func =>
    match threads.caller caller with
    | .outside =>
      some (if threads.queue.bstop then threads else threads.moveCaller caller (.adding prop func))
    | _ => none
  | .lock caller =>
    match threads.caller caller with
    | .adding prop func =>
      if threads.mtx.isSome || caller ∈ threads.notFull.waiters then none
      else if threads.queue.bstop || threads.queue.notFull then
        some ({ threads with mtx := some caller }.moveCaller caller (.holding prop func))
      else some { threads with notFull := threads.notFull.wait caller }
    | _ => none
  | .push caller =>
    match threads.caller caller with
    | .holding prop func =>
      some (if threads.queue.bstop then { threads with mtx := none }.moveCaller caller .outside
        else ({ threads with mtx := none }.setQueue (threads.queue.setTask prop func)).moveCaller
          caller .added)
    | _ => none
  | .notifyNotEmpty caller woken =>
    match threads.caller caller with
    | .added => (threads.notEmpty.notifyOne woken).map fun notEmpty =>
        { threads with notEmpty }.moveCaller caller .outside
    | _ => none
  | .removeProp caller prop =>
    match threads.caller caller with
    | .outside =>
      if threads.mtx.isSome then none
      else some ((threads.setQueue (threads.queue.removeProp prop)).moveCaller caller .removed)
    | _ => none
  | .notifyRemoved caller woken =>
    match threads.caller caller with
    | .removed => (threads.notFull.notifyOne woken).map fun notFull =>
        { threads with notFull }.moveCaller caller .outside
    | _ => none
  | .clear =>
    if threads.mtx.isSome then none else some (threads.setQueue threads.queue.clear).wakeAll
  | .stop bwait =>
    if threads.mtx.isSome then none
    else if threads.queue.bstop then some threads
    else some (threads.setQueue (threads.queue.stop bwait)).wakeAll
  | .start caller =>
    match threads.caller caller with
    | .outside =>
      some (if threads.queue.bstop then (threads.setQueue threads.queue.start).moveCaller caller .started
        else threads)
    | _ => none
  | .notifyStarted caller =>
    match threads.caller caller with
    | .started => some ({ threads with notFull := .empty }.moveCaller caller .starting)
    | .starting => some ({ threads with notEmpty := .empty }.moveCaller caller .outside)
    | _ => none
  | .popBegin worker =>
    match threads.worker worker with
    | .entering =>
      if threads.mtx.isSome || worker ∈ threads.notEmpty.waiters then none
      else
        match threads.queue.popBegin with
        | .waits => some { threads with notEmpty := threads.notEmpty.wait worker }
        | _ => (threads.sections.next (.popBegin worker)).map fun sections =>
            { threads with sections }.moveWorker worker
              (if (sections.running worker).isSome then .executing else .entering)
    | _ => none
  | .popFinish worker =>
    match threads.worker worker with
    | .executing =>
      if threads.mtx.isSome then none
      else (threads.sections.next (.popFinish worker)).map fun sections =>
        { threads with sections }.moveWorker worker .notifying
    | _ => none
  | .notifyNotFull worker woken =>
    match threads.worker worker with
    | .notifying => (threads.notFull.notifyOne woken).map fun notFull =>
        { threads with notFull }.moveWorker worker .entering
    | _ => none
  | .wakeCaller caller => (threads.notFull.wake caller).map fun notFull => { threads with notFull }
  | .wakeWorker worker => (threads.notEmpty.wake worker).map fun notEmpty => { threads with notEmpty }

section Cases

variable {threads after : Threads P F W Q} {caller : Q} {worker : W} {prop : P} {func : TaskItem F}

/-- A begin section waits on an empty queue only. -/
theorem nothing_of_waits {queue : LastTaskQueue P F} (waits : queue.popBegin = .waits) :
    queue.waitProps = [] := by
  unfold popBegin at waits
  split at waits
  · rename_i blocked
    simpa [LastTaskQueue.notEmpty] using (Bool.and_eq_true_iff.mp blocked).2
  split at waits
  · cases waits
  split at waits
  · cases waits
  split at waits <;> cases waits

theorem addTask_cases (taken : threads.next (.addTask caller prop func) = some after) :
    threads.caller caller = .outside ∧
      (after = threads ∨ after = threads.moveCaller caller (.adding prop func)) := by
  simp only [next] at taken
  split at taken
  · rename_i here
    refine ⟨here, ?_⟩
    split at taken <;> cases taken
    · exact .inl rfl
    · exact .inr rfl
  · cases taken

/-- At the lock a caller that is awake gets past its wait or falls asleep on a full queue. -/
theorem lock_cases (taken : threads.next (.lock caller) = some after) :
    ∃ prop func, threads.caller caller = .adding prop func ∧ threads.mtx = none ∧
      caller ∉ threads.notFull.waiters ∧
      (((threads.queue.bstop = true ∨ threads.queue.notFull = true) ∧
          after = { threads with mtx := some caller }.moveCaller caller (.holding prop func)) ∨
        (threads.queue.bstop = false ∧ threads.queue.notFull = false ∧
          after = { threads with notFull := threads.notFull.wait caller })) := by
  simp only [next] at taken
  split at taken
  · rename_i prop func here
    split at taken
    · cases taken
    rename_i entry
    obtain ⟨free, awake⟩ : threads.mtx = none ∧ caller ∉ threads.notFull.waiters := by simpa using entry
    refine ⟨prop, func, here, free, awake, ?_⟩
    split at taken
    · rename_i passes
      exact .inl ⟨by simpa using passes, (Option.some.inj taken).symm⟩
    · rename_i full
      obtain ⟨opened, full⟩ : threads.queue.bstop = false ∧ threads.queue.notFull = false := by
        simpa using full
      exact .inr ⟨opened, full, (Option.some.inj taken).symm⟩
  · cases taken

theorem push_cases (taken : threads.next (.push caller) = some after) :
    ∃ prop func, threads.caller caller = .holding prop func ∧
      ((threads.queue.bstop = true ∧
          after = { threads with mtx := none }.moveCaller caller .outside) ∨
        (threads.queue.bstop = false ∧
          after = ({ threads with mtx := none }.setQueue (threads.queue.setTask prop func)).moveCaller
            caller .added)) := by
  simp only [next] at taken
  split at taken
  · rename_i prop func here
    refine ⟨prop, func, here, ?_⟩
    split at taken <;> rename_i stopped
    · exact .inl ⟨stopped, (Option.some.inj taken).symm⟩
    · exact .inr ⟨by simpa using stopped, (Option.some.inj taken).symm⟩
  · cases taken

theorem notifyNotEmpty_cases {woken : Option W}
    (taken : threads.next (.notifyNotEmpty caller woken) = some after) :
    threads.caller caller = .added ∧ ∃ notEmpty, threads.notEmpty.notifyOne woken = some notEmpty ∧
      after = { threads with notEmpty }.moveCaller caller .outside := by
  simp only [next] at taken
  split at taken
  · rename_i here
    obtain ⟨notEmpty, notified, same⟩ := Option.map_eq_some_iff.mp taken
    exact ⟨here, notEmpty, notified, same.symm⟩
  · cases taken

theorem removeProp_cases (taken : threads.next (.removeProp caller prop) = some after) :
    threads.caller caller = .outside ∧ threads.mtx = none ∧
      after = (threads.setQueue (threads.queue.removeProp prop)).moveCaller caller .removed := by
  simp only [next] at taken
  split at taken
  · rename_i here
    split at taken
    · cases taken
    · rename_i free
      exact ⟨here, by simpa using free, (Option.some.inj taken).symm⟩
  · cases taken

theorem notifyRemoved_cases {woken : Option Q}
    (taken : threads.next (.notifyRemoved caller woken) = some after) :
    threads.caller caller = .removed ∧ ∃ notFull, threads.notFull.notifyOne woken = some notFull ∧
      after = { threads with notFull }.moveCaller caller .outside := by
  simp only [next] at taken
  split at taken
  · rename_i here
    obtain ⟨notFull, notified, same⟩ := Option.map_eq_some_iff.mp taken
    exact ⟨here, notFull, notified, same.symm⟩
  · cases taken

theorem clear_cases (taken : threads.next .clear = some after) :
    threads.mtx = none ∧ after = (threads.setQueue threads.queue.clear).wakeAll := by
  simp only [next] at taken
  split at taken
  · cases taken
  · rename_i free
    exact ⟨by simpa using free, (Option.some.inj taken).symm⟩

theorem stop_cases {bwait : Bool} (taken : threads.next (.stop bwait) = some after) :
    threads.mtx = none ∧ (after = threads ∨
      (threads.queue.bstop = false ∧ after = (threads.setQueue (threads.queue.stop bwait)).wakeAll)) := by
  simp only [next] at taken
  split at taken
  · cases taken
  rename_i free
  refine ⟨by simpa using free, ?_⟩
  split at taken <;> rename_i stopped
  · exact .inl (Option.some.inj taken).symm
  · exact .inr ⟨by simpa using stopped, (Option.some.inj taken).symm⟩

theorem start_cases (taken : threads.next (.start caller) = some after) :
    threads.caller caller = .outside ∧
      (after = threads ∨ (threads.queue.bstop = true ∧
        after = (threads.setQueue threads.queue.start).moveCaller caller .started)) := by
  simp only [next] at taken
  split at taken
  · rename_i here
    refine ⟨here, ?_⟩
    split at taken <;> rename_i stopped <;> cases taken
    · exact .inr ⟨stopped, rfl⟩
    · exact .inl rfl
  · cases taken

theorem notifyStarted_cases (taken : threads.next (.notifyStarted caller) = some after) :
    (threads.caller caller = .started ∧
        after = { threads with notFull := .empty }.moveCaller caller .starting) ∨
      (threads.caller caller = .starting ∧
        after = { threads with notEmpty := .empty }.moveCaller caller .outside) := by
  simp only [next] at taken
  split at taken
  · rename_i here
    exact .inl ⟨here, (Option.some.inj taken).symm⟩
  · rename_i here
    exact .inr ⟨here, (Option.some.inj taken).symm⟩
  · cases taken

/-- The first section of `pop_task` sleeps on an empty queue or is a section of the queue. -/
theorem begin_cases (taken : threads.next (.popBegin worker) = some after) :
    threads.worker worker = .entering ∧ threads.mtx = none ∧ worker ∉ threads.notEmpty.waiters ∧
      ((threads.queue.waitProps = [] ∧
          after = { threads with notEmpty := threads.notEmpty.wait worker }) ∨
        ∃ sections, threads.sections.next (.popBegin worker) = some sections ∧
          after = { threads with sections }.moveWorker worker
            (if (sections.running worker).isSome then .executing else .entering)) := by
  simp only [next] at taken
  split at taken
  · rename_i here
    split at taken
    · cases taken
    rename_i entry
    obtain ⟨free, awake⟩ : threads.mtx = none ∧ worker ∉ threads.notEmpty.waiters := by
      simpa using entry
    refine ⟨here, free, awake, ?_⟩
    split at taken
    · rename_i waits
      exact .inl ⟨nothing_of_waits waits, (Option.some.inj taken).symm⟩
    · obtain ⟨sections, begun, same⟩ := Option.map_eq_some_iff.mp taken
      exact .inr ⟨sections, begun, same.symm⟩
  · cases taken

theorem finish_cases (taken : threads.next (.popFinish worker) = some after) :
    threads.worker worker = .executing ∧ threads.mtx = none ∧ ∃ sections,
      threads.sections.next (.popFinish worker) = some sections ∧
        after = { threads with sections }.moveWorker worker .notifying := by
  simp only [next] at taken
  split at taken
  · rename_i here
    split at taken
    · cases taken
    rename_i free
    obtain ⟨sections, finished, same⟩ := Option.map_eq_some_iff.mp taken
    exact ⟨here, by simpa using free, sections, finished, same.symm⟩
  · cases taken

theorem notifyNotFull_cases {woken : Option Q}
    (taken : threads.next (.notifyNotFull worker woken) = some after) :
    threads.worker worker = .notifying ∧ ∃ notFull, threads.notFull.notifyOne woken = some notFull ∧
      after = { threads with notFull }.moveWorker worker .entering := by
  simp only [next] at taken
  split at taken
  · rename_i here
    obtain ⟨notFull, notified, same⟩ := Option.map_eq_some_iff.mp taken
    exact ⟨here, notFull, notified, same.symm⟩
  · cases taken

theorem wakeCaller_cases (taken : threads.next (.wakeCaller caller) = some after) :
    ∃ notFull, threads.notFull.notifyOne (some caller) = some notFull ∧ after = { threads with notFull } := by
  obtain ⟨notFull, woken, same⟩ := Option.map_eq_some_iff.mp taken
  exact ⟨notFull, woken, same.symm⟩

theorem wakeWorker_cases (taken : threads.next (.wakeWorker worker) = some after) :
    ∃ notEmpty, threads.notEmpty.notifyOne (some worker) = some notEmpty ∧ after = { threads with notEmpty } := by
  obtain ⟨notEmpty, woken, same⟩ := Option.map_eq_some_iff.mp taken
  exact ⟨notEmpty, woken, same.symm⟩

end Cases

end Threads

end BTool.TaskQueue.LastTaskQueue
