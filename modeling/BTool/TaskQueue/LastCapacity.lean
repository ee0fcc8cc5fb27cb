import BTool.TaskQueue.LastProgress

/-! The maximum of a `LastTaskQueue` under threads: `add_task` looks at `m_bstop` once to end its wait
and once more before it adds, and `start` may come in between. -/

namespace BTool.TaskQueue.LastTaskQueue.Threads

open BTool.Foundation

variable {P F W Q : Type} [DecidableEq P] [DecidableEq W] [DecidableEq Q]
  {threads after : Threads P F W Q} {action : ThreadAction P F W Q} {maxTaskCount : UInt64}
  {actions : List (ThreadAction P F W Q)} {caller : Q}

/-- An `add_task` puts a new property into a full queue. -/
def Oversteps (threads : Threads P F W Q) (action : ThreadAction P F W Q) : Prop :=
  ∃ caller prop func, action = .push caller ∧ threads.caller caller = .holding prop func ∧
    threads.queue.bstop = false ∧ threads.queue.notFull = false ∧ prop ∉ threads.queue.waitProps

/-- A start in the middle of the section of an `add_task`. -/
def Interrupts (threads : Threads P F W Q) (action : ThreadAction P F W Q) : Prop :=
  ∃ caller, action = .start caller ∧ threads.queue.bstop = true ∧ threads.mtx ≠ none

/-- Only the section of `add_task` has the queue grow. -/
theorem queue_step (taken : threads.next action = some after) :
    (after.queue.waitProps.Sublist threads.queue.waitProps ∧
        after.queue.maxTaskCount = threads.queue.maxTaskCount ∧ ¬ threads.Oversteps action) ∨
      ∃ caller prop func, action = .push caller ∧ threads.caller caller = .holding prop func ∧
        threads.queue.bstop = false ∧ after.queue = threads.queue.setTask prop func := by
  cases action with
  | addTask caller prop func =>
    obtain ⟨_, rfl | rfl⟩ := addTask_cases taken <;> exact .inl ⟨.refl _, rfl, by simp [Oversteps]⟩
  | lock caller =>
    obtain ⟨prop, func, _, _, _, ⟨_, rfl⟩ | ⟨_, _, rfl⟩⟩ := lock_cases taken <;>
      exact .inl ⟨.refl _, rfl, by simp [Oversteps]⟩
  | push caller =>
    obtain ⟨prop, func, here, ⟨stopped, rfl⟩ | ⟨opened, rfl⟩⟩ := push_cases taken
    · exact .inl ⟨.refl _, rfl, by simp [Oversteps, stopped]⟩
    · exact .inr ⟨caller, prop, func, rfl, here, opened, rfl⟩
  | notifyNotEmpty caller woken =>
    obtain ⟨_, notEmpty, _, rfl⟩ := notifyNotEmpty_cases taken
    exact .inl ⟨.refl _, rfl, by simp [Oversteps]⟩
  | removeProp caller prop =>
    obtain ⟨_, _, rfl⟩ := removeProp_cases taken
    exact .inl ⟨List.filter_sublist, rfl, by simp [Oversteps]⟩
  | notifyRemoved caller woken =>
    obtain ⟨_, notFull, _, rfl⟩ := notifyRemoved_cases taken
    exact .inl ⟨.refl _, rfl, by simp [Oversteps]⟩
  | clear =>
    obtain ⟨_, rfl⟩ := clear_cases taken
    exact .inl ⟨List.nil_sublist _, rfl, by simp [Oversteps]⟩
  | stop bwait =>
    obtain ⟨_, rfl | ⟨opened, rfl⟩⟩ := stop_cases taken
    · exact .inl ⟨.refl _, rfl, by simp [Oversteps]⟩
    · cases bwait
      · simp [wakeAll, setQueue, LastTaskQueue.stop, opened, clearInner, Oversteps]
      · simp [wakeAll, setQueue, LastTaskQueue.stop, opened, Oversteps]
  | start caller =>
    obtain ⟨_, rfl | ⟨_, rfl⟩⟩ := start_cases taken <;> exact .inl ⟨.refl _, rfl, by simp [Oversteps]⟩
  | notifyStarted caller =>
    rcases notifyStarted_cases taken with ⟨_, rfl⟩ | ⟨_, rfl⟩ <;> exact .inl ⟨.refl _, rfl, by simp [Oversteps]⟩
  | popBegin worker =>
    obtain ⟨_, _, _, ⟨_, rfl⟩ | ⟨sections, begun, rfl⟩⟩ := begin_cases taken
    · exact .inl ⟨.refl _, rfl, by simp [Oversteps]⟩
    · obtain ⟨_, ⟨_, rfl⟩ | ⟨prop, _, rfl⟩⟩ := State.popBegin_cases begun
      · exact .inl ⟨.refl _, rfl, by simp [Oversteps]⟩
      · exact .inl ⟨List.erase_sublist, rfl, by simp [Oversteps]⟩
  | popFinish worker =>
    obtain ⟨_, _, sections, finished, rfl⟩ := finish_cases taken
    obtain ⟨current, _, rfl⟩ := State.popFinish_cases finished
    exact .inl ⟨.refl _, rfl, by simp [Oversteps]⟩
  | notifyNotFull worker woken =>
    obtain ⟨_, notFull, _, rfl⟩ := notifyNotFull_cases taken
    exact .inl ⟨.refl _, rfl, by simp [Oversteps]⟩
  | wakeCaller caller =>
    obtain ⟨notFull, _, rfl⟩ := wakeCaller_cases taken
    exact .inl ⟨.refl _, rfl, by simp [Oversteps]⟩
  | wakeWorker worker =>
    obtain ⟨notEmpty, _, rfl⟩ := wakeWorker_cases taken
    exact .inl ⟨.refl _, rfl, by simp [Oversteps]⟩

private theorem lt_of_notFull {queue : LastTaskQueue P F} (bounded : queue.maxTaskCount ≠ 0) :
    queue.notFull = true ↔ queue.size < queue.maxTaskCount.toNat := by
  simp [LastTaskQueue.notFull, bounded]

/-- A step from a queue within its maximum leaves it there unless it oversteps. -/
theorem size_step (secured : Secured threads) (bounded : threads.queue.maxTaskCount ≠ 0)
    (within : threads.queue.size ≤ threads.queue.maxTaskCount.toNat)
    (taken : threads.next action = some after) :
    after.queue.maxTaskCount = threads.queue.maxTaskCount ∧
      (after.queue.size ≤ threads.queue.maxTaskCount.toNat ↔ ¬ threads.Oversteps action) := by
  rcases queue_step taken with ⟨fewer, same, fine⟩ | ⟨caller, prop, func, rfl, here, opened, now⟩
  · exact ⟨same, iff_of_true (fewer.length_le.trans within) fine⟩
  rw [now]
  refine ⟨rfl, ?_⟩
  have long : (threads.queue.setTask prop func).waitProps =
      if prop ∈ threads.queue.waitProps then threads.queue.waitProps else threads.queue.waitProps ++ [prop] :=
    waitProps_setTask secured.listed
  by_cases waiting : prop ∈ threads.queue.waitProps
  · rw [if_pos waiting] at long
    refine iff_of_true (by simpa [LastTaskQueue.size, long] using within) ?_
    rintro ⟨other, prop', func', same, here', _, _, fresh⟩
    cases same
    rw [here] at here'
    cases here'
    exact fresh waiting
  · rw [if_neg waiting] at long
    have grown : (threads.queue.setTask prop func).size = threads.queue.size + 1 := by
      simp [LastTaskQueue.size, long]
    rw [grown, Nat.succ_le_iff, ← lt_of_notFull bounded]
    constructor
    · rintro room ⟨other, prop', func', _, _, _, full, _⟩
      rw [room] at full
      cases full
    · intro fine
      by_contra full
      exact fine ⟨caller, prop, func, rfl, here, opened, by simpa using full, waiting⟩

omit [DecidableEq P] [DecidableEq W] in
/-- A caller that is not past its wait, where it goes, leaves the others past theirs. -/
private theorem holds_update {places : Q → CallerPc P F} {pc : CallerPc P F} {other : Q}
    (idle : pc.holds = false) (holds : (Function.update places caller pc other).holds = true) :
    other ≠ caller ∧ (places other).holds = true := by
  by_cases same : other = caller
  · subst same
    rw [Function.update_self, idle] at holds
    cases holds
  · exact ⟨same, by rwa [Function.update_of_ne same] at holds⟩

/-- Who is past its wait has got there with this step, by room or a stop, or has been there with the same queue,
but for a start. -/
theorem held_step (secured : Secured threads) (taken : threads.next action = some after) {other : Q}
    (holds : (after.caller other).holds = true) :
    ((threads.caller other).holds = true ∧
        (after.queue = threads.queue ∨ threads.Interrupts action ∧ after.queue = threads.queue.start)) ∨
      (action = .lock other ∧ (threads.queue.bstop = true ∨ threads.queue.notFull = true) ∧
        after.queue = threads.queue) := by
  have vacant (free : threads.mtx = none) (caller : Q) : (threads.caller caller).holds ≠ true := by
    rw [Ne, ← secured.held caller, free]
    simp
  cases action with
  | addTask caller prop func =>
    obtain ⟨_, rfl | rfl⟩ := addTask_cases taken
    · exact .inl ⟨holds, .inl rfl⟩
    · exact .inl ⟨(holds_update rfl holds).2, .inl rfl⟩
  | lock caller =>
    obtain ⟨prop, func, _, free, _, ⟨passes, rfl⟩ | ⟨_, _, rfl⟩⟩ := lock_cases taken
    · by_cases same : other = caller
      · exact .inr ⟨by rw [same], passes, rfl⟩
      · refine absurd ?_ (vacant free other)
        simpa [moveCaller, Function.update_of_ne same] using holds
    · exact absurd holds (vacant free other)
  | push caller =>
    obtain ⟨prop, func, here, outcome⟩ := push_cases taken
    have mine : threads.mtx = some caller := (secured.held caller).mpr (by rw [here]; rfl)
    have gone : other ≠ caller ∧ (threads.caller other).holds = true := by
      rcases outcome with ⟨_, rfl⟩ | ⟨_, rfl⟩ <;> exact holds_update rfl holds
    have both := ((secured.held other).mpr gone.2).symm.trans mine
    exact absurd (Option.some.inj both) gone.1
  | notifyNotEmpty caller woken =>
    obtain ⟨_, notEmpty, _, rfl⟩ := notifyNotEmpty_cases taken
    exact .inl ⟨(holds_update rfl holds).2, .inl rfl⟩
  | removeProp caller prop =>
    obtain ⟨_, free, rfl⟩ := removeProp_cases taken
    exact absurd (holds_update rfl holds).2 (vacant free other)
  | notifyRemoved caller woken =>
    obtain ⟨_, notFull, _, rfl⟩ := notifyRemoved_cases taken
    exact .inl ⟨(holds_update rfl holds).2, .inl rfl⟩
  | clear =>
    obtain ⟨free, rfl⟩ := clear_cases taken
    exact absurd holds (vacant free other)
  | stop bwait =>
    obtain ⟨free, rfl | ⟨_, rfl⟩⟩ := stop_cases taken <;> exact absurd holds (vacant free other)
  | start caller =>
    obtain ⟨_, rfl | ⟨stopped, rfl⟩⟩ := start_cases taken
    · exact .inl ⟨holds, .inl rfl⟩
    · have was := (holds_update rfl holds).2
      have kept : threads.mtx ≠ none := by
        rw [(secured.held other).mpr was]
        simp
      exact .inl ⟨was, .inr ⟨⟨caller, rfl, stopped, kept⟩, rfl⟩⟩
  | notifyStarted caller =>
    rcases notifyStarted_cases taken with ⟨_, rfl⟩ | ⟨_, rfl⟩ <;>
      exact .inl ⟨(holds_update rfl holds).2, .inl rfl⟩
  | popBegin worker =>
    obtain ⟨_, free, _, ⟨_, rfl⟩ | ⟨sections, _, rfl⟩⟩ := begin_cases taken <;>
      exact absurd holds (vacant free other)
  | popFinish worker =>
    obtain ⟨_, free, sections, _, rfl⟩ := finish_cases taken
    exact absurd holds (vacant free other)
  | notifyNotFull worker woken =>
    obtain ⟨_, notFull, _, rfl⟩ := notifyNotFull_cases taken
    exact .inl ⟨holds, .inl rfl⟩
  | wakeCaller caller =>
    obtain ⟨notFull, _, rfl⟩ := wakeCaller_cases taken
    exact .inl ⟨holds, .inl rfl⟩
  | wakeWorker worker =>
    obtain ⟨notEmpty, _, rfl⟩ := wakeWorker_cases taken
    exact .inl ⟨holds, .inl rfl⟩

/-- With a step at the lock this caller has got past its wait, and it has kept `m_mtx` since: it found room, and
there is room still, or it found a stop, which a start may have taken back. -/
def Entered (first : Threads P F W Q) (caller : Q) (done : List (ThreadAction P F W Q))
    (state : Threads P F W Q) : Prop :=
  ∃ early late before after, done = early ++ .lock caller :: late ∧ Path (Taken next) first early before ∧
    before.next (.lock caller) = some after ∧ Path (Taken next) after late state ∧
    (∀ between, Path.Visits (Taken next) after late between → between.mtx = some caller) ∧
    (state.queue.notFull = true ∨ before.queue.bstop = true ∧
      (state.queue.bstop = true ∨ Path.Meets (Taken next) Interrupts after late))

/-- Who is past its wait has entered its section. -/
theorem entered_of_path {first : Threads P F W Q} (secured : Secured first)
    (nobody : ∀ caller, (first.caller caller).holds = false)
    (path : Path (Taken next) first actions threads) (holds : (threads.caller caller).holds = true) :
    Entered first caller actions threads := by
  refine (path.history (fun done state => Secured state ∧
    ∀ caller, (state.caller caller).holds = true → Entered first caller done state) ⟨secured, ?_⟩ ?_).2 caller holds
  · intro caller holds
    cases (nobody caller).symm.trans holds
  rintro done before action after front ⟨was_secured, entered⟩ taken
  have secured := secured_step was_secured taken
  refine ⟨secured, fun caller holds => ?_⟩
  have keeps := (secured.held caller).mpr holds
  obtain ⟨was, kept⟩ | ⟨rfl, passes, same⟩ := held_step was_secured taken holds
  · obtain ⟨early, late, start, locked, rfl, reach, lock, since, always, found⟩ := entered caller was
    refine ⟨early, late ++ [action], start, locked, by simp, reach, lock, since.snoc taken, fun between visits => ?_,
      ?_⟩
    · rcases Path.visits_snoc.mp visits with earlier | now
      · exact always between earlier
      · exact (since.snoc taken).eq_of_path now ▸ keeps
    rcases found with room | ⟨stopped, still⟩
    · left
      rcases kept with same | ⟨_, same⟩ <;> rw [same] <;> exact room
    · refine .inr ⟨stopped, ?_⟩
      rcases still with still | met
      · rcases kept with same | ⟨interrupts, _⟩
        · exact .inl (same ▸ still)
        · exact .inr ((Path.meets_snoc since).mpr (.inr interrupts))
      · exact .inr ((Path.meets_snoc since).mpr (.inl met))
  · refine ⟨done, [], before, after, rfl, front, taken, .nil _, fun between visits => ?_, ?_⟩
    · obtain ⟨front, back, split, stays⟩ := visits
      obtain ⟨rfl, _⟩ := List.append_eq_nil_iff.mp split.symm
      cases stays
      exact keeps
    · rw [same]
      exact passes.symm.imp_right fun stopped => ⟨stopped, .inl stopped⟩

/-- The queue keeps its maximum in a run if and only if no add puts a new property into a full queue, and one does
so only where it found the queue stopped at the lock, and a start has come while it kept `m_mtx`. -/
theorem size_le_iff (bounded : maxTaskCount ≠ 0)
    (path : Path (Taken next) (init maxTaskCount : Threads P F W Q) actions threads) :
    ((∀ state, Path.Visits (Taken next) (init maxTaskCount : Threads P F W Q) actions state →
        state.queue.size ≤ maxTaskCount.toNat) ↔
      ∀ state action, Path.Takes (Taken next) (init maxTaskCount : Threads P F W Q) actions state action →
        ¬ state.Oversteps action) ∧
    ∀ front back state caller, actions = front ++ .push caller :: back →
      Path (Taken next) (init maxTaskCount : Threads P F W Q) front state → state.Oversteps (.push caller) →
        ∃ early late before after, front = early ++ .lock caller :: late ∧
          Path (Taken next) (init maxTaskCount) early before ∧ before.next (.lock caller) = some after ∧
          before.queue.bstop = true ∧ Path.Meets (Taken next) Interrupts after late ∧
          ∀ between, Path.Visits (Taken next) after late between → between.mtx = some caller := by
  constructor
  · refine path.visits_iff_all_takes (fun threads => Secured threads ∧ threads.queue.maxTaskCount = maxTaskCount)
      ?_ (Nat.zero_le _) ⟨init_secured, rfl⟩
    rintro before action after ⟨secured, rfl⟩ within taken
    obtain ⟨same, exact⟩ := size_step secured bounded within taken
    exact ⟨exact, fun _ => ⟨secured_step secured taken, same⟩⟩
  · rintro front back state caller _ reach ⟨other, prop, func, same, here, opened, full, _⟩
    cases same
    have nobody : ∀ caller, ((init maxTaskCount : Threads P F W Q).caller caller).holds = false := fun _ => rfl
    obtain ⟨early, late, before, after, split, start, lock, _, always, found⟩ :=
      entered_of_path init_secured nobody reach (by rw [here]; rfl)
    refine ⟨early, late, before, after, split, start, lock, ?_⟩
    rcases found with room | ⟨stopped, still | met⟩
    · cases full.symm.trans room
    · cases opened.symm.trans still
    · exact ⟨stopped, met, always⟩

/-- With one slot, taken, a stop that keeps the tasks and a start right behind it let a second task in. -/
theorem size_le_iff_one_slot :
    ∃ threads, Path (Taken next) (init 1 : Threads Nat Nat (Fin 1) (Fin 3))
        [.addTask 0 1 (some 10), .lock 0, .push 0, .addTask 1 2 (some 11), .stop true, .lock 1, .start 2,
          .push 1] threads ∧ threads.queue.size = 2 ∧
      ((∀ state, Path.Visits (Taken next) (init 1 : Threads Nat Nat (Fin 1) (Fin 3))
          [.addTask 0 1 (some 10), .lock 0, .push 0, .addTask 1 2 (some 11), .stop true, .lock 1, .start 2,
            .push 1] state → state.queue.size ≤ 1) ↔
        ∀ state action, Path.Takes (Taken next) (init 1 : Threads Nat Nat (Fin 1) (Fin 3))
          [.addTask 0 1 (some 10), .lock 0, .push 0, .addTask 1 2 (some 11), .stop true, .lock 1, .start 2,
            .push 1] state action → ¬ state.Oversteps action) := by
  have runs : ∃ threads ∈ exec next (init 1 : Threads Nat Nat (Fin 1) (Fin 3))
      [.addTask 0 1 (some 10), .lock 0, .push 0, .addTask 1 2 (some 11), .stop true, .lock 1, .start 2,
        .push 1], threads.queue.size = 2 := by decide
  obtain ⟨threads, ends, two⟩ := runs
  have path := exec_eq_some_iff.mp ends
  exact ⟨threads, path, two, (size_le_iff (by decide) path).1⟩

end BTool.TaskQueue.LastTaskQueue.Threads
