import BTool.TaskPool.RotateStarted

/-! The graceful stop of a `RotateSerialTaskPool`: `stop(true)` takes the write lock, so that no
`add_task` is under way, stops the inner pools, each of which first executes what it has, and
deletes them. -/

namespace BTool.TaskPool.RotateSerialTaskPool

open AtomicSwitch BTool.Foundation BTool.TaskQueue BTool.TaskQueue.ParallelTaskQueue ParallelTaskPool

variable {P F C : Type} [DecidableEq P] [DecidableEq F] [DecidableEq C] {stopper caller : C}
  {pool after : RotateSerialTaskPool P F C} {coreNum index : Nat} {inner reached : InnerPool P F C}
  {mover : Option C} {called : Prop}

/-- A step of `add_task`. -/
theorem Staged.add_step (staged : Staged called stopper pool)
    (locks : pool.mtx.Tracks Kind.writes Kind.reads pool.view.kind) (was : (pool.caller caller).resting = true)
    (taken : pool.callStep coreNum caller = some after) : Staged called stopper after := by
  have fits := staged.fits
  have keeps {pc : CallerPc P F} {mtx : RwMutex C} (outside : (pool.caller caller).inside = none)
      (rests : pc.resting = true) (here : CallerFits stopper pool.propIndex caller pc)
      (entry : ∀ entry, pc.entry = some entry → (pool.caller caller).entry = some entry) :
      Staged called stopper ({ pool with mtx }.moveCaller caller pc) := by
    refine staged.rested (fun index inner _ inside => ?_) was rests here le_rfl ?_ fits.accepted
    · rw [outside] at inside
      cases inside
    · exact fun known there => .inl ⟨entry known there, outside⟩
  cases place : pool.caller caller with
  | idle => simp [callStep, place] at taken
  | lockShared entry =>
    simp only [callStep, place] at taken
    obtain ⟨mtx, _, rfl⟩ := Option.map_eq_some_iff.mp taken
    exact keeps (by rw [place]; rfl) rfl rfl (by simp [place, CallerPc.entry])
  | addTest entry pc =>
    simp only [callStep, place, Option.some.injEq] at taken
    subst taken
    rcases pool.atomicSwitch.hasStarted pc with later | _ | _
    · exact keeps (by rw [place]; rfl) rfl rfl (by simp [place, CallerPc.entry])
    · exact keeps (by rw [place]; rfl) rfl rfl (by simp [CallerPc.entry])
    · exact keeps (by rw [place]; rfl) rfl rfl (by simp [place, CallerPc.entry])
  | getThreadIndex entry =>
    simp only [callStep, place] at taken
    obtain ⟨⟨found, index⟩, indexed, rfl⟩ := Option.map_eq_some_iff.mp taken
    unfold getThreadIndex at indexed
    split at indexed
    · rename_i known
      cases indexed
      exact keeps (by rw [place]; rfl) rfl known (by simp [place, CallerPc.entry])
    · rename_i new
      split at indexed <;> cases indexed
      refine (staged.indexed new).rested (fun index inner _ inside => ?_) was rfl (Function.update_self _ _ _) le_rfl ?_
        fits.accepted
      · simp [place, CallerPc.inside] at inside
      · simp [place, CallerPc.entry, CallerPc.inside]
  | addTask index entry =>
    simp only [callStep, place] at taken
    obtain ⟨_, stepped, rfl⟩ := Option.map_eq_some_iff.mp taken
    obtain ⟨inner, reached, found, call, rfl⟩ := callPool_cases stepped
    have out : inner.Out (some caller) := by
      refine fits.outside (fun _ _ _ inside => ?_) index inner found
      simp [place, CallerPc.inside] at inside
    have fresh : entry ∉ pool.added :=
      fits.early caller entry (by rw [place]; rfl) (by rw [place]; rfl)
    have here := fits.callers caller
    rw [place] at here
    have moved : Staged called stopper (pool.moveCaller caller (.addingTask index entry)) :=
      keeps (by rw [place]; rfl) rfl here (by simp [place, CallerPc.entry])
    have open_ : ¬ Closing stopper (pool.moveCaller caller (.addingTask index entry)).caller := by
      rw [moveCaller, closing_moved (by rw [place]; rfl), Closing]
      have reading : (pool.view.kind caller).reads = true := by simp [view, place, CallerPc.kind, Kind.reads]
      have away := locks.writes_eq_false reading stopper
      simpa [view] using away
    obtain ⟨kept, stays⟩ := (moved.fits.lanes index inner found).sole.user_called out call ⟨rfl, open_⟩
    refine ⟨moved.fits.stepped_quiet found kept (fun other same => ?_) fun other known func same there brought => ?_,
      moved.stage.stepped found stays⟩
    · cases same
      simp [moveCaller, CallerPc.inside]
    · cases same
      obtain rfl : entry = known := by simpa [moveCaller] using there
      refine ⟨?_, fresh⟩
      simp only [TaskPoolBase.next, out.1, Option.some.injEq] at call
      subst call
      simpa [pending, TaskPoolBase.moveCaller, Operation.entry, eq_comm] using brought
  | addingTask index entry =>
    simp only [callStep, place] at taken
    split at taken
    · rename_i left
      cases taken
      refine staged.rested (fun other inner found inside => ?_) was rfl rfl le_rfl (by simp [CallerPc.entry]) ?_
      · obtain ⟨inner', there, out⟩ := left
        obtain rfl : index = other := by simpa [place, CallerPc.inside] using inside
        cases found.symm.trans there
        exact out
      · intro known member
        split at member
        · rename_i enqueued
          rcases List.mem_append.mp member with before | now
          · exact fits.accepted known before
          · rwa [List.mem_singleton.mp now]
        · exact fits.accepted known member
    · cases taken
  | _ => simp [place, CallerPc.resting] at was

omit [DecidableEq F] in
/-- The thread that stops the pool goes on. -/
private theorem Staged.advanced (staged : Staged called stopper pool) {pc : CallerPc P F}
    {atomicSwitch : AtomicSwitch} {mtx : RwMutex C} {called' : Prop}
    (out : pool.Pools fun index inner => (pool.caller stopper).inside = some index → inner.Out (some stopper))
    (soles : pool.Pools fun _ inner => Sole (Closing stopper (Function.update pool.caller stopper pc)) inner)
    (here : CallerFits stopper pool.propIndex stopper pc) (idle : pc.entry = none)
    (stage : StageFits called' { pool with atomicSwitch } pc) :
    Staged called' stopper ({ pool with atomicSwitch, mtx }.moveCaller stopper pc) where
  fits := by
    refine staged.fits.moved (staged.fits.outside out) soles here le_rfl (fun entry there => ?_) staged.fits.accepted
    rw [idle] at there
    cases there
  stage := by
    simp only [moveCaller, Function.update_self]
    exact stage.congr rfl rfl rfl rfl

omit [DecidableEq F] [DecidableEq C] in
private theorem Fits.outside_of_none (fits : Fits stopper pool) (outside : (pool.caller caller).inside = none) :
    pool.Pools fun _ inner => inner.Out (some caller) := by
  apply fits.outside
  intro index inner _ inside
  rw [outside] at inside
  cases inside

omit [DecidableEq F] in
private theorem Fits.soles (fits : Fits stopper pool) {pc : CallerPc P F}
    (same : pc.kind.writes = (pool.caller stopper).kind.writes) :
    pool.Pools fun _ inner => Sole (Closing stopper (Function.update pool.caller stopper pc)) inner := by
  intro index inner found
  rw [closing_moved same]
  exact (fits.lanes index inner found).sole

omit [DecidableEq F] in
/-- It goes on in no inner pool, and with the write lock if it had it. -/
private theorem Staged.walked (staged : Staged called stopper pool) {pc : CallerPc P F}
    {atomicSwitch : AtomicSwitch} {called' : Prop} (outside : (pool.caller stopper).inside = none)
    (writes : pc.kind.writes = (pool.caller stopper).kind.writes)
    (here : CallerFits stopper pool.propIndex stopper pc) (idle : pc.entry = none)
    (stage : StageFits called' { pool with atomicSwitch } pc) :
    Staged called' stopper ({ pool with atomicSwitch }.moveCaller stopper pc) :=
  staged.advanced (fun index inner found _ => staged.fits.outside_of_none outside index inner found)
    (staged.fits.soles writes) here idle stage

private theorem Staged.switch_step (staged : Staged called stopper pool) {pc : StopPc}
    (place : pool.caller stopper = .stop true none pc) (taken : pool.callStep coreNum stopper = some after) :
    Staged called stopper after := by
  have stage := staged.stage
  rw [place] at stage
  have moved {pc : CallerPc P F} {atomicSwitch : AtomicSwitch} (writes : pc.kind.writes = false)
      (here : CallerFits stopper pool.propIndex stopper pc) (idle : pc.entry = none)
      (stage : StageFits called { pool with atomicSwitch } pc) :
      Staged called stopper ({ pool with atomicSwitch }.moveCaller stopper pc) :=
    staged.walked (by rw [place]; rfl) (by rw [writes, place]; rfl) here idle stage
  simp only [callStep, place, Option.some.injEq] at taken
  subst taken
  rcases stage with started | closed
  · rw [started]
    rcases stop_started pc with ⟨later, goes⟩ | returns
    · rw [goes]
      exact moved rfl ⟨rfl, rfl, rfl⟩ rfl (.inl rfl)
    · rw [returns]
      exact moved rfl ⟨rfl, rfl, rfl⟩ rfl trivial
  · rcases pool.atomicSwitch.stop pc with ⟨atomicSwitch, later | _ | _⟩
    · exact moved rfl ⟨rfl, rfl, rfl⟩ rfl (.inr closed)
    · exact moved rfl rfl rfl (.inr closed)
    · exact moved rfl ⟨rfl, rfl, rfl⟩ rfl trivial

private theorem Staged.lock_step (staged : Staged called stopper pool) (sound : pool.view.Sound (coreNum ≠ 0))
    (place : pool.caller stopper = .lockStop true none) (taken : pool.callStep coreNum stopper = some after) :
    Staged called stopper after := by
  have fits := staged.fits
  have open_ : ¬ Closing stopper pool.caller := by
    rw [Closing, place]
    exact Bool.false_ne_true
  have outside : pool.Pools fun _ inner => inner.Out (some stopper) := fits.outside_of_none (by rw [place]; rfl)
  simp only [callStep, place] at taken
  obtain ⟨mtx, locked, rfl⟩ := Option.map_eq_some_iff.mp taken
  refine staged.advanced (fun index inner found _ => outside index inner found) (fun index inner found => ?_)
    ⟨rfl, rfl⟩ rfl fun index inner found => ?_
  · have closed : Closing stopper (Function.update pool.caller stopper (.launchStop none 0)) := by
      rw [Closing, Function.update_self]
      rfl
    refine (fits.lanes index inner found).sole.close (fun user => ?_) closed
    by_contra there
    have inside := (fits.lanes index inner found).resident user there
    have fitsUser := fits.callers user
    cases placeUser : pool.caller user with
    | addingTask other entry =>
      have reading : (pool.view.kind user).reads = true := by simp [view, placeUser, CallerPc.kind, Kind.reads]
      have member := (sound.locks.reader user).mpr reading
      have readers : pool.view.mtx.readers = ∅ := (RwMutex.lock_cases locked).2.1
      simp [readers] at member
    | deletingPool restart other =>
      rw [placeUser] at fitsUser
      rw [fitsUser.1, place] at placeUser
      cases placeUser
    | _ => simp [placeUser, CallerPc.inside] at inside
  · obtain ⟨started, idle, _⟩ := (fits.lanes index inner found).sole.opened open_
    exact ⟨started, idle⟩

private theorem Staged.launch_step (staged : Staged called stopper pool)
    (place : pool.caller stopper = .launchStop none index) (taken : pool.callStep coreNum stopper = some after) :
    Staged called stopper after := by
  have fits := staged.fits
  have stage := staged.stage
  rw [place] at stage
  simp only [callStep, place] at taken
  split at taken
  · obtain ⟨_, stepped, rfl⟩ := Option.map_eq_some_iff.mp taken
    obtain ⟨inner, reached, found, call, rfl⟩ := callPool_cases stepped
    have closed : Closing stopper pool.caller := by
      rw [Closing, place]
      rfl
    have waiting : inner.Waiting := by simpa using stage index inner found
    obtain ⟨kept, launched⟩ := (fits.lanes index inner found).sole.stop_called closed waiting call
    have stepped := fits.stepped_quiet found kept (by simp) (by simp)
    refine ⟨stepped.moved (stepped.outside_of_none ?_) (stepped.soles ?_) ⟨rfl, rfl⟩ le_rfl
      (by rintro _ ⟨⟩) stepped.accepted, ?_⟩
    · exact congrArg CallerPc.inside place
    · exact congrArg (fun pc => pc.kind.writes) place.symm
    · simp only [moveCaller, Function.update_self]
      refine Pools.set stage rfl (by simpa using launched) fun other inner apart holds => ?_
      split
      · rename_i below
        have before : other < index := by omega
        simpa [before] using holds
      · rename_i beyond
        have before : ¬ other < index := by omega
        simpa [before] using holds
  · rename_i all
    cases taken
    refine staged.walked (by rw [place]; rfl) (by rw [place]; rfl)
      ⟨rfl, rfl⟩ rfl fun other inner found => ⟨?_, by simp⟩
    have below : other < pool.taskPools.length := (List.getElem?_eq_some_iff.mp found).1
    have before : other < index := by omega
    simpa [before] using stage other inner found

private theorem Staged.join_step (staged : Staged called stopper pool)
    (place : pool.caller stopper = .joinStop none index) (taken : pool.callStep coreNum stopper = some after) :
    Staged called stopper after := by
  have stage := staged.stage
  rw [place] at stage
  simp only [callStep, place] at taken
  split at taken
  · split at taken
    · rename_i left
      obtain ⟨joined, there, out⟩ := left
      cases taken
      refine staged.walked (by rw [place]; rfl) (by rw [place]; rfl)
        ⟨rfl, rfl⟩ rfl fun other inner found => ?_
      obtain ⟨launched, ended⟩ := stage other inner found
      refine ⟨launched, fun below => ?_⟩
      rcases Nat.lt_succ_iff_lt_or_eq.mp below with before | rfl
      · exact ended before
      · cases found.symm.trans there
        exact launched out.1
    · cases taken
  · rename_i all
    cases taken
    refine staged.walked (by rw [place]; rfl) (by rw [place]; rfl)
      ⟨rfl, rfl⟩ rfl fun other inner found => ?_
    have below : other < pool.taskPools.length := (List.getElem?_eq_some_iff.mp found).1
    exact (stage other inner found).2 (by omega)

private theorem Staged.delete_step (staged : Staged called stopper pool)
    (place : pool.caller stopper = .deletePool none index) (taken : pool.callStep coreNum stopper = some after) :
    Staged called stopper after := by
  have fits := staged.fits
  have stage := staged.stage
  have outside : pool.Pools fun _ inner => inner.Out (some stopper) := fits.outside_of_none (by rw [place]; rfl)
  rw [place] at stage
  simp only [callStep, place] at taken
  split at taken
  · obtain ⟨_, stepped, rfl⟩ := Option.map_eq_some_iff.mp taken
    obtain ⟨inner, reached, found, call, rfl⟩ := callPool_cases stepped
    have moved : Staged called stopper (pool.moveCaller stopper (.deletingPool none index)) :=
      staged.walked (by rw [place]; rfl) (by rw [place]; rfl)
        ⟨rfl, rfl⟩ rfl stage
    have ended : inner.Ended := stage index inner found
    obtain ⟨kept, stays⟩ := (moved.fits.lanes index inner found).sole.user_called (outside index inner found) call
      ⟨rfl, ended⟩
    refine ⟨moved.fits.stepped_quiet found kept (fun other same => ?_) fun other entry func same there => ?_,
      moved.stage.stepped found stays⟩
    · cases same
      simp [moveCaller, CallerPc.inside]
    · cases same
      simp [moveCaller] at there
  · cases taken
    exact staged.walked (by rw [place]; rfl) (by rw [place]; rfl)
      ⟨rfl, rfl⟩ rfl stage

omit [DecidableEq F] [DecidableEq C] in
/-- Once all inner pools have been stopped, everything has been executed. -/
private theorem Fits.all_executed (fits : Fits stopper pool)
    (mapped : ∀ prop index, pool.view.propIndex prop = some index → index < pool.view.size)
    (ended : pool.Pools fun _ inner => inner.Ended) (prop : P) :
    (pool.executed.filter fun entry => entry.prop = prop) = pool.added.filter fun entry => entry.prop = prop := by
  rcases fits.placed with placed | closed
  · cases found : pool.propIndex prop with
    | none =>
      have nothing {entries : List (Entry P F)} (among : ∀ entry ∈ entries, entry ∈ pool.added) :
          entries.filter (fun entry => entry.prop = prop) = [] := by
        apply List.filter_eq_nil_iff.mpr
        intro entry member same
        obtain ⟨index, home⟩ := placed entry (among entry member)
        simp [of_decide_eq_true same, found] at home
      rw [nothing fits.executed, nothing fun _ => id]
    | some index =>
      have there := List.getElem?_eq_getElem (mapped prop index found)
      have lane := fits.lanes index _ there
      rw [← filter_homed found, lane.executed_eq (ended index _ there), filter_homed found]
  · exact closed.2 prop

private theorem Staged.clear_step (staged : Staged called stopper pool) (sound : pool.view.Sound (coreNum ≠ 0))
    (place : pool.caller stopper = .clearPools none) (taken : pool.callStep coreNum stopper = some after) :
    Staged called stopper after := by
  have fits := staged.fits
  have stage := staged.stage
  rw [place] at stage
  have writing : (pool.view.kind stopper).writes = true := by simp [view, place, CallerPc.kind, Kind.writes]
  simp only [callStep, place, Option.some.injEq] at taken
  subst taken
  have closed := fits.all_executed sound.mapped stage
  have moved : Fits stopper (pool.moveCaller stopper (.reset none .storeStart)) :=
    fits.moved (fits.outside_of_none (by rw [place]; rfl)) (fits.soles (by rw [place]; rfl)) ⟨rfl, rfl⟩ le_rfl
      (by rintro _ ⟨⟩) fits.accepted
  refine ⟨⟨fun other => ?_, by rintro _ _ ⟨⟩, moved.numbered, moved.apart, moved.early, moved.old, moved.once,
    moved.accepted, moved.executed, .inr ⟨rfl, closed⟩⟩, ?_⟩
  · have here := moved.callers other
    have reads := sound.locks.reads_eq_false writing other
    by_cases same : other = stopper
    · subst same
      simp [moveCaller, CallerFits]
    · simp only [moveCaller, Function.update_of_ne same, view] at here reads ⊢
      cases there : pool.caller other with
      | addTask index entry => simp [there, CallerPc.kind, Kind.reads] at reads
      | addingTask index entry => simp [there, CallerPc.kind, Kind.reads] at reads
      | _ =>
        rw [there] at here
        exact here
  · simp only [moveCaller, Function.update_self]
    exact ⟨rfl, closed⟩

/-- A step of `stop`. -/
theorem Staged.stop_step (staged : Staged called stopper pool) (sound : pool.view.Sound (coreNum ≠ 0))
    (busy : (pool.caller stopper).resting = false) (taken : pool.callStep coreNum stopper = some after) :
    Staged called stopper after := by
  have fits := staged.fits
  have here := fits.callers stopper
  have stage := staged.stage
  cases place : pool.caller stopper with
  | stop bwait restart pc =>
    rw [place] at here
    obtain ⟨_, rfl, rfl⟩ := here
    exact staged.switch_step place taken
  | lockStop bwait restart =>
    rw [place] at here
    obtain ⟨_, rfl, rfl⟩ := here
    exact staged.lock_step sound place taken
  | launchStop restart index =>
    rw [place] at here
    obtain ⟨_, rfl⟩ := here
    exact staged.launch_step place taken
  | joinStop restart index =>
    rw [place] at here
    obtain ⟨_, rfl⟩ := here
    exact staged.join_step place taken
  | deletePool restart index =>
    rw [place] at here
    obtain ⟨_, rfl⟩ := here
    exact staged.delete_step place taken
  | deletingPool restart index =>
    rw [place] at here stage
    obtain ⟨_, rfl⟩ := here
    simp only [callStep, place] at taken
    split at taken
    · rename_i left
      cases taken
      obtain ⟨called, there, out⟩ := left
      refine staged.advanced (fun other inner found inside => ?_) (fits.soles (by rw [place]; rfl)) ⟨rfl, rfl⟩ rfl
        stage
      obtain rfl : index = other := by simpa [place, CallerPc.inside] using inside
      cases found.symm.trans there
      exact out
    · cases taken
  | clearPools restart =>
    rw [place] at here
    obtain ⟨_, rfl⟩ := here
    exact staged.clear_step sound place taken
  | reset restart pc =>
    rw [place] at here stage
    obtain ⟨_, rfl⟩ := here
    have none {holds : Nat → InnerPool P F C → Prop} : pool.Pools holds := by
      intro index inner found
      simp [stage.1] at found
    simp only [callStep, place, Option.some.injEq] at taken
    subst taken
    cases pc with
    | storeStart => exact staged.advanced none none ⟨rfl, rfl⟩ rfl stage
    | storeStop => exact staged.advanced none none ⟨rfl, rfl⟩ rfl stage
    | storeInit => exact staged.advanced none none rfl rfl (.inr stage)
  | addTask index entry =>
    rw [place] at busy
    cases busy
  | addingTask index entry =>
    rw [place] at busy
    cases busy
  | _ =>
    rw [place] at here busy
    exact absurd here (by simp [CallerFits, busy])

omit [DecidableEq F] [DecidableEq C] in
/-- A thread with a task to bring to an inner pool is at it. -/
theorem Fits.addingTask (fits : Fits stopper pool) (found : pool.taskPools[index]? = some inner)
    (there : inner.taskQueue.adding (some caller) ≠ .outside) :
    ∃ entry, pool.caller caller = .addingTask index entry := by
  have lane := fits.lanes index inner found
  have inside := lane.resident caller fun out => there out.2
  have here := fits.callers caller
  cases place : pool.caller caller with
  | addingTask other entry =>
    obtain rfl : other = index := by simpa [place, CallerPc.inside] using inside
    exact ⟨entry, rfl⟩
  | deletingPool restart other =>
    rw [place] at here
    have closed : Closing stopper pool.caller := by
      rw [Closing, ← here.1, place]
      rfl
    exact absurd (lane.sole.shut closed _) there
  | _ => simp [place, CallerPc.inside] at inside

omit [DecidableEq P] [DecidableEq F] [DecidableEq C] in
theorem CallerFits.eq_stopper {pc : CallerPc P F} {propIndex : P → Option Nat}
    (here : CallerFits stopper propIndex caller pc) (resting : pc.resting = false) : caller = stopper := by
  cases pc with
  | stop bwait restart pc => exact here.1
  | lockStop bwait restart => exact here.1
  | launchStop restart index => exact here.1
  | joinStop restart index => exact here.1
  | deletePool restart index => exact here.1
  | deletingPool restart index => exact here.1
  | clearPools restart => exact here.1
  | reset restart pc => exact here.1
  | addTask index entry => cases resting
  | addingTask index entry => cases resting
  | _ => exact absurd here (by simp [CallerFits, resting])

omit [DecidableEq P] [DecidableEq F] [DecidableEq C] in
theorem mem_item {entry known : Entry P F} (member : known ∈ entry.item.toList) : known = entry := by
  unfold Entry.item at member
  split at member
  · simpa using member
  · simp at member

private theorem Staged.inner_step (staged : Staged called stopper pool) (found : pool.taskPools[index]? = some inner)
    (taken : inner.callStep coreNum mover = some reached) : Staged called stopper (pool.setPool index reached) := by
  have fits := staged.fits
  have lane := fits.lanes index inner found
  cases mover with
  | none =>
    obtain ⟨kept, stays⟩ := lane.sole.stopper_step taken
    exact ⟨fits.stepped_quiet found kept (by simp) (by simp), staged.stage.stepped found stays⟩
  | some user =>
    obtain ⟨kept, stays, brought⟩ := lane.sole.user_step taken
    refine ⟨fits.stepped_quiet found kept (fun caller same => ?_) fun caller entry func same there brings => ?_,
      staged.stage.stepped found stays⟩
    · cases same
      refine lane.resident user fun out => ?_
      simp [TaskPoolBase.callStep, out.1] at taken
    · cases same
      exact lane.brings user entry func there (brought func brings)

omit [DecidableEq F] in
private theorem Staged.queue_step (staged : Staged called stopper pool) (found : pool.taskPools[index]? = some inner)
    (taken : inner.queueStep mover = some reached) :
    Staged called stopper { pool with
      taskPools := pool.taskPools.set index reached, added := pool.added ++ inner.enqueued mover } := by
  have fits := staged.fits
  have lane := fits.lanes index inner found
  have there : inner.taskQueue.adding mover ≠ .outside := by
    intro outside
    obtain ⟨taskQueue, stepped, _⟩ := Option.map_eq_some_iff.mp taken
    obtain ⟨tasks, stage, added, _⟩ := State.add_cases stepped
    rw [outside] at added
    cases added
  cases mover with
  | none => exact absurd lane.sole.silent there
  | some user =>
    obtain ⟨kept, stays, brought⟩ := lane.sole.queue_step taken
    obtain ⟨entry, place⟩ := fits.addingTask found there
    have stepped := fits.stepped found kept (fun caller same => ?_) (fun caller known func same there brings => ?_)
      (fun known member => ?_) ?_
    · rw [List.append_nil] at stepped
      exact ⟨stepped, staged.stage.stepped found stays⟩
    · cases same
      rw [place]
      rfl
    · cases same
      rcases brought with ⟨nothing, still⟩ | ⟨_, _, _, none⟩
      · rw [nothing, List.append_nil]
        exact lane.brings user known func there (still func brings)
      · rw [none] at brings
        cases brings
    · rcases brought with ⟨nothing, _⟩ | ⟨func, pending, pushes, _⟩
      · simp [nothing] at member
      · obtain ⟨rfl, fresh⟩ := lane.brings user entry func place pending
        rw [pushes] at member
        obtain rfl := mem_item member
        exact ⟨fresh, user, rfl, place⟩
    · rcases brought with ⟨nothing, _⟩ | ⟨func, _, pushes, _⟩
      · rw [nothing]
        exact List.nodup_nil
      · rw [pushes]
        cases func <;> simp

/-- The call of `stop(true)`. -/
theorem Staged.stop_called {called' : Prop} (staged : Staged called stopper pool)
    (taken : pool.next coreNum (.call stopper (.stop true)) = some after) : Staged called' stopper after := by
  have stage := staged.stage
  simp only [RotateSerialTaskPool.next] at taken
  split at taken
  · rename_i idle
    cases taken
    rw [idle] at stage
    exact staged.walked (by rw [idle]; rfl) (by rw [idle]; rfl) ⟨rfl, rfl, rfl⟩ rfl (stage.imp_left And.right)
  · cases taken

/-- Every step keeps what holds once the pool has been started. -/
theorem Staged.next {action : Action P F C} (staged : Staged called stopper pool)
    (sound : pool.view.Sound (coreNum ≠ 0)) (graceful : action.Graceful stopper)
    (taken : pool.next coreNum action = some after) :
    Staged called stopper after := by
  have fits := staged.fits
  cases action with
  | call who operation =>
    cases operation with
    | start threadNum => exact graceful.elim
    | resetThreadNum threadNum => exact graceful.elim
    | stop bwait =>
      obtain ⟨rfl, rfl⟩ := graceful
      exact staged.stop_called taken
    | addTask prop func =>
      simp only [RotateSerialTaskPool.next] at taken
      split at taken
      · rename_i idle
        cases taken
        refine staged.rested (fun index inner found _ => ?_) (by rw [idle]; rfl) rfl rfl (Nat.le_succ _)
          (fun entry same => ?_) fits.accepted
        · exact fits.outside_of_none (by rw [idle]; rfl) index inner found
        · cases same
          exact .inr ⟨rfl, Nat.lt_succ_self _⟩
      · cases taken
  | caller who =>
    cases resting : (pool.caller who).resting with
    | true => exact staged.add_step sound.locks resting taken
    | false =>
      have here := fits.callers who
      obtain rfl := here.eq_stopper resting
      exact staged.stop_step sound resting taken
  | inner index who =>
    obtain ⟨inner, found, stepped⟩ := Option.bind_eq_some_iff.mp taken
    obtain ⟨reached, moved, rfl⟩ := Option.map_eq_some_iff.mp stepped
    exact staged.inner_step found moved
  | queue index who =>
    obtain ⟨inner, found, stepped⟩ := Option.bind_eq_some_iff.mp taken
    obtain ⟨reached, moved, rfl⟩ := Option.map_eq_some_iff.mp stepped
    exact staged.queue_step found moved
  | worker index thread =>
    obtain ⟨inner, found, stepped⟩ := Option.bind_eq_some_iff.mp taken
    obtain ⟨reached, moved, rfl⟩ := Option.map_eq_some_iff.mp stepped
    obtain ⟨kept, stays⟩ := (fits.lanes index inner found).sole.worker_step moved
    have stepped := fits.stepped found kept (by simp) (by simp) (by simp) List.nodup_nil
    rw [List.append_nil] at stepped
    exact ⟨stepped, staged.stage.stepped found stays⟩

/-- The worker of an inner pool executes this. -/
def Executes (pool : RotateSerialTaskPool P F C) (index thread : Nat) (entry : Entry P F) : Prop :=
  ∃ inner ∈ pool.taskPools[index]?, inner.worker thread = .popTask ∧
    inner.taskQueue.popping thread = .executing entry

/-- The tasks of one property are executed in the order in which they have been enqueued, never
two at once, and each once. -/
structure Serial (pool : RotateSerialTaskPool P F C) : Prop where
  inOrder : ∀ prop, (pool.executed.filter fun entry => entry.prop = prop) <+:
    pool.added.filter fun entry => entry.prop = prop
  alone : ∀ first second thread thread' entry other, pool.Executes first thread entry →
    pool.Executes second thread' other → entry.prop = other.prop → first = second ∧ thread = thread'
  once : pool.executed.Nodup

omit [DecidableEq F] [DecidableEq C] in
private theorem Fits.executed_prefix (fits : Fits stopper pool)
    (mapped : ∀ prop index, pool.view.propIndex prop = some index → index < pool.view.size) (prop : P) :
    (pool.executed.filter fun entry => entry.prop = prop) <+: pool.added.filter fun entry => entry.prop = prop := by
  rcases fits.placed with placed | closed
  · cases found : pool.propIndex prop with
    | none =>
      have nothing : pool.executed.filter (fun entry => entry.prop = prop) = [] := by
        apply List.filter_eq_nil_iff.mpr
        intro entry member same
        obtain ⟨index, home⟩ := placed entry (fits.executed entry member)
        simp [of_decide_eq_true same, found] at home
      rw [nothing]
      exact List.nil_prefix
    | some index =>
      have lane := fits.lanes index _ (List.getElem?_eq_getElem (mapped prop index found))
      have front : homed pool.propIndex index pool.executed <+: homed pool.propIndex index pool.added := by
        rw [← lane.added]
        have taken : homed pool.propIndex index pool.executed <+: ParallelTaskPool.taken _ := ⟨_, lane.executed⟩
        apply taken.trans
        unfold ParallelTaskPool.taken pushed Journal.pushed
        rw [List.reduceOption_append]
        exact List.prefix_append _ _
      have filtered := front.filter fun entry => decide (entry.prop = prop)
      rwa [filter_homed found, filter_homed found] at filtered
  · rw [closed.2 prop]

omit [DecidableEq F] [DecidableEq C] in
private theorem Fits.executes (fits : Fits stopper pool) {thread : Nat} {entry : Entry P F}
    (executes : pool.Executes index thread entry) : thread = 0 ∧ pool.propIndex entry.prop = some index := by
  obtain ⟨inner, found, place, task⟩ := executes
  have lane := fits.lanes index inner found
  obtain rfl := lane.sole.eq_zero (by rw [place]; simp)
  refine ⟨rfl, (lane.mem_added ?_).2⟩
  rw [← lane.executed]
  simp [executing, task, PopStage.task]

omit [DecidableEq F] [DecidableEq C] in
theorem Fits.serial (fits : Fits stopper pool)
    (mapped : ∀ prop index, pool.view.propIndex prop = some index → index < pool.view.size) : pool.Serial where
  inOrder := fits.executed_prefix mapped
  alone := by
    intro first second thread thread' entry other one two same
    obtain ⟨rfl, home⟩ := fits.executes one
    obtain ⟨rfl, home'⟩ := fits.executes two
    rw [same, home'] at home
    exact ⟨(Option.some.inj home).symm, rfl⟩
  once := by
    apply List.nodup_iff_sublist.mpr
    intro entry twice
    have again := (twice.filter fun other => other.prop = entry.prop).trans
      (fits.executed_prefix mapped entry.prop).sublist
    apply List.nodup_iff_sublist.mp (fits.once.filter fun other => other.prop = entry.prop) entry
    simpa using again

omit [DecidableEq F] [DecidableEq C] in
/-- Once `stop(true)` has returned, everything that has been accepted has been executed. -/
theorem Staged.executed_of_returned (staged : Staged True stopper pool)
    (idle : pool.caller stopper = .idle) : ∀ entry ∈ pool.accepted, entry ∈ pool.executed := by
  intro entry accepted
  have stage := staged.stage
  rw [idle] at stage
  rcases stage with ⟨uncalled, _⟩ | closed
  · exact absurd trivial uncalled
  · have member : entry ∈ pool.added.filter fun other => other.prop = entry.prop :=
      List.mem_filter.mpr ⟨staged.fits.accepted entry accepted, by simp⟩
    rw [← closed.2] at member
    exact (List.mem_filter.mp member).1

section Runs

variable {ready before : RotateSerialTaskPool P F C} {maxTaskCount : UInt64} {threadNum : Nat} {starter : C}
  {action : Action P F C} {front back : List (Action P F C)}

theorem staged_of_path (staged : Staged called stopper pool) (sound : pool.view.Sound (coreNum ≠ 0))
    (path : Path (Taken (RotateSerialTaskPool.next coreNum)) pool back after)
    (graceful : ∀ action ∈ back, action.Graceful stopper) :
    Staged called stopper after ∧ after.view.Sound (coreNum ≠ 0) := by
  refine (path.guard graceful).invariant (fun pool => Staged called stopper pool ∧ pool.view.Sound (coreNum ≠ 0)) ?_
    ⟨staged, sound⟩
  intro before action after ⟨staged, sound⟩ ⟨graceful, taken⟩
  exact ⟨staged.next sound graceful taken, sound_next sound taken⟩

/-- A step of a call enqueues nothing, but in the queue of an inner pool. -/
theorem added_callStep (taken : pool.callStep coreNum caller = some after) : after.added = pool.added := by
  have called {index : Nat} {inside : Option C}
      {operation : TaskPool.Operation (Option C × TaskItem (Entry P F))}
      {pc : CallerPc P F}
      (moved : (pool.callPool coreNum index inside operation).map
        (fun pool => pool.moveCaller caller pc) = some after) : after.added = pool.added := by
    obtain ⟨reached, call, rfl⟩ := Option.map_eq_some_iff.mp moved
    obtain ⟨_, _, _, _, rfl⟩ := callPool_cases call
    rfl
  cases place : pool.caller caller with
  | idle => simp [callStep, place] at taken
  | startPool index =>
    simp only [callStep, place] at taken
    split at taken
    · exact called taken
    · cases taken
      rfl
  | launchStop restart index =>
    simp only [callStep, place] at taken
    split at taken
    · exact called taken
    · cases taken
      rfl
  | deletePool restart index =>
    simp only [callStep, place] at taken
    split at taken
    · exact called taken
    · cases taken
      rfl
  | addTask index entry =>
    simp only [callStep, place] at taken
    exact called taken
  | lockStart threadNum =>
    simp only [callStep, place] at taken
    obtain ⟨mtx, _, rfl⟩ := Option.map_eq_some_iff.mp taken
    rfl
  | lockStop bwait restart =>
    simp only [callStep, place] at taken
    obtain ⟨mtx, _, rfl⟩ := Option.map_eq_some_iff.mp taken
    rfl
  | lockShared entry =>
    simp only [callStep, place] at taken
    obtain ⟨mtx, _, rfl⟩ := Option.map_eq_some_iff.mp taken
    rfl
  | getThreadIndex entry =>
    simp only [callStep, place] at taken
    obtain ⟨⟨found, index⟩, indexed, rfl⟩ := Option.map_eq_some_iff.mp taken
    unfold getThreadIndex at indexed
    split at indexed
    · cases indexed
      rfl
    · split at indexed <;> cases indexed
      rfl
  | addTest entry pc =>
    simp only [callStep, place, Option.some.injEq] at taken
    subst taken
    rcases pool.atomicSwitch.hasStarted pc with _ | _ | _ <;> rfl
  | joinStop restart index =>
    simp only [callStep, place] at taken
    split at taken
    · split at taken <;> cases taken
      rfl
    · cases taken
      rfl
  | startingPool index =>
    simp only [callStep, place] at taken
    split at taken <;> cases taken
    rfl
  | deletingPool restart index =>
    simp only [callStep, place] at taken
    split at taken <;> cases taken
    rfl
  | addingTask index entry =>
    simp only [callStep, place] at taken
    split at taken <;> cases taken
    rfl
  | _ =>
    simp only [callStep, place, Option.some.injEq] at taken
    subst taken
    rfl

/-- What has been enqueued stays so. -/
theorem added_next (taken : pool.next coreNum action = some after) : pool.added <+: after.added := by
  cases action with
  | call who operation =>
    simp only [RotateSerialTaskPool.next] at taken
    split at taken
    · cases operation <;> cases taken <;> exact List.prefix_refl _
    · cases taken
  | caller who =>
    rw [added_callStep taken]
  | inner index who =>
    obtain ⟨inner, _, stepped⟩ := Option.bind_eq_some_iff.mp taken
    obtain ⟨reached, _, rfl⟩ := Option.map_eq_some_iff.mp stepped
    exact List.prefix_refl _
  | queue index who =>
    obtain ⟨inner, _, stepped⟩ := Option.bind_eq_some_iff.mp taken
    obtain ⟨reached, _, rfl⟩ := Option.map_eq_some_iff.mp stepped
    exact List.prefix_append _ _
  | worker index thread =>
    obtain ⟨inner, _, stepped⟩ := Option.bind_eq_some_iff.mp taken
    obtain ⟨reached, _, rfl⟩ := Option.map_eq_some_iff.mp stepped
    exact List.prefix_refl _

theorem added_path (path : Path (Taken (RotateSerialTaskPool.next coreNum)) pool back after) :
    pool.added <+: after.added :=
  path.invariant (fun state => pool.added <+: state.added)
    (fun _ _ _ known taken => known.trans (added_next taken)) (List.prefix_refl _)

/-- What `start` leaves behind when it returns. -/
theorem staged_of_start
    (start : Path (Taken (RotateSerialTaskPool.next coreNum)) (construct maxTaskCount)
      (.call starter (.start threadNum) :: front) ready)
    (quiet : ∀ action ∈ front, ∀ caller operation, action ≠ .call caller operation)
    (returned : ready.caller starter = .idle) : Staged False stopper ready ∧ ready.view.Sound (coreNum ≠ 0) := by
  cases start with
  | @cons _ first _ _ _ head tail =>
    have sound := sound_next (construct_sound maxTaskCount) head
    have starts : Starts starter first := by
      obtain rfl := Option.some.inj head
      refine ⟨?_, fun caller apart => ?_, rfl, rfl, rfl⟩
      · simp [moveCaller, Raised, construct]
      · simp [moveCaller, construct, apart]
    obtain ⟨starts, sound⟩ := (tail.guard quiet).invariant
      (fun pool => Starts starter pool ∧ pool.view.Sound (coreNum ≠ 0))
      (fun _ _ _ before step => ⟨before.1.next step.1 step.2, sound_next before.2 step.2⟩) ⟨starts, sound⟩
    exact ⟨starts.staged returned, sound⟩

omit [DecidableEq F] [DecidableEq C] in
/-- A task that had been accepted before another one of its property was given to `add_task` has been
executed before it. -/
theorem earlier_first (earlier : Fits stopper before) (serial : pool.Serial)
    (grows : before.added <+: pool.added) {first second : Entry P F}
    (accepted : first ∈ before.accepted) (new : second.id = before.calls) (same : first.prop = second.prop)
    (done : second ∈ pool.executed) : [first, second].Sublist pool.executed := by
  have unknown : second ∉ before.added := by
    intro member
    have := earlier.old second member
    omega
  obtain ⟨rest, split⟩ := grows
  have order := serial.inOrder second.prop
  rw [← split, List.filter_append] at order
  apply List.Sublist.trans _ (List.filter_sublist (p := fun entry => decide (entry.prop = second.prop)))
  rcases List.prefix_or_prefix_of_prefix order (List.prefix_append _ _) with short | ⟨later, long⟩
  · have member := short.subset (List.mem_filter.mpr ⟨done, by simp⟩)
    exact absurd (List.mem_filter.mp member).1 unknown
  · have member : second ∈ pool.executed.filter fun entry => entry.prop = second.prop :=
      List.mem_filter.mpr ⟨done, by simp⟩
    rw [← long] at member ⊢
    have front : first ∈ before.added.filter fun entry => entry.prop = second.prop :=
      List.mem_filter.mpr ⟨earlier.accepted first accepted, by simpa using same⟩
    have back : second ∈ later := by
      rcases List.mem_append.mp member with old | new
      · exact absurd (List.mem_filter.mp old).1 unknown
      · exact new
    exact (List.singleton_sublist.mpr front).append (List.singleton_sublist.mpr back)

/-- From the return of `start` on, while the only calls are those of `add_task` and of one
`stop(true)`, the tasks of each property are executed one at a time, once each, and in the order of
their calls; when `stop(true)` has returned, all that were accepted have been executed. -/
theorem graceful_stop_executes_all
    (start : Path (Taken (RotateSerialTaskPool.next coreNum)) (construct maxTaskCount)
      (.call starter (.start threadNum) :: front) ready)
    (quiet : ∀ action ∈ front, ∀ caller operation, action ≠ .call caller operation)
    (returned : ready.caller starter = .idle)
    (path : Path (Taken (RotateSerialTaskPool.next coreNum)) ready back pool)
    (graceful : ∀ action ∈ back, action.Graceful stopper) :
    pool.Serial ∧
      (∀ before caller prop func, Path.Takes (Taken (RotateSerialTaskPool.next coreNum)) ready back before
        (.call caller (.addTask prop func)) → ∀ first ∈ before.accepted, first.prop = prop →
          ⟨before.calls, prop, func⟩ ∈ pool.executed → [first, ⟨before.calls, prop, func⟩].Sublist pool.executed) ∧
        (∀ before, Path.Takes (Taken (RotateSerialTaskPool.next coreNum)) ready back before
          (.call stopper (.stop true)) → pool.caller stopper = .idle → ∀ entry ∈ pool.accepted,
            entry ∈ pool.executed) := by
  obtain ⟨staged, sound⟩ := staged_of_start start quiet returned
  obtain ⟨final, finalSound⟩ := staged_of_path staged sound path graceful
  have serial := final.fits.serial finalSound.mapped
  refine ⟨serial, fun before caller prop func takes first accepted same done => ?_, fun before takes idle => ?_⟩
  · obtain ⟨early, late, middle, rfl, reach, taken, rest⟩ := path.split_of_takes takes
    obtain ⟨earlier, _⟩ := staged_of_path staged sound reach fun action member => graceful action (by simp [member])
    exact earlier_first earlier.fits serial ((added_next taken).trans (added_path rest)) accepted rfl same done
  · obtain ⟨early, late, middle, rfl, reach, taken, rest⟩ := path.split_of_takes takes
    obtain ⟨earlier, soundThen⟩ :=
      staged_of_path staged sound reach fun action member => graceful action (by simp [member])
    have called : Staged True stopper middle := earlier.stop_called taken
    obtain ⟨gone, _⟩ := staged_of_path called (sound_next soundThen taken) rest
      fun action member => graceful action (by simp [member])
    exact gone.executed_of_returned idle

end Runs

/-- A pool of one thread is started. -/
def startOne : List (Action Nat Nat (Fin 2)) :=
  List.flatten [List.replicate 7 (.caller 0), List.replicate 6 (.inner 0 (some 0)), List.replicate 2 (.caller 0)]

/-- A task is added, and `stop(true)` is called while the worker executes it. -/
def stopOne : List (Action Nat Nat (Fin 2)) :=
  List.flatten
    [[.call 1 (.addTask 5 (some 50))], List.replicate 6 (.caller 1), List.replicate 4 (.inner 0 (some 1)),
      List.replicate 5 (.queue 0 (some 1)), [.caller 1], List.replicate 8 (.worker 0 0), [.call 0 (.stop true)],
      List.replicate 6 (.caller 0), List.replicate 5 (.inner 0 none), List.replicate 6 (.worker 0 0),
      List.replicate 5 (.inner 0 none), List.replicate 3 (.caller 0), [.inner 0 (some 0)],
      List.replicate 6 (.caller 0)]

theorem graceful_stop_executes_all_one_task :
    ∃ ready pool : RotateSerialTaskPool Nat Nat (Fin 2), pool.accepted = [⟨0, 5, some 50⟩] ∧ pool.caller 0 = .idle ∧
      pool.Serial ∧
        (∀ before caller prop func, Path.Takes (Taken (RotateSerialTaskPool.next 1)) ready stopOne before
          (.call caller (.addTask prop func)) → ∀ first ∈ before.accepted, first.prop = prop →
            ⟨before.calls, prop, func⟩ ∈ pool.executed → [first, ⟨before.calls, prop, func⟩].Sublist pool.executed) ∧
          (∀ before, Path.Takes (Taken (RotateSerialTaskPool.next 1)) ready stopOne before
            (.call 0 (.stop true)) → pool.caller 0 = .idle → ∀ entry ∈ pool.accepted, entry ∈ pool.executed) := by
  have runs : ∃ ready ∈ exec (RotateSerialTaskPool.next 1) (construct 0) (.call 0 (.start 1) :: startOne),
      ready.caller 0 = .idle ∧ ∃ pool ∈ exec (RotateSerialTaskPool.next 1) ready stopOne,
        pool.accepted = [(⟨0, 5, some 50⟩ : Entry Nat Nat)] ∧ pool.caller 0 = .idle := by
    decide
  obtain ⟨ready, starts, returned, pool, ends, accepted, idle⟩ := runs
  have quiet : ∀ action ∈ startOne, ∀ caller operation, action ≠ .call caller operation := by
    intro action member
    simp [startOne] at member
    rcases member with rfl | rfl | rfl <;> simp
  have graceful : ∀ action ∈ stopOne, action.Graceful 0 := by
    decide
  exact ⟨ready, pool, accepted, idle, graceful_stop_executes_all (exec_eq_some_iff.mp starts) quiet returned
    (exec_eq_some_iff.mp ends) graceful⟩

end BTool.TaskPool.RotateSerialTaskPool
