import Mathlib.Data.UInt
import BTool.Foundation.BitFields
import BTool.Foundation.Transition

/-! `SnowFlakeID`: a time in milliseconds, the number of the machine and a sequence number in 64 bits. -/

namespace BTool.UniqueId

open BTool.Foundation

structure SnowFlakeID where
  workerId : UInt32
  sequence : UInt32
  lastTimestamp : UInt64
deriving DecidableEq

/-- The readings of a clock in milliseconds, the next one first. -/
abbrev Clock := List UInt64

namespace SnowFlakeID

def invalidId : UInt64 := 0

/-- `m_twepoch`, the beginning of 2021. -/
def twepoch : UInt64 := 1609430400000

def workerIdBits : Nat := 10

def sequenceBits : Nat := 12

def workerIdShift : Nat := sequenceBits

def timestampShift : Nat := workerIdBits + sequenceBits

def sequenceMask : UInt32 := 4095

def create : SnowFlakeID := { workerId := 0, sequence := 0, lastTimestamp := 0 }

def setWorkerId (generator : SnowFlakeID) (workerId : UInt32) : SnowFlakeID :=
  { generator with workerId := workerId &&& 0b1111111111 }

/-- Reads the clock until it is behind `lastTimestamp`, as long as there are readings. -/
def tilNextMillis (lastTimestamp : UInt64) : Clock → Option (UInt64 × Clock)
  | [] => none
  | timestamp :: clock =>
    if timestamp ≤ lastTimestamp then tilNextMillis lastTimestamp clock else some (timestamp, clock)

/-- The end of `get_id`: the time is kept, and the three numbers are put together. -/
def compose (generator : SnowFlakeID) (timestamp : UInt64) : UInt64 × SnowFlakeID :=
  (((timestamp - twepoch) <<< UInt64.ofNat timestampShift) |||
      (generator.workerId <<< UInt32.ofNat workerIdShift).toUInt64 ||| generator.sequence.toUInt64,
    { generator with lastTimestamp := timestamp })

/-- A call with the readings that it takes; it has no result where the readings end before. -/
def getId (generator : SnowFlakeID) : Clock → Option (UInt64 × SnowFlakeID × Clock)
  | [] => none
  | timestamp :: clock =>
    if timestamp < generator.lastTimestamp then some (invalidId, generator, clock)
    else if generator.lastTimestamp = timestamp then
      let generator : SnowFlakeID :=
        { generator with sequence := (generator.sequence + 1) &&& sequenceMask }
      if (0 : UInt32) = generator.sequence then
        (tilNextMillis generator.lastTimestamp clock).map fun (timestamp, clock) =>
          ((generator.compose timestamp).1, (generator.compose timestamp).2, clock)
      else some ((generator.compose timestamp).1, (generator.compose timestamp).2, clock)
    else
      let generator : SnowFlakeID := { generator with sequence := 0 }
      some ((generator.compose timestamp).1, (generator.compose timestamp).2, clock)

/-- A call that returns an id. -/
def Call (before : SnowFlakeID × Clock) (id : UInt64) (after : SnowFlakeID × Clock) : Prop :=
  before.1.getId before.2 = some (id, after)

/-- The readings lie from the millisecond after the beginning on within 41 bits. -/
def InRange (clock : Clock) : Prop :=
  ∀ reading ∈ clock, twepoch < reading ∧ reading < twepoch + 2 ^ 41

/-- The number that a generator with its sequence number gives to a time. -/
def idNumber (workerId : Nat) (timestamp : UInt64) (sequence : Nat) : Nat :=
  pack 22 (timestamp.toNat - twepoch.toNat) (pack 12 workerId sequence)

variable {generator next : SnowFlakeID} {clock rest : Clock} {id timestamp : UInt64}
  {workerId sequence sequence' : Nat}

/-- None of the bits of an id is lost. -/
theorem toNat_compose (worker : generator.workerId.toNat < 1024)
    (range : twepoch < timestamp ∧ timestamp < twepoch + 2 ^ 41) :
    (generator.compose timestamp).1.toNat =
      idNumber generator.workerId.toNat timestamp generator.sequence.toNat := by
  obtain ⟨above, below⟩ := range
  have above := UInt64.lt_iff_toNat_lt.mp above
  have below : timestamp.toNat < twepoch.toNat + 2 ^ 41 := UInt64.lt_iff_toNat_lt.mp below
  have elapsed : (timestamp - twepoch).toNat = timestamp.toNat - twepoch.toNat :=
    UInt64.toNat_sub_of_le _ _ (UInt64.le_iff_toNat_le.mpr (Nat.le_of_lt above))
  have time : ((timestamp - twepoch) <<< UInt64.ofNat timestampShift).toNat =
      (timestamp.toNat - twepoch.toNat) <<< 22 := by
    rw [UInt64.toNat_shiftLeft, elapsed]
    refine Nat.mod_eq_of_lt ?_
    change (timestamp.toNat - twepoch.toNat) <<< 22 < 2 ^ 64
    rw [Nat.shiftLeft_eq]
    omega
  have machine : (generator.workerId <<< UInt32.ofNat workerIdShift).toNat =
      generator.workerId.toNat <<< 12 := by
    rw [UInt32.toNat_shiftLeft]
    refine Nat.mod_eq_of_lt ?_
    change generator.workerId.toNat <<< 12 < 2 ^ 32
    rw [Nat.shiftLeft_eq]
    omega
  simp only [compose, UInt64.toNat_or, UInt32.toNat_toUInt64, time, machine, idNumber, pack,
    Nat.or_assoc]

theorem pack_worker_lt (worker : workerId < 1024) (small : sequence < 4096) :
    pack 12 workerId sequence < 2 ^ 22 := pack_lt small worker

/-- The number of a later time is the larger one. -/
theorem idNumber_lt_of_time {later : UInt64} (worker : workerId < 1024) (small : sequence < 4096)
    (small' : sequence' < 4096) (begun : twepoch < timestamp) (after : timestamp < later) :
    idNumber workerId timestamp sequence < idNumber workerId later sequence' := by
  have begun := UInt64.lt_iff_toNat_lt.mp begun
  have after := UInt64.lt_iff_toNat_lt.mp after
  exact pack_lt_pack_of_high (pack_worker_lt worker small) (pack_worker_lt worker small') (by omega)

theorem idNumber_lt_of_sequence (worker : workerId < 1024) (small : sequence < 4096)
    (small' : sequence' < 4096) (less : sequence < sequence') :
    idNumber workerId timestamp sequence < idNumber workerId timestamp sequence' :=
  pack_lt_pack_of_low (pack_worker_lt worker small) (pack_worker_lt worker small')
    (pack_lt_pack_of_low small small' less)

/-- The machine can be read off. -/
theorem idNumber_worker (worker : workerId < 1024) (small : sequence < 4096) :
    idNumber workerId timestamp sequence % 2 ^ 22 / 2 ^ 12 = workerId := by
  rw [idNumber, pack_mod (pack_worker_lt worker small), pack_div small]

theorem idNumber_pos (worker : workerId < 1024) (small : sequence < 4096) (begun : twepoch < timestamp) :
    0 < idNumber workerId timestamp sequence := by
  have begun := UInt64.lt_iff_toNat_lt.mp begun
  rw [idNumber, pack_eq (pack_worker_lt worker small)]
  omega

/-- What waiting reads: nothing behind the last time, and then one reading that is. -/
theorem tilNextMillis_eq_some {last time : UInt64} (waited : tilNextMillis last clock = some (time, rest)) :
    last < time ∧ ∃ front, clock = front ++ time :: rest ∧ ∀ reading ∈ front, reading ≤ last := by
  induction clock with
  | nil => cases waited
  | cons reading clock ih =>
    unfold tilNextMillis at waited
    split at waited
    · rename_i early
      obtain ⟨late, front, rfl, before⟩ := ih waited
      refine ⟨late, reading :: front, rfl, ?_⟩
      rintro other member
      rcases List.mem_cons.mp member with rfl | member
      · exact early
      · exact before other member
    · rename_i late
      cases waited
      exact ⟨UInt64.not_le.mp late, [], rfl, by simp⟩

/-- What a call does that issues an id: it takes readings, the latest of which it keeps, and numbers the
ids of one time upwards. -/
structure Issues (generator : SnowFlakeID) (clock : Clock) (id : UInt64) (next : SnowFlakeID)
    (rest : Clock) : Prop where
  worker : next.workerId = generator.workerId
  small : next.sequence.toNat < 4096
  composed : id = (next.compose next.lastTimestamp).1
  reads : ∃ consumed, clock = consumed ++ rest ∧ next.lastTimestamp ∈ consumed ∧
    ∀ reading ∈ consumed, reading ≤ next.lastTimestamp
  advances : generator.lastTimestamp < next.lastTimestamp ∨
    (generator.lastTimestamp = next.lastTimestamp ∧
      generator.sequence.toNat < next.sequence.toNat)

theorem toNat_nextSequence (small : generator.sequence.toNat < 4096) :
    ((generator.sequence + 1) &&& sequenceMask).toNat = (generator.sequence.toNat + 1) % 4096 := by
  have sum : (generator.sequence + 1).toNat = generator.sequence.toNat + 1 := by
    rw [UInt32.toNat_add]
    exact Nat.mod_eq_of_lt (by change _ + 1 < _; omega)
  rw [UInt32.toNat_and, sum]
  exact Nat.and_two_pow_sub_one_eq_mod _ 12

private theorem first_small : (0 : UInt32).toNat < 4096 := by decide

/-- A call either finds the clock behind its last time, or issues an id. -/
theorem getId_cases (small : generator.sequence.toNat < 4096)
    (call : generator.getId (timestamp :: clock) = some (id, next, rest)) :
    (timestamp < generator.lastTimestamp ∧ id = invalidId ∧ next = generator ∧ rest = clock) ∨
      (generator.lastTimestamp ≤ timestamp ∧ Issues generator (timestamp :: clock) id next rest) := by
  rw [getId] at call
  by_cases behind : timestamp < generator.lastTimestamp
  · rw [if_pos behind] at call
    cases call
    exact .inl ⟨behind, rfl, rfl, rfl⟩
  · rw [if_neg behind] at call
    have notBehind : generator.lastTimestamp ≤ timestamp := UInt64.not_lt.mp behind
    refine .inr ⟨notBehind, ?_⟩
    by_cases same : generator.lastTimestamp = timestamp
    · rw [if_pos same] at call
      have numbered := toNat_nextSequence small
      by_cases rolled : 0 = (generator.sequence + 1) &&& sequenceMask
      · -- The sequence numbers of the millisecond are used up: the id is one of a later millisecond.
        simp only [← rolled, if_true] at call
        obtain ⟨⟨time, rest'⟩, waited, isCall⟩ := Option.map_eq_some_iff.mp call
        cases isCall
        obtain ⟨late, front, rfl, before⟩ := tilNextMillis_eq_some waited
        refine ⟨rfl, first_small, rfl, ⟨timestamp :: front ++ [time], by simp, by simp [compose], ?_⟩,
          .inl late⟩
        intro reading member
        have early : reading ≤ generator.lastTimestamp ∨ reading = time := by
          simp only [List.cons_append, List.mem_cons, List.mem_append, List.not_mem_nil, or_false] at member
          rcases member with rfl | member | rfl
          · exact .inl (UInt64.le_of_eq same.symm)
          · exact .inl (before reading member)
          · exact .inr rfl
        rcases early with early | rfl
        · exact UInt64.le_of_lt (UInt64.lt_of_le_of_lt early late)
        · exact UInt64.le_refl _
      · have more : generator.sequence.toNat + 1 < 4096 := by
          by_contra full
          have last : generator.sequence.toNat + 1 = 4096 := by omega
          rw [last] at numbered
          exact rolled (UInt32.toNat_inj.mp numbered).symm
        rw [Nat.mod_eq_of_lt more] at numbered
        simp only [rolled, if_false] at call
        cases call
        refine ⟨rfl, ?_, rfl, ⟨[timestamp], rfl, by simp [compose], by simp [compose]⟩, .inr ⟨same, ?_⟩⟩
        · exact Nat.lt_of_le_of_lt (Nat.le_of_eq numbered) more
        · exact Nat.lt_of_lt_of_eq (Nat.lt_succ_self _) numbered.symm
    · rw [if_neg same] at call
      cases call
      exact ⟨rfl, first_small, rfl, ⟨[timestamp], rfl, by simp [compose], by simp [compose]⟩,
        .inl (UInt64.lt_of_le_of_ne notBehind same)⟩

/-- The ids that are none of the invalid one. -/
def valid (ids : List UInt64) : List UInt64 := ids.filter (· ≠ invalidId)

/-- What holds after some calls of a generator, the ids they returned and the readings that are left. -/
structure Kept (workerId : Nat) (clock : Clock) (ids : List UInt64) (state : SnowFlakeID × Clock) :
    Prop where
  worker : state.1.workerId.toNat = workerId
  small : state.1.sequence.toNat < 4096
  reads : ∃ consumed, clock = consumed ++ state.2 ∧
    ∀ reading ∈ consumed, reading ≤ state.1.lastTimestamp
  ordered : (valid ids).Pairwise (· < ·)
  below : ∀ id ∈ valid ids, twepoch < state.1.lastTimestamp ∧
    id.toNat ≤ idNumber workerId state.1.lastTimestamp state.1.sequence.toNat
  machine : ∀ id ∈ valid ids, id.toNat % 2 ^ 22 / 2 ^ 12 = workerId

/-- Every id that is issued is valid, and larger than those before. -/
theorem Issues.id_eq (issues : Issues generator clock id next rest) {workerId : Nat}
    (worker : generator.workerId.toNat = workerId) (isWorker : workerId < 1024) (range : InRange clock) :
    twepoch < next.lastTimestamp ∧ id.toNat = idNumber workerId next.lastTimestamp next.sequence.toNat ∧
      id ≠ invalidId := by
  obtain ⟨consumed, isClock, member, _⟩ := issues.reads
  have inRange := range next.lastTimestamp (isClock ▸ List.mem_append_left _ member)
  have same : next.workerId.toNat = workerId := by rw [issues.worker, worker]
  have number : id.toNat = idNumber workerId next.lastTimestamp next.sequence.toNat := by
    rw [issues.composed, toNat_compose (by omega) inRange, same]
  refine ⟨inRange.1, number, ?_⟩
  rintro rfl
  have positive : 0 < idNumber workerId next.lastTimestamp next.sequence.toNat :=
    idNumber_pos isWorker issues.small inRange.1
  rw [← number] at positive
  exact absurd positive (by decide)

theorem Kept.call {workerId : Nat} {ids : List UInt64} {before after : SnowFlakeID × Clock}
    (isWorker : workerId < 1024) (range : InRange clock) (kept : Kept workerId clock ids before)
    (call : Call before id after) : Kept workerId clock (ids ++ [id]) after := by
  obtain ⟨generator, readings⟩ := before
  obtain ⟨next, rest⟩ := after
  obtain ⟨consumed, isClock, early⟩ := kept.reads
  cases readings with
  | nil => cases call
  | cons timestamp readings =>
    rcases getId_cases kept.small call with ⟨behind, rfl, rfl, rfl⟩ | ⟨_, issues⟩
    · have same : valid (ids ++ [invalidId]) = valid ids := by simp [valid]
      refine ⟨kept.worker, kept.small, ⟨consumed ++ [timestamp], by simp [isClock], ?_⟩, ?_, ?_, ?_⟩
      · intro reading member
        rcases List.mem_append.mp member with member | member
        · exact early reading member
        · rw [List.mem_singleton.mp member]
          exact UInt64.le_of_lt behind
      all_goals rw [same]
      · exact kept.ordered
      · exact kept.below
      · exact kept.machine
    · have inRange : InRange (timestamp :: readings) := fun reading member =>
        range reading (isClock ▸ List.mem_append_right _ member)
      obtain ⟨begun, number, notInvalid⟩ := issues.id_eq kept.worker isWorker inRange
      have same : valid (ids ++ [id]) = valid ids ++ [id] := by simp [valid, notInvalid]
      have larger : ∀ other ∈ valid ids, other.toNat < id.toNat := by
        intro other member
        obtain ⟨begunBefore, atMost⟩ := kept.below other member
        refine Nat.lt_of_le_of_lt atMost ?_
        rw [number]
        rcases issues.advances with later | ⟨sameTime, more⟩
        · exact idNumber_lt_of_time isWorker kept.small issues.small begunBefore later
        · rw [show (generator, timestamp :: readings).1.lastTimestamp = next.lastTimestamp from sameTime]
          exact idNumber_lt_of_sequence isWorker kept.small issues.small more
      obtain ⟨further, isFurther, _, latest⟩ := issues.reads
      refine ⟨by rw [issues.worker]; exact kept.worker, issues.small,
        ⟨consumed ++ further, by rw [isClock, isFurther, List.append_assoc], ?_⟩, ?_, ?_, ?_⟩
      · intro reading member
        rcases List.mem_append.mp member with member | member
        · refine UInt64.le_trans (early reading member) ?_
          rcases issues.advances with later | ⟨sameTime, _⟩
          · exact UInt64.le_of_lt later
          · exact UInt64.le_of_eq sameTime
        · exact latest reading member
      all_goals rw [same]
      · refine List.pairwise_append.mpr ⟨kept.ordered, List.pairwise_singleton _ _, ?_⟩
        intro other member last isLast
        rw [List.mem_singleton.mp isLast]
        exact UInt64.lt_iff_toNat_lt.mpr (larger other member)
      · intro other member
        rcases List.mem_append.mp member with member | member
        · exact ⟨begun, number ▸ Nat.le_of_lt (larger other member)⟩
        · rw [List.mem_singleton.mp member]
          exact ⟨begun, Nat.le_of_eq number⟩
      · intro other member
        rcases List.mem_append.mp member with member | member
        · exact kept.machine other member
        · rw [List.mem_singleton.mp member, number]
          exact idNumber_worker isWorker issues.small

theorem toNat_setWorkerId (generator : SnowFlakeID) (workerId : UInt32) :
    (generator.setWorkerId workerId).workerId.toNat = workerId.toNat % 1024 := by
  rw [setWorkerId, UInt32.toNat_and]
  exact Nat.and_two_pow_sub_one_eq_mod _ 10

/-- The invariant of every run of a generator. -/
theorem kept_of_calls {workerId : UInt32} {ids : List UInt64} {state : SnowFlakeID × Clock}
    (range : InRange clock) (calls : Path Call (create.setWorkerId workerId, clock) ids state) :
    Kept (workerId.toNat % 1024) clock ids state := by
  refine calls.history (Kept (workerId.toNat % 1024) clock) ?_ ?_
  · exact ⟨toNat_setWorkerId _ _, first_small, ⟨[], rfl, by simp⟩, .nil, by simp [valid], by simp [valid]⟩
  · intro done before id after _ kept call
    exact kept.call (Nat.mod_lt _ (by decide)) range call

/-- Whatever the clock shows, the valid ids of a generator rise, a call finds the clock behind an
earlier reading exactly where it returns the invalid id, and then changes nothing; and generators of
different machines have no valid id in common. -/
theorem snowFlake_ids :
    (∀ (workerId : UInt32) (clock : Clock) (ids : List UInt64) (generator : SnowFlakeID) (rest : Clock),
      InRange clock → Path Call (create.setWorkerId workerId, clock) ids (generator, rest) →
        (valid ids).Pairwise (· < ·) ∧
        (∀ consumed timestamp later, clock = consumed ++ rest → rest = timestamp :: later →
          (∃ reading ∈ consumed, timestamp < reading) →
            generator.getId rest = some (invalidId, generator, later)) ∧
        ∀ id next left, generator.getId rest = some (id, next, left) →
          (id = invalidId ↔ ∃ timestamp later, rest = timestamp :: later ∧
            timestamp < generator.lastTimestamp)) ∧
    ∀ (workerId workerId' : UInt32) (clock clock' : Clock) (ids ids' : List UInt64)
      (last last' : SnowFlakeID × Clock), workerId.toNat % 1024 ≠ workerId'.toNat % 1024 →
        InRange clock → InRange clock' →
        Path Call (create.setWorkerId workerId, clock) ids last →
        Path Call (create.setWorkerId workerId', clock') ids' last' →
          ∀ id ∈ valid ids, id ∉ valid ids' := by
  constructor
  · intro workerId clock ids generator rest range calls
    have kept := kept_of_calls range calls
    refine ⟨kept.ordered, ?_, ?_⟩
    · rintro consumed timestamp later isClock rfl ⟨reading, member, behind⟩
      obtain ⟨consumed', isClock', early⟩ := kept.reads
      obtain rfl : consumed = consumed' := List.append_cancel_right (isClock.symm.trans isClock')
      have late : timestamp < generator.lastTimestamp := UInt64.lt_of_lt_of_le behind (early reading member)
      rw [getId, if_pos late]
    · intro id next left call
      cases rest with
      | nil => cases call
      | cons timestamp rest =>
        rcases getId_cases kept.small call with ⟨behind, rfl, _, _⟩ | ⟨notBehind, issues⟩
        · exact iff_of_true rfl ⟨timestamp, rest, rfl, behind⟩
        · obtain ⟨consumed, isClock, _⟩ := kept.reads
          have inRange : InRange (timestamp :: rest) := fun reading member =>
            range reading (isClock ▸ List.mem_append_right _ member)
          refine iff_of_false (issues.id_eq kept.worker (Nat.mod_lt _ (by decide)) inRange).2.2 ?_
          rintro ⟨reading, later, isRest, behind⟩
          cases isRest
          exact absurd behind (UInt64.not_lt.mpr notBehind)
  · intro workerId workerId' clock clock' ids ids' last last' different range range' calls calls' id
      member member'
    have machine := (kept_of_calls range calls).machine id member
    have machine' := (kept_of_calls range' calls').machine id member'
    exact different (machine.symm.trans machine')

/-- Two ids of one millisecond. -/
theorem snowFlake_ids_two : (valid [29380608, 29380609]).Pairwise (· < ·) := by
  have first : (create.setWorkerId 5).getId [1609430400007, 1609430400007] =
      some (29380608, ⟨5, 0, 1609430400007⟩, [1609430400007]) := by decide +kernel
  have second : (⟨5, 0, 1609430400007⟩ : SnowFlakeID).getId [1609430400007] =
      some (29380609, ⟨5, 1, 1609430400007⟩, []) := by decide +kernel
  have range : InRange [1609430400007, 1609430400007] := by
    intro reading member
    obtain rfl : reading = 1609430400007 := by simpa using member
    exact ⟨by decide, by decide⟩
  exact (snowFlake_ids.1 5 _ _ _ _ range (.cons first (.cons second (.nil _)))).1

end SnowFlakeID

end BTool.UniqueId
