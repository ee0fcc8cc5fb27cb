import BTool.Foundation.Chunks
import BTool.Timer.TimerManager

/-! What `insert` rounds up to slices: the interval, and the first time point. -/

namespace BTool.Timer

open BTool.Foundation

/-- Rounding up in unsigned numbers of 64 bits, as long as the sum does not wrap round. -/
private theorem toNat_roundUp {number slice : UInt64} (positive : 0 < slice.toNat)
    (small : number.toNat + slice.toNat - 1 < 2 ^ 64) :
    ((number + slice - 1) / slice * slice).toNat = chunkCount number.toNat slice.toNat * slice.toNat := by
  have below : (number.toNat + slice.toNat - 1) / slice.toNat * slice.toNat < 2 ^ 64 :=
    Nat.lt_of_le_of_lt (Nat.div_mul_le_self _ _) small
  have sum : (number + slice - 1).toNat = number.toNat + slice.toNat - 1 := by
    rw [UInt64.toNat_sub, UInt64.toNat_add]
    change (2 ^ 64 - 1 + (number.toNat + slice.toNat) % 2 ^ 64) % 2 ^ 64 = _
    omega
  rw [UInt64.toNat_mul, UInt64.toNat_div, sum, chunkCount, Nat.mod_eq_of_lt below]

namespace TimerManager

variable {manager : TimerManager} {intervalMs : UInt32} {timePoint : Int}

/-- The interval is the least multiple of the slice that is not shorter. -/
def IntervalRoundedUp (manager : TimerManager) (intervalMs : UInt32) (interval : Nat) : Prop :=
  IsLeast {multiple | manager.spaceMillsecond.toNat ∣ multiple ∧ intervalMs.toNat ≤ multiple} interval

/-- The time point, in nanoseconds, is the least multiple of the slice that is not earlier. -/
def PointRoundedUp (manager : TimerManager) (timePoint point : Int) : Prop :=
  IsLeast {multiple : Int | 1000000 * (manager.spaceMillsecond.toNat : Int) ∣ multiple ∧ timePoint ≤ multiple} point

private theorem toNat_pos_of_slices (slices : 1 < manager.spaceMillsecond) :
    0 < manager.spaceMillsecond.toNat :=
  Nat.zero_lt_of_lt (UInt64.lt_iff_toNat_lt.mp slices)

/-- A multiple of the slice that fits leaves room for the sum before the division. -/
private theorem roundUp_small {number slice multiple : Nat} (divides : slice ∣ multiple)
    (enough : number ≤ multiple) (small : multiple < 2 ^ 63) (isSlice : slice < 2 ^ 64) :
    number + slice - 1 < 2 ^ 64 := by
  obtain rfl | some := Nat.eq_zero_or_pos number
  · omega
  · have := Nat.le_of_dvd (by omega) divides
    omega

/-- The interval that is stored is right as long as the right one has 32 bits. -/
theorem intervalRoundedUp_iff (slices : 1 < manager.spaceMillsecond) :
    manager.IntervalRoundedUp intervalMs (manager.reviseInterval intervalMs).toNat ↔
      ∃ multiple < 2 ^ 32, manager.spaceMillsecond.toNat ∣ multiple ∧ intervalMs.toNat ≤ multiple := by
  constructor
  · intro least
    exact ⟨_, UInt32.toNat_lt _, least.1⟩
  · rintro ⟨multiple, small, divides, enough⟩
    have positive := toNat_pos_of_slices slices
    have least : IsLeast {multiple | manager.spaceMillsecond.toNat ∣ multiple ∧ intervalMs.toNat ≤ multiple}
        (chunkCount intervalMs.toNat manager.spaceMillsecond.toNat * manager.spaceMillsecond.toNat) :=
      isLeast_chunkCount_mul positive
    have below := least.2 ⟨divides, enough⟩
    have noWrap : intervalMs.toUInt64.toNat + manager.spaceMillsecond.toNat - 1 < 2 ^ 64 :=
      roundUp_small divides enough (by omega) (UInt64.toNat_lt _)
    have isInterval : (manager.reviseInterval intervalMs).toNat =
        chunkCount intervalMs.toNat manager.spaceMillsecond.toNat * manager.spaceMillsecond.toNat := by
      rw [reviseInterval, if_pos slices, UInt64.toNat_toUInt32, toNat_roundUp positive noWrap,
        UInt32.toNat_toUInt64]
      exact Nat.mod_eq_of_lt (by omega)
    rw [IntervalRoundedUp, isInterval]
    exact least

/-- Rounding up the whole milliseconds is rounding up the time point, unless it is within the
millisecond behind the end of a slice. -/
private theorem isLeast_millis {slice number : Nat} (positive : 0 < slice)
    (between : 1000000 ∣ number ∨ ¬ slice ∣ number / 1000000) :
    IsLeast {multiple | 1000000 * slice ∣ multiple ∧ number ≤ multiple}
      (1000000 * (chunkCount (number / 1000000) slice * slice)) := by
  have ceil : IsLeast {multiple | slice ∣ multiple ∧ number / 1000000 ≤ multiple}
      (chunkCount (number / 1000000) slice * slice) := isLeast_chunkCount_mul positive
  obtain ⟨⟨_, enough⟩, least⟩ := ceil
  refine ⟨⟨Nat.mul_dvd_mul_left _ (Nat.dvd_mul_left _ _), ?_⟩, ?_⟩
  · obtain whole | within := between
    · obtain ⟨millis, rfl⟩ := whole
      rw [Nat.mul_div_cancel_left _ (by omega)] at enough ⊢
      exact Nat.mul_le_mul_left _ enough
    · have apart : number / 1000000 ≠ chunkCount (number / 1000000) slice * slice := by
        intro same
        exact within (same ▸ Nat.dvd_mul_left _ _)
      omega
  · rintro _ ⟨⟨count, rfl⟩, later⟩
    have millis : number / 1000000 ≤ slice * count := by
      rw [Nat.mul_assoc] at later
      exact Nat.div_le_of_le_mul later
    rw [Nat.mul_assoc]
    exact Nat.mul_le_mul_left _ (least ⟨Nat.dvd_mul_right _ _, millis⟩)

private theorem toInt_toInt64_of_lt {number : UInt64} (small : number.toNat < 2 ^ 63) :
    number.toInt64.toInt = number.toNat := by
  rw [← Int64.toInt_toBitVec, UInt64.toBitVec_toInt64,
    BitVec.toInt_eq_toNat_of_lt (by rw [UInt64.toNat_toBitVec]; omega), UInt64.toNat_toBitVec]

private theorem toNat_ofInt_of_lt {number : Nat} (small : number < 2 ^ 64) :
    (Int64.ofInt number).toUInt64.toNat = number := by
  rw [← UInt64.toNat_toBitVec, Int64.toBitVec_toUInt64, Int64.toBitVec_ofInt, BitVec.toNat_ofInt]
  omega

private theorem toInt_mul_million {number : Int64} (positive : 0 ≤ number.toInt)
    (small : number.toInt * 1000000 < 2 ^ 63) : (number * 1000000).toInt = number.toInt * 1000000 := by
  rw [Int64.toInt_mul]
  change (number.toInt * 1000000).bmod _ = _
  rw [Int.bmod_eq_of_le (by omega) (by omega)]

/-- Where some multiple of the slice fits, the whole milliseconds are rounded up as they should be. -/
theorem reviseTimePoint_eq (slices : 1 < manager.spaceMillsecond) {number : Nat}
    (fits : ∃ multiple < 2 ^ 63, 1000000 * manager.spaceMillsecond.toNat ∣ multiple ∧ number ≤ multiple) :
    manager.reviseTimePoint number = (1000000 * (chunkCount (number / 1000000)
      manager.spaceMillsecond.toNat * manager.spaceMillsecond.toNat) : Nat) := by
  have positive := toNat_pos_of_slices slices
  obtain ⟨_, small, ⟨count, rfl⟩, later⟩ := fits
  rw [Nat.mul_assoc] at later small
  have enough : number / 1000000 ≤ manager.spaceMillsecond.toNat * count := Nat.div_le_of_le_mul later
  have below : chunkCount (number / 1000000) manager.spaceMillsecond.toNat * manager.spaceMillsecond.toNat ≤
      manager.spaceMillsecond.toNat * count :=
    (isLeast_chunkCount_mul positive).2 ⟨Nat.dvd_mul_right _ _, enough⟩
  have isMillis : (number : Int).tdiv 1000000 = (number / 1000000 : Nat) := rfl
  have isCount := toNat_ofInt_of_lt (by omega : number / 1000000 < 2 ^ 64)
  have noWrap : (Int64.ofInt (number / 1000000 : Nat)).toUInt64.toNat + manager.spaceMillsecond.toNat - 1 <
      2 ^ 64 := by
    rw [isCount]
    exact roundUp_small (Nat.dvd_mul_right _ _) enough (by omega) (UInt64.toNat_lt _)
  have isRounded := toNat_roundUp positive noWrap
  rw [isCount] at isRounded
  have isSigned := toInt_toInt64_of_lt (by rw [isRounded]; omega)
  rw [isRounded] at isSigned
  rw [reviseTimePoint, if_pos slices, isMillis]
  dsimp only
  rw [toInt_mul_million (by rw [isSigned]; omega) (by rw [isSigned]; omega), isSigned,
    Int.natCast_mul, Int.mul_comm]
  rfl

private theorem reviseTimePoint_lt (slices : 1 < manager.spaceMillsecond) :
    manager.reviseTimePoint timePoint < 2 ^ 63 := by
  rw [reviseTimePoint, if_pos slices]
  exact Int64.toInt_lt _

/-- The multiples of the slice among the integers are those among the natural numbers. -/
private theorem multiple_iff {slice number : Nat} {multiple : Int} :
    1000000 * (slice : Int) ∣ multiple ∧ (number : Int) ≤ multiple ↔
      ∃ natural : Nat, multiple = natural ∧ 1000000 * slice ∣ natural ∧ number ≤ natural := by
  have isProduct : 1000000 * (slice : Int) = (1000000 * slice : Nat) := rfl
  rw [isProduct]
  constructor
  · rintro ⟨divides, later⟩
    obtain ⟨natural, rfl⟩ := Int.eq_ofNat_of_zero_le (by omega : 0 ≤ multiple)
    exact ⟨natural, rfl, Int.natCast_dvd_natCast.mp divides, Int.ofNat_le.mp later⟩
  · rintro ⟨natural, rfl, divides, later⟩
    exact ⟨Int.natCast_dvd_natCast.mpr divides, Int.ofNat_le.mpr later⟩

/-- The first time point that is stored is right unless the one asked for lies within the millisecond
behind the end of a slice, or the right one does not fit. -/
theorem pointRoundedUp_iff (slices : 1 < manager.spaceMillsecond) (notNegative : 0 ≤ timePoint) :
    manager.PointRoundedUp timePoint (manager.reviseTimePoint timePoint) ↔
      (1000000 ∣ timePoint ∨ ¬ (manager.spaceMillsecond.toNat : Int) ∣ timePoint / 1000000) ∧
      ∃ multiple < 2 ^ 63, 1000000 * (manager.spaceMillsecond.toNat : Int) ∣ multiple ∧ timePoint ≤ multiple := by
  obtain ⟨number, rfl⟩ := Int.eq_ofNat_of_zero_le notNegative
  have positive := toNat_pos_of_slices slices
  have fits_iff : (∃ multiple < 2 ^ 63, 1000000 * (manager.spaceMillsecond.toNat : Int) ∣ multiple ∧
      (number : Int) ≤ multiple) ↔
        ∃ multiple < 2 ^ 63, 1000000 * manager.spaceMillsecond.toNat ∣ multiple ∧ number ≤ multiple := by
    simp only [multiple_iff]
    constructor
    · rintro ⟨_, small, multiple, rfl, divides, later⟩
      exact ⟨multiple, by exact_mod_cast small, divides, later⟩
    · rintro ⟨multiple, small, divides, later⟩
      exact ⟨multiple, by exact_mod_cast small, multiple, rfl, divides, later⟩
  constructor
  · intro least
    have fits : ∃ multiple < 2 ^ 63, 1000000 * (manager.spaceMillsecond.toNat : Int) ∣ multiple ∧
        (number : Int) ≤ multiple := ⟨_, reviseTimePoint_lt slices, least.1⟩
    refine ⟨?_, fits⟩
    by_contra neither
    obtain ⟨notWhole, isEnd⟩ := not_or.mp neither
    have atEnd : manager.spaceMillsecond.toNat ∣ number / 1000000 :=
      Int.natCast_dvd_natCast.mp (not_not.mp isEnd)
    have ceil : IsLeast {multiple | manager.spaceMillsecond.toNat ∣ multiple ∧ number / 1000000 ≤ multiple}
        (chunkCount (number / 1000000) manager.spaceMillsecond.toNat * manager.spaceMillsecond.toNat) :=
      isLeast_chunkCount_mul positive
    have early := ceil.2 ⟨atEnd, Nat.le_refl _⟩
    have late := least.1.2
    rw [reviseTimePoint_eq slices (fits_iff.mp fits)] at late
    omega
  · rintro ⟨between, fits⟩
    have between' : 1000000 ∣ number ∨ ¬ manager.spaceMillsecond.toNat ∣ number / 1000000 :=
      between.imp Int.natCast_dvd_natCast.mp fun apart divides => apart (Int.natCast_dvd_natCast.mpr divides)
    obtain ⟨member, least⟩ := isLeast_millis positive between'
    rw [PointRoundedUp, reviseTimePoint_eq slices (fits_iff.mp fits)]
    refine ⟨multiple_iff.mpr ⟨_, rfl, member⟩, ?_⟩
    intro multiple isMultiple
    obtain ⟨natural, rfl, isNatural⟩ := multiple_iff.mp isMultiple
    exact Int.ofNat_le.mpr (least isNatural)

/-- What `insert` stores of the interval and of the first time point. -/
theorem insertTask_stores {loopCount : Int} {queue : TimerQueue} {address : Nat}
    (inserted : manager.insertTask intervalMs loopCount timePoint = (queue, some address)) :
    (queue.task address).timePoint = manager.reviseTimePoint timePoint ∧
      (queue.task address).interval = (manager.reviseInterval intervalMs).toNat := by
  unfold insertTask TimerQueue.insert at inserted
  split at inserted
  · cases inserted
  · split at inserted
    · cases inserted
    · cases inserted
      simp only [TimerQueue.change, Function.update_self, TimerTask.construct, and_self]

/-- The time point and the interval that `insert` stores are the ones asked for, rounded up to slices, if
and only if these fit into their numbers and the time point is not within the millisecond behind the end
of a slice. -/
theorem insert_rounds_up_iff {loopCount : Int} {queue : TimerQueue} {address : Nat}
    (slices : 1 < manager.spaceMillsecond) (notNegative : 0 ≤ timePoint)
    (inserted : manager.insertTask intervalMs loopCount timePoint = (queue, some address)) :
    (manager.PointRoundedUp timePoint (queue.task address).timePoint ∧
      manager.IntervalRoundedUp intervalMs (queue.task address).interval) ↔
    ((1000000 ∣ timePoint ∨ ¬ (manager.spaceMillsecond.toNat : Int) ∣ timePoint / 1000000) ∧
      ∃ multiple < 2 ^ 63, 1000000 * (manager.spaceMillsecond.toNat : Int) ∣ multiple ∧ timePoint ≤ multiple) ∧
    ∃ multiple < 2 ^ 32, manager.spaceMillsecond.toNat ∣ multiple ∧ intervalMs.toNat ≤ multiple := by
  obtain ⟨isPoint, isInterval⟩ := insertTask_stores inserted
  rw [isPoint, isInterval]
  exact and_congr (pointRoundedUp_iff slices notNegative) (intervalRoundedUp_iff slices)

/-- In slices of 50 ms, 80 ms and a time point at 120 ms become 100 ms and 150 ms. -/
theorem insert_rounds_up_iff_slice :
    (construct 50).PointRoundedUp 120000000 150000000 ∧ (construct 50).IntervalRoundedUp 80 100 := by
  have rounded : ((construct 50).PointRoundedUp 120000000 150000000 ∧
      (construct 50).IntervalRoundedUp 80 100) ↔ _ :=
    insert_rounds_up_iff (by decide) (by decide)
      (rfl : (construct 50).insertTask 80 1 120000000 = (_, some 0))
  exact rounded.mpr ⟨⟨.inl (by decide), 150000000, by decide, by decide, by decide⟩,
    100, by decide, by decide, by decide⟩

/-- A time point at 50.5 ms is stored as 50 ms in slices of 50 ms. -/
theorem not_rounded_up_between : ((construct 50).insertTask 80 1 50500000).1.task 0 =
      .construct 100 1 1 50000000 ∧
    ¬ ∀ (manager : TimerManager) (intervalMs : UInt32) (loopCount timePoint : Int) (queue : TimerQueue)
      (address : Nat), 1 < manager.spaceMillsecond → 0 ≤ timePoint →
      manager.insertTask intervalMs loopCount timePoint = (queue, some address) →
      manager.PointRoundedUp timePoint (queue.task address).timePoint ∧
        manager.IntervalRoundedUp intervalMs (queue.task address).interval := by
  refine ⟨rfl, fun always => ?_⟩
  obtain ⟨point, _⟩ := always (construct 50) 80 1 50500000 _ 0 (by decide) (by decide) rfl
  exact absurd point.1.2 (by decide)

end TimerManager

end BTool.Timer
