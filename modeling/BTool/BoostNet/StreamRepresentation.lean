import Mathlib.Logic.Function.Basic
import BTool.BoostNet.StreamStorage
import BTool.Foundation.Transition

/-! Any number of memory streams, used in any order. Their offsets and sizes stay within their
capacities, their copies within their blocks, and their sizes are the ends of what has been written. -/

namespace BTool.BoostNet

open BTool.Foundation BTool.Foundation.Path

/-- A stream, and the end of the bytes written to it since it was emptied. -/
structure Tracked where
  stream : MemoryStream
  high : Nat

/-- The constructors. -/
inductive StreamBirth where
  | empty
  | ofCapacity (capacity : Nat)
  | buffer (src : Block UInt8) (autoDelete : Bool)

def StreamBirth.make : StreamBirth → Option Tracked
  | .empty => some ⟨.empty, 0⟩
  | .ofCapacity capacity => some ⟨.ofCapacity capacity, 0⟩
  | .buffer src autoDelete => (MemoryStream.ofBuffer src autoDelete).map (⟨·, src.length⟩)

/-- The operations on one stream. -/
inductive StreamCall where
  | append (bytes : List UInt8)
  | appendAt (bytes : List UInt8) (offset : Nat)
  | load (bytes : List UInt8)
  | loadWithin (bytes : List UInt8) (capacity : Nat)
  | resetCapacity (len : Nat)
  | clone
  | clear
  | attach (src : Block UInt8)
  | resetOffset (offset : Nat)
  | resetOffsetEnd
  | read (len : Nat) (offsetFlag : Bool)
deriving DecidableEq

namespace StreamCall

/-- The offset is set to a position, and a range is read, within the size. -/
def Proper (stream : MemoryStream) : StreamCall → Prop
  | .resetOffset offset => offset ≤ stream.bufferSize
  | .read len _ => stream.offset + len ≤ stream.bufferSize
  | _ => True

def run (stream : MemoryStream) : StreamCall → Option MemoryStream
  | .append bytes => stream.append bytes
  | .appendAt bytes offset => stream.appendAt bytes offset
  | .load bytes => stream.load bytes
  | .loadWithin bytes capacity => stream.loadWithin bytes capacity
  | .resetCapacity len => stream.resetCapacity len
  | .clone => stream.clone
  | .clear => some stream.clear
  | .attach src => some (stream.attach src)
  | .resetOffset offset => some (stream.resetOffset offset)
  | .resetOffsetEnd => some stream.resetOffsetEnd
  | .read len offsetFlag => (stream.read len offsetFlag).map Prod.snd

/-- The end of the written bytes behind the call. -/
def high (before : Tracked) : StreamCall → Nat
  | .append bytes =>
    if bytes = [] then before.high else max before.high (before.stream.offset + bytes.length)
  | .appendAt bytes offset => if bytes = [] then before.high else max before.high (offset + bytes.length)
  | .load bytes => bytes.length
  | .loadWithin bytes _ => bytes.length
  | .clear => if before.stream.buffer.isSome ∧ before.stream.autoDelete then 0 else before.high
  | .attach src => src.length
  | _ => before.high

/-- An append happens at the end, and a stream that has been attached is not given a smaller block. -/
def Careful (stream : MemoryStream) : StreamCall → Prop
  | .append bytes => bytes = [] ∨ stream.offset = stream.bufferSize
  | .load bytes => stream.autoDelete ∨ stream.capacity ≤ bytes.length
  | .loadWithin bytes capacity => stream.autoDelete ∨ stream.capacity ≤ max capacity bytes.length
  | .resetCapacity len => stream.autoDelete ∨ stream.capacity ≤ len
  | _ => True

instance (stream : MemoryStream) (call : StreamCall) : Decidable (call.Proper stream) := by
  cases call <;> unfold Proper <;> infer_instance

instance (stream : MemoryStream) (call : StreamCall) : Decidable (call.Careful stream) := by
  cases call <;> unfold Careful <;> infer_instance

end StreamCall

inductive StreamAction (Id : Type) where
  | create (id : Id) (birth : StreamBirth)
  | call (id : Id) (call : StreamCall)
  | copy (source target : Id)
  | assign (source target : Id)
  /-- What has been moved from is not used until it is made anew. -/
  | move (source target : Id)
  /-- The memory that a stream has been attached to is written by somebody else. -/
  | overwrite (id : Id) (src : Block UInt8)

/-- The streams, and whether a copy has left its blocks. -/
structure Streams (Id : Type) where
  tracked : Id → Option Tracked
  faulted : Bool

namespace Streams

variable {Id : Type}

def start : Streams Id := ⟨fun _ => none, false⟩

section

variable [DecidableEq Id]

def put (streams : Streams Id) (id : Id) (stream : Option Tracked) : Streams Id :=
  { streams with tracked := Function.update streams.tracked id stream }

/-- What an operation makes of a stream, if all its copies are within their blocks. -/
def settle (streams : Streams Id) (id : Id) : Option Tracked → Streams Id
  | some after => streams.put id (some after)
  | none => { streams with faulted := true }

def act (streams : Streams Id) : StreamAction Id → Option (Streams Id)
  | .create id birth =>
    match streams.tracked id with
    | none => some (streams.settle id birth.make)
    | some _ => none
  | .call id call =>
    match streams.tracked id with
    | none => none
    | some before =>
      if call.Proper before.stream then
        some (streams.settle id ((call.run before.stream).map (⟨·, call.high before⟩)))
      else none
  | .copy source target =>
    match streams.tracked source, streams.tracked target with
    | some rhs, none => some (streams.settle target (rhs.stream.copyOf.map (⟨·, rhs.high⟩)))
    | _, _ => none
  | .assign source target =>
    match streams.tracked source, streams.tracked target with
    | some rhs, some before =>
      if source = target then some streams
      else some (streams.settle target ((before.stream.assign rhs.stream).map (⟨·, rhs.high⟩)))
    | _, _ => none
  | .move source target =>
    match streams.tracked source with
    | some rhs => if source = target then none else some ((streams.put target (some rhs)).put source none)
    | none => none
  | .overwrite id src =>
    match streams.tracked id with
    | some before =>
      if before.stream.autoDelete = false ∧ src.length = before.stream.block.length then
        some (streams.put id (some { before with stream := { before.stream with buffer := some src } }))
      else none
    | none => none

/-- Nothing is defined behind a copy that has left its blocks. -/
def next (streams : Streams Id) (action : StreamAction Id) : Option (Streams Id) :=
  if streams.faulted then none else streams.act action

end

/-- The sizes of a stream are what they stand for. -/
structure Represented (tracked : Tracked) : Prop where
  offset : tracked.stream.offset ≤ tracked.stream.capacity
  size : tracked.stream.bufferSize ≤ tracked.stream.capacity
  high : tracked.stream.bufferSize = tracked.high

/-- Every copy has been within its blocks, and the sizes of every stream are what they stand for. -/
def Sound (streams : Streams Id) : Prop :=
  streams.faulted = false ∧ ∀ id tracked, streams.tracked id = some tracked → Represented tracked

/-- The call of an operation is a careful one. -/
def Fine (streams : Streams Id) : StreamAction Id → Prop
  | .call id call => ∀ before, streams.tracked id = some before → call.Careful before.stream
  | _ => True

/-- What is known of a stream between the operations. -/
structure Exact (tracked : Tracked) : Prop where
  formed : tracked.stream.Formed
  high : tracked.stream.bufferSize = tracked.high

theorem Exact.represented {tracked : Tracked} (exact : Exact tracked) : Represented tracked where
  offset := exact.formed.within
  size := exact.formed.size
  high := exact.high

private theorem make_exact (birth : StreamBirth) : ∃ made, birth.make = some made ∧ Exact made := by
  cases birth with
  | empty => exact ⟨⟨.empty, 0⟩, rfl, ⟨rfl, Nat.le_refl _, Nat.le_refl _⟩, rfl⟩
  | ofCapacity capacity =>
    exact ⟨⟨.ofCapacity capacity, 0⟩, rfl, ⟨Block.length_alloc, Nat.zero_le _, Nat.le_refl _⟩, rfl⟩
  | buffer src autoDelete =>
    cases autoDelete with
    | true =>
      obtain ⟨cells, stored, length, _⟩ := Block.store_alloc (Nat.le_refl src.length)
      refine ⟨⟨⟨src.length, 0, src.length, some cells, true⟩, src.length⟩, ?_,
        ⟨length, Nat.le_refl _, Nat.zero_le _⟩, rfl⟩
      simp [StreamBirth.make, MemoryStream.ofBuffer, stored, MemoryStream.view]
    | false =>
      exact ⟨⟨.view src, src.length⟩, rfl, ⟨rfl, Nat.le_refl _, Nat.zero_le _⟩, rfl⟩

/-- A careful call of an operation has a result, whose sizes are right. -/
private theorem run_exact {before : Tracked} {call : StreamCall} (exact : Exact before)
    (proper : call.Proper before.stream) (careful : call.Careful before.stream) :
    ∃ after, call.run before.stream = some after ∧ Exact ⟨after, call.high before⟩ := by
  obtain ⟨stream, high⟩ := before
  obtain ⟨formed, isHigh⟩ := exact
  simp only at formed isHigh proper careful
  have size := formed.size
  have offset := formed.offset
  cases call with
  | append bytes =>
    by_cases nothing : bytes = []
    · exact ⟨stream, by simp [StreamCall.run, MemoryStream.append, nothing], formed,
        by simp [StreamCall.high, nothing, isHigh]⟩
    · have atEnd : stream.offset = stream.bufferSize := careful.resolve_left nothing
      obtain ⟨after, appended, size', offset', block, within, _⟩ :=
        MemoryStream.append_eq_some bytes formed.block formed.within
      have atEnd' : after.bufferSize = after.offset := by omega
      refine ⟨after, appended, ⟨block, atEnd' ▸ within, Nat.le_of_eq atEnd'.symm⟩, ?_⟩
      simp only [StreamCall.high, if_neg nothing]
      omega
  | appendAt bytes place =>
    by_cases nothing : bytes = []
    · exact ⟨stream, by simp [StreamCall.run, MemoryStream.appendAt, nothing], formed,
        by simp [StreamCall.high, nothing, isHigh]⟩
    · obtain ⟨after, appended, formed', size'⟩ := MemoryStream.appendAt_eq_some formed nothing
      exact ⟨after, appended, formed', by simp [StreamCall.high, nothing, size', isHigh]⟩
  | load bytes =>
    have room : stream.autoDelete ∨ stream.capacity ≤ max 0 bytes.length := by rwa [Nat.zero_max]
    obtain ⟨after, loaded, formed', _, _, _, holds⟩ :=
      MemoryStream.loadWithin_eq_some bytes 0 formed.block room
    rw [← MemoryStream.load_eq_loadWithin] at loaded
    exact ⟨after, loaded, formed', (MemoryStream.bytes_eq_some.mp holds).1⟩
  | loadWithin bytes capacity =>
    obtain ⟨after, loaded, formed', _, _, _, holds⟩ :=
      MemoryStream.loadWithin_eq_some bytes capacity formed.block careful
    exact ⟨after, loaded, formed', (MemoryStream.bytes_eq_some.mp holds).1⟩
  | resetCapacity len =>
    obtain ⟨after, reset, grown, _⟩ := MemoryStream.resetCapacity_grown formed.block careful
    exact ⟨after, reset, grown.formed formed, grown.size.trans isHigh⟩
  | clone =>
    obtain ⟨after, cloned, grown⟩ := MemoryStream.clone_grown formed.block
    exact ⟨after, cloned, grown.formed formed, grown.size.trans isHigh⟩
  | clear =>
    refine ⟨_, rfl, ?_⟩
    by_cases owned : stream.buffer.isSome ∧ stream.autoDelete
    · refine ⟨?_, by simp only [StreamCall.high, MemoryStream.clear, if_pos owned]⟩
      rw [MemoryStream.clear, if_pos owned]
      exact ⟨formed.block, Nat.zero_le _, Nat.le_refl _⟩
    · refine ⟨?_, by simpa only [StreamCall.high, MemoryStream.clear, if_neg owned] using isHigh⟩
      rw [MemoryStream.clear, if_neg owned]
      exact ⟨formed.block, size, Nat.zero_le _⟩
  | attach src => exact ⟨_, rfl, ⟨rfl, Nat.le_refl _, Nat.zero_le _⟩, rfl⟩
  | resetOffset place => exact ⟨_, rfl, ⟨formed.block, size, proper⟩, isHigh⟩
  | resetOffsetEnd => exact ⟨_, rfl, ⟨formed.block, size, Nat.le_refl _⟩, isHigh⟩
  | read len offsetFlag =>
    obtain ⟨after, isRead, rfl⟩ := MemoryStream.read_eq_some offsetFlag formed proper
    refine ⟨_, by rw [StreamCall.run, isRead]; rfl, ?_⟩
    cases offsetFlag with
    | true => exact ⟨⟨formed.block, size, proper⟩, isHigh⟩
    | false => exact ⟨formed, isHigh⟩

/-- Without care the copy leaves its blocks, or the size is not what has been written. -/
private theorem run_inexact {before : Tracked} {call : StreamCall} (exact : Exact before)
    (careless : ¬ call.Careful before.stream) {after : MemoryStream}
    (success : call.run before.stream = some after) : after.bufferSize ≠ call.high before := by
  obtain ⟨stream, high⟩ := before
  obtain ⟨formed, isHigh⟩ := exact
  simp only at formed isHigh careless success
  have offset := formed.offset
  -- An attached stream that is given less than its capacity is copied out of its new block.
  have outside {len : Nat} (careless : ¬ (stream.autoDelete = true ∨ stream.capacity ≤ len)) :
      stream.resetCapacity len = none := by
    obtain ⟨attached, short⟩ := not_or.mp careless
    exact MemoryStream.resetCapacity_eq_none (by simpa using attached) formed.block
      (Nat.lt_of_not_le short)
  cases call with
  | append bytes =>
    obtain ⟨something, inside⟩ := not_or.mp careless
    obtain ⟨result, appended, size', _⟩ :=
      MemoryStream.append_eq_some bytes formed.block formed.within
    obtain rfl : result = after := Option.some.inj (appended.symm.trans success)
    have positive := List.length_pos_iff.mpr something
    simp only [StreamCall.high, if_neg something]
    omega
  | load bytes =>
    rw [StreamCall.run, MemoryStream.load, outside careless] at success
    cases success
  | loadWithin bytes capacity =>
    rw [StreamCall.run, MemoryStream.loadWithin, outside careless] at success
    cases success
  | resetCapacity len =>
    rw [StreamCall.run, outside careless] at success
    cases success
  | _ => exact absurd trivial careless

variable {streams : Streams Id} {id : Id} {after : Tracked}

/-- What is known of all streams between the operations. -/
def Kept (streams : Streams Id) : Prop :=
  streams.faulted = false ∧ ∀ id tracked, streams.tracked id = some tracked → Exact tracked

theorem Kept.sound (kept : streams.Kept) : streams.Sound :=
  ⟨kept.1, fun id tracked here => (kept.2 id tracked here).represented⟩

variable [DecidableEq Id]

private theorem Kept.put (kept : streams.Kept) (exact : ∀ tracked, after? = some tracked → Exact tracked) :
    (streams.put id after?).Kept := by
  refine ⟨kept.1, fun other tracked here => ?_⟩
  by_cases same : other = id
  · subst same
    simp only [Streams.put, Function.update_self] at here
    exact exact tracked here
  · simp only [Streams.put, Function.update_of_ne same] at here
    exact kept.2 other tracked here

private theorem Kept.settle {result : Option Tracked} (kept : streams.Kept)
    (success : ∃ after, result = some after ∧ Exact after) : (streams.settle id result).Kept := by
  obtain ⟨after, rfl, exact⟩ := success
  exact kept.put fun tracked same => Option.some.inj same ▸ exact

private theorem copy_exact {rhs : Tracked} (exact : Exact rhs) :
    ∃ after, rhs.stream.copyOf.map (⟨·, rhs.high⟩) = some after ∧ Exact after := by
  obtain ⟨copied, copy, formed, size, _⟩ := MemoryStream.copyOf_eq_some exact.formed
  exact ⟨_, by rw [copy]; rfl, formed, size.trans exact.high⟩

/-- A step with care leaves every stream as it should be. -/
private theorem kept_of_fine {before after : Streams Id} {action : StreamAction Id} (kept : before.Kept)
    (fine : before.Fine action) (taken : before.next action = some after) : after.Kept := by
  rw [next, kept.1, if_neg (by simp)] at taken
  cases action with
  | create id birth =>
    simp only [act] at taken
    split at taken
    · cases taken
      exact kept.settle (make_exact birth)
    · cases taken
  | call id call =>
    simp only [act] at taken
    split at taken
    · cases taken
    · rename_i tracked here
      split at taken
      · rename_i proper
        cases taken
        obtain ⟨result, ran, exact⟩ := run_exact (kept.2 id tracked here) proper (fine tracked here)
        exact kept.settle ⟨_, by rw [ran]; rfl, exact⟩
      · cases taken
  | copy source target =>
    simp only [act] at taken
    split at taken
    · rename_i rhs here _
      cases taken
      exact kept.settle (copy_exact (kept.2 source rhs here))
    · cases taken
  | assign source target =>
    simp only [act] at taken
    split at taken
    · rename_i rhs tracked here _
      split at taken
      · cases taken
        exact kept
      · cases taken
        rw [MemoryStream.assign_eq_copyOf]
        exact kept.settle (copy_exact (kept.2 source rhs here))
    · cases taken
  | move source target =>
    simp only [act] at taken
    split at taken
    · rename_i rhs here
      split at taken
      · cases taken
      · cases taken
        refine Kept.put (Kept.put kept fun tracked same => ?_) fun tracked none => by cases none
        exact Option.some.inj same ▸ kept.2 source rhs here
    · cases taken
  | overwrite id src =>
    simp only [act] at taken
    split at taken
    · rename_i tracked here
      split at taken
      · rename_i attached
        cases taken
        refine kept.put fun other same => ?_
        obtain rfl := Option.some.inj same
        have exact := kept.2 id tracked here
        exact ⟨⟨attached.2.trans exact.formed.block, exact.formed.size, exact.formed.offset⟩, exact.high⟩
      · cases taken
    · cases taken

/-- A step without care leaves a stream that is not as it should be. -/
private theorem fine_of_sound {before after : Streams Id} {action : StreamAction Id} (kept : before.Kept)
    (taken : before.next action = some after) (sound : after.Sound) : before.Fine action := by
  rw [next, kept.1, if_neg (by simp)] at taken
  cases action with
  | call id call =>
    intro tracked here
    simp only [act, here] at taken
    split at taken
    · cases taken
      by_contra careless
      cases ran : call.run tracked.stream with
      | none =>
        rw [ran] at sound
        cases sound.1
      | some result =>
        rw [ran] at sound
        refine run_inexact (kept.2 id tracked here) careless ran (sound.2 id ⟨result, _⟩ ?_).high
        exact Function.update_self ..
    · cases taken
  | _ => trivial

/-- Whatever is done with the streams, in any order: their sizes stay within their capacities and are
what has been written, and no copy leaves its blocks, if and only if appends at the offset happen at
the end and no stream that has been attached is to have less than its capacity. -/
theorem sound_iff_fine {actions : List (StreamAction Id)} {last : Streams Id}
    (path : Path (Taken next) start actions last) :
    (∀ streams, Visits (Taken next) start actions streams → streams.Sound) ↔
      ∀ streams action, Takes (Taken next) start actions streams action → streams.Fine action := by
  have begins : (start : Streams Id).Kept := ⟨rfl, fun id tracked here => by cases here⟩
  refine path.visits_iff_all_takes Kept ?_ begins.sound begins
  intro before action after kept _ taken
  have same : after.Sound ↔ before.Fine action :=
    ⟨fine_of_sound kept taken, fun fine => (kept_of_fine kept fine taken).sound⟩
  exact ⟨same, fun sound => kept_of_fine kept (same.mp sound) taken⟩

/-- A stream is filled, copied and read; what has been attached is cloned before it is appended to. -/
theorem sound_iff_fine_two_streams :
    let actions : List (StreamAction Nat) :=
      [.create 0 .empty, .call 0 (.append [1, 2, 3]), .call 0 (.append [4]), .copy 0 1,
        .call 1 (.resetOffset 1), .call 1 (.read 2 true), .call 1 (.appendAt [9] 1),
        .call 0 (.attach [some 7]), .call 0 .clone, .call 0 .resetOffsetEnd, .call 0 (.append [8])]
    (∀ streams, Visits (Taken next) start actions streams → streams.Sound) ↔
      ∀ streams action, Takes (Taken next) start actions streams action → streams.Fine action := by
  intro actions
  have runs : (exec next start actions).isSome := by decide
  obtain ⟨last, run⟩ := Option.isSome_iff_exists.mp runs
  exact sound_iff_fine (exec_eq_some_iff.mp run)

/-- Four bytes, of which the first is written again, are five in a block of four. A stream of two
attached bytes that is to have a block of one copies both into it. -/
theorem not_sound_append_in_the_middle :
    (∃ streams tracked, exec next (start : Streams Nat)
        [.create 0 .empty, .call 0 (.append [1, 2, 3, 4]), .call 0 (.resetOffset 0),
          .call 0 (.append [9])] = some streams ∧ streams.tracked 0 = some tracked ∧
      tracked.stream.bufferSize = 5 ∧ tracked.stream.capacity = 4 ∧ tracked.high = 4 ∧
      ¬ streams.Sound) ∧
    ∃ streams, exec next (start : Streams Nat)
        [.create 0 (.buffer [some 1, some 2] false), .call 0 (.resetCapacity 1)] = some streams ∧
      ¬ streams.Sound := by
  refine ⟨⟨_, _, rfl, rfl, rfl, rfl, rfl, fun sound => ?_⟩, _, rfl, fun sound => ?_⟩
  · exact absurd (sound.2 0 _ rfl).high (by decide)
  · cases sound.1

end Streams

end BTool.BoostNet
