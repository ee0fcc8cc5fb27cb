import BTool.BoostNet.StreamStorage
import BTool.Foundation.MemorySizes
import BTool.Foundation.Transition

/-! `BatchWriter`: data reach the file through a stream that collects them, or directly with `write_now`. -/

namespace BTool.MMapFile

open BTool.Foundation BTool.BoostNet

structure BatchWriter where
  /-- What the file held and then all that has been handed to `fwrite`. -/
  file : List UInt8
  /-- `fflush` has been called since. -/
  flushed : Bool
  realtimeFlush : Bool
  buffer : MemoryStream
  bufferSize : Nat
deriving DecidableEq

/-- The overloads for a string: a `const char*` leads to bytes of which a zero is the end. -/
inductive StringArg where
  | chars (memory : List UInt8)
  | string (bytes : List UInt8)
deriving DecidableEq

def StringArg.data : StringArg → List UInt8
  | .chars memory => memory.takeWhile (· ≠ 0)
  | .string bytes => bytes

namespace BatchWriter

def construct (initial : List UInt8) (overWrite realtimeFlush : Bool) (bufferSize : Nat) : BatchWriter :=
  { file := if overWrite then [] else initial, flushed := true, realtimeFlush,
    buffer := .ofCapacity (addSize bufferSize 1024), bufferSize }

def fwrite (writer : BatchWriter) (data : List UInt8) : BatchWriter :=
  { writer with file := writer.file ++ data, flushed := writer.flushed && data.isEmpty }

/-- A result is missing where bytes are read that nobody has written. -/
def flush (writer : BatchWriter) : Option BatchWriter :=
  if writer.buffer.bufferSize = 0 then some writer
  else do
    let data ← writer.buffer.bytes
    some { writer.fwrite data with flushed := true, buffer := writer.buffer.clear }

/-- How the calls that append end. -/
def flushDue (writer : BatchWriter) : Option BatchWriter :=
  if writer.realtimeFlush = true ∨ writer.bufferSize ≤ writer.buffer.bufferSize then writer.flush
  else some writer

def write (writer : BatchWriter) (data : List UInt8) : Option BatchWriter := do
  let buffer ← writer.buffer.append data
  flushDue { writer with buffer }

def writeLine (writer : BatchWriter) (data : List UInt8) : Option BatchWriter := do
  let buffer ← writer.buffer.append data
  let buffer ← buffer.append [10]
  flushDue { writer with buffer }

def writeString (writer : BatchWriter) (text : StringArg) : Option BatchWriter :=
  writer.write text.data

def writeStringLine (writer : BatchWriter) (text : StringArg) : Option BatchWriter :=
  writer.writeLine text.data

def writeNow (writer : BatchWriter) (data : List UInt8) : BatchWriter :=
  writer.fwrite data

def resetFlush (writer : BatchWriter) (realtimeFlush : Bool) : BatchWriter :=
  { writer with realtimeFlush }

/-- The file behind the destructor, which calls `flush` and `fclose`. -/
def destroy (writer : BatchWriter) : Option (List UInt8) :=
  writer.flush.map (·.file)

end BatchWriter

inductive BatchCall where
  | write (data : List UInt8)
  | writeLine (data : List UInt8)
  | writeString (text : StringArg)
  | writeStringLine (text : StringArg)
  | writeNow (data : List UInt8)
  | flush
  | resetFlush (realtimeFlush : Bool)
deriving DecidableEq

namespace BatchCall

def run (writer : BatchWriter) : BatchCall → Option BatchWriter
  | .write data => writer.write data
  | .writeLine data => writer.writeLine data
  | .writeString text => writer.writeString text
  | .writeStringLine text => writer.writeStringLine text
  | .writeNow data => some (writer.writeNow data)
  | .flush => writer.flush
  | .resetFlush realtimeFlush => some (writer.resetFlush realtimeFlush)

/-- The data that a call is to bring to the file. -/
def data : BatchCall → List UInt8
  | .write data => data
  | .writeLine data => data ++ [10]
  | .writeString text => text.data
  | .writeStringLine text => text.data ++ [10]
  | .writeNow data => data
  | .flush => []
  | .resetFlush _ => []

end BatchCall

/-- A writer, and what should be in the file after it: what was there, and the data of all calls so
far. -/
structure Batch where
  writer : BatchWriter
  log : List UInt8
deriving DecidableEq

namespace Batch

def start (initial : List UInt8) (overWrite realtimeFlush : Bool) (bufferSize : Nat) : Batch :=
  ⟨.construct initial overWrite realtimeFlush bufferSize, if overWrite then [] else initial⟩

def next (batch : Batch) (call : BatchCall) : Option Batch :=
  (call.run batch.writer).map (⟨·, batch.log ++ call.data⟩)

/-- The destructor would leave all data in call order, and nothing is in the stream while realtime
flushing is on. -/
structure Orderly (batch : Batch) : Prop where
  inOrder : batch.writer.destroy = some batch.log
  nothingBuffered : batch.writer.realtimeFlush = true → batch.writer.buffer.bufferSize = 0

/-- Moreover nothing is left to the C library to write out while realtime flushing is on. -/
structure Prompt (batch : Batch) : Prop where
  orderly : Orderly batch
  nothingKept : batch.writer.realtimeFlush = true → batch.writer.flushed = true

/-- The data of a `write_now` could as well come in front of what is in the stream, and realtime flushing
is not turned on while something is. -/
def Careful (batch : Batch) : BatchCall → Prop
  | .writeNow data => ∀ held, batch.writer.buffer.bytes = some held → held ++ data = data ++ held
  | .resetFlush true => batch.writer.buffer.bufferSize = 0
  | _ => True

/-- Moreover `write_now` is not called with any data under realtime flushing, nor is that turned on
before `fflush` has been called. -/
def Strict (batch : Batch) : BatchCall → Prop
  | .writeNow data => data = [] ∨ batch.writer.realtimeFlush = false ∧
      ∀ held, batch.writer.buffer.bytes = some held → held ++ data = data ++ held
  | .resetFlush true => batch.writer.buffer.bufferSize = 0 ∧ batch.writer.flushed = true
  | _ => True

end Batch

/-- A stream that has these bytes, behind which the next ones are to go. -/
structure Holds (stream : MemoryStream) (held : List UInt8) : Prop where
  atEnd : stream.AtEnd
  has : stream.bytes = some held
  owned : stream.autoDelete = true

variable {stream : MemoryStream} {held : List UInt8}

theorem Holds.size (holds : Holds stream held) : stream.bufferSize = held.length :=
  (MemoryStream.bytes_eq_some.mp holds.has).1

theorem holds_ofCapacity (capacity : Nat) : Holds (.ofCapacity capacity) [] :=
  ⟨MemoryStream.atEnd_ofCapacity capacity, MemoryStream.bytes_eq_some.mpr ⟨rfl, rfl⟩, rfl⟩

theorem Holds.append (holds : Holds stream held) (bytes : List UInt8) :
    ∃ after, stream.append bytes = some after ∧ Holds after (held ++ bytes) := by
  obtain ⟨after, appended, extended⟩ := MemoryStream.append_extends bytes holds.atEnd
  obtain ⟨after', appended', _, _, _, _, owned, _⟩ :=
    MemoryStream.append_eq_some bytes holds.atEnd.formed.block holds.atEnd.formed.within
  obtain rfl := Option.some.inj (appended.symm.trans appended')
  exact ⟨after, appended, extended.atEnd, extended.bytes_eq_some holds.has, owned holds.owned⟩

theorem Holds.clear (holds : Holds stream held) (some : held ≠ []) : Holds stream.clear [] := by
  have formed := holds.atEnd.formed
  have pointer : stream.buffer.isSome := by
    cases isBuffer : stream.buffer with
    | some block => rfl
    | none =>
      have size := holds.size
      have within := formed.size
      have room : 0 = stream.capacity := by
        rw [← formed.block, MemoryStream.block, isBuffer]
        rfl
      exact absurd (List.eq_nil_of_length_eq_zero (by omega)) some
  rw [MemoryStream.clear, if_pos ⟨pointer, holds.owned⟩]
  exact ⟨⟨⟨formed.block, Nat.zero_le _, Nat.le_refl _⟩, rfl⟩,
    MemoryStream.bytes_eq_some.mpr ⟨rfl, rfl⟩, holds.owned⟩

/-- A writer as what it has handed over and what it still holds. -/
structure Plain where
  file : List UInt8
  flushed : Bool
  realtimeFlush : Bool
  held : List UInt8
  bufferSize : Nat

namespace Plain

def flush (plain : Plain) : Plain :=
  if plain.held = [] then plain
  else { plain with file := plain.file ++ plain.held, flushed := true, held := [] }

def put (plain : Plain) (data : List UInt8) : Plain :=
  if plain.realtimeFlush = true ∨ plain.bufferSize ≤ (plain.held ++ data).length
  then flush { plain with held := plain.held ++ data }
  else { plain with held := plain.held ++ data }

def run (plain : Plain) : BatchCall → Plain
  | .writeNow data => { plain with
      file := plain.file ++ data, flushed := plain.flushed && data.isEmpty }
  | .flush => plain.flush
  | .resetFlush realtimeFlush => { plain with realtimeFlush }
  | call => plain.put call.data

end Plain

/-- The writer stands for the plain one. -/
structure Shows (writer : BatchWriter) (plain : Plain) : Prop where
  file : writer.file = plain.file
  flushed : writer.flushed = plain.flushed
  realtimeFlush : writer.realtimeFlush = plain.realtimeFlush
  bufferSize : writer.bufferSize = plain.bufferSize
  holds : Holds writer.buffer plain.held

variable {writer : BatchWriter} {plain : Plain}

theorem Shows.nothing_iff (shows : Shows writer plain) :
    writer.buffer.bufferSize = 0 ↔ plain.held = [] := by
  rw [shows.holds.size, List.length_eq_zero_iff]

theorem Shows.flush (shows : Shows writer plain) :
    ∃ after, writer.flush = some after ∧ Shows after plain.flush := by
  by_cases nothing : plain.held = []
  · exact ⟨writer, if_pos (shows.nothing_iff.mpr nothing), by rwa [Plain.flush, if_pos nothing]⟩
  · refine ⟨{ writer.fwrite plain.held with flushed := true, buffer := writer.buffer.clear }, ?_, ?_⟩
    · rw [BatchWriter.flush, if_neg (mt shows.nothing_iff.mp nothing), shows.holds.has]
      rfl
    · rw [Plain.flush, if_neg nothing]
      exact ⟨congrArg (· ++ plain.held) shows.file, rfl, shows.realtimeFlush, shows.bufferSize,
        shows.holds.clear nothing⟩

theorem Shows.flushDue {buffer : MemoryStream} {data : List UInt8} (shows : Shows writer plain)
    (holds : Holds buffer (plain.held ++ data)) :
    ∃ after, BatchWriter.flushDue { writer with buffer } = some after ∧
      Shows after (plain.put data) := by
  have shows' : Shows { writer with buffer } { plain with held := plain.held ++ data } :=
    ⟨shows.file, shows.flushed, shows.realtimeFlush, shows.bufferSize, holds⟩
  have same : writer.realtimeFlush = true ∨ writer.bufferSize ≤ buffer.bufferSize ↔
      (plain.realtimeFlush = true ∨ plain.bufferSize ≤ (plain.held ++ data).length) := by
    rw [shows.realtimeFlush, shows.bufferSize, holds.size]
  by_cases due : plain.realtimeFlush = true ∨ plain.bufferSize ≤ (plain.held ++ data).length
  · rw [Plain.put, if_pos due, BatchWriter.flushDue, if_pos (same.mpr due)]
    exact shows'.flush
  · rw [Plain.put, if_neg due, BatchWriter.flushDue, if_neg (mt same.mp due)]
    exact ⟨_, rfl, shows'⟩

theorem Shows.write (shows : Shows writer plain) (data : List UInt8) :
    ∃ after, writer.write data = some after ∧ Shows after (plain.put data) := by
  obtain ⟨buffer, appended, holds⟩ := shows.holds.append data
  rw [BatchWriter.write, appended]
  exact shows.flushDue holds

theorem Shows.writeLine (shows : Shows writer plain) (data : List UInt8) :
    ∃ after, writer.writeLine data = some after ∧ Shows after (plain.put (data ++ [10])) := by
  obtain ⟨buffer, appended, holds⟩ := shows.holds.append data
  obtain ⟨buffer', appended', holds'⟩ := holds.append [10]
  rw [List.append_assoc] at holds'
  rw [BatchWriter.writeLine, appended]
  simp only [Option.bind_eq_bind, Option.bind_some, appended']
  exact shows.flushDue holds'

/-- Every call does with the stream what it does with the plain list. -/
theorem Shows.run (shows : Shows writer plain) (call : BatchCall) :
    ∃ after, call.run writer = some after ∧ Shows after (plain.run call) := by
  cases call with
  | write data => exact shows.write data
  | writeLine data => exact shows.writeLine data
  | writeString text => exact shows.write text.data
  | writeStringLine text => exact shows.writeLine text.data
  | writeNow data =>
    exact ⟨_, rfl, congrArg (· ++ data) shows.file, congrArg (· && data.isEmpty) shows.flushed,
      shows.realtimeFlush, shows.bufferSize, shows.holds⟩
  | flush => exact shows.flush
  | resetFlush realtimeFlush =>
    exact ⟨_, rfl, shows.file, shows.flushed, rfl, shows.bufferSize, shows.holds⟩

theorem Shows.destroy (shows : Shows writer plain) :
    writer.destroy = some (plain.file ++ plain.held) := by
  obtain ⟨after, flushed, shows'⟩ := shows.flush
  rw [BatchWriter.destroy, flushed, Option.map_some, shows'.file, Plain.flush]
  split
  · rename_i nothing
    rw [nothing, List.append_nil]
  · rfl

namespace Plain

/-- What the file would be. -/
def contents (plain : Plain) : List UInt8 :=
  plain.file ++ plain.held

theorem contents_flush : plain.flush.contents = plain.contents := by
  unfold flush contents
  split
  · rfl
  · exact List.append_nil _

theorem held_flush : plain.flush.held = [] := by
  unfold flush
  split
  · assumption
  · rfl

theorem contents_put (data : List UInt8) : (plain.put data).contents = plain.contents ++ data := by
  have added : contents { plain with held := plain.held ++ data } = plain.contents ++ data :=
    (List.append_assoc _ _ _).symm
  unfold put
  split
  · rw [contents_flush, added]
  · exact added

/-- Under realtime flushing an append leaves nothing behind, and the file flushed if it was. -/
theorem put_realtime {data : List UInt8} (on : (plain.put data).realtimeFlush = true) :
    plain.realtimeFlush = true ∧ (plain.put data).held = [] ∧
      (plain.flushed = true → (plain.put data).flushed = true) := by
  have same : (plain.put data).realtimeFlush = plain.realtimeFlush := by
    unfold put flush
    split
    · split <;> rfl
    · rfl
  rw [same] at on
  refine ⟨on, ?_, fun flushed => ?_⟩
  · rw [put, if_pos (.inl on), held_flush]
  · rw [put, if_pos (.inl on), flush]
    split
    · exact flushed
    · rfl

theorem flush_realtime (on : plain.flush.realtimeFlush = true) :
    plain.realtimeFlush = true ∧ (plain.flushed = true → plain.flush.flushed = true) := by
  unfold flush at on ⊢
  split at on
  · rename_i nothing
    rw [if_pos nothing]
    exact ⟨on, id⟩
  · rename_i some
    rw [if_neg some]
    exact ⟨on, fun _ => rfl⟩

end Plain

namespace Batch

variable {batch after : Batch} {call : BatchCall}

theorem orderly_iff (shows : Shows batch.writer plain) :
    Orderly batch ↔ plain.contents = batch.log ∧ (plain.realtimeFlush = true → plain.held = []) := by
  constructor
  · rintro ⟨inOrder, nothing⟩
    rw [shows.destroy] at inOrder
    rw [shows.realtimeFlush, shows.nothing_iff] at nothing
    exact ⟨Option.some.inj inOrder, nothing⟩
  · rintro ⟨inOrder, nothing⟩
    rw [← shows.nothing_iff, ← shows.realtimeFlush] at nothing
    exact ⟨by rw [shows.destroy, ← inOrder, Plain.contents], nothing⟩

/-- The state behind a call, with the plain list beside it. -/
theorem next_shows (shows : Shows batch.writer plain) (taken : batch.next call = some after) :
    Shows after.writer (plain.run call) ∧ after.log = batch.log ++ call.data := by
  obtain ⟨writer, ran, shows'⟩ := shows.run call
  rw [next, ran] at taken
  obtain rfl := Option.some.inj taken
  exact ⟨shows', rfl⟩

/-- A call keeps the order just if it is careful. -/
theorem orderly_next (shows : Shows batch.writer plain) (orderly : Orderly batch)
    (taken : batch.next call = some after) : Orderly after ↔ Careful batch call := by
  obtain ⟨shows', log⟩ := next_shows shows taken
  obtain ⟨inOrder, nothing⟩ := (orderly_iff shows).mp orderly
  rw [orderly_iff shows', log, ← inOrder]
  have appends (data : List UInt8) : (plain.put data).contents = plain.contents ++ data ∧
      ((plain.put data).realtimeFlush = true → (plain.put data).held = []) :=
    ⟨Plain.contents_put data, fun on => (Plain.put_realtime on).2.1⟩
  cases call with
  | write data => exact iff_of_true (appends data) trivial
  | writeLine data => exact iff_of_true (appends (data ++ [10])) trivial
  | writeString text => exact iff_of_true (appends text.data) trivial
  | writeStringLine text => exact iff_of_true (appends (text.data ++ [10])) trivial
  | flush =>
    refine iff_of_true ⟨?_, fun _ => Plain.held_flush⟩ trivial
    rw [BatchCall.data, List.append_nil]
    exact Plain.contents_flush
  | resetFlush on =>
    rw [BatchCall.data, List.append_nil]
    cases on with
    | false => exact iff_of_true ⟨rfl, fun on => absurd on Bool.false_ne_true⟩ trivial
    | true =>
      refine Iff.trans ?_ shows.nothing_iff.symm
      exact ⟨fun kept => kept.2 rfl, fun nothing => ⟨rfl, fun _ => nothing⟩⟩
  | writeNow data =>
    simp only [Careful, shows.holds.has, Option.some.injEq, forall_eq', Plain.run, Plain.contents,
      BatchCall.data, List.append_assoc, List.append_cancel_left_eq]
    exact ⟨fun kept => kept.1.symm, fun same => ⟨same.symm, nothing⟩⟩

theorem prompt_iff_orderly : Prompt batch ↔
    Orderly batch ∧ (batch.writer.realtimeFlush = true → batch.writer.flushed = true) :=
  ⟨fun ⟨orderly, kept⟩ => ⟨orderly, kept⟩, fun ⟨orderly, kept⟩ => ⟨orderly, kept⟩⟩

/-- A call leaves nothing to the C library either just if it is strict. -/
theorem prompt_next (shows : Shows batch.writer plain) (prompt : Prompt batch)
    (taken : batch.next call = some after) : Prompt after ↔ Strict batch call := by
  obtain ⟨shows', _⟩ := next_shows shows taken
  have kept (on : plain.realtimeFlush = true) : plain.flushed = true := by
    rw [← shows.flushed]
    exact prompt.nothingKept (shows.realtimeFlush.trans on)
  have appends (data : List UInt8) :
      (plain.put data).realtimeFlush = true → (plain.put data).flushed = true := by
    intro on
    obtain ⟨before, _, flushes⟩ := Plain.put_realtime on
    exact flushes (kept before)
  rw [prompt_iff_orderly, orderly_next shows prompt.orderly taken, shows'.realtimeFlush, shows'.flushed]
  cases call with
  | write data => exact iff_of_true ⟨trivial, appends data⟩ trivial
  | writeLine data => exact iff_of_true ⟨trivial, appends (data ++ [10])⟩ trivial
  | writeString text => exact iff_of_true ⟨trivial, appends text.data⟩ trivial
  | writeStringLine text => exact iff_of_true ⟨trivial, appends (text.data ++ [10])⟩ trivial
  | flush =>
    refine iff_of_true ⟨trivial, fun on => ?_⟩ trivial
    obtain ⟨before, flushes⟩ := Plain.flush_realtime on
    exact flushes (kept before)
  | resetFlush on =>
    cases on with
    | false => exact iff_of_true ⟨trivial, fun on => absurd on Bool.false_ne_true⟩ trivial
    | true =>
      simp only [Careful, Strict, Plain.run, shows.flushed, true_imp_iff]
  | writeNow data =>
    simp only [Careful, Strict, Plain.run, Bool.and_eq_true, List.isEmpty_iff]
    constructor
    · rintro ⟨commutes, rest⟩
      cases on : plain.realtimeFlush with
      | true => exact .inl (rest on).2
      | false => exact .inr ⟨shows.realtimeFlush.trans on, commutes⟩
    · rintro (rfl | ⟨off, commutes⟩)
      · exact ⟨fun held _ => List.append_nil held, fun on => ⟨kept on, rfl⟩⟩
      · refine ⟨commutes, fun on => ?_⟩
        rw [← shows.realtimeFlush, off] at on
        cases on

/-- A writer that stands for a plain one. -/
def Sound (batch : Batch) : Prop :=
  ∃ plain, Shows batch.writer plain

theorem sound_start (initial : List UInt8) (overWrite realtimeFlush : Bool) (bufferSize : Nat) :
    Sound (start initial overWrite realtimeFlush bufferSize) :=
  ⟨⟨if overWrite then [] else initial, true, realtimeFlush, [], bufferSize⟩, rfl, rfl, rfl, rfl,
    holds_ofCapacity _⟩

theorem prompt_start (initial : List UInt8) (overWrite realtimeFlush : Bool) (bufferSize : Nat) :
    Prompt (start initial overWrite realtimeFlush bufferSize) :=
  ⟨⟨rfl, fun _ => rfl⟩, fun _ => rfl⟩

theorem exists_run (calls : List BatchCall) (sound : Sound batch) :
    ∃ last, Path (Taken next) batch calls last := by
  induction calls generalizing batch with
  | nil => exact ⟨batch, .nil _⟩
  | cons call calls ih =>
    obtain ⟨plain, shows⟩ := sound
    obtain ⟨writer, ran, shows'⟩ := shows.run call
    have taken : next batch call = some ⟨writer, batch.log ++ call.data⟩ := by
      rw [next, ran]
      rfl
    have sound : Sound ⟨writer, batch.log ++ call.data⟩ := ⟨_, shows'⟩
    obtain ⟨last, path⟩ := ih sound
    exact ⟨last, .cons taken path⟩

/-- Any calls can be made of a new writer. After each of them the destructor would leave the data in call
order, with nothing buffered under realtime flushing, just if all are careful; and nothing is left to the
C library either just if all are strict. -/
theorem batch_in_order_iff (initial : List UInt8) (overWrite realtimeFlush : Bool) (bufferSize : Nat)
    (calls : List BatchCall) :
    (∃ last, Path (Taken next) (start initial overWrite realtimeFlush bufferSize) calls last) ∧
    ((∀ batch, Path.Visits (Taken next) (start initial overWrite realtimeFlush bufferSize) calls batch →
        Orderly batch) ↔
      ∀ batch call, Path.Takes (Taken next) (start initial overWrite realtimeFlush bufferSize) calls
        batch call → Careful batch call) ∧
    ((∀ batch, Path.Visits (Taken next) (start initial overWrite realtimeFlush bufferSize) calls batch →
        Prompt batch) ↔
      ∀ batch call, Path.Takes (Taken next) (start initial overWrite realtimeFlush bufferSize) calls
        batch call → Strict batch call) := by
  have sound := sound_start initial overWrite realtimeFlush bufferSize
  have prompt := prompt_start initial overWrite realtimeFlush bufferSize
  obtain ⟨last, path⟩ := exists_run calls sound
  have stays {before after : Batch} {call : BatchCall} (sound : Sound before)
      (taken : before.next call = some after) : Sound after := by
    obtain ⟨plain, shows⟩ := sound
    exact ⟨_, (next_shows shows taken).1⟩
  refine ⟨⟨last, path⟩, ?_, ?_⟩
  · refine path.visits_iff_all_takes Sound ?_ prompt.orderly sound
    rintro before call after ⟨plain, shows⟩ orderly taken
    exact ⟨orderly_next shows orderly taken, fun _ => stays ⟨plain, shows⟩ taken⟩
  · refine path.visits_iff_all_takes Sound ?_ prompt sound
    rintro before call after ⟨plain, shows⟩ prompt taken
    exact ⟨prompt_next shows prompt taken, fun _ => stays ⟨plain, shows⟩ taken⟩

/-- What is written at once comes in front of what was written before, and realtime flushing begins with
a byte in the stream. -/
theorem write_now_overtakes :
    (∃ last, Path (Taken next) (start [] true false 16) [.write [1], .writeNow [2]] last ∧
      last.log = [1, 2] ∧ last.writer.destroy = some [2, 1]) ∧
    ∃ last, Path (Taken next) (start [] true false 16) [.write [1], .resetFlush true] last ∧
      last.writer.realtimeFlush = true ∧ last.writer.buffer.bufferSize = 1 := by
  constructor
  · have ends : (exec next (start [] true false 16) [.write [1], .writeNow [2]]).map
        (fun last => (last.log, last.writer.destroy)) = some ([1, 2], some [2, 1]) := by decide +kernel
    obtain ⟨last, ran, values⟩ := Option.map_eq_some_iff.mp ends
    exact ⟨last, exec_eq_some_iff.mp ran, congrArg Prod.fst values, congrArg Prod.snd values⟩
  · have ends : (exec next (start [] true false 16) [.write [1], .resetFlush true]).map
        (fun last => (last.writer.realtimeFlush, last.writer.buffer.bufferSize)) = some (true, 1) := by
      decide +kernel
    obtain ⟨last, ran, values⟩ := Option.map_eq_some_iff.mp ends
    exact ⟨last, exec_eq_some_iff.mp ran, congrArg Prod.fst values, congrArg Prod.snd values⟩

end Batch

end BTool.MMapFile
