import BTool.BoostNet.RpcFraming
import BTool.Foundation.Transition

/-! The read path of a `TcpSession` under the loop that unpacks messages. What a read may take is
what the limit leaves beside the bytes that wait in the buffer. -/

namespace BTool.BoostNet

open BTool.Foundation BTool.Foundation.Path

/-- The buffer with what has been delivered, and the bytes that are to come. -/
structure RpcReader where
  loop : ReadLoop
  coming : List UInt8
deriving DecidableEq

namespace RpcReader

def start (stream : List UInt8) : RpcReader := ⟨.start, stream⟩

/-- What is prepared for a read: `m_max_rbuffer_size - m_read_buf.size()`. -/
def prepared (maxRbufferSize : Nat) (reader : RpcReader) : Nat :=
  maxRbufferSize - reader.loop.buffer.length

/-- A read of so many bytes, and `handle_read`. It takes no more than is prepared, and at least one
byte unless nothing is prepared. -/
def next (maxRbufferSize : Nat) (reader : RpcReader) (bytesTransferred : Nat) : Option RpcReader :=
  if bytesTransferred ≤ reader.prepared maxRbufferSize ∧ bytesTransferred ≤ reader.coming.length ∧
      (bytesTransferred = 0 → reader.prepared maxRbufferSize = 0) then
    some ⟨reader.loop.take (reader.coming.take bytesTransferred), reader.coming.drop bytesTransferred⟩
  else none

end RpcReader

/-- The bytes of the messages. -/
def packed (packages : List Package) : List UInt8 :=
  (packages.map fun package => package.packageMsg.getPackage).flatten

/-- The next read has room whenever a message is incomplete. There is no end of reads that take
nothing, and when all the bytes have come all the messages have been delivered. -/
structure Progresses (maxRbufferSize : Nat) (packages : List Package) : Prop where
  room : ∀ reads reader,
    Path (Taken (RpcReader.next maxRbufferSize)) (.start (packed packages)) reads reader →
      reader.loop.buffer ≠ [] → 0 < reader.prepared maxRbufferSize
  bounded : ∀ reads reader,
    Path (Taken (RpcReader.next maxRbufferSize)) (.start (packed packages)) reads reader →
      reads.length ≤ (packed packages).length
  delivered : ∀ reads reader,
    Path (Taken (RpcReader.next maxRbufferSize)) (.start (packed packages)) reads reader →
      reader.coming = [] → reader.loop.delivered = packages.map Package.message

namespace RpcReader

variable {reader before after : RpcReader} {maxRbufferSize : Nat} {packages : List Package}
  {reads : List Nat} {stream : List UInt8}

/-- The buffer holds what is left of the bytes that have come, behind the messages in them. -/
structure Follows (stream : List UInt8) (reader : RpcReader) : Prop where
  formed : reader.loop.failed = false
  come : ∃ part, stream = part ++ reader.coming ∧
    rpcFraming.Drains part reader.loop.delivered reader.loop.buffer false

private theorem Follows.next {bytesTransferred : Nat} {items : List ProxyMsg} {rest : List UInt8}
    (whole : rpcFraming.Drains stream items rest false) (follows : before.Follows stream)
    (taken : before.next maxRbufferSize bytesTransferred = some after) : after.Follows stream := by
  unfold RpcReader.next at taken
  split at taken
  · cases taken
    obtain ⟨formed, part, split, drains⟩ := follows
    let chunk := before.coming.take bytesTransferred
    have cut : stream = (part ++ chunk) ++ before.coming.drop bytesTransferred := by
      rw [List.append_assoc, List.take_append_drop]
      exact split
    obtain ⟨front, left, here⟩ := (cut ▸ whole).front_formed
    have isLoop : before.loop = ⟨before.loop.buffer, before.loop.delivered, false⟩ := by
      rw [← formed]
    have taken : before.loop.take chunk = ⟨left, front, false⟩ := by
      rw [isLoop]
      have folded : [chunk].foldl ReadLoop.take ⟨before.loop.buffer, before.loop.delivered, false⟩ =
          ⟨left, front, false⟩ :=
        ReadLoop.foldl_take drains (by rwa [List.flatten_singleton])
      exact folded
    refine ⟨?_, part ++ chunk, cut, ?_⟩
    · show (before.loop.take chunk).failed = false
      rw [taken]
    · show rpcFraming.Drains (part ++ chunk) (before.loop.take chunk).delivered
        (before.loop.take chunk).buffer false
      rw [taken]
      exact here
  · cases taken

theorem follows_of_path {items : List ProxyMsg} {rest : List UInt8}
    (whole : rpcFraming.Drains stream items rest false)
    (path : Path (Taken (next maxRbufferSize)) (start stream) reads reader) : reader.Follows stream :=
  path.invariant (Follows stream) (fun _ _ _ follows taken => follows.next whole taken)
    ⟨rfl, [], rfl, Framing.drains_nil⟩

/-- The bytes of a message that can be packaged are a frame. -/
private theorem frame_of_fits (fits : ∀ package ∈ packages, package.Fits) :
    ∀ chunk ∈ packages.map fun package => package.packageMsg.getPackage,
      ∃ item, rpcFraming.front chunk = .frame item chunk.length := by
  intro chunk member
  obtain ⟨package, inside, rfl⟩ := List.mem_map.mp member
  have whole := (fits package inside).unpackageOne []
  rw [List.append_nil] at whole
  exact ⟨_, whole⟩

/-- What waits in the buffer is less than one of the messages. -/
private theorem buffer_lt (fits : ∀ package ∈ packages, package.Fits)
    (path : Path (Taken (next maxRbufferSize)) (start (packed packages)) reads reader) :
    reader.loop.buffer = [] ∨
      ∃ package ∈ packages, reader.loop.buffer.length < package.packageMsg.getPackage.length := by
  obtain ⟨_, part, split, drains⟩ := follows_of_path (drains_packages fits) path
  rcases drains.left_lt (frame_of_fits fits) ⟨reader.coming, split.symm⟩ with nothing | ⟨chunk, member, less⟩
  · exact .inl nothing
  · obtain ⟨package, inside, rfl⟩ := List.mem_map.mp member
    exact .inr ⟨package, inside, less⟩

/-- A read with room takes something. -/
private theorem coming_lt {bytesTransferred : Nat} (room : 0 < before.prepared maxRbufferSize)
    (taken : before.next maxRbufferSize bytesTransferred = some after) :
    after.coming.length < before.coming.length := by
  unfold RpcReader.next at taken
  split at taken
  · rename_i possible
    cases taken
    obtain ⟨_, within, some'⟩ := possible
    rw [List.length_drop]
    omega
  · cases taken

/-- One byte can be read where there is room. -/
private theorem next_one (room : 0 < reader.prepared maxRbufferSize) (more : reader.coming ≠ []) :
    reader.next maxRbufferSize 1 = some ⟨reader.loop.take (reader.coming.take 1), reader.coming.drop 1⟩ :=
  if_pos ⟨room, List.length_pos_iff.mpr more, fun none => absurd none (by decide)⟩

/-- With room for each of the messages the loop makes progress. -/
private theorem progresses_of_le (positive : 1 ≤ maxRbufferSize)
    (fits : ∀ package ∈ packages, package.Fits)
    (short : ∀ package ∈ packages, package.packageMsg.getPackage.length ≤ maxRbufferSize) :
    Progresses maxRbufferSize packages := by
  have room (reads : List Nat) (reader : RpcReader)
      (path : Path (Taken (next maxRbufferSize)) (start (packed packages)) reads reader) :
      0 < reader.prepared maxRbufferSize := by
    rw [prepared]
    rcases buffer_lt fits path with nothing | ⟨package, inside, less⟩
    · rw [nothing]
      exact positive
    · have := short package inside
      omega
  refine ⟨fun reads reader path _ => room reads reader path, fun reads reader path => ?_,
    fun reads reader path nothing => ?_⟩
  · have count := path.history
      (fun reads reader => reads.length + reader.coming.length ≤ (packed packages).length)
      (by simp [start]) ?_
    · omega
    · intro done before read after front before' taken
      have less := coming_lt (room done before front) taken
      rw [List.length_append, List.length_singleton]
      omega
  · obtain ⟨_, part, split, drains⟩ := follows_of_path (drains_packages fits) path
    rw [nothing, List.append_nil] at split
    exact ((drains_packages fits).unique (split ▸ drains)).1

/-- While the reads have room, any number of bytes may have been read, one at a time. -/
private theorem reads_bytes (positive : 1 ≤ maxRbufferSize)
    (progresses : Progresses maxRbufferSize packages) (count : Nat) (within : count ≤ (packed packages).length) :
    ∃ reads reader, Path (Taken (next maxRbufferSize)) (start (packed packages)) reads reader ∧
      reader.coming = (packed packages).drop count := by
  induction count with
  | zero => exact ⟨[], _, .nil _, rfl⟩
  | succ count ih =>
    obtain ⟨reads, reader, path, coming⟩ := ih (by omega)
    have room : 0 < reader.prepared maxRbufferSize := by
      by_cases nothing : reader.loop.buffer = []
      · rw [prepared, nothing]
        exact positive
      · exact progresses.room reads reader path nothing
    have more : reader.coming ≠ [] := by
      rw [coming]
      exact List.drop_eq_nil_iff.not.mpr (by omega)
    refine ⟨reads ++ [1], _, path.snoc (next_one room more), ?_⟩
    show reader.coming.drop 1 = _
    rw [coming, List.drop_drop]

/-- The loop makes progress on a stream of messages if and only if each of them, with its head and
its name, is at most as long as the limit. -/
theorem progresses_iff (positive : 1 ≤ maxRbufferSize) (fits : ∀ package ∈ packages, package.Fits) :
    Progresses maxRbufferSize packages ↔
      ∀ package ∈ packages, package.packageMsg.getPackage.length ≤ maxRbufferSize := by
  refine ⟨fun progresses package member => ?_, progresses_of_le positive fits⟩
  by_contra large
  obtain ⟨front, back, rfl⟩ := List.append_of_mem member
  let bytes := package.packageMsg.getPackage
  have large : maxRbufferSize < bytes.length := Nat.lt_of_not_le large
  have whole : packed (front ++ package :: back) =
      (packed front ++ bytes.take maxRbufferSize) ++ (bytes.drop maxRbufferSize ++ packed back) := by
    rw [List.append_assoc, ← List.append_assoc (bytes.take _), List.take_append_drop]
    simp [packed, bytes]
  have partLength : (bytes.take maxRbufferSize).length = maxRbufferSize :=
    List.length_take_of_le (Nat.le_of_lt large)
  let count := (packed front ++ bytes.take maxRbufferSize).length
  obtain ⟨reads, reader, path, coming⟩ := reads_bytes positive progresses count (by
    rw [whole, List.length_append]
    exact Nat.le_add_right ..)
  obtain ⟨_, part, split, drains⟩ := follows_of_path (drains_packages fits) path
  have isPart : part = packed front ++ bytes.take maxRbufferSize := by
    have split : packed (front ++ package :: back) = part ++ reader.coming := split
    rw [coming, whole, List.drop_left' rfl] at split
    exact (List.append_cancel_right split).symm
  have front' : rpcFraming.Drains (packed front) (front.map Package.message) [] false :=
    drains_packages fun other inside => fits other (List.mem_append_left _ inside)
  obtain ⟨item, frame⟩ := frame_of_fits fits bytes (List.mem_map_of_mem member)
  have waits := Framing.front_part frame (List.take_prefix maxRbufferSize bytes) (by omega)
  have here : rpcFraming.Drains ([] ++ bytes.take maxRbufferSize) [] (bytes.take maxRbufferSize) false :=
    .incomplete waits
  have buffer : reader.loop.buffer = bytes.take maxRbufferSize :=
    ((front'.append here).unique (isPart ▸ drains)).2.1
  have room := progresses.room reads reader path (by
    intro nothing
    rw [nothing] at buffer
    rw [← buffer] at partLength
    rw [List.length_nil] at partLength
    omega)
  rw [prepared, buffer, partLength, Nat.sub_self] at room
  exact absurd room (Nat.lt_irrefl 0)

/-- Two messages of 13 and 14 bytes under a limit of 14. -/
theorem progresses_iff_two_messages :
    ∃ first second : Package, first.Fits ∧ second.Fits ∧
      (Progresses 14 [first, second] ↔
        ∀ package ∈ [first, second], package.packageMsg.getPackage.length ≤ 14) ∧
      ∀ package ∈ [first, second], package.packageMsg.getPackage.length ≤ 14 := by
  let first : Package := ⟨[102], CommModel.request, RpcModel.callback, 7, .ok, []⟩
  let second : Package := ⟨[103], CommModel.rsponse, RpcModel.callback, 7, .ok, [.value [1]]⟩
  have fits : ∀ package ∈ [first, second], package.Fits := by decide
  exact ⟨first, second, fits first (by simp), fits second (by simp),
    progresses_iff (by decide) fits, by decide⟩

/-- A message of 13 bytes under a limit of 12. When 12 bytes have been read there is no room for the
last one, and reads of nothing follow each other. -/
theorem not_progresses_long_message :
    ∃ (package : Package) (reader : RpcReader), package.Fits ∧
      Path (Taken (next 12)) (start (packed [package])) [12] reader ∧
      reader.loop.delivered = [] ∧ reader.coming.length = 1 ∧ reader.prepared 12 = 0 ∧
      reader.next 12 0 = some reader ∧ ¬ Progresses 12 [package] := by
  let package : Package := ⟨[102], CommModel.request, RpcModel.callback, 7, .ok, []⟩
  have runs : package.Fits ∧ ∃ reader ∈ exec (next 12) (start (packed [package])) [12],
      reader.loop.delivered = [] ∧ reader.loop.buffer ≠ [] ∧ reader.coming.length = 1 ∧
        reader.prepared 12 = 0 ∧ reader.next 12 0 = some reader := by
    decide
  obtain ⟨fits, reader, run, delivered, waits, coming, full, again⟩ := runs
  have path := exec_eq_some_iff.mp run
  refine ⟨package, reader, fits, path, delivered, coming, full, again, fun progresses => ?_⟩
  exact absurd (progresses.room [12] reader path waits) (by omega)

end RpcReader

end BTool.BoostNet
