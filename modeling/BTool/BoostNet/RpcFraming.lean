import BTool.BoostNet.RpcMessage

/-! Messages in a stream of bytes that comes in pieces. What `package_msg` has laid out is unpacked as
it was, however the stream is cut. -/

namespace BTool.BoostNet

open BTool.Foundation

variable {msg more rest : List UInt8} {item : ProxyMsg} {length : Nat} {items : List ProxyMsg}
    {bad : Bool}

theorem toNat_title_content {title : UInt8} {content : UInt32}
    (small : ¬ 0xffffffff / 2 < content) :
    (title.toUInt32 + content).toNat = title.toNat + content.toNat := by
  have title' := title.toNat_lt
  have content' : content.toNat ≤ 2147483647 := by
    have := UInt32.lt_iff_toNat_lt.not.mp small
    simpa using this
  rw [UInt32.toNat_add, UInt8.toNat_toUInt32]
  omega

/-- What is known of bytes that begin with a whole message. -/
theorem unpackageOne_eq_frame (frame : unpackageOne msg = .frame item length) :
    MessageHead.size + 1 ≤ msg.length ∧ length ≤ msg.length ∧ MessageHead.size < length ∧
      ((MessageHead.read msg).titleSize ≠ 0 ∧ ¬ 0xffffffff / 2 < (MessageHead.read msg).contentSize) ∧
      length = MessageHead.size + (MessageHead.read msg).titleSize.toNat +
        (MessageHead.read msg).contentSize.toNat ∧
      item =
        { rpcName := (msg.drop MessageHead.size).take (MessageHead.read msg).titleSize.toNat
          head := MessageHead.read msg
          msg := ((msg.drop MessageHead.size).drop (MessageHead.read msg).titleSize.toNat).take
            (MessageHead.read msg).contentSize.toNat } := by
  unfold unpackageOne at frame
  split at frame
  · cases frame
  · rename_i long
    simp only at frame
    split at frame
    · cases frame
    · rename_i formed
      obtain ⟨title, content⟩ := not_or.mp formed
      split at frame
      · cases frame
      · rename_i whole
        rw [toNat_title_content content, List.length_drop] at whole
        have positive : 0 < (MessageHead.read msg).titleSize.toNat :=
          Nat.pos_of_ne_zero fun none => title (UInt8.toNat_inj.mp none)
        cases frame
        exact ⟨by omega, by omega, by omega, ⟨title, content⟩, rfl, rfl⟩

/-- Whole messages are unpacked by their own bytes. -/
theorem unpackageOne_of_take {other : List UInt8} (frame : unpackageOne msg = .frame item length)
    (same : other.take length = msg.take length) (long : length ≤ other.length) :
    unpackageOne other = .frame item length := by
  obtain ⟨_, within, beyond, ⟨title, content⟩, size, parts⟩ := unpackageOne_eq_frame frame
  have read : MessageHead.read other = MessageHead.read msg := by
    have own (bytes : List UInt8) (long : length ≤ bytes.length) :
        MessageHead.read bytes = MessageHead.read (bytes.take length) := by
      conv_lhs => rw [← List.take_append_drop length bytes]
      exact MessageHead.read_append (by rw [List.length_take]; omega) _
    rw [own other long, own msg within, same]
  have slice (front count : Nat) (inside : front + count ≤ length) :
      (other.drop front).take count = (msg.drop front).take count := by
    have own (bytes : List UInt8) :
        (bytes.drop front).take count = ((bytes.take length).drop front).take count := by
      rw [List.drop_take, List.take_take, Nat.min_eq_left (by omega)]
    rw [own other, own msg, same]
  unfold unpackageOne
  rw [if_neg (by omega)]
  simp only [read]
  rw [if_neg (not_or.mpr ⟨title, content⟩), toNat_title_content content, List.length_drop,
    if_neg (by omega), parts,
    List.drop_drop, List.drop_drop, slice _ _ (by omega), slice _ _ (by omega), size]

/-- The messages as frames of the stream. -/
def rpcFraming : Framing UInt8 ProxyMsg where
  front := unpackageOne
  front_nil := rfl
  length_pos frame := by
    have := (unpackageOne_eq_frame frame).2.2.1
    omega
  length_le frame := (unpackageOne_eq_frame frame).2.1
  frame_append more frame := by
    have within := (unpackageOne_eq_frame frame).2.1
    apply unpackageOne_of_take frame (List.take_append_of_le_length within)
    rw [List.length_append]
    omega
  frame_take frame := by
    have within := (unpackageOne_eq_frame frame).2.1
    apply unpackageOne_of_take frame
    · rw [List.take_take, Nat.min_self]
    · exact Nat.le_of_eq (List.length_take_of_le within).symm
  malformed_append {stream} more bad := by
    unfold unpackageOne at bad ⊢
    split at bad
    · cases bad
    · rename_i long
      simp only at bad
      have read : MessageHead.read (stream ++ more) = MessageHead.read stream :=
        MessageHead.read_append (by omega) more
      rw [if_neg (by rw [List.length_append]; omega)]
      simp only [read]
      split at bad
      · rename_i malformed
        rw [if_pos malformed]
      · split at bad <;> cases bad

/-- The loop goes through the messages of the bytes, and forgets them where it meets a malformed head. -/
theorem unpackageLoop_of_drains {rounds offset : Nat} {resault : List ProxyMsg}
    (drains : rpcFraming.Drains (msg.drop offset) items rest bad) (within : offset ≤ msg.length)
    (enough : msg.length - offset < rounds) :
    unpackageLoop msg rounds offset resault =
      if bad then ([], 0, ⟨.sendError, "异常包"⟩) else (resault ++ items, msg.length - rest.length, .none) := by
  induction rounds generalizing offset resault items with
  | zero => omega
  | succ rounds ih =>
    unfold unpackageLoop
    cases drains with
    | incomplete waits =>
      have waits : unpackageOne (msg.drop offset) = .incomplete := waits
      rw [waits]
      simp only [Bool.false_eq_true, if_false, List.append_nil, List.length_drop]
      rw [Nat.sub_sub_self within]
    | malformed bad =>
      have bad : unpackageOne (msg.drop offset) = .malformed := bad
      rw [bad]
      rfl
    | @frame _ _ item length items _ first later =>
      have first : unpackageOne (msg.drop offset) = .frame item length := first
      have whole := (unpackageOne_eq_frame first).2.1
      have positive := (unpackageOne_eq_frame first).2.2.1
      rw [List.length_drop] at whole
      rw [List.drop_drop] at later
      rw [first]
      simp only
      rw [ih later (by omega) (by omega), List.append_assoc]
      rfl

theorem unpackageMsg_of_drains (drains : rpcFraming.Drains msg items rest bad) :
    unpackageMsg msg =
      if bad then ([], 0, ⟨.sendError, "异常包"⟩) else (items, msg.length - rest.length, .none) :=
  unpackageLoop_of_drains (by rwa [List.drop_zero]) (Nat.zero_le _) (by omega)

namespace Package

/-- A name of 1 to 255 bytes, and less than 2^31 bytes of content. -/
structure Fits (package : Package) : Prop where
  named : 0 < package.rpcName.length
  name : package.rpcName.length ≤ 255
  content : package.content.length < 2 ^ 31

instance (package : Package) : Decidable package.Fits :=
  decidable_of_iff (0 < package.rpcName.length ∧ package.rpcName.length ≤ 255 ∧ package.content.length < 2 ^ 31)
    ⟨fun ⟨named, name, content⟩ => ⟨named, name, content⟩,
      fun fits => ⟨fits.named, fits.name, fits.content⟩⟩

/-- The message as it is to be delivered. -/
def message (package : Package) : ProxyMsg :=
  { rpcName := package.rpcName, head := package.packageMsg.head, msg := package.content }

variable {package : Package}

theorem Fits.titleSize (fits : package.Fits) :
    package.titleSize.toNat = package.rpcName.length := by
  have := fits.name
  rw [Package.titleSize, UInt8.toNat_ofNat']
  omega

theorem Fits.contentLength (fits : package.Fits) :
    package.contentLength.toNat = package.content.length := by
  have := fits.content
  rw [Package.content] at this
  rw [Package.contentLength, Package.content, ← length_appendArgs, UInt32.toNat_ofNat']
  omega

/-- A packaged message is unpacked as it was, whatever comes behind it. -/
theorem Fits.unpackageOne (fits : package.Fits) (more : List UInt8) :
    unpackageOne (package.packageMsg.getPackage ++ more) =
      .frame package.message package.packageMsg.getPackage.length := by
  have named := fits.named
  have title := fits.titleSize
  have content := fits.contentLength
  have small := fits.content
  have first : 0 < package.content.length := by simp [Package.content, appendArgs, Arg.append]
  let head := package.packageMsg.head
  have bytes : package.packageMsg.getPackage ++ more =
      head.bytes ++ (package.rpcName ++ (package.content ++ more)) := by
    simp only [packageMsg, ProxyMsg.getPackage, head, title, List.take_length, List.append_assoc]
  have size : package.packageMsg.getPackage.length =
      MessageHead.size + package.rpcName.length + package.content.length := by
    simp [packageMsg, ProxyMsg.getPackage, title, Nat.add_assoc]
  have read : MessageHead.read (head.bytes ++ (package.rpcName ++ (package.content ++ more))) = head :=
    MessageHead.read_bytes ..
  have behind :
    (head.bytes ++ (package.rpcName ++ (package.content ++ more))).drop MessageHead.size =
      package.rpcName ++ (package.content ++ more) := List.drop_left' head.length_bytes
  have titled : head.titleSize ≠ 0 := by
    intro none
    have : head.titleSize.toNat = 0 := by rw [none]; rfl
    have : package.titleSize.toNat = 0 := this
    omega
  have bounded : ¬ 0xffffffff / 2 < head.contentSize := by
    intro large
    have large := UInt32.lt_iff_toNat_lt.mp large
    have : head.contentSize.toNat = package.content.length := content
    rw [this] at large
    have : package.content.length ≤ 2147483647 := by omega
    exact absurd large (by simpa using this)
  have titleSize : head.titleSize.toNat = package.rpcName.length := title
  have contentSize : head.contentSize.toNat = package.content.length := content
  rw [bytes, BoostNet.unpackageOne, if_neg (by simp [MessageHead.size]; omega)]
  simp only [read, behind]
  rw [if_neg (not_or.mpr ⟨titled, bounded⟩), toNat_title_content bounded, titleSize, contentSize,
    if_neg (by simp only [List.length_append]; omega), List.take_left, List.drop_left,
    List.take_left, size]
  rfl

end Package

/-- The messages of a stream that has been packaged. -/
theorem drains_packages {packages : List Package} (fits : ∀ package ∈ packages, package.Fits) :
    rpcFraming.Drains (packages.map fun package => package.packageMsg.getPackage).flatten
      (packages.map Package.message) [] false := by
  induction packages with
  | nil => exact Framing.drains_nil
  | cons package rest ih =>
    refine .frame ((fits package List.mem_cons_self).unpackageOne _) ?_
    rw [List.map_cons, List.flatten_cons, List.drop_left]
    exact ih fun other member => fits other (List.mem_cons_of_mem _ member)

/-- The buffer that is read into, the messages that have been delivered, and whether there was an error. -/
structure ReadLoop where
  buffer : List UInt8
  delivered : List ProxyMsg
  failed : Bool
deriving DecidableEq

namespace ReadLoop

def start : ReadLoop := ⟨[], [], false⟩

/-- A chunk is appended, the messages are unpacked, and what they have taken is dropped. -/
def take (loop : ReadLoop) (chunk : List UInt8) : ReadLoop :=
  let buffer := loop.buffer ++ chunk
  let (units, dealLen, err) := unpackageMsg buffer
  { buffer := buffer.drop dealLen
    delivered := loop.delivered ++ units
    failed := loop.failed || err.status ≠ .ok }

/-- After any chunks the buffer holds what is left of the stream behind its messages. -/
theorem foldl_take {stream left : List UInt8} {chunks : List (List UInt8)} {front : List ProxyMsg}
    (before : rpcFraming.Drains stream front left false)
    (whole : rpcFraming.Drains (stream ++ chunks.flatten) items rest false) :
    chunks.foldl take ⟨left, front, false⟩ = ⟨rest, items, false⟩ := by
  induction chunks generalizing stream left front with
  | nil =>
    rw [List.flatten_nil, List.append_nil] at whole
    obtain ⟨rfl, rfl, _⟩ := before.unique whole
    rfl
  | cons chunk chunks ih =>
    rw [List.flatten_cons, ← List.append_assoc] at whole
    obtain ⟨next, left', here⟩ := whole.front_formed
    obtain ⟨later, back, rfl⟩ := before.read_on here
    have taken : take ⟨left, front, false⟩ chunk = ⟨left', front ++ later, false⟩ := by
      have behind := back.drop_eq_rest
      rw [List.length_append] at behind
      simp [take, unpackageMsg_of_drains back, behind, RpcError.none]
    rw [List.foldl_cons, taken]
    exact ih here whole

/-- However the bytes of packaged messages are cut into chunks, these messages are delivered, in
order, with their heads, names and contents, and nothing is left over. -/
theorem delivers_packages {packages : List Package} (fits : ∀ package ∈ packages, package.Fits)
    {chunks : List (List UInt8)}
    (cut : chunks.flatten = (packages.map fun package => package.packageMsg.getPackage).flatten) :
    chunks.foldl take start =
      { buffer := [], delivered := packages.map Package.message, failed := false } := by
  apply foldl_take Framing.drains_nil
  rw [List.nil_append, cut]
  exact drains_packages fits

/-- Two messages, cut within the first head. -/
theorem delivers_packages_two_messages :
    ∃ (first second : Package) (early late : List UInt8), first.Fits ∧ second.Fits ∧
      early.length = 5 ∧
      [early, late].foldl take start =
        { buffer := [], delivered := [first.message, second.message], failed := false } := by
  let first : Package := ⟨[102], CommModel.request, RpcModel.callback, 7, .ok, [.value [1, 2]]⟩
  let second : Package :=
    ⟨[103, 104], CommModel.rsponse, RpcModel.future, 8, .fail, [.memory [3], .tuple []]⟩
  have fits : ∀ package ∈ [first, second], package.Fits := by decide
  let stream := ([first, second].map fun package => package.packageMsg.getPackage).flatten
  have cut : [stream.take 5, stream.drop 5].flatten = stream := by simp
  refine ⟨first, second, stream.take 5, stream.drop 5, fits first (by simp), fits second (by simp),
    rfl, ?_⟩
  exact delivers_packages fits cut

end ReadLoop

end BTool.BoostNet
