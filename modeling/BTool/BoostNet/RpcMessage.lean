import Mathlib.Algebra.GroupWithZero.Nat
import Mathlib.Data.List.GetD
import BTool.BoostNet.MemoryStream
import BTool.Foundation.Framing

/-! The messages of the RPC protocol: a packed head, the name and the content, which begins with a
status. -/

namespace BTool.BoostNet

open BTool.Foundation

inductive MsgStatus where
  | noBind
  | ok
  | fail
  | timeout
  | unpackError
  | sendError
  | waitError
deriving DecidableEq

/-- The byte of a status; `no_bind` is -1. -/
def MsgStatus.byte : MsgStatus → UInt8
  | .noBind => 255
  | .ok => 0
  | .fail => 1
  | .timeout => 2
  | .unpackError => 3
  | .sendError => 4
  | .waitError => 5

/-- An `error`. -/
structure RpcError where
  status : MsgStatus
  msg : String
deriving DecidableEq

def RpcError.none : RpcError := ⟨.ok, ""⟩

namespace RpcModel

def future : UInt8 := 0

def callback : UInt8 := 1

def bind : UInt8 := 2

end RpcModel

namespace CommModel

def request : UInt8 := 0

def rsponse : UInt8 := 1

end CommModel

/-- A received head may hold any bytes for its two enumerations. -/
structure MessageHead where
  commModel : UInt8
  rpcModel : UInt8
  reqId : UInt32
  titleSize : UInt8
  contentSize : UInt32
deriving DecidableEq

namespace MessageHead

/-- `sizeof(message_head)`, which is packed. -/
def size : Nat := 11

def bytes (head : MessageHead) : List UInt8 :=
  head.commModel :: head.rpcModel :: (bytes32 head.reqId ++ head.titleSize :: bytes32 head.contentSize)

/-- The head that lies at the front of these bytes. -/
def read (bytes : List UInt8) : MessageHead :=
  { commModel := bytes.getD 0 0
    rpcModel := bytes.getD 1 0
    reqId := read32 (bytes.drop 2)
    titleSize := bytes.getD 6 0
    contentSize := read32 (bytes.drop 7) }

@[simp] theorem length_bytes (head : MessageHead) : head.bytes.length = size := rfl

theorem read_bytes (head : MessageHead) (more : List UInt8) : read (head.bytes ++ more) = head := by
  obtain ⟨commModel, rpcModel, reqId, titleSize, contentSize⟩ := head
  have id : read32 (bytes32 reqId ++ (titleSize :: bytes32 contentSize ++ more)) = reqId :=
    read32_bytes32 ..
  have content : read32 (bytes32 contentSize ++ more) = contentSize := read32_bytes32 ..
  simp only [read, bytes, List.cons_append, List.append_assoc, List.getD_cons_zero,
    List.getD_cons_succ, List.drop_succ_cons, List.drop_zero] at id content ⊢
  rw [id]
  simp only [bytes32, List.cons_append, List.nil_append, List.getD_cons_zero, List.getD_cons_succ,
    List.drop_succ_cons, List.drop_zero] at content ⊢
  rw [content]

/-- A head is read from its own bytes only. -/
theorem read_append {bytes : List UInt8} (long : size ≤ bytes.length) (more : List UInt8) :
    read (bytes ++ more) = read bytes := by
  have keep (index : Nat) (below : index < size) :
      (bytes ++ more).getD index 0 = bytes.getD index 0 :=
    List.getD_append _ _ _ _ (by omega)
  have dropped (front index : Nat) (below : front + index < size) :
      ((bytes ++ more).drop front).getD index 0 = (bytes.drop front).getD index 0 := by
    rw [List.drop_append_of_le_length (by omega)]
    exact List.getD_append _ _ _ _ (by rw [List.length_drop]; omega)
  simp only [read, read32, keep _ (show 0 < size by decide), keep _ (show 1 < size by decide),
    keep _ (show 6 < size by decide), dropped 2 0 (by decide), dropped 2 1 (by decide),
    dropped 2 2 (by decide),
    dropped 2 3 (by decide), dropped 7 0 (by decide), dropped 7 1 (by decide),
    dropped 7 2 (by decide), dropped 7 3 (by decide)]

end MessageHead

/-- A message, with what its memory stream holds. -/
structure ProxyMsg where
  rpcName : List UInt8
  head : MessageHead
  msg : List UInt8
deriving DecidableEq

def ProxyMsg.getPackage (message : ProxyMsg) : List UInt8 := message.msg

/-- What `package_msg` is called with. -/
structure Package where
  rpcName : List UInt8
  commModel : UInt8
  model : UInt8
  reqId : UInt32
  status : MsgStatus
  args : List Arg

namespace Package

/-- The status and the arguments, as `append_args` lays them out. -/
def content (package : Package) : List UInt8 :=
  appendArgs (.value [package.status.byte] :: package.args)

/-- `content_length`. -/
def contentLength (package : Package) : UInt32 :=
  UInt32.ofNat (getArgsLength (.value [package.status.byte] :: package.args))

def titleSize (package : Package) : UInt8 := UInt8.ofNat package.rpcName.length

def packageMsg (package : Package) : ProxyMsg :=
  let head : MessageHead :=
    ⟨package.commModel, package.model, package.reqId, package.titleSize, package.contentLength⟩
  { rpcName := package.rpcName, head
    msg := head.bytes ++ package.rpcName.take package.titleSize.toNat ++ package.content }

end Package

/-- One round of the loop of `unpackage_msg`. -/
def unpackageOne (msg : List UInt8) : Front ProxyMsg :=
  if msg.length < MessageHead.size + 1 then .incomplete
  else
    let head := MessageHead.read msg
    let rest := msg.drop MessageHead.size
    if head.titleSize = 0 ∨ 0xffffffff / 2 < head.contentSize then .malformed
    else if rest.length < (head.titleSize.toUInt32 + head.contentSize).toNat then .incomplete
    else
      .frame
        { rpcName := rest.take head.titleSize.toNat, head
          msg := (rest.drop head.titleSize.toNat).take head.contentSize.toNat }
        (MessageHead.size + head.titleSize.toNat + head.contentSize.toNat)

/-- The rounds that are left, from an offset on and with the messages so far. -/
def unpackageLoop (msg : List UInt8) : Nat → Nat → List ProxyMsg → List ProxyMsg × Nat × RpcError
  | 0, offset, resault => (resault, offset, .none)
  | rounds + 1, offset, resault =>
    match unpackageOne (msg.drop offset) with
    | .malformed => ([], 0, ⟨.sendError, "异常包"⟩)
    | .incomplete => (resault, offset, .none)
    | .frame message length => unpackageLoop msg rounds (offset + length) (resault ++ [message])

/-- The messages, the length that they have taken, and an error. A round takes some of the bytes. -/
def unpackageMsg (msg : List UInt8) : List ProxyMsg × Nat × RpcError :=
  unpackageLoop msg (msg.length + 1) 0 []

end BTool.BoostNet
