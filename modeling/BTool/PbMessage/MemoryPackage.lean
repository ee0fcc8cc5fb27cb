import BTool.Foundation.NetworkOrder
import BTool.Foundation.Span

/-! The packages of `NPPbMemoryPackage` and `NPPb3DESMemoryPackage`: a header in network order, a body
and a checksum. The two differ in the header only. -/

namespace BTool.PbMessage

open BTool.Foundation

/-- `sizeof(PackTail)`. -/
def tailSize : Nat := 2

def generateChecksum (sendMsg : List UInt8) : UInt16 :=
  ((sendMsg.foldl (fun (cks : UInt32) byte => cks + byte.toUInt32) 0) % 256).toUInt16

/-- What `EncodePackage` lays down, with what the header has behind the length of the body. -/
def encodePackage (behind : List UInt8) (command : UInt16) (sendMsg : List UInt8) : List UInt8 :=
  networkBytes 2 command.toNat ++ networkBytes 4 (UInt32.ofNat sendMsg.length).toNat ++ behind ++
    sendMsg ++ networkBytes 2 (generateChecksum sendMsg).toNat

inductive DecodeStatus where
  | decodeInit
  | decodeMsg
deriving DecidableEq

/-- A `DecodePackage` whose header takes so many bytes. `memory` is what lies behind `m_buffer`; the
first `buffLen` bytes of it are the buffer. -/
structure DecodePackage (headSize : Nat) where
  memory : Nat → UInt8
  buffLen : UInt32
  offset : UInt32
  status : DecodeStatus
  packLen : UInt32
  /-- `m_head`, in host order. -/
  command : UInt16
  bodyLength : UInt32
  /-- `m_tail`. -/
  checksum : UInt16

/-- What a call of `decode_msg` comes to. -/
structure Decoding (headSize : Nat) where
  returned : Bool
  /-- The ranges that `memcpy` reads, each with its first byte and its size. -/
  copied : List (Nat × Nat)
  package : DecodePackage headSize

namespace DecodePackage

variable {headSize : Nat}

def initData (package : DecodePackage headSize) : DecodePackage headSize :=
  { package with status := .decodeInit, packLen := 0, command := 0, bodyLength := 0, checksum := 0 }

/-- Nothing decoded yet at an offset. -/
def startingAt (headSize : Nat) (memory : Nat → UInt8) (buffLen offset : UInt32) :
    DecodePackage headSize :=
  { memory, buffLen, offset, status := .decodeInit, packLen := 0, command := 0, bodyLength := 0,
    checksum := 0 }

def create (headSize : Nat) (recvMsg : Nat → UInt8) (len : UInt32) : DecodePackage headSize :=
  initData (startingAt headSize recvMsg len 0)

/-- The sum is one of 32 bits. -/
def vaild (package : DecodePackage headSize) (readLength : UInt32) : Bool :=
  package.offset + readLength ≤ package.buffLen

def getPackageLength (package : DecodePackage headSize) : UInt32 := package.packLen

def getCommand (package : DecodePackage headSize) : UInt32 := package.command.toUInt32

def getBodyLength (package : DecodePackage headSize) : UInt32 := package.bodyLength

/-- The command that lies at the offset. -/
def headCommand (package : DecodePackage headSize) : Nat :=
  networkNumber (span package.memory package.offset.toNat 2)

/-- The length of the body that the header at the offset gives. -/
def headBodyLength (package : DecodePackage headSize) : Nat :=
  networkNumber (span package.memory (package.offset.toNat + 2) 4)

/-- The header at the offset, and how long it says that the package is: the sum is one of `size_t`, of
which the low 32 bits are kept. -/
def readHead (package : DecodePackage headSize) : DecodePackage headSize :=
  { package with
    command := UInt16.ofNat package.headCommand
    bodyLength := UInt32.ofNat package.headBodyLength
    packLen := UInt32.ofNat (headSize + (UInt32.ofNat package.headBodyLength).toNat + tailSize) }

/-- The first byte of the tail, as `memcpy` gets it. -/
def tailStart (package : DecodePackage headSize) : Nat :=
  package.offset.toNat + headSize + package.bodyLength.toNat

def readTail (package : DecodePackage headSize) : DecodePackage headSize :=
  { package with
    checksum := UInt16.ofNat (networkNumber (span package.memory package.tailStart tailSize))
    status := .decodeMsg }

def decodeMsg (package : DecodePackage headSize) : Decoding headSize :=
  if package.vaild (UInt32.ofNat (headSize + tailSize)) then
    let head := (package.offset.toNat, headSize)
    let package := package.readHead
    if package.vaild package.packLen then
      { returned := true, copied := [head, (package.tailStart, tailSize)], package := package.readTail }
    else { returned := false, copied := [head], package }
  else { returned := false, copied := [], package }

/-- The `get_body_length()` bytes at `get_body()`, or nothing where that is no address. -/
def getBody (package : DecodePackage headSize) : Option (List UInt8) :=
  match package.status with
  | .decodeInit => none
  | .decodeMsg =>
    some (span package.memory (package.offset.toNat + headSize) package.bodyLength.toNat)

def checkSum (package : DecodePackage headSize) : Bool :=
  match package.getBody with
  | none => false
  | some body => generateChecksum body == package.checksum

def hasNext (package : DecodePackage headSize) : Bool :=
  match package.status with
  | .decodeInit => package.vaild (UInt32.ofNat (headSize + tailSize))
  | .decodeMsg => package.vaild (package.packLen + 1)

def decodeNext (package : DecodePackage headSize) : DecodePackage headSize :=
  initData { package with offset := package.offset + package.packLen }

def getDealLen (package : DecodePackage headSize) : UInt32 := package.offset

/-- `has_next() && decode_msg()`. -/
def decodes (package : DecodePackage headSize) : Decoding headSize :=
  if package.hasNext then package.decodeMsg else { returned := false, copied := [], package }

end DecodePackage

/-- What the getters say of a package that has been decoded. -/
structure Decoded where
  command : Nat
  bodyLength : Nat
  body : Option (List UInt8)
  checkSum : Bool
deriving DecidableEq

def DecodePackage.decoded {headSize : Nat} (package : DecodePackage headSize) : Decoded :=
  { command := package.getCommand.toNat, bodyLength := package.getBodyLength.toNat,
    body := package.getBody, checkSum := package.checkSum }

/-- The loop `while (has_next() && decode_msg()) decode_next()` for so many rounds at most: what it
decodes, and the package that it leaves. -/
def decodeLoop {headSize : Nat} :
    Nat → DecodePackage headSize → Option (List Decoded × DecodePackage headSize)
  | 0, _ => none
  | rounds + 1, package =>
    let decoding := package.decodes
    if decoding.returned then
      (decodeLoop rounds decoding.package.decodeNext).map fun (later, last) =>
        (decoding.package.decoded :: later, last)
    else some ([], decoding.package)

namespace NPPbMemoryPackage

/-- `sizeof(PackHeader)`: a `uint16_t` and a `uint32_t`, packed to 1. -/
def headSize : Nat := 6

def encodePackage (command : UInt16) (sendMsg : List UInt8) : List UInt8 :=
  PbMessage.encodePackage [] command sendMsg

/-- `DecodePackage` on a buffer. -/
def decodePackage (recvMsg : Nat → UInt8) (len : UInt32) : DecodePackage headSize :=
  .create headSize recvMsg len

end NPPbMemoryPackage

namespace NPPb3DESMemoryPackage

/-- `sizeof(PackHeader)`: a `uint16_t` and two `uint32_t`, packed to 2. -/
def headSize : Nat := 10

def encodePackage (command : UInt16) (sendMsg : List UInt8) (pbLen : Nat) : List UInt8 :=
  PbMessage.encodePackage (networkBytes 4 (UInt32.ofNat pbLen).toNat) command sendMsg

/-- `DecodePackage` on a buffer. -/
def decodePackage (recvMsg : Nat → UInt8) (len : UInt32) : DecodePackage headSize :=
  .create headSize recvMsg len

end NPPb3DESMemoryPackage

end BTool.PbMessage
