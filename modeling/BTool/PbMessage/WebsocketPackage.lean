import BTool.Foundation.DecimalText
import BTool.Foundation.Span
import BTool.PbMessage.JsonPackage

/-! The packages of `NPPbWebsocketPackage`: a header of four numbers in decimal text, and a body. -/

namespace BTool.PbMessage

open BTool.Foundation

/-- What `ValueConvert` uses of `boost::lexical_cast`; nothing is a bad cast. -/
structure LexicalCast where
  sizeT : List UInt8 → Option UInt64
  uint32 : List UInt8 → Option UInt32

/-- The conversions to unsigned numbers that Boost documents. -/
structure LexicalCast.Documented (cast : LexicalCast) : Prop where
  sizeT : ∀ text, (cast.sizeT text).map UInt64.toNat = wrappedNumber 64 text
  uint32 : ∀ text, (cast.uint32 text).map UInt32.toNat = wrappedNumber 32 text

namespace NPPbWebsocketPackage

/-- `PackHeader`. -/
structure PackHeader where
  command : List UInt8
  pbBodyLength : List UInt8
  checksum : List UInt8
  bodyLength : List UInt8
deriving DecidableEq

/-- `sizeof(PackHeader)`. -/
def headSize : Nat := 24

namespace PackHeader

/-- `PackHeader{ 0 }`. -/
def zero : PackHeader :=
  { command := List.replicate 4 0, pbBodyLength := List.replicate 8 0, checksum := List.replicate 4 0
    bodyLength := List.replicate 8 0 }

/-- The header in memory. -/
def bytes (head : PackHeader) : List UInt8 :=
  head.command ++ head.pbBodyLength ++ head.checksum ++ head.bodyLength

/-- The header that these bytes are. -/
def ofBytes (bytes : List UInt8) : PackHeader :=
  { command := bytes.take 4, pbBodyLength := (bytes.drop 4).take 8
    checksum := (bytes.drop 12).take 4, bodyLength := (bytes.drop 16).take 8 }

end PackHeader

def generateChecksum (sendMsg : List UInt8) : UInt32 := NPPbJsonPackage.generateChecksum sendMsg

/-- `sprintf_s` of an integer with a least width into `len_tmp`, of which so many bytes may be used and
the ones behind the text are zero, and the copy of the first bytes of it into a field. -/
def printField (bufferSize width fieldSize : Nat) (value : Int32) : List UInt8 :=
  ((printDecimal width value.toInt).take (bufferSize - 1) ++ List.replicate 9 0).take fieldSize

/-- The header of a package. -/
def encodeHeader (command : UInt32) (sendMsg : List UInt8) (pbLen : UInt64) : PackHeader :=
  { command := printField 5 4 4 command.toInt32
    pbBodyLength := printField 9 8 8 pbLen.toUInt32.toInt32
    checksum := printField 5 4 4 (generateChecksum sendMsg).toInt32
    bodyLength := printField 9 8 8 (UInt32.ofNat sendMsg.length).toInt32 }

/-- What `EncodePackage` lays down. -/
def encodePackage (command : UInt32) (sendMsg : List UInt8) (pbLen : UInt64) : List UInt8 :=
  (encodeHeader command sendMsg pbLen).bytes ++ sendMsg

/-- `strlen`, which reads on to the first zero: nothing where what may be read ends before one. -/
def strlen (chars : List UInt8) : Option Nat :=
  if 0 ∈ chars then some (NPPbJsonPackage.cString chars).length else none

/-- `SafeConvert` of so many of the characters from an address on; nothing where its `strlen` reads beyond what
may be read. -/
def safeConvertAt {Number : Type} (convert : List UInt8 → Option Number) (chars : List UInt8) (count : Nat) :
    Option (Option Number) :=
  (strlen chars).map fun cmpCount => convert (chars.take (if cmpCount < count then cmpCount else count))

inductive DecodeStatus where
  | decodeInit
  | decodeMsg
deriving DecidableEq

structure DecodePackage where
  /-- What lies behind `m_buffer`, if it is no null pointer; the first `buffLen` bytes of it are the buffer. -/
  buffer : Option (Nat → UInt8)
  buffLen : UInt64
  offset : UInt64
  status : DecodeStatus
  packLen : UInt64
  head : PackHeader

namespace DecodePackage

def initData (package : DecodePackage) : DecodePackage :=
  { package with status := .decodeInit, packLen := 0, head := .zero }

/-- Nothing decoded yet at an offset. -/
def startingAt (buffer : Option (Nat → UInt8)) (buffLen offset : UInt64) : DecodePackage :=
  { buffer, buffLen, offset, status := .decodeInit, packLen := 0, head := .zero }

def create (recvMsg : Option (Nat → UInt8)) (len : UInt64) : DecodePackage :=
  initData (startingAt recvMsg len 0)

/-- The sum is one of 64 bits. -/
def vaild (package : DecodePackage) (readLength : UInt64) : Bool :=
  package.buffer.isSome && package.offset + readLength ≤ package.buffLen

/-- The bytes from an address behind `m_buffer` on. -/
def bytesAt (package : DecodePackage) (start len : Nat) : List UInt8 :=
  match package.buffer with
  | none => []
  | some memory => span memory start len

section

variable (cast : LexicalCast) (package : DecodePackage)

/-- What `SafeConvert` makes of a field where its `strlen` comes to an end, in the field or behind it: the text
ends at the first zero, or with the field. -/
def safeConvert {Number : Type} (convert : List UInt8 → Option Number) (field : List UInt8) : Option Number :=
  convert (NPPbJsonPackage.cString field)

/-- `get_command`, which is 0 where the text is no number. -/
def getCommand : UInt64 := (safeConvert cast.sizeT package.head.command).getD 0

def getBodyLength : UInt64 := (safeConvert cast.sizeT package.head.bodyLength).getD 0

def getPackageLength : UInt64 := package.packLen

/-- What a call of `decode_msg` comes to: what it returns, and the ranges that `memcpy` reads, each with
its first byte and its size. -/
structure Decoding where
  returned : Bool
  copied : List (Nat × Nat)
  package : DecodePackage

/-- The header at the offset. -/
def readHead : DecodePackage :=
  { package with head := .ofBytes (package.bytesAt package.offset.toNat headSize) }

def decodeMsg : Decoding :=
  if package.vaild (UInt64.ofNat headSize) then
    let copied := [(package.offset.toNat, headSize)]
    let package := package.readHead
    match safeConvert cast.sizeT package.head.bodyLength with
    | none => { returned := false, copied, package }
    | some bodyLen =>
      let package := { package with packLen := UInt64.ofNat headSize + bodyLen }
      if package.vaild package.packLen then
        { returned := true, copied, package := { package with status := .decodeMsg } }
      else { returned := false, copied, package }
  else { returned := false, copied := [], package }

/-- The `get_body_length()` bytes at `get_body()`, or nothing where that is no address. -/
def getBody : Option (List UInt8) :=
  match package.status with
  | .decodeInit => none
  | .decodeMsg =>
    some (package.bytesAt (package.offset.toNat + headSize) (package.getBodyLength cast).toNat)

def checkSum : Bool :=
  match package.getBody cast with
  | none => false
  | some body =>
    match safeConvert cast.uint32 package.head.checksum with
    | none => false
    | some checksum => generateChecksum body == checksum

section

/-! The same functions with what `strlen` reads. `m_head` is the last member of a package, and `behind` is the
memory behind the package, as far as it may be read. -/

variable (behind : List UInt8)

def getCommandAt : Option UInt64 :=
  (safeConvertAt cast.sizeT (package.head.bytes ++ behind) 4).map (·.getD 0)

def getBodyLengthAt : Option UInt64 :=
  (safeConvertAt cast.sizeT (package.head.bodyLength ++ behind) 8).map (·.getD 0)

def decodeMsgAt : Option Decoding :=
  if package.vaild (UInt64.ofNat headSize) then
    let copied := [(package.offset.toNat, headSize)]
    let package := package.readHead
    (safeConvertAt cast.sizeT (package.head.bodyLength ++ behind) 8).map fun converted =>
      match converted with
      | none => { returned := false, copied, package }
      | some bodyLen =>
        let package := { package with packLen := UInt64.ofNat headSize + bodyLen }
        if package.vaild package.packLen then
          { returned := true, copied, package := { package with status := .decodeMsg } }
        else { returned := false, copied, package }
  else some { returned := false, copied := [], package }

def checkSumAt : Option Bool :=
  match package.status with
  | .decodeInit => some false
  | .decodeMsg =>
    (safeConvertAt cast.uint32 (package.head.checksum ++ package.head.bodyLength ++ behind) 4).bind fun converted =>
      match converted with
      | none => some false
      | some checksum =>
        (package.getBodyLengthAt cast behind).map fun bodyLen =>
          generateChecksum (package.bytesAt (package.offset.toNat + headSize) bodyLen.toNat) == checksum

end

def hasNext : Bool :=
  match package.status with
  | .decodeInit => package.vaild (UInt64.ofNat headSize)
  | .decodeMsg => package.vaild (package.packLen + 1)

def decodeNext : DecodePackage :=
  initData { package with offset := package.offset + package.packLen }

/-- `has_next() && decode_msg()`. -/
def decodes : Decoding :=
  if package.hasNext then package.decodeMsg cast else { returned := false, copied := [], package }

end

end DecodePackage

/-- The loop `while (has_next() && decode_msg()) decode_next()` for so many rounds at most: the package
that it leaves. -/
def decodeLoop (cast : LexicalCast) : Nat → DecodePackage → Option DecodePackage
  | 0, _ => none
  | rounds + 1, package =>
    let decoding := package.decodes cast
    if decoding.returned then decodeLoop cast rounds decoding.package.decodeNext
    else some decoding.package

end NPPbWebsocketPackage

end BTool.PbMessage
