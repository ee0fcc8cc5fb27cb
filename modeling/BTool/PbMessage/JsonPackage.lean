import Mathlib.Algebra.Group.Int.Defs
import Mathlib.Algebra.GroupWithZero.Nat
import BTool.Foundation.TextSearch

/-! The packages of `NPPbJsonPackage`: a JSON object a package, one behind the other. JsonCpp writes and
reads the objects; where a package ends is found by searching the text. -/

namespace BTool.PbMessage

open BTool.Foundation

/-- The bytes of a text. -/
def ascii (text : List Char) : List UInt8 := text.map fun char => UInt8.ofNat char.toNat

/-- A number in decimal digits. -/
def decimal (number : Nat) : List UInt8 := ascii (Nat.toDigits 10 number)

/-- A `Json::Value`. -/
inductive Json where
  | null
  | bool (value : Bool)
  | number (value : Int)
  /-- A number that is not written as an integer, with its value where it is one. -/
  | real (whole : Option Int)
  | string (value : List UInt8)
  | array (items : List Json)
  /-- The members in the order of their names. -/
  | object (members : List (List UInt8 × Json))

namespace Json

/-- `getMemberNames`, which throws for what is no object and not null. -/
def getMemberNames : Json → Option (List (List UInt8))
  | .object members => some (members.map Prod.fst)
  | .null => some []
  | _ => none

/-- `operator[]` of an object; a member that is not there is null. -/
def member (members : List (List UInt8 × Json)) (name : List UInt8) : Json :=
  ((members.find? fun member => member.1 = name).map Prod.snd).getD .null

/-- `asUInt`, where `isUInt` holds. -/
def asUInt? : Json → Option UInt32
  | .number value | .real (some value) =>
    if 0 ≤ value ∧ value < 2 ^ 32 then some (UInt32.ofNat value.toNat) else none
  | _ => none

end Json

/-- What the packages use of JsonCpp. -/
structure JsonCpp where
  /-- What the writer puts between the quotes of a string. -/
  escape : List UInt8 → List UInt8
  /-- What the reader makes of a text, or nothing where it fails or reports an error. -/
  parse : List UInt8 → Option Json

namespace JsonCpp

variable (json : JsonCpp)

def quoted (text : List UInt8) : List UInt8 := ascii ['"'] ++ json.escape text ++ ascii ['"']

end JsonCpp

namespace NPPbJsonPackage

def commJsonMsg : List UInt8 := ascii ['m', 's', 'g']

def commJsonCommand : List UInt8 := ascii ['c', 'm', 'd']

def commJsonLen : List UInt8 := ascii ['l', 'e', 'n']

def commJsonData : List UInt8 := ascii ['d', 'a', 't', 'a']

def commJsonChk : List UInt8 := ascii ['c', 'h', 'k']

def commJsonMinPackageLen : Nat := 28

/-- A `char` as a `uint32_t`: its sign is extended. -/
def extended (char : UInt8) : UInt32 :=
  if char < 0x80 then char.toUInt32 else char.toUInt32 + 0xffffff00

def generateChecksum (sendMsg : List UInt8) : UInt32 :=
  (sendMsg.foldl (fun (cks : UInt32) char => cks + extended char) 0) % 256

/-- A member as the writer lays it down, its name being one that needs no escapes. -/
def writeMember (member : List UInt8 × List UInt8) : List UInt8 :=
  ascii ['"'] ++ member.1 ++ ascii ['"', ':'] ++ member.2

/-- An object as the writer lays it down without indentation, with its members in the order of their
names. -/
def writeObject (members : List (List UInt8 × List UInt8)) : List UInt8 :=
  ascii ['{'] ++ (ascii [',']).intercalate (members.map writeMember) ++ ascii ['}']

/-- The arguments of an `EncodePackage`; the length of the message is its own. -/
structure Item where
  command : UInt32
  sendMsg : List UInt8
  pbLen : Nat
deriving DecidableEq

/-- The string that a `const char*` points to. -/
def cString (text : List UInt8) : List UInt8 := text.takeWhile (· ≠ 0)

/-- What `EncodePackage` lays down. -/
def encodePackage (json : JsonCpp) (item : Item) : List UInt8 :=
  writeObject [(commJsonMsg, writeObject [
    (commJsonChk, decimal (generateChecksum item.sendMsg).toNat),
    (commJsonCommand, decimal item.command.toNat),
    (commJsonData, json.quoted (cString item.sendMsg)),
    (commJsonLen, decimal item.pbLen)])]

/-- The value that `EncodePackage` builds. -/
def document (item : Item) : Json :=
  .object [(commJsonMsg, .object [
    (commJsonChk, .number (generateChecksum item.sendMsg).toNat),
    (commJsonCommand, .number item.command.toNat),
    (commJsonData, .string (cString item.sendMsg)),
    (commJsonLen, .number item.pbLen)])]

inductive DecodeStatus where
  | decodeInit
  | decodeMsg
deriving DecidableEq

structure DecodePackage where
  buffer : List UInt8
  packLen : Nat
  /-- `m_head`. -/
  command : UInt32
  body : List UInt8
  /-- `m_tail`. -/
  checksum : UInt32
  status : DecodeStatus
  offset : Nat
  curIsvaild : Bool
  curResolveIsvaild : Bool

namespace DecodePackage

def initData (package : DecodePackage) : DecodePackage :=
  { package with
    status := .decodeInit, body := [], command := 0, checksum := 0, curIsvaild := false,
    curResolveIsvaild := false, packLen := 0 }

/-- Nothing decoded yet at an offset. -/
def startingAt (buffer : List UInt8) (offset : Nat) : DecodePackage :=
  { buffer, offset, packLen := 0, command := 0, body := [], checksum := 0, status := .decodeInit,
    curIsvaild := false, curResolveIsvaild := false }

def create (recvMsg : List UInt8) : DecodePackage := initData (startingAt recvMsg 0)

/-- `::tolower` on every character. -/
def lower (name : List UInt8) : List UInt8 :=
  name.map fun char => if 65 ≤ char ∧ char ≤ 90 then char + 32 else char

/-- The last of the names that is this word in any case. -/
def memberName (names : List (List UInt8)) (word : List UInt8) : Option (List UInt8) :=
  (names.filter fun name => lower name = word).getLast?

/-- The fields of the object of the message, up to the first that is none. -/
def readFields (members : List (List UInt8 × Json)) (memCmd memData memChk : List UInt8)
    (package : DecodePackage) : DecodePackage :=
  match (Json.member members memCmd).asUInt? with
  | none => package
  | some command =>
    let package := { package with command }
    match Json.member members memData with
    | .string body =>
      let package := { package with body }
      match (Json.member members memChk).asUInt? with
      | none => package
      | some checksum => { package with checksum, curIsvaild := true }
    | _ => package

/-- Where the package lies in the text: `npos` is `2 ^ 64 - 1`, and the sums are of 64 bits. -/
def locate (text memMsg : List UInt8) (package : DecodePackage) : Option DecodePackage := do
  let startpos ← find text memMsg 0
  let startpos ← rfind text (ascii ['{']) (some startpos)
  let endpos := find text memMsg (startpos + commJsonMinPackageLen + 1)
  let endpos := (rfind text (ascii ['}']) endpos).getD (2 ^ 64 - 1)
  some { package with
    offset := (package.offset + startpos) % 2 ^ 64
    packLen := (endpos + 2 ^ 64 - startpos + 1) % 2 ^ 64 }

/-- The part of `vaild` behind its first test. -/
def resolve (json : JsonCpp) (offset : Nat) (package : DecodePackage) : DecodePackage :=
  let package := { package with curIsvaild := false, curResolveIsvaild := true }
  if package.buffer.length < offset then package
  else
    let text := package.buffer.drop offset
    match json.parse text with
    | some (.object [(memMsg, msg)]) =>
      if lower memMsg = commJsonMsg then
        match msg.getMemberNames with
        | none => package
        | some names =>
          match memberName names commJsonCommand, memberName names commJsonData,
            memberName names commJsonChk with
          | some memCmd, some memData, some memChk =>
            match package.locate text memMsg, msg with
            | some located, .object members => located.readFields members memCmd memData memChk
            | some located, _ => located
            | none, _ => package
          | _, _, _ => package
      else package
    | _ => package

/-- `vaild`, which comes to true at all of its ends. -/
def vaild (json : JsonCpp) (offset : Nat) (package : DecodePackage) : Bool × DecodePackage :=
  if package.curResolveIsvaild then (true, package) else (true, package.resolve json offset)

def getPackageLength (package : DecodePackage) : Nat := package.packLen

def getCommand (package : DecodePackage) : UInt32 := package.command

def getBody (package : DecodePackage) : List UInt8 := package.body

def decodeMsg (json : JsonCpp) (package : DecodePackage) : Bool × DecodePackage :=
  if package.offset = package.buffer.length then (false, package)
  else vaild json package.offset { package with status := .decodeMsg }

def checkSum (package : DecodePackage) : Bool :=
  if package.status = .decodeInit ∨ package.curIsvaild = false then false
  else generateChecksum package.getBody == package.checksum

def hasNext (json : JsonCpp) (package : DecodePackage) : Bool × DecodePackage :=
  match package.status with
  | .decodeInit => package.vaild json package.offset
  | .decodeMsg => package.vaild json ((package.offset + package.packLen) % 2 ^ 64)

def decodeNext (package : DecodePackage) : DecodePackage :=
  initData { package with offset := (package.offset + package.packLen) % 2 ^ 64 }

/-- `has_next() && decode_msg()`. -/
def decodes (json : JsonCpp) (package : DecodePackage) : Bool × DecodePackage :=
  let (next, package) := package.hasNext json
  if next then package.decodeMsg json else (false, package)

end DecodePackage

/-- What the getters say of a package that has been decoded. -/
structure Decoded where
  command : UInt32
  body : List UInt8
  checkSum : Bool
  packageLength : Nat
deriving DecidableEq

def DecodePackage.decoded (package : DecodePackage) : Decoded :=
  { command := package.getCommand, body := package.getBody, checkSum := package.checkSum,
    packageLength := package.getPackageLength }

/-- The loop `while (has_next() && decode_msg()) decode_next()` for so many rounds at most. -/
def decodeLoop (json : JsonCpp) : Nat → DecodePackage → Option (List Decoded)
  | 0, _ => none
  | rounds + 1, package =>
    let (returned, package) := package.decodes json
    if returned then (decodeLoop json rounds package.decodeNext).map (package.decoded :: ·)
    else some []

end NPPbJsonPackage

end BTool.PbMessage
