import BTool.Foundation.Image
import BTool.ParquetRow.CloumnInfo

/-! `ParquetRow::Reader`: the layout of a row, and the loops that copy the values of a batch into rows.

What Arrow gives is a parameter: the fields of a file with what `byte_width` says of their types, and batches,
which are arrays of values without nulls. -/

namespace BTool.ParquetRow

open BTool.Foundation

structure DataType where
  id : ArrowType
  name : String
  byteWidth : Int

structure Field where
  name : String
  type : DataType

/-- An array of a batch, with the bytes of its values. -/
structure ArrowArray where
  typeId : ArrowType
  values : List (List UInt8)

structure RecordBatch where
  numRows : Nat
  columns : List ArrowArray

/-- What the reader of batches comes to. -/
inductive Next where
  | failed
  | finished
  | batch (batch : RecordBatch)

/-- A call of `memcpy`. -/
structure Copy where
  place : Int
  bytes : List UInt8

/-- Bytes that are copied into a buffer, which is `none` outside of it. -/
def memcpy (readBuf : List UInt8) (copy : Copy) : Option (List UInt8) :=
  if 0 ≤ copy.place ∧ copy.place + copy.bytes.length ≤ readBuf.length then
    some (Image.overwrite readBuf copy.place.toNat copy.bytes)
  else none

structure Reader where
  fixCloumnSizes : String → Option Int
  cloumnInfos : List CloumnInfo
  rowLength : Int
  readBuf : Option (List UInt8)
  readBufLen : Nat

namespace Reader

def construct : Reader := ⟨fun _ => none, [], 0, none, 0⟩

/-- The length of a row and that of the buffer stay. -/
def close (reader : Reader) : Reader :=
  { reader with
    cloumnInfos := [], fixCloumnSizes := fun _ => none
    readBuf := if 0 < reader.readBufLen then none else reader.readBuf }

def setColumn (reader : Reader) (columnName : String) (size : Int) : Reader :=
  { reader with fixCloumnSizes := Function.update reader.fixCloumnSizes columnName (some size) }

def stringFixLength : Int := 40
def largeStringFixLength : Int := 512
def binaryFixLength : Int := 1024
def largeBinaryFixLength : Int := 4096
def naFixLength : Int := 1024

/-- A size that was set is looked up with the name of the type. -/
def getColumnFixLength (reader : Reader) (field : Field) : Int :=
  if 0 < field.type.byteWidth then field.type.byteWidth
  else
    match reader.fixCloumnSizes field.type.name with
    | some size => size
    | none =>
      match field.type.id with
      | .string => stringFixLength
      | .largeString => largeStringFixLength
      | .binary => binaryFixLength
      | .largeBinary => largeBinaryFixLength
      | .na => naFixLength
      | _ => 0

/-- The loop over the fields, which ends where a column has no length. -/
def addColumns (reader : Reader) : List Field → Option (Bool × Reader)
  | [] => some (true, reader)
  | item :: fields => do
    let cloumnLength := reader.getColumnFixLength item
    if cloumnLength = 0 then return (false, reader)
    let rowLength ← checkInt (reader.rowLength + cloumnLength)
    let info : CloumnInfo := ⟨item.name, cloumnLength, reader.rowLength, item.type.id⟩
    addColumns { reader with cloumnInfos := reader.cloumnInfos ++ [info], rowLength } fields

/-- `malloc`, which has no memory of more than `PTRDIFF_MAX` bytes. -/
def malloc (contents : Option (Nat → UInt8)) (length : Nat) : Option (List UInt8) :=
  if length < 2 ^ 63 then contents.map fun byte => (List.range length).map byte else none

/-- `open` of a file with these fields, unless it has none that can be read. The product is an `int`. -/
def openFile (reader : Reader) (fields : Option (List Field)) (batches : Bool) (chunkSize : Int)
    (contents : Option (Nat → UInt8)) : Option (Bool × Reader) :=
  match fields with
  | none => some (false, reader)
  | some fields => do
    let (added, reader) ← reader.addColumns fields
    if !added || !batches then return (false, reader)
    let length ← checkInt (chunkSize * reader.rowLength)
    return (true, { reader with readBufLen := toSize length, readBuf := malloc contents (toSize length) })

/-- The copies of `append_stream`, one for every value. -/
def appendStream (rowLength readBuf : Int) : List (List UInt8) → List (Option Copy)
  | [] => []
  | tmp :: values => some ⟨readBuf, tmp⟩ :: appendStream rowLength (readBuf + rowLength) values

/-- The copies of `append_stream_fix_view`, which copies all that there is of a value. -/
def appendStreamFixView (rowLength readBuf rowOffset : Int) : List (List UInt8) → List (Option Copy)
  | [] => []
  | tmp :: values =>
    (if tmp.isEmpty then none else some ⟨readBuf + rowOffset, tmp⟩) ::
      appendStreamFixView rowLength readBuf (rowOffset + rowLength) values

/-- What is copied of a column, row by row, or `none` where `read` does not know the type. -/
def copies (reader : Reader) (info : CloumnInfo) (array : ArrowArray) : Option (List (Option Copy)) :=
  match array.typeId with
  | .bool | .int8 | .uint8 | .int16 | .uint16 | .int32 | .uint32 | .int64 | .uint64 | .halfFloat | .float | .double =>
    some (appendStream reader.rowLength info.rowOffset array.values)
  | .string | .largeString | .binary | .largeBinary | .fixedSizeBinary =>
    some (appendStreamFixView reader.rowLength info.rowOffset 0 array.values)
  | .na => some []
  | _ => none

def copyAll (readBuf : List UInt8) : List (Option Copy) → Option (List UInt8)
  | [] => some readBuf
  | none :: rest => copyAll readBuf rest
  | some copy :: rest => (memcpy readBuf copy).bind fun readBuf => copyAll readBuf rest

/-- The loop over the arrays of a batch, with the index of the column. -/
def readColumns (reader : Reader) (readBuf : List UInt8) (columnIndex : Nat) :
    List ArrowArray → Option (Bool × List UInt8)
  | [] => some (true, readBuf)
  | array :: columnDatas => do
    -- the information of a column that is not there
    let info ← reader.cloumnInfos[columnIndex]?
    match reader.copies info array with
    | none => return (false, readBuf)
    | some copies =>
      let readBuf ← copyAll readBuf copies
      readColumns reader readBuf (columnIndex + 1) columnDatas

/-- `read`, with the rows that it gives. Without a buffer, `memset` writes nowhere. -/
def read (reader : Reader) (next : Next) : Option (Reader × Bool × List UInt8) := do
  let _ ← reader.readBuf
  let readBuf := List.replicate reader.readBufLen 0
  match next with
  | .failed => return ({ reader with readBuf := some readBuf }, false, [])
  | .finished => return ({ reader with readBuf := some readBuf }, true, [])
  | .batch batch =>
    let (ok, readBuf) ← reader.readColumns readBuf 0 batch.columns
    return ({ reader with readBuf := some readBuf }, ok,
      if ok then readBuf.take (toSize (batch.numRows * reader.rowLength)) else [])

end Reader

end BTool.ParquetRow
