import FbThrift.Protocol.Basic

/-!
# The Compact protocol

`CompactProtocolWriter` and `CompactProtocolReader`.  Field ids are written as deltas
against the previous field of the same struct, kept on a stack; the value of a boolean
field moves into its header; short lists share a byte with their type and an empty map
has no type byte at all.
-/

namespace FbThrift

open Decoder

namespace Compact

/-- `TTypeToCType`; the types that Compact has no code for get 0. -/
def ttypeToCType : TType → UInt8
  | .bool => 1
  | .byte => 3
  | .i16 => 4
  | .i32 => 5
  | .i64 => 6
  | .double => 7
  | .string => 8
  | .list => 9
  | .set => 10
  | .map => 11
  | .struct => 12
  | .float => 13
  | _ => 0

/-- `CTypeToTType`, a table of 14 entries. -/
def cTypeToTType : Nat → Option TType
  | 0 => some .stop
  | 1 => some .bool
  | 2 => some .bool
  | 3 => some .byte
  | 4 => some .i16
  | 5 => some .i32
  | 6 => some .i64
  | 7 => some .double
  | 8 => some .string
  | 9 => some .list
  | 10 => some .set
  | 11 => some .map
  | 12 => some .struct
  | 13 => some .float
  | _ => none

/-- `CT_BOOLEAN_TRUE` and `CT_BOOLEAN_FALSE`. -/
def boolCType (b : Bool) : UInt8 := if b then 1 else 2

end Compact

namespace CompactProtocolWriter

def writeByte (n : Int8) : WriteM := WriteM.push [n.toUInt8]

def writeI16 (n : Int16) : WriteM :=
  WriteM.push (writeVarint (signedIntToZigzag n.toInt32.toBitVec).toNat)

def writeI32 (n : Int32) : WriteM :=
  WriteM.push (writeVarint (signedIntToZigzag n.toBitVec).toNat)

def writeI64 (n : Int64) : WriteM :=
  WriteM.push (writeVarint (signedIntToZigzag n.toBitVec).toNat)

def writeFloat (bits : UInt32) : WriteM := WriteM.push (writeBE 4 bits.toNat)

def writeDouble (bits : UInt64) : WriteM := WriteM.push (writeBE 8 bits.toNat)

def writeBinary (s : Bytes) : WriteM := do
  WriteM.checkBinarySize s.length
  WriteM.push (writeVarint (UInt32.ofNat s.length).toNat)
  WriteM.push s

def writeStructBegin : WriteM := do
  WriteM.descend
  modify fun w => { w with lastField := w.lastFieldId :: w.lastField, lastFieldId := 0 }

def writeStructEnd : WriteM := do
  modify fun w => { w with lastFieldId := w.lastField.headD 0, lastField := w.lastField.tail }
  WriteM.ascend

/-- The type and the id of a field.  The delta form needs a difference of 1 to 15, computed
as an int, so it does not wrap at the limits of the ids. -/
def writeFieldHeader (typeToWrite : UInt8) (id previousId : Int16) : WriteM :=
  if previousId.toInt < id.toInt ∧ id.toInt - previousId.toInt ≤ 15 then
    -- Write them together.
    WriteM.push [UInt8.ofNat (id.toInt - previousId.toInt).toNat <<< 4 ||| typeToWrite]
  else do
    WriteM.push [typeToWrite]
    writeI16 id

def writeFieldBeginInternal (typeToWrite : UInt8) (id previousId : Int16) : WriteM := do
  writeFieldHeader typeToWrite id previousId
  modify fun w => { w with lastFieldId := id }

def writeFieldBegin (type : TType) (id : Int16) : WriteM := do
  if type = .bool then modify fun w => { w with booleanField := some id }
  else do
    let w ← get
    writeFieldBeginInternal (Compact.ttypeToCType type) id w.lastFieldId

def writeFieldStop : WriteM := WriteM.push [TType.stop.toByte]

def writeBool (b : Bool) : WriteM := do
  let w ← get
  match w.booleanField with
  | some id => do
    writeFieldBeginInternal (Compact.boolCType b) id w.lastFieldId
    modify fun w => { w with booleanField := none }
  | none => WriteM.push [Compact.boolCType b]

def writeMapBegin (key value : TType) (size : UInt32) : WriteM := do
  WriteM.descend
  if size = 0 then WriteM.push [0]
  else do
    WriteM.push (writeVarint size.toNat)
    WriteM.push [Compact.ttypeToCType key <<< 4 ||| Compact.ttypeToCType value]

/-- The size is passed as an int32, which is negative from 2^31 on. -/
def writeCollectionBegin (elem : TType) (size : Int32) : WriteM :=
  if size.toInt ≤ 14 then
    WriteM.push [size.toUInt32.toUInt8 <<< 4 ||| Compact.ttypeToCType elem]
  else do
    WriteM.push [0xf0 ||| Compact.ttypeToCType elem]
    WriteM.push (writeVarint size.toUInt32.toNat)

def writeListBegin (elem : TType) (size : UInt32) : WriteM := do
  WriteM.descend
  writeCollectionBegin elem size.toInt32

def writeSetBegin (elem : TType) (size : UInt32) : WriteM := do
  WriteM.descend
  writeCollectionBegin elem size.toInt32

end CompactProtocolWriter

namespace CompactProtocolReader

def readByte : ReadM Int8 := do
  let b ← ReadM.decode Decoder.readByte
  pure b.toInt8

/-- `readVarint` into an int32. -/
def readVarint32 : ReadM Int32 := do
  let n ← ReadM.decode (readVarint 32)
  pure (UInt32.ofNat n).toInt32

def readI16 : ReadM Int16 := do
  let n ← readVarint32
  pure (Int32.ofBitVec (zigzagToSignedInt n.toBitVec)).toInt16

def readI32 : ReadM Int32 := do
  let n ← readVarint32
  pure (Int32.ofBitVec (zigzagToSignedInt n.toBitVec))

def readI64 : ReadM Int64 := do
  let n ← ReadM.decode (readVarint 64)
  pure (Int64.ofBitVec (zigzagToSignedInt (BitVec.ofNat 64 n)))

def readFloat : ReadM UInt32 := do
  let n ← ReadM.decode (readBE 4)
  pure (UInt32.ofNat n)

def readDouble : ReadM UInt64 := do
  let n ← ReadM.decode (readBE 8)
  pure (UInt64.ofNat n)

/-- `readBinary` into an IOBuf; a negative size is refused. -/
def readBinary : ReadM Bytes := do
  let size ← readVarint32
  if size < 0 then throw negativeSize else ReadM.decode (take size.toInt.toNat)

def readStructBegin : ReadM Unit := do
  ReadM.descend
  modify fun r => { r with lastField := r.lastFieldId :: r.lastField, lastFieldId := 0 }

def readStructEnd : ReadM Unit := do
  modify fun r => { r with lastFieldId := r.lastField.headD 0, lastField := r.lastField.tail }
  ReadM.ascend

def getType (type : Nat) : ReadM TType :=
  match Compact.cTypeToTType type with
  | some type => pure type
  | none => throw (badType type)

/-- A field id: a delta against the last one, or a varint of its own. -/
def readFieldId (modifier : Nat) : ReadM Int16 :=
  if modifier = 0 then readI16
  else do
    let r ← get
    pure (r.lastFieldId + Int16.ofNat modifier)

/-- The value of a boolean field is encoded in the type. -/
def saveBool (type : Nat) : ReadM Unit :=
  if type = 1 ∨ type = 2 then modify fun r => { r with boolValue := some (type = 1) }
  else pure ()

def readFieldBegin : ReadM (TType × Int16) := do
  let byte ← ReadM.decode Decoder.readByte
  -- If it's a stop, then the struct is over.
  if byte.toNat % 16 = 0 then pure (.stop, 0)
  else do
    let fieldId ← readFieldId (byte.toNat / 16)
    let fieldType ← getType (byte.toNat % 16)
    saveBool (byte.toNat % 16)
    modify fun r => { r with lastFieldId := fieldId }
    pure (fieldType, fieldId)

def readBool : ReadM Bool := do
  let r ← get
  match r.boolValue with
  | some b => do
    modify fun r => { r with boolValue := none }
    pure b
  | none => do
    let byte ← ReadM.decode Decoder.readByte
    pure (byte.toNat = 1)

/-- An empty map has no byte for its types. -/
def readKeyValueTypes (msize : Int32) : ReadM UInt8 :=
  if msize ≠ 0 then ReadM.decode Decoder.readByte else pure 0

def readMapBegin : ReadM (TType × TType × Nat) := do
  ReadM.descend
  let msize ← readVarint32
  let kvType ← readKeyValueTypes msize
  let size ← ReadM.checkContainerSize msize
  let key ← getType (kvType.toNat / 16)
  let value ← getType (kvType.toNat % 16)
  pure (key, value, size)

/-- The size in the first byte, or behind it when the half byte is full. -/
def readCollectionSize (sizeAndType : UInt8) : ReadM Int32 :=
  if sizeAndType.toNat / 16 = 15 then readVarint32
  else pure (Int32.ofNat (sizeAndType.toNat / 16))

def readListBegin : ReadM (TType × Nat) := do
  ReadM.descend
  let sizeAndType ← ReadM.decode Decoder.readByte
  let lsize ← readCollectionSize sizeAndType
  let size ← ReadM.checkContainerSize lsize
  let elem ← getType (sizeAndType.toNat % 16)
  pure (elem, size)

/-- Zero for a type whose encoding has no fixed size. -/
def fixedSizeInContainer : TType → Nat
  | .bool => 1
  | .byte => 1
  | .float => 4
  | .double => 8
  | _ => 0

end CompactProtocolReader

end FbThrift
