import FbThrift.Protocol.Basic

/-!
# The Binary protocol

`BinaryProtocolWriter` and `BinaryProtocolReader`: fixed width big endian words, a type
byte before every field and container.
-/

namespace FbThrift

open Decoder

namespace BinaryProtocolWriter

def writeByte (n : Int8) : WriteM := WriteM.push [n.toUInt8]

def writeI16 (n : Int16) : WriteM := WriteM.push (writeBE 2 n.toUInt16.toNat)

def writeI32 (n : Int32) : WriteM := WriteM.push (writeBE 4 n.toUInt32.toNat)

def writeI64 (n : Int64) : WriteM := WriteM.push (writeBE 8 n.toUInt64.toNat)

def writeFloat (bits : UInt32) : WriteM := WriteM.push (writeBE 4 bits.toNat)

def writeDouble (bits : UInt64) : WriteM := WriteM.push (writeBE 8 bits.toNat)

def writeBool (b : Bool) : WriteM := WriteM.push [if b then 1 else 0]

def writeBinary (s : Bytes) : WriteM := do
  WriteM.checkBinarySize s.length
  writeI32 (Int32.ofNat s.length)
  WriteM.push s

def writeStructBegin : WriteM := WriteM.descend

def writeStructEnd : WriteM := WriteM.ascend

def writeFieldBegin (type : TType) (id : Int16) : WriteM := do
  WriteM.push [type.toByte]
  writeI16 id

def writeFieldStop : WriteM := WriteM.push [TType.stop.toByte]

def writeMapBegin (key value : TType) (size : UInt32) : WriteM := do
  WriteM.descend
  WriteM.push [key.toByte]
  WriteM.push [value.toByte]
  writeI32 size.toInt32

def writeListBegin (elem : TType) (size : UInt32) : WriteM := do
  WriteM.descend
  WriteM.push [elem.toByte]
  writeI32 size.toInt32

def writeSetBegin (elem : TType) (size : UInt32) : WriteM := do
  WriteM.descend
  WriteM.push [elem.toByte]
  writeI32 size.toInt32

end BinaryProtocolWriter

namespace BinaryProtocolReader

def readByte : ReadM Int8 := do
  let b ← ReadM.decode Decoder.readByte
  pure b.toInt8

def readI16 : ReadM Int16 := do
  let n ← ReadM.decode (readBE 2)
  pure (UInt16.ofNat n).toInt16

def readI32 : ReadM Int32 := do
  let n ← ReadM.decode (readBE 4)
  pure (UInt32.ofNat n).toInt32

def readI64 : ReadM Int64 := do
  let n ← ReadM.decode (readBE 8)
  pure (UInt64.ofNat n).toInt64

def readFloat : ReadM UInt32 := do
  let n ← ReadM.decode (readBE 4)
  pure (UInt32.ofNat n)

def readDouble : ReadM UInt64 := do
  let n ← ReadM.decode (readBE 8)
  pure (UInt64.ofNat n)

def readBool : ReadM Bool := do
  let b ← ReadM.decode Decoder.readByte
  if b.toNat ≥ 2 then throw (boolValueOutOfRange b) else pure (b.toNat = 1)

/-- `readBinary` into an IOBuf; a negative size is refused. -/
def readBinary : ReadM Bytes := do
  let size ← readI32
  if size < 0 then throw negativeSize else ReadM.decode (take size.toInt.toNat)

def readStructBegin : ReadM Unit := ReadM.descend

def readStructEnd : ReadM Unit := ReadM.ascend

def readFieldBegin : ReadM (TType × Int16) := do
  let type ← ReadM.decode Decoder.readByte
  if TType.ofByte type = .stop then pure (.stop, 0)
  else do
    let id ← readI16
    pure (TType.ofByte type, id)

def readMapBegin : ReadM (TType × TType × Nat) := do
  ReadM.descend
  let key ← ReadM.decode Decoder.readByte
  let value ← ReadM.decode Decoder.readByte
  let sizei ← readI32
  let size ← ReadM.checkContainerSize sizei
  pure (TType.ofByte key, TType.ofByte value, size)

def readListBegin : ReadM (TType × Nat) := do
  ReadM.descend
  let elem ← ReadM.decode Decoder.readByte
  let sizei ← readI32
  let size ← ReadM.checkContainerSize sizei
  pure (TType.ofByte elem, size)

def readSetBegin : ReadM (TType × Nat) := do
  ReadM.descend
  let elem ← ReadM.decode Decoder.readByte
  let sizei ← readI32
  let size ← ReadM.checkContainerSize sizei
  pure (TType.ofByte elem, size)

/-- Zero for a type whose encoding has no fixed size. -/
def fixedSizeInContainer : TType → Nat
  | .bool => 1
  | .byte => 1
  | .i16 => 2
  | .i32 => 4
  | .float => 4
  | .i64 => 8
  | .double => 8
  | _ => 0

end BinaryProtocolReader

end FbThrift
