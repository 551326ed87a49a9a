import FbThrift.Protocol.Binary
import FbThrift.Protocol.Compact

/-!
# Schemaless parsing and serialization

`parseObject` and `serializeObject` of `protocol/Object.h`, for either protocol.  The
templates only use the reader and the writer through the calls collected in `ReaderOps`
and `WriterOps`.

Every level of nesting lowers the height of the reader, so the height bounds the
recursion of `parseValue`; a struct holds at most one field a byte, so the bytes that
are left bound its loop.
-/

namespace FbThrift

/-- The calls of a protocol reader. -/
structure ReaderOps where
  readBool : ReadM Bool
  readByte : ReadM Int8
  readI16 : ReadM Int16
  readI32 : ReadM Int32
  readI64 : ReadM Int64
  readFloat : ReadM UInt32
  readDouble : ReadM UInt64
  readBinary : ReadM Bytes
  readStructBegin : ReadM Unit
  readStructEnd : ReadM Unit
  readFieldBegin : ReadM (TType × Int16)
  readMapBegin : ReadM (TType × TType × Nat)
  readMapEnd : ReadM Unit
  readListBegin : ReadM (TType × Nat)
  readListEnd : ReadM Unit
  readSetBegin : ReadM (TType × Nat)
  readSetEnd : ReadM Unit

/-- The calls of a protocol writer. -/
structure WriterOps where
  writeBool : Bool → WriteM
  writeByte : Int8 → WriteM
  writeI16 : Int16 → WriteM
  writeI32 : Int32 → WriteM
  writeI64 : Int64 → WriteM
  writeFloat : UInt32 → WriteM
  writeDouble : UInt64 → WriteM
  writeBinary : Bytes → WriteM
  writeStructBegin : WriteM
  writeStructEnd : WriteM
  writeFieldBegin : TType → Int16 → WriteM
  writeFieldStop : WriteM
  writeMapBegin : TType → TType → UInt32 → WriteM
  writeMapEnd : WriteM
  writeListBegin : TType → UInt32 → WriteM
  writeListEnd : WriteM
  writeSetBegin : TType → UInt32 → WriteM
  writeSetEnd : WriteM

namespace Protocol

def reader : Protocol → ReaderOps
  | .binary => {
      readBool := BinaryProtocolReader.readBool
      readByte := BinaryProtocolReader.readByte
      readI16 := BinaryProtocolReader.readI16
      readI32 := BinaryProtocolReader.readI32
      readI64 := BinaryProtocolReader.readI64
      readFloat := BinaryProtocolReader.readFloat
      readDouble := BinaryProtocolReader.readDouble
      readBinary := BinaryProtocolReader.readBinary
      readStructBegin := BinaryProtocolReader.readStructBegin
      readStructEnd := BinaryProtocolReader.readStructEnd
      readFieldBegin := BinaryProtocolReader.readFieldBegin
      readMapBegin := BinaryProtocolReader.readMapBegin
      readMapEnd := ReadM.ascend
      readListBegin := BinaryProtocolReader.readListBegin
      readListEnd := ReadM.ascend
      readSetBegin := BinaryProtocolReader.readSetBegin
      readSetEnd := ReadM.ascend }
  | .compact => {
      readBool := CompactProtocolReader.readBool
      readByte := CompactProtocolReader.readByte
      readI16 := CompactProtocolReader.readI16
      readI32 := CompactProtocolReader.readI32
      readI64 := CompactProtocolReader.readI64
      readFloat := CompactProtocolReader.readFloat
      readDouble := CompactProtocolReader.readDouble
      readBinary := CompactProtocolReader.readBinary
      readStructBegin := CompactProtocolReader.readStructBegin
      readStructEnd := CompactProtocolReader.readStructEnd
      readFieldBegin := CompactProtocolReader.readFieldBegin
      readMapBegin := CompactProtocolReader.readMapBegin
      readMapEnd := ReadM.ascend
      readListBegin := CompactProtocolReader.readListBegin
      readListEnd := ReadM.ascend
      readSetBegin := CompactProtocolReader.readListBegin
      readSetEnd := ReadM.ascend }

def writer : Protocol → WriterOps
  | .binary => {
      writeBool := BinaryProtocolWriter.writeBool
      writeByte := BinaryProtocolWriter.writeByte
      writeI16 := BinaryProtocolWriter.writeI16
      writeI32 := BinaryProtocolWriter.writeI32
      writeI64 := BinaryProtocolWriter.writeI64
      writeFloat := BinaryProtocolWriter.writeFloat
      writeDouble := BinaryProtocolWriter.writeDouble
      writeBinary := BinaryProtocolWriter.writeBinary
      writeStructBegin := BinaryProtocolWriter.writeStructBegin
      writeStructEnd := BinaryProtocolWriter.writeStructEnd
      writeFieldBegin := BinaryProtocolWriter.writeFieldBegin
      writeFieldStop := BinaryProtocolWriter.writeFieldStop
      writeMapBegin := BinaryProtocolWriter.writeMapBegin
      writeMapEnd := WriteM.ascend
      writeListBegin := BinaryProtocolWriter.writeListBegin
      writeListEnd := WriteM.ascend
      writeSetBegin := BinaryProtocolWriter.writeSetBegin
      writeSetEnd := WriteM.ascend }
  | .compact => {
      writeBool := CompactProtocolWriter.writeBool
      writeByte := CompactProtocolWriter.writeByte
      writeI16 := CompactProtocolWriter.writeI16
      writeI32 := CompactProtocolWriter.writeI32
      writeI64 := CompactProtocolWriter.writeI64
      writeFloat := CompactProtocolWriter.writeFloat
      writeDouble := CompactProtocolWriter.writeDouble
      writeBinary := CompactProtocolWriter.writeBinary
      writeStructBegin := CompactProtocolWriter.writeStructBegin
      writeStructEnd := CompactProtocolWriter.writeStructEnd
      writeFieldBegin := CompactProtocolWriter.writeFieldBegin
      writeFieldStop := CompactProtocolWriter.writeFieldStop
      writeMapBegin := CompactProtocolWriter.writeMapBegin
      writeMapEnd := WriteM.ascend
      writeListBegin := CompactProtocolWriter.writeListBegin
      writeListEnd := WriteM.ascend
      writeSetBegin := CompactProtocolWriter.writeSetBegin
      writeSetEnd := WriteM.ascend }

end Protocol

/-! ## Parsing -/

/-- Runs a read `n` times. -/
def ReadM.times {α : Type} (x : ReadM α) : Nat → ReadM (List α)
  | 0 => pure []
  | n + 1 => do
    let a ← x
    let as ← times x n
    pure (a :: as)

/-- The fields of a struct up to its stop, `value` reading one of a given type. -/
def ReadM.fields {α : Type} (P : ReaderOps) (value : TType → ReadM α) :
    Nat → ReadM (List (Int16 × α))
  | 0 => throw truncatedData
  | left + 1 => do
    let (type, id) ← P.readFieldBegin
    if type = .stop then pure []
    else do
      let v ← value type
      let rest ← fields P value left
      pure ((id, v) :: rest)

/-- `parseObjectInplace`; `value` parses a member of a given type. -/
def parseObjectWith (P : ReaderOps) (value : TType → ReadM Value) : ReadM Object := do
  P.readStructBegin
  let r ← get
  let members ← ReadM.fields P value (r.input.length + 1)
  P.readStructEnd
  pure (SortedMap.ofList members)

/-- `n` elements of a container, after the check that the input can hold them. -/
def parseElements {α : Type} (types n : Nat) (elem : ReadM α) : ReadM (List α) := do
  let enough ← ReadM.canReadNElements n types
  if enough then ReadM.times elem n else throw truncatedData

/-- `parseValue`, for `height` levels of nesting including this one. -/
def parseValueAt (P : ReaderOps) : Nat → TType → ReadM Value
  | 0, _ => throw exceededDepthLimit
  | height + 1, type =>
    match type.unifyStringType with
    | .bool => .bool <$> P.readBool
    | .byte => .byte <$> P.readByte
    | .i16 => .i16 <$> P.readI16
    | .i32 => .i32 <$> P.readI32
    | .i64 => .i64 <$> P.readI64
    | .double => .double <$> P.readDouble
    | .float => .float <$> P.readFloat
    | .string => .binary <$> P.readBinary
    | .struct => .object <$> parseObjectWith P (parseValueAt P height)
    | .map => do
      let (keyType, valType, size) ← P.readMapBegin
      let entries ← parseElements 2 size do
        let key ← parseValueAt P height keyType
        let val ← parseValueAt P height valType
        pure (key, val)
      P.readMapEnd
      pure (.map (SortedMap.ofList entries))
    | .set => do
      let (elemType, size) ← P.readSetBegin
      let elems ← parseElements 1 size (parseValueAt P height elemType)
      P.readSetEnd
      pure (.set (SortedSet.ofList elems))
    | .list => do
      let (elemType, size) ← P.readListBegin
      let elems ← parseElements 1 size (parseValueAt P height elemType)
      P.readListEnd
      pure (.list elems)
    | _ => throw (invalidSkipType type)

/-- `parseValue` at the reader's height. -/
def parseValue (P : ReaderOps) (type : TType) : ReadM Value := fun r =>
  parseValueAt P r.height type r

/-- `parseObject` on a reader. -/
def parseObject (P : ReaderOps) : ReadM Object := fun r =>
  parseObjectWith P (parseValueAt P (r.height - 1)) r

/-! ## Serialization -/

/-- `ensureSameType`. -/
def ensureSameType (v : Value) (type : TType) : WriteM :=
  if v.getTType ≠ type then throw invalidFieldData else pure ()

/-- The element type of a list or a set: that of its first element. -/
def elemTypeOf : List Value → TType
  | [] => .i64
  | v :: _ => v.getTType

/-- The key and value types of a map: those of its first entry. -/
def entryTypesOf : List (Value × Value) → TType × TType
  | [] => (.string, .i64)
  | (k, v) :: _ => (k.getTType, v.getTType)

mutual

/-- `serializeValue`. -/
def serializeValue (P : WriterOps) : Value → WriteM
  | .empty => throw invalidFieldData
  | .bool b => P.writeBool b
  | .byte n => P.writeByte n
  | .i16 n => P.writeI16 n
  | .i32 n => P.writeI32 n
  | .i64 n => P.writeI64 n
  | .float n => P.writeFloat n
  | .double n => P.writeDouble n
  | .string s => P.writeBinary s
  | .binary s => P.writeBinary s
  | .list vs => do
    P.writeListBegin (elemTypeOf vs) (UInt32.ofNat vs.length)
    serializeElems P (elemTypeOf vs) vs
    P.writeListEnd
  | .set vs => do
    P.writeSetBegin (elemTypeOf vs) (UInt32.ofNat vs.length)
    serializeElems P (elemTypeOf vs) vs
    P.writeSetEnd
  | .map es => do
    P.writeMapBegin (entryTypesOf es).1 (entryTypesOf es).2 (UInt32.ofNat es.length)
    serializeEntries P (entryTypesOf es).1 (entryTypesOf es).2 es
    P.writeMapEnd
  | .object ms => do
    P.writeStructBegin
    serializeMembers P ms
    P.writeFieldStop
    P.writeStructEnd

def serializeElems (P : WriterOps) (elemType : TType) : List Value → WriteM
  | [] => pure ()
  | v :: vs => do
    ensureSameType v elemType
    serializeValue P v
    serializeElems P elemType vs

def serializeEntries (P : WriterOps) (keyType valueType : TType) : List (Value × Value) → WriteM
  | [] => pure ()
  | (k, v) :: es => do
    ensureSameType k keyType
    ensureSameType v valueType
    serializeValue P k
    serializeValue P v
    serializeEntries P keyType valueType es

def serializeMembers (P : WriterOps) : List (Int16 × Value) → WriteM
  | [] => pure ()
  | (id, v) :: ms => do
    P.writeFieldBegin v.getTType id
    serializeValue P v
    serializeMembers P ms

end

/-- `serializeObject` on a writer. -/
def serializeObject (P : WriterOps) (obj : Object) : WriteM :=
  serializeValue P (.object obj)

/-! ## Whole buffers -/

/-- `serializeObject<Protocol>(obj)`: the bytes of the queue. -/
def Protocol.serialize (p : Protocol) (maxDepth : Nat) (obj : Object) : Except String Bytes := do
  let (_, w) ← serializeObject p.writer obj (Writer.new maxDepth)
  pure w.out

/-- `parseObject<Protocol>(buf)`, together with what the reader leaves unread. -/
def Protocol.parse (p : Protocol) (maxDepth : Nat) (buf : Bytes) :
    Except String (Object × Bytes) := do
  let (obj, r) ← parseObject p.reader (Reader.ofBytes maxDepth buf)
  pure (obj, r.input)

end FbThrift
