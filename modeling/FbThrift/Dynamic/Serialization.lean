import FbThrift.Dynamic.Datum
import FbThrift.Protocol.Skip

/-!
# Serialization of dynamic values

`serialize` and `deserialize` of `dynamic/Serialization.h` for the protocols that find fields by
id, with the callbacks that throw on a mismatch and skip unknown fields.  Arithmetic vectors are
written element by element, which gives the same bytes.  As in schemaless parsing, the height of
the reader bounds the recursion and the bytes that are left bound the loop over the fields.
-/

namespace FbThrift.Dynamic

/-! ## Serialization -/

def serializingNull : String := "Serializing Null is not possible."
def invalidFieldHandle (ordinal : Nat) : String := s!"invalid field handle: {ordinal}"

def Datum.isNull : Datum → Bool
  | .null => true
  | _ => false

/-- `hasField`: only an optional field can be absent. -/
def hasField (field : FieldDefinition) (value : Datum) : Bool :=
  field.presence ≠ .optional || !value.isNull

section Serialize

variable (ts : TypeSystem) (P : WriterOps)

mutual

/-- `serialize`.  A list without storage is written with the element type `T_VOID`. -/
def serialize : Datum → WriteM
  | .null => throw serializingNull
  | .bool b => P.writeBool b
  | .byte n => P.writeByte n
  | .i16 n => P.writeI16 n
  | .i32 n => P.writeI32 n
  | .i64 n => P.writeI64 n
  | .string s => P.writeBinary s
  | .binary none => P.writeBinary []
  | .binary (some s) => P.writeBinary s
  | .emptyList _ => do
    P.writeListBegin .void 0
    P.writeListEnd
  | .list type es => do
    P.writeListBegin type.toTType (UInt32.ofNat es.length)
    serializeElements es
    P.writeListEnd
  | .emptySet type => do
    P.writeSetBegin type.toTType 0
    P.writeSetEnd
  | .set type es => do
    P.writeSetBegin type.toTType (UInt32.ofNat es.length)
    serializeElements es
    P.writeSetEnd
  | .emptyMap keyType valueType => do
    P.writeMapBegin keyType.toTType valueType.toTType 0
    P.writeMapEnd
  | .map keyType valueType es => do
    P.writeMapBegin keyType.toTType valueType.toTType (UInt32.ofNat es.length)
    serializeEntries es
    P.writeMapEnd
  | .struct uri values => do
    P.writeStructBegin
    serializeFields (ts.structNode uri).fields values
    P.writeFieldStop
    P.writeStructEnd
  | .emptyUnion _ => do
    P.writeStructBegin
    P.writeFieldStop
    P.writeStructEnd
  | .union uri activeField value => do
    P.writeStructBegin
    match (ts.unionNode uri).fields[activeField]? with
    | some field => do
      P.writeFieldBegin field.wireType field.id
      serialize value
    | none => throw (invalidFieldHandle (activeField + 1))
    P.writeFieldStop
    P.writeStructEnd

def serializeElements : List Datum → WriteM
  | [] => pure ()
  | e :: es => do
    serialize e
    serializeElements es

def serializeEntries : List (Datum × Datum) → WriteM
  | [] => pure ()
  | (k, v) :: es => do
    serialize k
    serialize v
    serializeEntries es

/-- The fields of a struct, the absent ones left out. -/
def serializeFields : List FieldDefinition → List Datum → WriteM
  | field :: fields, value :: values => do
    if hasField field value then do
      P.writeFieldBegin field.wireType field.id
      serialize value
    serializeFields fields values
  | _, _ => pure ()

end

end Serialize

/-! ## Deserialization -/

def typeMismatch (context : String) (expected actual : TType) : String :=
  s!"type mismatch in {context}: {expected.toByte.toNat} vs {actual.toByte.toNat}"

def multipleUnionFields : String := "Union cannot have more than one field during deserialization"

/-- A wire type that is not the expected one; `T_VOID` says that the protocol has none. -/
def checkType (context : String) (expected actual : TType) : ReadM Unit :=
  if actual ≠ .void ∧ expected ≠ actual then throw (typeMismatch context expected actual)
  else pure ()

/-- The elements of a container whose header has been read; an empty one is not checked. -/
def containerElements {α : Type} (check : ReadM Unit) (types size : Nat) (element : ReadM α) :
    ReadM (List α) :=
  if size = 0 then pure []
  else do
    check
    parseElements types size element

def StructuredNode.at (node : StructuredNode) (handle : Nat) : ReadM FieldDefinition :=
  match node.fields[handle]? with
  | some field => pure field
  | none => throw (invalidFieldHandle (handle + 1))

/-- The guess of the struct reader: the next field from its position on with the id, else the
one that a lookup finds; and the new position. -/
def StructuredNode.nextField (node : StructuredNode) (pos : Nat) (id : Int16) : Option Nat × Nat :=
  match (node.fields.drop pos).findIdx? fun field => field.id = id with
  | some skipped => (some (pos + skipped), pos + skipped + 1)
  | none => (node.fieldHandleFor id, node.fields.length)

section Structured

variable (P : ReaderOps) (value : TypeRef → ReadM Datum) (skip : TType → ReadM Unit)
  (node : StructuredNode)

/-- The loop over the fields of a struct, which overwrites the fields of `ret`. -/
def readStructFields : (left pos : Nat) → (ret : List Datum) → ReadM (List Datum)
  | 0, _, _ => throw truncatedData
  | left + 1, pos, ret => do
    let (ftype, fid) ← P.readFieldBegin
    if ftype = .stop then pure ret
    else match node.nextField pos fid with
      | (some handle, pos') => do
        let field ← node.at handle
        checkType s!"field '{field.name}' on struct '{node.uri}'" field.wireType ftype
        let v ← value field.type
        readStructFields left pos' (ret.set handle v)
      | (none, pos') => do
        skip ftype
        readStructFields left pos' ret

/-- Skips the fields after the first one of a union, which are too many. -/
def drainFields : Nat → TType → ReadM Unit
  | 0, _ => throw truncatedData
  | left + 1, ftype => do
    skip ftype
    let (next, _) ← P.readFieldBegin
    if next = .stop then throw multipleUnionFields else drainFields left next

/-- The stop of a union after its field. -/
def readUnionStop : Nat → Datum → ReadM Datum
  | 0, _ => throw truncatedData
  | left + 1, ret => do
    let (ftype, _) ← P.readFieldBegin
    if ftype = .stop then pure ret
    else do
      drainFields P skip left ftype
      pure ret

/-- The first field of a union, or an empty one, then the stop. -/
def readUnionFields : Nat → ReadM Datum
  | 0 => throw truncatedData
  | left + 1 => do
    let (ftype, fid) ← P.readFieldBegin
    if ftype = .stop then pure (.emptyUnion node.uri)
    else match node.fieldHandleFor fid with
      | some handle => do
        let field ← node.at handle
        checkType s!"field '{field.name}' on union '{node.uri}'" field.wireType ftype
        let v ← value field.type
        readUnionStop P skip left (.union node.uri handle v)
      | none => do
        skip ftype
        readUnionStop P skip left (.emptyUnion node.uri)

end Structured

section Deserialize

variable (ts : TypeSystem) (stack maxDepth : Nat) (p : Protocol)

/-- `deserialize` of a struct, over the fields that `create` makes. -/
def deserializeStruct (value : TypeRef → ReadM Datum) (uri : Uri) : ReadM Datum :=
  match create ts stack (ts.structNode uri) with
  | .error err => throw err
  | .ok created => do
    p.reader.readStructBegin
    let r ← get
    let fields ← readStructFields p.reader value (p.skipAt maxDepth) (ts.structNode uri)
      (r.input.length + 1) 0 created
    p.reader.readStructEnd
    pure (.struct uri fields)

/-- `deserialize` of a union. -/
def deserializeUnion (value : TypeRef → ReadM Datum) (uri : Uri) : ReadM Datum := do
  p.reader.readStructBegin
  let r ← get
  let ret ← readUnionFields p.reader value (p.skipAt maxDepth) (ts.unionNode uri)
    (r.input.length + 1)
  p.reader.readStructEnd
  pure ret

/-- `deserialize` at a type, for `height` levels of nesting including this one. -/
def deserializeAt : (height : Nat) → TypeRef → ReadM Datum
  | 0, _ => throw exceededDepthLimit
  | _ + 1, .bool => .bool <$> p.reader.readBool
  | _ + 1, .byte => .byte <$> p.reader.readByte
  | _ + 1, .i16 => .i16 <$> p.reader.readI16
  | _ + 1, .i32 => .i32 <$> p.reader.readI32
  | _ + 1, .i64 => .i64 <$> p.reader.readI64
  | _ + 1, .enum _ => .i32 <$> p.reader.readI32
  | _ + 1, .string => .string <$> p.reader.readBinary
  | _ + 1, .binary => (fun s => .binary (some s)) <$> p.reader.readBinary
  | height + 1, .list type => do
    let (ttype, size) ← p.reader.readListBegin
    let elements ← containerElements (checkType "list element" type.toTType ttype) 1 size
      (deserializeAt height type)
    p.reader.readListEnd
    pure (.list type elements)
  | height + 1, .set type => do
    let (ttype, size) ← p.reader.readSetBegin
    let elements ← containerElements (checkType "set element" type.toTType ttype) 1 size
      (deserializeAt height type)
    p.reader.readSetEnd
    pure (makeSet type elements)
  | height + 1, .map keyType valueType => do
    let (keyTType, valueTType, size) ← p.reader.readMapBegin
    let elements ← containerElements (do
        checkType "map key" keyType.toTType keyTType
        checkType "map value" valueType.toTType valueTType) 2 size (do
        let key ← deserializeAt height keyType
        let value ← deserializeAt height valueType
        pure (key, value))
    p.reader.readMapEnd
    pure (makeMap keyType valueType elements)
  | height + 1, .struct uri =>
    deserializeStruct ts stack maxDepth p (deserializeAt height) uri
  | height + 1, .union uri =>
    deserializeUnion ts maxDepth p (deserializeAt height) uri

/-- `serializeValue` into an empty queue. -/
def serializeValue (value : Datum) : Except String Bytes := do
  let (_, w) ← serialize ts p.writer value (Writer.new maxDepth)
  pure w.out

/-- `deserializeValue` from a buffer, together with what the reader leaves unread. -/
def deserializeValue (type : TypeRef) (buf : Bytes) : Except String (Datum × Bytes) := do
  let (value, r) ←
    deserializeAt ts stack maxDepth p (maxDepth + 1) type (Reader.ofBytes maxDepth buf)
  pure (value, r.input)

end Deserialize

end FbThrift.Dynamic
