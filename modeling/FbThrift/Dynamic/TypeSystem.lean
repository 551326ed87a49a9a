import FbThrift.Protocol.Rules

/-!
# Type systems of dynamic values

The types, field definitions and structured nodes of `dynamic/TypeSystem.h`, and the records
that hold custom defaults.  A node is named by its URI, where the source keeps a pointer to it.
Opaque aliases, `any` and the floating point types are left out, as are annotations and seals,
which nothing here reads.
-/

namespace FbThrift.Dynamic

abbrev Uri := String

/-- `SerializableRecord`, the containers in the order in which they are iterated over. -/
inductive SerializableRecord where
  | bool (datum : Bool)
  | int8 (datum : Int8)
  | int16 (datum : Int16)
  | int32 (datum : Int32)
  | int64 (datum : Int64)
  | float32 (bits : UInt32)
  | float64 (bits : UInt64)
  | text (datum : Bytes)
  | byteArray (datum : Bytes)
  | fieldSet (fields : List (Int16 × SerializableRecord))
  | list (elements : List SerializableRecord)
  | set (elements : List SerializableRecord)
  | map (entries : List (SerializableRecord × SerializableRecord))

/-- The enumerator of `SerializableRecordUnion::Type` for the kind of a record. -/
def SerializableRecord.kindName : SerializableRecord → String
  | .bool _ => "boolDatum"
  | .int8 _ => "int8Datum"
  | .int16 _ => "int16Datum"
  | .int32 _ => "int32Datum"
  | .int64 _ => "int64Datum"
  | .float32 _ => "float32Datum"
  | .float64 _ => "float64Datum"
  | .text _ => "textDatum"
  | .byteArray _ => "byteArrayDatum"
  | .fieldSet _ => "fieldSetDatum"
  | .list _ => "listDatum"
  | .set _ => "setDatum"
  | .map _ => "mapDatum"

/-- `TypeRef`. -/
inductive TypeRef where
  | bool
  | byte
  | i16
  | i32
  | i64
  | string
  | binary
  | enum (uri : Uri)
  | list (elementType : TypeRef)
  | set (elementType : TypeRef)
  | map (keyType valueType : TypeRef)
  | struct (uri : Uri)
  | union (uri : Uri)
  deriving DecidableEq, Repr

/-- `ToTTypeFn`. -/
def TypeRef.toTType : TypeRef → TType
  | .bool => .bool
  | .byte => .byte
  | .i16 => .i16
  | .i32 => .i32
  | .i64 => .i64
  | .string => .string
  | .binary => .string
  | .enum _ => .i32
  | .list _ => .list
  | .set _ => .set
  | .map _ _ => .map
  | .struct _ => .struct
  | .union _ => .struct

/-- The alternative of a datum that holds the values of a type, `type_of_type_kind`. -/
inductive DatumKind where
  | bool
  | byte
  | i16
  | i32
  | i64
  | string
  | binary
  | list
  | set
  | map
  | struct
  | union
  deriving DecidableEq, Repr

def TypeRef.datumKind : TypeRef → DatumKind
  | .bool => .bool
  | .byte => .byte
  | .i16 => .i16
  | .i32 => .i32
  | .i64 => .i64
  | .string => .string
  | .binary => .binary
  | .enum _ => .i32
  | .list _ => .list
  | .set _ => .set
  | .map _ _ => .map
  | .struct _ => .struct
  | .union _ => .union

inductive PresenceQualifier where
  | defaultInitialized
  | unqualified
  | optional
  | terse
  deriving DecidableEq, Repr

structure FieldDefinition where
  id : Int16
  name : String
  presence : PresenceQualifier
  type : TypeRef
  customDefault : Option SerializableRecord

def FieldDefinition.wireType (field : FieldDefinition) : TType := field.type.toTType

/-- `StructuredNode`.  Its constructor refuses a second field with the same id.  Field handles
and the position of the struct reader are 16 bits wide, which is too few for a node that uses
each of the 65536 field ids. -/
structure StructuredNode where
  uri : Uri
  fields : List FieldDefinition
  distinct : (fields.map FieldDefinition.id).Nodup
  few : fields.length < 2 ^ 16

/-- `fieldHandleFor`, a handle being the index of the field. -/
def StructuredNode.fieldHandleFor (node : StructuredNode) (id : Int16) : Option Nat :=
  node.fields.findIdx? fun field => field.id = id

/-- The nodes of a type system by their URIs. -/
structure TypeSystem where
  structNode : Uri → StructuredNode
  unionNode : Uri → StructuredNode
  structUri : ∀ uri, (structNode uri).uri = uri
  unionUri : ∀ uri, (unionNode uri).uri = uri

/-! ## Handles -/

theorem TypeRef.toTType_isValue (type : TypeRef) : type.toTType.IsValue := by
  cases type <;> simp [toTType, TType.IsValue]

theorem TypeRef.toTType_ne_stop (type : TypeRef) : type.toTType ≠ .stop := by
  cases type <;> simp [toTType]

theorem StructuredNode.fieldHandleFor_eq_some {node : StructuredNode} {id : Int16} {i : Nat} :
    node.fieldHandleFor id = some i ↔ ∃ field, node.fields[i]? = some field ∧ field.id = id := by
  unfold fieldHandleFor
  rw [List.findIdx?_eq_some_iff_getElem]
  constructor
  · rintro ⟨below, found, _⟩
    exact ⟨node.fields[i], List.getElem?_eq_getElem below, of_decide_eq_true found⟩
  · rintro ⟨field, found, rfl⟩
    obtain ⟨below, rfl⟩ := List.getElem?_eq_some_iff.mp found
    refine ⟨below, by simp, fun j earlier same => ?_⟩
    have here : i < (node.fields.map FieldDefinition.id).length := by simpa using below
    have there : j < (node.fields.map FieldDefinition.id).length := by omega
    have equal : (node.fields.map FieldDefinition.id)[j] =
        (node.fields.map FieldDefinition.id)[i] := by
      simpa using of_decide_eq_true same
    have index := (List.Nodup.getElem_inj_iff node.distinct).mp equal
    omega

end FbThrift.Dynamic
