import FbThrift.Dynamic.TypeSystem

/-!
# Data of dynamic values

`detail::Datum` with its containers.  A list, set or map allocates its storage on first use and
a binary may have no buffer, so an empty container has two representations, which `operator==`
tells apart; the constructors beginning with `empty` are the ones without storage.  Sets and
maps are hash containers: the lists here hold their elements in the order of iteration.
-/

namespace FbThrift.Dynamic

inductive Datum where
  | null
  | bool (value : Bool)
  | byte (value : Int8)
  | i16 (value : Int16)
  | i32 (value : Int32)
  | i64 (value : Int64)
  | string (data : Bytes)
  | binary (data : Option Bytes)
  | emptyList (elementType : TypeRef)
  | list (elementType : TypeRef) (elements : List Datum)
  | emptySet (elementType : TypeRef)
  | set (elementType : TypeRef) (elements : List Datum)
  | emptyMap (keyType valueType : TypeRef)
  | map (keyType valueType : TypeRef) (elements : List (Datum × Datum))
  | struct (uri : Uri) (fields : List Datum)
  | emptyUnion (uri : Uri)
  | union (uri : Uri) (activeField : Nat) (value : Datum)

/-! ## Equality -/

mutual

/-- `operator==` of two data.  A container without storage never equals one with storage. -/
def Datum.equals : Datum → Datum → Bool
  | .null, .null => true
  | .bool a, .bool b => a == b
  | .byte a, .byte b => a == b
  | .i16 a, .i16 b => a == b
  | .i32 a, .i32 b => a == b
  | .i64 a, .i64 b => a == b
  | .string a, .string b => a == b
  | .binary none, .binary none => true
  | .binary (some a), .binary (some b) => a == b
  | .emptyList t, .emptyList t' => t == t'
  | .list t as, .list t' bs => t.datumKind == t'.datumKind && elementsEqual as bs
  | .emptySet t, .emptySet t' => t == t'
  | .set t as, .set t' bs => t == t' && as.length == bs.length && allFound as bs
  | .emptyMap k v, .emptyMap k' v' => k == k' && v == v'
  | .map k v as, .map k' v' bs =>
    k == k' && v == v' && as.length == bs.length && allEntriesFound as bs
  | .struct uri as, .struct uri' bs => uri == uri' && elementsEqual as bs
  | .emptyUnion uri, .emptyUnion uri' => uri == uri'
  | .union uri field a, .union uri' field' b => uri == uri' && field == field' && a.equals b
  | _, _ => false
termination_by structural a => a

/-- `std::equal` over two vectors of one size. -/
def elementsEqual : List Datum → List Datum → Bool
  | [], [] => true
  | a :: as, b :: bs => a.equals b && elementsEqual as bs
  | _, _ => false
termination_by structural as => as

/-- Each element of one set is found in the other. -/
def allFound : List Datum → List Datum → Bool
  | [], _ => true
  | a :: as, bs => (bs.any fun b => a.equals b) && allFound as bs
termination_by structural as => as

/-- Each key of one map is found in the other, with an equal value. -/
def allEntriesFound : List (Datum × Datum) → List (Datum × Datum) → Bool
  | [], _ => true
  | (k, v) :: as, bs =>
    (match bs.find? fun e => k.equals e.1 with
      | some e => v.equals e.2
      | none => false) && allEntriesFound as bs
termination_by structural as => as

end

/-- `insert` into a hash set. -/
def setInsert (elements : List Datum) (value : Datum) : List Datum :=
  if elements.any value.equals then elements else elements ++ [value]

/-- `insert_or_assign` into a hash map. -/
def mapInsert (elements : List (Datum × Datum)) (key value : Datum) : List (Datum × Datum) :=
  match elements.findIdx? fun e => key.equals e.1 with
  | some i => elements.modify i fun e => (e.1, value)
  | none => elements ++ [(key, value)]

/-- A list that `push_back` has filled, allocated by the first element. -/
def makeList (elementType : TypeRef) : List Datum → Datum
  | [] => .emptyList elementType
  | elements => .list elementType elements

/-- A set that `insert` has filled, allocated by the first element. -/
def makeSet (elementType : TypeRef) : List Datum → Datum
  | [] => .emptySet elementType
  | elements => .set elementType (elements.foldl setInsert [])

/-- A map that `insert` has filled, allocated by the first entry. -/
def makeMap (keyType valueType : TypeRef) : List (Datum × Datum) → Datum
  | [] => .emptyMap keyType valueType
  | elements => .map keyType valueType (elements.foldl (fun es e => mapInsert es e.1 e.2) [])

/-! ## Defaults -/

def inactiveKind (record : SerializableRecord) : String :=
  s!"tried to access SerializableRecord with inactive kind, actual kind was: {record.kindName}"

def severalActiveFields : String := "Union cannot have more than one active field in record"
def unknownUnionField (id : Int16) : String := s!"Unknown field id {id} in union record"
def stackExhausted : String := "stack overflow"

section Defaults

variable (ts : TypeSystem)

/-- The fields of a struct from a record, over the ones that `StructImpl::create` makes. -/
def fieldsFromRecord (node : StructuredNode) (created : List Datum)
    (records : List (Int16 × (TypeRef → Except String Datum))) : Except String (List Datum) :=
  (node.fields.zip created).mapM fun (field, default) =>
    match records.find? fun r => r.1 = field.id with
    | some r => r.2 field.type
    | none => pure default

/-- A union from a record with at most one field. -/
def unionFromRecord (uri : Uri) (node : StructuredNode)
    (records : List (Int16 × (TypeRef → Except String Datum))) : Except String Datum :=
  match records with
  | [] => pure (.emptyUnion uri)
  | [(id, convert)] =>
    match node.fields.findIdx? fun field => field.id = id with
    | some i =>
      match node.fields[i]? with
      | some field => do
        let value ← convert field.type
        pure (.union uri i value)
      | none => throw (unknownUnionField id)
    | none => throw (unknownUnionField id)
  | _ => throw severalActiveFields

mutual

/-- `fromRecord` at a type; `create` makes the fields of a struct. -/
def fromRecord (create : StructuredNode → Except String (List Datum)) :
    SerializableRecord → TypeRef → Except String Datum
  | .bool b, .bool => pure (.bool b)
  | .int8 n, .byte => pure (.byte n)
  | .int16 n, .i16 => pure (.i16 n)
  | .int32 n, .i32 => pure (.i32 n)
  | .int32 n, .enum _ => pure (.i32 n)
  | .int64 n, .i64 => pure (.i64 n)
  | .text s, .string => pure (.string s)
  | .byteArray s, .binary => pure (.binary (some s))
  | .list records, .list type => do
    let elements ← elementsFromRecords create records type
    pure (makeList type elements)
  | .set records, .set type => do
    let elements ← elementsFromRecords create records type
    pure (makeSet type elements)
  | .map records, .map keyType valueType => do
    let elements ← entriesFromRecords create records keyType valueType
    pure (makeMap keyType valueType elements)
  | .fieldSet records, .struct uri => do
    let created ← create (ts.structNode uri)
    let fields ← fieldsFromRecord (ts.structNode uri) created (convertersOf create records)
    pure (.struct uri fields)
  | .fieldSet records, .union uri =>
    unionFromRecord uri (ts.unionNode uri) (convertersOf create records)
  | record, _ => throw (inactiveKind record)

def elementsFromRecords (create : StructuredNode → Except String (List Datum)) :
    List SerializableRecord → TypeRef → Except String (List Datum)
  | [], _ => pure []
  | record :: records, type => do
    let element ← fromRecord create record type
    let elements ← elementsFromRecords create records type
    pure (element :: elements)

def entriesFromRecords (create : StructuredNode → Except String (List Datum)) :
    List (SerializableRecord × SerializableRecord) → TypeRef → TypeRef →
      Except String (List (Datum × Datum))
  | [], _, _ => pure []
  | (k, v) :: records, keyType, valueType => do
    let key ← fromRecord create k keyType
    let value ← fromRecord create v valueType
    let elements ← entriesFromRecords create records keyType valueType
    pure ((key, value) :: elements)

/-- The fields of a record, each to be converted at the type of a field definition. -/
def convertersOf (create : StructuredNode → Except String (List Datum)) :
    List (Int16 × SerializableRecord) → List (Int16 × (TypeRef → Except String Datum))
  | [] => []
  | (id, record) :: records => (id, fromRecord create record) :: convertersOf create records

end

/-- `DynamicValue::makeDefault`; `create` makes the fields of a struct. -/
def makeDefault (create : StructuredNode → Except String (List Datum)) :
    TypeRef → Except String Datum
  | .bool => pure (.bool false)
  | .byte => pure (.byte 0)
  | .i16 => pure (.i16 0)
  | .i32 => pure (.i32 0)
  | .enum _ => pure (.i32 0)
  | .i64 => pure (.i64 0)
  | .string => pure (.string [])
  | .binary => pure (.binary none)
  | .list type => pure (.emptyList type)
  | .set type => pure (.emptySet type)
  | .map keyType valueType => pure (.emptyMap keyType valueType)
  | .struct uri => do
    let fields ← create (ts.structNode uri)
    pure (.struct uri fields)
  | .union uri => pure (.emptyUnion uri)

/-- `StructImpl::create`, for `stack` nested calls: a struct that holds itself without being
optional has no default. -/
def create : (stack : Nat) → StructuredNode → Except String (List Datum)
  | 0, _ => throw stackExhausted
  | stack + 1, node => node.fields.mapM fun field =>
    if field.presence = .optional then pure .null
    else match field.customDefault with
      | some record => fromRecord ts (create stack) record field.type
      | none => makeDefault ts (create stack) field.type

end Defaults

end FbThrift.Dynamic
