import FbThrift.Protocol.SimpleJSON

/-!
# Paths into dynamic values

A `PathBuilder` follows the types as it adds the components of a path, and `traverse` follows a
path through a value.  The keys of sets and maps stand in a path as their texts in SimpleJSON.
All kinds of types are here, the floating point ones and `any` too, which the modules on
serialization leave out.
-/

namespace FbThrift.Dynamic.Traversal

open SimpleJSON

/-! ## Types -/

abbrev Uri := String

/-- `type_system::TypeRef`. -/
inductive TypeRef where
  | bool
  | byte
  | i16
  | i32
  | i64
  | float
  | double
  | string
  | binary
  | any
  | enum (uri : Uri)
  | list (elementType : TypeRef)
  | set (elementType : TypeRef)
  | map (keyType valueType : TypeRef)
  | struct (uri : Uri)
  | union (uri : Uri)
  | opaqueAlias (uri : Uri)
  deriving DecidableEq

def uriToName (uri : Uri) : String := ((uri.splitOn "/").getLast?).getD uri

def typeDisplayName : TypeRef → String
  | .bool => "bool"
  | .byte => "byte"
  | .i16 => "i16"
  | .i32 => "i32"
  | .i64 => "i64"
  | .float => "float"
  | .double => "double"
  | .string => "string"
  | .binary => "binary"
  | .any => "any"
  | .list elementType => s!"list<{typeDisplayName elementType}>"
  | .set elementType => s!"set<{typeDisplayName elementType}>"
  | .map keyType valueType => s!"map<{typeDisplayName keyType}, {typeDisplayName valueType}>"
  | .struct uri | .union uri | .enum uri | .opaqueAlias uri => uriToName uri

structure FieldDefinition where
  id : Int16
  name : String
  type : TypeRef

/-- The fields of the structs and unions of a type system, by their URIs. -/
structure TypeSystem where
  structFields : Uri → List FieldDefinition
  unionFields : Uri → List FieldDefinition

/-- `asStructured`. -/
def TypeSystem.fieldsOf (ts : TypeSystem) : TypeRef → Option (List FieldDefinition)
  | .struct uri => some (ts.structFields uri)
  | .union uri => some (ts.unionFields uri)
  | _ => none

/-! ## Values -/

/-- The data of the types that keys may have.  Floating point numbers are their bits, and a binary
may have no buffer. -/
inductive Key where
  | bool (value : Bool)
  | byte (value : Int8)
  | i16 (value : Int16)
  | i32 (value : Int32)
  | i64 (value : Int64)
  | float (bits : UInt32)
  | double (bits : UInt64)
  | string (data : Bytes)
  | binary (data : Option Bytes)
  deriving DecidableEq

/-- The elements of hash containers in the order of iteration; an optional field may be unset. -/
inductive Value where
  | primitive (key : Key)
  | any
  | list (elementType : TypeRef) (elements : List Value)
  | set (elementType : TypeRef) (elements : List Value)
  | map (keyType valueType : TypeRef) (entries : List (Value × Value))
  | struct (uri : Uri) (fields : List (Option Value))
  | union (uri : Uri) (active : Option (Nat × Value))

/-- `DatumEqual` of data of one type. -/
def Key.equals : Key → Key → Bool
  | .bool a, .bool b => a == b
  | .byte a, .byte b => a == b
  | .i16 a, .i16 b => a == b
  | .i32 a, .i32 b => a == b
  | .i64 a, .i64 b => a == b
  | .float a, .float b => Format.single.equals a.toNat b.toNat
  | .double a, .double b => Format.double.equals a.toNat b.toNat
  | .string a, .string b => a == b
  | .binary a, .binary b => a == b
  | _, _ => false

def Value.equals (value : Value) (key : Key) : Bool :=
  match value with
  | .primitive k => k.equals key
  | _ => false

/-! ## Errors -/

inductive Error where
  | invalidPathAccess (message : String)
  | runtimeError (message : String)
  | outOfRange (message : String)
  | protocol (error : ReadError)
  deriving DecidableEq

def nonStructured (field : String) (type : TypeRef) : Error :=
  .invalidPathAccess
    s!"cannot access field '{field}' on non-structured type '{typeDisplayName type}'"

def noSuchField (field : String) (type : TypeRef) : Error :=
  .invalidPathAccess s!"field '{field}' does not exist on type '{typeDisplayName type}'"

def nonList (type : TypeRef) : Error :=
  .invalidPathAccess s!"cannot access list element on non-list type '{typeDisplayName type}'"

def nonSet (type : TypeRef) : Error :=
  .invalidPathAccess s!"cannot access set element on non-set type '{typeDisplayName type}'"

def nonMapKey (type : TypeRef) : Error :=
  .invalidPathAccess s!"cannot access map key on non-map type '{typeDisplayName type}'"

def nonMapValue (type : TypeRef) : Error :=
  .invalidPathAccess s!"cannot access map value on non-map type '{typeDisplayName type}'"

def nonAny (type : TypeRef) : Error :=
  .invalidPathAccess s!"cannot access any type on non-any type '{typeDisplayName type}'"

/-! ## Building paths -/

inductive Component where
  | fieldAccess (structuredType : TypeRef) (ordinal : Nat)
  | listElement (index : Nat)
  | setElement (value : Bytes)
  | mapKey (key : Bytes)
  | mapValue (key : Bytes)
  | anyType (typeId : String)

structure Path where
  rootType : TypeRef
  components : List Component

/-- The stack of types is the current one and the ones that it was entered from. -/
structure PathBuilder where
  path : Path
  currentType : TypeRef
  outerTypes : List TypeRef

/-- A field by what `enterField` takes; a handle is the 1-based index of a field. -/
inductive FieldRef where
  | name (name : String)
  | id (id : Int16)
  | handle (ordinal : Nat)

def FieldRef.printable : FieldRef → String
  | .name fieldName => fieldName
  | .id fieldId => toString fieldId
  | .handle ordinal => toString ordinal

/-- `fieldHandleFor`; 0 is the invalid handle. -/
def FieldRef.handleIn (fields : List FieldDefinition) : FieldRef → Nat
  | .name fieldName => ((fields.findIdx? fun f => f.name = fieldName).map (· + 1)).getD 0
  | .id fieldId => ((fields.findIdx? fun f => f.id = fieldId).map (· + 1)).getD 0
  | .handle ordinal => ordinal

/-- The native values that `enterSetElement`, `enterMapKey` and `enterMapValue` take.  All that
converts to a view of characters is a string, and no tag is inferred for a buffer. -/
inductive Native where
  | bool (value : Bool)
  | byte (value : Int8)
  | i16 (value : Int16)
  | i32 (value : Int32)
  | i64 (value : Int64)
  | float (bits : UInt32)
  | double (bits : UInt64)
  | string (value : Bytes)
  | enum (value : Int32)

variable (ts : TypeSystem) (conv : Conversions)

def toSimpleJSON : Native → Bytes
  | .bool value => writeJSONBool value
  | .byte value => writeJSONInt value.toInt
  | .i16 value => writeJSONInt value.toInt
  | .i32 value => writeJSONInt value.toInt
  | .i64 value => writeJSONInt value.toInt
  | .float bits => writeJSONDouble conv .single bits.toNat
  | .double bits => writeJSONDouble conv .double bits.toNat
  | .string value => writeJSONString value
  | .enum value => writeJSONInt value.toInt

namespace PathBuilder

def ofRoot (rootType : TypeRef) : PathBuilder := ⟨⟨rootType, []⟩, rootType, []⟩

def push (builder : PathBuilder) (type : TypeRef) (component : Component) : PathBuilder :=
  ⟨{ builder.path with components := builder.path.components ++ [component] }, type,
    builder.currentType :: builder.outerTypes⟩

def enterField (builder : PathBuilder) (field : FieldRef) : Except Error PathBuilder :=
  match ts.fieldsOf builder.currentType with
  | none => .error (nonStructured field.printable builder.currentType)
  | some fields =>
    let ordinal := field.handleIn fields
    if ordinal = 0 then .error (noSuchField field.printable builder.currentType)
    else
      match fields[ordinal - 1]? with
      | none => .error (.outOfRange s!"invalid field handle: {ordinal}")
      | some f => .ok (builder.push f.type (.fieldAccess builder.currentType ordinal))

def enterListElement (builder : PathBuilder) (index : Nat) : Except Error PathBuilder :=
  match builder.currentType with
  | .list elementType => .ok (builder.push elementType (.listElement index))
  | type => .error (nonList type)

def enterSetElement (builder : PathBuilder) (value : Native) : Except Error PathBuilder :=
  match builder.currentType with
  | .set elementType => .ok (builder.push elementType (.setElement (toSimpleJSON conv value)))
  | type => .error (nonSet type)

def enterMapKey (builder : PathBuilder) (key : Native) : Except Error PathBuilder :=
  match builder.currentType with
  | .map keyType _ => .ok (builder.push keyType (.mapKey (toSimpleJSON conv key)))
  | type => .error (nonMapKey type)

def enterMapValue (builder : PathBuilder) (key : Native) : Except Error PathBuilder :=
  match builder.currentType with
  | .map _ valueType => .ok (builder.push valueType (.mapValue (toSimpleJSON conv key)))
  | type => .error (nonMapValue type)

def enterAnyType (builder : PathBuilder) (knownType : TypeRef) (typeId : String) :
    Except Error PathBuilder :=
  match builder.currentType with
  | .any => .ok (builder.push knownType (.anyType typeId))
  | type => .error (nonAny type)

end PathBuilder

/-! ## Following paths -/

/-- The type by which a key is read is chosen by the kind of the type of the keys. -/
def deserializePrimitiveKeyFromSimpleJSON (json : Bytes) (keyType : TypeRef) :
    Except Error (TypeRef × Key) :=
  let reading {α : Type} (r : Read α) (type : TypeRef) (key : α → Key) :
      Except Error (TypeRef × Key) :=
    match r json with
    | .ok (value, _) => .ok (type, key value)
    | .error e => .error (.protocol e)
  match keyType with
  | .bool => reading readJSONBool .bool .bool
  | .byte => reading (readJSONIntegral 8) .byte fun n => .byte (Int8.ofInt n)
  | .i16 => reading (readJSONIntegral 16) .i16 fun n => .i16 (Int16.ofInt n)
  | .i32 | .enum _ => reading (readJSONIntegral 32) .i32 fun n => .i32 (Int32.ofInt n)
  | .i64 => reading (readJSONIntegral 64) .i64 fun n => .i64 (Int64.ofInt n)
  | .float => reading (readJSONFloating conv .single) .float fun x => .float (UInt32.ofNat x)
  | .double => reading (readJSONFloating conv .double) .double fun x => .double (UInt64.ofNat x)
  | .string => reading readJSONString .string .string
  | .binary => reading readJSONBase64 .binary fun data => .binary (some data)
  | type =>
    .error (.runtimeError s!"Unsupported key type for path traversal: {typeDisplayName type}")

/-- Where a value stands in the one around it. -/
inductive Slot where
  | field (index : Nat)
  | listElement (index : Nat)
  | setElement (index : Nat)
  | mapKey (index : Nat)
  | mapValue (index : Nat)
  deriving DecidableEq

/-- A reference to a value, which stands at a place in the value that the traversal began at. -/
structure Ref where
  type : TypeRef
  place : List Slot
  value : Value

def Ref.child (ref : Ref) (type : TypeRef) (slot : Slot) (value : Value) : Ref :=
  ⟨type, ref.place ++ [slot], value⟩

inductive Access where
  | const
  | mutable
  deriving DecidableEq

def derefMismatch : Error := .runtimeError "Type mismatch in DynamicConstRef::deref"

/-- `Struct::getField` of a valid handle. -/
def getField (current : Ref) (uri : Uri) (fields : List (Option Value)) (ordinal : Nat) :
    Except Error (Option Ref) :=
  match (ts.structFields uri)[ordinal - 1]?, fields[ordinal - 1]? with
  | some f, some (some value) => .ok (some (current.child f.type (.field (ordinal - 1)) value))
  | some _, some none => .ok none
  | _, _ => .error (.outOfRange s!"invalid field handle: {ordinal}")

/-- `Union::getField` behind `Union::hasField`. -/
def getActiveField (current : Ref) (uri : Uri) (active : Option (Nat × Value)) (ordinal : Nat) :
    Except Error (Option Ref) :=
  match active with
  | none => .ok none
  | some (index, value) =>
    if index ≠ ordinal - 1 then .ok none
    else
      match (ts.unionFields uri)[index]? with
      | some f => .ok (some (current.child f.type (.field index) value))
      | none => .error (.outOfRange s!"invalid field handle: {ordinal}")

/-- One component of `traverseImpl`. -/
def follow (access : Access) (current : Ref) : Component → Except Error (Option Ref)
  | .fieldAccess _ ordinal =>
    match current.type with
    | .struct _ =>
      match current.value with
      | .struct uri fields => getField ts current uri fields ordinal
      | _ => .error derefMismatch
    | .union _ =>
      match current.value with
      | .union uri active => getActiveField ts current uri active ordinal
      | _ => .error derefMismatch
    | type => .error (.invalidPathAccess
        s!"cannot access field on non-structured type '{typeDisplayName type}'")
  | .listElement index =>
    match current.type with
    | .list _ =>
      match current.value with
      | .list elementType elements =>
        .ok (elements[index]?.map fun e => current.child elementType (.listElement index) e)
      | _ => .error derefMismatch
    | type => .error (nonList type)
  | .setElement text =>
    match current.type with
    | .set _ =>
      match access, current.value with
      | .mutable, _ =>
        .error (.invalidPathAccess "cannot get mutable reference to set element")
      | .const, .set elementType elements => do
        let (type, key) ← deserializePrimitiveKeyFromSimpleJSON conv text elementType
        if elements.any fun e => e.equals key then
          let found := elements.findIdx? fun e => decide (elementType = type) && e.equals key
          .ok (found.bind fun i =>
            elements[i]?.map fun e => current.child elementType (.setElement i) e)
        else .ok none
      | .const, _ => .error derefMismatch
    | type => .error (nonSet type)
  | .mapKey text =>
    match current.type with
    | .map _ _ =>
      match access, current.value with
      | .mutable, _ =>
        .error (.invalidPathAccess "cannot get mutable reference to map key")
      | .const, .map keyType _ entries => do
        let (type, key) ← deserializePrimitiveKeyFromSimpleJSON conv text keyType
        if entries.any fun e => e.1.equals key then
          let found := entries.findIdx? fun e => decide (keyType = type) && e.1.equals key
          .ok (found.bind fun i =>
            entries[i]?.map fun e => current.child keyType (.mapKey i) e.1)
        else .ok none
      | .const, _ => .error derefMismatch
    | type => .error (nonMapKey type)
  | .mapValue text =>
    match current.type with
    | .map _ _ =>
      match current.value with
      | .map keyType valueType entries => do
        let (_, key) ← deserializePrimitiveKeyFromSimpleJSON conv text keyType
        .ok ((entries.findIdx? fun e => e.1.equals key).bind fun i =>
          entries[i]?.map fun e => current.child valueType (.mapValue i) e.2)
      | _ => .error derefMismatch
    | type => .error (nonMapValue type)
  | .anyType _ => .error (.runtimeError "AnyType traversal is not supported")

/-- `traverseImpl`. -/
def traverseImpl (access : Access) : Ref → List Component → Except Error (Option Ref)
  | current, [] => .ok (some current)
  | current, component :: components => do
    match ← follow ts conv access current component with
    | none => .ok none
    | some next => traverseImpl access next components

/-- `traverse` of a value with its type. -/
def traverse (access : Access) (type : TypeRef) (value : Value) (path : Path) :
    Except Error (Option Ref) :=
  traverseImpl ts conv access ⟨type, [], value⟩ path.components

end FbThrift.Dynamic.Traversal
