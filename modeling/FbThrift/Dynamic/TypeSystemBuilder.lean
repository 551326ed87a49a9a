import FbThrift.Dynamic.Records

/-!
# Serializable type systems and the types built from them

The definitions of `type_system.thrift`, the nodes of `dynamic/TypeSystem.h`, and
`TypeSystemBuilder`, which checks the former and makes the latter.  Definitions of both levels
have the same parts and differ in how they refer to types: by a type id in the former, by a
reference to a node in the latter, so they are one type with the references as a parameter.
A reference names its node by its URI.  The empty alternatives of the Thrift unions for
definitions and records are left out: the builder refuses them.
-/

namespace FbThrift.Dynamic.Schema

open SerializableRecord

abbrev Uri := Bytes

/-- `TypeId`, the empty union included. -/
inductive TypeId where
  | empty
  | bool
  | byte
  | i16
  | i32
  | i64
  | float
  | double
  | string
  | binary
  | any
  | uri (uri : Uri)
  | list (elementType : TypeId)
  | set (elementType : TypeId)
  | map (keyType valueType : TypeId)
  deriving DecidableEq, Repr

/-- `TypeRef`. -/
inductive TypeRef where
  | bool
  | byte
  | i16
  | i32
  | i64
  | float
  | double
  | string
  | binary
  | any
  | struct (uri : Uri)
  | union (uri : Uri)
  | enum (uri : Uri)
  | opaqueAlias (uri : Uri)
  | list (elementType : TypeRef)
  | set (elementType : TypeRef)
  | map (keyType valueType : TypeRef)
  deriving DecidableEq, Repr

/-- `TypeRef::id`. -/
def TypeRef.id : TypeRef → TypeId
  | .bool => .bool
  | .byte => .byte
  | .i16 => .i16
  | .i32 => .i32
  | .i64 => .i64
  | .float => .float
  | .double => .double
  | .string => .string
  | .binary => .binary
  | .any => .any
  | .struct uri => .uri uri
  | .union uri => .uri uri
  | .enum uri => .uri uri
  | .opaqueAlias uri => .uri uri
  | .list elementType => .list elementType.id
  | .set elementType => .set elementType.id
  | .map keyType valueType => .map keyType.id valueType.id

/-- A record whose field sets are ordered maps. -/
structure Record where
  record : SerializableRecord
  ascending : Everywhere Ascending record

/-- Annotations by the URI of their type, in the order of iteration. -/
abbrev Annotations := List (Uri × Record)

structure FieldIdentity where
  id : Int16
  name : Bytes
  deriving DecidableEq

/-- `PresenceQualifier`: a Thrift enum holds any `i32`. -/
abbrev PresenceQualifier := Int32

def PresenceQualifier.optional : PresenceQualifier := 2

/-- `SerializableFieldDefinition`, `FieldDefinition`. -/
structure FieldDefinition (τ : Type) where
  identity : FieldIdentity
  presence : PresenceQualifier
  type : τ
  customDefault : Option Record
  annotations : Annotations

/-- `SerializableEnumValueDefinition`, `EnumNode::Value`. -/
structure EnumValue where
  name : Bytes
  datum : Int32
  annotations : Annotations

/-- `SerializableTypeDefinition`, `DefinitionRef`. -/
inductive TypeDefinition (τ : Type) where
  | structDef (fields : List (FieldDefinition τ)) (isSealed : Bool) (annotations : Annotations)
  | unionDef (fields : List (FieldDefinition τ)) (isSealed : Bool) (annotations : Annotations)
  | enumDef (values : List EnumValue) (annotations : Annotations)
  | opaqueAliasDef (targetType : τ) (annotations : Annotations)

structure SourceInfo where
  locator : Bytes
  name : Bytes
  deriving DecidableEq

structure SerializableTypeDefinitionEntry where
  definition : TypeDefinition TypeId
  sourceInfo : Option SourceInfo

structure SerializableTypeSystem where
  types : List (Uri × SerializableTypeDefinitionEntry)

/-- The definitions of a `TypeSystem`, by URI. -/
structure TypeSystem where
  definitions : List (Uri × TypeDefinition TypeRef)

/-! ## Validation -/

/-- `validateIdentitiesAreUnique`, the identities seen so far first. -/
def validateIdentitiesAreUnique (uri : Uri) (seen : List FieldIdentity) :
    List (FieldDefinition TypeId) → Except Bytes Unit
  | [] => return ()
  | field :: fields =>
    if seen.any (fun i => i.id == field.identity.id) then
      throw (message s!"Duplicate field id '{field.identity.id.toInt}' in structured type '" ++ uri
        ++ message "'")
    else if seen.any (fun i => i.name == field.identity.name) then
      throw (message "Duplicate field name '" ++ field.identity.name
        ++ message "' in structured type '" ++ uri ++ message "'")
    else validateIdentitiesAreUnique uri (seen ++ [field.identity]) fields

def validateFieldsAreOptional (uri : Uri) : List (FieldDefinition TypeId) → Except Bytes Unit
  | [] => return ()
  | field :: fields =>
    if field.presence ≠ PresenceQualifier.optional then
      throw (message "field '" ++ field.identity.name ++ message "' must be optional in union '"
        ++ uri ++ message "'")
    else validateFieldsAreOptional uri fields

/-- `validateEnumMappingsAreUnique`, the values seen so far first. -/
def validateEnumMappingsAreUnique (uri : Uri) (seen : List EnumValue) :
    List EnumValue → Except Bytes Unit
  | [] => return ()
  | entry :: entries =>
    if seen.any (fun v => v.name == entry.name) then
      throw (message "Duplicate name '" ++ entry.name ++ message "' in enum '" ++ uri
        ++ message "'")
    else if seen.any (fun v => v.datum == entry.datum) then
      throw (message s!"Duplicate value '{entry.datum.toInt}' in enum '" ++ uri ++ message "'")
    else validateEnumMappingsAreUnique uri (seen ++ [entry]) entries

def validateOpaqueAliasIsNotUserDefined (uri : Uri) : TypeId → Except Bytes Unit
  | .uri target =>
    throw (message "Opaque alias '" ++ uri
      ++ message "' cannot have target type of a user-defined type '" ++ target ++ message "'")
  | .empty => throw (message "tried to access empty TypeId")
  | _ => return ()

/-- The checks of `TypeSystemBuilder::addType`. -/
def validate (uri : Uri) : TypeDefinition TypeId → Except Bytes Unit
  | .structDef fields _ _ => validateIdentitiesAreUnique uri [] fields
  | .unionDef fields _ _ => do
    validateIdentitiesAreUnique uri [] fields
    validateFieldsAreOptional uri fields
  | .enumDef values _ => validateEnumMappingsAreUnique uri [] values
  | .opaqueAliasDef targetType _ => validateOpaqueAliasIsNotUserDefined uri targetType

/-- `TypeSystemBuilder::addTypes`, which fills the definitions of the builder. -/
def addTypes (definitions : List (Uri × SerializableTypeDefinitionEntry)) :
    List (Uri × SerializableTypeDefinitionEntry) →
      Except Bytes (List (Uri × SerializableTypeDefinitionEntry))
  | [] => return definitions
  | entry :: types => do
    validate entry.1 entry.2.definition
    if definitions.any (fun d => d.1 == entry.1) then
      throw (message "Duplicate definition for Uri '" ++ entry.1 ++ message "'")
    else addTypes (definitions ++ [entry]) types

/-! ## Building -/

/-- An uninitialized node: a reference to it. -/
def stub (uri : Uri) : TypeDefinition TypeId → TypeRef
  | .structDef _ _ _ => .struct uri
  | .unionDef _ _ _ => .union uri
  | .enumDef _ _ => .enum uri
  | .opaqueAliasDef _ _ => .opaqueAlias uri

section Build

-- The definitions that `build` has made stubs for.
variable (definitions : List (Uri × SerializableTypeDefinitionEntry))

/-- `TypeSystemImpl::typeOf`. -/
def typeOf : TypeId → Except Bytes TypeRef
  | .empty => throw (message "tried to access empty TypeId")
  | .bool => return .bool
  | .byte => return .byte
  | .i16 => return .i16
  | .i32 => return .i32
  | .i64 => return .i64
  | .float => return .float
  | .double => return .double
  | .string => return .string
  | .binary => return .binary
  | .any => return .any
  | .uri uri =>
    match definitions.find? (fun d => d.1 == uri) with
    | some d => return stub d.1 d.2.definition
    | none => throw (message "Definition for uri '" ++ uri ++ message "' was not found")
  | .list elementType => return .list (← typeOf elementType)
  | .set elementType => return .set (← typeOf elementType)
  | .map keyType valueType => return .map (← typeOf keyType) (← typeOf valueType)

/-- The record that `fromThrift` builds, which is the one it is given. -/
def buildRecord (record : Record) : Except Bytes Record :=
  match built : fromThrift record.record with
  | .ok r => return ⟨r, (fromThrift_ok built).1 ▸ record.ascending⟩
  | .error e => throw e

/-- The custom default of a field, if it has one. -/
def buildDefault : Option Record → Except Bytes (Option Record)
  | some record => return some (← buildRecord record)
  | none => return none

/-- The lambda `makeAnnots` of `build`. -/
def makeAnnots : Annotations → Except Bytes Annotations
  | [] => return []
  | (k, v) :: annotations => do
    match ← typeOf definitions (.uri k) with
    | .struct _ =>
      match v.record with
      | .fieldSet _ => do
        let record ← buildRecord v
        return (k, record) :: (← makeAnnots annotations)
      | _ => throw (message "Value for uri '" ++ k ++ message "' for annotation is not a struct.")
    | _ =>
      throw (message "Definition for uri '" ++ k ++ message "' for annotation is not struct.")

/-- The lambda `makeFields` of `build`. -/
def makeFields : List (FieldDefinition TypeId) → Except Bytes (List (FieldDefinition TypeRef))
  | [] => return []
  | field :: fields => do
    let type ← typeOf definitions field.type
    let customDefault ← buildDefault field.customDefault
    let annotations ← makeAnnots definitions field.annotations
    return ⟨field.identity, field.presence, type, customDefault, annotations⟩ ::
      (← makeFields fields)

def makeValues : List EnumValue → Except Bytes (List EnumValue)
  | [] => return []
  | mapping :: values => do
    let annotations ← makeAnnots definitions mapping.annotations
    return ⟨mapping.name, mapping.datum, annotations⟩ :: (← makeValues values)

/-- The node that replaces the stub of a definition. -/
def makeDefinition : TypeDefinition TypeId → Except Bytes (TypeDefinition TypeRef)
  | .structDef fields isSealed annotations =>
    return .structDef (← makeFields definitions fields) isSealed
      (← makeAnnots definitions annotations)
  | .unionDef fields isSealed annotations =>
    return .unionDef (← makeFields definitions fields) isSealed
      (← makeAnnots definitions annotations)
  | .enumDef values annotations =>
    return .enumDef (← makeValues definitions values) (← makeAnnots definitions annotations)
  | .opaqueAliasDef targetType annotations =>
    return .opaqueAliasDef (← typeOf definitions targetType) (← makeAnnots definitions annotations)

/-- The loop of `build` over the definitions, the source identifiers indexed so far first. -/
def makeDefinitions (sourceIndex : List SourceInfo) : List (Uri × SerializableTypeDefinitionEntry) →
      Except Bytes (List (Uri × TypeDefinition TypeRef))
  | [] => return []
  | (uri, entry) :: entries => do
    let node ← makeDefinition definitions entry.definition
    match entry.sourceInfo with
    | none => return (uri, node) :: (← makeDefinitions sourceIndex entries)
    | some source =>
      if source ∈ sourceIndex then
        throw (message "Duplicate source identifier name '" ++ source.name
          ++ message "' at location '" ++ source.locator ++ message "'")
      else return (uri, node) :: (← makeDefinitions (source :: sourceIndex) entries)

end Build

/-- `TypeSystemBuilder::build`. -/
def build (definitions : List (Uri × SerializableTypeDefinitionEntry)) : Except Bytes TypeSystem :=
  return ⟨← makeDefinitions definitions [] definitions⟩

/-- `fromSerializable`. -/
def fromSerializable (typeSystemDef : SerializableTypeSystem) : Except Bytes TypeSystem := do
  build (← addTypes [] typeSystemDef.types)

end FbThrift.Dynamic.Schema
