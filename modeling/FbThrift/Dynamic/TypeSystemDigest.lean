import FbThrift.Dynamic.AcceptedTypes
import FbThrift.Lib.Words

/-!
# The digest of a type system

What `TypeSystemHasher` feeds to SHA-256, for a serializable type system and for one that was
built.  A digest that is fed to another hasher is one symbol of its stream.  The two levels have
hashers of their own, which differ in the table of record kinds and in how a type id is found;
both are the hasher here with those as parameters.
-/

namespace FbThrift.Dynamic.Schema

open SerializableRecord

/-- What a hasher is given: a byte, or all the bytes of a digest. -/
inductive Symbol (D : Type) where
  | byte (b : UInt8)
  | digest (d : D)
  deriving DecidableEq

abbrev Stream (D : Type) := List (Symbol D)

/-! ## Scalars -/

section Scalars

variable {D : Type}

def hashBytes (bytes : Bytes) : Stream D := bytes.map .byte

/-- The low `width` bytes of a number in little endian order. -/
def hashLE (width n : Nat) : Stream D := hashBytes (Words.storeLE width n)

def hashBool (v : Bool) : Stream D := hashLE 1 (if v then 1 else 0)

def hashInt8 (v : Int8) : Stream D := hashLE 1 v.toUInt8.toNat

def hashInt16 (v : Int16) : Stream D := hashLE 2 v.toUInt16.toNat

def hashInt32 (v : Int32) : Stream D := hashLE 4 v.toUInt32.toNat

def hashInt64 (v : Int64) : Stream D := hashLE 8 v.toUInt64.toNat

/-- A size, cast to 32 bits. -/
def hashSize (size : Nat) : Stream D := hashLE 4 size

/-- Strings and byte arrays. -/
def hashString (s : Bytes) : Stream D := hashSize s.length ++ hashBytes s

def TypeId.kind : TypeId → Int32
  | .empty => 0
  | .bool => 1
  | .byte => 2
  | .i16 => 3
  | .i32 => 4
  | .i64 => 5
  | .float => 6
  | .double => 7
  | .string => 8
  | .binary => 9
  | .any => 10
  | .uri _ => 11
  | .list _ => 12
  | .set _ => 13
  | .map _ _ => 14

/-- `hash(const TypeId&)`. -/
def hashTypeId : TypeId → Stream D
  | .empty => hashLE 1 0
  | .uri uri => hashInt32 (TypeId.uri uri).kind ++ hashString uri
  | .list elementType => hashInt32 (TypeId.list elementType).kind ++ hashTypeId elementType
  | .set elementType => hashInt32 (TypeId.set elementType).kind ++ hashTypeId elementType
  | .map keyType valueType =>
    hashInt32 (TypeId.map keyType valueType).kind ++ hashTypeId keyType ++ hashTypeId valueType
  | typeId => hashInt32 typeId.kind

end Scalars

/-- `SerializableRecordUnion::getType`: the field of the union that is set. -/
def getType : SerializableRecord → Int32
  | .bool _ => 1
  | .int8 _ => 2
  | .int16 _ => 3
  | .int32 _ => 5
  | .int64 _ => 6
  | .float32 _ => 7
  | .float64 _ => 8
  | .text _ => 9
  | .byteArray _ => 10
  | .fieldSet _ => 11
  | .list _ => 12
  | .set _ => 13
  | .map _ => 14

/-- `kindToThriftFieldId` of the kind of a record. -/
def kindToThriftFieldId : SerializableRecord → Int32
  | .bool _ => 1
  | .int8 _ => 2
  | .int16 _ => 3
  | .int32 _ => 5
  | .int64 _ => 6
  | .float32 _ => 7
  | .float64 _ => 8
  | .text _ => 9
  | .byteArray _ => 10
  | .fieldSet _ => 11
  | .list _ => 12
  | .set _ => 13
  | .map _ => 14

/-! ## Groups -/

section Groups

variable {D κ α : Type} [LinearOrder κ]

/-- The elements of a range are hashed in the order of their keys, the first one of each key. -/
def forEachSortedByKey (key : α → κ) (fn : α → Stream D) (range : List α) : Stream D :=
  (sortedBy Prod.fst (emplaceAll Prod.fst (range.map fun elem => (key elem, fn elem)))).flatMap
    Prod.snd

/-- Items in ascending order of their keys are hashed one after the other. -/
theorem forEachSortedByKey_of_ascending {key : α → κ} {fn : α → Stream D} {range : List α}
    (ascending : (range.map key).Pairwise (· < ·)) :
    forEachSortedByKey key fn range = range.flatMap fn := by
  have keys : (range.map fun e => (key e, fn e)).map Prod.fst = range.map key := by
    simp [Function.comp_def]
  rw [forEachSortedByKey, emplaceAll_eq_self, sortedBy_eq_self, List.flatMap_map]
  · rw [keys]
    exact ascending
  · rw [keys]
    exact ascending.imp ne_of_lt

/-- Items with distinct keys are hashed one after the other in some order. -/
theorem forEachSortedByKey_eq {key : α → κ} {fn : α → Stream D} {range : List α}
    (distinct : (range.map key).Nodup) :
    ∃ l : List α, l.Perm range ∧ forEachSortedByKey key fn range = l.flatMap fn := by
  have keys : (range.map fun e => (key e, fn e)).map Prod.fst = range.map key := by
    simp [Function.comp_def]
  rw [forEachSortedByKey, emplaceAll_eq_self (keys ▸ distinct)]
  obtain ⟨l, perm, sorted⟩ :=
    exists_of_perm_map (sortedBy_perm Prod.fst (range.map fun e => (key e, fn e)))
  exact ⟨l, perm, by rw [sorted, List.flatMap_map]⟩

/-- Items whose keys and streams are the same up to order give the same stream. -/
theorem forEachSortedByKey_congr {β : Type} {key : α → κ} {key' : β → κ} {fn : α → Stream D}
    {fn' : β → Stream D} {as : List α} {bs : List β} (distinct : (as.map key).Nodup)
    (perm : (as.map fun a => (key a, fn a)).Perm (bs.map fun b => (key' b, fn' b))) :
    forEachSortedByKey key fn as = forEachSortedByKey key' fn' bs := by
  have keys : ((as.map fun e => (key e, fn e)).map Prod.fst).Nodup := by
    simpa [Function.comp_def] using distinct
  rw [forEachSortedByKey, forEachSortedByKey, emplaceAll_eq_self keys,
    emplaceAll_eq_self ((perm.map Prod.fst).nodup_iff.mp keys), sortedBy_congr perm keys]

variable [LinearOrder D]

/-- Each element is hashed by itself, and the digests are fed in ascending order. -/
def hashUnorderedByDigest (sha256 : Stream D → D) (elements : List (Stream D)) : Stream D :=
  hashSize elements.length ++ (sortedBy id (elements.map sha256)).map .digest

/-- The entries of a map are hashed in the order of the digests of their keys. -/
def hashMapByKeyDigest (sha256 : Stream D → D) (entries : List (Stream D × Stream D)) : Stream D :=
  hashSize entries.length ++ (sortedBy (fun e => sha256 e.1) entries).flatMap fun e => e.1 ++ e.2

end Groups

theorem kindToThriftFieldId_eq : kindToThriftFieldId = getType := by
  funext r
  cases r <;> rfl

/-! ## Records and definitions -/

section Hasher

variable {D τ : Type} [LinearOrder D] (sha256 : Stream D → D)
  (recordType : SerializableRecord → Int32) (typeId : τ → TypeId)

mutual

/-- What a hasher is given for a record. -/
def hashRecord : SerializableRecord → Stream D
  | .bool v => hashInt32 (recordType (.bool v)) ++ hashBool v
  | .int8 v => hashInt32 (recordType (.int8 v)) ++ hashInt8 v
  | .int16 v => hashInt32 (recordType (.int16 v)) ++ hashInt16 v
  | .int32 v => hashInt32 (recordType (.int32 v)) ++ hashInt32 v
  | .int64 v => hashInt32 (recordType (.int64 v)) ++ hashInt64 v
  | .float32 bits => hashInt32 (recordType (.float32 bits)) ++ hashLE 4 bits.toNat
  | .float64 bits => hashInt32 (recordType (.float64 bits)) ++ hashLE 8 bits.toNat
  | .text v => hashInt32 (recordType (.text v)) ++ hashString v
  | .byteArray v => hashInt32 (recordType (.byteArray v)) ++ hashString v
  | .fieldSet fields =>
    hashInt32 (recordType (.fieldSet fields)) ++
      forEachSortedByKey (fun f => f.1.toInt) (fun f => hashInt16 f.1 ++ f.2) (hashFields fields)
  | .list elements => hashInt32 (recordType (.list elements)) ++ (hashElements elements).flatten
  | .set elements =>
    hashInt32 (recordType (.set elements)) ++ hashUnorderedByDigest sha256 (hashElements elements)
  | .map entries =>
    hashInt32 (recordType (.map entries)) ++ hashMapByKeyDigest sha256 (hashEntries entries)
termination_by structural record => record

def hashFields : List (Int16 × SerializableRecord) → List (Int16 × Stream D)
  | [] => []
  | field :: fields => (field.1, hashRecord field.2) :: hashFields fields
termination_by structural fields => fields

def hashElements : List SerializableRecord → List (Stream D)
  | [] => []
  | element :: elements => hashRecord element :: hashElements elements
termination_by structural elements => elements

def hashEntries : List (SerializableRecord × SerializableRecord) → List (Stream D × Stream D)
  | [] => []
  | entry :: entries => (hashRecord entry.1, hashRecord entry.2) :: hashEntries entries
termination_by structural entries => entries

end

@[simp] theorem hashFields_eq (fields : List (Int16 × SerializableRecord)) :
    hashFields sha256 recordType fields =
      fields.map fun f => (f.1, hashRecord sha256 recordType f.2) := by
  induction fields with
  | nil => rfl
  | cons f fields ih => rw [hashFields, ih, List.map_cons]

@[simp] theorem hashElements_eq (elements : List SerializableRecord) :
    hashElements sha256 recordType elements = elements.map (hashRecord sha256 recordType) := by
  induction elements with
  | nil => rfl
  | cons e elements ih => rw [hashElements, ih, List.map_cons]

@[simp] theorem hashEntries_eq (entries : List (SerializableRecord × SerializableRecord)) :
    hashEntries sha256 recordType entries = entries.map fun e =>
        (hashRecord sha256 recordType e.1, hashRecord sha256 recordType e.2) := by
  induction entries with
  | nil => rfl
  | cons e entries ih => rw [hashEntries, ih, List.map_cons]

/-- `hash(const AnnotationsMap&)` and its sibling for Thrift structs. -/
def hashAnnotations (annotations : Annotations) : Stream D :=
  hashUnorderedByDigest sha256 (annotations.map fun entry =>
    hashString entry.1 ++ hashRecord sha256 recordType entry.2.record)

/-- An optional default has no mark. -/
def hashDefault (customDefault : Option Record) : Stream D :=
  match customDefault with
  | some value => hashRecord sha256 recordType value.record
  | none => []

def hashField (field : FieldDefinition τ) : Stream D :=
  hashInt16 field.identity.id ++ hashString field.identity.name ++ hashInt32 field.presence ++
    hashTypeId (typeId field.type) ++ hashDefault sha256 recordType field.customDefault ++
    hashAnnotations sha256 recordType field.annotations

def hashEnumValue (value : EnumValue) : Stream D :=
  hashString value.name ++ hashInt32 value.datum ++
    hashAnnotations sha256 recordType value.annotations

def hashDefinition : TypeDefinition τ → Stream D
  | .structDef fields isSealed annotations =>
    hashInt32 1 ++ forEachSortedByKey (fun f => f.identity.id.toInt)
        (hashField sha256 recordType typeId) fields ++
      hashBool isSealed ++ hashAnnotations sha256 recordType annotations
  | .unionDef fields isSealed annotations =>
    hashInt32 2 ++ forEachSortedByKey (fun f => f.identity.id.toInt)
        (hashField sha256 recordType typeId) fields ++
      hashBool isSealed ++ hashAnnotations sha256 recordType annotations
  | .enumDef values annotations =>
    hashInt32 3 ++
      forEachSortedByKey (fun v => v.datum.toInt) (hashEnumValue sha256 recordType) values ++
      hashAnnotations sha256 recordType annotations
  | .opaqueAliasDef targetType annotations =>
    hashInt32 4 ++ hashTypeId (typeId targetType) ++ hashAnnotations sha256 recordType annotations

/-- URIs are ordered by their bytes. -/
def hashTypes (types : List (Uri × TypeDefinition τ)) : Stream D :=
  hashLE 1 2 ++ forEachSortedByKey (fun e => e.1.map UInt8.toNat)
      (fun e => hashString e.1 ++ hashDefinition sha256 recordType typeId e.2) types

end Hasher

section TypeSystemHasher

variable {D : Type} [LinearOrder D] (sha256 : Stream D → D)

/-- `TypeSystemHasher::operator()(const SerializableTypeSystem&)`, before the final digest. -/
def hashSerializableTypeSystem (typeSystem : SerializableTypeSystem) : Stream D :=
  hashTypes sha256 getType id typeSystem.definitions

/-- `TypeSystemHasher::operator()(const TypeSystem&)`, before the final digest. -/
def hashTypeSystem (typeSystem : TypeSystem) : Stream D :=
  hashTypes sha256 kindToThriftFieldId TypeRef.id typeSystem.definitions

end TypeSystemHasher

end FbThrift.Dynamic.Schema
