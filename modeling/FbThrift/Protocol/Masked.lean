import FbThrift.Mask.Basic
import FbThrift.Protocol.Skip

/-!
# Parsing and serializing with masks

`parseObject(buf, readMask, writeMask)` parses what the read mask selects and keeps the
bytes of what neither mask selects.  The bytes and the map keys they belong to are stored
in two tables, and a `MaskedData` tree says where they go; `serializeObject` puts them
back around an object that may have changed in between.
-/

namespace FbThrift

open Decoder SortedMap

/-- The part of `type::BaseType` that names a wire type. -/
inductive BaseType where
  | void
  | bool
  | byte
  | i16
  | i32
  | i64
  | float
  | double
  | string
  | binary
  | list
  | set
  | map
  | struct
  deriving DecidableEq, Repr

/-- `type::toBaseType`. -/
def toBaseType : TType → Except String BaseType
  | .bool => .ok .bool
  | .byte => .ok .byte
  | .i16 => .ok .i16
  | .i32 => .ok .i32
  | .i64 => .ok .i64
  | .double => .ok .double
  | .float => .ok .float
  | .list => .ok .list
  | .map => .ok .map
  | .set => .ok .set
  | .string => .ok .binary
  | .struct => .ok .struct
  | .utf8 => .ok .string
  | .void => .ok .void
  | type => .error s!"Unsupported conversion from: {type.toByte.toNat}"

/-- `type::toTType`. -/
def BaseType.toTType : BaseType → TType
  | void => .void
  | bool => .bool
  | byte => .byte
  | i16 => .i16
  | i32 => .i32
  | i64 => .i64
  | float => .float
  | double => .double
  | string => .utf8
  | binary => .string
  | list => .list
  | set => .set
  | map => .map
  | struct => .struct

/-- The union `MaskedData`: nothing, one encoded value, or members of a struct or a map. -/
inductive MaskedData where
  | empty
  | full (id : Nat)
  | fields (map : List (Int16 × MaskedData))
  | values (map : List (Nat × MaskedData))

/-- The encoded bytes of a value. -/
structure EncodedValue where
  wireType : BaseType
  data : Bytes

/-- The tables of `MaskedProtocolData` that value ids point into. -/
structure MaskedProtocolData where
  values : List EncodedValue
  keys : List Value

/-- The id of a position: its zigzag, after the conversion to an int32. -/
def valueIdOf (pos : Nat) : Except String Nat :=
  if pos < 2 ^ 31 then .ok (signedIntToZigzag (BitVec.ofNat 32 pos)).toNat
  else .error "Positive overflow during arithmetic conversion"

/-- `getByValueId`. -/
def getByValueId {α : Type} (values : List α) (id : Nat) : Except String α :=
  match values[(zigzagToSignedInt (BitVec.ofNat 64 id)).toNat]? with
  | some value => .ok value
  | none => .error "value id out of range"

/-- A computation without state, in a reader. -/
def ReadM.ofExcept {α : Type} (x : Except String α) : ReadM α := fun r => x.map fun a => (a, r)

/-- A computation without state, in a writer. -/
def WriteM.ofExcept {α : Type} (x : Except String α) : StateT Writer (Except String) α := fun w =>
  x.map fun a => (a, w)

/-! ## Parsing -/

/-- `MaskedDecodeResultValue`, with the tables as they are after the call. -/
structure MaskedDecodeResultValue where
  included : Value
  excluded : MaskedData
  protocolData : MaskedProtocolData

/-- `setMaskedDataFull`: skips a value and keeps its bytes. -/
def setMaskedDataFull (p : Protocol) (maxDepth : Nat) (type : TType)
    (protocolData : MaskedProtocolData) : ReadM MaskedDecodeResultValue := do
  let wireType ← ReadM.ofExcept (toBaseType type)
  let cursor ← get
  p.skip maxDepth type
  let r ← get
  let data := cursor.input.take (cursor.input.length - r.input.length)
  let id ← ReadM.ofExcept (valueIdOf protocolData.values.length)
  pure {
    included := .empty
    excluded := .full id
    protocolData :=
      { protocolData with values := protocolData.values ++ [{ wireType := wireType, data := data }] } }

/-- `getKeyMaskRefByValue`. -/
def getKeyMaskRefByValue (ref : MaskRef) : Value → Except String MaskRef
  | .byte n => ref.getMapId n.toInt64
  | .i16 n => ref.getMapId n.toInt64
  | .i32 n => ref.getMapId n.toInt64
  | .i64 n => ref.getMapId n
  | .string s => ref.getString s
  | .binary s => ref.getString s
  | _ => .error "Value is empty"

/-- Stores the included part of a member unless it is the empty union. -/
def storeIncluded {K : Type} [Keyed K] (k : K) (included : Value) (m : List (K × Value)) :
    List (K × Value) :=
  match included with
  | .empty => m
  | v => insertOrAssign k v m

/-- Stores the excluded part of a member unless it is empty. -/
def storeExcluded (id : Int16) (excluded : MaskedData) (m : List (Int16 × MaskedData)) :
    List (Int16 × MaskedData) :=
  match excluded with
  | .empty => m
  | data => insertOrAssign id data m

/-- The members of a struct read so far: included, excluded, and the tables. -/
structure MaskedFields where
  object : Object
  excluded : List (Int16 × MaskedData)
  protocolData : MaskedProtocolData

/-- The entries of a map read so far: included, excluded, and the tables. -/
structure MaskedEntries where
  map : List (Value × Value)
  excluded : List (Nat × MaskedData)
  protocolData : MaskedProtocolData

/-- The excluded part of a struct: the union stays empty until a member is stored. -/
def MaskedFields.data (s : MaskedFields) : MaskedData :=
  if s.excluded.isEmpty then .empty else .fields s.excluded

def MaskedEntries.data (s : MaskedEntries) : MaskedData :=
  if s.excluded.isEmpty then .empty else .values s.excluded

section Loops

variable (p : Protocol) (keep : Bool)
variable (value : TType → MaskRef → MaskRef → MaskedProtocolData → ReadM MaskedDecodeResultValue)
variable (read write : MaskRef)

/-- The loop over the fields of a struct. -/
def fieldsWithMask : Nat → MaskedFields → ReadM MaskedFields
  | 0, _ => throw truncatedData
  | left + 1, s => do
    let (type, id) ← p.reader.readFieldBegin
    if type = .stop then pure s
    else do
      let nextRead ← ReadM.ofExcept (read.getField id)
      let nextWrite ← ReadM.ofExcept (write.getField id)
      let nested ← value type nextRead nextWrite s.protocolData
      fieldsWithMask left {
        object := storeIncluded id nested.included s.object
        excluded := if keep then storeExcluded id nested.excluded s.excluded else s.excluded
        protocolData := nested.protocolData }

/-- The excluded part of a map entry: its key goes to the table of keys. -/
def storeExcludedEntry (key : Value) (nested : MaskedDecodeResultValue)
    (excluded : List (Nat × MaskedData)) :
    Except String (List (Nat × MaskedData) × MaskedProtocolData) :=
  match nested.excluded with
  | .empty => .ok (excluded, nested.protocolData)
  | data => do
    let id ← valueIdOf nested.protocolData.keys.length
    .ok (insertOrAssign id data excluded,
      { nested.protocolData with keys := nested.protocolData.keys ++ [key] })

/-- Stores an entry of a map that was parsed with the masks. -/
def storeEntry (key : Value) (nested : MaskedDecodeResultValue) (s : MaskedEntries) :
    Except String MaskedEntries :=
  if keep then do
    let (excluded, protocolData) ← storeExcludedEntry key nested s.excluded
    .ok ⟨storeIncluded key nested.included s.map, excluded, protocolData⟩
  else .ok ⟨storeIncluded key nested.included s.map, s.excluded, nested.protocolData⟩

/-- The loop over the entries of a map. -/
def entriesWithMask (key : ReadM Value) (valType : TType) : Nat → MaskedEntries → ReadM MaskedEntries
  | 0, s => pure s
  | n + 1, s => do
    let keyValue ← key
    let nextRead ← ReadM.ofExcept (getKeyMaskRefByValue read keyValue)
    let nextWrite ← ReadM.ofExcept (getKeyMaskRefByValue write keyValue)
    let nested ← value valType nextRead nextWrite s.protocolData
    let s ← ReadM.ofExcept (storeEntry keep keyValue nested s)
    entriesWithMask key valType n s

end Loops

/-- What the masks decide at a value before its type is looked at. -/
inductive MaskDecision where
  | parse
  | skip
  | store
  | descend

/-- The tests of `parseValueWithMask` on the two masks. -/
def maskDecision (keep : Bool) (read write : MaskRef) : MaskDecision :=
  if read.isAllMask then .parse
  else if read.isNoneMask then
    if !keep then .skip
    else if write.isNoneMask then .store
    else if write.isAllMask then .skip
    -- Need to recursively store the result not in the write mask.
    else .descend
  else .descend

/-- `parseValueWithMask`, for `height` levels of nesting including this one. -/
def parseValueWithMaskAt (p : Protocol) (maxDepth : Nat) (keep : Bool) :
    Nat → TType → MaskRef → MaskRef → MaskedProtocolData → ReadM MaskedDecodeResultValue
  | 0, _, _, _, _ => throw exceededDepthLimit
  | height + 1, type, read, write, protocolData =>
    -- Bool field values are encoded in the field header, so they are always decoded.
    if type = .bool then do
      let b ← p.reader.readBool
      pure ⟨.bool b, .empty, protocolData⟩
    else match maskDecision keep read write with
      | .parse => do
        let v ← parseValueAt p.reader (height + 1) type
        pure ⟨v, .empty, protocolData⟩
      | .skip => do
        p.skip maxDepth type
        pure ⟨.empty, .empty, protocolData⟩
      | .store => setMaskedDataFull p maxDepth type protocolData
      | .descend =>
        if type = .struct then do
          p.reader.readStructBegin
          let r ← get
          let s ← fieldsWithMask p keep (parseValueWithMaskAt p maxDepth keep height) read write
            (r.input.length + 1) ⟨[], [], protocolData⟩
          p.reader.readStructEnd
          pure ⟨.object s.object, s.data, s.protocolData⟩
        else if type = .map then do
          let (keyType, valType, size) ← p.reader.readMapBegin
          let s ← entriesWithMask keep (parseValueWithMaskAt p maxDepth keep height) read write
            (parseValueAt p.reader height keyType) valType size ⟨[], [], protocolData⟩
          p.reader.readMapEnd
          pure ⟨.map s.map, s.data, s.protocolData⟩
        else do
          let v ← parseValueAt p.reader (height + 1) type
          pure ⟨v, .empty, protocolData⟩

/-- `MaskedDecodeResult`. -/
structure MaskedDecodeResult where
  included : Object
  data : MaskedData
  protocolData : MaskedProtocolData

/-- `ensure_object` on the included value of the whole struct. -/
def ensureObject : Value → Object
  | .object ms => ms
  | _ => []

/-- `parseObject(buf, readMask, writeMask)`. -/
def Protocol.parseMasked (p : Protocol) (maxDepth : Nat) (keep : Bool) (buf : Bytes)
    (readMask writeMask : Mask) : Except String MaskedDecodeResult := do
  let (result, _) ← parseValueWithMaskAt p maxDepth keep (maxDepth + 1) .struct
    ⟨readMask, false⟩ ⟨writeMask, false⟩ ⟨[], []⟩ (Reader.ofBytes maxDepth buf)
  pure ⟨ensureObject result.included, result.excluded, result.protocolData⟩

/-! ## Serialization -/

def incompatibleMaskedData : String := "incompatible value and maskedData"

/-- `writeRaw`: the bytes as they are, unless there are over 2GB. -/
def writeRaw (data : Bytes) : WriteM := do
  WriteM.checkBinarySize data.length
  WriteM.push data

/-- Runs writes one after the other. -/
def writeAll : List WriteM → WriteM
  | [] => pure ()
  | write :: writes => do
    write
    writeAll writes

section Serialize

variable (P : WriterOps) (protocolData : MaskedProtocolData)

/-- `writeRawField`. -/
def writeRawField (id : Int16) (data : MaskedData) : WriteM :=
  match data with
  | .full valueId => do
    let value ← WriteM.ofExcept (getByValueId protocolData.values valueId)
    P.writeFieldBegin value.wireType.toTType id
    writeRaw value.data
  | _ => throw incompatibleMaskedData

/-- `writeRawMapValue`. -/
def writeRawMapValue (valueType : TType) (data : MaskedData) : WriteM :=
  match data with
  | .full valueId => do
    let value ← WriteM.ofExcept (getByValueId protocolData.values valueId)
    if value.wireType.toTType ≠ valueType then throw invalidFieldData
    else writeRaw value.data
  | _ => throw incompatibleMaskedData

/-- The writes of a struct by field id: raw fields are added where the object has none. -/
def addRawFields (members : List (Int16 × WriteM)) : List (Int16 × MaskedData) → List (Int16 × WriteM)
  | [] => members
  | (id, data) :: fields => addRawFields (emplace id (writeRawField P protocolData id data) members) fields

/-- The key and value types of a map with excluded entries: those of its first entry, or of
the first excluded one. -/
def maskedEntryTypes (entries : List (Value × Value)) (values : List (Nat × MaskedData)) :
    Except String (TType × TType) :=
  match entries, values with
  | [], (keyId, data) :: _ => do
    let key ← getByValueId protocolData.keys keyId
    match data with
    | .full valueId => do
      let value ← getByValueId protocolData.values valueId
      .ok (key.getTType, value.wireType.toTType)
    | _ => .error "bad field access"
  | entries, _ => .ok (entryTypesOf entries)

/-- The entries of a map that only the excluded data has. -/
def countRawEntries (entries : List (Value × Value)) : List (Nat × MaskedData) → Except String Nat
  | [] => .ok 0
  | (keyId, _) :: values => do
    let key ← getByValueId protocolData.keys keyId
    let rest ← countRawEntries entries values
    .ok (if contains key entries then rest else rest + 1)

/-- One entry of a map as the serializer uses it: its value alone and with excluded data. -/
structure EntryWriter where
  value : Value
  write : WriteM
  writeMasked : MaskedData → WriteM

/-- The value of an excluded entry, raw or around what was parsed of it. -/
def writeExcludedValue (valueType : TType) (entry : Option EntryWriter) (data : MaskedData) :
    WriteM :=
  match entry with
  -- No need to serialize the value.
  | none => writeRawMapValue protocolData valueType data
  | some entry => do
    ensureSameType entry.value valueType
    entry.writeMasked data

/-- The loop over the excluded entries of a map. -/
def writeExcludedEntries (keyType valueType : TType) (entries : List (Value × EntryWriter)) :
    List (Nat × MaskedData) → WriteM
  | [] => pure ()
  | (keyId, data) :: values => do
    let key ← WriteM.ofExcept (getByValueId protocolData.keys keyId)
    ensureSameType key keyType
    serializeValue P key
    writeExcludedValue protocolData valueType (find key entries) data
    writeExcludedEntries keyType valueType entries values

/-- The keys of the excluded entries. -/
def excludedKeys : List (Nat × MaskedData) → Except String (List Value)
  | [] => .ok []
  | (keyId, _) :: values => do
    let key ← getByValueId protocolData.keys keyId
    let keys ← excludedKeys values
    .ok (key :: keys)

/-- An entry without excluded data. -/
def writeOtherEntry (keyType valueType : TType) (key : Value) (entry : EntryWriter) : WriteM := do
  ensureSameType key keyType
  ensureSameType entry.value valueType
  serializeValue P key
  entry.write

/-- The loop over the entries, of which those among `keys` are already serialized. -/
def writeOtherEntries (keyType valueType : TType) (keys : List Value) :
    List (Value × EntryWriter) → WriteM
  | [] => pure ()
  | (key, entry) :: entries =>
    if key ∈ keys then writeOtherEntries keyType valueType keys entries
    else do
      writeOtherEntry P keyType valueType key entry
      writeOtherEntries keyType valueType keys entries

mutual

/-- `serializeValue` with masked data. -/
def serializeValueMasked : Value → MaskedData → WriteM
  | .object ms, data =>
    match data with
    | .fields fields => do
      P.writeStructBegin
      writeAll ((addRawFields P protocolData (memberWriters ms fields) fields).map Prod.snd)
      P.writeFieldStop
      P.writeStructEnd
    | _ => throw incompatibleMaskedData
  | .map es, data =>
    match data with
    | .values values => do
      let (keyType, valueType) ← WriteM.ofExcept (maskedEntryTypes protocolData es values)
      let raw ← WriteM.ofExcept (countRawEntries protocolData es values)
      P.writeMapBegin keyType valueType (UInt32.ofNat (es.length + raw))
      writeExcludedEntries P protocolData keyType valueType (entryWriters es) values
      let keys ← WriteM.ofExcept (excludedKeys protocolData values)
      writeOtherEntries P keyType valueType keys (entryWriters es)
      P.writeMapEnd
    | _ => throw incompatibleMaskedData
  | v, _ => serializeValue P v

/-- The writes of the members of an object, header and value. -/
def memberWriters : List (Int16 × Value) → List (Int16 × MaskedData) → List (Int16 × WriteM)
  | [], _ => []
  | (id, v) :: ms, fields =>
    (id, do
      P.writeFieldBegin v.getTType id
      match find id fields with
      | none => serializeValue P v
      | some data => serializeValueMasked v data) :: memberWriters ms fields

def entryWriters : List (Value × Value) → List (Value × EntryWriter)
  | [] => []
  | (k, v) :: es => (k, ⟨v, serializeValue P v, serializeValueMasked v⟩) :: entryWriters es

end

end Serialize

/-- `serializeObject(obj, protocolData)`. -/
def Protocol.serializeMasked (p : Protocol) (maxDepth : Nat) (obj : Object) (data : MaskedData)
    (protocolData : MaskedProtocolData) : Except String Bytes := do
  let (_, w) ← write (Writer.new maxDepth)
  pure w.out
where
  write : WriteM :=
    match data with
    -- The entire object is not parsed.
    | .full valueId => do
      let value ← WriteM.ofExcept (getByValueId protocolData.values valueId)
      writeRaw value.data
    | .fields fields => serializeValueMasked p.writer protocolData (.object obj) (.fields fields)
    -- The entire object is parsed.
    | _ => serializeObject p.writer obj

end FbThrift
