import FbThrift.Protocol.Rules

/-!
# The size of a generated type

`protocol_methods::write` and `protocol_methods::serializedSize<false>` with the Compact writer.
The size is taken before anything is written, from the maxima of the encodings.
-/

namespace FbThrift

open Decoder

/-! ## Values -/

/-- Whether a struct has lazy fields and is written with an index, and whether the index comes with
a random number and the checksum of what it indexes. -/
inductive Indexing where
  | off
  | on
  | validated (randomNumber checksum : Int64)

/-- A value of a generated type.  An enum is an i32 and an unsigned integer is cast to a signed one.
A container has the types of its elements, which are in the order in which they are written.  A
struct has the fields that are set, with whether the size of a field is recorded in the index, and
is also what a union is written as; a null reference stands for an empty struct or container. -/
inductive TypedValue where
  | bool (b : Bool)
  | byte (n : Int8)
  | i16 (n : Int16)
  | i32 (n : Int32)
  | i64 (n : Int64)
  | float (bits : UInt32)
  | double (bits : UInt64)
  /-- A `std::string`, of either string type. -/
  | string (s : Bytes)
  /-- A `folly::IOBuf`. -/
  | iobuf (s : Bytes)
  /-- A `std::unique_ptr<folly::IOBuf>`. -/
  | iobufPtr (s : Option Bytes)
  /-- The serialized data of a lazy field that has not been read. -/
  | lazy (type : TType) (notBool : type ≠ .bool) (data : Bytes)
  | list (elem : TType) (elems : List TypedValue)
  | set (elem : TType) (elems : List TypedValue)
  | map (key mapped : TType) (entries : List (TypedValue × TypedValue))
  | struct (indexing : Indexing) (fields : List (Int16 × Bool × TypedValue))

/-- `protocol_type`. -/
def TypedValue.ttype : TypedValue → TType
  | .bool _ => .bool
  | .byte _ => .byte
  | .i16 _ => .i16
  | .i32 _ => .i32
  | .i64 _ => .i64
  | .float _ => .float
  | .double _ => .double
  | .string _ => .string
  | .iobuf _ => .string
  | .iobufPtr _ => .string
  | .lazy type _ _ => type
  | .list _ _ => .list
  | .set _ _ => .set
  | .map _ _ _ => .map
  | .struct _ _ => .struct

/-! ## The index of a struct with lazy fields -/

namespace IndexWriter

def kOffset : Int16 := -32768
def kIndex : Int16 := -32767
def kExpectedRandomNumber : Int16 := -32766
def kActualRandomNumber : Int16 := -32765
def kXxh3Checksum : Int16 := -32764

def writeRandomNumberField (randomNumber : Int64) : WriteM := do
  CompactProtocolWriter.writeFieldBegin .i64 kExpectedRandomNumber
  CompactProtocolWriter.writeI64 randomNumber

/-- `writeIndexOffsetField`: the offset is filled in later at the location that is returned. -/
def writeIndexOffsetField : StateT Writer (Except String) Nat := do
  CompactProtocolWriter.writeFieldBegin .double kOffset
  let w ← get
  CompactProtocolWriter.writeDouble 0
  pure w.out.length

/-- The constructor of `IndexWriter`. -/
def begin : Indexing → StateT Writer (Except String) Nat
  | .off => pure 0
  | .on => writeIndexOffsetField
  | .validated randomNumber _ => do
    writeRandomNumberField randomNumber
    writeIndexOffsetField

/-- `rewriteDouble`, `offset` bytes in front of the end. -/
def rewriteDouble (bits : UInt64) (offset : Nat) : WriteM := fun w =>
  if offset < 8 ∨ w.out.length < offset then .error "overflow"
  else
    let location := w.out.length - offset
    .ok ((), { w with
      out := w.out.take location ++ writeBE 8 bits.toNat ++ w.out.drop (location + 8) })

def writeEntries : List (Int16 × Int64) → WriteM
  | [] => pure ()
  | (id, size) :: entries => do
    CompactProtocolWriter.writeI16 id
    CompactProtocolWriter.writeI64 size
    writeEntries entries

def writeIndexField (fieldIdAndSize : List (Int16 × Int64)) : WriteM := do
  CompactProtocolWriter.writeFieldBegin .map kIndex
  CompactProtocolWriter.writeMapBegin .i16 .i64 (UInt32.ofNat fieldIdAndSize.length)
  writeEntries fieldIdAndSize
  WriteM.ascend

/-- The number of bytes between two positions, of which only the low 32 bits are kept. -/
def writtenBytes (start stop : Nat) : Nat := (UInt32.ofNat (stop - start)).toNat

def writeIndex (location : Nat) (fieldIdAndSize : List (Int16 × Int64)) : WriteM := do
  let w ← get
  rewriteDouble (Float.ofNat (writtenBytes (location + 8) w.out.length)).toBits
    (writtenBytes location w.out.length)
  writeIndexField fieldIdAndSize

/-- `fieldIdAndSize_` once the random number and the checksum are in it. -/
def fieldIdAndSize (indexing : Indexing) (recorded : List (Int16 × Int64)) : List (Int16 × Int64) :=
  match indexing with
  | .validated randomNumber checksum =>
    (kActualRandomNumber, randomNumber) :: recorded ++ [(kXxh3Checksum, checksum)]
  | _ => recorded

def finalize (indexing : Indexing) (location : Nat) (recorded : List (Int16 × Int64)) : WriteM :=
  match indexing with
  | .off => pure ()
  | _ => writeIndex location (fieldIdAndSize indexing recorded)

/-- The part of `write` for one field, whose value `write` writes: what `recordFieldEnd` adds. -/
def writeField (id : Int16) (recorded : Bool) (type : TType) (write : WriteM) :
    StateT Writer (Except String) (List (Int16 × Int64)) := do
  CompactProtocolWriter.writeFieldBegin type id
  let start ← get
  write
  let stop ← get
  -- The type class of a boolean is `integral`.
  pure (if recorded = true ∧ type ≠ .bool then
    [(id, Int64.ofNat (writtenBytes start.out.length stop.out.length))] else [])

end IndexWriter

/-! ## Writing -/

/-- `checked_container_size`. -/
def WriteM.checkedContainerSize (size : Nat) : WriteM :=
  if size > 2147483647 then throw (exceededSizeLimit size) else pure ()

namespace TypedValue

/-- `write` of a string, which also checks what the writer returns. -/
def writeString (s : Bytes) : WriteM := do
  CompactProtocolWriter.writeBinary s
  WriteM.checkedContainerSize ((writeVarint s.length).length + s.length)

mutual

/-- `protocol_methods::write`. -/
def write : TypedValue → WriteM
  | .bool b => CompactProtocolWriter.writeBool b
  | .byte n => CompactProtocolWriter.writeByte n
  | .i16 n => CompactProtocolWriter.writeI16 n
  | .i32 n => CompactProtocolWriter.writeI32 n
  | .i64 n => CompactProtocolWriter.writeI64 n
  | .float bits => CompactProtocolWriter.writeFloat bits
  | .double bits => CompactProtocolWriter.writeDouble bits
  | .string s => writeString s
  | .iobuf s => writeString s
  | .iobufPtr none => CompactProtocolWriter.writeI32 0
  | .iobufPtr (some s) => writeString s
  | .lazy _ _ data => do
    WriteM.checkBinarySize data.length
    WriteM.push data
  | .list elem elems => do
    WriteM.checkedContainerSize elems.length
    CompactProtocolWriter.writeListBegin elem (UInt32.ofNat elems.length)
    writeElems elems
    WriteM.ascend
  | .set elem elems => do
    WriteM.checkedContainerSize elems.length
    CompactProtocolWriter.writeSetBegin elem (UInt32.ofNat elems.length)
    writeElems elems
    WriteM.ascend
  | .map key mapped entries => do
    WriteM.checkedContainerSize entries.length
    CompactProtocolWriter.writeMapBegin key mapped (UInt32.ofNat entries.length)
    writeEntries entries
    WriteM.ascend
  | .struct indexing fields => do
    CompactProtocolWriter.writeStructBegin
    let location ← IndexWriter.begin indexing
    let recorded ← writeFields fields
    IndexWriter.finalize indexing location recorded
    CompactProtocolWriter.writeFieldStop
    CompactProtocolWriter.writeStructEnd

def writeElems : List TypedValue → WriteM
  | [] => pure ()
  | v :: elems => do
    v.write
    writeElems elems

def writeEntries : List (TypedValue × TypedValue) → WriteM
  | [] => pure ()
  | (k, v) :: entries => do
    k.write
    v.write
    writeEntries entries

/-- The fields, with what is recorded of them for the index. -/
def writeFields : List (Int16 × Bool × TypedValue) →
    StateT Writer (Except String) (List (Int16 × Int64))
  | [] => pure []
  | (id, recorded, v) :: fields => do
    let first ← IndexWriter.writeField id recorded v.ttype v.write
    let rest ← writeFields fields
    pure (first ++ rest)

end

end TypedValue

/-! ## Sizes -/

namespace CompactProtocolWriter

def serializedSizeBool : Nat := 1
def serializedSizeByte : Nat := 1

/-- Varint writes can be up to one additional byte. -/
def serializedSizeI16 : Nat := 3
def serializedSizeI32 : Nat := 5
def serializedSizeI64 : Nat := 10
def serializedSizeFloat : Nat := 4
def serializedSizeDouble : Nat := 8
def serializedSizeStop : Nat := 1
def serializedFieldSize : Nat := serializedSizeByte + serializedSizeI16
def serializedSizeMapBegin : Nat := serializedSizeByte + serializedSizeByte + serializedSizeI32
def serializedSizeListBegin : Nat := serializedSizeByte + serializedSizeI32
def serializedSizeSetBegin : Nat := serializedSizeByte + serializedSizeI32

/-- `serializedSizeString`, and `serializedSizeBinary` of a `ByteRange`. -/
def serializedSizeString (s : Bytes) : Nat :=
  (serializedSizeI32 + s.length % 2 ^ 32) % 2 ^ 32

/-- `serializedSizeBinary` of an `IOBuf`. -/
def serializedSizeBinary (s : Bytes) : Except String Nat :=
  if s.length > 2 ^ 32 - 1 - serializedSizeI32 then .error (exceededSizeLimit s.length)
  else .ok ((serializedSizeI32 + s.length % 2 ^ 32) % 2 ^ 32)

/-- `serializedSizeBinary` of a `std::unique_ptr<IOBuf>`. -/
def serializedSizeBinaryPtr : Option Bytes → Except String Nat
  | some s => serializedSizeBinary s
  | none => .ok 0

end CompactProtocolWriter

namespace TypedValue

open CompactProtocolWriter

mutual

/-- `protocol_methods::serializedSize<false>`.  The total of a container is a `size_t`, that of a
struct a `uint32_t`. -/
def serializedSize : TypedValue → Except String Nat
  | .bool _ => .ok serializedSizeBool
  | .byte _ => .ok serializedSizeByte
  | .i16 _ => .ok serializedSizeI16
  | .i32 _ => .ok serializedSizeI32
  | .i64 _ => .ok serializedSizeI64
  | .float _ => .ok serializedSizeFloat
  | .double _ => .ok serializedSizeDouble
  | .string s => .ok (serializedSizeString s)
  | .iobuf s => serializedSizeBinary s
  | .iobufPtr s => serializedSizeBinaryPtr s
  | .lazy _ _ data => .ok data.length
  | .list _ elems => do
    let xfer ← serializedSizeElems elems
    .ok ((serializedSizeListBegin + xfer) % 2 ^ 64)
  | .set _ elems => do
    let xfer ← serializedSizeElems elems
    .ok ((serializedSizeSetBegin + xfer) % 2 ^ 64)
  | .map _ _ entries => do
    let xfer ← serializedSizeEntries entries
    .ok ((serializedSizeMapBegin + xfer) % 2 ^ 64)
  | .struct _ fields => do
    let xfer ← serializedSizeFields fields
    .ok ((xfer + serializedSizeStop) % 2 ^ 32)

def serializedSizeElems : List TypedValue → Except String Nat
  | [] => .ok 0
  | v :: elems => do
    let size ← v.serializedSize
    let xfer ← serializedSizeElems elems
    .ok (size + xfer)

def serializedSizeEntries : List (TypedValue × TypedValue) → Except String Nat
  | [] => .ok 0
  | (k, v) :: entries => do
    let keySize ← k.serializedSize
    let size ← v.serializedSize
    let xfer ← serializedSizeEntries entries
    .ok (keySize + size + xfer)

def serializedSizeFields : List (Int16 × Bool × TypedValue) → Except String Nat
  | [] => .ok 0
  | (_, _, v) :: fields => do
    let size ← v.serializedSize
    let xfer ← serializedSizeFields fields
    .ok (serializedFieldSize + size + xfer)

end

end TypedValue

end FbThrift
