import FbThrift.Protocol.Object

/-!
# Skipping a value

The free function `skip` of `Protocol.h`, which `CompactProtocolReader::skip` calls, and
`BinaryProtocolReader::skip`, which has its own body.  Both count the depth from zero
against the gflag, apart from the height of the reader: a field is one level below its
struct, but an element is two levels below its container, one for `skip_n`.  The levels
that are left bound the recursion.
-/

namespace FbThrift

open Decoder

/-- `fixedSizeInContainer`: zero for a type whose encoding has no fixed size. -/
def Protocol.fixedSizeInContainer : Protocol → TType → Nat
  | .binary => BinaryProtocolReader.fixedSizeInContainer
  | .compact => CompactProtocolReader.fixedSizeInContainer

/-- `skipBytes`. -/
def skipBytes (n : Nat) : ReadM Unit := do
  let _ ← ReadM.decode (take n)
  pure ()

/-- Runs a read once for each type. -/
def skipEach (skip : TType → ReadM Unit) : List TType → ReadM Unit
  | [] => pure ()
  | type :: types => do
    skip type
    skipEach skip types

/-- `skip_n` after its depth check: `n` tuples of the given types. -/
def skipN (p : Protocol) (skip : TType → ReadM Unit) (n : Nat) (types : List TType) : ReadM Unit :=
  if types.all fun type => p.fixedSizeInContainer type ≠ 0 then
    skipBytes ((types.map p.fixedSizeInContainer).sum * n)
  else do
    let _ ← ReadM.times (skipEach skip types) n
    pure ()

/-- Skips the fields of a struct up to its stop. -/
def skipFields (P : ReaderOps) (skip : TType → ReadM Unit) : ReadM Unit := do
  P.readStructBegin
  let r ← get
  let _ ← ReadM.fields P skip (r.input.length + 1)
  P.readStructEnd

/-- The containers, which all skips treat alike; `skip` skips an element, or is absent
when the depth of `skip_n` is over the limit. -/
def skipContainer (p : Protocol) (skip : Option (TType → ReadM Unit)) : TType → ReadM Unit
  | .map => do
    let (keyType, valType, size) ← p.reader.readMapBegin
    skipTuples size [keyType, valType]
    p.reader.readMapEnd
  | .set => do
    let (elemType, size) ← p.reader.readSetBegin
    skipTuples size [elemType]
    p.reader.readSetEnd
  | .list => do
    let (elemType, size) ← p.reader.readListBegin
    skipTuples size [elemType]
    p.reader.readListEnd
  | type => throw (invalidSkipType type)
where
  skipTuples (n : Nat) (types : List TType) : ReadM Unit :=
    match skip with
    | none => throw exceededDepthLimit
    | some skip => skipN p skip n types

/-- The body of the free function `skip`, for a value of which `field` skips the members and
`elem` the elements. -/
def skipBody (p : Protocol) (field : TType → ReadM Unit) (elem : Option (TType → ReadM Unit))
    (type : TType) : ReadM Unit :=
  match type with
  | .bool => discard p.reader.readBool
  | .byte => discard p.reader.readByte
  | .i16 => discard p.reader.readI16
  | .i32 => discard p.reader.readI32
  | .u64 => discard p.reader.readI64
  | .i64 => discard p.reader.readI64
  | .double => discard p.reader.readDouble
  | .float => discard p.reader.readFloat
  | .utf8 => discard p.reader.readBinary
  | .utf16 => discard p.reader.readBinary
  | .string => discard p.reader.readBinary
  | .struct => skipFields p.reader field
  | type => skipContainer p elem type

/-- The body of `BinaryProtocolReader::skip`: fixed sizes are skipped unread. -/
def binarySkipBody (field : TType → ReadM Unit) (elem : Option (TType → ReadM Unit))
    (type : TType) : ReadM Unit :=
  match type with
  | .byte => skipBytes 1
  | .bool => skipBytes 1
  | .i16 => skipBytes 2
  | .float => skipBytes 4
  | .i32 => skipBytes 4
  | .double => skipBytes 8
  | .u64 => skipBytes 8
  | .i64 => skipBytes 8
  | .utf8 => discard BinaryProtocolReader.readBinary
  | .utf16 => discard BinaryProtocolReader.readBinary
  | .string => discard BinaryProtocolReader.readBinary
  | .struct => skipFields Protocol.binary.reader field
  | type => skipContainer .binary elem type

/-- `prot.skip(type, depth)` with `left` levels below the limit. -/
def Protocol.skipAt (p : Protocol) : Nat → TType → ReadM Unit
  | 0, _ => throw exceededDepthLimit
  | 1, type =>
    match p with
    | .compact => skipBody .compact (fun _ => throw exceededDepthLimit) none type
    | .binary => binarySkipBody (fun _ => throw exceededDepthLimit) none type
  | left + 2, type =>
    match p with
    | .compact => skipBody .compact (p.skipAt (left + 1)) (some (p.skipAt left)) type
    | .binary => binarySkipBody (p.skipAt (left + 1)) (some (p.skipAt left)) type

/-- `apache::thrift::skip(prot, type)` with `left` levels below the limit. -/
def Protocol.skip (p : Protocol) : Nat → TType → ReadM Unit
  | 0, _ => throw exceededDepthLimit
  | 1, type => skipBody p (fun _ => throw exceededDepthLimit) none type
  | left + 2, type => skipBody p (p.skipAt (left + 1)) (some (p.skipAt left)) type

end FbThrift
