import FbThrift.Protocol.Locality
import FbThrift.Protocol.Skip

/-!
# Readers that refill their buffer

`ProtocolReaderWithRefill` reads from a chunk of the input.  Before each call it makes sure that
the chunk holds what the call takes, and asks a refiller for more if it does not.  The refiller
returns the unread bytes followed by at least as many bytes as are asked for.

The calls of a reader are given in an arbitrary monad, so that the free function `skip`, which
both refilling readers call, is defined once.
-/

namespace FbThrift

open Decoder

/-! ## Calls -/

/-- The calls of a reader that runs in `m`; `left` bounds the fields of a struct, each of which
takes a byte. -/
structure ReaderCalls (m : Type → Type) where
  readBool : m Bool
  readByte : m Int8
  readI16 : m Int16
  readI32 : m Int32
  readI64 : m Int64
  readFloat : m UInt32
  readDouble : m UInt64
  readBinary : m Bytes
  readStructBegin : m Unit
  readStructEnd : m Unit
  readFieldBegin : m (TType × Int16)
  readMapBegin : m (TType × TType × Nat)
  readMapEnd : m Unit
  readListBegin : m (TType × Nat)
  readListEnd : m Unit
  readSetBegin : m (TType × Nat)
  readSetEnd : m Unit
  skipBytes : Nat → m Unit
  left : m Nat

namespace ReaderCalls

variable {m : Type → Type} [Monad m] [MonadExcept String m] (calls : ReaderCalls m)

/-- Runs a skip `n` times. -/
def times (skip : m Unit) : Nat → m Unit
  | 0 => pure ()
  | n + 1 => do
    skip
    times skip n

def skipEach (skip : TType → m Unit) : List TType → m Unit
  | [] => pure ()
  | type :: types => do
    skip type
    skipEach skip types

/-- `skip_n` after its depth check. -/
def skipN (p : Protocol) (skip : TType → m Unit) (n : Nat) (types : List TType) : m Unit :=
  if types.all fun type => p.fixedSizeInContainer type ≠ 0 then
    calls.skipBytes ((types.map p.fixedSizeInContainer).sum * n)
  else times (skipEach skip types) n

/-- The fields of a struct up to its stop. -/
def fields (skip : TType → m Unit) : Nat → m Unit
  | 0 => throw truncatedData
  | left + 1 => do
    let field ← calls.readFieldBegin
    if field.1 = .stop then pure ()
    else do
      skip field.1
      fields skip left

def skipFields (skip : TType → m Unit) : m Unit := do
  calls.readStructBegin
  let left ← calls.left
  calls.fields skip (left + 1)
  calls.readStructEnd

/-- The elements of a container; there is no skip for them where `skip_n` is too deep. -/
def skipTuples (p : Protocol) (skip : Option (TType → m Unit)) (n : Nat) (types : List TType) :
    m Unit :=
  match skip with
  | none => throw exceededDepthLimit
  | some skip => calls.skipN p skip n types

def skipContainer (p : Protocol) (skip : Option (TType → m Unit)) : TType → m Unit
  | .map => do
    let header ← calls.readMapBegin
    calls.skipTuples p skip header.2.2 [header.1, header.2.1]
    calls.readMapEnd
  | .set => do
    let header ← calls.readSetBegin
    calls.skipTuples p skip header.2 [header.1]
    calls.readSetEnd
  | .list => do
    let header ← calls.readListBegin
    calls.skipTuples p skip header.2 [header.1]
    calls.readListEnd
  | type => throw (invalidSkipType type)

/-- The body of the free function `skip`. -/
def skipBody (p : Protocol) (field : TType → m Unit) (elem : Option (TType → m Unit))
    (type : TType) : m Unit :=
  match type with
  | .bool => discard calls.readBool
  | .byte => discard calls.readByte
  | .i16 => discard calls.readI16
  | .i32 => discard calls.readI32
  | .u64 => discard calls.readI64
  | .i64 => discard calls.readI64
  | .double => discard calls.readDouble
  | .float => discard calls.readFloat
  | .utf8 => discard calls.readBinary
  | .utf16 => discard calls.readBinary
  | .string => discard calls.readBinary
  | .struct => calls.skipFields field
  | type => calls.skipContainer p elem type

/-- `apache::thrift::skip(*this, type)` with as many levels below the limit. -/
def skip (p : Protocol) : Nat → TType → m Unit
  | 0, _ => throw exceededDepthLimit
  | 1, type => calls.skipBody p (fun _ => throw exceededDepthLimit) none type
  | levels + 2, type =>
    calls.skipBody p (skip p (levels + 1)) (some (skip p levels)) type

end ReaderCalls

/-- The calls of a plain reader. -/
def Protocol.plainCalls (p : Protocol) : ReaderCalls ReadM where
  readBool := p.reader.readBool
  readByte := p.reader.readByte
  readI16 := p.reader.readI16
  readI32 := p.reader.readI32
  readI64 := p.reader.readI64
  readFloat := p.reader.readFloat
  readDouble := p.reader.readDouble
  readBinary := p.reader.readBinary
  readStructBegin := p.reader.readStructBegin
  readStructEnd := p.reader.readStructEnd
  readFieldBegin := p.reader.readFieldBegin
  readMapBegin := p.reader.readMapBegin
  readMapEnd := p.reader.readMapEnd
  readListBegin := p.reader.readListBegin
  readListEnd := p.reader.readListEnd
  readSetBegin := p.reader.readSetBegin
  readSetEnd := p.reader.readSetEnd
  skipBytes := FbThrift.skipBytes
  left := do
    let r ← get
    pure r.input.length

/-! ## Refilling -/

/-- A reader of a chunk, the bytes of the string that come after the chunk, and the number of
refills so far. -/
structure Refilling where
  reader : Reader
  rest : Bytes
  refills : Nat

namespace Refilling

/-- The reader of all bytes. -/
def whole (s : Refilling) : Reader := s.reader.withInput (s.reader.input ++ s.rest)

/-- `in_.length()`. -/
def length (s : Refilling) : Nat := s.reader.input.length

end Refilling

abbrev RefillM (α : Type) := StateT Refilling (Except String) α

namespace ProtocolReaderWithRefill

variable (extra : Nat → Nat) {α : Type}

/-- A call of the reader of the chunk. -/
def protocol (x : ReadM α) : RefillM α := fun s =>
  match x s.reader with
  | .ok (a, r) => .ok (a, { s with reader := r })
  | .error err => .error err

def askedTooMuch : String := "the refiller is asked for more bytes than the string has left"

/-- The size is taken modulo `2 ^ 32`.  The refiller returns `extra` bytes more than it must, a
number that depends on the refill. -/
def ensureBuffer (size : Nat) : RefillM Unit := fun s =>
  let size := size % 2 ^ 32
  if size ≤ s.length then .ok ((), s)
  else if size ≤ s.length + s.rest.length then
    let more := size - s.length + extra s.refills
    .ok ((), ⟨s.reader.withInput (s.reader.input ++ s.rest.take more), s.rest.drop more,
      s.refills + 1⟩)
  else .error askedTooMuch

end ProtocolReaderWithRefill

open ProtocolReaderWithRefill

namespace CompactProtocolReaderWithRefill

variable (extra : Nat → Nat)

/-- The loop of `ensureInteger`; it ends as every round asks for a byte of the rest. -/
def ensureIntegerLoop : Nat → Nat → RefillM Unit
  | 0, _ => throw "out of fuel"
  | fuel + 1, idx => do
    let s ← get
    -- The difference of the unsigned lengths is huge where `idx` lies behind the chunk.
    if idx ≤ s.length ∧ s.length - idx < 10 then
      if s.length ≤ idx then do
        ensureBuffer extra (idx + 1)
        ensureIntegerLoop fuel idx
      else if (varintSpan (s.reader.input.drop idx)).isSome then pure ()
      else do
        ensureBuffer extra (s.length + 1)
        ensureIntegerLoop fuel s.length
    else pure ()

/-- Makes sure that a varint can be read from the chunk after `idx` bytes. -/
def ensureInteger (idx : Nat) : RefillM Unit := do
  let s ← get
  ensureIntegerLoop extra (s.rest.length + 2) idx

def ensureFieldBegin : RefillM Unit := do
  let s ← get
  if 4 ≤ s.length then pure ()
  else do
    ensureBuffer extra 1
    let s ← get
    if 4 ≤ s.length then pure ()
    else
      let byte := s.reader.input.headD 0
      if byte.toNat % 16 = 0 then pure ()
      else if byte.toNat / 16 = 0 then ensureInteger extra 1
      else pure ()

def ensureMapBegin : RefillM Unit := do
  let s ← get
  if 11 ≤ s.length then pure ()
  else do
    ensureInteger extra 0
    let s ← get
    if 11 ≤ s.length then pure ()
    else
      let bytes := (varintSpan s.reader.input).getD (s.length + 1)
      if bytes = s.length ∧ s.reader.input.headD 0 ≠ 0 then ensureBuffer extra (s.length + 1)
      else pure ()

def ensureListBegin : RefillM Unit := do
  let s ← get
  if 11 ≤ s.length then pure ()
  else do
    ensureBuffer extra 1
    let s ← get
    if (s.reader.input.headD 0).toNat / 16 = 15 then ensureInteger extra 1 else pure ()

/-- A boolean field whose value is known takes no byte. -/
def ensureBool : RefillM Unit := do
  let s ← get
  if s.reader.boolValue = none then ensureBuffer extra 1 else pure ()

def readStringSize : RefillM Int32 := do
  ensureInteger extra 0
  protocol CompactProtocolReader.readVarint32

/-- A string is its size and its body. -/
def readBinary : RefillM Bytes := do
  let size ← readStringSize extra
  if size < 0 then throw negativeSize
  else do
    ensureBuffer extra size.toInt.toNat
    protocol (ReadM.decode (take size.toInt.toNat))

/-- The calls; `readSetBegin` is not overridden and reads from the chunk as it is. -/
def calls : ReaderCalls RefillM where
  readBool := do
    ensureBool extra
    protocol CompactProtocolReader.readBool
  readByte := do
    ensureBuffer extra 1
    protocol CompactProtocolReader.readByte
  readI16 := do
    ensureInteger extra 0
    protocol CompactProtocolReader.readI16
  readI32 := do
    ensureInteger extra 0
    protocol CompactProtocolReader.readI32
  readI64 := do
    ensureInteger extra 0
    protocol CompactProtocolReader.readI64
  readFloat := do
    ensureBuffer extra 4
    protocol CompactProtocolReader.readFloat
  readDouble := do
    ensureBuffer extra 8
    protocol CompactProtocolReader.readDouble
  readBinary := readBinary extra
  readStructBegin := protocol CompactProtocolReader.readStructBegin
  readStructEnd := protocol CompactProtocolReader.readStructEnd
  readFieldBegin := do
    ensureFieldBegin extra
    protocol CompactProtocolReader.readFieldBegin
  readMapBegin := do
    ensureMapBegin extra
    protocol CompactProtocolReader.readMapBegin
  readMapEnd := protocol ReadM.ascend
  readListBegin := do
    ensureListBegin extra
    protocol CompactProtocolReader.readListBegin
  readListEnd := protocol ReadM.ascend
  readSetBegin := protocol CompactProtocolReader.readListBegin
  readSetEnd := protocol ReadM.ascend
  skipBytes n := do
    ensureBuffer extra n
    protocol (FbThrift.skipBytes n)
  left := do
    let s ← get
    pure (s.length + s.rest.length)

end CompactProtocolReaderWithRefill

namespace BinaryProtocolReaderWithRefill

variable (extra : Nat → Nat)

def readByte : RefillM Int8 := do
  ensureBuffer extra 1
  protocol BinaryProtocolReader.readByte

def readI16 : RefillM Int16 := do
  ensureBuffer extra 2
  protocol BinaryProtocolReader.readI16

def readI32 : RefillM Int32 := do
  ensureBuffer extra 4
  protocol BinaryProtocolReader.readI32

def readFieldBegin : RefillM (TType × Int16) := do
  let type ← readByte extra
  if TType.ofByte type.toUInt8 = .stop then pure (.stop, 0)
  else do
    let id ← readI16 extra
    pure (TType.ofByte type.toUInt8, id)

def readBinary : RefillM Bytes := do
  let size ← readI32 extra
  if size < 0 then throw negativeSize
  else do
    ensureBuffer extra size.toInt.toNat
    protocol (ReadM.decode (take size.toInt.toNat))

def readListBegin : RefillM (TType × Nat) := do
  ensureBuffer extra 5
  protocol BinaryProtocolReader.readListBegin

def calls : ReaderCalls RefillM where
  readBool := do
    ensureBuffer extra 1
    protocol BinaryProtocolReader.readBool
  readByte := readByte extra
  readI16 := readI16 extra
  readI32 := readI32 extra
  readI64 := do
    ensureBuffer extra 8
    protocol BinaryProtocolReader.readI64
  readFloat := do
    ensureBuffer extra 4
    protocol BinaryProtocolReader.readFloat
  readDouble := do
    ensureBuffer extra 8
    protocol BinaryProtocolReader.readDouble
  readBinary := readBinary extra
  readStructBegin := protocol BinaryProtocolReader.readStructBegin
  readStructEnd := protocol BinaryProtocolReader.readStructEnd
  readFieldBegin := readFieldBegin extra
  readMapBegin := do
    ensureBuffer extra 6
    protocol BinaryProtocolReader.readMapBegin
  readMapEnd := protocol ReadM.ascend
  readListBegin := readListBegin extra
  readListEnd := protocol ReadM.ascend
  readSetBegin := readListBegin extra
  readSetEnd := protocol ReadM.ascend
  skipBytes n := do
    ensureBuffer extra n
    protocol (FbThrift.skipBytes n)
  left := do
    let s ← get
    pure (s.length + s.rest.length)

end BinaryProtocolReaderWithRefill

/-- The calls of a refilling reader. -/
def Protocol.refillCalls : Protocol → (Nat → Nat) → ReaderCalls RefillM
  | .binary => BinaryProtocolReaderWithRefill.calls
  | .compact => CompactProtocolReaderWithRefill.calls

end FbThrift
