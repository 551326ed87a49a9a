import FbThrift.Protocol.ReaderWithRefill

/-!
# What a refilling reader gets right

A careful reader reads as the plain one does and refuses what a refilling reader does not provide
for.  It knows whether the next byte must have been asked for already.
-/

namespace FbThrift

open Decoder

/-- A plain reader, and whether the byte after those it has read must be in the chunk by now. -/
structure Careful where
  reader : Reader
  ahead : Bool

abbrev CarefulM (α : Type) := StateT Careful (Except String) α

namespace Careful

variable {α : Type}

def unprovidedFor : String := "a refilling reader does not provide for this"

/-- What is read takes up the byte that lies ahead. -/
def passed (ahead : Bool) (r r' : Reader) : Bool := ahead && r'.input.length == r.input.length

/-- A read of the plain reader unless it is refused. -/
def readUnless (refused : Reader → Bool → Bool) (x : ReadM α) : CarefulM α := fun s =>
  if refused s.reader s.ahead then .error unprovidedFor
  else match x s.reader with
    | .ok (a, r) => .ok (a, ⟨r, passed s.ahead s.reader r⟩)
    | .error err => .error err

def read (x : ReadM α) : CarefulM α := readUnless (fun _ _ => false) x

/-- `ensureBuffer` takes the size modulo `2 ^ 32`. -/
def skipBytes (n : Nat) : CarefulM Unit :=
  readUnless (fun _ _ => 2 ^ 32 ≤ n) (FbThrift.skipBytes n)

/-- `ensureFieldBegin` takes four bytes to be enough; the field id then has at most three. -/
def longFieldId (r : Reader) (_ : Bool) : Bool :=
  match r.input with
  | b₀ :: b₁ :: b₂ :: b₃ :: _ =>
    b₀.toNat % 16 ≠ 0 && b₀.toNat / 16 = 0 && 128 ≤ b₁.toNat && 128 ≤ b₂.toNat && 128 ≤ b₃.toNat
  | _ => false

/-- Nothing is asked for before a set is read, so that its header is there only if it is one byte
that was asked for before. -/
def missingSetHeader (r : Reader) (ahead : Bool) : Bool :=
  !ahead || (r.input.headD 0).toNat / 16 == 15

/-- `ensureMapBegin` takes a map for empty by the first byte of its size.  It asks for one byte
more where the size is a zero of more than one byte. -/
def readMapBegin : CarefulM (TType × TType × Nat) := fun s =>
  match CompactProtocolReader.readMapBegin s.reader with
  | .error err => .error err
  | .ok (header, r) =>
    if header.2.2 = 0 ∧ s.reader.input.headD 0 ≠ 0 then
      if r.input = [] then .error unprovidedFor else .ok (header, ⟨r, true⟩)
    else .ok (header, ⟨r, passed s.ahead s.reader r⟩)

def left : CarefulM Nat := do
  let s ← get
  pure s.reader.input.length

end Careful

open Careful in
/-- The calls of a careful reader. -/
def Protocol.carefulCalls (p : Protocol) : ReaderCalls CarefulM where
  readBool := read p.reader.readBool
  readByte := read p.reader.readByte
  readI16 := read p.reader.readI16
  readI32 := read p.reader.readI32
  readI64 := read p.reader.readI64
  readFloat := read p.reader.readFloat
  readDouble := read p.reader.readDouble
  readBinary := read p.reader.readBinary
  readStructBegin := read p.reader.readStructBegin
  readStructEnd := read p.reader.readStructEnd
  readFieldBegin :=
    match p with
    | .binary => read BinaryProtocolReader.readFieldBegin
    | .compact => readUnless longFieldId CompactProtocolReader.readFieldBegin
  readMapBegin :=
    match p with
    | .binary => read BinaryProtocolReader.readMapBegin
    | .compact => readMapBegin
  readMapEnd := read p.reader.readMapEnd
  readListBegin := read p.reader.readListBegin
  readListEnd := read p.reader.readListEnd
  readSetBegin :=
    match p with
    | .binary => read BinaryProtocolReader.readSetBegin
    | .compact => readUnless missingSetHeader CompactProtocolReader.readListBegin
  readSetEnd := read p.reader.readSetEnd
  skipBytes := Careful.skipBytes
  left := left

/-! ## Sequences of calls -/

/-- What a call of a reader answers. -/
inductive Answer where
  | none
  | bool (value : Bool)
  | byte (value : Int8)
  | i16 (value : Int16)
  | i32 (value : Int32)
  | i64 (value : Int64)
  | float (bits : UInt32)
  | double (bits : UInt64)
  | binary (bytes : Bytes)
  | field (type : TType) (id : Int16)
  | map (key value : TType) (size : Nat)
  | list (elem : TType) (size : Nat)
deriving DecidableEq

/-- A call of a reader; `skip` is given the levels that are left. -/
inductive Call where
  | readBool
  | readByte
  | readI16
  | readI32
  | readI64
  | readFloat
  | readDouble
  | readBinary
  | readStructBegin
  | readStructEnd
  | readFieldBegin
  | readMapBegin
  | readMapEnd
  | readListBegin
  | readListEnd
  | readSetBegin
  | readSetEnd
  | skipBytes (n : Nat)
  | skip (levels : Nat) (type : TType)
deriving DecidableEq

namespace Call

variable {m : Type → Type} [Monad m]

/-- A call, where `skip` skips a value. -/
def run (calls : ReaderCalls m) (skip : Nat → TType → m Unit) : Call → m Answer
  | .readBool => Answer.bool <$> calls.readBool
  | .readByte => Answer.byte <$> calls.readByte
  | .readI16 => Answer.i16 <$> calls.readI16
  | .readI32 => Answer.i32 <$> calls.readI32
  | .readI64 => Answer.i64 <$> calls.readI64
  | .readFloat => Answer.float <$> calls.readFloat
  | .readDouble => Answer.double <$> calls.readDouble
  | .readBinary => Answer.binary <$> calls.readBinary
  | .readStructBegin => (fun _ => Answer.none) <$> calls.readStructBegin
  | .readStructEnd => (fun _ => Answer.none) <$> calls.readStructEnd
  | .readFieldBegin => (fun header => Answer.field header.1 header.2) <$> calls.readFieldBegin
  | .readMapBegin =>
    (fun header => Answer.map header.1 header.2.1 header.2.2) <$> calls.readMapBegin
  | .readMapEnd => (fun _ => Answer.none) <$> calls.readMapEnd
  | .readListBegin => (fun header => Answer.list header.1 header.2) <$> calls.readListBegin
  | .readListEnd => (fun _ => Answer.none) <$> calls.readListEnd
  | .readSetBegin => (fun header => Answer.list header.1 header.2) <$> calls.readSetBegin
  | .readSetEnd => (fun _ => Answer.none) <$> calls.readSetEnd
  | .skipBytes n => (fun _ => Answer.none) <$> calls.skipBytes n
  | .skip levels type => (fun _ => Answer.none) <$> skip levels type

/-- The answers to calls made one after the other. -/
def runAll (calls : ReaderCalls m) (skip : Nat → TType → m Unit) : List Call → m (List Answer)
  | [] => pure []
  | call :: rest => do
    let answer ← call.run calls skip
    let answers ← runAll calls skip rest
    pure (answer :: answers)

end Call

namespace Protocol

variable (p : Protocol)

/-- What the plain reader answers. -/
def plainRun (script : List Call) : ReadM (List Answer) :=
  Call.runAll p.plainCalls p.skipAt script

/-- What the refilling reader answers. -/
def refillRun (extra : Nat → Nat) (script : List Call) : RefillM (List Answer) :=
  Call.runAll (p.refillCalls extra) ((p.refillCalls extra).skip p) script

/-- What the careful reader answers. -/
def carefulRun (script : List Call) : CarefulM (List Answer) :=
  Call.runAll p.carefulCalls (p.carefulCalls.skip p) script

end Protocol

end FbThrift
