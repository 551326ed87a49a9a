import FbThrift.Lib.Decoder
import FbThrift.Protocol.Value

/-!
# Protocol readers and writers

Wire types, and the state that `BinaryProtocolReader`, `CompactProtocolReader` and
their writers keep between calls.  The two protocols share one state type: the last
field ids and the pending boolean are used by Compact only, and Binary leaves them
alone.

Size limits of the readers are off by default and are left out.  The depth limit is
the gflag `thrift_protocol_max_depth`, which enters as the initial height.
-/

namespace FbThrift

/-- The protocols that the templates are instantiated with. -/
inductive Protocol where
  | binary
  | compact
  deriving DecidableEq, Repr

/-- `TType`: the enumerators and the other bytes a cast can produce. -/
inductive TType where
  | stop
  | void
  | bool
  | byte
  | double
  | i16
  | i32
  | u64
  | i64
  | string
  | struct
  | map
  | set
  | list
  | utf8
  | utf16
  | stream
  | float
  | other (code : UInt8)
  deriving DecidableEq, Repr

namespace TType

def toByte : TType → UInt8
  | stop => 0
  | void => 1
  | bool => 2
  | byte => 3
  | double => 4
  | i16 => 6
  | i32 => 8
  | u64 => 9
  | i64 => 10
  | string => 11
  | struct => 12
  | map => 13
  | set => 14
  | list => 15
  | utf8 => 16
  | utf16 => 17
  | stream => 18
  | float => 19
  | other code => code

/-- The cast `(TType)byte`. -/
def ofByte (b : UInt8) : TType :=
  match b.toNat with
  | 0 => stop
  | 1 => void
  | 2 => bool
  | 3 => byte
  | 4 => double
  | 6 => i16
  | 8 => i32
  | 9 => u64
  | 10 => i64
  | 11 => string
  | 12 => struct
  | 13 => map
  | 14 => set
  | 15 => list
  | 16 => utf8
  | 17 => utf16
  | 18 => stream
  | 19 => float
  | _ => other b

/-- `unifyStringType`. -/
def unifyStringType : TType → TType
  | utf8 => string
  | utf16 => string
  | type => type

end TType

/-- `getTType`: the wire type of a value, with strings unified. -/
def Value.getTType : Value → TType
  | .empty => .void
  | .bool _ => .bool
  | .byte _ => .byte
  | .i16 _ => .i16
  | .i32 _ => .i32
  | .i64 _ => .i64
  | .float _ => .float
  | .double _ => .double
  | .string _ => .string
  | .binary _ => .string
  | .object _ => .struct
  | .list _ => .list
  | .set _ => .set
  | .map _ => .map

/-! ## Exceptions -/

def exceededDepthLimit : String := "TProtocolException: Exceeded depth limit"
def negativeSize : String := "TProtocolException: Negative size"
def truncatedData : String :=
  "Not enough bytes to read the entire message, the data appears to be truncated"
def invalidFieldData : String := "The field stream contains corrupted data"
def exceededSizeLimit (size : Nat) : String :=
  s!"TProtocolException: {size} exceeds size limit 2147483647"
def invalidSkipType (type : TType) : String :=
  s!"Encountered invalid field/element type ({type.toByte.toNat}) during skipping"
def boolValueOutOfRange (byte : UInt8) : String :=
  s!"Attempt to interpret value {byte.toNat} as bool, probably the data is corrupted"
def badType (type : Nat) : String := s!"don't know what type: {type}"

/-! ## Readers -/

/-- The state of a reader. -/
structure Reader where
  /-- What the cursor has not read yet. -/
  input : Bytes
  /-- `height_`: one more than the levels of nesting that are left. -/
  height : Nat
  lastFieldId : Int16
  lastField : List Int16
  /-- `boolValue_`: the value of the boolean field whose header was read last. -/
  boolValue : Option Bool

abbrev ReadM (α : Type) := StateT Reader (Except String) α

/-- A reader at the start of a buffer. -/
def Reader.ofBytes (maxDepth : Nat) (buf : Bytes) : Reader where
  input := buf
  height := maxDepth + 1
  lastFieldId := 0
  lastField := []
  boolValue := none

/-- The reader with its cursor at `rest`. -/
def Reader.withInput (r : Reader) (rest : Bytes) : Reader := { r with input := rest }

@[simp] theorem Reader.input_withInput (r : Reader) (rest : Bytes) :
    (r.withInput rest).input = rest := rfl

@[simp] theorem Reader.height_withInput (r : Reader) (rest : Bytes) :
    (r.withInput rest).height = r.height := rfl

@[simp] theorem Reader.boolValue_withInput (r : Reader) (rest : Bytes) :
    (r.withInput rest).boolValue = r.boolValue := rfl

@[simp] theorem Reader.lastFieldId_withInput (r : Reader) (rest : Bytes) :
    (r.withInput rest).lastFieldId = r.lastFieldId := rfl

@[simp] theorem Reader.withInput_withInput (r : Reader) (a b : Bytes) :
    (r.withInput a).withInput b = r.withInput b := rfl

@[simp] theorem Reader.withInput_input (r : Reader) : r.withInput r.input = r := rfl

/-- Runs a decoder on the cursor. -/
def ReadM.decode {α : Type} (x : Decoder α) : ReadM α := fun r =>
  match x r.input with
  | .ok (a, rest) => .ok (a, r.withInput rest)
  | .error err => .error err

/-- The reader one level further down. -/
def Reader.down (r : Reader) : Reader := { r with height := r.height - 1 }

@[simp] theorem Reader.height_down (r : Reader) : r.down.height = r.height - 1 := rfl

@[simp] theorem Reader.input_down (r : Reader) : r.down.input = r.input := rfl

@[simp] theorem Reader.boolValue_down (r : Reader) : r.down.boolValue = r.boolValue := rfl

def ReadM.descend : ReadM Unit := fun r =>
  if r.height - 1 = 0 then .error exceededDepthLimit else .ok ((), r.down)

def ReadM.ascend : ReadM Unit := fun r => .ok ((), { r with height := r.height + 1 })

/-- The check of a container's size, then its cast to unsigned. -/
def ReadM.checkContainerSize (size : Int32) : ReadM Nat :=
  if size < 0 then throw negativeSize else pure size.toInt.toNat

/-- `canReadNElements`: each of `n` tuples of `types` elements takes a byte an element. -/
def ReadM.canReadNElements (n types : Nat) : ReadM Bool := fun r =>
  .ok (decide (n * types ≤ r.input.length), r)

/-! ## Writers -/

/-- The state of a writer. -/
structure Writer where
  out : Bytes
  /-- `height_`: one more than the levels of nesting that are left. -/
  height : Nat
  lastFieldId : Int16
  lastField : List Int16
  /-- `booleanField_`: the id of a boolean field whose header is still to be written. -/
  booleanField : Option Int16

abbrev WriteM := StateT Writer (Except String) Unit

def Writer.new (maxDepth : Nat) : Writer where
  out := []
  height := maxDepth + 1
  lastFieldId := 0
  lastField := []
  booleanField := none

def Writer.append (w : Writer) (bs : Bytes) : Writer := { w with out := w.out ++ bs }

@[simp] theorem Writer.height_append (w : Writer) (bs : Bytes) :
    (w.append bs).height = w.height := rfl

@[simp] theorem Writer.booleanField_append (w : Writer) (bs : Bytes) :
    (w.append bs).booleanField = w.booleanField := rfl

@[simp] theorem Writer.lastFieldId_append (w : Writer) (bs : Bytes) :
    (w.append bs).lastFieldId = w.lastFieldId := rfl

@[simp] theorem Writer.append_nil (w : Writer) : w.append [] = w := by
  simp [Writer.append]

@[simp] theorem Writer.append_append (w : Writer) (bs cs : Bytes) :
    (w.append bs).append cs = w.append (bs ++ cs) := by
  simp [Writer.append]

/-- Appends bytes to the queue. -/
def WriteM.push (bs : Bytes) : WriteM := fun w => .ok ((), w.append bs)

/-- The writer one level further down. -/
def Writer.down (w : Writer) : Writer := { w with height := w.height - 1 }

@[simp] theorem Writer.height_down (w : Writer) : w.down.height = w.height - 1 := rfl

@[simp] theorem Writer.booleanField_down (w : Writer) : w.down.booleanField = w.booleanField := rfl

def WriteM.descend : WriteM := fun w =>
  if w.height - 1 = 0 then .error exceededDepthLimit else .ok ((), w.down)

def WriteM.ascend : WriteM := fun w => .ok ((), { w with height := w.height + 1 })

/-- `checkBinarySize`: nothing over 2GB is written. -/
def WriteM.checkBinarySize (size : Nat) : WriteM :=
  if size > 2147483647 then throw (exceededSizeLimit size) else pure ()

end FbThrift
