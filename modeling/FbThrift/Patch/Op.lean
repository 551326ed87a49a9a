import FbThrift.Mask.Basic
import FbThrift.Protocol.RoundTrip

/-!
# Patch operations

A patch is an object whose field ids are the enumerators of `PatchOp`.  This module has
the helpers that `Patch.cpp` reads patches with: lookups of operations, the checks of
which operations a type supports, and conversions of their arguments.

The AnyPatch operations `PatchIfTypeIsPrior`, `EnsureAny` and `PatchIfTypeIsAfter` go through
the type registry and are outside of the model.
-/

namespace FbThrift

open SortedMap

/-- The enum `PatchOp`. -/
inductive PatchOp where
  | unspecified
  | assign
  | clear
  | patchPrior
  | ensureUnion
  | ensureStruct
  | patchAfter
  | remove
  | add
  | put
  | patchIfTypeIsPrior
  | ensureAny
  | patchIfTypeIsAfter
  deriving DecidableEq, Repr

namespace PatchOp

def all : List PatchOp :=
  [unspecified, assign, clear, patchPrior, ensureUnion, ensureStruct, patchAfter, remove, add, put,
    patchIfTypeIsPrior, ensureAny, patchIfTypeIsAfter]

def id : PatchOp → Int16
  | unspecified => 0
  | assign => 1
  | clear => 2
  | patchPrior => 3
  | ensureUnion => 4
  | ensureStruct => 5
  | patchAfter => 6
  | remove => 7
  | add => 8
  | put => 9
  | patchIfTypeIsPrior => 10
  | ensureAny => 11
  | patchIfTypeIsAfter => 12

/-- `enumName`. -/
def name : PatchOp → String
  | unspecified => "Unspecified"
  | assign => "Assign"
  | clear => "Clear"
  | patchPrior => "PatchPrior"
  | ensureUnion => "EnsureUnion"
  | ensureStruct => "EnsureStruct"
  | patchAfter => "PatchAfter"
  | remove => "Remove"
  | add => "Add"
  | put => "Put"
  | patchIfTypeIsPrior => "PatchIfTypeIsPrior"
  | ensureAny => "EnsureAny"
  | patchIfTypeIsAfter => "PatchIfTypeIsAfter"

end PatchOp

/-- The enum `Value::Type`. -/
inductive ValueType where
  | empty
  | bool
  | byte
  | i16
  | i32
  | i64
  | float
  | double
  | string
  | binary
  | object
  | list
  | set
  | map
  deriving DecidableEq, Repr

def ValueType.name : ValueType → String
  | empty => "__EMPTY__"
  | bool => "boolValue"
  | byte => "byteValue"
  | i16 => "i16Value"
  | i32 => "i32Value"
  | i64 => "i64Value"
  | float => "floatValue"
  | double => "doubleValue"
  | string => "stringValue"
  | binary => "binaryValue"
  | object => "objectValue"
  | list => "listValue"
  | set => "setValue"
  | map => "mapValue"

def Value.getType : Value → ValueType
  | .empty => .empty
  | .bool _ => .bool
  | .byte _ => .byte
  | .i16 _ => .i16
  | .i32 _ => .i32
  | .i64 _ => .i64
  | .float _ => .float
  | .double _ => .double
  | .string _ => .string
  | .binary _ => .binary
  | .object _ => .object
  | .list _ => .list
  | .set _ => .set
  | .map _ => .map

def badFieldAccess : String := "bad field access"

/-- `as_object`. -/
def Value.asObject : Value → Except String Object
  | .object ms => .ok ms
  | _ => .error badFieldAccess

/-- `as_bool`. -/
def Value.asBool : Value → Except String Bool
  | .bool b => .ok b
  | _ => .error badFieldAccess

/-- `as_i16`. -/
def Value.asI16 : Value → Except String Int16
  | .i16 n => .ok n
  | _ => .error badFieldAccess

/-! ## Reading a patch -/

/-- `findOp`. -/
def findOp (patch : Object) (op : PatchOp) : Option Value := find op.id patch

/-- `checkNotSafePatch`: a version and data in the fields of a safe patch. -/
def checkNotSafePatch (patch : Object) : Except String Unit :=
  match find 1 patch, find 2 patch with
  | some (.i32 _), some (.binary _) =>
    .error "Safe Patch provided. Use `fromSafePatch` to convert to Dynamic Patch first."
  | _, _ => .ok ()

/-- `toOp`. -/
def toOp (id : Int16) : Except String PatchOp :=
  match PatchOp.all.find? fun op => op.id == id with
  | some op => .ok op
  | none => .error s!"Unknown operation id found in patch object: {id.toInt}"

/-- The check of one field of a patch. -/
def checkOp (valueType : ValueType) (supportedOps : List PatchOp) (id : Int16) : Except String Unit := do
  let op ← toOp id
  if op ∈ supportedOps then .ok ()
  else .error s!"Unsupported op: {op.name}({valueType.name})"

def checkEach (valueType : ValueType) (supportedOps : List PatchOp) : Object → Except String Unit
  | [] => .ok ()
  | (id, _) :: patch => do
    checkOp valueType supportedOps id
    checkEach valueType supportedOps patch

/-- `checkOps`: every operation of the patch is among the supported ones. -/
def checkOps (patch : Object) (valueType : ValueType) (supportedOps : List PatchOp) :
    Except String Unit := do
  checkNotSafePatch patch
  checkEach valueType supportedOps patch

/-- `argAs`: the argument of an operation, when it has the expected type. -/
def argAs {α : Type} (expected : ValueType) (as : Value → Option α) (value : Value) :
    Except String α :=
  match as value with
  | some a => .ok a
  | none =>
    .error s!"Unexpected type in the patch. Expected {expected.name} got {value.getType.name}"

def Value.ifBool : Value → Option Bool
  | .bool b => some b
  | _ => none

def Value.ifByte : Value → Option Int8
  | .byte n => some n
  | _ => none

def Value.ifI16 : Value → Option Int16
  | .i16 n => some n
  | _ => none

def Value.ifI32 : Value → Option Int32
  | .i32 n => some n
  | _ => none

def Value.ifI64 : Value → Option Int64
  | .i64 n => some n
  | _ => none

def Value.ifFloat : Value → Option UInt32
  | .float n => some n
  | _ => none

def Value.ifDouble : Value → Option UInt64
  | .double n => some n
  | _ => none

def Value.ifBinary : Value → Option Bytes
  | .binary s => some s
  | _ => none

def Value.ifList : Value → Option (List Value)
  | .list vs => some vs
  | _ => none

def Value.ifSet : Value → Option (List Value)
  | .set vs => some vs
  | _ => none

def Value.ifMap : Value → Option (List (Value × Value))
  | .map es => some es
  | _ => none

def Value.ifObject : Value → Option Object
  | .object ms => some ms
  | _ => none

/-! ## Intrinsic defaults -/

/-- Both zeros of a float. -/
def floatIsZero (bits : UInt32) : Bool := bits == 0 || bits == 0x80000000

/-- Both zeros of a double. -/
def doubleIsZero (bits : UInt64) : Bool := bits == 0 || bits == 0x8000000000000000

mutual

/-- `isIntrinsicDefault`. -/
def isIntrinsicDefault : Value → Bool
  | .empty => true
  | .bool b => !b
  | .byte n => n == 0
  | .i16 n => n == 0
  | .i32 n => n == 0
  | .i64 n => n == 0
  | .float n => floatIsZero n
  | .double n => doubleIsZero n
  | .string s => s.isEmpty
  | .binary s => s.isEmpty
  | .list vs => vs.isEmpty
  | .set vs => vs.isEmpty
  | .map es => es.isEmpty
  | .object ms => areIntrinsicDefaults ms

def areIntrinsicDefaults : List (Int16 × Value) → Bool
  | [] => true
  | (_, v) :: ms => isIntrinsicDefault v && areIntrinsicDefaults ms

end

/-! ## Keys of maps -/

/-- `ArrayKey`. -/
inductive ArrayKey where
  | integer
  | string
  deriving DecidableEq, Repr

/-- `getArrayKeyFromValue`. -/
def getArrayKeyFromValue : Value → Except String ArrayKey
  | .byte _ => .ok .integer
  | .i16 _ => .ok .integer
  | .i32 _ => .ok .integer
  | .i64 _ => .ok .integer
  | .binary _ => .ok .string
  | .string _ => .ok .string
  | _ => .error "Value contains a non-integer or non-string key."

/-- `getMapIdFromValue`. -/
def getMapIdFromValue : Value → Except String Int64
  | .byte n => .ok n.toInt64
  | .i16 n => .ok n.toInt64
  | .i32 n => .ok n.toInt64
  | .i64 n => .ok n
  | _ => .error "Value contains a non-integer key."

/-- `getStringFromValue`. -/
def getStringFromValue : Value → Except String Bytes
  | .binary s => .ok s
  | .string s => .ok s
  | _ => .error "Value contains a non-string key."

end FbThrift
