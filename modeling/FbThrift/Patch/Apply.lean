import FbThrift.Patch.Op

/-!
# Applying a patch

`ApplyPatch` of `Patch.cpp`: one overload for each type of value, chosen by the runtime
type of the value that is patched.  Every overload first checks the operations of the
patch and then, unless the patch assigns, runs its operations in a fixed order.

The source patches in place, so what it leaves behind when it throws is not modelled: a
patched value is the result of an `Except` computation.  `add_saturating` at the floating
point types is the parameter `FloatArith`.
-/

namespace FbThrift

open SortedMap

/-! ## Arithmetic -/

/-- The number a float stands for: the zeros and the NaNs of each are not told apart. -/
def canonFloat (bits : UInt32) : UInt32 :=
  if floatIsZero bits then 0
  else if 0x7f800000 < bits &&& 0x7fffffff then 0x7fc00000
  else bits

/-- The number a double stands for: the zeros and the NaNs of each are not told apart. -/
def canonDouble (bits : UInt64) : UInt64 :=
  if doubleIsZero bits then 0
  else if 0x7ff0000000000000 < bits &&& 0x7fffffffffffffff then 0x7ff8000000000000
  else bits

/-- `add_saturating` at the floating point types: adding a zero gives the same number. -/
structure FloatArith where
  addFloat : UInt32 → UInt32 → UInt32
  addDouble : UInt64 → UInt64 → UInt64
  addFloat_zero : ∀ x z, floatIsZero z = true → canonFloat (addFloat x z) = canonFloat x
  addDouble_zero : ∀ x z, doubleIsZero z = true → canonDouble (addDouble x z) = canonDouble x

/-- `add_saturating` at an integer type, whose numbers run from `lowest` to `highest`. -/
def addSaturating (lowest highest lhs rhs : Int) : Int :=
  if 0 < rhs ∧ highest - rhs < lhs then highest
  else if rhs < 0 ∧ lhs < lowest - rhs then lowest
  else lhs + rhs

def addByte (lhs rhs : Int8) : Int8 :=
  Int8.ofInt (addSaturating Int8.minValue.toInt Int8.maxValue.toInt lhs.toInt rhs.toInt)

def addI16 (lhs rhs : Int16) : Int16 :=
  Int16.ofInt (addSaturating Int16.minValue.toInt Int16.maxValue.toInt lhs.toInt rhs.toInt)

def addI32 (lhs rhs : Int32) : Int32 :=
  Int32.ofInt (addSaturating Int32.minValue.toInt Int32.maxValue.toInt lhs.toInt rhs.toInt)

def addI64 (lhs rhs : Int64) : Int64 :=
  Int64.ofInt (addSaturating Int64.minValue.toInt Int64.maxValue.toInt lhs.toInt rhs.toInt)

/-! ## What the overloads share -/

/-- The frame of an overload: the check of the operations, then `applyAssign`, and the other
operations `rest` only for a patch that does not assign. -/
def unlessAssigned {α : Type} (valueType : ValueType) (supportedOps : List PatchOp)
    (as : Value → Option α) (patch : Object) (rest : Except String α) : Except String α := do
  checkOps patch valueType supportedOps
  match findOp patch .assign with
  | some arg => argAs valueType as arg
  | none => rest

/-- The operation `Clear`. -/
def applyClear {α : Type} (zero : α) (patch : Object) (value : α) : Except String α :=
  match findOp patch .clear with
  | some clear => do
    let cleared ← argAs .bool Value.ifBool clear
    .ok (if cleared then zero else value)
  | none => .ok value

/-- One optional operation with its argument. -/
def applyOp {α : Type} (op : PatchOp) (patch : Object) (run : Value → α → Except String α)
    (value : α) : Except String α :=
  match findOp patch op with
  | some arg => run arg value
  | none => .ok value

/-! ## Scalars, lists and sets -/

/-- The overload for `bool`. -/
def applyBool (patch : Object) (value : Bool) : Except String Bool :=
  unlessAssigned .bool [.assign, .put, .clear] Value.ifBool patch <| do
    let cleared ← applyOp .clear patch (fun clear value => do
      let clear ← clear.asBool
      .ok (if clear then false else value)) value
    -- Put is Invert for bool.
    applyOp .put patch (fun invert value => do
      let invert ← argAs .bool Value.ifBool invert
      .ok (if invert then !value else value)) cleared

/-- `applyNumericPatch`. -/
def applyNumericPatch {α : Type} (valueType : ValueType) (as : Value → Option α) (zero : α)
    (add : α → α → α) (patch : Object) (value : α) : Except String α :=
  unlessAssigned valueType [.assign, .clear, .add] as patch <| do
    let cleared ← applyClear zero patch value
    applyOp .add patch (fun arg value => do
      let arg ← argAs valueType as arg
      .ok (add value arg)) cleared

/-- The overload for `IOBuf`: Add prepends and Put appends. -/
def applyBinary (patch : Object) (value : Bytes) : Except String Bytes :=
  unlessAssigned .binary [.assign, .clear, .add, .put] Value.ifBinary patch <| do
    let cleared ← applyClear [] patch value
    let prepended ← applyOp .add patch (fun prepend value => do
      let prepend ← argAs .binary Value.ifBinary prepend
      .ok (prepend ++ value)) cleared
    applyOp .put patch (fun append value => do
      let append ← argAs .binary Value.ifBinary append
      .ok (value ++ append)) prepended

/-- The overload for lists. -/
def applyList (patch : Object) (value : List Value) : Except String (List Value) :=
  unlessAssigned .list [.assign, .clear, .put] Value.ifList patch <| do
    let cleared ← applyClear [] patch value
    applyOp .put patch (fun append value =>
      match append.ifList with
      | some appendVector => .ok (value ++ appendVector)
      | none => .error "list put patch should contain a list") cleared

/-- `validate_if_set`. -/
def validateIfSet (name : String) (patchOp : Value) : Except String (List Value) :=
  match patchOp.ifSet with
  | some opData => .ok opData
  | none => .error s!"set {name} patch should contain a set"

def eraseElems (toErase value : List Value) : List Value :=
  toErase.foldl (fun value key => SortedSet.erase key value) value

def insertElems (toInsert value : List Value) : List Value :=
  toInsert.foldl (fun value key => SortedSet.insert key value) value

/-- The overload for sets. -/
def applySet (patch : Object) (value : List Value) : Except String (List Value) :=
  unlessAssigned .set [.assign, .clear, .add, .put, .remove] Value.ifSet patch <| do
    let cleared ← applyClear [] patch value
    let removed ← applyOp .remove patch (fun remove value => do
      let remove ← validateIfSet "remove" remove
      .ok (eraseElems remove value)) cleared
    let added ← applyOp .add patch (fun add value => do
      let add ← validateIfSet "add" add
      .ok (insertElems add value)) removed
    applyOp .put patch (fun put value => do
      let put ← validateIfSet "put" put
      .ok (insertElems put value)) added

/-! ## Maps and structs -/

section Keys

variable {K : Type} [Keyed K]

/-- `value.insert(begin, end)`: the keys that are present keep their values. -/
def insertEntries (entries value : List (K × Value)) : List (K × Value) :=
  entries.foldl (fun value e => emplace e.1 e.2 value) value

/-- `value.insert_or_assign` of every entry. -/
def assignEntries (entries value : List (K × Value)) : List (K × Value) :=
  entries.foldl (fun value e => insertOrAssign e.1 e.2 value) value

/-- `value.erase` of every key. -/
def eraseKeys (keys : List K) (value : List (K × Value)) : List (K × Value) :=
  keys.foldl (fun value key => erase key value) value

/-- `patchElements` and `applyFieldPatch`: patches the values of the keys that are present.
`apply` patches one of them with one of the patches. -/
def patchElements : (patches : List (K × Value)) →
    ((sub : Object) → (∃ k, (k, Value.object sub) ∈ patches) → Value → Except String Value) →
    List (K × Value) → Except String (List (K × Value))
  | [], _, value => .ok value
  | (k, fieldPatch) :: patches, apply, value =>
    let rest := patchElements patches fun sub member =>
      apply sub (member.imp fun _ => List.mem_cons_of_mem _)
    -- Only patch values for fields that exist for now.
    match find k value with
    | none => rest value
    | some field =>
      match fieldPatch, apply with
      | .object sub, apply => do
        let patched ← apply sub ⟨k, List.mem_cons_self⟩ field
        rest (insertOrAssign k patched value)
      | _, _ => .error badFieldAccess

end Keys

theorem sizeOf_lt_of_mem {K : Type} [SizeOf K] {k : K} {v : Value} {m : List (K × Value)}
    (member : (k, v) ∈ m) : sizeOf v < sizeOf m := by
  have entry := List.sizeOf_lt_of_mem member
  have value : sizeOf v < sizeOf (k, v) := by
    simp only [Prod.mk.sizeOf_spec]
    omega
  omega

theorem sizeOf_lt_of_findOp_map {patch sub : Object} {op : PatchOp}
    {patches : List (Value × Value)} (found : findOp patch op = some (.map patches))
    (member : ∃ k, (k, Value.object sub) ∈ patches) : sizeOf sub < sizeOf patch := by
  obtain ⟨k, member⟩ := member
  have inner := sizeOf_lt_of_mem member
  have outer := sizeOf_lt_of_mem (mem_of_find found)
  simp only [Value.object.sizeOf_spec] at inner
  simp only [Value.map.sizeOf_spec] at outer
  omega

theorem sizeOf_lt_of_findOp_object {patch sub : Object} {op : PatchOp}
    {patches : Object} (found : findOp patch op = some (.object patches))
    (member : ∃ k, (k, Value.object sub) ∈ patches) : sizeOf sub < sizeOf patch := by
  obtain ⟨k, member⟩ := member
  have inner := sizeOf_lt_of_mem member
  have outer := sizeOf_lt_of_mem (mem_of_find found)
  simp only [Value.object.sizeOf_spec] at inner
  simp only [Value.object.sizeOf_spec] at outer
  omega

/-- How the overloads for maps and structs patch what they contain. -/
abbrev ApplyBelow (patch : Object) : Type :=
  (sub : Object) → sizeOf sub < sizeOf patch → Value → Except String Value

/-- The operations PatchPrior and PatchAfter of a map patch. -/
def patchEntriesOp (op : PatchOp) (patch : Object) (apply : ApplyBelow patch)
    (value : List (Value × Value)) : Except String (List (Value × Value)) :=
  match found : findOp patch op with
  | none => .ok value
  | some (.map patches) =>
    patchElements patches (fun sub member => apply sub (sizeOf_lt_of_findOp_map found member)) value
  | some _ => .error "map patch/patchPrior patch should contain map"

/-- `validated_map`. -/
def validatedMap (name : String) (patchOp : Value) : Except String (List (Value × Value)) :=
  match patchOp.ifMap with
  | some opData => .ok opData
  | none => .error s!"map {name} patch should contain map"

/-- The operation EnsureStruct of a map patch: inserts a key/value pair into the map if the key
doesn't exist. -/
def ensureEntries (ensure : Value) (value : List (Value × Value)) :
    Except String (List (Value × Value)) := do
  let mapVal ← validatedMap "ensureStruct" ensure
  .ok (insertEntries mapVal value)

/-- The operation Remove of a map patch. -/
def removeEntries (remove : Value) (value : List (Value × Value)) :
    Except String (List (Value × Value)) :=
  match remove.ifSet with
  | some toRemove => .ok (eraseKeys toRemove value)
  | none => .error "map remove patch should contain set"

/-- The operation Put of a map patch. -/
def putEntries (put : Value) (value : List (Value × Value)) :
    Except String (List (Value × Value)) := do
  let entries ← validatedMap "put" put
  .ok (assignEntries entries value)

/-- The overload for maps. -/
def applyMap (patch : Object) (apply : ApplyBelow patch) (value : List (Value × Value)) :
    Except String (List (Value × Value)) :=
  unlessAssigned .map [.assign, .clear, .patchPrior, .ensureStruct, .put, .remove, .patchAfter]
      Value.ifMap patch <| do
    let cleared ← applyClear [] patch value
    let prior ← patchEntriesOp .patchPrior patch apply cleared
    let ensured ← applyOp .ensureStruct patch ensureEntries prior
    let removed ← applyOp .remove patch removeEntries ensured
    let put ← applyOp .put patch putEntries removed
    patchEntriesOp .patchAfter patch apply put

/-- The operations PatchPrior and PatchAfter of a struct patch. -/
def patchFieldsOp (op : PatchOp) (patch : Object) (apply : ApplyBelow patch) (value : Object) :
    Except String Object :=
  match found : findOp patch op with
  | none => .ok value
  | some (.object patches) =>
    patchElements patches (fun sub member => apply sub (sizeOf_lt_of_findOp_object found member))
      value
  | some _ => .error "struct patch PatchPrior/Patch should contain an object"

/-- The operation EnsureStruct of a struct patch. -/
def ensureStruct (sensure : Value) (value : Object) : Except String Object :=
  match sensure.ifObject with
  | some obj => .ok (insertEntries obj value)
  | none => .error "struct patch Ensure should contain an object"

/-- The operation EnsureUnion. -/
def ensureUnion (uensure : Value) (value : Object) : Except String Object :=
  match uensure.ifObject with
  | none => .error "union patch Ensure should contain an object"
  -- EnsureUnion is not optional and will contain an empty union by default.
  | some [] => .ok value
  | some [(id, field)] =>
    match find id value with
    | none => .ok [(id, field)]
    | some kept => .ok [(id, kept)]
  | some _ => .error "union patch Ensure should contain an object with only one field set"

/-- The field ids of the operation Remove of a struct patch. -/
def removedIds : List Value → Except String (List Int16)
  | [] => .ok []
  | .i16 id :: ids => do
    let ids ← removedIds ids
    .ok (id :: ids)
  | v :: _ =>
    .error <| "The `PatchOp::Remove` field in struct/union patch is not `set<i16>` but " ++
      s!"`set<{v.getType.name}>`"

/-- The elements of the operation Remove of a struct patch. -/
def removedElems : Value → Except String (List Value)
  | .set elems => .ok elems
  | .list elems => .ok elems
  | v =>
    .error <| "The `PatchOp::Remove` field in struct/union patch is not `set<i16>`/`list<i16>` " ++
      s!"but `{v.getType.name}`"

/-- The operation Remove of a struct patch. -/
def removeFields (toRemove : Value) (value : Object) : Except String Object := do
  let elems ← removedElems toRemove
  let ids ← removedIds elems
  .ok (eraseKeys ids value)

/-- An operation of AnyPatch, which the model leaves out. -/
def hasAnyOp (patch : Object) : Bool :=
  (findOp patch .patchIfTypeIsPrior).isSome || (findOp patch .ensureAny).isSome ||
    (findOp patch .patchIfTypeIsAfter).isSome

/-- The overload for structs and unions. -/
def applyStruct (patch : Object) (apply : ApplyBelow patch) (value : Object) :
    Except String Object :=
  unlessAssigned .object [.assign, .clear, .remove, .patchPrior, .ensureStruct, .ensureUnion,
      .patchAfter, .patchIfTypeIsPrior, .ensureAny, .patchIfTypeIsAfter] Value.ifObject patch <| do
    let cleared ← applyClear [] patch value
    let prior ← patchFieldsOp .patchPrior patch apply cleared
    let ensured ← applyOp .ensureStruct patch ensureStruct prior
    let united ← applyOp .ensureUnion patch ensureUnion ensured
    let after ← patchFieldsOp .patchAfter patch apply united
    let removed ← applyOp .remove patch removeFields after
    if hasAnyOp patch then .error "Failed to convert current object to AnyStruct" else .ok removed

/-! ## Values -/

/-- `applyPatch`: dispatches on the type of the value. -/
def applyPatch (fp : FloatArith) (patch : Object) (value : Value) : Except String Value :=
  match value with
  | .bool b => (applyBool patch b).map .bool
  | .byte n => (applyNumericPatch .byte Value.ifByte 0 addByte patch n).map .byte
  | .i16 n => (applyNumericPatch .i16 Value.ifI16 0 addI16 patch n).map .i16
  | .i32 n => (applyNumericPatch .i32 Value.ifI32 0 addI32 patch n).map .i32
  | .i64 n => (applyNumericPatch .i64 Value.ifI64 0 addI64 patch n).map .i64
  | .float n => (applyNumericPatch .float Value.ifFloat 0 fp.addFloat patch n).map .float
  | .double n => (applyNumericPatch .double Value.ifDouble 0 fp.addDouble patch n).map .double
  | .string s => (applyBinary patch s).map .string
  | .binary s => (applyBinary patch s).map .binary
  | .list vs => (applyList patch vs).map .list
  | .set vs => (applySet patch vs).map .set
  | .map es => (applyMap patch (fun sub _ v => applyPatch fp sub v) es).map .map
  | .object ms => (applyStruct patch (fun sub _ v => applyPatch fp sub v) ms).map .object
  | .empty => .error "Not Implemented type support."
termination_by sizeOf patch

end FbThrift
