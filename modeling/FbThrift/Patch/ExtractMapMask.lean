import FbThrift.Patch.WriteMask

/-!
# The masks of a patch along a path

`extractMapMaskFromPatch_DO_NOT_USE` follows a single path, given as a mask, through the
patches of PatchPrior and PatchAfter, and returns the masks of what it finds at the end.  It
looks at the operations of the patches on its way by itself: an Assign, a Clear or a Remove
ends the walk, and `extractMaskFromPatch` runs at the end of the path only, where the patch is
taken to be one of a map.
-/

namespace FbThrift

open SortedMap Mask

/-! ## A single path -/

/-- The key that a level of a single path has, with the mask below it. -/
def singleEntry {K : Type} : List (K × Mask) → Except String (K × Mask)
  | [] => .error "The terminal path is not indicated with allMask."
  | [e] => .ok e
  | _ :: _ :: _ => .error "Field mask expresses more than one path."

theorem singleEntry_eq {K : Type} {map : List (K × Mask)} {e : K × Mask}
    (single : singleEntry map = .ok e) : map = [e] := by
  match map, single with
  | [e'], single => rw [Except.ok.inj single]

theorem sizeOf_lt_of_singleEntry {K : Type} [SizeOf K] {map : List (K × Mask)} {e : K × Mask}
    (single : singleEntry map = .ok e) : sizeOf e.2 < sizeOf map := by
  obtain ⟨k, below⟩ := e
  rw [singleEntry_eq single]
  exact Mask.sizeOf_lt_of_mem List.mem_cons_self

/-- `validateSinglePath`. -/
def validateSinglePath (mask : Mask) : Except String Unit :=
  if mask.isAllMask then .ok ()
  else if !mask.isInclusive then .error "Field mask should not contain any exclusive mask."
  else match mask with
    | .empty => .error "Invalid mask to represent a single path."
    | .fields _ map =>
      match _single : singleEntry map with
      | .ok e => validateSinglePath e.2
      | .error err => .error err
    | .mapIds _ map =>
      match _single : singleEntry map with
      | .ok e => validateSinglePath e.2
      | .error err => .error err
    | .stringKeys _ map =>
      match _single : singleEntry map with
      | .ok e => validateSinglePath e.2
      | .error err => .error err
    | .types _ map =>
      match _single : singleEntry map with
      | .ok e => validateSinglePath e.2
      | .error err => .error err
termination_by sizeOf mask
decreasing_by
  all_goals
    have := sizeOf_lt_of_singleEntry _single
    simp
    omega

/-! ## Keys in the type of a map -/

/-- `getValueAs` at a `MapId`. -/
def getMapIdAs (id : Int64) : Value → Except String Value
  | .byte _ =>
    if id > Int8.maxValue.toInt64 || id < Int8.minValue.toInt64 then
      .error "MapId overflows the provided type."
    else .ok (.byte id.toInt8)
  | .i16 _ =>
    if id > Int16.maxValue.toInt64 || id < Int16.minValue.toInt64 then
      .error "MapId overflows the provided type."
    else .ok (.i16 id.toInt16)
  | .i32 _ =>
    if id > Int32.maxValue.toInt64 || id < Int32.minValue.toInt64 then
      .error "MapId overflows the provided type."
    else .ok (.i32 id.toInt32)
  | .i64 _ => .ok (.i64 id)
  | _ => .error "Provided value contains a non-integer."

/-- `getValueAs` at a string. -/
def getStringAs (key : Bytes) : Value → Except String Value
  | .binary _ => .ok (.binary key)
  | .string _ => .ok (.string key)
  | _ => .error "Provided value contains a non-string."

/-! ## Arguments of operations -/

/-- `as_list`. -/
def Value.asList : Value → Except String (List Value)
  | .list vs => .ok vs
  | _ => .error badFieldAccess

/-- `as_set`. -/
def Value.asSet : Value → Except String (List Value)
  | .set vs => .ok vs
  | _ => .error badFieldAccess

/-- `as_map`. -/
def Value.asMap : Value → Except String (List (Value × Value))
  | .map es => .ok es
  | _ => .error badFieldAccess

/-! ## Extraction -/

/-- `extractMaskFromPatch` with its parameter `isMap`, which only the outermost patch is given:
a Remove is then known to be the one of a map. -/
def extractMaskFromPatchAs (isMap : Bool) (patch : Object) :
    Except String ExtractedMasksFromPatch :=
  if (findOp patch .assign).isSome then .ok ⟨noneMask, allMask⟩
  else if hasNonDefault patch .add || putsWhole patch then .ok wholeMasks
  else do
    let put ← insertPut patch (clearMasks patch)
    let prior ← insertSubpatches .patchPrior patch (fun sub _ => extractMaskFromPatch sub) put
    let after ← insertSubpatches .patchAfter patch (fun sub _ => extractMaskFromPatch sub) prior
    let ensured ← insertEnsureStruct patch after
    let united ← insertEnsureUnion patch ensured
    if removesWhole patch && !isMap then .ok wholeMasks
    else do
      let removed ← insertRemove patch united
      if hasAnyOp patch then .error "Invalid AnyStruct"
      else ensureRWMaskInvariant removed

theorem extractMaskFromPatchAs_false (patch : Object) :
    extractMaskFromPatchAs false patch = extractMaskFromPatch patch := by
  rw [extractMaskFromPatch, extractMaskFromPatchAs]
  simp only [Bool.not_false, Bool.and_true]

/-- The operator `|` on the masks of two patches. -/
def ExtractedMasksFromPatch.union (lhs rhs : ExtractedMasksFromPatch) :
    Except String ExtractedMasksFromPatch := do
  let read ← lhs.read.union rhs.read
  let write ← lhs.write.union rhs.write
  .ok ⟨read, write⟩

/-- Neither reads nor writes. -/
def noMasks : ExtractedMasksFromPatch := ⟨noneMask, noneMask⟩

/-- Writes without reading. -/
def overwritten : ExtractedMasksFromPatch := ⟨noneMask, allMask⟩

/-- What a patch of PatchPrior or PatchAfter adds to the masks. -/
def addBelow (extract : Object → Except String ExtractedMasksFromPatch) (patch : Value)
    (rwmask : ExtractedMasksFromPatch) : Except String ExtractedMasksFromPatch := do
  let sub ← patch.asObject
  let below ← extract sub
  rwmask.union below

/-- What EnsureStruct makes of the masks. -/
def addEnsured (_ : Value) (rwmask : ExtractedMasksFromPatch) :
    Except String ExtractedMasksFromPatch := do
  let read ← rwmask.read.inter allMask
  let write ← rwmask.write.inter allMask
  .ok ⟨read, write⟩

/-- An operation of a struct patch, when it has the field. -/
def visitField (op : PatchOp) (patch : Object) (id : Int16)
    (found : Value → ExtractedMasksFromPatch → Except String ExtractedMasksFromPatch)
    (rwmask : ExtractedMasksFromPatch) : Except String ExtractedMasksFromPatch :=
  match findOp patch op with
  | none => .ok rwmask
  | some arg => do
    let fields ← arg.asObject
    match find id fields with
    | some v => found v rwmask
    | none => .ok rwmask

/-- The masks of a map patch so far, and the key once the type of the keys is known. -/
structure KeyedMasks where
  key : Option Value
  rwmask : ExtractedMasksFromPatch

/-- The key in the type of the keys: the first map that is not empty settles the type. -/
def KeyedMasks.keyLike (masks : KeyedMasks) (getValueAs : Value → Except String Value)
    (first : Value) : Except String Value :=
  match masks.key with
  | some key => .ok key
  | none => getValueAs first

/-- An operation of a map patch, when it has the key. -/
def visitKey (op : PatchOp) (patch : Object) (getValueAs : Value → Except String Value)
    (found : Value → ExtractedMasksFromPatch → Except String ExtractedMasksFromPatch)
    (masks : KeyedMasks) : Except String KeyedMasks :=
  match findOp patch op with
  | none => .ok masks
  | some arg => do
    match ← arg.asMap with
    | [] => .ok masks
    | (first, v) :: map => do
      let key ← masks.keyLike getValueAs first
      match find key ((first, v) :: map) with
      | some v => do
        let rwmask ← found v masks.rwmask
        .ok ⟨some key, rwmask⟩
      | none => .ok ⟨some key, masks.rwmask⟩

/-- Remove in a map patch: does it have the key? -/
def removesKey (patch : Object) (getValueAs : Value → Except String Value) : Except String Bool :=
  match findOp patch .remove with
  | none => .ok false
  | some arg => do
    match ← arg.asSet with
    | [] => .ok false
    | first :: set => do
      let key ← getValueAs first
      .ok (decide (key ∈ first :: set))

/-- Remove in a struct patch: does it have the field? -/
def removesField (patch : Object) (id : Int16) : Except String Bool :=
  match findOp patch .remove with
  | none => .ok false
  | some arg => do
    let ids ← arg.asList
    .ok (decide (Value.i16 id ∈ ids))

/-- `extractMapMaskFromPatchMapImpl`; `getValueAs` is the key `k` and `extract` goes on with
the mask below it. -/
def extractMapMaskFromPatchMapImpl (patch : Object) (getValueAs : Value → Except String Value)
    (extract : Object → Except String ExtractedMasksFromPatch) :
    Except String ExtractedMasksFromPatch := do
  if ← removesKey patch getValueAs then .ok overwritten
  else do
    let put ← visitKey .put patch getValueAs (fun _ _ => .ok overwritten) ⟨none, noMasks⟩
    let prior ← visitKey .patchPrior patch getValueAs (addBelow extract) put
    let after ← visitKey .patchAfter patch getValueAs (addBelow extract) prior
    let ensured ← visitKey .ensureStruct patch getValueAs addEnsured after
    .ok ensured.rwmask

/-- The branch of `extractMapMaskFromPatchImpl` at a field. -/
def extractFieldMask (patch : Object) (id : Int16)
    (extract : Object → Except String ExtractedMasksFromPatch) :
    Except String ExtractedMasksFromPatch := do
  if ← removesField patch id then .ok overwritten
  else do
    let prior ← visitField .patchPrior patch id (addBelow extract) noMasks
    let after ← visitField .patchAfter patch id (addBelow extract) prior
    visitField .ensureStruct patch id addEnsured after

/-- Assign and a Clear that is not the default end the walk. -/
def clears (patch : Object) : Bool :=
  (findOp patch .assign).isSome || hasNonDefault patch .clear

/-- `extractMapMaskFromPatchImpl`. -/
def extractMapMaskFromPatchImpl (patch : Object) (mask : Mask) :
    Except String ExtractedMasksFromPatch :=
  if mask.isAllMask then extractMaskFromPatchAs true patch
  else if clears patch then .ok overwritten
  else match mask with
    | .includes ((id, below) :: _) =>
      extractFieldMask patch id fun sub => extractMapMaskFromPatchImpl sub below
    | .includesMap ((k, below) :: _) =>
      extractMapMaskFromPatchMapImpl patch (getMapIdAs k) fun sub =>
        extractMapMaskFromPatchImpl sub below
    | .includesStringMap ((k, below) :: _) =>
      extractMapMaskFromPatchMapImpl patch (getStringAs k) fun sub =>
        extractMapMaskFromPatchImpl sub below
    | .includesType _ => .error "not implemented"
    | _ => .error "Invalid mask"
termination_by sizeOf mask

/-- `extractMapMaskFromPatch_DO_NOT_USE`. -/
def extractMapMaskFromPatch (patch : Object) (mask : Mask) :
    Except String ExtractedMasksFromPatch := do
  validateSinglePath mask
  extractMapMaskFromPatchImpl patch mask

end FbThrift
