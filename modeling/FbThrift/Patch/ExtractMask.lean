import FbThrift.Mask.Algebra
import FbThrift.Patch.Apply

/-!
# The masks of a patch

`extractMaskFromPatch` computes two masks from a patch alone: `read` selects what the patch
has to read of a value and `write` what it may change.  The masks start as `noneMask` and
every operation of the patch inserts its fields or keys into them, with the helpers of
`detail/Patch.h`.
-/

namespace FbThrift

open SortedMap

namespace Mask

/-! ## Equality of masks -/

mutual

def decEq : (a b : Mask) → Decidable (a = b)
  | .empty, .empty => isTrue rfl
  | .fields e m, .fields e' m' =>
    have := decEqFields m m'
    decidable_of_iff (e = e' ∧ m = m') (by simp)
  | .mapIds e m, .mapIds e' m' =>
    have := decEqMapIds m m'
    decidable_of_iff (e = e' ∧ m = m') (by simp)
  | .stringKeys e m, .stringKeys e' m' =>
    have := decEqStringKeys m m'
    decidable_of_iff (e = e' ∧ m = m') (by simp)
  | .types e m, .types e' m' =>
    have := decEqTypes m m'
    decidable_of_iff (e = e' ∧ m = m') (by simp)
  | .empty, .fields .. | .empty, .mapIds .. | .empty, .stringKeys .. | .empty, .types ..
  | .fields .., .empty | .fields .., .mapIds .. | .fields .., .stringKeys .. | .fields .., .types ..
  | .mapIds .., .empty | .mapIds .., .fields .. | .mapIds .., .stringKeys .. | .mapIds .., .types ..
  | .stringKeys .., .empty | .stringKeys .., .fields .. | .stringKeys .., .mapIds ..
  | .stringKeys .., .types ..
  | .types .., .empty | .types .., .fields .. | .types .., .mapIds .. | .types .., .stringKeys .. =>
    isFalse nofun

def decEqFields : (a b : List (Int16 × Mask)) → Decidable (a = b)
  | [], [] => isTrue rfl
  | [], _ :: _ | _ :: _, [] => isFalse nofun
  | (k, m) :: a, (k', m') :: b =>
    have := decEq m m'
    have := decEqFields a b
    decidable_of_iff ((k = k' ∧ m = m') ∧ a = b) (by simp)

def decEqMapIds : (a b : List (Int64 × Mask)) → Decidable (a = b)
  | [], [] => isTrue rfl
  | [], _ :: _ | _ :: _, [] => isFalse nofun
  | (k, m) :: a, (k', m') :: b =>
    have := decEq m m'
    have := decEqMapIds a b
    decidable_of_iff ((k = k' ∧ m = m') ∧ a = b) (by simp)

def decEqStringKeys : (a b : List (Bytes × Mask)) → Decidable (a = b)
  | [], [] => isTrue rfl
  | [], _ :: _ | _ :: _, [] => isFalse nofun
  | (k, m) :: a, (k', m') :: b =>
    have := decEq m m'
    have := decEqStringKeys a b
    decidable_of_iff ((k = k' ∧ m = m') ∧ a = b) (by simp)

def decEqTypes : (a b : List (FullType × Mask)) → Decidable (a = b)
  | [], [] => isTrue rfl
  | [], _ :: _ | _ :: _, [] => isFalse nofun
  | (k, m) :: a, (k', m') :: b =>
    have := decEq m m'
    have := decEqTypes a b
    decidable_of_iff ((k = k' ∧ m = m') ∧ a = b) (by simp)

end

instance : DecidableEq Mask := decEq

end Mask

open Mask

/-! ## Inserting into a mask -/

/-- The member of the union `Mask` that holds the included keys of one kind. -/
structure IncludesRef (K : Type) where
  get : Mask → Option (List (K × Mask))
  wrap : List (K × Mask) → Mask

/-- `mask.includes()`. -/
def fieldsRef : IncludesRef Int16 where
  get
    | .includes map => some map
    | _ => none
  wrap := .includes

/-- `mask.includes_map()`. -/
def mapIdsRef : IncludesRef Int64 where
  get
    | .includesMap map => some map
    | _ => none
  wrap := .includesMap

/-- `mask.includes_string_map()`. -/
def stringKeysRef : IncludesRef Bytes where
  get
    | .includesStringMap map => some map
    | _ => none
  wrap := .includesStringMap

namespace IncludesRef

variable {K : Type} [Keyed K] (ref : IncludesRef K)

/-- `ensure()`: the map of the member, an empty one when another member is set. -/
def ensure (mask : Mask) : List (K × Mask) := (ref.get mask).getD []

/-- `ensure().emplace(id, allMask())`. -/
def emplaceAll (id : K) (mask : Mask) : Mask := ref.wrap (emplace id allMask (ref.ensure mask))

end IncludesRef

/-- `insertFieldsToMask`. -/
def insertFieldsToMask (ids : List Int16) (mask : Mask) : Mask :=
  ids.foldl (fun mask id => fieldsRef.emplaceAll id mask) mask

/-- `insertFieldsToMaskIfNotAllMask` at the fields of an object. -/
def insertFieldsToMaskIfNotAllMask (ids : List Int16) (mask : Mask) : Mask :=
  if mask.isAllMask then mask else insertFieldsToMask ids mask

/-- One key of `insertKeysToMask`. -/
def insertKeyToMask (v : Value) (mask : Mask) : Except String Mask := do
  match ← getArrayKeyFromValue v with
  | .integer => do
    let id ← getMapIdFromValue v
    .ok (mapIdsRef.emplaceAll id mask)
  | .string => do
    let key ← getStringFromValue v
    .ok (stringKeysRef.emplaceAll key mask)

/-- `insertKeysToMask`. -/
def insertKeysToMask : List Value → Mask → Except String Mask
  | [], mask => .ok mask
  | v :: keys, mask => do
    let inserted ← insertKeyToMask v mask
    insertKeysToMask keys inserted

/-- `insertKeysToMaskIfNotAllMask`. -/
def insertKeysToMaskIfNotAllMask (keys : List Value) (mask : Mask) : Except String Mask :=
  if mask.isAllMask then .ok mask else insertKeysToMask keys mask

/-- `insertMaskUnion`: skips if `mask` is `allMask` or `next` is `noneMask`. -/
def insertMaskUnion {K : Type} [Keyed K] (ref : IncludesRef K) (mask : Mask) (id : K)
    (next : Mask) : Except String Mask :=
  if mask.isAllMask || next.isNoneMask then .ok mask
  else do
    let map := emplace id noneMask (ref.ensure mask)
    let current ← (MaskRef.getMask map id).union next
    .ok (ref.wrap (insertOrAssign id current map))

/-- `ExtractedMasksFromPatch`. -/
structure ExtractedMasksFromPatch where
  /-- Read mask from patch. -/
  read : Mask
  /-- Write mask from patch. -/
  write : Mask
  deriving DecidableEq

/-- `insertNextMask`. -/
def insertNextMask {K : Type} [Keyed K] (ref : IncludesRef K)
    (masks next : ExtractedMasksFromPatch) (id : K) : Except String ExtractedMasksFromPatch := do
  let read ← insertMaskUnion ref masks.read id next.read
  let write ← insertMaskUnion ref masks.write id next.write
  .ok ⟨read, write⟩

/-- `ensureRWMaskInvariant`: the read mask is a subset of the write mask, or equal to it. -/
def ensureRWMaskInvariant (masks : ExtractedMasksFromPatch) :
    Except String ExtractedMasksFromPatch := do
  let both ← masks.read.union masks.write
  if both = masks.write then .ok masks else .ok ⟨masks.write, masks.write⟩

/-! ## The operations of a patch -/

/-- An operation whose argument is not the intrinsic default. -/
def hasNonDefault (patch : Object) (op : PatchOp) : Bool :=
  match findOp patch op with
  | some arg => !isIntrinsicDefault arg
  | none => false

/-- An operation whose argument is a map. -/
def hasMap (patch : Object) (op : PatchOp) : Bool :=
  match findOp patch op with
  | some (.map _) => true
  | _ => false

/-- `isMap`: an operation that tells a map patch from a set patch. -/
def isMapPatch (patch : Object) : Bool :=
  hasMap patch .put || hasMap patch .patchPrior || hasMap patch .patchAfter ||
    hasMap patch .ensureStruct

/-- A Put that is not a map reads and writes the whole value. -/
def putsWhole (patch : Object) : Bool :=
  !hasMap patch .put && hasNonDefault patch .put

/-- A Remove that cannot be told to be the one of a set or of a map. -/
def removesWhole (patch : Object) : Bool :=
  match findOp patch .remove with
  | some (.list _) => false
  | _ => hasNonDefault patch .remove && !isMapPatch patch

/-- How the masks of the patches below are extracted. -/
abbrev ExtractBelow (patch : Object) : Type :=
  (sub : Object) → sizeOf sub < sizeOf patch → Except String ExtractedMasksFromPatch

/-- The loops of `insertNextFieldsToMask` and `insertNextMapItemsToMask`; `insert` is what
they do with one key and the masks of its patch. -/
def insertNextToMask {K : Type} : (patches : List (K × Value)) →
    ((sub : Object) → (∃ k, (k, Value.object sub) ∈ patches) →
      Except String ExtractedMasksFromPatch) →
    (K → ExtractedMasksFromPatch → ExtractedMasksFromPatch →
      Except String ExtractedMasksFromPatch) →
    ExtractedMasksFromPatch → Except String ExtractedMasksFromPatch
  | [], _, _, masks => .ok masks
  | (k, .object sub) :: patches, extract, insert, masks => do
    let nextMasks ← extract sub ⟨k, List.mem_cons_self⟩
    let inserted ← insert k nextMasks masks
    insertNextToMask patches
      (fun sub member => extract sub (member.imp fun _ => List.mem_cons_of_mem _)) insert inserted
  | _ :: _, _, _, _ => .error badFieldAccess

/-- The body of the loop of `insertNextFieldsToMask`. -/
def insertNextField (id : Int16) (nextMasks masks : ExtractedMasksFromPatch) :
    Except String ExtractedMasksFromPatch := do
  let inserted ← insertNextMask fieldsRef masks nextMasks id
  .ok { inserted with read := insertFieldsToMask [id] inserted.read }

/-- The body of the loop of `insertNextMapItemsToMask`. -/
def insertNextMapItem (key : Value) (nextMasks masks : ExtractedMasksFromPatch) :
    Except String ExtractedMasksFromPatch := do
  match ← getArrayKeyFromValue key with
  | .integer => do
    let id ← getMapIdFromValue key
    let inserted ← insertNextMask mapIdsRef masks nextMasks id
    .ok { inserted with read := mapIdsRef.emplaceAll id inserted.read }
  | .string => do
    let id ← getStringFromValue key
    let inserted ← insertNextMask stringKeysRef masks nextMasks id
    .ok { inserted with read := stringKeysRef.emplaceAll id inserted.read }

/-- The operations PatchPrior and PatchAfter. -/
def insertSubpatches (op : PatchOp) (patch : Object) (extract : ExtractBelow patch)
    (masks : ExtractedMasksFromPatch) : Except String ExtractedMasksFromPatch :=
  match found : findOp patch op with
  | some (.object patches) =>
    insertNextToMask patches
      (fun sub member => extract sub (sizeOf_lt_of_findOp_object found member))
      insertNextField masks
  | some (.map patches) =>
    insertNextToMask patches (fun sub member => extract sub (sizeOf_lt_of_findOp_map found member))
      insertNextMapItem masks
  | _ => .ok masks

/-- The operation Put, of a map. -/
def insertPut (patch : Object) (masks : ExtractedMasksFromPatch) :
    Except String ExtractedMasksFromPatch :=
  match findOp patch .put with
  | some (.map entries) => do
    let write ← insertKeysToMaskIfNotAllMask (entries.map Prod.fst) masks.write
    .ok { masks with write := write }
  | _ => .ok masks

/-- The operation EnsureStruct: adds fields or keys to both masks. -/
def insertEnsureStruct (patch : Object) (masks : ExtractedMasksFromPatch) :
    Except String ExtractedMasksFromPatch :=
  match findOp patch .ensureStruct with
  | some (.object obj) =>
    .ok ⟨insertFieldsToMask (obj.map Prod.fst) masks.read,
      insertFieldsToMaskIfNotAllMask (obj.map Prod.fst) masks.write⟩
  | some (.map entries) => do
    let read ← insertKeysToMask (entries.map Prod.fst) masks.read
    let write ← insertKeysToMaskIfNotAllMask (entries.map Prod.fst) masks.write
    .ok ⟨read, write⟩
  | _ => .ok masks

/-- The operation EnsureUnion: adds fields to the read mask and writes everything. -/
def insertEnsureUnion (patch : Object) (masks : ExtractedMasksFromPatch) :
    Except String ExtractedMasksFromPatch :=
  match findOp patch .ensureUnion with
  | some arg => do
    let obj ← arg.asObject
    .ok ⟨insertFieldsToMask (obj.map Prod.fst) masks.read, allMask⟩
  | none => .ok masks

/-- `insertFieldsToMaskIfNotAllMask` at a list of field ids. -/
def insertListedFields (ids : List Value) (mask : Mask) : Except String Mask :=
  if mask.isAllMask then .ok mask
  else do
    let ids ← ids.mapM Value.asI16
    .ok (insertFieldsToMask ids mask)

/-- The operation Remove, of a struct or of a map. -/
def insertRemove (patch : Object) (masks : ExtractedMasksFromPatch) :
    Except String ExtractedMasksFromPatch :=
  match findOp patch .remove with
  | some (.list ids) => do
    let write ← insertListedFields ids masks.write
    .ok { masks with write := write }
  | some (.set keys) => do
    let write ← insertKeysToMaskIfNotAllMask keys masks.write
    .ok { masks with write := write }
  | some arg => if isIntrinsicDefault arg then .ok masks else .error badFieldAccess
  | none => .ok masks

/-- The masks after the operation Clear. -/
def clearMasks (patch : Object) : ExtractedMasksFromPatch :=
  ⟨noneMask, if hasNonDefault patch .clear then allMask else noneMask⟩

/-- The masks of a patch that has to be seen as reading and writing everything. -/
def wholeMasks : ExtractedMasksFromPatch := ⟨allMask, allMask⟩

/-! ## Extraction -/

/-- `extractMaskFromPatch`. -/
def extractMaskFromPatch (patch : Object) : Except String ExtractedMasksFromPatch :=
  if (findOp patch .assign).isSome then .ok ⟨noneMask, allMask⟩
  else if hasNonDefault patch .add || putsWhole patch then .ok wholeMasks
  else do
    let put ← insertPut patch (clearMasks patch)
    let prior ← insertSubpatches .patchPrior patch (fun sub _ => extractMaskFromPatch sub) put
    let after ← insertSubpatches .patchAfter patch (fun sub _ => extractMaskFromPatch sub) prior
    let ensured ← insertEnsureStruct patch after
    let united ← insertEnsureUnion patch ensured
    if removesWhole patch then .ok wholeMasks
    else do
      let removed ← insertRemove patch united
      if hasAnyOp patch then .error "Invalid AnyStruct"
      else ensureRWMaskInvariant removed
termination_by sizeOf patch

end FbThrift
