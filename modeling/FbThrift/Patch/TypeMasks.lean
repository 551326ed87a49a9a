import FbThrift.Patch.Coverage

/-!
# The masks of patches of type-erased values

`extractMaskFromPatch` with the operations on a type-erased value: a patch for each of some types,
which is decoded from bytes, and a value that is ensured.  What decodes them is a parameter.  A
decoded patch is no part of the patch, so the calls are bounded by a number of rounds.

Whatever is decoded, the masks of a patch on which the function returns are inclusive, and the
read mask covers nothing that the write mask does not.
-/

namespace FbThrift

open SortedMap Mask

/-- What is decoded from the arguments of the operations. -/
structure AnyCodec where
  /-- A type, which is valid, and the patch for it. -/
  typeToPatch : Value → Except String (TypeStruct × Object)
  /-- The type of a type-erased value, which is valid. -/
  anyType : Value → Except String TypeStruct

/-! ## Insertion of types -/

/-- `mask.includes_type()`. -/
def typesRef : IncludesRef FullType where
  get
    | .includesType map => some map
    | _ => none
  wrap := .includesType

/-- The map of a type mask takes full types only. -/
def withFullType {α : Type} (type : TypeStruct) (insert : FullType → Except String α) :
    Except String α :=
  if full : type.isFull = true then insert ⟨type, full⟩
  else .error "Type mask requires full type!"

def insertTypeToMaskIfNotAllMask (type : TypeStruct) (mask : Mask) : Except String Mask :=
  if mask.isAllMask then .ok mask
  else withFullType type fun type => .ok (typesRef.emplaceAll type mask)

/-- `insertMaskUnion` at a type. -/
def insertTypeUnion (mask : Mask) (type : TypeStruct) (next : Mask) : Except String Mask :=
  if mask.isAllMask || next.isNoneMask then .ok mask
  else withFullType type fun type => insertMaskUnion typesRef mask type next

/-- `insertNextMask` at a type. -/
def insertNextTypeMask (masks next : ExtractedMasksFromPatch) (type : TypeStruct) :
    Except String ExtractedMasksFromPatch := do
  let read ← insertTypeUnion masks.read type next.read
  let write ← insertTypeUnion masks.write type next.write
  .ok ⟨read, write⟩

variable (codec : AnyCodec)

/-- The loop of `insertNextTypesToMask`. -/
def insertNextTypesToMask (extract : Object → Except String ExtractedMasksFromPatch) :
    List Value → ExtractedMasksFromPatch → Except String ExtractedMasksFromPatch
  | [], masks => .ok masks
  | typePatchVal :: patchTypes, masks => do
    let typeToPatch ← codec.typeToPatch typePatchVal
    let nextMasks ← extract typeToPatch.2
    let inserted ← insertNextTypeMask masks nextMasks typeToPatch.1
    let read ← insertTypeToMaskIfNotAllMask typeToPatch.1 inserted.read
    insertNextTypesToMask extract patchTypes { inserted with read := read }

/-- The operations PatchIfTypeIsPrior and PatchIfTypeIsAfter. -/
def insertTypePatches (op : PatchOp) (patch : Object)
    (extract : Object → Except String ExtractedMasksFromPatch) (masks : ExtractedMasksFromPatch) :
    Except String ExtractedMasksFromPatch :=
  match findOp patch op with
  | some patchTypes => do
    let patchTypes ← patchTypes.asList
    insertNextTypesToMask codec extract patchTypes masks
  | none => .ok masks

/-- The operation EnsureAny. -/
def insertEnsureAny (patch : Object) (masks : ExtractedMasksFromPatch) :
    Except String ExtractedMasksFromPatch :=
  match findOp patch .ensureAny with
  | some ensureAny => do
    let type ← codec.anyType ensureAny
    let read ← insertTypeToMaskIfNotAllMask type masks.read
    .ok ⟨read, allMask⟩
  | none => .ok masks

/-- `extractMaskFromPatch` with all its operations, for so many nested calls. -/
def extractMasks : (rounds : Nat) → (isMap : Bool) → Object → Except String ExtractedMasksFromPatch
  | 0, _, _ => .error "out of rounds"
  | rounds + 1, isMap, patch =>
    let extract := extractMasks rounds false
    if (findOp patch .assign).isSome then .ok ⟨noneMask, allMask⟩
    else if hasNonDefault patch .add || putsWhole patch then .ok wholeMasks
    else do
      let put ← insertPut patch (clearMasks patch)
      let prior ← insertSubpatches .patchPrior patch (fun sub _ => extract sub) put
      let after ← insertSubpatches .patchAfter patch (fun sub _ => extract sub) prior
      let ensured ← insertEnsureStruct patch after
      let united ← insertEnsureUnion patch ensured
      if removesWhole patch && !isMap then .ok wholeMasks
      else do
        let removed ← insertRemove patch united
        let typedPrior ← insertTypePatches codec .patchIfTypeIsPrior patch extract removed
        let typedAfter ← insertTypePatches codec .patchIfTypeIsAfter patch extract typedPrior
        let any ← insertEnsureAny codec patch typedAfter
        ensureRWMaskInvariant any

/-! ## Inclusive masks -/

variable {codec} {masks next result : ExtractedMasksFromPatch} {mask : Mask} {type : TypeStruct}
  {patch : Object}

theorem withFullType_ok {α : Type} {insert : FullType → Except String α} {a : α}
    (ok : withFullType type insert = .ok a) : ∃ type : FullType, insert type = .ok a := by
  unfold withFullType at ok
  split at ok
  · exact ⟨_, ok⟩
  · cases ok

/-- The map of types that `ensure()` returns. -/
theorem inclusive_ensure_types (inclusive : Inclusive mask) : Sorted (typesRef.ensure mask) ∧
      ∀ k m, find k (typesRef.ensure mask) = some m → Inclusive m := by
  cases inclusive with
  | all => exact ⟨sorted_nil, nofun⟩
  | level kind sorted below =>
    cases kind with
    | types => exact ⟨sorted, below⟩
    | _ => exact ⟨sorted_nil, nofun⟩

theorem inclusive_insertType (inclusive : Inclusive mask) {result : Mask}
    (ok : insertTypeToMaskIfNotAllMask type mask = .ok result) : Inclusive result := by
  unfold insertTypeToMaskIfNotAllMask at ok
  split at ok
  · exact Except.ok.inj ok ▸ inclusive
  · obtain ⟨key, made⟩ := withFullType_ok ok
    obtain ⟨sorted, below⟩ := inclusive_ensure_types inclusive
    rw [← Except.ok.inj made]
    exact inclusive_emplace .types sorted below key

theorem inclusive_insertTypeUnion {below result : Mask} (inclusive : Inclusive mask)
    (inclusive' : Inclusive below) (ok : insertTypeUnion mask type below = .ok result) :
    Inclusive result := by
  unfold insertTypeUnion at ok
  split at ok
  · exact Except.ok.inj ok ▸ inclusive
  · rename_i opened
    have notAll : mask.isAllMask = false :=
      Bool.eq_false_iff.mpr fun all => opened (Bool.or_eq_true_iff.mpr (.inl all))
    obtain ⟨key, made⟩ := withFullType_ok ok
    obtain ⟨sorted, each⟩ := inclusive_ensure_types inclusive
    rcases insertMaskUnion_ok notAll made with ⟨-, rfl⟩ | ⟨current, union, rfl⟩
    · exact inclusive
    · have old : Inclusive ((find key (typesRef.ensure mask)).getD noneMask) :=
        inclusive_getMask each key
      exact inclusive_insertUnion .types sorted each key (old.union inclusive' union).1

theorem inclusive_insertNextTypeMask (inclusive : masks.Inclusive) (below : next.Inclusive)
    (ok : insertNextTypeMask masks next type = .ok result) : result.Inclusive := by
  obtain ⟨read, ran, rest⟩ := Except.bind_eq_ok ok
  obtain ⟨write, ran', made⟩ := Except.bind_eq_ok rest
  rw [← Except.ok.inj made]
  exact ⟨inclusive_insertTypeUnion inclusive.read below.read ran,
    inclusive_insertTypeUnion inclusive.write below.write ran'⟩

variable {extract : Object → Except String ExtractedMasksFromPatch} {op : PatchOp}

theorem inclusive_insertNextTypes
    (extracts : ∀ sub next, extract sub = .ok next → next.Inclusive) {patchTypes : List Value}
    (inclusive : masks.Inclusive)
    (ok : insertNextTypesToMask codec extract patchTypes masks = .ok result) :
    result.Inclusive := by
  induction patchTypes generalizing masks with
  | nil => exact Except.ok.inj ok ▸ inclusive
  | cons typePatchVal patchTypes ih =>
    obtain ⟨typeToPatch, -, rest⟩ := Except.bind_eq_ok ok
    obtain ⟨next, extracted, rest⟩ := Except.bind_eq_ok rest
    obtain ⟨inserted, ran, rest⟩ := Except.bind_eq_ok rest
    obtain ⟨read, ran', rest⟩ := Except.bind_eq_ok rest
    have both := inclusive_insertNextTypeMask inclusive (extracts _ _ extracted) ran
    have kept : ExtractedMasksFromPatch.Inclusive ⟨read, inserted.write⟩ :=
      ⟨inclusive_insertType both.read ran', both.write⟩
    exact ih kept rest

theorem inclusive_insertTypePatches
    (extracts : ∀ sub next, extract sub = .ok next → next.Inclusive) (inclusive : masks.Inclusive)
    (ok : insertTypePatches codec op patch extract masks = .ok result) : result.Inclusive := by
  unfold insertTypePatches at ok
  split at ok
  · obtain ⟨types, -, rest⟩ := Except.bind_eq_ok ok
    exact inclusive_insertNextTypes extracts inclusive rest
  · exact Except.ok.inj ok ▸ inclusive

theorem inclusive_insertEnsureAny (inclusive : masks.Inclusive)
    (ok : insertEnsureAny codec patch masks = .ok result) : result.Inclusive := by
  unfold insertEnsureAny at ok
  split at ok
  · obtain ⟨type, -, rest⟩ := Except.bind_eq_ok ok
    obtain ⟨read, ran, made⟩ := Except.bind_eq_ok rest
    rw [← Except.ok.inj made]
    exact ⟨inclusive_insertType inclusive.read ran, .all⟩
  · exact Except.ok.inj ok ▸ inclusive

theorem inclusive_clearMasks (patch : Object) : (clearMasks patch).Inclusive := by
  refine ⟨inclusive_noneMask, ?_⟩
  unfold clearMasks
  split
  · exact .all
  · exact inclusive_noneMask

/-! ## The read mask within the write mask -/

theorem readsWithinWrites_all (read : Mask) : ReadsWithinWrites ⟨read, allMask⟩ :=
  fun path _ => covers_allMask path

/-- What the last step of an extraction leaves. -/
theorem inclusive_ensureRWMaskInvariant (inclusive : masks.Inclusive)
    (ok : ensureRWMaskInvariant masks = .ok result) :
    result.Inclusive ∧ ReadsWithinWrites result := by
  rcases ensureRWMaskInvariant_eq ok with ⟨union, rfl⟩ | rfl
  · refine ⟨inclusive, fun path covers => ?_⟩
    exact (inclusive.read.covers_union inclusive.write union path).mpr (.inl covers)
  · exact ⟨⟨inclusive.write, inclusive.write⟩, fun _ covers => covers⟩

theorem inclusive_extractMasks {rounds : Nat} {isMap : Bool}
    (ok : extractMasks codec rounds isMap patch = .ok masks) :
    masks.Inclusive ∧ ReadsWithinWrites masks := by
  induction rounds generalizing isMap patch masks with
  | zero => cases ok
  | succ rounds ih =>
    have extracts (sub : Object) (next : ExtractedMasksFromPatch)
        (ok : extractMasks codec rounds false sub = .ok next) : next.Inclusive := (ih ok).1
    have whole : wholeMasks.Inclusive ∧ ReadsWithinWrites wholeMasks :=
      ⟨⟨.all, .all⟩, readsWithinWrites_all _⟩
    rw [extractMasks] at ok
    split at ok
    · rw [← Except.ok.inj ok]
      exact ⟨⟨inclusive_noneMask, .all⟩, readsWithinWrites_all _⟩
    split at ok
    · exact Except.ok.inj ok ▸ whole
    obtain ⟨put, ran₁, rest⟩ := Except.bind_eq_ok ok
    obtain ⟨prior, ran₂, rest⟩ := Except.bind_eq_ok rest
    obtain ⟨after, ran₃, rest⟩ := Except.bind_eq_ok rest
    obtain ⟨ensured, ran₄, rest⟩ := Except.bind_eq_ok rest
    obtain ⟨united, ran₅, rest⟩ := Except.bind_eq_ok rest
    split at rest
    · exact Except.ok.inj rest ▸ whole
    obtain ⟨removed, ran₆, rest⟩ := Except.bind_eq_ok rest
    obtain ⟨typedPrior, ran₇, rest⟩ := Except.bind_eq_ok rest
    obtain ⟨typedAfter, ran₈, rest⟩ := Except.bind_eq_ok rest
    obtain ⟨any, ran₉, rest⟩ := Except.bind_eq_ok rest
    refine inclusive_ensureRWMaskInvariant ?_ rest
    refine inclusive_insertEnsureAny ?_ ran₉
    refine inclusive_insertTypePatches extracts ?_ ran₈
    refine inclusive_insertTypePatches extracts ?_ ran₇
    refine inclusive_insertRemove ?_ ran₆
    refine inclusive_insertEnsureUnion ?_ ran₅
    refine inclusive_insertEnsureStruct ?_ ran₄
    refine inclusive_insertSubpatches (fun sub _ next => extracts sub next) ?_ ran₃
    refine inclusive_insertSubpatches (fun sub _ next => extracts sub next) ?_ ran₂
    exact inclusive_insertPut (inclusive_clearMasks patch) ran₁

/-- Every path that the read mask of a patch covers is covered by its write mask. -/
theorem reads_within_writes (codec : AnyCodec) (rounds : Nat) (isMap : Bool) (patch : Object)
    (masks : ExtractedMasksFromPatch) (ok : extractMasks codec rounds isMap patch = .ok masks) :
    ∀ path, masks.read.Covers path → masks.write.Covers path :=
  (inclusive_extractMasks ok).2

/-- A field with a patch that assigns, and a value that is ensured. -/
def ensuresAny : Object :=
  [(3, .object [(1, .object [(1, .i32 5)])]), (11, .object [])]

/-- The ensured value is a boolean. -/
def boolCodec : AnyCodec where
  typeToPatch _ := .error "Invalid AnyPatch PatchIfTypeIsPrior/PatchIfTypeIsAfter"
  anyType _ := .ok (.mk .boolType [])

theorem reads_within_writes_ensuresAny :
    let read : Mask := .includesType [(⟨.mk .boolType [], rfl⟩, allMask)]
    extractMasks boolCodec 2 false ensuresAny = .ok ⟨read, allMask⟩ ∧
      ∀ path, read.Covers path → allMask.Covers path := by
  intro read
  have ok : extractMasks boolCodec 2 false ensuresAny = .ok ⟨read, allMask⟩ := by decide +kernel
  exact ⟨ok, reads_within_writes boolCodec 2 false ensuresAny ⟨read, allMask⟩ ok⟩

end FbThrift
