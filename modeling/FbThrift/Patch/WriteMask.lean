import FbThrift.Lib.CanonicalOrder
import FbThrift.Patch.Insertion

/-!
# The write mask of a patch

`extractMaskFromPatch` read as a sequence of insertions, and from it what a write mask
selects at the steps of the patch.

The operations of one level can be at odds: EnsureStruct and Remove insert their fields and
keys only where the mask has nothing yet, so they leave a part that a PatchPrior or PatchAfter
has inserted there as it is, although they replace the whole value; and keys of another kind
drop what is in the mask.  `Clean` says that neither happens.
-/

namespace FbThrift

open SortedMap Mask

/-! ## The steps of a patch -/

/-- The steps of the keys of a map. -/
def keySteps (keys : List Value) : List PathStep := keys.filterMap stepOf

/-- The keys that Put inserts or assigns. -/
def putSteps (patch : Object) : List PathStep :=
  match findOp patch .put with
  | some (.map entries) => keySteps (entries.map Prod.fst)
  | _ => []

/-- The fields or keys that EnsureStruct inserts. -/
def ensureSteps (patch : Object) : List PathStep :=
  match findOp patch .ensureStruct with
  | some (.object obj) => obj.map fun e => .field e.1
  | some (.map entries) => keySteps (entries.map Prod.fst)
  | _ => []

/-- The fields or keys that Remove erases. -/
def removeSteps (patch : Object) : List PathStep :=
  match findOp patch .remove with
  | some (.list ids) => ids.filterMap fun id => id.ifI16.map .field
  | some (.set keys) => keySteps keys
  | _ => []

/-- The patches below an operation, with their steps. -/
def subpatches {K : Type} (step : K → Option PathStep) (patches : List (K × Value)) :
    List (PathStep × Object) :=
  patches.filterMap fun e => do
    let here ← step e.1
    let sub ← e.2.ifObject
    some (here, sub)

def nestedAt (patch : Object) (op : PatchOp) : List (PathStep × Object) :=
  match findOp patch op with
  | some (.object patches) => subpatches (fun id => some (.field id)) patches
  | some (.map patches) => subpatches stepOf patches
  | _ => []

/-- The patches of PatchPrior and PatchAfter. -/
def nested (patch : Object) : List (PathStep × Object) :=
  nestedAt patch .patchPrior ++ nestedAt patch .patchAfter

/-! ## When the write mask selects the effect -/

/-- An operation that may replace the whole value. -/
def writesAll (patch : Object) : Bool :=
  (findOp patch .assign).isSome || hasNonDefault patch .clear || hasNonDefault patch .add ||
    putsWhole patch || (findOp patch .ensureUnion).isSome || removesWhole patch

/-- A patch none of whose operations writes, at any depth. -/
inductive WritesNothing : Object → Prop
  | mk {patch : Object} (open' : writesAll patch = false) (puts : putSteps patch = [])
    (ensures : ensureSteps patch = []) (removes : removeSteps patch = [])
    (below : ∀ step sub, (step, sub) ∈ nested patch → WritesNothing sub) : WritesNothing patch

/-- A step at which a Put or a patch below writes the whole value. -/
def Covered (patch : Object) (step : PathStep) : Prop :=
  step ∈ putSteps patch ∨ ∃ sub, (step, sub) ∈ nested patch ∧ writesAll sub = true

/-- Neither at its own level nor below does the patch have operations that are at odds. -/
inductive Clean : Object → Prop
  | whole {patch : Object} (all : writesAll patch = true) : Clean patch
  | level {patch : Object} (kind : StepKind)
    (alike : ∀ step ∈ putSteps patch ++ ensureSteps patch ++ removeSteps patch,
      step.kind = some kind)
    (alikeBelow : ∀ step sub, (step, sub) ∈ nested patch →
      WritesNothing sub ∨ step.kind = some kind)
    (apart : ∀ step ∈ ensureSteps patch ++ removeSteps patch,
      Covered patch step ∨ ∀ sub, (step, sub) ∈ nested patch → WritesNothing sub)
    (below : ∀ step sub, (step, sub) ∈ nested patch → ¬ Covered patch step → Clean sub) :
    Clean patch

/-! ## Extraction as a sequence of insertions -/

open Insertion

/-- The mask of the patch at a step. -/
def Extracts (e : PathStep × Object) (insertion : Insertion) : Prop :=
  ∃ masks, extractMaskFromPatch e.2 = .ok masks ∧ insertion = .next e.1 masks.write

variable {mask : Mask} {result masks : ExtractedMasksFromPatch} {step : PathStep}
  {keys : List Value} {op : PatchOp} {patch : Object} {below : List Insertion}

theorem insertKeyToMask_ok {key : Value} {result : Mask} (open' : mask.isAllMask = false)
    (ok : insertKeyToMask key mask = .ok result) :
    ∃ step, stepOf key = some step ∧ (whole step).run mask = .ok result := by
  cases key <;> simp [insertKeyToMask, getArrayKeyFromValue, bind, Except.bind,
    getMapIdFromValue, getStringFromValue] at ok
  all_goals
    subst ok
    exact ⟨_, rfl, by simp [run, open', Insertion.emplaceAll]⟩

theorem run_whole_allMask (step : PathStep) : (whole step).run allMask = .ok allMask := by
  cases step <;> rfl

/-- Nothing changes `allMask`. -/
theorem runAll_allMask (insertions : List Insertion) : runAll insertions allMask = .ok allMask := by
  induction insertions with
  | nil => rfl
  | cons insertion insertions ih =>
    have ran : insertion.run allMask = .ok allMask := by
      cases insertion with
      | whole step => exact run_whole_allMask step
      | next step next => cases step <;> rfl
    simp only [runAll, ran, bind, Except.bind]
    exact ih

theorem open_of_run_whole {result : Mask} (open' : mask.isAllMask = false)
    (ok : (whole step).run mask = .ok result) : result.isAllMask = false := by
  simp only [run, open', Bool.false_eq_true, if_false, Except.ok.injEq] at ok
  subst ok
  cases step with
  | type => exact open'
  | _ => rfl

theorem insertKeysToMask_ok {result : Mask}
    (open' : mask.isAllMask = false) (ok : insertKeysToMask keys mask = .ok result) :
    runAll ((keySteps keys).map whole) mask = .ok result := by
  induction keys generalizing mask with
  | nil => exact ok
  | cons key keys ih =>
    obtain ⟨inserted, first, rest⟩ := Except.bind_eq_ok ok
    obtain ⟨step, known, ran⟩ := insertKeyToMask_ok open' first
    simp only [keySteps, List.filterMap_cons, known, List.map_cons, runAll, ran, bind, Except.bind]
    exact ih (open_of_run_whole open' ran) rest

theorem insertKeysToMaskIfNotAllMask_ok {result : Mask}
    (ok : insertKeysToMaskIfNotAllMask keys mask = .ok result) :
    runAll ((keySteps keys).map whole) mask = .ok result := by
  unfold insertKeysToMaskIfNotAllMask at ok
  split at ok
  · rename_i all
    cases ok
    rw [isAllMask_iff.mp all]
    exact runAll_allMask _
  · rename_i open'
    exact insertKeysToMask_ok (Bool.eq_false_iff.mpr open') ok

theorem runAll_fields (ids : List Int16) (mask : Mask) :
    runAll (ids.map fun id => whole (.field id)) mask =
      .ok (insertFieldsToMaskIfNotAllMask ids mask) := by
  unfold insertFieldsToMaskIfNotAllMask
  split
  · rename_i all
    rw [isAllMask_iff.mp all]
    exact runAll_allMask _
  · rename_i open'
    have open' := Bool.eq_false_iff.mpr open'
    induction ids generalizing mask with
    | nil => rfl
    | cons id ids ih =>
      have ran : (whole (.field id)).run mask = .ok (fieldsRef.emplaceAll id mask) := by
        simp [run, open', Insertion.emplaceAll]
      simp only [List.map_cons, runAll, ran, bind, Except.bind]
      exact ih _ Bool.false_ne_true rfl

theorem steps_of_mapM {ids : List Value} {fields : List Int16}
    (known : ids.mapM Value.asI16 = .ok fields) :
    (ids.filterMap fun id => id.ifI16.map PathStep.field) = fields.map PathStep.field := by
  induction ids generalizing fields with
  | nil =>
    cases known
    rfl
  | cons id ids ih =>
    rw [List.mapM_cons] at known
    obtain ⟨field, here, rest⟩ := Except.bind_eq_ok known
    obtain ⟨later, tail, made⟩ := Except.bind_eq_ok rest
    cases made
    cases id <;> simp only [Value.asI16, reduceCtorEq, Except.ok.injEq] at here
    subst here
    have fields := ih tail
    show PathStep.field _ :: ids.filterMap (fun id => id.ifI16.map PathStep.field) = _
    rw [fields, List.map_cons]

theorem insertListedFields_ok {ids : List Value} {result : Mask}
    (ok : insertListedFields ids mask = .ok result) :
    runAll ((ids.filterMap fun id => id.ifI16.map .field).map whole) mask = .ok result := by
  unfold insertListedFields at ok
  split at ok
  · rename_i all
    cases ok
    rw [isAllMask_iff.mp all]
    exact runAll_allMask _
  · rename_i open'
    obtain ⟨fields, known, rest⟩ := Except.bind_eq_ok ok
    have made := runAll_fields fields mask
    rw [insertFieldsToMaskIfNotAllMask, if_neg open'] at made
    rw [steps_of_mapM known, List.map_map]
    exact made.trans rest

/-- One turn of the loops over the patches below. -/
theorem insertNextToMask_ok {K : Type} {step : K → Option PathStep} {patches : List (K × Value)}
    {insert : K → ExtractedMasksFromPatch → ExtractedMasksFromPatch →
      Except String ExtractedMasksFromPatch}
    (inserts : ∀ k next masks result, insert k next masks = .ok result →
      ∃ here, step k = some here ∧
        (Insertion.next here next.write).run masks.write = .ok result.write)
    (ok : insertNextToMask patches (fun sub _ => extractMaskFromPatch sub) insert masks =
      .ok result) :
    ∃ insertions, List.Forall₂ Extracts (subpatches step patches) insertions ∧
      runAll insertions masks.write = .ok result.write := by
  induction patches generalizing masks with
  | nil =>
    cases ok
    exact ⟨[], .nil, rfl⟩
  | cons e patches ih =>
    obtain ⟨k, v⟩ := e
    cases v with
    | object sub =>
      obtain ⟨next, extracted, rest⟩ := Except.bind_eq_ok ok
      obtain ⟨inserted, here, rest⟩ := Except.bind_eq_ok rest
      obtain ⟨at', known, ran⟩ := inserts k next masks inserted here
      obtain ⟨insertions, extracts, rest⟩ := ih rest
      refine ⟨.next at' next.write :: insertions, ?_, ?_⟩
      · have listed : subpatches step ((k, .object sub) :: patches) =
            (at', sub) :: subpatches step patches := by
          simp [subpatches, known, Value.ifObject]
        rw [listed]
        exact .cons ⟨next, extracted, rfl⟩ extracts
      · simp only [runAll, ran, bind, Except.bind]
        exact rest
    | _ => cases ok

theorem insertNextField_ok {id : Int16} {next : ExtractedMasksFromPatch}
    (ok : insertNextField id next masks = .ok result) :
    (Insertion.next (.field id) next.write).run masks.write = .ok result.write := by
  obtain ⟨inserted, made, rest⟩ := Except.bind_eq_ok ok
  obtain ⟨read, -, rest'⟩ := Except.bind_eq_ok made
  obtain ⟨write, ran, made⟩ := Except.bind_eq_ok rest'
  cases made
  cases rest
  exact ran

theorem insertNextMapItem_ok {key : Value} {next : ExtractedMasksFromPatch}
    (ok : insertNextMapItem key next masks = .ok result) :
    ∃ here, stepOf key = some here ∧
      (Insertion.next here next.write).run masks.write = .ok result.write := by
  unfold insertNextMapItem at ok
  obtain ⟨kind, known, rest⟩ := Except.bind_eq_ok ok
  cases kind with
  | integer =>
    obtain ⟨id, found, rest⟩ := Except.bind_eq_ok rest
    obtain ⟨inserted, made, rest⟩ := Except.bind_eq_ok rest
    obtain ⟨read, -, rest'⟩ := Except.bind_eq_ok made
    obtain ⟨write, ran, made⟩ := Except.bind_eq_ok rest'
    cases made
    cases rest
    exact ⟨.mapId id, by rw [stepOf, found], ran⟩
  | string =>
    obtain ⟨id, found, rest⟩ := Except.bind_eq_ok rest
    obtain ⟨inserted, made, rest⟩ := Except.bind_eq_ok rest
    obtain ⟨read, -, rest'⟩ := Except.bind_eq_ok made
    obtain ⟨write, ran, made⟩ := Except.bind_eq_ok rest'
    cases made
    cases rest
    refine ⟨.stringKey id, ?_, ran⟩
    cases key <;> simp [getStringFromValue] at found
    all_goals
      subst found
      rfl

theorem insertSubpatches_ok
    (ok : insertSubpatches op patch (fun sub _ => extractMaskFromPatch sub) masks = .ok result) :
    ∃ insertions, List.Forall₂ Extracts (nestedAt patch op) insertions ∧
      runAll insertions masks.write = .ok result.write := by
  unfold insertSubpatches at ok
  unfold nestedAt
  split at ok
  · rename_i patches found
    rw [found]
    refine insertNextToMask_ok (fun id next masks result here => ?_) ok
    exact ⟨.field id, rfl, insertNextField_ok here⟩
  · rename_i patches found
    rw [found]
    exact insertNextToMask_ok (fun _ _ _ _ here => insertNextMapItem_ok here) ok
  · rename_i object map
    cases ok
    refine ⟨[], ?_, rfl⟩
    split
    · rename_i patches found
      exact absurd found (object patches)
    · rename_i patches found
      exact absurd found (map patches)
    · exact .nil

theorem insertPut_ok (ok : insertPut patch masks = .ok result) :
    runAll ((putSteps patch).map whole) masks.write = .ok result.write := by
  unfold insertPut at ok
  unfold putSteps
  cases found : findOp patch .put with
  | none =>
    rw [found] at ok
    cases ok
    rfl
  | some arg =>
    rw [found] at ok
    cases arg with
    | map entries =>
      obtain ⟨write, ran, rest⟩ := Except.bind_eq_ok ok
      cases rest
      exact insertKeysToMaskIfNotAllMask_ok ran
    | _ =>
      cases ok
      rfl

theorem insertEnsureStruct_ok (ok : insertEnsureStruct patch masks = .ok result) :
    runAll ((ensureSteps patch).map whole) masks.write = .ok result.write := by
  unfold insertEnsureStruct at ok
  unfold ensureSteps
  cases found : findOp patch .ensureStruct with
  | none =>
    rw [found] at ok
    cases ok
    rfl
  | some arg =>
    rw [found] at ok
    cases arg with
    | object obj =>
      cases ok
      have ran := runAll_fields (obj.map Prod.fst) masks.write
      rw [List.map_map] at ran
      simp only [List.map_map]
      exact ran
    | map entries =>
      obtain ⟨read, -, rest⟩ := Except.bind_eq_ok ok
      obtain ⟨write, ran, rest⟩ := Except.bind_eq_ok rest
      cases rest
      exact insertKeysToMaskIfNotAllMask_ok ran
    | _ =>
      cases ok
      rfl

theorem insertRemove_ok (ok : insertRemove patch masks = .ok result) :
    runAll ((removeSteps patch).map whole) masks.write = .ok result.write := by
  unfold insertRemove at ok
  unfold removeSteps
  cases found : findOp patch .remove with
  | none =>
    rw [found] at ok
    cases ok
    rfl
  | some arg =>
    rw [found] at ok
    cases arg with
    | list ids =>
      obtain ⟨write, ran, rest⟩ := Except.bind_eq_ok ok
      cases rest
      exact insertListedFields_ok ran
    | set keys =>
      obtain ⟨write, ran, rest⟩ := Except.bind_eq_ok ok
      cases rest
      exact insertKeysToMaskIfNotAllMask_ok ran
    | _ =>
      simp only at ok
      split at ok
      · cases ok
        rfl
      · cases ok

theorem ensureRWMaskInvariant_write
    (ok : ensureRWMaskInvariant masks = .ok result) : result.write = masks.write := by
  obtain ⟨both, -, rest⟩ := Except.bind_eq_ok ok
  split at rest
  · cases rest
    rfl
  · cases rest
    rfl

/-- The insertions of a level: keys of Put, patches below, then what is ensured and removed. -/
def levelInsertions (patch : Object) (below : List Insertion) : List Insertion :=
  (putSteps patch).map whole ++ below ++ (ensureSteps patch ++ removeSteps patch).map whole

theorem extract_stages
    (assign : (findOp patch .assign).isSome = false) (add : hasNonDefault patch .add = false)
    (put : putsWhole patch = false) (ok : extractMaskFromPatch patch = .ok masks) :
    ∃ below ensured united, List.Forall₂ Extracts (nested patch) below ∧
      runAll ((putSteps patch).map whole ++ below ++ (ensureSteps patch).map whole)
        (clearMasks patch).write = .ok ensured ∧
      (united = ensured ∧ findOp patch .ensureUnion = none ∨
        united = allMask ∧ (findOp patch .ensureUnion).isSome = true) ∧
      (removesWhole patch = true ∧ masks.write = allMask ∨ removesWhole patch = false ∧
          runAll ((removeSteps patch).map whole) united = .ok masks.write) := by
  rw [extractMaskFromPatch] at ok
  simp only [assign, add, put, Bool.or_self, Bool.false_eq_true, if_false] at ok
  obtain ⟨m₁, ran₁, rest⟩ := Except.bind_eq_ok ok
  obtain ⟨m₂, ran₂, rest⟩ := Except.bind_eq_ok rest
  obtain ⟨m₃, ran₃, rest⟩ := Except.bind_eq_ok rest
  obtain ⟨m₄, ran₄, rest⟩ := Except.bind_eq_ok rest
  obtain ⟨m₅, ran₅, rest⟩ := Except.bind_eq_ok rest
  obtain ⟨prior, extracts, ran₂⟩ := insertSubpatches_ok ran₂
  obtain ⟨after, extracts', ran₃⟩ := insertSubpatches_ok ran₃
  refine ⟨prior ++ after, m₄.write, m₅.write, List.rel_append extracts extracts', ?_, ?_, ?_⟩
  · refine runAll_append (runAll_append (insertPut_ok ran₁) ?_) (insertEnsureStruct_ok ran₄)
    exact runAll_append ran₂ ran₃
  · unfold insertEnsureUnion at ran₅
    split at ran₅
    · rename_i found
      obtain ⟨obj, -, made⟩ := Except.bind_eq_ok ran₅
      cases made
      exact Or.inr ⟨rfl, by rw [found]; rfl⟩
    · rename_i found
      cases ran₅
      exact Or.inl ⟨rfl, found⟩
  · cases whole : removesWhole patch with
    | true =>
      simp only [whole, if_true, Except.ok.injEq] at rest
      exact Or.inl ⟨rfl, rest ▸ rfl⟩
    | false =>
      simp only [whole, Bool.false_eq_true, if_false] at rest
      obtain ⟨m₆, ran₆, rest⟩ := Except.bind_eq_ok rest
      split at rest
      · cases rest
      · rw [ensureRWMaskInvariant_write rest]
        exact Or.inr ⟨rfl, insertRemove_ok ran₆⟩

/-- A patch that may replace the whole value writes all of it. -/
theorem write_of_writesAll
    (all : writesAll patch = true) (ok : extractMaskFromPatch patch = .ok masks) :
    masks.write = allMask := by
  cases assign : (findOp patch .assign).isSome with
  | true =>
    rw [extractMaskFromPatch, assign, if_pos rfl] at ok
    cases ok
    rfl
  | false =>
    cases early : hasNonDefault patch .add || putsWhole patch with
    | true =>
      rw [extractMaskFromPatch, assign, if_neg Bool.false_ne_true, early, if_pos rfl] at ok
      cases ok
      rfl
    | false =>
      obtain ⟨add, put⟩ := Bool.or_eq_false_iff.mp early
      obtain ⟨below, ensured, united, -, ran, union, remove⟩ :=
        extract_stages assign add put ok
      rcases remove with ⟨-, all⟩ | ⟨keeps, remove⟩
      · exact all
      · have whole : united = allMask := by
          rcases union with ⟨rfl, absent⟩ | ⟨all, -⟩
          · have clear : hasNonDefault patch .clear = true := by
              simpa [writesAll, assign, add, put, absent, keeps] using all
            rw [clearMasks, clear, if_pos rfl, runAll_allMask] at ran
            exact (Except.ok.inj ran).symm
          · exact all
        rw [whole, runAll_allMask] at remove
        exact (Except.ok.inj remove).symm

theorem write_of_open
    (open' : writesAll patch = false) (ok : extractMaskFromPatch patch = .ok masks) :
    ∃ below, List.Forall₂ Extracts (nested patch) below ∧
      runAll (levelInsertions patch below) noneMask = .ok masks.write := by
  simp only [writesAll, Bool.or_eq_false_iff] at open'
  obtain ⟨⟨⟨⟨⟨assign, clear⟩, add⟩, put⟩, union'⟩, remove'⟩ := open'
  obtain ⟨below, ensured, united, extracts, ran, union, remove⟩ := extract_stages assign add put ok
  refine ⟨below, extracts, ?_⟩
  rcases union with ⟨rfl, -⟩ | ⟨-, present⟩
  · rcases remove with ⟨whole, -⟩ | ⟨-, remove⟩
    · rw [remove'] at whole
      cases whole
    · rw [clearMasks, clear, if_neg Bool.false_ne_true] at ran
      have all := runAll_append ran remove
      rw [levelInsertions, List.map_append, ← List.append_assoc]
      exact all
  · rw [union'] at present
    cases present

theorem mem_of_forall₂ {l : List (PathStep × Object)}
    (extracts : List.Forall₂ Extracts l below) {insertion : Insertion}
    (listed : insertion ∈ below) : ∃ e ∈ l, Extracts e insertion := by
  induction extracts with
  | nil => cases listed
  | cons head _ ih =>
    rcases List.mem_cons.mp listed with rfl | listed
    · exact ⟨_, List.mem_cons_self, head⟩
    · obtain ⟨e, member, extracts⟩ := ih listed
      exact ⟨e, List.mem_cons_of_mem _ member, extracts⟩

theorem next_mem_levelInsertions : Insertion.next step mask ∈ levelInsertions patch below ↔
      Insertion.next step mask ∈ below := by
  simp [levelInsertions]

theorem sizeOf_lt_of_nestedAt {sub : Object}
    (listed : (step, sub) ∈ nestedAt patch op) : sizeOf sub < sizeOf patch := by
  have member {K : Type} {step' : K → Option PathStep} {patches : List (K × Value)}
      (listed : (step, sub) ∈ subpatches step' patches) : ∃ k, (k, Value.object sub) ∈ patches := by
    obtain ⟨⟨k, v⟩, member, made⟩ := List.mem_filterMap.mp listed
    cases here : step' k with
    | none => simp [here] at made
    | some s =>
      cases v <;> simp [here, Value.ifObject] at made
      exact ⟨k, made.2 ▸ member⟩
  unfold nestedAt at listed
  split at listed
  · rename_i found
    exact sizeOf_lt_of_findOp_object found (member listed)
  · rename_i found
    exact sizeOf_lt_of_findOp_map found (member listed)
  · cases listed

theorem sizeOf_lt_of_nested {sub : Object}
    (listed : (step, sub) ∈ nested patch) : sizeOf sub < sizeOf patch := by
  rcases List.mem_append.mp listed with prior | after
  · exact sizeOf_lt_of_nestedAt prior
  · exact sizeOf_lt_of_nestedAt after

theorem inclusive_write (patch : Object) {masks : ExtractedMasksFromPatch}
    (ok : extractMaskFromPatch patch = .ok masks) : Inclusive masks.write := by
  cases all : writesAll patch with
  | true => exact write_of_writesAll all ok ▸ .all
  | false =>
    obtain ⟨below, extracts, ran⟩ := write_of_open all ok
    refine inclusive_runAll inclusive_noneMask (fun step next listed => ?_) ran
    obtain ⟨⟨step', sub⟩, member, masks', extracted, made⟩ :=
      mem_of_forall₂ extracts (next_mem_levelInsertions.mp listed)
    cases made
    have smaller := sizeOf_lt_of_nested member
    exact inclusive_write sub extracted
termination_by sizeOf patch

theorem write_of_writesNothing (nothing : WritesNothing patch) (ok : extractMaskFromPatch patch = .ok masks) :
    masks.write = noneMask := by
  induction nothing generalizing masks with
  | @mk patch open' puts ensures removes _ ih =>
    obtain ⟨below, extracts, ran⟩ := write_of_open open' ok
    have each : ∀ insertion ∈ below, ∃ step, insertion = .next step noneMask := by
      intro insertion listed
      obtain ⟨⟨step, sub⟩, member, masks', extracted, made⟩ := mem_of_forall₂ extracts listed
      rw [ih step sub member extracted] at made
      exact ⟨step, made⟩
    have idle : runAll below noneMask = .ok noneMask := by
      clear ran extracts
      induction below with
      | nil => rfl
      | cons insertion below ih =>
        obtain ⟨step, rfl⟩ := each _ List.mem_cons_self
        simp only [runAll, run_next_noneMask, bind, Except.bind]
        exact ih fun i listed => each i (List.mem_cons_of_mem _ listed)
    rw [levelInsertions, puts, ensures, removes] at ran
    simp only [List.map_nil, List.nil_append, List.append_nil] at ran
    exact Except.ok.inj (ran.symm.trans idle)

/-! ## What the write mask selects at each step -/

/-- A mask below which anything may change. -/
def Free (mask : Mask) : Prop := ∀ a b, Agree mask a b

theorem free_of_entry (open' : mask.isAllMask = false)
    (found : mask.entry step = some allMask) : Free (mask.under step) := by
  rw [under_eq_entry open', found, Option.getD_some]
  exact Agree.all

/-- What a level of a patch puts into its write mask. -/
structure Selects (patch : Object) (write : Mask) : Prop where
  /-- Puts and what is ensured or removed may change in any way. -/
  puts : ∀ step ∈ putSteps patch, Free (write.under step)
  wholes : ∀ step ∈ ensureSteps patch ++ removeSteps patch, Free (write.under step)
  /-- A patch below changes what its own mask selects, unless anything may change there. -/
  below : ∀ step sub, (step, sub) ∈ nested patch → Free (write.under step) ∨
    Clean sub ∧ ∃ masks, extractMaskFromPatch sub = .ok masks ∧
      Within masks.write (write.under step)

theorem ofKind_levelInsertions {kind : StepKind}
    (alike : ∀ step ∈ putSteps patch ++ ensureSteps patch ++ removeSteps patch,
      step.kind = some kind)
    (alikeBelow : ∀ step sub, (step, sub) ∈ nested patch →
      WritesNothing sub ∨ step.kind = some kind)
    (extracts : List.Forall₂ Extracts (nested patch) below) :
    ∀ insertion ∈ levelInsertions patch below, insertion.OfKind kind := by
  intro insertion listed
  cases insertion with
  | whole step =>
    refine alike step ?_
    have parts : step ∈ putSteps patch ∨ whole step ∈ below ∨
        step ∈ ensureSteps patch ++ removeSteps patch := by
      simpa [levelInsertions] using listed
    rcases parts with put | nested | rest
    · exact List.mem_append_left _ (List.mem_append_left _ put)
    · obtain ⟨e, -, masks, -, made⟩ := mem_of_forall₂ extracts nested
      cases made
    · rw [List.append_assoc]
      exact List.mem_append_right _ rest
  | next step mask =>
    obtain ⟨⟨step', sub⟩, member, masks, extracted, made⟩ :=
      mem_of_forall₂ extracts (next_mem_levelInsertions.mp listed)
    cases made
    refine ⟨inclusive_write sub extracted, ?_⟩
    exact (alikeBelow _ sub member).imp (fun nothing => write_of_writesNothing nothing extracted) id

theorem selects_of_clean (clean : Clean patch) (open' : writesAll patch = false)
    (ok : extractMaskFromPatch patch = .ok masks) :
    Selects patch masks.write := by
  cases clean with
  | whole all =>
    rw [open'] at all
    cases all
  | level kind alike alikeBelow apart below' =>
    obtain ⟨below, extracts, ran⟩ := write_of_open open' ok
    have ofKind := ofKind_levelInsertions alike alikeBelow extracts
    have grows := grows_runAll ofKind (fits_noneMask kind) inclusive_noneMask ran
    have nothing (step : PathStep) : noneMask.entry step = none := by cases step <;> rfl
    have puts : ∀ step ∈ putSteps patch, Free (masks.write.under step) := by
      intro step listed
      -- A Put comes first, and what it has inserted stays.
      rw [levelInsertions, List.append_assoc] at ran ofKind
      obtain ⟨first, ran₁, ran₂⟩ := runAll_append_ok ran
      have grows₁ := grows_runAll (fun i member => ofKind i (List.mem_append_left _ member))
        (fits_noneMask kind) inclusive_noneMask ran₁
      have grows₂ := grows_runAll (fun i member => ofKind i (List.mem_append_right _ member))
        grows₁.fits grows₁.inclusive ran₂
      refine free_of_entry grows.fits.open (grows₂.keeps step ?_)
      refine grows₁.fills step (List.mem_map_of_mem listed) (fun mask member => ?_) (nothing step)
      simp at member
    have covered : ∀ step, Covered patch step → Free (masks.write.under step) := by
      rintro step (put | ⟨sub, member, all⟩) a b
      · exact puts step put a b
      · obtain ⟨insertion, listed, masks', extracted, rfl⟩ := exists_of_forall₂ extracts member
        have within := grows.takes step _ (next_mem_levelInsertions.mpr listed)
        rw [write_of_writesAll all extracted] at within
        exact within a b (.all a b)
    refine ⟨puts, fun step listed => ?_, fun step sub member => ?_⟩
    · rcases apart step listed with cover | idle
      · exact covered step cover
      · refine free_of_entry grows.fits.open (grows.fills step ?_ (fun mask listed => ?_)
          (nothing step))
        · exact List.mem_append_right _ (List.mem_map_of_mem listed)
        · obtain ⟨⟨step', sub⟩, member, masks', extracted, made⟩ :=
            mem_of_forall₂ extracts (next_mem_levelInsertions.mp listed)
          cases made
          exact write_of_writesNothing (idle sub member) extracted
    · by_cases cover : Covered patch step
      · exact Or.inl (covered step cover)
      · obtain ⟨insertion, listed, masks', extracted, rfl⟩ := exists_of_forall₂ extracts member
        refine Or.inr ⟨below' step sub member cover, masks', extracted, ?_⟩
        exact grows.takes step _ (next_mem_levelInsertions.mpr listed)

/-! ## Keys of an extracted patch -/

/-- Every key stands for a step: extraction throws at any other key. -/
def Known (keys : List Value) : Prop := ∀ key ∈ keys, ∃ step, stepOf key = some step

theorem known_of_insertKeys {result : Mask}
    (ok : insertKeysToMask keys mask = .ok result) : Known keys := by
  induction keys generalizing mask with
  | nil => exact nofun
  | cons key keys ih =>
    obtain ⟨inserted, first, rest⟩ := Except.bind_eq_ok ok
    intro k listed
    rcases List.mem_cons.mp listed with rfl | listed
    · cases k <;> simp [insertKeyToMask, getArrayKeyFromValue, bind, Except.bind] at first
      all_goals exact ⟨_, rfl⟩
    · exact ih rest k listed

theorem known_of_insertKeysIfNotAllMask {result : Mask}
    (open' : mask.isAllMask = false) (ok : insertKeysToMaskIfNotAllMask keys mask = .ok result) :
    Known keys := by
  rw [insertKeysToMaskIfNotAllMask, open', if_neg Bool.false_ne_true] at ok
  exact known_of_insertKeys ok

theorem known_of_insertNext {patches : List (Value × Value)}
    {extract : (sub : Object) → (∃ k, (k, Value.object sub) ∈ patches) →
      Except String ExtractedMasksFromPatch}
    (ok : insertNextToMask patches extract insertNextMapItem masks = .ok result) :
    Known (patches.map Prod.fst) := by
  induction patches generalizing masks with
  | nil => exact nofun
  | cons e patches ih =>
    obtain ⟨k, v⟩ := e
    cases v with
    | object sub =>
      obtain ⟨next, -, rest⟩ := Except.bind_eq_ok ok
      obtain ⟨inserted, here, rest⟩ := Except.bind_eq_ok rest
      obtain ⟨step, known, -⟩ := insertNextMapItem_ok here
      intro key listed
      rcases List.mem_cons.mp listed with rfl | listed
      · exact ⟨step, known⟩
      · exact ih rest key listed
    | _ => cases ok

theorem known_of_insertSubpatches {extract : ExtractBelow patch} {patches : List (Value × Value)}
    (found : findOp patch op = some (.map patches))
    (ok : insertSubpatches op patch extract masks = .ok result) : Known (patches.map Prod.fst) := by
  unfold insertSubpatches at ok
  split at ok
  · rename_i found'
    rw [found] at found'
    cases found'
  · rename_i found'
    rw [found] at found'
    cases found'
    exact known_of_insertNext ok
  · rename_i other
    exact absurd found (other patches)

theorem open_of_run {insertion : Insertion} {result : Mask} (open' : mask.isAllMask = false)
    (ok : insertion.run mask = .ok result) : result.isAllMask = false := by
  have union {K : Type} [Keyed K] {ref : IncludesRef K} {id : K} {next : Mask}
      (wrap : ∀ map, (ref.wrap map).isAllMask = false)
      (ok : insertMaskUnion ref mask id next = .ok result) : result.isAllMask = false := by
    rcases insertMaskUnion_ok open' ok with ⟨-, rfl⟩ | ⟨current, -, rfl⟩
    · exact open'
    · exact wrap _
  cases insertion with
  | whole step => exact open_of_run_whole open' ok
  | next step next =>
    cases step with
    | field id => exact union (fun _ => rfl) ok
    | mapId id => exact union (fun _ => rfl) ok
    | stringKey key => exact union (fun _ => rfl) ok
    | type _ =>
      cases ok
      exact open'

theorem open_of_runAll {insertions : List Insertion} {result : Mask}
    (open' : mask.isAllMask = false) (ok : runAll insertions mask = .ok result) :
    result.isAllMask = false := by
  induction insertions generalizing mask with
  | nil =>
    cases ok
    exact open'
  | cons insertion insertions ih =>
    obtain ⟨inserted, ran, rest⟩ := Except.bind_eq_ok ok
    exact ih (open_of_run open' ran) rest

/-- The keys of the map operations of a patch. -/
structure KnownKeys (patch : Object) : Prop where
  prior : ∀ entries, findOp patch .patchPrior = some (.map entries) → Known (entries.map Prod.fst)
  after : ∀ entries, findOp patch .patchAfter = some (.map entries) → Known (entries.map Prod.fst)
  put : ∀ entries, findOp patch .put = some (.map entries) → Known (entries.map Prod.fst)
  ensure : ∀ entries, findOp patch .ensureStruct = some (.map entries) →
    Known (entries.map Prod.fst)
  remove : ∀ keys, findOp patch .remove = some (.set keys) → Known keys

theorem knownKeys_of_extract
    (open' : writesAll patch = false) (ok : extractMaskFromPatch patch = .ok masks) :
    KnownKeys patch := by
  simp only [writesAll, Bool.or_eq_false_iff] at open'
  obtain ⟨⟨⟨⟨⟨assign, clear⟩, add⟩, put⟩, union⟩, remove⟩ := open'
  rw [extractMaskFromPatch] at ok
  simp only [assign, add, put, remove, Bool.or_self, Bool.false_eq_true, if_false] at ok
  obtain ⟨m₁, ran₁, rest⟩ := Except.bind_eq_ok ok
  obtain ⟨m₂, ran₂, rest⟩ := Except.bind_eq_ok rest
  obtain ⟨m₃, ran₃, rest⟩ := Except.bind_eq_ok rest
  obtain ⟨m₄, ran₄, rest⟩ := Except.bind_eq_ok rest
  obtain ⟨m₅, ran₅, rest⟩ := Except.bind_eq_ok rest
  obtain ⟨m₆, ran₆, rest⟩ := Except.bind_eq_ok rest
  have open₀ : (clearMasks patch).write.isAllMask = false := by
    rw [clearMasks, clear]
    rfl
  have open₃ : m₃.write.isAllMask = false := by
    obtain ⟨prior, -, ran⟩ := insertSubpatches_ok ran₂
    obtain ⟨after, -, ran'⟩ := insertSubpatches_ok ran₃
    exact open_of_runAll (open_of_runAll (open_of_runAll open₀ (insertPut_ok ran₁)) ran) ran'
  have open₄ := open_of_runAll open₃ (insertEnsureStruct_ok ran₄)
  have same : m₅ = m₄ := by
    unfold insertEnsureUnion at ran₅
    split at ran₅
    · rename_i found
      rw [found] at union
      cases union
    · exact (Except.ok.inj ran₅).symm
  refine ⟨fun entries found => known_of_insertSubpatches found ran₂,
    fun entries found => known_of_insertSubpatches found ran₃, fun entries found => ?_,
    fun entries found => ?_, fun keys found => ?_⟩
  · rw [insertPut, found] at ran₁
    obtain ⟨write, inserted, -⟩ := Except.bind_eq_ok ran₁
    exact known_of_insertKeysIfNotAllMask open₀ inserted
  · rw [insertEnsureStruct, found] at ran₄
    obtain ⟨read, inserted, -⟩ := Except.bind_eq_ok ran₄
    exact known_of_insertKeys inserted
  · rw [insertRemove, found] at ran₆
    obtain ⟨write, inserted, -⟩ := Except.bind_eq_ok ran₆
    exact known_of_insertKeysIfNotAllMask (same ▸ open₄) inserted

end FbThrift
