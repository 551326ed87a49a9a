import FbThrift.Patch.Coverage

/-!
# What the masks along a path cover

`extractMapMaskFromPatch` compared with `extractMaskFromPatch` below the path.  The write mask
covers at least what either mask of the other function does, as long as no patch on the path has
an operation that the walk does not look at (`Follows`).  The read mask covers what the patches
at the end of the path read, as long as nothing on the path overwrites it (`Leads`).
-/

namespace FbThrift

open SortedMap Mask

/-! ## Single paths -/

/-- The mask of a single path. -/
inductive SinglePath : Mask → List PathStep → Prop
  | here : SinglePath allMask []
  | field {id : Int16} {below : Mask} {path : List PathStep} (rest : SinglePath below path) :
    SinglePath (.includes [(id, below)]) (.field id :: path)
  | mapId {id : Int64} {below : Mask} {path : List PathStep} (rest : SinglePath below path) :
    SinglePath (.includesMap [(id, below)]) (.mapId id :: path)
  | stringKey {key : Bytes} {below : Mask} {path : List PathStep} (rest : SinglePath below path) :
    SinglePath (.includesStringMap [(key, below)]) (.stringKey key :: path)
  | type {type : FullType} {below : Mask} {path : List PathStep} (rest : SinglePath below path) :
    SinglePath (.includesType [(type, below)]) (.type type.1 :: path)

/-! ## Keys of one type -/

/-- The keys of the map, or the elements of the set, that an operation has. -/
def keysOf (patch : Object) (op : PatchOp) : List Value :=
  match findOp patch op with
  | some (.map entries) => entries.map Prod.fst
  | some (.set keys) => keys
  | _ => []

/-- The keys of all operations have the same type, as in a typed map. -/
def KeysAlike (patch : Object) : Prop :=
  ∀ op op', ∀ key ∈ keysOf patch op, ∀ key' ∈ keysOf patch op', key.getType = key'.getType

theorem eq_of_stepOf {key key' : Value} {step : PathStep} (type : key.getType = key'.getType)
    (here : stepOf key = some step) (here' : stepOf key' = some step) : key = key' := by
  have byte {a b : Int8} (same : a.toInt64 = b.toInt64) : a = b := by
    rw [← Int8.toInt8_toInt64 a, same, Int8.toInt8_toInt64]
  have i16 {a b : Int16} (same : a.toInt64 = b.toInt64) : a = b := by
    rw [← Int16.toInt16_toInt64 a, same, Int16.toInt16_toInt64]
  have i32 {a b : Int32} (same : a.toInt64 = b.toInt64) : a = b := by
    rw [← Int32.toInt32_toInt64 a, same, Int32.toInt32_toInt64]
  cases key <;> cases here <;> cases key' <;> cases type <;>
    simp only [stepOf, getMapIdFromValue, getStringFromValue, Option.some.injEq,
      PathStep.mapId.injEq, PathStep.stringKey.injEq] at here'
  · rw [byte here']
  · rw [i16 here']
  · rw [i32 here']
  all_goals rw [here']

/-- A key in the type of another one, that stands for a step. -/
def KeyAs (getValueAs : Value → Except String Value) (step : PathStep) : Prop :=
  ∀ first key, getValueAs first = .ok key → key.getType = first.getType ∧ stepOf key = some step

theorem keyAs_mapId (id : Int64) : KeyAs (getMapIdAs id) (.mapId id) := by
  intro first key made
  cases first <;> simp only [getMapIdAs, reduceCtorEq] at made
  case i64 =>
    cases made
    exact ⟨rfl, rfl⟩
  all_goals
    split at made
    · cases made
    rename_i fits
    simp [Int64.lt_iff_toInt_lt] at fits
    cases made
  case byte =>
    have back : id.toInt8.toInt64 = id := by
      rw [← Int64.toInt_inj, Int8.toInt_toInt64, Int64.toInt_toInt8]
      exact Int.bmod_eq_of_le (by omega) (by omega)
    exact ⟨rfl, by simp only [stepOf, getMapIdFromValue, back]⟩
  case i16 =>
    have back : id.toInt16.toInt64 = id := by
      rw [← Int64.toInt_inj, Int16.toInt_toInt64, Int64.toInt_toInt16]
      exact Int.bmod_eq_of_le (by omega) (by omega)
    exact ⟨rfl, by simp only [stepOf, getMapIdFromValue, back]⟩
  case i32 =>
    have back : id.toInt32.toInt64 = id := by
      rw [← Int64.toInt_inj, Int32.toInt_toInt64, Int64.toInt_toInt32]
      exact Int.bmod_eq_of_le (by omega) (by omega)
    exact ⟨rfl, by simp only [stepOf, getMapIdFromValue, back]⟩

theorem keyAs_string (key : Bytes) : KeyAs (getStringAs key) (.stringKey key) := by
  intro first key' made
  cases first <;> simp only [getStringAs, reduceCtorEq, Except.ok.injEq] at made
  all_goals
    subst made
    exact ⟨rfl, rfl⟩

/-! ## What an operation has at a step -/

/-- The value that an operation has at a step. -/
inductive At (patch : Object) (op : PatchOp) : PathStep → Value → Prop
  | field {fields : Object} {id : Int16} {v : Value}
    (found : findOp patch op = some (.object fields)) (member : (id, v) ∈ fields) :
    At patch op (.field id) v
  | key {entries : List (Value × Value)} {key v : Value} {step : PathStep}
    (found : findOp patch op = some (.map entries)) (member : (key, v) ∈ entries)
    (here : stepOf key = some step) : At patch op step v

theorem at_of_nestedAt {patch sub : Object} {op : PatchOp} {step : PathStep}
    (listed : (step, sub) ∈ nestedAt patch op) : At patch op step (.object sub) := by
  unfold nestedAt at listed
  split at listed
  · rename_i fields found
    obtain ⟨⟨id, v⟩, member, made⟩ := List.mem_filterMap.mp listed
    cases v <;> simp [Value.ifObject] at made
    obtain ⟨rfl, rfl⟩ := made
    exact .field found member
  · rename_i entries found
    obtain ⟨⟨key, v⟩, member, made⟩ := List.mem_filterMap.mp listed
    cases here : stepOf key with
    | none => simp [here] at made
    | some step' =>
      cases v <;> simp [here, Value.ifObject] at made
      obtain ⟨rfl, rfl⟩ := made
      exact .key found member here
  · cases listed

theorem at_of_putSteps {patch : Object} {step : PathStep} (listed : step ∈ putSteps patch) :
    ∃ v, At patch .put step v := by
  unfold putSteps at listed
  split at listed
  · rename_i entries found
    obtain ⟨key, member, here⟩ := List.mem_filterMap.mp listed
    obtain ⟨⟨key, v⟩, entry, rfl⟩ := List.mem_map.mp member
    exact ⟨v, .key found entry here⟩
  · cases listed

/-- What visiting an operation makes of the masks. -/
structure Visits (patch : Object) (op : PatchOp) (step : PathStep)
    (found : Value → ExtractedMasksFromPatch → Except String ExtractedMasksFromPatch)
    (before after : ExtractedMasksFromPatch) : Prop where
  /-- The value at the step is looked at, when the keys tell which one it is. -/
  each : (Value.object patch).Wf → KeysAlike patch → ∀ v, At patch op step v →
    found v before = .ok after
  /-- At most one value is. -/
  idle : after = before ∨ ∃ v, found v before = .ok after

section Visit

variable {patch : Object} {op : PatchOp}
variable {found : Value → ExtractedMasksFromPatch → Except String ExtractedMasksFromPatch}

theorem At.present {step : PathStep} {v : Value} (here : At patch op step v) :
    findOp patch op ≠ none := by
  cases here with
  | field found _ => exact found ▸ nofun
  | key found _ _ => exact found ▸ nofun

theorem visitField_ok {id : Int16} {before after : ExtractedMasksFromPatch}
    (ok : visitField op patch id found before = .ok after) :
    Visits patch op (.field id) found before after := by
  unfold visitField at ok
  split at ok
  · rename_i absent
    exact ⟨fun _ _ v here => absurd absent here.present, Or.inl (Except.ok.inj ok).symm⟩
  · rename_i arg present
    obtain ⟨fields, object, rest⟩ := Except.bind_eq_ok ok
    cases arg <;> cases object
    have listed (wf : (Value.object patch).Wf) {v : Value} (here : At patch op (.field id) v) :
        find id fields = some v := by
      have sorted : Sorted fields := (wf_of_findOp wf present).1
      cases here with
      | field found member =>
        cases present.symm.trans found
        exact sorted.mem_iff.mp member
      | key found _ _ => cases present.symm.trans found
    split at rest
    · rename_i v value
      refine ⟨fun wf _ v' here => ?_, Or.inr ⟨v, rest⟩⟩
      cases value.symm.trans (listed wf here)
      exact rest
    · rename_i lacking
      refine ⟨fun wf _ v here => ?_, Or.inl (Except.ok.inj rest).symm⟩
      cases lacking.symm.trans (listed wf here)

/-- The key, once it is known, stands for the step and has the type of the keys. -/
def KnownKey (patch : Object) (step : PathStep) (key : Option Value) : Prop :=
  ∀ k, key = some k → stepOf k = some step ∧ ∃ op, ∃ k' ∈ keysOf patch op, k.getType = k'.getType

theorem visitKey_ok {step : PathStep} {getValueAs : Value → Except String Value}
    (as : KeyAs getValueAs step) {before after : KeyedMasks}
    (known : KnownKey patch step before.key)
    (ok : visitKey op patch getValueAs found before = .ok after) :
    KnownKey patch step after.key ∧ Visits patch op step found before.rwmask after.rwmask := by
  unfold visitKey at ok
  split at ok
  · rename_i absent
    cases ok
    exact ⟨known, fun _ _ v here => absurd absent here.present, Or.inl rfl⟩
  · rename_i arg present
    obtain ⟨map, isMap, rest⟩ := Except.bind_eq_ok ok
    cases arg <;> cases isMap
    split at rest
    · cases rest
      refine ⟨known, fun _ _ v here => ?_, Or.inl rfl⟩
      cases here with
      | field found _ => cases present.symm.trans found
      | key found member _ =>
        cases present.symm.trans found
        cases member
    · rename_i first v map
      have keys : keysOf patch op = ((first, v) :: map).map Prod.fst := by rw [keysOf, present]
      obtain ⟨key, typed, rest⟩ := Except.bind_eq_ok rest
      have key_ok : stepOf key = some step ∧
          ∃ op, ∃ k' ∈ keysOf patch op, key.getType = k'.getType := by
        unfold KeyedMasks.keyLike at typed
        split at typed
        · rename_i _ k present
          cases typed
          exact known key present
        · obtain ⟨type, here⟩ := as first key typed
          exact ⟨here, op, first, keys ▸ List.mem_cons_self, type⟩
      obtain ⟨here, op', k', member', type⟩ := key_ok
      have known' : KnownKey patch step (some key) := by
        intro k equal
        cases equal
        exact ⟨here, op', k', member', type⟩
      have listed (wf : (Value.object patch).Wf) (alike : KeysAlike patch) {w : Value}
          (entry : At patch op step w) : find key ((first, v) :: map) = some w := by
        have sorted : Sorted ((first, v) :: map) := (wf_of_findOp wf present).1
        cases entry with
        | field found _ => cases present.symm.trans found
        | @key entries k _ _ found member at' =>
          cases present.symm.trans found
          have member'' : k ∈ keysOf patch op := keys ▸ List.mem_map_of_mem member
          have same : k.getType = key.getType :=
            (alike op op' k member'' k' member').trans type.symm
          rw [← eq_of_stepOf same at' here]
          exact sorted.mem_iff.mp member
      split at rest
      · rename_i w value
        obtain ⟨rwmask, ran, made⟩ := Except.bind_eq_ok rest
        cases made
        refine ⟨known', fun wf alike w' entry => ?_, Or.inr ⟨w, ran⟩⟩
        cases value.symm.trans (listed wf alike entry)
        exact ran
      · rename_i lacking
        cases rest
        refine ⟨known', fun wf alike w entry => ?_, Or.inl rfl⟩
        cases lacking.symm.trans (listed wf alike entry)

theorem addEnsured_eq {v : Value} {before after : ExtractedMasksFromPatch}
    (ok : addEnsured v before = .ok after) : after = before := by
  simp only [addEnsured, inter_allMask_right, bind, Except.bind, Except.ok.injEq] at ok
  exact ok.symm

end Visit

/-! ## Remove at a step -/

theorem removesField_iff {patch : Object} {id : Int16} {removed : Bool}
    (ok : removesField patch id = .ok removed) :
    removed = true ↔ PathStep.field id ∈ removeSteps patch := by
  unfold removesField at ok
  unfold removeSteps
  split at ok
  · rename_i absent
    rw [absent, ← Except.ok.inj ok]
    simp
  · rename_i arg present
    obtain ⟨ids, isList, made⟩ := Except.bind_eq_ok ok
    cases arg <;> cases isList
    rw [present, ← Except.ok.inj made, decide_eq_true_iff]
    constructor
    · exact fun member => List.mem_filterMap.mpr ⟨_, member, rfl⟩
    · intro member
      obtain ⟨v, member, here⟩ := List.mem_filterMap.mp member
      cases v <;> cases here
      exact member

theorem removesKey_iff {patch : Object} (alike : KeysAlike patch) {step : PathStep}
    {getValueAs : Value → Except String Value} (as : KeyAs getValueAs step) {removed : Bool}
    (ok : removesKey patch getValueAs = .ok removed) :
    removed = true ↔ step ∈ removeSteps patch := by
  unfold removesKey at ok
  unfold removeSteps
  split at ok
  · rename_i absent
    rw [absent, ← Except.ok.inj ok]
    simp
  · rename_i arg present
    obtain ⟨set, isSet, rest⟩ := Except.bind_eq_ok ok
    cases arg <;> cases isSet
    rw [present]
    split at rest
    · rw [← Except.ok.inj rest]
      simp [keySteps]
    · rename_i first set
      obtain ⟨key, typed, made⟩ := Except.bind_eq_ok rest
      rw [← Except.ok.inj made, decide_eq_true_iff]
      have keys : keysOf patch .remove = first :: set := by rw [keysOf, present]
      obtain ⟨type, here⟩ := as first key typed
      constructor
      · exact fun member => List.mem_filterMap.mpr ⟨key, member, here⟩
      · intro member
        obtain ⟨k, member, here'⟩ := List.mem_filterMap.mp member
        have same := alike .remove .remove k (keys ▸ member) first (keys ▸ List.mem_cons_self)
        exact eq_of_stepOf (same.trans type.symm) here' here ▸ member

/-! ## One level of the walk -/

/-- What the operations of a patch at a step make of the masks, unless Remove has the step. -/
def Level (patch : Object) (step : PathStep)
    (extract : Object → Except String ExtractedMasksFromPatch) (here : ExtractedMasksFromPatch) :
    Prop :=
  ∃ put prior, (put = noMasks ∨ put = overwritten) ∧
    ((Value.object patch).Wf → KeysAlike patch → step ∈ putSteps patch → put = overwritten) ∧
    Visits patch .patchPrior step (addBelow extract) put prior ∧
    Visits patch .patchAfter step (addBelow extract) prior here

/-- A level of the walk: Remove ends it, or the other operations are looked at. -/
def Outcome (patch : Object) (step : PathStep)
    (extract : Object → Except String ExtractedMasksFromPatch) (here : ExtractedMasksFromPatch) :
    Prop :=
  (KeysAlike patch → step ∈ removeSteps patch) ∧ here = overwritten ∨
    (KeysAlike patch → step ∉ removeSteps patch) ∧ Level patch step extract here

section Outcomes

variable {patch : Object} {extract : Object → Except String ExtractedMasksFromPatch}
variable {here : ExtractedMasksFromPatch}

theorem Visits.ensured {step : PathStep} {before after : ExtractedMasksFromPatch}
    (visits : Visits patch .ensureStruct step addEnsured before after) : after = before := by
  rcases visits.idle with same | ⟨v, ran⟩
  · exact same
  · exact addEnsured_eq ran

theorem extractFieldMask_ok {id : Int16} (ok : extractFieldMask patch id extract = .ok here) :
    Outcome patch (.field id) extract here := by
  obtain ⟨removed, removes, rest⟩ := Except.bind_eq_ok ok
  have member := removesField_iff removes
  split at rest
  · rename_i yes
    exact Or.inl ⟨fun _ => member.mp yes, (Except.ok.inj rest).symm⟩
  · rename_i no
    obtain ⟨prior, ran, rest⟩ := Except.bind_eq_ok rest
    obtain ⟨after, ran', rest⟩ := Except.bind_eq_ok rest
    have same := (visitField_ok rest).ensured
    subst same
    refine Or.inr ⟨fun _ listed => no (member.mpr listed), noMasks, prior, Or.inl rfl, ?_,
      visitField_ok ran, visitField_ok ran'⟩
    -- The step of a field is not one of a key.
    intro _ _ put
    unfold putSteps at put
    split at put
    · obtain ⟨key, -, here⟩ := List.mem_filterMap.mp put
      cases key <;> cases here
    · cases put

theorem extractMapMask_ok {step : PathStep} {getValueAs : Value → Except String Value}
    (as : KeyAs getValueAs step)
    (ok : extractMapMaskFromPatchMapImpl patch getValueAs extract = .ok here) :
    Outcome patch step extract here := by
  obtain ⟨removed, removes, rest⟩ := Except.bind_eq_ok ok
  split at rest
  · rename_i yes
    exact Or.inl ⟨fun alike => (removesKey_iff alike as removes).mp yes, (Except.ok.inj rest).symm⟩
  · rename_i no
    obtain ⟨put, ran₁, rest⟩ := Except.bind_eq_ok rest
    obtain ⟨prior, ran₂, rest⟩ := Except.bind_eq_ok rest
    obtain ⟨after, ran₃, rest⟩ := Except.bind_eq_ok rest
    obtain ⟨ensured, ran₄, made⟩ := Except.bind_eq_ok rest
    obtain ⟨known₁, visits₁⟩ := visitKey_ok as (fun k none => by cases none) ran₁
    obtain ⟨known₂, visits₂⟩ := visitKey_ok as known₁ ran₂
    obtain ⟨known₃, visits₃⟩ := visitKey_ok as known₂ ran₃
    obtain ⟨-, visits₄⟩ := visitKey_ok as known₃ ran₄
    rw [← Except.ok.inj made, visits₄.ensured]
    refine Or.inr ⟨fun alike listed => no ((removesKey_iff alike as removes).mpr listed),
      put.rwmask, prior.rwmask, ?_, fun wf alike listed => ?_, visits₂, visits₃⟩
    · rcases visits₁.idle with same | ⟨v, ran⟩
      · exact Or.inl same
      · exact Or.inr (Except.ok.inj ran).symm
    · obtain ⟨v, entry⟩ := at_of_putSteps listed
      exact (Except.ok.inj (visits₁.each wf alike v entry)).symm

end Outcomes

variable {mask : Mask} {path : List PathStep}

theorem extractMapMask_cases {patch : Object}
    (single : SinglePath mask path) {here : ExtractedMasksFromPatch}
    (ok : extractMapMaskFromPatchImpl patch mask = .ok here) :
    path = [] ∧ extractMaskFromPatchAs true patch = .ok here ∨
      clears patch = true ∧ here = overwritten ∨
      ∃ step rest below, path = step :: rest ∧ SinglePath below rest ∧ clears patch = false ∧
        Outcome patch step (fun sub => extractMapMaskFromPatchImpl sub below) here := by
  rw [extractMapMaskFromPatchImpl.eq_def] at ok
  cases single with
  | here => exact Or.inl ⟨rfl, ok⟩
  | field rest | mapId rest | stringKey rest | type rest =>
    refine Or.inr ?_
    cases cleared : clears patch with
    | true =>
      rw [cleared] at ok
      exact Or.inl ⟨rfl, (Except.ok.inj ok).symm⟩
    | false =>
      rw [cleared] at ok
      refine Or.inr ⟨_, _, _, rfl, rest, rfl, ?_⟩
      first
        | exact extractFieldMask_ok ok
        | exact extractMapMask_ok (keyAs_mapId _) ok
        | exact extractMapMask_ok (keyAs_string _) ok
        | cases ok

/-! ## Masks that cover more -/

/-- Every path that the first masks cover is covered by the second. -/
structure CoveredBy (a b : ExtractedMasksFromPatch) : Prop where
  read : ∀ path, a.read.Covers path → b.read.Covers path
  write : ∀ path, a.write.Covers path → b.write.Covers path

theorem CoveredBy.refl (a : ExtractedMasksFromPatch) : CoveredBy a a :=
  ⟨fun _ covers => covers, fun _ covers => covers⟩

theorem CoveredBy.trans {a b c : ExtractedMasksFromPatch} (first : CoveredBy a b)
    (second : CoveredBy b c) : CoveredBy a c :=
  ⟨fun path covers => second.read path (first.read path covers),
    fun path covers => second.write path (first.write path covers)⟩

theorem inclusive_noMasks : noMasks.Inclusive := ⟨inclusive_noneMask, inclusive_noneMask⟩

theorem inclusive_overwritten : overwritten.Inclusive := ⟨inclusive_noneMask, .all⟩

theorem ExtractedMasksFromPatch.Inclusive.union {a b both : ExtractedMasksFromPatch}
    (left : a.Inclusive) (right : b.Inclusive) (ok : a.union b = .ok both) :
    both.Inclusive ∧ CoveredBy a both ∧ CoveredBy b both := by
  obtain ⟨read, ran, rest⟩ := Except.bind_eq_ok ok
  obtain ⟨write, ran', made⟩ := Except.bind_eq_ok rest
  rw [← Except.ok.inj made]
  have reads := left.read.covers_union right.read ran
  have writes := left.write.covers_union right.write ran'
  refine ⟨⟨(left.read.union right.read ran).1, (left.write.union right.write ran').1⟩, ?_, ?_⟩
  · exact ⟨fun path covers => (reads path).mpr (Or.inl covers),
      fun path covers => (writes path).mpr (Or.inl covers)⟩
  · exact ⟨fun path covers => (reads path).mpr (Or.inr covers),
      fun path covers => (writes path).mpr (Or.inr covers)⟩

section Below

variable {patch : Object} {step : PathStep}
variable {extract : Object → Except String ExtractedMasksFromPatch}
variable {here : ExtractedMasksFromPatch}

variable {before after : ExtractedMasksFromPatch}

theorem addBelow_ok (each : ∀ sub below, extract sub = .ok below → below.Inclusive) {v : Value}
    (inclusive : before.Inclusive)
    (ok : addBelow extract v before = .ok after) :
    after.Inclusive ∧ CoveredBy before after ∧
      ∃ sub below, v = .object sub ∧ extract sub = .ok below ∧ CoveredBy below after := by
  obtain ⟨sub, object, rest⟩ := Except.bind_eq_ok ok
  obtain ⟨below, ran, union⟩ := Except.bind_eq_ok rest
  obtain ⟨inclusive', covers, covers'⟩ := inclusive.union (each sub below ran) union
  cases v <;> cases object
  exact ⟨inclusive', covers, _, below, rfl, ran, covers'⟩

theorem Visits.covers (each : ∀ sub below, extract sub = .ok below → below.Inclusive)
    {op : PatchOp} (inclusive : before.Inclusive)
    (visits : Visits patch op step (addBelow extract) before after) :
    after.Inclusive ∧ CoveredBy before after := by
  rcases visits.idle with rfl | ⟨v, ran⟩
  · exact ⟨inclusive, CoveredBy.refl _⟩
  · obtain ⟨inclusive', covers, -⟩ := addBelow_ok each inclusive ran
    exact ⟨inclusive', covers⟩

theorem Visits.below (each : ∀ sub below, extract sub = .ok below → below.Inclusive)
    {op : PatchOp} (inclusive : before.Inclusive)
    (visits : Visits patch op step (addBelow extract) before after)
    (wf : (Value.object patch).Wf) (alike : KeysAlike patch) {sub : Object}
    (listed : (step, sub) ∈ nestedAt patch op) :
    ∃ below, extract sub = .ok below ∧ CoveredBy below after := by
  have ran := visits.each wf alike _ (at_of_nestedAt listed)
  obtain ⟨-, -, sub', below, same, extracted, covers⟩ := addBelow_ok each inclusive ran
  cases same
  exact ⟨below, extracted, covers⟩

theorem Level.covers (each : ∀ sub below, extract sub = .ok below → below.Inclusive)
    (level : Level patch step extract here) :
    here.Inclusive ∧ ((Value.object patch).Wf → KeysAlike patch →
      (step ∈ putSteps patch → ∀ path, here.write.Covers path) ∧
      ∀ sub, (step, sub) ∈ nested patch →
        ∃ below, extract sub = .ok below ∧ CoveredBy below here) := by
  obtain ⟨put, prior, kept, puts, visits, visits'⟩ := level
  have inclusive : put.Inclusive := by
    rcases kept with rfl | rfl
    · exact inclusive_noMasks
    · exact inclusive_overwritten
  obtain ⟨inclusive', covers⟩ := visits.covers each inclusive
  obtain ⟨inclusive'', covers'⟩ := visits'.covers each inclusive'
  refine ⟨inclusive'', fun wf alike => ⟨fun listed path => ?_, fun sub listed => ?_⟩⟩
  · refine (covers.trans covers').write path ?_
    rw [puts wf alike listed]
    exact covers_allMask path
  · rcases List.mem_append.mp listed with before | after
    · obtain ⟨below, ran, covers⟩ := visits.below each inclusive wf alike before
      exact ⟨below, ran, covers.trans covers'⟩
    · exact visits'.below each inclusive' wf alike after

end Below

theorem inclusive_extractMapMask {patch : Object}
    (single : SinglePath mask path) {here : ExtractedMasksFromPatch}
    (ok : extractMapMaskFromPatchImpl patch mask = .ok here) : here.Inclusive := by
  induction path generalizing patch mask here with
  | nil =>
    rcases extractMapMask_cases single ok with ⟨-, last⟩ | ⟨-, rfl⟩ | ⟨_, _, _, steps, -⟩
    · exact (inclusive_extractAs patch last).1
    · exact inclusive_overwritten
    · cases steps
  | cons step path ih =>
    rcases extractMapMask_cases single ok with ⟨steps, -⟩ | ⟨-, rfl⟩ |
      ⟨_, _, below, steps, single', -, outcome⟩
    · cases steps
    · exact inclusive_overwritten
    · cases steps
      rcases outcome with ⟨-, rfl⟩ | ⟨-, level⟩
      · exact inclusive_overwritten
      · exact (level.covers fun sub below ran => ih single' ran).1

/-! ## What the masks along a path cover -/

/-- An operation that extraction along a path does not look at, but that writes everything or
the value at the step. -/
def Misses (patch : Object) (step : PathStep) : Prop :=
  hasNonDefault patch .add = true ∨ putsWhole patch = true ∨
    (findOp patch .ensureUnion).isSome = true ∨ removesWhole patch = true ∨
    step ∈ ensureSteps patch

/-- An operation that gives up the value at a step. -/
def Discards (patch : Object) (step : PathStep) : Prop :=
  clears patch = true ∨ KeysAlike patch ∧ step ∈ removeSteps patch

/-- Along the path, map extraction misses no operation that writes, unless the value is replaced
by one that it looks at. -/
inductive Follows : Object → List PathStep → Prop
  | last {patch : Object}
    (known : (findOp patch .assign).isSome = true ∨ removesWhole patch = false) :
    Follows patch []
  | replaced {patch : Object} {step : PathStep} {path : List PathStep}
    (gone : Discards patch step ∨ KeysAlike patch ∧ step ∈ putSteps patch) :
    Follows patch (step :: path)
  | through {patch : Object} {step : PathStep} {path : List PathStep} (alike : KeysAlike patch)
    (seen : ¬ Misses patch step)
    (below : ∀ sub, (step, sub) ∈ nested patch → Follows sub path) : Follows patch (step :: path)

/-- The path leads to a patch, and no patch on the way gives up what is below. -/
inductive Leads : Object → List PathStep → Object → Prop
  | last (patch : Object) : Leads patch [] patch
  | through {patch sub leaf : Object} {step : PathStep} {path : List PathStep}
    (alike : KeysAlike patch) (kept : ¬ Discards patch step)
    (listed : (step, sub) ∈ nested patch) (rest : Leads sub path leaf) :
    Leads patch (step :: path) leaf

theorem wf_of_nested {patch sub : Object} {step : PathStep} (wf : (Value.object patch).Wf)
    (listed : (step, sub) ∈ nested patch) : (Value.object sub).Wf := by
  have each {op : PatchOp} (listed : (step, sub) ∈ nestedAt patch op) : (Value.object sub).Wf := by
    cases at_of_nestedAt listed with
    | field found member =>
      exact (wf_object_iff.mp (wf_of_findOp wf found)).each _ member
    | key found member _ =>
      exact ((wf_map_iff.mp (wf_of_findOp wf found)).each _ member).2
  rcases List.mem_append.mp listed with prior | after
  · exact each prior
  · exact each after

/-- At the end of a path, where Remove is not taken for the one of a set, nothing changes. -/
theorem extractAs_true {patch : Object}
    (known : (findOp patch .assign).isSome = true ∨ removesWhole patch = false) :
    extractMaskFromPatchAs true patch = extractMaskFromPatch patch := by
  rw [← extractMaskFromPatchAs_false]
  unfold extractMaskFromPatchAs
  rcases known with assign | remove
  · simp only [assign, if_true]
  · simp only [remove, Bool.false_and]

theorem write_covers {patch : Object}
    (wf : (Value.object patch).Wf) (single : SinglePath mask path) (follows : Follows patch path)
    {masks here : ExtractedMasksFromPatch} (ok : extractMaskFromPatch patch = .ok masks)
    (ok' : extractMapMaskFromPatchImpl patch mask = .ok here) (rest : List PathStep)
    (covers : masks.write.Covers (path ++ rest)) : here.write.Covers rest := by
  induction path generalizing patch mask masks here with
  | nil =>
    rcases extractMapMask_cases single ok' with ⟨-, last⟩ | ⟨-, rfl⟩ | ⟨_, _, _, steps, -⟩
    · cases follows with
      | last known =>
        rw [extractAs_true known, ok] at last
        exact Except.ok.inj last ▸ covers
    · exact covers_allMask rest
    · cases steps
  | cons step path ih =>
    rcases extractMapMask_cases single ok' with ⟨steps, -⟩ | ⟨-, rfl⟩ |
      ⟨_, _, below, steps, single', uncleared, outcome⟩
    · cases steps
    · exact covers_allMask rest
    cases steps
    rcases outcome with ⟨-, rfl⟩ | ⟨kept, level⟩
    · exact covers_allMask rest
    obtain ⟨-, each⟩ := level.covers fun sub below ran => inclusive_extractMapMask single' ran
    cases follows with
    | replaced gone =>
      rcases gone with (cleared | ⟨alike, removed⟩) | ⟨alike, put⟩
      · cases uncleared.symm.trans cleared
      · exact absurd removed (kept alike)
      · exact (each wf alike).1 put rest
    | through alike seen follows =>
      obtain ⟨puts, subs⟩ := each wf alike
      rcases covers_write ok covers with all | put | ensure | remove |
        ⟨sub, masks', listed, extracted, covers'⟩
      · -- Whatever writes everything is looked at or missed.
        simp only [clears, Bool.or_eq_false_iff] at uncleared
        simp only [Misses, not_or, Bool.not_eq_true] at seen
        obtain ⟨add, putWhole, union, remove, -⟩ := seen
        simp [writesAll, uncleared.1, uncleared.2, add, putWhole, union, remove] at all
      · exact puts put rest
      · exact absurd (Or.inr (Or.inr (Or.inr (Or.inr ensure)))) seen
      · exact absurd remove (kept alike)
      · obtain ⟨below', ran, covered⟩ := subs sub listed
        refine covered.write rest ?_
        exact ih (wf_of_nested wf listed) single' (follows sub listed) extracted ran covers'

theorem read_covers {patch leaf : Object}
    (wf : (Value.object patch).Wf) (single : SinglePath mask path) (leads : Leads patch path leaf)
    {last here : ExtractedMasksFromPatch} (ok : extractMaskFromPatchAs true leaf = .ok last)
    (ok' : extractMapMaskFromPatchImpl patch mask = .ok here) (rest : List PathStep)
    (covers : last.read.Covers rest) : here.read.Covers rest := by
  induction leads generalizing mask here with
  | last patch =>
    cases single
    rw [extractMapMaskFromPatchImpl.eq_def, isAllMask_allMask, if_pos rfl, ok] at ok'
    exact Except.ok.inj ok' ▸ covers
  | @through patch sub leaf step path alike kept listed _ ih =>
    rcases extractMapMask_cases single ok' with ⟨steps, -⟩ | ⟨cleared, -⟩ |
      ⟨_, _, below, steps, single', -, outcome⟩
    · cases steps
    · exact absurd (Or.inl cleared) kept
    cases steps
    rcases outcome with ⟨removed, -⟩ | ⟨-, level⟩
    · exact absurd (Or.inr ⟨alike, removed alike⟩) kept
    obtain ⟨-, each⟩ := level.covers fun sub below ran => inclusive_extractMapMask single' ran
    obtain ⟨below', ran, covered⟩ := (each wf alike).2 sub listed
    exact covered.read rest (ih (wf_of_nested wf listed) single' ok ran)

/-- Map extraction over-approximates: its masks cover below the path what the masks of the
patch cover. -/
def MapMasksCover (patch : Object) (mask : Mask) (path : List PathStep) : Prop :=
  ∀ masks here, extractMaskFromPatch patch = .ok masks →
    extractMapMaskFromPatch patch mask = .ok here →
    ∀ rest, (masks.read.Covers (path ++ rest) → here.read.Covers rest) ∧
      (masks.write.Covers (path ++ rest) → here.write.Covers rest)

/-- The write mask along a path covers what either mask of the patch covers below the path, when
no operation on the way is missed; the read mask covers what the patches at the end read. -/
theorem extractMapMask_covers {patch : Object} {mask : Mask} {path : List PathStep}
    (wf : (Value.object patch).Wf) (single : SinglePath mask path)
    {masks here : ExtractedMasksFromPatch} (ok : extractMaskFromPatch patch = .ok masks)
    (ok' : extractMapMaskFromPatch patch mask = .ok here) :
    (Follows patch path → ∀ rest,
      masks.write.Covers (path ++ rest) ∨ masks.read.Covers (path ++ rest) →
        here.write.Covers rest) ∧
    ∀ leaf last, Leads patch path leaf → extractMaskFromPatchAs true leaf = .ok last →
      ∀ rest, last.read.Covers rest → here.read.Covers rest := by
  obtain ⟨-, -, walked⟩ := Except.bind_eq_ok ok'
  have within : ReadsWithinWrites masks :=
    (inclusive_extractAs patch ((extractMaskFromPatchAs_false patch).trans ok)).2
  refine ⟨fun follows rest covers => ?_, fun leaf last leads ok rest covers => ?_⟩
  · have writes : masks.write.Covers (path ++ rest) := covers.elim id (within _)
    exact write_covers wf single follows ok walked rest writes
  · exact read_covers wf single leads ok walked rest covers

/-- Where the masks along a path miss something that the masks of the patch cover. -/
def Breaks (patch : Object) (mask : Mask) (path : List PathStep) : Prop :=
  (Value.object patch).Wf ∧ SinglePath mask path ∧ ¬ MapMasksCover patch mask path

instance Except.decEq {ε α : Type} [DecidableEq ε] [DecidableEq α] : DecidableEq (Except ε α)
  | .error _, .error _ => decidable_of_iff' _ (iff_of_eq (Except.error.injEq ..))
  | .ok _, .ok _ => decidable_of_iff' _ (iff_of_eq (Except.ok.injEq ..))
  | .error _, .ok _ => isFalse (by rintro ⟨⟩)
  | .ok _, .error _ => isFalse (by rintro ⟨⟩)

theorem breaks_of {patch : Object}
    {masks here : ExtractedMasksFromPatch} (wf : (Value.object patch).Wf)
    (single : SinglePath mask path) (ok : extractMaskFromPatch patch = .ok masks)
    (ok' : extractMapMaskFromPatch patch mask = .ok here)
    (misses : masks.read.follow path = .ok allMask ∧ here.read ≠ allMask ∨
      masks.write.follow path = .ok allMask ∧ here.write ≠ allMask) :
    Breaks patch mask path := by
  refine ⟨wf, single, fun covers => ?_⟩
  obtain ⟨reads, writes⟩ := covers masks here ok ok' []
  rw [List.append_nil] at reads writes
  rcases misses with ⟨follows, other⟩ | ⟨follows, other⟩
  · exact other (Except.ok.inj (covers_iff.mp (reads (covers_iff.mpr follows))))
  · exact other (Except.ok.inj (covers_iff.mp (writes (covers_iff.mpr follows))))

/-- Field 1 is assigned below a PatchPrior, where the presence of the field is read but the map
extraction reads nothing; is patched after a Clear; loses a key of a set or map; is ensured in a
struct; is ensured in a union; and a map is patched at keys of different types. -/
theorem not_mapMasksCover :
    Breaks [(3, .object [(1, .object [(1, .i32 5)])])] (.includes [(1, allMask)]) [.field 1] ∧
    Breaks [(2, .bool true), (3, .object [(1, .object [(8, .i32 1)])])]
      (.includes [(1, allMask)]) [.field 1] ∧
    Breaks [(3, .object [(1, .object [(7, .set [.i32 5])])])] (.includes [(1, allMask)])
      [.field 1] ∧
    Breaks [(5, .object [(1, .i32 0)])] (.includes [(1, allMask)]) [.field 1] ∧
    Breaks [(4, .object [(1, .i32 0)])] (.includes [(1, allMask)]) [.field 1] ∧
    Breaks [(3, .map [(.i32 1, .object [(1, .i32 5)]), (.i64 2, .object [(1, .i32 5)])])]
      (.includesMap [(2, allMask)]) [.mapId 2] := by
  let field : ExtractedMasksFromPatch := ⟨.includes [(1, allMask)], .includes [(1, allMask)]⟩
  let keys : ExtractedMasksFromPatch :=
    ⟨.includesMap [(1, allMask), (2, allMask)], .includesMap [(1, allMask), (2, allMask)]⟩
  let key : ExtractedMasksFromPatch := ⟨noneMask, .includesMap [(5, allMask)]⟩
  refine ⟨@breaks_of _ _ _ field overwritten ?_ (.field .here) ?_ ?_ (Or.inl ?_),
    @breaks_of _ _ _ ⟨.includes [(1, allMask)], allMask⟩ overwritten ?_ (.field .here) ?_ ?_
      (Or.inl ?_),
    @breaks_of _ _ _ field key ?_ (.field .here) ?_ ?_ (Or.inr ?_),
    @breaks_of _ _ _ field noMasks ?_ (.field .here) ?_ ?_ (Or.inr ?_),
    @breaks_of _ _ _ ⟨.includes [(1, allMask)], allMask⟩ noMasks ?_ (.field .here) ?_ ?_
      (Or.inr ?_),
    @breaks_of _ _ _ keys noMasks ?_ (.mapId .here) ?_ ?_ (Or.inr ?_)⟩
  all_goals first
    | decide +kernel
    | simp only [Value.Wf, Value.WfMembers, Value.WfEntries, Value.WfElems]
      decide

/-- Key "a" of the map in field 1 is added to, which reads and writes it. -/
theorem extractMapMask_covers_at : let patch : Object :=
      [(3, .object [(1, .object [(3, .map [(.string [97], .object [(8, .i32 1)])])])])]
    ∃ here, extractMapMaskFromPatch patch (.includes [(1, .includesStringMap [([97], allMask)])]) =
      .ok here ∧ here.read.Covers [] ∧ here.write.Covers [] := by
  intro patch
  have wf : (Value.object patch).Wf := by
    simp only [patch, Value.Wf, Value.WfMembers, Value.WfEntries]
    decide
  have single : SinglePath (.includes [(1, .includesStringMap [([97], allMask)])])
      [.field 1, .stringKey [97]] := .field (.stringKey .here)
  have ok : extractMaskFromPatch patch = .ok ⟨.includes [(1, .includesStringMap [([97], allMask)])],
        .includes [(1, .includesStringMap [([97], allMask)])]⟩ := by
    decide +kernel
  have ok' : extractMapMaskFromPatch patch (.includes [(1, .includesStringMap [([97], allMask)])]) =
      .ok wholeMasks := by
    decide +kernel
  have last : extractMaskFromPatchAs true [(8, .i32 1)] = .ok wholeMasks := by decide +kernel
  obtain ⟨writes, reads⟩ := extractMapMask_covers wf single ok ok'
  have alike : KeysAlike patch := by
    intro op op' key listed
    cases op <;> cases listed
  let sub : Object := [(3, .map [(.string [97], .object [(8, .i32 1)])])]
  have alike' : KeysAlike sub := by
    intro op op' key listed key' listed'
    cases op <;> rcases listed with _ | ⟨_, ⟨⟩⟩
    cases op' <;> rcases listed' with _ | ⟨_, ⟨⟩⟩
    rfl
  have seen : ¬ Misses patch (.field 1) := by
    rintro (add | put | union | remove | ensure) <;> contradiction
  have seen' : ¬ Misses sub (.stringKey [97]) := by
    rintro (add | put | union | remove | ensure) <;> contradiction
  have follows : Follows patch [.field 1, .stringKey [97]] := by
    refine .through alike seen fun sub' listed => ?_
    cases List.mem_singleton.mp listed
    refine .through alike' seen' fun leaf listed => ?_
    cases List.mem_singleton.mp listed
    exact .last (Or.inr (by decide))
  have kept : ¬ Discards patch (.field 1) := by
    rintro (cleared | ⟨-, removed⟩) <;> contradiction
  have kept' : ¬ Discards sub (.stringKey [97]) := by
    rintro (cleared | ⟨-, removed⟩) <;> contradiction
  have leads : Leads patch [.field 1, .stringKey [97]] [(8, .i32 1)] :=
    .through alike kept List.mem_cons_self (.through alike' kept' List.mem_cons_self (.last _))
  refine ⟨wholeMasks, ok', reads _ _ leads last [] (covers_allMask []), ?_⟩
  exact writes follows [] (Or.inl (covers_iff.mpr (by decide +kernel)))

end FbThrift
