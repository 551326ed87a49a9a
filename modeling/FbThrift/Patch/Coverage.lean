import FbThrift.Patch.ExtractMapMask

/-!
# The paths that inclusive masks cover

An inclusive mask covers a path when its level has an entry at the first step that covers the
rest.  A union covers what its two sides cover and nothing else, and a sequence of insertions
covers nothing at a step that it was not given there.
-/

namespace FbThrift

open SortedMap Mask

namespace Mask

@[simp] theorem covers_allMask (path : List PathStep) : allMask.Covers path := by
  rw [covers_iff]
  induction path with
  | nil => rfl
  | cons step path ih => rw [follow_cons path (next_allMask step), ih]

@[simp] theorem not_covers_noneMask (path : List PathStep) : ¬ noneMask.Covers path := by
  rw [covers_iff]
  induction path with
  | nil => exact nofun
  | cons step path ih => rwa [follow_cons path (next_noneMask step)]

theorem covers_cons {mask next : Mask} {step : PathStep} (path : List PathStep)
    (one : mask.next step = .ok next) : mask.Covers (step :: path) ↔ next.Covers path := by
  rw [covers_iff, covers_iff, follow_cons path one]

theorem Covers.next {mask : Mask} {step : PathStep} {path : List PathStep}
    (covers : mask.Covers (step :: path)) :
    ∃ next, mask.next step = .ok next ∧ next.Covers path := by
  obtain ⟨next, one, rest⟩ := follow_cons_ok (covers_iff.mp covers)
  exact ⟨next, one, covers_iff.mpr rest⟩

theorem Kind.covers {K : Type} [Keyed K] {mk : Bool → List (K × Mask) → Mask} (kind : Kind mk)
    (step : PathStep) (path : List PathStep) :
    (∃ k, ∀ map, (mk false map).Covers (step :: path) ↔ (MaskRef.getMask map k).Covers path) ∨
      ∀ map, ¬ (mk false map).Covers (step :: path) := by
  have outside {mask : Mask} (fails : ∃ err, mask.next step = .error err) :
      ¬ mask.Covers (step :: path) := by
    intro covers
    obtain ⟨err, fails⟩ := fails
    obtain ⟨next, one, -⟩ := covers.next
    rw [fails] at one
    cases one
  cases kind with
  | fields =>
    cases step with
    | field id => exact Or.inl ⟨id, fun map => covers_cons path rfl⟩
    | mapId | stringKey | type =>
      refine Or.inr fun map => ?_
      cases map with
      | nil => exact not_covers_noneMask _
      | cons => exact outside ⟨_, rfl⟩
  | mapIds =>
    cases step with
    | mapId id => exact Or.inl ⟨id, fun map => covers_cons path rfl⟩
    | field | stringKey | type => exact Or.inr fun map => outside ⟨_, rfl⟩
  | stringKeys =>
    cases step with
    | stringKey key => exact Or.inl ⟨key, fun map => covers_cons path rfl⟩
    | field | mapId | type => exact Or.inr fun map => outside ⟨_, rfl⟩
  | types =>
    cases step with
    | type type =>
      by_cases full : type.isFull = true
      · refine Or.inl ⟨⟨type, full⟩, fun map => covers_cons path ?_⟩
        simp [next, MaskRef.get, MaskRef.getType, MaskRef.isAllMask, MaskRef.isNoneMask,
          Mask.isAllMask, Mask.isNoneMask, full, Except.map, MaskRef.norm]
      · refine Or.inr fun map => outside ⟨"Type mask requires full type!", ?_⟩
        simp [next, MaskRef.get, MaskRef.getType, MaskRef.isAllMask, MaskRef.isNoneMask,
          Mask.isAllMask, Mask.isNoneMask, full, Except.map]
    | field | mapId | stringKey => exact Or.inr fun map => outside ⟨_, rfl⟩

theorem Inclusive.union_levels {p q r : Mask} (left : Inclusive p) (right : Inclusive q)
    (left' : p.IsPartial) (right' : q.IsPartial) (ok : p.union q = .ok r) :
    ∃ (K : Type) (_ : Keyed K) (mk : Bool → List (K × Mask) → Mask) (_ : Kind mk)
      (P Q R : List (K × Mask)), p = mk false P ∧ q = mk false Q ∧ r = mk false R ∧
      ∀ k, Inclusive (MaskRef.getMask P k) ∧ Inclusive (MaskRef.getMask Q k) ∧
        (MaskRef.getMask P k).union (MaskRef.getMask Q k) = .ok (MaskRef.getMask R k) := by
  cases left with
  | all => cases left'.1
  | @level K _ mk P kind sorted below =>
    obtain ⟨Q, rfl, sortedQ, belowQ⟩ :=
      right.same_level right' kind (sameKind_of_union_ok left' right' ok)
    rw [kind.union_inclusive left' right'] at ok
    obtain ⟨R, merged, rfl⟩ := Except.map_eq_ok ok
    refine ⟨K, _, mk, kind, P, Q, R, rfl, rfl, rfl, fun k => ⟨?_, ?_, ?_⟩⟩
    · exact inclusive_getMask below k
    · exact inclusive_getMask belowQ k
    · exact unionMaskImpl_getMask sorted sortedQ merged k

theorem Inclusive.covers_union {p q r : Mask} (left : Inclusive p) (right : Inclusive q)
    (ok : p.union q = .ok r) (path : List PathStep) :
    r.Covers path ↔ p.Covers path ∨ q.Covers path := by
  induction path generalizing p q r with
  | nil =>
    rcases eq_allMask_or_noneMask_or_isPartial p with rfl | rfl | left'
    · cases ok.symm.trans (union_allMask_left q)
      simp
    · cases ok.symm.trans (union_noneMask_left q)
      simp
    rcases eq_allMask_or_noneMask_or_isPartial q with rfl | rfl | right'
    · cases ok.symm.trans (union_allMask_right p)
      simp
    · cases ok.symm.trans (union_noneMask_right p)
      simp
    obtain ⟨K, _, mk, kind, P, Q, R, rfl, rfl, rfl, -⟩ := left.union_levels right left' right' ok
    have level (map : List (K × Mask)) : ¬ (mk false map).Covers [] := by
      rw [covers_iff]
      cases kind <;> exact nofun
    simp [level]
  | cons step path ih =>
    rcases eq_allMask_or_noneMask_or_isPartial p with rfl | rfl | left'
    · cases ok.symm.trans (union_allMask_left q)
      simp
    · cases ok.symm.trans (union_noneMask_left q)
      simp
    rcases eq_allMask_or_noneMask_or_isPartial q with rfl | rfl | right'
    · cases ok.symm.trans (union_allMask_right p)
      simp
    · cases ok.symm.trans (union_noneMask_right p)
      simp
    obtain ⟨K, _, mk, kind, P, Q, R, rfl, rfl, rfl, each⟩ :=
      left.union_levels right left' right' ok
    rcases kind.covers step path with ⟨k, covers⟩ | outside
    · obtain ⟨inclusiveP, inclusiveQ, merged⟩ := each k
      rw [covers, covers, covers]
      exact ih inclusiveP inclusiveQ merged
    · simp [outside]

end Mask

/-! ## What insertions cover -/

namespace Slot

variable {K : Type} [Keyed K] {ref : IncludesRef K} {mk : Bool → List (K × Mask) → Mask}
variable {at' : K → PathStep} {kind : StepKind} {path : List PathStep}

theorem covers_mk (slot : Slot ref mk at' kind) (map : List (K × Mask)) (k : K) :
    (mk false map).Covers (at' k :: path) ↔ (MaskRef.getMask map k).Covers path := by
  cases slot <;> exact covers_cons path rfl

theorem key_of_covers (slot : Slot ref mk at' kind) {map : List (K × Mask)} {step : PathStep}
    (covers : (mk false map).Covers (step :: path)) : ∃ k, step = at' k := by
  obtain ⟨next, one, rest⟩ := covers.next
  cases slot <;> cases step
  case fields.field id => exact ⟨id, rfl⟩
  case mapIds.mapId id => exact ⟨id, rfl⟩
  case stringKeys.stringKey key => exact ⟨key, rfl⟩
  case fields.mapId | fields.stringKey | fields.type =>
    cases map with
    | nil =>
      cases one
      exact absurd rest (not_covers_noneMask path)
    | cons => cases one
  all_goals cases one

/-- What `ensure()` finds is covered by the mask. -/
theorem covers_of_ensure (slot : Slot ref mk at' kind) {mask : Mask} {k : K}
    (covers : (MaskRef.getMask (ref.ensure mask) k).Covers path) :
    mask.Covers (at' k :: path) := by
  cases slot <;> rcases mask with _ | ⟨_ | _, map⟩ | ⟨_ | _, map⟩ | ⟨_ | _, map⟩ | _
  case fields.fields.false | mapIds.mapIds.false | stringKeys.stringKeys.false =>
    exact (covers_cons path rfl).mpr covers
  all_goals exact absurd covers (not_covers_noneMask path)

end Slot

namespace Insertion

theorem covers_run {insertion : Insertion} {mask result : Mask} (inclusive : Inclusive mask)
    (below : ∀ step next, insertion = .next step next → Inclusive next)
    (ok : insertion.run mask = .ok result) {step : PathStep} {path : List PathStep}
    (covers : result.Covers (step :: path)) :
    mask.Covers (step :: path) ∨ insertion = whole step ∨
      ∃ next, insertion = .next step next ∧ next.Covers path := by
  cases known : insertion.step.kind with
  | none =>
    have same : result = mask := by
      cases insertion with
      | whole step => cases step <;> simp_all [Insertion.step, PathStep.kind, run, emplaceAll]
      | next step next =>
        cases step <;> simp_all [Insertion.step, PathStep.kind, run, insertUnion]
    exact Or.inl (same ▸ covers)
  | some kind =>
    obtain ⟨K, _, ref, mk, at', k, slot, here⟩ := exists_slot known
    cases insertion with
    | whole step' =>
      cases here
      simp only [run, Except.ok.injEq] at ok
      subst ok
      split at covers
      · exact Or.inl covers
      · have made : emplaceAll mask (at' k) = mk false (emplace k allMask (ref.ensure mask)) := by
          cases slot <;> rfl
        rw [made] at covers
        obtain ⟨k', rfl⟩ := slot.key_of_covers covers
        by_cases same : k' = k
        · exact Or.inr (Or.inl (same ▸ rfl))
        · rw [slot.covers_mk, MaskRef.getMask, find_emplace, if_neg same] at covers
          exact Or.inl (slot.covers_of_ensure covers)
    | next step' next =>
      cases here
      have run : (Insertion.next (at' k) next).run mask = insertMaskUnion ref mask k next := by
        cases slot <;> rfl
      rw [run] at ok
      cases all : mask.isAllMask with
      | true =>
        simp only [insertMaskUnion, all, Bool.true_or, if_true, Except.ok.injEq] at ok
        exact Or.inl (ok ▸ covers)
      | false =>
        rcases insertMaskUnion_ok all ok with ⟨-, rfl⟩ | ⟨current, union, rfl⟩
        · exact Or.inl covers
        · rw [slot.wrap_eq] at covers
          obtain ⟨k', rfl⟩ := slot.key_of_covers covers
          rw [slot.covers_mk, MaskRef.getMask, find_insertUnion] at covers
          by_cases same : k' = k
          · subst same
            rw [if_pos rfl, Option.getD_some] at covers
            have old : Inclusive (MaskRef.getMask (ref.ensure mask) k') :=
              inclusive_getMask (slot.ensure inclusive).2 k'
            rcases (old.covers_union (below _ _ rfl) union path).mp covers with old | new
            · exact Or.inl (slot.covers_of_ensure old)
            · exact Or.inr (Or.inr ⟨next, rfl, new⟩)
          · rw [if_neg same] at covers
            exact Or.inl (slot.covers_of_ensure covers)

theorem covers_runAll {insertions : List Insertion} {mask result : Mask}
    (inclusive : Inclusive mask)
    (below : ∀ step next, Insertion.next step next ∈ insertions → Inclusive next)
    (ok : runAll insertions mask = .ok result) {step : PathStep} {path : List PathStep}
    (covers : result.Covers (step :: path)) :
    mask.Covers (step :: path) ∨ whole step ∈ insertions ∨
      ∃ next, Insertion.next step next ∈ insertions ∧ next.Covers path := by
  induction insertions generalizing mask with
  | nil =>
    cases ok
    exact Or.inl covers
  | cons insertion insertions ih =>
    obtain ⟨inserted, ran, rest⟩ := Except.bind_eq_ok ok
    have first (step : PathStep) (next : Mask) (here : insertion = .next step next) :
        Inclusive next := below step next (here ▸ List.mem_cons_self)
    have later (step : PathStep) (next : Mask) (listed : Insertion.next step next ∈ insertions) :
        Inclusive next := below step next (List.mem_cons_of_mem _ listed)
    rcases ih (inclusive_run inclusive first ran) later rest with old | whole | ⟨next, listed, c⟩
    · rcases covers_run inclusive first ran old with old | whole | ⟨next, here, c⟩
      · exact Or.inl old
      · exact Or.inr (Or.inl (whole ▸ List.mem_cons_self))
      · exact Or.inr (Or.inr ⟨next, here ▸ List.mem_cons_self, c⟩)
    · exact Or.inr (Or.inl (List.mem_cons_of_mem _ whole))
    · exact Or.inr (Or.inr ⟨next, List.mem_cons_of_mem _ listed, c⟩)

end Insertion

/-! ## What the write mask of a patch covers -/

variable {patch : Object} {masks next result : ExtractedMasksFromPatch} {mask : Mask}

/-- Behind a step the write mask of a patch covers what its operations write at that step, unless
an operation writes everything. -/
theorem covers_write
    (ok : extractMaskFromPatch patch = .ok masks) {step : PathStep} {path : List PathStep}
    (covers : masks.write.Covers (step :: path)) :
    writesAll patch = true ∨
      step ∈ putSteps patch ∨ step ∈ ensureSteps patch ∨ step ∈ removeSteps patch ∨
      ∃ sub below, (step, sub) ∈ nested patch ∧ extractMaskFromPatch sub = .ok below ∧
        below.write.Covers path := by
  cases open' : writesAll patch with
  | true => exact Or.inl rfl
  | false =>
    refine Or.inr ?_
    obtain ⟨below, extracts, ran⟩ := write_of_open open' ok
    have listed {insertion : Insertion} (member : insertion ∈ levelInsertions patch below) :
        insertion ∈ (putSteps patch).map Insertion.whole ∨ insertion ∈ below ∨
          insertion ∈ (ensureSteps patch ++ removeSteps patch).map Insertion.whole := by
      rw [levelInsertions, List.mem_append, List.mem_append, or_assoc] at member
      exact member
    have each (step : PathStep) (next : Mask)
        (member : Insertion.next step next ∈ levelInsertions patch below) :
        ∃ sub masks, (step, sub) ∈ nested patch ∧ extractMaskFromPatch sub = .ok masks ∧
          next = masks.write := by
      obtain ⟨⟨step', sub⟩, here, masks, extracted, made⟩ :=
        mem_of_forall₂ extracts (next_mem_levelInsertions.mp member)
      cases made
      exact ⟨sub, masks, here, extracted, rfl⟩
    have inclusive (step : PathStep) (next : Mask)
        (member : Insertion.next step next ∈ levelInsertions patch below) : Inclusive next := by
      obtain ⟨sub, masks, -, extracted, rfl⟩ := each step next member
      exact inclusive_write sub extracted
    rcases Insertion.covers_runAll inclusive_noneMask inclusive ran covers with
      old | whole | ⟨next, member, c⟩
    · exact absurd old (not_covers_noneMask _)
    · rcases listed whole with put | nested | rest
      · obtain ⟨step', member, equal⟩ := List.mem_map.mp put
        cases equal
        exact Or.inl member
      · obtain ⟨e, -, masks, -, made⟩ := mem_of_forall₂ extracts nested
        cases made
      · obtain ⟨step', member, equal⟩ := List.mem_map.mp rest
        cases equal
        rcases List.mem_append.mp member with ensure | remove
        · exact Or.inr (Or.inl ensure)
        · exact Or.inr (Or.inr (Or.inl remove))
    · obtain ⟨sub, masks, here, extracted, rfl⟩ := each step next member
      exact Or.inr (Or.inr (Or.inr ⟨sub, masks, here, extracted, c⟩))

/-! ## Both masks are inclusive -/

/-- Both masks of a patch are inclusive. -/
structure ExtractedMasksFromPatch.Inclusive (masks : ExtractedMasksFromPatch) : Prop where
  read : masks.read.Inclusive
  write : masks.write.Inclusive

theorem Slot.inclusive_emplaceAll {K : Type} [Keyed K] {ref : IncludesRef K}
    {mk : Bool → List (K × Mask) → Mask} {at' : K → PathStep} {kind : StepKind}
    (slot : Slot ref mk at' kind) (inclusive : Inclusive mask) (k : K) :
    Inclusive (ref.emplaceAll k mask) := by
  obtain ⟨sorted, below⟩ := slot.ensure inclusive
  rw [IncludesRef.emplaceAll, slot.wrap_eq]
  exact inclusive_emplace slot.toKind sorted below k

theorem inclusive_insertFields (inclusive : Inclusive mask) (ids : List Int16) :
    Inclusive (insertFieldsToMask ids mask) := by
  induction ids generalizing mask with
  | nil => exact inclusive
  | cons id ids ih => exact ih (Slot.fields.inclusive_emplaceAll inclusive id)

theorem inclusive_insertFieldsIfNotAll (inclusive : Inclusive mask)
    (ids : List Int16) : Inclusive (insertFieldsToMaskIfNotAllMask ids mask) := by
  unfold insertFieldsToMaskIfNotAllMask
  split
  · exact inclusive
  · exact inclusive_insertFields inclusive ids

theorem inclusive_insertKeys {keys : List Value} {result : Mask} (inclusive : Inclusive mask)
    (ok : insertKeysToMask keys mask = .ok result) : Inclusive result := by
  induction keys generalizing mask with
  | nil => exact Except.ok.inj ok ▸ inclusive
  | cons key keys ih =>
    obtain ⟨inserted, first, rest⟩ := Except.bind_eq_ok ok
    refine ih ?_ rest
    unfold insertKeyToMask at first
    obtain ⟨kind, -, first⟩ := Except.bind_eq_ok first
    cases kind with
    | integer =>
      obtain ⟨id, -, made⟩ := Except.bind_eq_ok first
      exact Except.ok.inj made ▸ Slot.mapIds.inclusive_emplaceAll inclusive id
    | string =>
      obtain ⟨id, -, made⟩ := Except.bind_eq_ok first
      exact Except.ok.inj made ▸ Slot.stringKeys.inclusive_emplaceAll inclusive id

theorem inclusive_insertKeysIfNotAll {keys : List Value} {result : Mask}
    (inclusive : Inclusive mask) (ok : insertKeysToMaskIfNotAllMask keys mask = .ok result) :
    Inclusive result := by
  unfold insertKeysToMaskIfNotAllMask at ok
  split at ok
  · exact Except.ok.inj ok ▸ inclusive
  · exact inclusive_insertKeys inclusive ok

theorem inclusive_insertNextMask {K : Type} [Keyed K] {ref : IncludesRef K}
    {mk : Bool → List (K × Mask) → Mask} {at' : K → PathStep} {kind : StepKind}
    (slot : Slot ref mk at' kind) {id : K}
    (inclusive : masks.Inclusive) (below : next.Inclusive)
    (ok : insertNextMask ref masks next id = .ok result) : result.Inclusive := by
  have insert {mask next result : Mask} (inclusive : Inclusive mask) (below : Inclusive next)
      (ok : insertMaskUnion ref mask id next = .ok result) : Inclusive result := by
    have ran : (Insertion.next (at' id) next).run mask = .ok result := by cases slot <;> exact ok
    refine Insertion.inclusive_run inclusive (fun step next' equal => ?_) ran
    cases equal
    exact below
  obtain ⟨read, ran, rest⟩ := Except.bind_eq_ok ok
  obtain ⟨write, ran', made⟩ := Except.bind_eq_ok rest
  rw [← Except.ok.inj made]
  exact ⟨insert inclusive.read below.read ran, insert inclusive.write below.write ran'⟩

/-- The loops over the patches below, with a body that keeps masks inclusive. -/
theorem inclusive_insertNextToMask {K : Type} {patches : List (K × Value)}
    {extract : (sub : Object) → (∃ k, (k, Value.object sub) ∈ patches) →
      Except String ExtractedMasksFromPatch}
    {insert : K → ExtractedMasksFromPatch → ExtractedMasksFromPatch →
      Except String ExtractedMasksFromPatch}
    (extracts : ∀ sub member next, extract sub member = .ok next → next.Inclusive)
    (inserts : ∀ k next masks result, next.Inclusive → masks.Inclusive →
      insert k next masks = .ok result → result.Inclusive) (inclusive : masks.Inclusive)
    (ok : insertNextToMask patches extract insert masks = .ok result) : result.Inclusive := by
  induction patches generalizing masks with
  | nil => exact Except.ok.inj ok ▸ inclusive
  | cons e patches ih =>
    obtain ⟨k, v⟩ := e
    cases v with
    | object sub =>
      obtain ⟨next, extracted, rest⟩ := Except.bind_eq_ok ok
      obtain ⟨inserted, here, rest⟩ := Except.bind_eq_ok rest
      refine ih (fun sub member next => extracts sub _ next) ?_ rest
      exact inserts k next masks inserted (extracts _ _ _ extracted) inclusive here
    | _ => cases ok

theorem inclusive_insertNextField {id : Int16}
    (below : next.Inclusive) (inclusive : masks.Inclusive)
    (ok : insertNextField id next masks = .ok result) : result.Inclusive := by
  obtain ⟨inserted, made, rest⟩ := Except.bind_eq_ok ok
  have inserts := inclusive_insertNextMask .fields inclusive below made
  rw [← Except.ok.inj rest]
  exact ⟨inclusive_insertFields inserts.read [id], inserts.write⟩

theorem inclusive_insertNextMapItem {key : Value}
    (below : next.Inclusive) (inclusive : masks.Inclusive)
    (ok : insertNextMapItem key next masks = .ok result) : result.Inclusive := by
  unfold insertNextMapItem at ok
  obtain ⟨kind, -, rest⟩ := Except.bind_eq_ok ok
  cases kind with
  | integer =>
    obtain ⟨id, -, rest⟩ := Except.bind_eq_ok rest
    obtain ⟨inserted, made, rest⟩ := Except.bind_eq_ok rest
    have inserts := inclusive_insertNextMask .mapIds inclusive below made
    rw [← Except.ok.inj rest]
    exact ⟨Slot.mapIds.inclusive_emplaceAll inserts.read id, inserts.write⟩
  | string =>
    obtain ⟨id, -, rest⟩ := Except.bind_eq_ok rest
    obtain ⟨inserted, made, rest⟩ := Except.bind_eq_ok rest
    have inserts := inclusive_insertNextMask .stringKeys inclusive below made
    rw [← Except.ok.inj rest]
    exact ⟨Slot.stringKeys.inclusive_emplaceAll inserts.read id, inserts.write⟩

theorem inclusive_insertSubpatches {op : PatchOp} {extract : ExtractBelow patch}
    (extracts : ∀ sub smaller next, extract sub smaller = .ok next → next.Inclusive) (inclusive : masks.Inclusive)
    (ok : insertSubpatches op patch extract masks = .ok result) : result.Inclusive := by
  unfold insertSubpatches at ok
  split at ok
  · refine inclusive_insertNextToMask (fun sub member next => extracts sub _ next) ?_ inclusive ok
    exact fun _ _ _ _ below inclusive ok => inclusive_insertNextField below inclusive ok
  · refine inclusive_insertNextToMask (fun sub member next => extracts sub _ next) ?_ inclusive ok
    exact fun _ _ _ _ below inclusive ok => inclusive_insertNextMapItem below inclusive ok
  · exact Except.ok.inj ok ▸ inclusive

theorem inclusive_insertPut
    (inclusive : masks.Inclusive) (ok : insertPut patch masks = .ok result) :
    result.Inclusive := by
  unfold insertPut at ok
  split at ok
  · obtain ⟨write, inserted, made⟩ := Except.bind_eq_ok ok
    rw [← Except.ok.inj made]
    exact ⟨inclusive.read, inclusive_insertKeysIfNotAll inclusive.write inserted⟩
  · exact Except.ok.inj ok ▸ inclusive

theorem inclusive_insertEnsureStruct
    (inclusive : masks.Inclusive) (ok : insertEnsureStruct patch masks = .ok result) :
    result.Inclusive := by
  unfold insertEnsureStruct at ok
  split at ok
  · rw [← Except.ok.inj ok]
    exact ⟨inclusive_insertFields inclusive.read _,
      inclusive_insertFieldsIfNotAll inclusive.write _⟩
  · obtain ⟨read, inserted, rest⟩ := Except.bind_eq_ok ok
    obtain ⟨write, inserted', made⟩ := Except.bind_eq_ok rest
    rw [← Except.ok.inj made]
    exact ⟨inclusive_insertKeys inclusive.read inserted,
      inclusive_insertKeysIfNotAll inclusive.write inserted'⟩
  · exact Except.ok.inj ok ▸ inclusive

theorem inclusive_insertEnsureUnion
    (inclusive : masks.Inclusive) (ok : insertEnsureUnion patch masks = .ok result) :
    result.Inclusive := by
  unfold insertEnsureUnion at ok
  split at ok
  · obtain ⟨obj, -, made⟩ := Except.bind_eq_ok ok
    rw [← Except.ok.inj made]
    exact ⟨inclusive_insertFields inclusive.read _, .all⟩
  · exact Except.ok.inj ok ▸ inclusive

theorem inclusive_insertRemove
    (inclusive : masks.Inclusive) (ok : insertRemove patch masks = .ok result) :
    result.Inclusive := by
  unfold insertRemove at ok
  split at ok
  · obtain ⟨write, inserted, made⟩ := Except.bind_eq_ok ok
    rw [← Except.ok.inj made]
    refine ⟨inclusive.read, ?_⟩
    unfold insertListedFields at inserted
    split at inserted
    · exact Except.ok.inj inserted ▸ inclusive.write
    · obtain ⟨fields, -, made⟩ := Except.bind_eq_ok inserted
      exact Except.ok.inj made ▸ inclusive_insertFields inclusive.write fields
  · obtain ⟨write, inserted, made⟩ := Except.bind_eq_ok ok
    rw [← Except.ok.inj made]
    exact ⟨inclusive.read, inclusive_insertKeysIfNotAll inclusive.write inserted⟩
  · split at ok
    · exact Except.ok.inj ok ▸ inclusive
    · cases ok
  · exact Except.ok.inj ok ▸ inclusive

theorem ensureRWMaskInvariant_eq (ok : ensureRWMaskInvariant masks = .ok result) :
    masks.read.union masks.write = .ok masks.write ∧ result = masks ∨
      result = ⟨masks.write, masks.write⟩ := by
  obtain ⟨both, union, rest⟩ := Except.bind_eq_ok ok
  split at rest
  · rename_i same
    exact Or.inl ⟨same ▸ union, (Except.ok.inj rest).symm⟩
  · exact Or.inr (Except.ok.inj rest).symm

/-- The read mask of a patch covers nothing that its write mask does not. -/
def ReadsWithinWrites (masks : ExtractedMasksFromPatch) : Prop :=
  ∀ path, masks.read.Covers path → masks.write.Covers path

theorem inclusive_extractAs {isMap : Bool} (patch : Object)
    (ok : extractMaskFromPatchAs isMap patch = .ok masks) :
    masks.Inclusive ∧ ReadsWithinWrites masks := by
  induction size : sizeOf patch using Nat.strong_induction_on generalizing patch isMap masks with
  | _ n ih =>
  subst size
  have extracts (sub : Object) (smaller : sizeOf sub < sizeOf patch)
      (next : ExtractedMasksFromPatch) (ok : extractMaskFromPatch sub = .ok next) :
      next.Inclusive := (ih _ smaller sub (extractMaskFromPatchAs_false sub ▸ ok) rfl).1
  have whole : wholeMasks.Inclusive ∧ ReadsWithinWrites wholeMasks :=
    ⟨⟨.all, .all⟩, fun path _ => covers_allMask path⟩
  unfold extractMaskFromPatchAs at ok
  split at ok
  · rw [← Except.ok.inj ok]
    exact ⟨⟨inclusive_noneMask, .all⟩, fun path _ => covers_allMask path⟩
  split at ok
  · exact Except.ok.inj ok ▸ whole
  obtain ⟨put, ran₁, rest⟩ := Except.bind_eq_ok ok
  obtain ⟨prior, ran₂, rest⟩ := Except.bind_eq_ok rest
  obtain ⟨after, ran₃, rest⟩ := Except.bind_eq_ok rest
  obtain ⟨ensured, ran₄, rest⟩ := Except.bind_eq_ok rest
  obtain ⟨united, ran₅, rest⟩ := Except.bind_eq_ok rest
  have cleared : (clearMasks patch).Inclusive := by
    refine ⟨inclusive_noneMask, ?_⟩
    unfold clearMasks
    split
    · exact .all
    · exact inclusive_noneMask
  split at rest
  · exact Except.ok.inj rest ▸ whole
  obtain ⟨removed, ran₆, rest⟩ := Except.bind_eq_ok rest
  split at rest
  · cases rest
  have inclusive : removed.Inclusive := by
    refine inclusive_insertRemove ?_ ran₆
    refine inclusive_insertEnsureUnion ?_ ran₅
    refine inclusive_insertEnsureStruct ?_ ran₄
    refine inclusive_insertSubpatches extracts ?_ ran₃
    refine inclusive_insertSubpatches extracts ?_ ran₂
    exact inclusive_insertPut cleared ran₁
  rcases ensureRWMaskInvariant_eq rest with ⟨union, rfl⟩ | rfl
  · refine ⟨inclusive, fun path covers => ?_⟩
    exact (inclusive.read.covers_union inclusive.write union path).mpr (Or.inl covers)
  · exact ⟨⟨inclusive.write, inclusive.write⟩, fun _ covers => covers⟩

end FbThrift
