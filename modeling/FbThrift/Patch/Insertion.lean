import FbThrift.Patch.Agree

/-!
# The write mask as a sequence of insertions

Every operation of a patch changes the write mask by insertions at steps: `whole` puts
`allMask` at a step unless something is there, and `next` takes the union with the mask of
a patch below.  This module has what such a sequence leaves in the mask, as long as all its
steps are of one kind: the masks are a union of C++ members, and an insertion at a step of
another kind drops everything that was inserted before.
-/

namespace FbThrift

open SortedMap Mask

/-! ## Entries of a mask -/

/-- The kinds of steps that patches below an operation are at. -/
inductive StepKind where
  | field
  | mapId
  | stringKey
  deriving DecidableEq, Repr

def PathStep.kind : PathStep → Option StepKind
  | .field _ => some .field
  | .mapId _ => some .mapId
  | .stringKey _ => some .stringKey
  | .type _ => none

namespace Mask

/-- What the level of a mask holds at a step. -/
def entry (mask : Mask) : PathStep → Option Mask
  | .field id => find id (fieldsRef.ensure mask)
  | .mapId id => find id (mapIdsRef.ensure mask)
  | .stringKey key => find key (stringKeysRef.ensure mask)
  | .type _ => none

theorem under_eq_entry {mask : Mask} (open' : mask.isAllMask = false) (step : PathStep) :
    mask.under step = (mask.entry step).getD noneMask := by
  cases step <;> simp [under, entry, IncludesRef.under, open', MaskRef.getMask, outside]

/-- A mask of included keys of one kind; `noneMask` is one of every kind. -/
def Fits (mask : Mask) : StepKind → Prop
  | .field => ∃ map, mask = .includes map
  | .mapId => mask = noneMask ∨ ∃ map, mask = .includesMap map
  | .stringKey => mask = noneMask ∨ ∃ map, mask = .includesStringMap map

theorem fits_noneMask (kind : StepKind) : noneMask.Fits kind := by
  cases kind with
  | field => exact ⟨[], rfl⟩
  | mapId => exact Or.inl rfl
  | stringKey => exact Or.inl rfl

theorem Fits.open {mask : Mask} {kind : StepKind} (fits : mask.Fits kind) :
    mask.isAllMask = false := by
  cases kind with
  | field =>
    obtain ⟨map, rfl⟩ := fits
    rfl
  | mapId =>
    rcases fits with rfl | ⟨map, rfl⟩ <;> rfl
  | stringKey =>
    rcases fits with rfl | ⟨map, rfl⟩ <;> rfl

end Mask

/-! ## Insertions -/

/-- One change of the write mask. -/
inductive Insertion where
  /-- `emplace(step, allMask())`. -/
  | whole (step : PathStep)
  /-- The union with the mask of the patch at a step. -/
  | next (step : PathStep) (mask : Mask)

namespace Insertion

def step : Insertion → PathStep
  | .whole step => step
  | .next step _ => step

/-- `ensure().emplace(step, allMask())`. -/
def emplaceAll (mask : Mask) : PathStep → Mask
  | .field id => fieldsRef.emplaceAll id mask
  | .mapId id => mapIdsRef.emplaceAll id mask
  | .stringKey key => stringKeysRef.emplaceAll key mask
  | .type _ => mask

/-- `insertMaskUnion` at a step. -/
def insertUnion (mask below : Mask) : PathStep → Except String Mask
  | .field id => insertMaskUnion fieldsRef mask id below
  | .mapId id => insertMaskUnion mapIdsRef mask id below
  | .stringKey key => insertMaskUnion stringKeysRef mask key below
  | .type _ => .ok mask

def run : Insertion → Mask → Except String Mask
  | .whole step, mask => .ok (if mask.isAllMask then mask else emplaceAll mask step)
  | .next step below, mask => insertUnion mask below step

def runAll : List Insertion → Mask → Except String Mask
  | [], mask => .ok mask
  | insertion :: insertions, mask => do
    let inserted ← insertion.run mask
    runAll insertions inserted

theorem runAll_append {first second : List Insertion} {mask middle result : Mask}
    (ok : runAll first mask = .ok middle) (ok' : runAll second middle = .ok result) :
    runAll (first ++ second) mask = .ok result := by
  induction first generalizing mask with
  | nil =>
    cases ok
    exact ok'
  | cons insertion first ih =>
    obtain ⟨inserted, ran, rest⟩ := Except.bind_eq_ok ok
    simp only [List.cons_append, runAll, ran, bind, Except.bind]
    exact ih rest

theorem runAll_append_ok {first second : List Insertion} {mask result : Mask}
    (ok : runAll (first ++ second) mask = .ok result) :
    ∃ middle, runAll first mask = .ok middle ∧ runAll second middle = .ok result := by
  induction first generalizing mask with
  | nil => exact ⟨mask, rfl, ok⟩
  | cons insertion first ih =>
    obtain ⟨inserted, ran, rest⟩ := Except.bind_eq_ok ok
    obtain ⟨middle, ran', rest'⟩ := ih rest
    refine ⟨middle, ?_, rest'⟩
    simp only [runAll, ran, bind, Except.bind]
    exact ran'

end Insertion

/-! ## One insertion -/

section Ref

variable {K : Type} [Keyed K] {ref : IncludesRef K} {mask : Mask} {map : List (K × Mask)}

theorem inclusive_emplace {mk : Bool → List (K × Mask) → Mask} (kind : Kind mk)
    (sorted : Sorted map) (below : ∀ k mask, find k map = some mask → Inclusive mask) (id : K) :
    Inclusive (mk false (emplace id allMask map)) := by
  refine .level kind (sorted.emplace _ _) fun k mask found => ?_
  rw [find_emplace] at found
  split at found
  · cases present : find id map with
    | none =>
      rw [present] at found
      cases found
      exact .all
    | some old =>
      rw [present] at found
      cases found
      exact below id _ present
  · exact below k mask found

theorem insertMaskUnion_ok {next result : Mask} {id : K} (open' : mask.isAllMask = false)
    (ok : insertMaskUnion ref mask id next = .ok result) :
    (next = noneMask ∧ result = mask) ∨
      ∃ current, ((find id (ref.ensure mask)).getD noneMask).union next = .ok current ∧
        result = ref.wrap (insertOrAssign id current (emplace id noneMask (ref.ensure mask))) := by
  unfold insertMaskUnion at ok
  cases none : next.isNoneMask with
  | true =>
    simp only [open', none, Bool.or_true, if_true] at ok
    exact Or.inl ⟨isNoneMask_iff.mp none, (Except.ok.inj ok).symm⟩
  | false =>
    simp only [open', none, Bool.or_self, Bool.false_eq_true, if_false] at ok
    obtain ⟨current, union, rest⟩ := Except.bind_eq_ok ok
    refine Or.inr ⟨current, ?_, (Except.ok.inj rest).symm⟩
    have here : MaskRef.getMask (emplace id noneMask (ref.ensure mask)) id =
        (find id (ref.ensure mask)).getD noneMask := by
      rw [MaskRef.getMask, find_emplace, if_pos rfl]
      cases find id (ref.ensure mask) <;> rfl
    rw [here] at union
    exact union

theorem find_insertUnion (map : List (K × Mask)) (id k : K) (current : Mask) :
    find k (insertOrAssign id current (emplace id noneMask map)) =
      if k = id then some current else find k map := by
  rw [find_insertOrAssign]
  split
  · rfl
  · rename_i other
    rw [find_emplace, if_neg other]

theorem inclusive_insertUnion {mk : Bool → List (K × Mask) → Mask} (kind : Kind mk)
    (sorted : Sorted map) (below : ∀ k mask, find k map = some mask → Inclusive mask) (id : K)
    {current : Mask} (inclusive : Inclusive current) :
    Inclusive (mk false (insertOrAssign id current (emplace id noneMask map))) := by
  refine .level kind ((sorted.emplace _ _).insertOrAssign _ _) fun k mask found => ?_
  rw [find_insertUnion] at found
  split at found
  · cases found
    exact inclusive
  · exact below k mask found

end Ref

/-! ## Steps of one kind -/

/-- Where the keys of one kind are held: the member of the union, and the steps they are. -/
inductive Slot : {K : Type} → [Keyed K] → IncludesRef K → (Bool → List (K × Mask) → Mask) →
    (K → PathStep) → StepKind → Prop
  | fields : Slot fieldsRef Mask.fields .field .field
  | mapIds : Slot mapIdsRef Mask.mapIds .mapId .mapId
  | stringKeys : Slot stringKeysRef Mask.stringKeys .stringKey .stringKey

theorem exists_slot {step : PathStep} {kind : StepKind} (known : step.kind = some kind) :
    ∃ (K : Type) (_ : Keyed K) (ref : IncludesRef K) (mk : Bool → List (K × Mask) → Mask)
      (at' : K → PathStep) (k : K), Slot ref mk at' kind ∧ step = at' k := by
  cases step with
  | field id =>
    cases known
    exact ⟨_, _, _, _, _, id, .fields, rfl⟩
  | mapId id =>
    cases known
    exact ⟨_, _, _, _, _, id, .mapIds, rfl⟩
  | stringKey key =>
    cases known
    exact ⟨_, _, _, _, _, key, .stringKeys, rfl⟩
  | type _ => cases known

namespace Slot

variable {K : Type} [Keyed K] {ref : IncludesRef K} {mk : Bool → List (K × Mask) → Mask}
variable {at' : K → PathStep} {kind : StepKind} {mask : Mask}

theorem toKind (slot : Slot ref mk at' kind) : Kind mk := by
  cases slot with
  | fields => exact .fields
  | mapIds => exact .mapIds
  | stringKeys => exact .stringKeys

theorem wrap_eq (slot : Slot ref mk at' kind) (map : List (K × Mask)) :
    ref.wrap map = mk false map := by
  cases slot <;> rfl

theorem fits_iff (slot : Slot ref mk at' kind) :
    mask.Fits kind ↔ mask = noneMask ∨ ∃ map, mask = mk false map := by
  cases slot with
  | fields =>
    refine ⟨Or.inr, ?_⟩
    rintro (rfl | fits)
    · exact ⟨[], rfl⟩
    · exact fits
  | mapIds => exact Iff.rfl
  | stringKeys => exact Iff.rfl

theorem fits_mk (slot : Slot ref mk at' kind) (map : List (K × Mask)) : (mk false map).Fits kind :=
  slot.fits_iff.mpr (Or.inr ⟨map, rfl⟩)

/-- The map that `ensure()` returns. -/
theorem ensure (slot : Slot ref mk at' kind) (inclusive : Inclusive mask) :
    Sorted (ref.ensure mask) ∧ ∀ k m, find k (ref.ensure mask) = some m → Inclusive m := by
  have empty : Sorted ([] : List (K × Mask)) ∧
      ∀ k m, find k ([] : List (K × Mask)) = some m → Inclusive m := ⟨sorted_nil, nofun⟩
  cases inclusive with
  | all => cases slot <;> exact empty
  | level kind' sorted below =>
    cases slot <;> cases kind' <;> first
      | exact ⟨sorted, below⟩
      | exact empty

theorem entry_eq (slot : Slot ref mk at' kind) (mask : Mask) (k : K) :
    mask.entry (at' k) = find k (ref.ensure mask) := by
  cases slot <;> rfl

theorem entry_mk (slot : Slot ref mk at' kind) (map : List (K × Mask)) (k : K) :
    (mk false map).entry (at' k) = find k map := by
  cases slot <;> rfl

theorem entry_other (slot : Slot ref mk at' kind) (fits : mask.Fits kind) (step : PathStep) :
    (∃ k, step = at' k) ∨ mask.entry step = none := by
  rcases slot.fits_iff.mp fits with rfl | ⟨map, rfl⟩
  · exact Or.inr (by cases step <;> rfl)
  · cases slot <;> cases step
    case fields.field id => exact Or.inl ⟨id, rfl⟩
    case mapIds.mapId id => exact Or.inl ⟨id, rfl⟩
    case stringKeys.stringKey key => exact Or.inl ⟨key, rfl⟩
    all_goals exact Or.inr rfl

/-- A new level that differs from an old one at a single key. -/
theorem entry_of_ne (slot : Slot ref mk at' kind) (fits : mask.Fits kind)
    {map : List (K × Mask)} {k : K}
    (same : ∀ k', k' ≠ k → find k' map = find k' (ref.ensure mask)) {step : PathStep}
    (other : step ≠ at' k) : (mk false map).entry step = mask.entry step := by
  rcases slot.entry_other (slot.fits_mk map) step with ⟨k', rfl⟩ | nothing
  · rw [slot.entry_mk, slot.entry_eq]
    exact same k' fun equal => other (congrArg at' equal)
  · rcases slot.entry_other fits step with ⟨k', rfl⟩ | nothing'
    · rw [slot.entry_mk, slot.entry_eq]
      exact same k' fun equal => other (congrArg at' equal)
    · rw [nothing, nothing']

end Slot

namespace Insertion

variable {mask result : Mask} {step : PathStep} {kind : StepKind}

/-- `whole` fills an empty entry and changes no other. -/
theorem run_whole (known : step.kind = some kind) (fits : mask.Fits kind)
    (inclusive : Inclusive mask) (ok : (whole step).run mask = .ok result) :
    result.Fits kind ∧ Inclusive result ∧
      result.entry step = some ((mask.entry step).getD allMask) ∧
      ∀ t, t ≠ step → result.entry t = mask.entry t := by
  obtain ⟨K, _, ref, mk, at', k, slot, rfl⟩ := exists_slot known
  simp only [run, fits.open, Bool.false_eq_true, if_false, Except.ok.injEq] at ok
  have made : emplaceAll mask (at' k) = mk false (emplace k allMask (ref.ensure mask)) := by
    cases slot <;> rfl
  rw [made] at ok
  subst ok
  obtain ⟨sorted, below⟩ := slot.ensure inclusive
  refine ⟨slot.fits_mk _, inclusive_emplace slot.toKind sorted below k, ?_, fun t other => ?_⟩
  · rw [slot.entry_mk, slot.entry_eq, find_emplace, if_pos rfl]
  · exact slot.entry_of_ne fits (fun k' other => by rw [find_emplace, if_neg other]) other

theorem inclusive_run {insertion : Insertion} (inclusive : Inclusive mask)
    (below : ∀ step next, insertion = .next step next → Inclusive next)
    (ok : insertion.run mask = .ok result) : Inclusive result := by
  cases known : insertion.step.kind with
  | none =>
    have same : result = mask := by
      cases insertion with
      | whole step => cases step <;> simp_all [step, PathStep.kind, run, emplaceAll]
      | next step next =>
        cases step <;> simp_all [Insertion.step, PathStep.kind, run, insertUnion]
    exact same ▸ inclusive
  | some kind =>
    obtain ⟨K, _, ref, mk, at', k, slot, here⟩ := exists_slot known
    obtain ⟨sorted, each⟩ := slot.ensure inclusive
    cases insertion with
    | whole step =>
      cases here
      simp only [run, Except.ok.injEq] at ok
      subst ok
      split
      · exact inclusive
      · have made : emplaceAll mask (at' k) = mk false (emplace k allMask (ref.ensure mask)) := by
          cases slot <;> rfl
        rw [made]
        exact inclusive_emplace slot.toKind sorted each k
    | next step next =>
      cases here
      have run : (Insertion.next (at' k) next).run mask = insertMaskUnion ref mask k next := by
        cases slot <;> rfl
      rw [run] at ok
      cases all : mask.isAllMask with
      | true =>
        simp only [insertMaskUnion, all, Bool.true_or, if_true, Except.ok.injEq] at ok
        exact ok ▸ inclusive
      | false =>
        rcases insertMaskUnion_ok all ok with ⟨-, rfl⟩ | ⟨current, union, rfl⟩
        · exact inclusive
        · have old : Inclusive ((find k (ref.ensure mask)).getD noneMask) :=
            inclusive_getMask each k
          rw [slot.wrap_eq]
          exact inclusive_insertUnion slot.toKind sorted each k (old.union (below _ _ rfl) union).1

theorem inclusive_runAll {insertions : List Insertion} (inclusive : Inclusive mask)
    (below : ∀ step next, Insertion.next step next ∈ insertions → Inclusive next)
    (ok : runAll insertions mask = .ok result) : Inclusive result := by
  induction insertions generalizing mask with
  | nil =>
    cases ok
    exact inclusive
  | cons insertion insertions ih =>
    obtain ⟨inserted, ran, rest⟩ := Except.bind_eq_ok ok
    refine ih (inclusive_run inclusive ?_ ran) ?_ rest
    · exact fun step next here => below step next (here ▸ List.mem_cons_self)
    · exact fun step next listed => below step next (List.mem_cons_of_mem _ listed)

/-- What `next` leaves in a mask: the union at its step. -/
structure Unites (mask below result : Mask) (step : PathStep) (kind : StepKind) : Prop where
  fits : result.Fits kind
  inclusive : Inclusive result
  here : ∃ current, ((mask.entry step).getD noneMask).union below = .ok current ∧
    result.entry step = some current
  other : ∀ t, t ≠ step → result.entry t = mask.entry t

theorem run_next {below : Mask} (known : step.kind = some kind) (fits : mask.Fits kind)
    (inclusive : Inclusive mask) (inclusive' : Inclusive below)
    (ok : (next step below).run mask = .ok result) :
    (below = noneMask ∧ result = mask) ∨ Unites mask below result step kind := by
  obtain ⟨K, _, ref, mk, at', k, slot, rfl⟩ := exists_slot known
  have run : (next (at' k) below).run mask = insertMaskUnion ref mask k below := by
    cases slot <;> rfl
  rw [run] at ok
  obtain ⟨sorted, each⟩ := slot.ensure inclusive
  rcases insertMaskUnion_ok fits.open ok with skipped | ⟨current, union, rfl⟩
  · exact Or.inl skipped
  · have old : Inclusive ((find k (ref.ensure mask)).getD noneMask) := inclusive_getMask each k
    rw [slot.wrap_eq]
    refine Or.inr ⟨slot.fits_mk _, inclusive_insertUnion slot.toKind sorted each k
      (old.union inclusive' union).1, ⟨current, ?_, ?_⟩, fun t other => ?_⟩
    · rw [slot.entry_eq]
      exact union
    · rw [slot.entry_mk, find_insertUnion, if_pos rfl]
    · exact slot.entry_of_ne fits (fun k' other => by rw [find_insertUnion, if_neg other]) other

@[simp] theorem run_next_noneMask (step : PathStep) (mask : Mask) :
    (next step noneMask).run mask = .ok mask := by
  cases step <;> simp [run, insertUnion, insertMaskUnion]

/-! ## Sequences of insertions of one kind -/

/-- An insertion at a step of the given kind; one of `noneMask` may be anywhere. -/
def OfKind (kind : StepKind) : Insertion → Prop
  | .whole step => step.kind = some kind
  | .next step below => Inclusive below ∧ (below = noneMask ∨ step.kind = some kind)

/-- What insertions leave of a mask that has the right kind. -/
structure Grows (insertions : List Insertion) (kind : StepKind) (mask result : Mask) : Prop where
  fits : result.Fits kind
  inclusive : Inclusive result
  /-- What is selected as a whole stays so. -/
  keeps : ∀ step, mask.entry step = some allMask → result.entry step = some allMask
  within : ∀ step, Within (mask.under step) (result.under step)
  takes : ∀ step below, next step below ∈ insertions → Within below (result.under step)
  /-- A step is selected as a whole unless a part of it was there before. -/
  fills : ∀ step, whole step ∈ insertions →
    (∀ below, next step below ∈ insertions → below = noneMask) → mask.entry step = none →
    result.entry step = some allMask
  apart : ∀ step, (∀ insertion ∈ insertions, insertion.step = step → insertion = next step noneMask) →
    result.entry step = mask.entry step

theorem grows_run {insertion : Insertion} (ofKind : insertion.OfKind kind)
    (fits : mask.Fits kind) (inclusive : Inclusive mask) (ok : insertion.run mask = .ok result) :
    Grows [insertion] kind mask result := by
  cases insertion with
  | whole step =>
    obtain ⟨fits', inclusive', here, other⟩ := run_whole ofKind fits inclusive ok
    have keeps (t : PathStep) (m : Mask) (found : mask.entry t = some m) :
        result.entry t = some m := by
      by_cases same : t = step
      · subst same
        rw [here, found, Option.getD_some]
      · rw [other t same, found]
    refine ⟨fits', inclusive', fun t => keeps t allMask, fun t => ?_, ?_, ?_, fun t apart => ?_⟩
    · rw [under_eq_entry fits.open, under_eq_entry fits'.open]
      cases found : mask.entry t with
      | none => exact Within.none _
      | some m =>
        rw [keeps t m found]
        exact Within.refl _
    · intro t below listed
      cases List.mem_singleton.mp listed
    · intro t listed _ absent
      cases List.mem_singleton.mp listed
      rw [here, absent, Option.getD_none]
    · refine other t fun same => ?_
      cases apart _ List.mem_cons_self same.symm
  | next step below =>
    obtain ⟨inclusiveBelow, known⟩ := ofKind
    by_cases none : below = noneMask
    · subst none
      rw [run_next_noneMask] at ok
      cases ok
      refine ⟨fits, inclusive, fun _ found => found, fun _ => Within.refl _, ?_, ?_, fun _ _ => rfl⟩
      · intro t below listed
        cases List.mem_singleton.mp listed
        exact Within.none _
      · intro t listed
        cases List.mem_singleton.mp listed
    · have known := known.resolve_left none
      rcases run_next known fits inclusive inclusiveBelow ok with ⟨skipped, -⟩ | unites
      · exact absurd skipped none
      · obtain ⟨current, union, here⟩ := unites.here
        have old : Inclusive ((mask.entry step).getD noneMask) := by
          rw [← under_eq_entry fits.open]
          exact inclusive.under step
        refine ⟨unites.fits, unites.inclusive, fun t found => ?_, fun t => ?_, ?_, ?_,
          fun t apart => ?_⟩
        · by_cases same : t = step
          · subst same
            rw [found, Option.getD_some, union_allMask_left] at union
            rw [here, ← Except.ok.inj union]
          · rw [unites.other t same, found]
        · rw [under_eq_entry fits.open, under_eq_entry unites.fits.open]
          by_cases same : t = step
          · subst same
            rw [here, Option.getD_some]
            exact Within.union_left old inclusiveBelow union
          · rw [unites.other t same]
            exact Within.refl _
        · intro t below listed
          cases List.mem_singleton.mp listed
          rw [under_eq_entry unites.fits.open, here, Option.getD_some]
          exact Within.union_right old inclusiveBelow union
        · intro t listed
          cases List.mem_singleton.mp listed
        · refine unites.other t fun same => ?_
          cases apart _ List.mem_cons_self same.symm
          exact none rfl

theorem grows_runAll {insertions : List Insertion}
    (ofKind : ∀ insertion ∈ insertions, insertion.OfKind kind) (fits : mask.Fits kind)
    (inclusive : Inclusive mask) (ok : runAll insertions mask = .ok result) :
    Grows insertions kind mask result := by
  induction insertions generalizing mask with
  | nil =>
    cases ok
    exact ⟨fits, inclusive, fun _ found => found, fun _ => Within.refl _, nofun, nofun,
      fun _ _ => rfl⟩
  | cons insertion insertions ih =>
    obtain ⟨inserted, ran, rest⟩ := Except.bind_eq_ok ok
    have first := grows_run (ofKind _ List.mem_cons_self) fits inclusive ran
    have later := ih (fun i listed => ofKind i (List.mem_cons_of_mem _ listed)) first.fits
      first.inclusive rest
    refine ⟨later.fits, later.inclusive, fun t found => later.keeps t (first.keeps t found),
      fun t => (first.within t).trans (later.within t), ?_, ?_, fun t apart => ?_⟩
    · intro t below listed
      rcases List.mem_cons.mp listed with rfl | listed
      · exact (first.takes t below List.mem_cons_self).trans (later.within t)
      · exact later.takes t below listed
    · intro t listed parts absent
      rcases List.mem_cons.mp listed with rfl | listed
      · refine later.keeps t (first.fills t List.mem_cons_self ?_ absent)
        exact fun below listed => parts below (List.mem_cons.mpr (Or.inl (List.mem_singleton.mp listed)))
      · -- What comes first fills the step, or leaves it empty.
        by_cases head : insertion = whole t
        · refine later.keeps t (first.fills t (List.mem_singleton.mpr head.symm) ?_ absent)
          exact fun below listed =>
            parts below (List.mem_cons.mpr (Or.inl (List.mem_singleton.mp listed)))
        · have untouched : inserted.entry t = mask.entry t := by
            refine first.apart t fun i member same => ?_
            cases List.mem_singleton.mp member
            cases insertion with
            | whole step => exact absurd (congrArg whole same) head
            | next step below =>
              cases same
              rw [parts below List.mem_cons_self]
              rfl
          refine later.fills t listed (fun below listed => ?_) (untouched.trans absent)
          exact parts below (List.mem_cons_of_mem _ listed)
    · have untouched := first.apart t fun i member same => by
        cases List.mem_singleton.mp member
        exact apart _ List.mem_cons_self same
      rw [← untouched]
      exact later.apart t fun i member same => apart i (List.mem_cons_of_mem _ member) same

end Insertion

end FbThrift
