import FbThrift.Mask.Filter
import FbThrift.Patch.ExtractMask
import FbThrift.Patch.Wf

/-!
# Values that agree outside of a mask

`Agree mask a b` says that two values, either of which may be absent, differ only in what
`mask` selects.  It is an equivalence for every mask and it is monotone in the mask: what
`union` returns selects at least what its arguments do.  Values that agree outside of a
mask are filtered alike by the reversed mask.

Floating point numbers are compared as numbers, see `canonFloat`.
-/

namespace FbThrift

open SortedMap Mask

/-! ## Values up to the representation of floats -/

namespace Value

mutual

/-- The value with every float that a path of fields and map keys reaches made canonical. -/
def canon : Value → Value
  | .float n => .float (canonFloat n)
  | .double n => .double (canonDouble n)
  | .object ms => .object (canonMembers ms)
  | .map es => .map (canonEntries es)
  | v => v

def canonMembers : List (Int16 × Value) → List (Int16 × Value)
  | [] => []
  | (id, v) :: ms => (id, v.canon) :: canonMembers ms

def canonEntries : List (Value × Value) → List (Value × Value)
  | [] => []
  | (k, v) :: es => (k, v.canon) :: canonEntries es

end

theorem canonMembers_eq (ms : List (Int16 × Value)) :
    canonMembers ms = ms.map fun e => (e.1, e.2.canon) := by
  induction ms with
  | nil => rfl
  | cons e ms ih => rw [canonMembers, ih, List.map_cons]

theorem canonEntries_eq (es : List (Value × Value)) :
    canonEntries es = es.map fun e => (e.1, e.2.canon) := by
  induction es with
  | nil => rfl
  | cons e es ih => rw [canonEntries, ih, List.map_cons]

end Value

variable {K : Type} {x : Object} {p q r : Mask}

/-- The lookups of a map whose values are made canonical. -/
theorem find_canon [Keyed K] (k : K) (m : List (K × Value)) :
    find k (m.map fun e => (e.1, e.2.canon)) = (find k m).map Value.canon :=
  find_map (fun _ v => v.canon) k m

theorem sorted_canon [Keyed K] (m : List (K × Value)) :
    Sorted (m.map fun e => (e.1, e.2.canon)) ↔ Sorted m := by
  refine sorted_map_iff _ ?_ m
  exact fun _ => rfl

theorem canon_ext [Keyed K] {x y : List (K × Value)} (sx : Sorted x) (sy : Sorted y)
    (same : ∀ k, (find k x).map Value.canon = (find k y).map Value.canon) :
    x.map (fun e => (e.1, e.2.canon)) = y.map (fun e => (e.1, e.2.canon)) := by
  refine ((sorted_canon x).mpr sx).ext ((sorted_canon y).mpr sy) ?_
  intro k
  rw [find_canon, find_canon, same]

theorem canon_object_eq {v : Value} (same : (Value.object x).canon = v.canon) : ∃ y, v = .object y ∧
      x.map (fun e => (e.1, e.2.canon)) = y.map (fun e => (e.1, e.2.canon)) := by
  cases v <;> simp only [Value.canon, reduceCtorEq, Value.object.injEq] at same
  rw [Value.canonMembers_eq, Value.canonMembers_eq] at same
  exact ⟨_, rfl, same⟩

theorem canon_map_eq {x : List (Value × Value)} {v : Value} (same : (Value.map x).canon = v.canon) :
    ∃ y, v = .map y ∧ x.map (fun e => (e.1, e.2.canon)) = y.map (fun e => (e.1, e.2.canon)) := by
  cases v <;> simp only [Value.canon, reduceCtorEq, Value.map.injEq] at same
  rw [Value.canonEntries_eq, Value.canonEntries_eq] at same
  exact ⟨_, rfl, same⟩

theorem find_canon_eq [Keyed K] {x y : List (K × Value)}
    (same : x.map (fun e => (e.1, e.2.canon)) = y.map (fun e => (e.1, e.2.canon))) (k : K) :
    (find k x).map Value.canon = (find k y).map Value.canon := by
  rw [← find_canon, ← find_canon, same]

/-! ## The mask below a step -/

/-- What an inclusive mask selects below a key of one kind. -/
def IncludesRef.under {K : Type} [Keyed K] (ref : IncludesRef K) (mask : Mask) (k : K) : Mask :=
  if mask.isAllMask then allMask else MaskRef.getMask (ref.ensure mask) k

/-- The step of a path that a key of a map stands for. -/
def stepOf (key : Value) : Option PathStep :=
  match getMapIdFromValue key with
  | .ok id => some (.mapId id)
  | .error _ =>
    match getStringFromValue key with
    | .ok key => some (.stringKey key)
    | .error _ => none

namespace Mask

/-- What an inclusive mask selects where its level does not reach. -/
def outside (mask : Mask) : Mask := if mask.isAllMask then allMask else noneMask

/-- What an inclusive mask selects below a step. -/
def under (mask : Mask) : PathStep → Mask
  | .field id => fieldsRef.under mask id
  | .mapId id => mapIdsRef.under mask id
  | .stringKey key => stringKeysRef.under mask key
  | .type _ => mask.outside

/-- What an inclusive mask selects below a key of a map. -/
def underKey (mask : Mask) (key : Value) : Mask :=
  match stepOf key with
  | some step => mask.under step
  | none => mask.outside

@[simp] theorem under_allMask (step : PathStep) : allMask.under step = allMask := by
  cases step <;> rfl

@[simp] theorem under_noneMask (step : PathStep) : noneMask.under step = noneMask := by
  cases step <;> rfl

@[simp] theorem underKey_noneMask (key : Value) : noneMask.underKey key = noneMask := by
  unfold underKey
  split
  · exact under_noneMask _
  · rfl

theorem outside_eq (mask : Mask) : mask.outside = allMask ∧ mask = allMask ∨
    mask.outside = noneMask ∧ mask.isAllMask = false := by
  unfold outside
  cases all : mask.isAllMask with
  | true => exact Or.inl ⟨rfl, isAllMask_iff.mp all⟩
  | false => exact Or.inr ⟨rfl, rfl⟩

end Mask

/-! ## Agreement -/

/-- Two values, either of which may be absent, differ only in what the mask selects. -/
inductive Agree : Mask → Option Value → Option Value → Prop
  | all (a b : Option Value) : Agree allMask a b
  | same {mask : Mask} {a b : Option Value} (canon : a.map Value.canon = b.map Value.canon) :
    Agree mask a b
  | object {mask : Mask} {x y : Object} (sx : Sorted x) (sy : Sorted y)
    (below : ∀ id, Agree (mask.under (.field id)) (find id x) (find id y)) :
    Agree mask (some (.object x)) (some (.object y))
  | map {mask : Mask} {x y : List (Value × Value)} (sx : Sorted x) (sy : Sorted y)
    (below : ∀ k, Agree (mask.underKey k) (find k x) (find k y)) :
    Agree mask (some (.map x)) (some (.map y))

namespace Agree

variable {mask : Mask} {a b c : Option Value}

theorem refl (mask : Mask) (a : Option Value) : Agree mask a a := .same rfl

theorem symm (agree : Agree mask a b) : Agree mask b a := by
  induction agree with
  | all a b => exact .all b a
  | same canon => exact .same canon.symm
  | object sx sy _ ih => exact .object sy sx ih
  | map sx sy _ ih => exact .map sy sx ih

/-- Outside of `noneMask` values agree only when they are equal. -/
theorem canon_eq (agree : Agree mask a b) (none : mask = noneMask) :
    a.map Value.canon = b.map Value.canon := by
  induction agree with
  | all a b => cases none
  | same canon => exact canon
  | object sx sy _ ih =>
    subst none
    have equal := canon_ext sx sy fun id => ih id (under_noneMask _)
    simp only [Option.map_some, Value.canon, Value.canonMembers_eq, equal]
  | map sx sy _ ih =>
    subst none
    have equal := canon_ext sx sy fun k => ih k (underKey_noneMask k)
    simp only [Option.map_some, Value.canon, Value.canonEntries_eq, equal]

theorem of_none (agree : Agree noneMask a b) : Agree mask a b :=
  .same (agree.canon_eq rfl)

theorem congr_left (agree : Agree mask a b) (canon : c.map Value.canon = a.map Value.canon) :
    Agree mask c b := by
  induction agree generalizing c with
  | all a b => exact .all c b
  | same canon' => exact .same (canon.trans canon')
  | @object mask x y sx sy _ ih =>
    cases c with
    | none => cases canon
    | some v =>
      obtain ⟨z, rfl, equal⟩ := canon_object_eq (Option.some.inj canon).symm
      refine .object ?_ sy fun id => ih id (find_canon_eq equal id).symm
      exact (sorted_canon z).mp (equal ▸ (sorted_canon x).mpr sx)
  | @map mask x y sx sy _ ih =>
    cases c with
    | none => cases canon
    | some v =>
      obtain ⟨z, rfl, equal⟩ := canon_map_eq (Option.some.inj canon).symm
      refine .map ?_ sy fun k => ih k (find_canon_eq equal k).symm
      exact (sorted_canon z).mp (equal ▸ (sorted_canon x).mpr sx)

theorem trans (first : Agree mask a b) (second : Agree mask b c) : Agree mask a c := by
  induction first generalizing c with
  | all a b => exact .all a c
  | same canon => exact second.congr_left canon
  | object sx sy below ih =>
    cases second with
    | all => exact .all _ _
    | same canon => exact (congr_left (.symm (.object sx sy below)) canon.symm).symm
    | object _ sz below' => exact .object sx sz fun id => ih id (below' id)
  | map sx sy below ih =>
    cases second with
    | all => exact .all _ _
    | same canon => exact (congr_left (.symm (.map sx sy below)) canon.symm).symm
    | map _ sz below' => exact .map sx sz fun k => ih k (below' k)

end Agree

/-! ## Masks that select more -/

/-- Whatever agrees outside of `p` agrees outside of `q`. -/
def Within (p q : Mask) : Prop := ∀ a b, Agree p a b → Agree q a b

namespace Within

theorem refl (p : Mask) : Within p p := fun _ _ agree => agree

theorem trans {p q r : Mask} (first : Within p q) (second : Within q r) : Within p r :=
  fun a b agree => second a b (first a b agree)

theorem none (p : Mask) : Within noneMask p := fun _ _ agree => agree.of_none

end Within

/-! ## Inclusive masks -/

namespace Mask

/-- A mask that lists what it includes, down to `allMask`. -/
inductive Inclusive : Mask → Prop
  | all : Inclusive allMask
  | level {K : Type} [Keyed K] {mk : Bool → List (K × Mask) → Mask} {map : List (K × Mask)}
    (kind : Kind mk) (sorted : Sorted map)
    (below : ∀ k mask, find k map = some mask → Inclusive mask) : Inclusive (mk false map)

theorem Inclusive.reverseMask {mask : Mask} (inclusive : Inclusive mask) :
    mask.reverseMask = .ok mask.rev := by
  cases inclusive with
  | all => rfl
  | level kind => cases kind <;> rfl

theorem inclusive_noneMask : Inclusive noneMask := .level .fields sorted_nil nofun

variable {K : Type} {p : Mask}

theorem inclusive_getMask [Keyed K] {map : List (K × Mask)}
    (below : ∀ k mask, find k map = some mask → Inclusive mask) (k : K) :
    Inclusive (MaskRef.getMask map k) := by
  unfold MaskRef.getMask
  cases found : find k map with
  | none => exact inclusive_noneMask
  | some mask => exact below k mask found

theorem inclusive_of_getMask [Keyed K] {map : List (K × Mask)}
    (below : ∀ k, Inclusive (MaskRef.getMask map k)) (k : K) (mask : Mask)
    (found : find k map = some mask) : Inclusive mask := by
  have here := below k
  rw [MaskRef.getMask, found] at here
  exact here

theorem Inclusive.of_level (inclusive : Inclusive p) (part : p.IsPartial)
    [Keyed K] {mk : Bool → List (K × Mask) → Mask} (kind : Kind mk) {exclusive : Bool}
    {map : List (K × Mask)} (level : p = mk exclusive map) :
    exclusive = false ∧ Sorted map ∧ ∀ k mask, find k map = some mask → Inclusive mask := by
  cases inclusive with
  | all => cases part.1
  | level kind' sorted below =>
    cases kind <;> cases kind' <;> cases level
    all_goals exact ⟨rfl, sorted, below⟩

theorem Inclusive.same_level {q : Mask} (inclusive : Inclusive q) (part : q.IsPartial)
    [Keyed K] {mk : Bool → List (K × Mask) → Mask} (kind : Kind mk) {exclusive : Bool}
    {map : List (K × Mask)} (same : SameKind (mk exclusive map) q) :
    ∃ map', q = mk false map' ∧ Sorted map' ∧
      ∀ k mask, find k map' = some mask → Inclusive mask := by
  obtain ⟨K', _, mk', kind', e₁, e₂, P, Q, level, rfl⟩ := same
  obtain ⟨rfl, sorted, below⟩ := inclusive.of_level part kind' rfl
  cases kind <;> cases kind' <;> cases level
  all_goals exact ⟨Q, rfl, sorted, below⟩

theorem sorted_insertRhsOnly [Keyed K] (lhs rhs : List (K × Mask))
    {map : List (K × Mask)} (sorted : Sorted map) : Sorted (insertRhsOnly lhs rhs map) := by
  induction rhs generalizing map with
  | nil => exact sorted
  | cons e rhs ih =>
    obtain ⟨id, mask⟩ := e
    refine ih ?_
    split
    · exact sorted
    · unfold insertIfNotNoneMask
      split
      · exact sorted
      · exact sorted.insertOrAssign _ _

theorem sorted_unionMaskImpl [Keyed K] {P Q R : List (K × Mask)}
    (ok : unionMaskImpl P Q (fun l r _ _ => union l r) = .ok R) : Sorted R := by
  unfold unionMaskImpl at ok
  cases collected : collectM P (mergeEntry notNoneMask P Q fun l r _ _ => union l r) with
  | error err =>
    rw [collected] at ok
    cases ok
  | ok first =>
    rw [collected] at ok
    rw [← Except.ok.inj ok]
    exact sorted_insertRhsOnly P Q (sorted_collectM collected)

@[simp] theorem union_allMask_left (m : Mask) : allMask.union m = .ok allMask := by
  rw [union.eq_def]
  simp

@[simp] theorem union_allMask_right (m : Mask) : m.union allMask = .ok allMask := by
  rw [union.eq_def]
  cases all : m.isAllMask with
  | true => simp [isAllMask_iff.mp all]
  | false => simp

theorem Kind.union_inclusive [Keyed K] {mk : Bool → List (K × Mask) → Mask}
    (kind : Kind mk) {P Q : List (K × Mask)} (left : (mk false P).IsPartial)
    (right : (mk false Q).IsPartial) :
    (mk false P).union (mk false Q) =
      (unionMaskImpl P Q fun l r _ _ => union l r).map (mk false) := by
  rw [union.eq_def (mk false P) (mk false Q)]
  simp only [left.1, left.2, right.1, right.2, kind.isInclusive_mk, kind.apply_mk, Bool.or_self,
    Bool.false_eq_true, if_false, Bool.not_false, if_true]
  rfl

/-- A step stands for a key of a level or leads outside of it. -/
theorem Kind.under [Keyed K] {mk : Bool → List (K × Mask) → Mask} (kind : Kind mk)
    (step : PathStep) :
    (∃ k, ∀ map, (mk false map).under step = MaskRef.getMask map k) ∨
      ∀ map, (mk false map).under step = noneMask := by
  cases kind <;> cases step
  case fields.field id => exact Or.inl ⟨id, fun _ => rfl⟩
  case mapIds.mapId id => exact Or.inl ⟨id, fun _ => rfl⟩
  case stringKeys.stringKey key => exact Or.inl ⟨key, fun _ => rfl⟩
  all_goals exact Or.inr fun _ => rfl

theorem Inclusive.under (inclusive : Inclusive p) (step : PathStep) : Inclusive (p.under step) := by
  cases inclusive with
  | all =>
    rw [under_allMask]
    exact .all
  | level kind sorted below =>
    rcases kind.under step with ⟨k, here⟩ | outside
    · rw [here]
      exact inclusive_getMask below k
    · rw [outside]
      exact inclusive_noneMask

theorem Inclusive.union {q r : Mask} (left : Inclusive p) (right : Inclusive q)
    (ok : p.union q = .ok r) :
    Inclusive r ∧ ∀ step, (p.under step).union (q.under step) = .ok (r.under step) := by
  induction left generalizing q r with
  | all =>
    cases ok.symm.trans (union_allMask_left q)
    exact ⟨.all, fun step => by simp⟩
  | @level K _ mk P kind sorted below ih =>
    have left : Inclusive (mk false P) := .level kind sorted below
    rcases eq_allMask_or_noneMask_or_isPartial q with rfl | rfl | right'
    · cases ok.symm.trans (union_allMask_right _)
      exact ⟨.all, fun step => by simp⟩
    · cases ok.symm.trans (union_noneMask_right _)
      exact ⟨left, fun step => by simp⟩
    · rcases eq_allMask_or_noneMask_or_isPartial (mk false P) with all | none | left'
      · rw [all] at ok ⊢
        cases ok.symm.trans (union_allMask_left q)
        exact ⟨.all, fun step => by simp⟩
      · rw [none] at ok ⊢
        cases ok.symm.trans (union_noneMask_left q)
        exact ⟨right, fun step => by simp⟩
      · obtain ⟨Q, rfl, sortedQ, belowQ⟩ :=
          right.same_level right' kind (sameKind_of_union_ok left' right' ok)
        rw [kind.union_inclusive left' right'] at ok
        obtain ⟨R, merged, rfl⟩ := Except.map_eq_ok ok
        have each := unionMaskImpl_getMask sorted sortedQ merged
        refine ⟨.level kind (sorted_unionMaskImpl merged) (inclusive_of_getMask fun k => ?_), ?_⟩
        · have below' := inclusive_getMask belowQ k
          cases found : find k P with
          | none =>
            have union := each k
            rw [MaskRef.getMask, found, Option.getD_none, union_noneMask_left] at union
            exact Except.ok.inj union ▸ below'
          | some mask =>
            have union := each k
            rw [MaskRef.getMask, found, Option.getD_some] at union
            exact (ih k mask found below' union).1
        · intro step
          rcases kind.under step with ⟨k, here⟩ | outside
          · rw [here, here, here]
            exact each k
          · rw [outside, outside, outside]
            exact union_noneMask_left _

end Mask

/-- A union selects at least what its arguments do. -/
theorem Agree.union {a b : Option Value} (agree : Agree p a b) (left : Inclusive p)
    (right : Inclusive q) (ok : p.union q = .ok r ∨ q.union p = .ok r) : Agree r a b := by
  induction agree generalizing q r with
  | all a b =>
    rw [union_allMask_left, union_allMask_right, or_self] at ok
    exact Except.ok.inj ok ▸ .all a b
  | same canon => exact .same canon
  | @object mask x y sx sy _ ih =>
    refine .object sx sy fun id => ?_
    refine ih id (left.under _) (right.under (.field id)) ?_
    exact ok.imp (fun ok => (left.union right ok).2 _) fun ok => (right.union left ok).2 _
  | @map mask x y sx sy below ih =>
    refine .map sx sy fun k => ?_
    have here := below k
    have ih := @ih k
    unfold underKey at here ih ⊢
    split
    · rename_i step found
      simp only [found] at ih
      refine ih (left.under _) (right.under step) ?_
      exact ok.imp (fun ok => (left.union right ok).2 _) fun ok => (right.union left ok).2 _
    · rename_i found
      simp only [found] at here
      rcases outside_eq mask with ⟨-, rfl⟩ | ⟨none, -⟩
      · rw [union_allMask_left, union_allMask_right, or_self] at ok
        exact Except.ok.inj ok ▸ .all _ _
      · rw [none] at here
        exact here.of_none

theorem Within.union_left (left : Inclusive p) (right : Inclusive q)
    (ok : p.union q = .ok r) : Within p r :=
  fun _ _ agree => agree.union left right (Or.inl ok)

theorem Within.union_right (left : Inclusive p) (right : Inclusive q)
    (ok : p.union q = .ok r) : Within q r :=
  fun _ _ agree => agree.union right left (Or.inr ok)

/-! ## Filtering -/

namespace MaskRef

variable {K : Type}

/-- A visit that commutes with `canon` at each entry. -/
theorem collectM_canon [Keyed K] (src : List (K × Value))
    (f : K → Value → Except String (Option Value))
    (each : ∀ e ∈ src, f e.1 e.2.canon = (f e.1 e.2).map (Option.map Value.canon)) :
    collectM (src.map fun e => (e.1, e.2.canon)) (fun e _ => f e.1 e.2) =
      (collectM src fun e _ => f e.1 e.2).map (List.map fun e => (e.1, e.2.canon)) := by
  rw [collectM_of_map, collectM_map]
  congr 1
  funext e member
  exact each e member

theorem filterFields_canon (ref : MaskRef) (src : Object) (each : ∀ child, ∀ e ∈ src,
      filterImpl child e.2.canon = (child.filterImpl e.2).map (Option.map Value.canon)) :
    (ref.filterFields (src.map fun e => (e.1, e.2.canon)) fun child e _ => child.filterImpl e.2) =
      (ref.filterFields src fun child e _ => child.filterImpl e.2).map
        (List.map fun e => (e.1, e.2.canon)) := by
  unfold filterFields
  split
  · refine collectM_canon src (fun id v => ref.getField id >>= fun child => child.filterImpl v) ?_
    intro e member
    cases ref.getField e.1 with
    | error err => rfl
    | ok child => exact each child e member
  · rfl
  · rfl

theorem filterKeys_canon (ref : MaskRef) (src : List (Value × Value)) (each : ∀ child, ∀ e ∈ src,
      filterImpl child e.2.canon = (child.filterImpl e.2).map (Option.map Value.canon)) :
    (ref.filterKeys (src.map fun e => (e.1, e.2.canon)) fun child e _ => child.filterImpl e.2) =
      (ref.filterKeys src fun child e _ => child.filterImpl e.2).map
        (List.map fun e => (e.1, e.2.canon)) := by
  cases src with
  | nil => rfl
  | cons e src =>
    obtain ⟨first, v⟩ := e
    show (getArrayKeyFromValue first >>= fun kind =>
      collectM (((first, v) :: src).map fun e => (e.1, e.2.canon)) fun e _ =>
        ref.getKey e.1 kind >>= fun child => child.filterImpl e.2) =
      (getArrayKeyFromValue first >>= fun kind => collectM ((first, v) :: src) fun e _ =>
        ref.getKey e.1 kind >>= fun child => child.filterImpl e.2).map _
    cases getArrayKeyFromValue first with
    | error err => rfl
    | ok kind =>
      refine collectM_canon ((first, v) :: src)
        (fun key v => ref.getKey key kind >>= fun child => child.filterImpl v) ?_
      intro e member
      cases ref.getKey e.1 kind with
      | error err => rfl
      | ok child => exact each child e member

theorem filterEntries_canon (ref : MaskRef) (src : List (Value × Value)) (each : ∀ child, ∀ e ∈ src,
      filterImpl child e.2.canon = (child.filterImpl e.2).map (Option.map Value.canon)) :
    (ref.filterEntries (src.map fun e => (e.1, e.2.canon)) fun child e _ =>
        child.filterImpl e.2) =
      (ref.filterEntries src fun child e _ => child.filterImpl e.2).map
        (List.map fun e => (e.1, e.2.canon)) := by
  unfold filterEntries
  split
  · exact filterKeys_canon ref src each
  · exact filterKeys_canon ref src each
  · rfl

/-- Whether floats are made canonical before or after a filter makes no difference. -/
theorem filterImpl_canon (ref : MaskRef) (v : Value) :
    ref.filterImpl v.canon = (ref.filterImpl v).map (Option.map Value.canon) := by
  cases none : ref.isNoneMask with
  | true =>
    rw [filterImpl.eq_def, filterImpl.eq_def]
    simp [none, Except.map]
  | false =>
    cases all : ref.isAllMask with
    | true =>
      rw [filterImpl.eq_def, filterImpl.eq_def]
      simp [none, all, Except.map]
    | false =>
      cases v with
      | object src =>
        rw [Value.canon, Value.canonMembers_eq, filterImpl_object _ ⟨none, all⟩,
          filterImpl_object _ ⟨none, all⟩, filterFields_canon]
        · cases ref.filterFields src fun child e _ => child.filterImpl e.2 with
          | error err => rfl
          | ok recurse =>
            cases recurse with
            | nil => rfl
            | cons e recurse => simp [Except.map, Value.canon, Value.canonMembers_eq]
        · intro child e member
          exact filterImpl_canon child e.2
      | map src =>
        rw [Value.canon, Value.canonEntries_eq, filterImpl_map _ ⟨none, all⟩,
          filterImpl_map _ ⟨none, all⟩, filterEntries_canon]
        · cases ref.filterEntries src fun child e _ => child.filterImpl e.2 with
          | error err => rfl
          | ok recurse =>
            cases recurse with
            | nil => rfl
            | cons e recurse => simp [Except.map, Value.canon, Value.canonEntries_eq]
        · intro child e member
          exact filterImpl_canon child e.2
      | _ =>
        simp only [Value.canon]
        unfold filterImpl
        simp [none, all, Except.map]
termination_by sizeOf v
decreasing_by
  all_goals
    have below := sizeOf_lt_of_mem (k := e.1) (v := e.2) member
    simp only [Value.object.sizeOf_spec, Value.map.sizeOf_spec]
    omega

/-- The mask that `filter` looks up at a key of a map, for a mask of one kind of keys. -/
def keyRef (mask : Mask) (key : Value) : Except String MaskRef :=
  match mask with
  | .mapIds _ map => do
    let id ← getMapIdFromValue key
    .ok ⟨getMask map id, true⟩
  | .stringKeys _ map => do
    let id ← getStringFromValue key
    .ok ⟨getMask map id, true⟩
  | _ => .error "not a map mask"

/-- `filter_impl` on a value that may be absent, up to what it throws. -/
def filtered (ref : MaskRef) : Option Value → Option (Option Value)
  | none => some none
  | some v => (ref.filterImpl v).toOption.map (Option.map Value.canon)

theorem filtered_same {ref : MaskRef} {a b : Option Value}
    (canon : a.map Value.canon = b.map Value.canon) : ref.filtered a = ref.filtered b := by
  have made (v : Value) : ref.filtered (some v) = (ref.filterImpl v.canon).toOption := by
    rw [filterImpl_canon, filtered]
    cases ref.filterImpl v <;> rfl
  cases a with
  | none =>
    cases b with
    | none => rfl
    | some w => cases canon
  | some v =>
    cases b with
    | none => cases canon
    | some w => rw [made, made, Option.some.inj canon]

theorem filtered_allMask (a : Option Value) : filtered ⟨allMask, true⟩ a = some none := by
  cases a with
  | none => rfl
  | some v =>
    rw [filtered, filterImpl.eq_def]
    rfl

theorem keyRef_eq (mask : Mask) (key : Value)
    (kind : (∃ map, mask = .includesMap map) ∨ ∃ map, mask = .includesStringMap map) :
    keyRef mask key = .ok ⟨mask.underKey key, true⟩ ∨
      (mask.underKey key = noneMask ∧ ∃ err, keyRef mask key = .error err) := by
  rcases kind with ⟨map, rfl⟩ | ⟨map, rfl⟩
  · cases known : getMapIdFromValue key with
    | ok id =>
      left
      simp only [keyRef, underKey, stepOf, known, bind, Except.bind]
      rfl
    | error err =>
      right
      refine ⟨?_, err, by simp only [keyRef, known, bind, Except.bind]⟩
      simp only [underKey, stepOf, known]
      cases getStringFromValue key <;> rfl
  · cases known : getMapIdFromValue key with
    | ok id =>
      right
      cases key <;> simp [getMapIdFromValue] at known
      all_goals exact ⟨rfl, _, rfl⟩
    | error err =>
      cases string : getStringFromValue key with
      | ok s =>
        left
        simp only [keyRef, underKey, stepOf, known, string, bind, Except.bind]
        rfl
      | error err =>
        right
        refine ⟨?_, err, by simp only [keyRef, string, bind, Except.bind]⟩
        simp only [underKey, stepOf, known, string]
        rfl

theorem filterEntries_toOption {mask : Mask}
    (kind : (∃ map, mask = .includesMap map) ∨ ∃ map, mask = .includesStringMap map)
    (src : List (Value × Value)) (f : MaskRef → Value → Except String (Option Value)) :
    (filterEntries ⟨mask, true⟩ src fun child e _ => f child e.2).toOption =
      (collectM src fun e _ => keyRef mask e.1 >>= fun child => f child e.2).toOption := by
  have entries : filterEntries ⟨mask, true⟩ src (fun child e _ => f child e.2) =
      filterKeys ⟨mask, true⟩ src fun child e _ => f child e.2 := by
    rcases kind with ⟨map, rfl⟩ | ⟨map, rfl⟩ <;> rfl
  rw [entries]
  cases src with
  | nil => rfl
  | cons e src =>
    obtain ⟨first, v⟩ := e
    show (getArrayKeyFromValue first >>= fun kind => collectM ((first, v) :: src) fun e _ =>
      getKey ⟨mask, true⟩ e.1 kind >>= fun child => f child e.2).toOption = _
    rcases kind with ⟨map, rfl⟩ | ⟨map, rfl⟩
    · cases first <;> rfl
    · cases first <;> rfl

/-- What is left of a filtered object or map, with its floats made canonical. -/
theorem toOption_map_canon {wrap : List (K × Value) → Value}
    (canon : ∀ m, (wrap m).canon = wrap (m.map fun e => (e.1, e.2.canon)))
    (x : Except String (List (K × Value))) :
    (x.map fun recurse => if recurse.isEmpty then none else some (wrap recurse)).toOption.map
        (Option.map Value.canon) =
      (x.map (List.map fun e => (e.1, e.2.canon))).toOption.map fun recurse =>
        if recurse.isEmpty then none else some (wrap recurse) := by
  cases x with
  | error err => rfl
  | ok recurse =>
    cases recurse with
    | nil => rfl
    | cons e recurse => simp [Except.map, Except.toOption, canon]

/-- Filtering the entries of two maps, each at its own mask. -/
theorem collectM_filtered [Keyed K] {x y : List (K × Value)} (sx : Sorted x)
    (sy : Sorted y) (f : K → Value → Except String (Option Value))
    (same : ∀ k, (find k x).elim (some none) (fun v => (f k v).toOption.map (Option.map Value.canon)) =
      (find k y).elim (some none) (fun v => (f k v).toOption.map (Option.map Value.canon))) :
    ((collectM x fun e _ => f e.1 e.2).map (List.map fun e => (e.1, e.2.canon))).toOption =
      ((collectM y fun e _ => f e.1 e.2).map (List.map fun e => (e.1, e.2.canon))).toOption := by
  rw [collectM_map, collectM_map]
  refine toOption_collectM_congr sx sy (f := fun e => (f e.1 e.2).map (Option.map Value.canon))
    (g := fun e => (f e.1 e.2).map (Option.map Value.canon)) fun k => ?_
  have each (m : List (K × Value)) :
      visit (fun e => (f e.1 e.2).map (Option.map Value.canon)) k (find k m) =
        (find k m).elim (some none) fun v => (f k v).toOption.map (Option.map Value.canon) := by
    cases find k m with
    | none => rfl
    | some v =>
      simp only [visit, Option.elim]
      cases f k v <;> rfl
  rw [each, each, same]

theorem filtered_eq_elim (ref : MaskRef) (a : Option Value) : ref.filtered a =
      a.elim (some none) fun v => (ref.filterImpl v).toOption.map (Option.map Value.canon) := by
  cases a <;> rfl

theorem isPartial_ref {mask : Mask} (part : mask.IsPartial) :
    MaskRef.isNoneMask ⟨mask, true⟩ = false ∧ MaskRef.isAllMask ⟨mask, true⟩ = false := by
  simp [MaskRef.isNoneMask, MaskRef.isAllMask, part.1, part.2]

/-- The object case of `filtered_eq`. -/
theorem filterFields_eq {mask : Mask} {x y : Object} (sx : Sorted x) (sy : Sorted y)
    (part : mask.IsPartial) (inclusive : Inclusive mask)
    (same : ∀ id, filtered ⟨mask.under (.field id), true⟩ (find id x) =
      filtered ⟨mask.under (.field id), true⟩ (find id y)) :
    ((filterFields ⟨mask, true⟩ x fun child e _ => child.filterImpl e.2).map
        (List.map fun e => (e.1, e.2.canon))).toOption =
      ((filterFields ⟨mask, true⟩ y fun child e _ => child.filterImpl e.2).map
        (List.map fun e => (e.1, e.2.canon))).toOption := by
  cases inclusive with
  | all => cases part.1
  | @level _ _ _ map kind _ _ =>
    cases kind with
    | fields =>
      refine collectM_filtered sx sy (fun id v => filterImpl ⟨getMask map id, true⟩ v) ?_
      intro id
      have here := same id
      rw [filtered_eq_elim, filtered_eq_elim] at here
      exact here
    | _ => rfl

/-- The map case of `filtered_eq`. -/
theorem filterEntries_eq {mask : Mask} {x y : List (Value × Value)} (sx : Sorted x)
    (sy : Sorted y) (part : mask.IsPartial) (inclusive : Inclusive mask)
    (below : ∀ k, Agree (mask.underKey k) (find k x) (find k y))
    (same : ∀ k, filtered ⟨mask.underKey k, true⟩ (find k x) =
      filtered ⟨mask.underKey k, true⟩ (find k y)) :
    ((filterEntries ⟨mask, true⟩ x fun child e _ => child.filterImpl e.2).map
        (List.map fun e => (e.1, e.2.canon))).toOption =
      ((filterEntries ⟨mask, true⟩ y fun child e _ => child.filterImpl e.2).map
        (List.map fun e => (e.1, e.2.canon))).toOption := by
  have byKeys (kind : (∃ map, mask = .includesMap map) ∨ ∃ map, mask = .includesStringMap map) :
      ((filterEntries ⟨mask, true⟩ x fun child e _ => child.filterImpl e.2).map
          (List.map fun e => (e.1, e.2.canon))).toOption =
        ((filterEntries ⟨mask, true⟩ y fun child e _ => child.filterImpl e.2).map
          (List.map fun e => (e.1, e.2.canon))).toOption := by
    have toOption_map {α β : Type} (g : α → β) (x : Except String α) :
        (x.map g).toOption = x.toOption.map g := by cases x <;> rfl
    rw [toOption_map, toOption_map, filterEntries_toOption kind, filterEntries_toOption kind,
      ← toOption_map, ← toOption_map]
    refine collectM_filtered sx sy
      (fun key v => keyRef mask key >>= fun child => child.filterImpl v) ?_
    intro key
    rcases keyRef_eq mask key kind with known | ⟨none, err, unknown⟩
    · have here := same key
      rw [filtered_eq_elim, filtered_eq_elim] at here
      simp only [known, bind, Except.bind]
      exact here
    · -- The key is not one of the kind of the mask: both filters throw at it, or neither has it.
      have equal := (below key).canon_eq none
      simp only [unknown, bind, Except.bind]
      cases left : find key x with
      | none =>
        rw [left] at equal
        rw [Option.map_eq_none_iff.mp equal.symm]
      | some v =>
        cases right : find key y with
        | none =>
          rw [left, right] at equal
          cases equal
        | some w => rfl
  cases inclusive with
  | all => cases part.1
  | @level _ _ _ map kind _ _ =>
    cases kind with
    | mapIds => exact byKeys (Or.inl ⟨map, rfl⟩)
    | stringKeys => exact byKeys (Or.inr ⟨map, rfl⟩)
    | _ => rfl

theorem inclusive_underKey {mask : Mask} (inclusive : Inclusive mask) (key : Value) :
    Inclusive (mask.underKey key) := by
  unfold underKey
  split
  · exact inclusive.under _
  · rcases outside_eq mask with ⟨equal, -⟩ | ⟨equal, -⟩
    · exact equal ▸ .all
    · exact equal ▸ inclusive_noneMask

theorem filtered_eq {mask : Mask} {a b : Option Value} (agree : Agree mask a b)
    (inclusive : Inclusive mask) : filtered ⟨mask, true⟩ a = filtered ⟨mask, true⟩ b := by
  induction agree with
  | all a b => rw [filtered_allMask, filtered_allMask]
  | same canon => exact filtered_same canon
  | @object mask x y sx sy below ih =>
    rcases eq_allMask_or_noneMask_or_isPartial mask with rfl | rfl | part
    · rw [filtered_allMask, filtered_allMask]
    · exact filtered_same ((Agree.object sx sy below).canon_eq rfl)
    · have canon (m : Object) : (Value.object m).canon =
          .object (m.map fun e => (e.1, e.2.canon)) := by
        rw [Value.canon, Value.canonMembers_eq]
      simp only [filtered, filterImpl_object _ (isPartial_ref part), toOption_map_canon canon]
      rw [filterFields_eq sx sy part inclusive fun id => ih id (inclusive.under _)]
  | @map mask x y sx sy below ih =>
    rcases eq_allMask_or_noneMask_or_isPartial mask with rfl | rfl | part
    · rw [filtered_allMask, filtered_allMask]
    · exact filtered_same ((Agree.map sx sy below).canon_eq rfl)
    · have canon (m : List (Value × Value)) : (Value.map m).canon =
          .map (m.map fun e => (e.1, e.2.canon)) := by
        rw [Value.canon, Value.canonEntries_eq]
      simp only [filtered, filterImpl_map _ (isPartial_ref part), toOption_map_canon canon]
      rw [filterEntries_eq sx sy part inclusive below fun k =>
        ih k (inclusive_underKey inclusive k)]

end MaskRef

theorem Agree.fields {mask : Mask} {y : Object}
    (agree : Agree mask (some (.object x)) (some (.object y))) (id : Int16) :
    Agree (mask.under (.field id)) (find id x) (find id y) := by
  cases agree with
  | all => exact .all _ _
  | same canon =>
    obtain ⟨z, known, equal⟩ := canon_object_eq (Option.some.inj canon)
    cases known
    exact .same (find_canon_eq equal id)
  | object _ _ below => exact below id

theorem Agree.filter_eq {mask : Mask} {y : Object}
    (agree : Agree mask (some (.object x)) (some (.object y))) (inclusive : Inclusive mask)
    (sx : Sorted x) (sy : Sorted y) :
    (mask.rev.filter x).toOption.map Value.canonMembers =
      (mask.rev.filter y).toOption.map Value.canonMembers := by
  have toOption_map {α β : Type} (g : α → β) (x : Except String α) :
      x.toOption.map g = (x.map g).toOption := by cases x <;> rfl
  have each := agree.fields
  have canon : Value.canonMembers = List.map fun e => (e.1, e.2.canon) :=
    funext Value.canonMembers_eq
  rw [canon, toOption_map, toOption_map]
  cases inclusive with
  | all =>
    refine MaskRef.collectM_filtered sx sy (fun _ v => MaskRef.filterImpl ⟨noneMask, false⟩ v) ?_
    intro id
    have nothing (a : Option Value) : a.elim (some none) (fun v =>
        (MaskRef.filterImpl ⟨noneMask, false⟩ v).toOption.map (Option.map Value.canon)) =
        some none := by
      cases a with
      | none => rfl
      | some v =>
        rw [Option.elim, MaskRef.filterImpl.eq_def]
        rfl
    rw [nothing, nothing]
  | @level _ _ _ map kind _ below =>
    cases kind with
    | fields =>
      refine MaskRef.collectM_filtered sx sy
        (fun id v => MaskRef.filterImpl ⟨MaskRef.getMask map id, true⟩ v) ?_
      intro id
      have here := MaskRef.filtered_eq (each id) (inclusive_getMask below id)
      rw [MaskRef.filtered_eq_elim, MaskRef.filtered_eq_elim] at here
      exact here
    | _ => rfl

end FbThrift
