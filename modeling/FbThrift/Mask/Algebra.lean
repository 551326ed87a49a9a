import FbThrift.Mask.Basic

/-!
# The mask operators are set operations on paths

A path is covered by a mask when walking it with `MaskRef.get` ends at a mask
that selects everything.  `rev` complements a mask at the top, which is all that
`MaskRef.isExclusion` records, so a walk is a sequence of `next` steps between
plain masks.

The three operators reduce to `inter`: `sub` is `inter` with a complemented right
side and `union` is its dual.  One step of a path commutes with `inter`
(`inter_next`), and an induction on the path gives the set equations.
-/

namespace FbThrift

open SortedMap

namespace Mask

/-- The complement; `reverseMask` without its error. -/
def rev : Mask → Mask
  | .empty => .empty
  | .fields exclusive map => .fields (!exclusive) map
  | .mapIds exclusive map => .mapIds (!exclusive) map
  | .stringKeys exclusive map => .stringKeys (!exclusive) map
  | .types exclusive map => .types (!exclusive) map

@[simp] theorem rev_rev (m : Mask) : m.rev.rev = m := by
  cases m <;> simp [rev]

@[simp] theorem isAllMask_rev (m : Mask) : m.rev.isAllMask = m.isNoneMask := by
  rcases m with _ | ⟨_ | _, _ | _⟩ | ⟨_ | _, _ | _⟩ | ⟨_ | _, _ | _⟩ | ⟨_ | _, _ | _⟩ <;> rfl

@[simp] theorem isNoneMask_rev (m : Mask) : m.rev.isNoneMask = m.isAllMask := by
  rcases m with _ | ⟨_ | _, _ | _⟩ | ⟨_ | _, _ | _⟩ | ⟨_ | _, _ | _⟩ | ⟨_ | _, _ | _⟩ <;> rfl

variable {m r p q : Mask}

theorem isAllMask_iff : m.isAllMask = true ↔ m = allMask := by
  rcases m with _ | ⟨_ | _, _ | _⟩ | _ | _ | _ <;> simp [isAllMask, allMask]

theorem isNoneMask_iff : m.isNoneMask = true ↔ m = noneMask := by
  rcases m with _ | ⟨_ | _, _ | _⟩ | _ | _ | _ <;> simp [isNoneMask, noneMask]

@[simp] theorem rev_allMask : allMask.rev = noneMask := rfl

@[simp] theorem rev_noneMask : noneMask.rev = allMask := rfl

@[simp] theorem isAllMask_allMask : allMask.isAllMask = true := rfl

@[simp] theorem isNoneMask_allMask : allMask.isNoneMask = false := rfl

@[simp] theorem isAllMask_noneMask : noneMask.isAllMask = false := rfl

@[simp] theorem isNoneMask_noneMask : noneMask.isNoneMask = true := rfl

theorem reverseMask_ok (ok : m.reverseMask = .ok r) : r = m.rev := by
  cases m <;> simp_all [reverseMask, rev]

theorem Wf.rev (wf : m.Wf) : m.rev.Wf := by
  cases m <;> exact wf

/-! ## Operators at `allMask` and `noneMask` -/

@[simp] theorem inter_allMask_left (m : Mask) : allMask.inter m = .ok m := by
  unfold inter
  simp

@[simp] theorem inter_noneMask_right (m : Mask) : m.inter noneMask = .ok noneMask := by
  unfold inter
  simp

@[simp] theorem inter_noneMask_left (m : Mask) : noneMask.inter m = .ok noneMask := by
  unfold inter
  by_cases none : m.isNoneMask = true
  · simp [isNoneMask_iff.mp none]
  · simp [none]

@[simp] theorem inter_allMask_right (m : Mask) : m.inter allMask = .ok m := by
  unfold inter
  by_cases all : m.isAllMask = true
  · simp [isAllMask_iff.mp all]
  · simp [all]

@[simp] theorem union_noneMask_right (m : Mask) : m.union noneMask = .ok m := by
  unfold union
  simp

@[simp] theorem union_noneMask_left (m : Mask) : noneMask.union m = .ok m := by
  unfold union
  by_cases none : m.isNoneMask = true
  · simp [isNoneMask_iff.mp none]
  · simp [none]

@[simp] theorem sub_noneMask_right (m : Mask) : m.sub noneMask = .ok m := by
  unfold sub
  by_cases all : m.isAllMask = true
  · rw [isAllMask_iff.mp all]
    rfl
  · simp [all]

@[simp] theorem sub_noneMask_left (m : Mask) : noneMask.sub m = .ok noneMask := by
  unfold sub
  by_cases none : m.isNoneMask = true <;> simp [none]

/-! ## Entries of a merged map -/

section Entries

variable {K : Type} [Keyed K] {P Q R : List (K × Mask)}

variable {k : K}

theorem getMask_of_notNoneMask {mask : Mask}
    (found : find k R = notNoneMask mask) : MaskRef.getMask R k = mask := by
  unfold MaskRef.getMask
  rw [found]
  unfold notNoneMask
  split
  next none => exact (isNoneMask_iff.mp none).symm
  next => rfl

/-- What the loop over lhs stores at an id of lhs. -/
theorem collectM_mergeEntry {alone : Mask → Option Mask} {op : Mask → Mask → Except String Mask}
    (sorted : Sorted P)
    (ok : collectM P (mergeEntry alone P Q fun l r _ _ => op l r) = .ok R) {p : Mask} (inP : find k P = some p) :
    (find k Q = none → find k R = alone p) ∧
      ∀ q, find k Q = some q → op p q = .ok (MaskRef.getMask R k) := by
  obtain ⟨member, yields⟩ := find_collectM_some sorted ok inP
  unfold mergeEntry at yields
  split at yields
  next absent =>
    refine ⟨fun _ => (Except.ok.inj yields).symm, fun q present => ?_⟩
    rw [absent] at present
    cases present
  next q found =>
    refine ⟨fun absent => ?_, fun q' present => ?_⟩
    · rw [absent] at found
      cases found
    · rw [present] at found
      cases found
      cases value : op p q with
      | error err => simp [value, bind, Except.bind] at yields
      | ok mask =>
        simp only [value, bind, Except.bind, Except.ok.injEq] at yields
        rw [getMask_of_notNoneMask yields.symm]

theorem intersectMaskImpl_getMask (sorted : Sorted P)
    (ok : intersectMaskImpl P Q (fun l r _ _ => inter l r) = .ok R) (k : K) :
    (MaskRef.getMask P k).inter (MaskRef.getMask Q k) = .ok (MaskRef.getMask R k) := by
  cases inP : find k P with
  | none =>
    have none := find_collectM_none ok inP
    simp [MaskRef.getMask, inP, none]
  | some p =>
    obtain ⟨alone, both⟩ := collectM_mergeEntry sorted ok inP
    cases inQ : find k Q with
    | none => simp [MaskRef.getMask, inQ, alone inQ]
    | some q => simpa [MaskRef.getMask, inP, inQ] using both q inQ

theorem subtractMaskImpl_getMask (sorted : Sorted P)
    (ok : subtractMaskImpl P Q (fun l r _ _ => sub l r) = .ok R) (k : K) :
    (MaskRef.getMask P k).sub (MaskRef.getMask Q k) = .ok (MaskRef.getMask R k) := by
  cases inP : find k P with
  | none =>
    have none := find_collectM_none ok inP
    simp [MaskRef.getMask, inP, none]
  | some p =>
    obtain ⟨alone, both⟩ := collectM_mergeEntry sorted ok inP
    cases inQ : find k Q with
    | none =>
      rw [getMask_of_notNoneMask (alone inQ)]
      simp [MaskRef.getMask, inP, inQ]
    | some q => simpa [MaskRef.getMask, inP, inQ] using both q inQ

theorem find_insertIfNotNoneMask_of_ne {id : K} (other : k ≠ id) (R : List (K × Mask))
    (mask : Mask) : find k (insertIfNotNoneMask R id mask) = find k R := by
  unfold insertIfNotNoneMask
  split
  · rfl
  · rw [find_insertOrAssign, if_neg other]

theorem find_insertIfNotNoneMask_self (absent : find k R = none) (mask : Mask) :
    find k (insertIfNotNoneMask R k mask) = notNoneMask mask := by
  unfold insertIfNotNoneMask
  cases notNoneMask mask <;> simp [absent]

/-- The second loop of a union leaves the ids of lhs alone. -/
theorem find_insertRhsOnly_of_mem {p : Mask} (inP : find k P = some p)
    (Q R : List (K × Mask)) : find k (insertRhsOnly P Q R) = find k R := by
  induction Q generalizing R with
  | nil => rfl
  | cons e Q ih =>
    obtain ⟨id, rhsMask⟩ := e
    unfold insertRhsOnly
    rw [ih]
    split
    next => rfl
    next lacking =>
      have other : k ≠ id := by
        rintro rfl
        exact lacking (contains_eq_true.mpr ⟨p, inP⟩)
      exact find_insertIfNotNoneMask_of_ne other R rhsMask

/-- The second loop of a union leaves the ids that rhs lacks alone. -/
theorem find_insertRhsOnly_of_not_mem {Q : List (K × Mask)} (inQ : find k Q = none)
    (R : List (K × Mask)) : find k (insertRhsOnly P Q R) = find k R := by
  induction Q generalizing R with
  | nil => rfl
  | cons e Q ih =>
    obtain ⟨id, rhsMask⟩ := e
    rw [find_cons] at inQ
    split at inQ
    next => cases inQ
    next other =>
      unfold insertRhsOnly
      rw [ih inQ]
      split
      · rfl
      · exact find_insertIfNotNoneMask_of_ne other R rhsMask

/-- The second loop of a union stores the entries that only rhs has. -/
theorem getMask_insertRhsOnly_of_not_mem (inP : find k P = none)
    (sorted : Sorted Q) (R : List (K × Mask)) (absent : find k R = none) :
    MaskRef.getMask (insertRhsOnly P Q R) k = MaskRef.getMask Q k := by
  have lacking : contains k P = false := contains_eq_false.mpr inP
  induction Q generalizing R with
  | nil => simp [insertRhsOnly, MaskRef.getMask, absent]
  | cons e Q ih =>
    obtain ⟨id, rhsMask⟩ := e
    unfold insertRhsOnly
    by_cases here : k = id
    · subst here
      -- The ids after the head of a sorted map differ from it, so this entry stays.
      have stored : find k (insertRhsOnly P Q (insertIfNotNoneMask R k rhsMask)) =
          notNoneMask rhsMask := by
        rw [find_insertRhsOnly_of_not_mem sorted.find_head]
        exact find_insertIfNotNoneMask_self absent rhsMask
      rw [lacking, if_neg Bool.false_ne_true, getMask_of_notNoneMask stored]
      simp [MaskRef.getMask, find_cons]
    · have skipped : find k (if contains id P = true then R
          else insertIfNotNoneMask R id rhsMask) = none := by
        split
        · exact absent
        · rw [find_insertIfNotNoneMask_of_ne here, absent]
      rw [ih sorted.tail _ skipped]
      simp [MaskRef.getMask, find_cons, here]

theorem unionMaskImpl_getMask (sortedP : Sorted P) (sortedQ : Sorted Q)
    (ok : unionMaskImpl P Q (fun l r _ _ => union l r) = .ok R) (k : K) :
    (MaskRef.getMask P k).union (MaskRef.getMask Q k) = .ok (MaskRef.getMask R k) := by
  unfold unionMaskImpl at ok
  cases collected : collectM P (mergeEntry notNoneMask P Q fun l r _ _ => union l r) with
  | error err => simp [collected, bind, Except.bind] at ok
  | ok first =>
    simp only [collected, bind, Except.bind, Except.ok.injEq] at ok
    subst ok
    cases inP : find k P with
    | none =>
      have absent := find_collectM_none collected inP
      rw [getMask_insertRhsOnly_of_not_mem inP sortedQ first absent]
      simp [MaskRef.getMask, inP]
    | some p =>
      have kept : MaskRef.getMask (insertRhsOnly P Q first) k = MaskRef.getMask first k := by
        unfold MaskRef.getMask
        rw [find_insertRhsOnly_of_mem inP]
      rw [kept]
      obtain ⟨alone, both⟩ := collectM_mergeEntry sortedP collected inP
      cases inQ : find k Q with
      | none =>
        rw [getMask_of_notNoneMask (alone inQ)]
        simp [MaskRef.getMask, inP, inQ]
      | some q => simpa [MaskRef.getMask, inP, inQ] using both q inQ

end Entries

/-! ## Levels of one kind -/

/-- The four kinds of level a mask has, each with the type of its keys. -/
inductive Kind : {K : Type} → [Keyed K] → (Bool → List (K × Mask) → Mask) → Prop
  | fields : Kind Mask.fields
  | mapIds : Kind Mask.mapIds
  | stringKeys : Kind Mask.stringKeys
  | types : Kind Mask.types

section Kind

variable {K : Type} [Keyed K] {mk : Bool → List (K × Mask) → Mask}

theorem Kind.rev_mk (kind : Kind mk) (exclusive : Bool) (map : List (K × Mask)) :
    (mk exclusive map).rev = mk (!exclusive) map := by
  cases kind <;> rfl

theorem Kind.isInclusive_mk (kind : Kind mk) (exclusive : Bool) (map : List (K × Mask)) :
    (mk exclusive map).isInclusive = !exclusive := by
  cases kind <;> rfl

theorem Kind.reverseMask_mk (kind : Kind mk) (exclusive : Bool) (map : List (K × Mask)) :
    (mk exclusive map).reverseMask = .ok (mk (!exclusive) map) := by
  cases kind <;> rfl

variable {exclusive : Bool} {map : List (K × Mask)}

theorem Kind.sorted_of_wf (kind : Kind mk) (wf : (mk exclusive map).Wf) : Sorted map := by
  cases kind <;> exact wf.1

theorem wfFields_iff {map : List (Int16 × Mask)} : WfFields map ↔ ∀ e ∈ map, e.2.Wf := by
  induction map with
  | nil => simp [WfFields]
  | cons e map ih => simp [WfFields, ih]

theorem wfMapIds_iff {map : List (Int64 × Mask)} : WfMapIds map ↔ ∀ e ∈ map, e.2.Wf := by
  induction map with
  | nil => simp [WfMapIds]
  | cons e map ih => simp [WfMapIds, ih]

theorem wfStringKeys_iff {map : List (Bytes × Mask)} : WfStringKeys map ↔ ∀ e ∈ map, e.2.Wf := by
  induction map with
  | nil => simp [WfStringKeys]
  | cons e map ih => simp [WfStringKeys, ih]

theorem wfTypes_iff {map : List (FullType × Mask)} : WfTypes map ↔ ∀ e ∈ map, e.2.Wf := by
  induction map with
  | nil => simp [WfTypes]
  | cons e map ih => simp [WfTypes, ih]

theorem Kind.wf_entry (kind : Kind mk)
    (wf : (mk exclusive map).Wf) {e : K × Mask} (member : e ∈ map) : e.2.Wf := by
  cases kind with
  | fields => exact wfFields_iff.mp wf.2 e member
  | mapIds => exact wfMapIds_iff.mp wf.2 e member
  | stringKeys => exact wfStringKeys_iff.mp wf.2 e member
  | types => exact wfTypes_iff.mp wf.2 e member

theorem Kind.wf_getMask (kind : Kind mk)
    (wf : (mk exclusive map).Wf) (k : K) : (MaskRef.getMask map k).Wf := by
  unfold MaskRef.getMask
  cases found : find k map with
  | none => exact ⟨.nil, trivial⟩
  | some mask => exact kind.wf_entry wf (mem_of_find found)

/-- On two levels of one kind `apply` merges their maps and ignores their polarity. -/
theorem Kind.apply_mk (kind : Kind mk) (impl : Impl) (op : Mask → Mask → Except String Mask)
    (e₁ e₂ : Bool) (P Q : List (K × Mask)) :
    apply (mk e₁ P) (mk e₂ Q) impl (fun l r _ => op l r) =
      (impl.run P Q fun l r _ _ => op l r).map (mk false) := by
  cases kind <;> (simp [apply, toFieldMask, toIntegerMapMask, toStringMapMask, toTypeMask,
    getFieldMask, getIntegerMapMask, getStringMapMask, getTypeMask]; rfl)

end Kind

/-- A mask that is neither `allMask` nor `noneMask`. -/
def IsPartial (m : Mask) : Prop :=
  m.isAllMask = false ∧ m.isNoneMask = false

theorem IsPartial.rev (part : m.IsPartial) : m.rev.IsPartial := by
  unfold IsPartial
  rw [isAllMask_rev, isNoneMask_rev]
  exact part.symm

theorem eq_allMask_or_noneMask_or_isPartial (m : Mask) :
    m = allMask ∨ m = noneMask ∨ m.IsPartial := by
  cases all : m.isAllMask with
  | true => exact .inl (isAllMask_iff.mp all)
  | false =>
    cases none : m.isNoneMask with
    | true => exact .inr (.inl (isNoneMask_iff.mp none))
    | false => exact .inr (.inr ⟨all, none⟩)

/-- Two levels keyed by the same type. -/
def SameKind (p q : Mask) : Prop :=
  ∃ (K : Type) (_ : Keyed K) (mk : Bool → List (K × Mask) → Mask) (_ : Kind mk)
    (e₁ e₂ : Bool) (P Q : List (K × Mask)), p = mk e₁ P ∧ q = mk e₂ Q

theorem SameKind.symm (same : SameKind p q) : SameKind q p := by
  obtain ⟨K, _, mk, kind, e₁, e₂, P, Q, rfl, rfl⟩ := same
  exact ⟨K, _, mk, kind, e₂, e₁, Q, P, rfl, rfl⟩

/-- Between `allMask` and `noneMask` the merge only returns for two levels of one kind. -/
theorem sameKind_of_apply_ok {lhs rhs C : Mask} {impl : Impl}
    {op : Mask → Mask → Except String Mask} (left : lhs.IsPartial) (right : rhs.IsPartial)
    (ok : apply lhs rhs impl (fun l r _ => op l r) = .ok C) : SameKind lhs rhs := by
  unfold IsPartial at left right
  cases lhs with
  | fields e₁ P =>
    cases rhs with
    | fields e₂ Q => exact ⟨_, _, _, .fields, e₁, e₂, P, Q, rfl, rfl⟩
    | _ =>
      simp [apply, toFieldMask, toIntegerMapMask, toStringMapMask, toTypeMask,
        getFieldMask, getIntegerMapMask, getStringMapMask, getTypeMask] at ok
      all_goals split at ok <;> simp_all
  | mapIds e₁ P =>
    cases rhs with
    | mapIds e₂ Q => exact ⟨_, _, _, .mapIds, e₁, e₂, P, Q, rfl, rfl⟩
    | _ =>
      simp [apply, toIntegerMapMask, toStringMapMask, getIntegerMapMask, getStringMapMask] at ok
      all_goals split at ok <;> simp_all
  | stringKeys e₁ P =>
    cases rhs with
    | stringKeys e₂ Q => exact ⟨_, _, _, .stringKeys, e₁, e₂, P, Q, rfl, rfl⟩
    | _ =>
      simp [apply, toStringMapMask, getStringMapMask] at ok
      all_goals split at ok <;> simp_all
  | types e₁ P =>
    cases rhs with
    | types e₂ Q => exact ⟨_, _, _, .types, e₁, e₂, P, Q, rfl, rfl⟩
    | _ =>
      simp [apply, toIntegerMapMask, toStringMapMask, toTypeMask,
        getIntegerMapMask, getStringMapMask, getTypeMask] at ok
      all_goals split at ok <;> simp_all
  | empty =>
    cases rhs <;>
      simp [apply, toFieldMask, toIntegerMapMask, toStringMapMask, toTypeMask,
        getFieldMask, getIntegerMapMask, getStringMapMask, getTypeMask, left] at ok

/-- A merge that is complemented afterwards returned itself. -/
theorem apply_ok_of_bind_ok {x : Except String Mask}
    (ok : (x >>= reverseMask) = .ok r) : ∃ m, x = .ok m := by
  cases x with
  | error err => cases ok
  | ok m => exact ⟨m, rfl⟩

/-! ## Every operator is an intersection -/

section OfPartial

variable {K : Type} [Keyed K] {mk : Bool → List (K × Mask) → Mask}
variable {e₁ e₂ : Bool} {P Q : List (K × Mask)}

/-- The four polarities of `operator&` on two levels of one kind. -/
theorem Kind.inter_mk (kind : Kind mk) (left : (mk e₁ P).IsPartial) (right : (mk e₂ Q).IsPartial) :
    (mk e₁ P).inter (mk e₂ Q) = if e₁ then
        if e₂ then (unionMaskImpl P Q fun l r _ _ => union l r).map (mk true)
        else (subtractMaskImpl Q P fun l r _ _ => sub l r).map (mk false)
      else
        if e₂ then (subtractMaskImpl P Q fun l r _ _ => sub l r).map (mk false)
        else (intersectMaskImpl P Q fun l r _ _ => inter l r).map (mk false) := by
  rw [inter.eq_def (mk e₁ P) (mk e₂ Q)]
  simp only [left.1, left.2, right.1, right.2, kind.isInclusive_mk, kind.apply_mk,
    Bool.or_self, Bool.false_eq_true, if_false]
  cases e₁ <;> cases e₂ <;> try rfl
  show (Except.map (mk false) (unionMaskImpl P Q _) >>= reverseMask) = _
  cases unionMaskImpl P Q (fun l r _ _ => union l r) with
  | error err => rfl
  | ok R => exact kind.reverseMask_mk false R

theorem Kind.sub_mk (kind : Kind mk) (left : (mk e₁ P).IsPartial) (right : (mk e₂ Q).IsPartial) :
    (mk e₁ P).sub (mk e₂ Q) = (mk e₁ P).inter (mk e₂ Q).rev := by
  have right' : (mk (!e₂) Q).IsPartial := kind.rev_mk e₂ Q ▸ right.rev
  rw [kind.rev_mk, kind.inter_mk left right', sub.eq_def (mk e₁ P) (mk e₂ Q)]
  simp only [left.1, left.2, right.1, right.2, kind.isInclusive_mk, kind.apply_mk,
    Bool.or_self, Bool.false_eq_true, if_false]
  cases e₁ <;> cases e₂ <;> try rfl
  show (Except.map (mk false) (unionMaskImpl P Q _) >>= reverseMask) = _
  cases unionMaskImpl P Q (fun l r _ _ => union l r) with
  | error err => rfl
  | ok R => exact kind.reverseMask_mk false R

theorem Kind.union_mk (kind : Kind mk) (left : (mk e₁ P).IsPartial) (right : (mk e₂ Q).IsPartial) :
    ((mk e₁ P).union (mk e₂ Q)).map rev = (mk e₁ P).rev.inter (mk e₂ Q).rev := by
  have left' : (mk (!e₁) P).IsPartial := kind.rev_mk e₁ P ▸ left.rev
  have right' : (mk (!e₂) Q).IsPartial := kind.rev_mk e₂ Q ▸ right.rev
  -- A merged map comes out inclusive, and is then complemented once or twice.
  have once : ∀ x : Except String (List (K × Mask)),
      (x.map (mk false)).map rev = x.map (mk true) := by
    rintro (err | R)
    · rfl
    · exact congrArg Except.ok (kind.rev_mk false R)
  have twice : ∀ x : Except String (List (K × Mask)),
      (x.map (mk false) >>= reverseMask).map rev = x.map (mk false) := by
    rintro (err | R)
    · rfl
    · show (reverseMask (mk false R)).map rev = _
      rw [kind.reverseMask_mk]
      exact congrArg Except.ok (kind.rev_mk true R)
  rw [kind.rev_mk, kind.rev_mk, kind.inter_mk left' right', union.eq_def (mk e₁ P) (mk e₂ Q)]
  simp only [left.1, left.2, right.1, right.2, kind.isInclusive_mk, kind.apply_mk,
    Bool.or_self, Bool.false_eq_true, if_false]
  cases e₁ <;> cases e₂
  · exact once _
  · exact twice _
  · exact twice _
  · exact twice _

end OfPartial

theorem sameKind_of_inter_ok (left : p.IsPartial) (right : q.IsPartial)
    (ok : p.inter q = .ok r) : SameKind p q := by
  rw [inter.eq_def] at ok
  simp only [left.1, left.2, right.1, right.2, Bool.or_self, Bool.false_eq_true, if_false] at ok
  split at ok
  · split at ok
    · exact sameKind_of_apply_ok left right ok
    · exact sameKind_of_apply_ok left right ok
  · split at ok
    · exact (sameKind_of_apply_ok right left ok).symm
    · obtain ⟨m, merged⟩ := apply_ok_of_bind_ok ok
      exact sameKind_of_apply_ok left right merged

theorem sameKind_of_union_ok (left : p.IsPartial) (right : q.IsPartial)
    (ok : p.union q = .ok r) : SameKind p q := by
  rw [union.eq_def] at ok
  simp only [left.1, left.2, right.1, right.2, Bool.or_self, Bool.false_eq_true, if_false] at ok
  split at ok
  · split at ok
    · exact sameKind_of_apply_ok left right ok
    · obtain ⟨m, merged⟩ := apply_ok_of_bind_ok ok
      exact (sameKind_of_apply_ok right left merged).symm
  · split at ok
    all_goals
      obtain ⟨m, merged⟩ := apply_ok_of_bind_ok ok
      exact sameKind_of_apply_ok left right merged

theorem sameKind_of_sub_ok (left : p.IsPartial) (right : q.IsPartial)
    (ok : p.sub q = .ok r) : SameKind p q := by
  rw [sub.eq_def] at ok
  simp only [left.1, left.2, right.1, right.2, Bool.or_self, Bool.false_eq_true, if_false] at ok
  split at ok
  · split at ok
    · exact sameKind_of_apply_ok left right ok
    · exact sameKind_of_apply_ok left right ok
  · split at ok
    · obtain ⟨m, merged⟩ := apply_ok_of_bind_ok ok
      exact sameKind_of_apply_ok left right merged
    · exact (sameKind_of_apply_ok right left ok).symm

/-- Subtraction is intersection with the complement. -/
theorem inter_rev_of_sub (ok : p.sub q = .ok r) : p.inter q.rev = .ok r := by
  rcases p.eq_allMask_or_noneMask_or_isPartial with rfl | rfl | left
  · rw [sub.eq_def, if_pos isAllMask_allMask] at ok
    rw [inter_allMask_left, reverseMask_ok ok]
  · rw [sub_noneMask_left] at ok
    rw [inter_noneMask_left, ok]
  rcases q.eq_allMask_or_noneMask_or_isPartial with rfl | rfl | right
  · rw [sub.eq_def] at ok
    simp only [left.1, left.2, isNoneMask_allMask, isAllMask_allMask, Bool.or_true,
      Bool.false_eq_true, if_true, if_false] at ok
    rw [rev_allMask, inter_noneMask_right, ok]
  · rw [sub_noneMask_right] at ok
    rw [rev_noneMask, inter_allMask_right, ok]
  obtain ⟨K, _, mk, kind, e₁, e₂, P, Q, rfl, rfl⟩ := sameKind_of_sub_ok left right ok
  rw [← kind.sub_mk left right, ok]

/-- Union is the dual of intersection. -/
theorem inter_rev_of_union (ok : p.union q = .ok r) : p.rev.inter q.rev = .ok r.rev := by
  rcases p.eq_allMask_or_noneMask_or_isPartial with rfl | rfl | left
  · rw [union.eq_def] at ok
    simp only [isAllMask_allMask, Bool.true_or, if_true] at ok
    cases ok
    rw [rev_allMask, inter_noneMask_left]
  · rw [union_noneMask_left] at ok
    cases ok
    rw [rev_noneMask, inter_allMask_left]
  rcases q.eq_allMask_or_noneMask_or_isPartial with rfl | rfl | right
  · rw [union.eq_def] at ok
    simp only [left.1, left.2, isNoneMask_allMask, isAllMask_allMask, Bool.or_true,
      Bool.or_self, Bool.false_eq_true, if_true, if_false] at ok
    cases ok
    rw [rev_allMask, inter_noneMask_right]
  · rw [union_noneMask_right] at ok
    cases ok
    rw [rev_noneMask, inter_allMask_right]
  obtain ⟨K, _, mk, kind, e₁, e₂, P, Q, rfl, rfl⟩ := sameKind_of_union_ok left right ok
  rw [← kind.union_mk left right, ok]
  rfl

end Mask

/-! ## Walking without the exclusion flag -/

/-- The plain mask that a reference stands for. -/
def MaskRef.norm (ref : MaskRef) : Mask :=
  if ref.isExclusion then ref.mask.rev else ref.mask

@[simp] theorem MaskRef.isAllMask_norm (ref : MaskRef) : ref.norm.isAllMask = ref.isAllMask := by
  obtain ⟨mask, _ | _⟩ := ref <;> simp [MaskRef.norm, MaskRef.isAllMask]

@[simp] theorem MaskRef.isNoneMask_norm (ref : MaskRef) : ref.norm.isNoneMask = ref.isNoneMask := by
  obtain ⟨mask, _ | _⟩ := ref <;> simp [MaskRef.norm, MaskRef.isNoneMask]

namespace Mask

/-- What a level selects at a key. -/
def child {K : Type} [Keyed K] (exclusive : Bool) (map : List (K × Mask)) (k : K) : Mask :=
  if exclusive then (MaskRef.getMask map k).rev else MaskRef.getMask map k

/-- One step of a walk between plain masks. -/
def next (m : Mask) (step : PathStep) : Except String Mask :=
  (MaskRef.get ⟨m, false⟩ step).map MaskRef.norm

/-- A walk between plain masks. -/
def follow (m : Mask) : List PathStep → Except String Mask
  | [] => .ok m
  | step :: path => m.next step >>= fun n => n.follow path

theorem next_norm (ref : MaskRef) (step : PathStep) :
    (ref.get step).map MaskRef.norm = ref.norm.next step := by
  obtain ⟨mask, _ | _⟩ := ref
  · rfl
  rcases mask.eq_allMask_or_noneMask_or_isPartial with rfl | rfl | part
  · cases step <;> rfl
  · cases step <;> rfl
  have ends : (MaskRef.isAllMask ⟨mask, true⟩ || MaskRef.isNoneMask ⟨mask, true⟩) = false := by
    simp [MaskRef.isAllMask, MaskRef.isNoneMask, part.1, part.2]
  have ends' : (MaskRef.isAllMask ⟨mask.rev, false⟩ ||
      MaskRef.isNoneMask ⟨mask.rev, false⟩) = false := by
    simp [MaskRef.isAllMask, MaskRef.isNoneMask, part.1, part.2]
  cases step with
  | field id =>
    simp only [next, MaskRef.get, MaskRef.getField, MaskRef.norm]
    rcases mask with _ | ⟨_ | _, map⟩ | _ | _ | _ <;> simp [rev, Except.map]
  | mapId id =>
    simp only [next, MaskRef.get, MaskRef.getMapId, MaskRef.norm, ends, ends', if_true]
    rcases mask with _ | _ | ⟨_ | _, map⟩ | _ | _ <;> simp [rev, Except.map]
  | stringKey key =>
    simp only [next, MaskRef.get, MaskRef.getString, MaskRef.norm, ends, ends', if_true]
    rcases mask with _ | _ | _ | ⟨_ | _, map⟩ | _ <;> simp [rev, Except.map]
  | type type =>
    simp only [next, MaskRef.get, MaskRef.getType, MaskRef.norm, ends, ends', if_true]
    rcases mask with _ | _ | _ | _ | ⟨_ | _, map⟩ <;> by_cases full : type.isFull = true <;>
      simp [rev, Except.map, full]

theorem follow_norm (ref : MaskRef) (path : List PathStep) :
    (ref.walk path).map MaskRef.norm = ref.norm.follow path := by
  induction path generalizing ref with
  | nil => rfl
  | cons step path ih =>
    have one := next_norm ref step
    unfold follow MaskRef.walk
    rw [← one]
    cases ref.get step with
    | error err => rfl
    | ok next => exact ih next

@[simp] theorem next_allMask (step : PathStep) : allMask.next step = .ok allMask := by
  cases step <;> rfl

@[simp] theorem next_noneMask (step : PathStep) : noneMask.next step = .ok noneMask := by
  cases step <;> rfl

variable {step : PathStep} {n m a b : Mask}

theorem Kind.next_mk {K : Type} [Keyed K] {mk : Bool → List (K × Mask) → Mask}
    (kind : Kind mk) {exclusive : Bool} {map : List (K × Mask)}
    (part : (mk exclusive map).IsPartial) (ok : (mk exclusive map).next step = .ok n) :
    ∃ k, ∀ exclusive map, (mk exclusive map).next step = .ok (child exclusive map k) := by
  obtain ⟨notAll, notNone⟩ := part
  cases kind with
  | fields =>
    cases step with
    | field id => exact ⟨id, fun exclusive map => by cases exclusive <;> rfl⟩
    | _ =>
      simp [next, MaskRef.get, MaskRef.getMapId, MaskRef.getString, MaskRef.getType,
        MaskRef.isAllMask, MaskRef.isNoneMask, notAll, notNone, Except.map] at ok
  | mapIds =>
    cases step with
    | mapId id => exact ⟨id, fun exclusive map => by cases exclusive <;> rfl⟩
    | _ => cases ok
  | stringKeys =>
    cases step with
    | stringKey key => exact ⟨key, fun exclusive map => by cases exclusive <;> rfl⟩
    | _ => cases ok
  | types =>
    cases step with
    | type type =>
      by_cases full : type.isFull = true
      · refine ⟨⟨type, full⟩, fun exclusive map => ?_⟩
        cases exclusive <;>
          simp [next, MaskRef.get, MaskRef.getType, MaskRef.isAllMask,
            MaskRef.isNoneMask, Mask.isAllMask, Mask.isNoneMask, full, Except.map,
            MaskRef.norm, child]
      · simp [next, MaskRef.get, MaskRef.getType, MaskRef.isAllMask, MaskRef.isNoneMask,
          Mask.isAllMask, Mask.isNoneMask, full, Except.map] at ok
    | _ => cases ok

theorem exists_kind_of_next (part : m.IsPartial) (ok : m.next step = .ok n) :
    ∃ (K : Type) (_ : Keyed K) (mk : Bool → List (K × Mask) → Mask) (_ : Kind mk)
      (exclusive : Bool) (map : List (K × Mask)) (k : K), m = mk exclusive map ∧
      ∀ exclusive map, (mk exclusive map).next step = .ok (child exclusive map k) := by
  cases m with
  | empty => cases step <;> cases ok
  | fields exclusive map =>
    obtain ⟨k, next⟩ := Kind.next_mk .fields part ok
    exact ⟨_, _, _, .fields, exclusive, map, k, rfl, next⟩
  | mapIds exclusive map =>
    obtain ⟨k, next⟩ := Kind.next_mk .mapIds part ok
    exact ⟨_, _, _, .mapIds, exclusive, map, k, rfl, next⟩
  | stringKeys exclusive map =>
    obtain ⟨k, next⟩ := Kind.next_mk .stringKeys part ok
    exact ⟨_, _, _, .stringKeys, exclusive, map, k, rfl, next⟩
  | types exclusive map =>
    obtain ⟨k, next⟩ := Kind.next_mk .types part ok
    exact ⟨_, _, _, .types, exclusive, map, k, rfl, next⟩

theorem child_not {K : Type} [Keyed K] (exclusive : Bool) (map : List (K × Mask)) (k : K) :
    child (!exclusive) map k = (child exclusive map k).rev := by
  cases exclusive <;> simp [child]

theorem next_rev (ok : m.next step = .ok n) : m.rev.next step = .ok n.rev := by
  rcases m.eq_allMask_or_noneMask_or_isPartial with rfl | rfl | part
  · rw [next_allMask] at ok
    cases ok
    exact next_noneMask step
  · rw [next_noneMask] at ok
    cases ok
    exact next_allMask step
  obtain ⟨K, _, mk, kind, exclusive, map, k, rfl, next⟩ := exists_kind_of_next part ok
  rw [next] at ok
  rw [kind.rev_mk, next, child_not, Except.ok.inj ok]

theorem follow_rev {path : List PathStep} (ok : m.follow path = .ok n) :
    m.rev.follow path = .ok n.rev := by
  induction path generalizing m with
  | nil => exact congrArg Except.ok (congrArg rev (Except.ok.inj ok))
  | cons step path ih =>
    unfold follow at ok ⊢
    cases one : m.next step with
    | error err =>
      rw [one] at ok
      cases ok
    | ok next =>
      rw [one] at ok
      rw [next_rev one]
      exact ih ok

/-! ## One step of a path through an intersection -/

theorem wf_allMask : allMask.Wf :=
  ⟨.nil, trivial⟩

theorem wf_noneMask : noneMask.Wf :=
  ⟨.nil, trivial⟩

theorem Wf.next (wf : m.Wf) (ok : m.next step = .ok n) : n.Wf := by
  rcases m.eq_allMask_or_noneMask_or_isPartial with rfl | rfl | part
  · rw [next_allMask] at ok
    exact Except.ok.inj ok ▸ wf_allMask
  · rw [next_noneMask] at ok
    exact Except.ok.inj ok ▸ wf_noneMask
  obtain ⟨K, _, mk, kind, exclusive, map, k, rfl, next⟩ := exists_kind_of_next part ok
  rw [next] at ok
  have entry := kind.wf_getMask wf k
  rw [← Except.ok.inj ok]
  cases exclusive with
  | false => exact entry
  | true => exact entry.rev

/-- The two operands in either order: with one inclusive and one exclusive level the
entries meet the other way round. -/
def Meets (a b c : Mask) : Prop :=
  a.inter b = .ok c ∨ b.inter a = .ok c

theorem Meets.symm {c : Mask} (meets : Meets a b c) : Meets b a c :=
  Or.symm meets

theorem inter_next {A B C : Mask} (wfA : A.Wf) (wfB : B.Wf)
    (meets : A.inter B = .ok C) (nextA : A.next step = .ok a) (nextB : B.next step = .ok b) :
    ∃ c, C.next step = .ok c ∧ Meets a b c := by
  rcases A.eq_allMask_or_noneMask_or_isPartial with rfl | rfl | left
  · simp only [inter_allMask_left, next_allMask, Except.ok.injEq] at meets nextA
    subst meets nextA
    exact ⟨b, nextB, .inl (inter_allMask_left b)⟩
  · simp only [inter_noneMask_left, next_noneMask, Except.ok.injEq] at meets nextA
    subst meets nextA
    exact ⟨noneMask, next_noneMask step, .inl (inter_noneMask_left b)⟩
  rcases B.eq_allMask_or_noneMask_or_isPartial with rfl | rfl | right
  · simp only [inter_allMask_right, next_allMask, Except.ok.injEq] at meets nextB
    subst meets nextB
    exact ⟨a, nextA, .inl (inter_allMask_right a)⟩
  · simp only [inter_noneMask_right, next_noneMask, Except.ok.injEq] at meets nextB
    subst meets nextB
    exact ⟨noneMask, next_noneMask step, .inl (inter_noneMask_right a)⟩
  obtain ⟨K, _, mk, kind, e₁, e₂, P, Q, rfl, rfl⟩ := sameKind_of_inter_ok left right meets
  have sortedP := kind.sorted_of_wf wfA
  have sortedQ := kind.sorted_of_wf wfB
  obtain ⟨k, next⟩ := kind.next_mk left nextA
  rw [next, Except.ok.injEq] at nextA nextB
  subst nextA nextB
  rw [kind.inter_mk left right] at meets
  have merged : ∀ {x : Except String (List (K × Mask))} {e : Bool}, x.map (mk e) = .ok C →
      ∃ R, x = .ok R ∧ C.next step = .ok (child e R k) := by
    rintro (err | R) e ok
    · cases ok
    · cases ok
      exact ⟨R, rfl, next e R⟩
  cases e₁ with
  | false =>
    cases e₂ with
    | false =>
      obtain ⟨R, ok, found⟩ := merged meets
      exact ⟨_, found, .inl (intersectMaskImpl_getMask sortedP ok k)⟩
    | true =>
      obtain ⟨R, ok, found⟩ := merged meets
      exact ⟨_, found, .inl (inter_rev_of_sub (subtractMaskImpl_getMask sortedP ok k))⟩
  | true =>
    cases e₂ with
    | false =>
      obtain ⟨R, ok, found⟩ := merged meets
      exact ⟨_, found, .inr (inter_rev_of_sub (subtractMaskImpl_getMask sortedQ ok k))⟩
    | true =>
      obtain ⟨R, ok, found⟩ := merged meets
      exact ⟨_, found, .inl (inter_rev_of_union (unionMaskImpl_getMask sortedP sortedQ ok k))⟩

theorem follow_cons_ok {path : List PathStep} (ok : m.follow (step :: path) = .ok n) :
    ∃ next, m.next step = .ok next ∧ next.follow path = .ok n := by
  unfold follow at ok
  cases one : m.next step with
  | error err =>
    rw [one] at ok
    cases ok
  | ok next =>
    rw [one] at ok
    exact ⟨next, rfl, ok⟩

theorem follow_cons {next : Mask} (path : List PathStep)
    (one : m.next step = .ok next) : m.follow (step :: path) = next.follow path := by
  rw [follow, one]
  rfl

/-- A whole walk through an intersection ends at an intersection of the two ends. -/
theorem Meets.follow {A B C : Mask} {path : List PathStep} (wfA : A.Wf) (wfB : B.Wf)
    (meets : Meets A B C) (endA : A.follow path = .ok a) (endB : B.follow path = .ok b) :
    ∃ c, C.follow path = .ok c ∧ Meets a b c := by
  induction path generalizing A B C with
  | nil =>
    cases endA
    cases endB
    exact ⟨C, rfl, meets⟩
  | cons step path ih =>
    obtain ⟨A', nextA, endA⟩ := follow_cons_ok endA
    obtain ⟨B', nextB, endB⟩ := follow_cons_ok endB
    have below : ∃ C', C.next step = .ok C' ∧ Meets A' B' C' := by
      rcases meets with meets | meets
      · exact inter_next wfA wfB meets nextA nextB
      · obtain ⟨C', next, meets⟩ := inter_next wfB wfA meets nextB nextA
        exact ⟨C', next, meets.symm⟩
    obtain ⟨C', nextC, meets⟩ := below
    rw [follow_cons path nextC]
    exact ih (wfA.next nextA) (wfB.next nextB) meets endA endB

/-! ## Covered paths -/

/-- The walk along the path reaches all-or-none. -/
def Decides (m : Mask) (path : List PathStep) : Prop :=
  ∃ ref, MaskRef.walk ⟨m, false⟩ path = .ok ref ∧ (ref.isAllMask || ref.isNoneMask) = true

/-- The walk along the path reaches a mask of everything. -/
def Covers (m : Mask) (path : List PathStep) : Prop :=
  ∃ ref, MaskRef.walk ⟨m, false⟩ path = .ok ref ∧ ref.isAllMask = true

section Covered

variable {A B C : Mask} {path : List PathStep}

theorem exists_walk_iff (A : Mask) (path : List PathStep) (p : Mask → Bool) :
    (∃ ref, MaskRef.walk ⟨A, false⟩ path = .ok ref ∧ p ref.norm = true) ↔
      ∃ m, A.follow path = .ok m ∧ p m = true := by
  have norm := follow_norm ⟨A, false⟩ path
  change _ = A.follow path at norm
  rw [← norm]
  cases MaskRef.walk ⟨A, false⟩ path with
  | error err => simp [Except.map]
  | ok ref => simp [Except.map]

theorem covers_iff : A.Covers path ↔ A.follow path = .ok allMask := by
  have walks := exists_walk_iff A path isAllMask
  simp only [MaskRef.isAllMask_norm, isAllMask_iff] at walks
  simpa [Covers] using walks

theorem decides_iff : A.Decides path ↔
    A.follow path = .ok allMask ∨ A.follow path = .ok noneMask := by
  have walks := exists_walk_iff A path fun m => m.isAllMask || m.isNoneMask
  simp only [MaskRef.isAllMask_norm, MaskRef.isNoneMask_norm] at walks
  rw [Decides, walks]
  constructor
  · rintro ⟨m, ends, all⟩
    rcases Bool.or_eq_true_iff.mp all with all | none
    · exact .inl (isAllMask_iff.mp all ▸ ends)
    · exact .inr (isNoneMask_iff.mp none ▸ ends)
  · rintro (ends | ends)
    · exact ⟨allMask, ends, rfl⟩
    · exact ⟨noneMask, ends, rfl⟩

theorem Decides.rev (dec : A.Decides path) :
    A.rev.Decides path ∧ (A.rev.Covers path ↔ ¬ A.Covers path) := by
  rw [covers_iff, covers_iff]
  rcases decides_iff.mp dec with ends | ends
  · have complement := follow_rev ends
    refine ⟨decides_iff.mpr (.inr complement), ?_⟩
    rw [ends, complement]
    simp [allMask, Mask.rev]
  · have complement := follow_rev ends
    refine ⟨decides_iff.mpr (.inl complement), ?_⟩
    rw [ends, complement]
    simp [allMask, noneMask, Mask.rev]

theorem Decides.inter (wfA : A.Wf) (wfB : B.Wf) (decA : A.Decides path)
    (decB : B.Decides path) (ok : A.inter B = .ok C) :
    C.Decides path ∧ (C.Covers path ↔ A.Covers path ∧ B.Covers path) := by
  rw [decides_iff, covers_iff, covers_iff, covers_iff]
  -- Both ends are all-or-none, where the operator is an equation in either order.
  rcases decides_iff.mp decA with endA | endA <;> rcases decides_iff.mp decB with endB | endB <;>
    obtain ⟨c, endC, meets | meets⟩ := Meets.follow wfA wfB (.inl ok) endA endB <;>
    simp only [inter_allMask_left, inter_noneMask_left, Except.ok.injEq] at meets <;>
    subst meets <;> simp [endA, endB, endC, allMask, noneMask]

end Covered

/-- Mask algebra is set algebra on the paths that both masks decide. -/
theorem operators_are_set_operations {A B : Mask} {path : List PathStep} (wfA : A.Wf)
    (wfB : B.Wf) (decA : A.Decides path) (decB : B.Decides path) :
    (∀ C, A.inter B = .ok C → C.Decides path ∧ (C.Covers path ↔ A.Covers path ∧ B.Covers path)) ∧
    (∀ C, A.union B = .ok C → C.Decides path ∧ (C.Covers path ↔ A.Covers path ∨ B.Covers path)) ∧
    (∀ C, A.sub B = .ok C → C.Decides path ∧ (C.Covers path ↔ A.Covers path ∧ ¬ B.Covers path)) ∧
    (∀ C, A.reverseMask = .ok C → C.Decides path ∧ (C.Covers path ↔ ¬ A.Covers path)) := by
  obtain ⟨decA', coversA'⟩ := decA.rev
  obtain ⟨decB', coversB'⟩ := decB.rev
  refine ⟨fun C ok => decA.inter wfA wfB decB ok, fun C ok => ?_, fun C ok => ?_, fun C ok => ?_⟩
  · obtain ⟨decC', coversC'⟩ := decA'.inter wfA.rev wfB.rev decB' (inter_rev_of_union ok)
    obtain ⟨decC, coversC⟩ := decC'.rev
    rw [rev_rev] at decC coversC
    refine ⟨decC, ?_⟩
    rw [coversC, coversC', coversA', coversB']
    tauto
  · obtain ⟨decC, coversC⟩ := decA.inter wfA wfB.rev decB' (inter_rev_of_sub ok)
    exact ⟨decC, by rw [coversC, coversB']⟩
  · rw [reverseMask_ok ok]
    exact ⟨decA', coversA'⟩

/-- Field 2 of A but for key 7, against everything of B but key "a" of field 1. -/
theorem operators_are_set_operations_at :
    let A := includes [(1, allMask), (2, excludesMap [(7, allMask)])]
    let B := excludes [(1, includesStringMap [([97], allMask)])]
    let path := [PathStep.field 2, PathStep.mapId 5]
    ∃ C, A.inter B = .ok C ∧ C.Covers path := by
  intro A B path
  have wfA : A.Wf := by simp [A, Wf, WfFields, WfMapIds, allMask]; decide
  have wfB : B.Wf := by simp [B, Wf, WfFields, WfStringKeys, allMask]; decide
  have endA : A.Covers path := ⟨_, rfl, by decide⟩
  have endB : B.Covers path := ⟨_, rfl, by decide⟩
  have decA : A.Decides path := ⟨_, rfl, by decide⟩
  have decB : B.Decides path := ⟨_, rfl, by decide⟩
  have meets := (operators_are_set_operations wfA wfB decA decB).1
  have both : ∃ C, A.inter B = .ok C := by
    cases ok : A.inter B with
    | ok C => exact ⟨C, rfl⟩
    | error err =>
      have returns : (A.inter B).isOk = true := by decide +kernel
      rw [ok] at returns
      cases returns
  obtain ⟨C, ok⟩ := both
  exact ⟨C, ok, (meets C ok).2.mpr ⟨endA, endB⟩⟩

end Mask

end FbThrift
