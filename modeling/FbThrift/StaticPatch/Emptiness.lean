import FbThrift.StaticPatch.StructPatch

/-!
# What patches leave alone

A field that a patch does not say it modifies keeps its value, and an empty patch changes nothing,
but for the field that a union loses to the one that is ensured, and for the types without fields
that can be patched, whose patches always say that they are empty.
-/

namespace FbThrift.StaticPatch

variable {P V ν : Type} {leaf : LeafPatches P V} {schema : ν → Ty ν V}

/-! ## Fields of structs -/

section Fields

variable {fields : List (Field ν V)} {values : List (Option (Value V))} {i : Nat}

theorem getElem?_patchFields {patches : List (Patch P V)}
    (idle : ∀ field, fields[i]? = some field → field.patchable = true →
      (empties leaf schema patches fields).getD i true = true) :
    (patchFields leaf schema patches fields values)[i]? = values[i]? := by
  induction patches generalizing fields values i with
  | nil => rfl
  | cons patch patches ih =>
    cases fields with
    | nil => rfl
    | cons field fields =>
      cases values with
      | nil => rfl
      | cons value values =>
        rw [patchFields]
        cases i with
        | zero =>
          have skipped : (!field.patchable || patch.empty leaf schema field.type) = true := by
            cases reach : field.patchable with
            | false => rfl
            | true =>
              have empty := idle field rfl reach
              rw [empties] at empty
              exact empty
          rw [if_pos skipped]
          rfl
        | succ i =>
          exact ih fun field' there reach => by
            have empty := idle field' there reach
            rwa [empties] at empty

theorem getElem?_ensureFields {ensure : List (Option (Value V))}
    (idle : ∀ field, fields[i]? = some field → field.kind = .optional → ensure[i]?.join = none) :
    (ensureFields fields ensure values)[i]? = values[i]? := by
  induction fields generalizing ensure values i with
  | nil => rfl
  | cons field fields ih =>
    cases ensure with
    | nil => rfl
    | cons ensured ensure =>
      cases values with
      | nil => rfl
      | cons value values =>
        rw [ensureFields]
        cases i with
        | zero =>
          show some _ = some value
          split_ifs with set
          · have absent : ensured = none := idle field rfl set.1
            rw [absent, Option.isNone_iff_eq_none.mp set.2]
          · rfl
        | succ i => exact ih idle

theorem getElem?_removeFields {remove : List Int16}
    (idle : ∀ field, fields[i]? = some field → field.patchable = true →
      remove.contains field.id = false) :
    (removeFields remove fields values)[i]? = values[i]? := by
  induction fields generalizing values i with
  | nil => rfl
  | cons field fields ih =>
    cases values with
    | nil => rfl
    | cons value values =>
      rw [removeFields]
      cases i with
      | zero =>
        have kept : (field.patchable && remove.contains field.id) = false := by
          cases reach : field.patchable with
          | false => rfl
          | true => exact idle field rfl reach
        rw [kept]
        rfl
      | succ i => exact ih idle

end Fields

/-! ## The active field of a union -/

section Active

variable {fields : List (Field ν V)} {patches : List (Patch P V)}

theorem patchActive_index (i : Nat) (active : Option (Nat × Value V)) :
    (patchActive leaf schema patches fields i active).map Prod.fst = active.map Prod.fst := by
  induction patches generalizing fields i active with
  | nil => rfl
  | cons patch patches ih =>
    cases fields with
    | nil => rfl
    | cons field fields =>
      rw [patchActive, ih]
      split_ifs
      · rfl
      · rw [Option.map_map]
        rfl

theorem patchActive_idle {i j : Nat} {value : Value V}
    (idle : ∀ k field, i + k = j → fields[k]? = some field → field.patchable = true →
      (empties leaf schema patches fields).getD k true = true) :
    patchActive leaf schema patches fields i (some (j, value)) = some (j, value) := by
  induction patches generalizing fields i with
  | nil => rfl
  | cons patch patches ih =>
    cases fields with
    | nil => rfl
    | cons field fields =>
      have same : (if (!field.patchable || patch.empty leaf schema field.type) = true
          then some (j, value)
          else (some (j, value)).map fun a =>
            (a.1, if a.1 = i then patch.apply leaf schema field.type a.2 else a.2)) =
          some (j, value) := by
        split_ifs with skipped
        · rfl
        · by_cases here : j = i
          · have reach : field.patchable = true := by
              by_contra unreachable
              simp [unreachable] at skipped
            have empty := idle 0 field here.symm rfl reach
            rw [empties] at empty
            have empty' : patch.empty leaf schema field.type = true := empty
            simp [empty'] at skipped
          · simp [here]
      rw [patchActive, same]
      refine ih fun k field' there found reach => ?_
      have empty := idle (k + 1) field' (by omega) found reach
      rwa [empties] at empty

end Active

/-! ## Fields that are not modified -/

/-- What `modifies` excludes for a field. -/
structure Untouched (type : Ty ν V) (field : Field ν V) (ensures priorEmpty patchEmpty : Bool)
    (remove : List Int16) : Prop where
  ensure : type.isOptionalOrUnionField field = true → ensures = false
  prior : priorEmpty = true
  patch : patchEmpty = true
  remove : remove.contains field.id = false

theorem untouched_of_touches {type : Ty ν V} {field : Field ν V}
    {ensures priorEmpty patchEmpty : Bool} {remove : List Int16}
    (untouched : touches type field ensures priorEmpty patchEmpty remove = false) :
    Untouched type field ensures priorEmpty patchEmpty remove := by
  simp only [touches, Bool.or_eq_false_iff, Bool.not_eq_false'] at untouched
  obtain ⟨⟨⟨ensure, prior⟩, patch⟩, removed⟩ := untouched
  refine ⟨fun optional => ?_, prior, patch, ?_⟩
  · rwa [optional, Bool.and_true] at ensure
  · cases remove with
    | nil => rfl
    | cons id remove => exact removed

section Struct

variable {patchPrior patch : List (Patch P V)} {ensure : List (Option (Value V))}
  {remove : List Int16} {type : ν}

/-- What a patch of a struct without `assign` and `clear` makes of the fields. -/
def fieldsAfter (leaf : LeafPatches P V) (schema : ν → Ty ν V) (patchPrior : List (Patch P V))
    (ensure : List (Option (Value V))) (patch : List (Patch P V)) (remove : List Int16) (type : ν)
    (values : List (Option (Value V))) : List (Option (Value V)) :=
  removeFields remove (schema type).fields (patchFields leaf schema patch (schema type).fields
      (ensureFields (schema type).fields ensure
        (patchFields leaf schema patchPrior (schema type).fields values)))

theorem apply_struct (value : Value V) :
    (Patch.struct none false patchPrior ensure patch remove).apply leaf schema type value =
      value.mapFields (fieldsAfter leaf schema patchPrior ensure patch remove type) := by
  cases value <;> rfl

theorem getElem?_fieldsAfter {fields : List (Field ν V)} {cleared : Value V}
    (isStruct : schema type = .struct fields cleared) {i : Nat} (values : List (Option (Value V)))
    (untouched : ∀ field, fields[i]? = some field → field.patchable = true →
      Untouched (schema type) field ((ensure[i]?.join).isSome)
        ((empties leaf schema patchPrior fields).getD i true)
        ((empties leaf schema patch fields).getD i true) remove) :
    (fieldsAfter leaf schema patchPrior ensure patch remove type values)[i]? = values[i]? := by
  have isFields : (schema type).fields = fields := by rw [isStruct]; rfl
  unfold fieldsAfter
  rw [isFields, getElem?_removeFields fun field there reach => (untouched field there reach).remove,
    getElem?_patchFields fun field there reach => (untouched field there reach).patch,
    getElem?_ensureFields fun field there optional => ?_,
    getElem?_patchFields fun field there reach => (untouched field there reach).prior]
  have reach : field.patchable = true := by
    rw [Field.patchable, optional]
    rfl
  have ensures := (untouched field there reach).ensure
  rw [isStruct] at ensures
  have absent := ensures (by rw [Ty.isOptionalOrUnionField, optional]; rfl)
  rwa [Option.isSome_eq_false_iff, Option.isNone_iff_eq_none] at absent

end Struct

section Union

variable {patchPrior patch : List (Patch P V)} {ensure : Option (Nat × Value V)}
  {remove : List Int16} {type : ν}

/-- What a patch of a union without `assign` and `clear` makes of the active field. -/
def activeAfter (leaf : LeafPatches P V) (schema : ν → Ty ν V) (patchPrior : List (Patch P V))
    (ensure : Option (Nat × Value V)) (patch : List (Patch P V)) (type : ν)
    (active : Option (Nat × Value V)) : Option (Nat × Value V) :=
  patchActive leaf schema patch (schema type).fields 0 (ensureActive ensure
      (patchActive leaf schema patchPrior (schema type).fields 0 active))

theorem apply_union (value : Value V) :
    (Patch.union none false patchPrior ensure patch remove).apply leaf schema type value =
      value.mapActive (activeAfter leaf schema patchPrior ensure patch type) := by
  cases value <;> rfl

/-- A union that is ensured to have another field than the active one loses the active one. -/
def displaces (ensure active : Option (Nat × Value V)) (i : Nat) : Bool :=
  match ensure, active with
  | some (j, _), some (k, _) => k == i && j != i
  | _, _ => false

theorem field_union_eq_none {active : Option (Nat × Value V)} {i : Nat}
    (other : active.map Prod.fst ≠ some i) : (Value.union active).field i = none := by
  cases active with
  | none => rfl
  | some a =>
    have differs : (a.1 == i) = false :=
      beq_eq_false_iff_ne.mpr fun same => other (congrArg some same)
    simp [Value.field, Option.filter, differs]

theorem ensureActive_index {active : Option (Nat × Value V)} {i : Nat}
    (unensured : ensuresActive ensure i = false) (other : active.map Prod.fst ≠ some i) :
    (ensureActive ensure active).map Prod.fst ≠ some i := by
  cases ensure with
  | none => exact other
  | some e =>
    obtain ⟨j, value⟩ := e
    rw [ensureActive]
    split_ifs
    · exact other
    · have differs : i ≠ j := by simpa [ensuresActive] using unensured
      exact fun same => differs (Option.some.inj same).symm

theorem field_activeAfter {fields : List (Field ν V)} (isUnion : schema type = .union fields)
    {i : Nat} {field : Field ν V} (there : fields[i]? = some field)
    (untouched : Untouched (schema type) field (ensuresActive ensure i)
      ((empties leaf schema patchPrior fields).getD i true)
      ((empties leaf schema patch fields).getD i true) remove)
    (active : Option (Nat × Value V)) :
    (Value.union (activeAfter leaf schema patchPrior ensure patch type active)).field i =
      (Value.union active).field i ↔ displaces ensure active i = false := by
  have isFields : (schema type).fields = fields := by rw [isUnion]; rfl
  have unensured : ensuresActive ensure i = false :=
    untouched.ensure (by rw [isUnion]; rfl)
  have only : ∀ k field', 0 + k = i → fields[k]? = some field' → k = i := fun k _ same _ => by omega
  unfold activeAfter
  rw [isFields]
  by_cases here : active.map Prod.fst = some i
  · obtain ⟨⟨k, value⟩, rfl, rfl⟩ := Option.map_eq_some_iff.mp here
    dsimp only at there untouched unensured only ⊢
    rw [patchActive_idle fun k' field' same found _ => only k' field' same found ▸ untouched.prior]
    cases ensure with
    | none =>
      refine iff_of_true ?_ rfl
      rw [ensureActive, patchActive_idle fun k' field' same found _ =>
        only k' field' same found ▸ untouched.patch]
    | some e =>
      obtain ⟨j, ensured⟩ := e
      have differs : k ≠ j := by simpa [ensuresActive] using unensured
      refine iff_of_false ?_ (by simp [displaces, Ne.symm differs])
      have replaced : ensureActive (some (j, ensured)) (some (k, value)) = some (j, ensured) := by
        simp [ensureActive, differs]
      rw [replaced, field_union_eq_none]
      · simp [Value.field, Option.filter]
      · rw [patchActive_index]
        exact fun same => differs (Option.some.inj same).symm
  · have undisplaced : displaces ensure active i = false := by
      cases ensure with
      | none => rfl
      | some e =>
        cases active with
        | none => rfl
        | some a =>
          have differs : (a.1 == i) = false :=
            beq_eq_false_iff_ne.mpr fun same => here (congrArg some same)
          simp [displaces, differs]
    refine iff_of_true ?_ undisplaced
    rw [field_union_eq_none here, field_union_eq_none]
    rw [patchActive_index]
    refine ensureActive_index unensured ?_
    rwa [patchActive_index]

end Union

/-- The patch is one of the struct or the union type. -/
def Patch.IsOf : Patch P V → Ty ν V → Prop
  | .struct .., .struct .. | .union .., .union .. => True
  | _, _ => False

/-- Applying the patch displaces the field. -/
def Patch.displaces (patch : Patch P V) (value : Value V) (i : Nat) : Bool :=
  match patch, value with
  | .union _ _ _ ensure _ _, .union active => StaticPatch.displaces ensure active i
  | _, _ => false

theorem field_apply_iff {patch : Patch P V} {type : ν} (isOf : patch.IsOf (schema type)) {i : Nat}
    {field : Field ν V} (there : (schema type).fields[i]? = some field)
    (unmodified : patch.modifies leaf schema type i field = false) (value : Value V) :
    (patch.apply leaf schema type value).field i = value.field i ↔
      patch.displaces value i = false := by
  cases patch with
  | leaf patch => exact isOf.elim
  | struct assign clear patchPrior ensure patch remove =>
    simp only [Patch.modifies, Bool.or_eq_false_iff] at unmodified
    obtain ⟨⟨unassigned, uncleared⟩, untouched⟩ := unmodified
    rw [Option.isSome_eq_false_iff, Option.isNone_iff_eq_none] at unassigned
    subst unassigned uncleared
    have untouched := untouched_of_touches untouched
    refine iff_of_true ?_ rfl
    rw [apply_struct]
    cases isStruct : schema type with
    | struct fields cleared =>
      have isFields : (schema type).fields = fields := by rw [isStruct]; rfl
      rw [isFields] at there untouched
      cases value with
      | struct values =>
        show (fieldsAfter leaf schema patchPrior ensure patch remove type values)[i]?.join =
          values[i]?.join
        rw [getElem?_fieldsAfter isStruct values fun field' there' _ => ?_]
        rw [there] at there'
        cases there'
        exact untouched
      | _ => rfl
    | _ =>
      rw [isStruct] at isOf
      exact isOf.elim
  | union assign clear patchPrior ensure patch remove =>
    simp only [Patch.modifies, Bool.or_eq_false_iff] at unmodified
    obtain ⟨⟨unassigned, uncleared⟩, untouched⟩ := unmodified
    rw [Option.isSome_eq_false_iff, Option.isNone_iff_eq_none] at unassigned
    subst unassigned uncleared
    have untouched := untouched_of_touches untouched
    rw [apply_union]
    cases isUnion : schema type with
    | union fields =>
      have isFields : (schema type).fields = fields := by rw [isUnion]; rfl
      rw [isFields] at there untouched
      cases value with
      | union active => exact field_activeAfter isUnion there untouched active
      | _ => exact iff_of_true rfl rfl
    | _ =>
      rw [isUnion] at isOf
      exact isOf.elim

/-! ## Empty patches -/

/-- The union has the field that is ensured. -/
def Value.holds (ensure : Option (Nat × Value V)) : Value V → Prop
  | .union active => ∀ e, ensure = some e → active.map Prod.fst = some e.1
  | _ => True

/-- The patch assigns the value that is there, or it neither assigns nor clears, nor ensures
another field of a union. -/
def Patch.Idle : Patch P V → Value V → Prop
  | .leaf _, _ => True
  | .struct assign clear _ _ _ _, value => assign = some value ∨ assign = none ∧ clear = false
  | .union assign clear _ ensure _ _, value =>
    assign = some value ∨ assign = none ∧ clear = false ∧ value.holds ensure

theorem modifies_of_empty {patch : Patch P V} {type : ν} (isOf : patch.IsOf (schema type))
    (empty : patch.empty leaf schema type = true) {i : Nat} {field : Field ν V}
    (there : (schema type).fields[i]? = some field) (reach : field.patchable = true) :
    patch.modifies leaf schema type i field = false := by
  have member : (field, i) ∈ (schema type).fields.zipIdx :=
    List.mk_mem_zipIdx_iff_getElem?.mpr there
  cases patch with
  | leaf patch => exact isOf.elim
  | struct assign clear patchPrior ensure patch remove =>
    rw [Patch.empty] at empty
    have unmodified := List.all_eq_true.mp empty _ member
    rw [Patch.modifies]
    simpa only [reach, Bool.not_true, Bool.false_or, Bool.not_eq_true'] using unmodified
  | union assign clear patchPrior ensure patch remove =>
    rw [Patch.empty] at empty
    have unmodified := List.all_eq_true.mp empty _ member
    rw [Patch.modifies]
    simpa only [reach, Bool.not_true, Bool.false_or, Bool.not_eq_true'] using unmodified

theorem fieldsAfter_eq {patchPrior patch : List (Patch P V)} {ensure : List (Option (Value V))}
    {remove : List Int16} {type : ν} {fields : List (Field ν V)} {cleared : Value V}
    (isStruct : schema type = .struct fields cleared)
    (empty : (Patch.struct none false patchPrior ensure patch remove).empty leaf schema type = true)
    (values : List (Option (Value V))) :
    fieldsAfter leaf schema patchPrior ensure patch remove type values = values := by
  have isFields : (schema type).fields = fields := by rw [isStruct]; rfl
  refine List.ext_getElem? fun i => getElem?_fieldsAfter isStruct values fun field there reach => ?_
  have unmodified := modifies_of_empty (by rw [isStruct]; trivial) empty
    (isFields.symm ▸ there) reach
  rw [Patch.modifies, isFields] at unmodified
  exact untouched_of_touches unmodified

theorem activeAfter_eq_iff {patchPrior patch : List (Patch P V)} {ensure : Option (Nat × Value V)}
    {remove : List Int16} {type : ν} {fields : List (Field ν V)}
    (isUnion : schema type = .union fields)
    (empty : (Patch.union none false patchPrior ensure patch remove).empty leaf schema type = true)
    (active : Option (Nat × Value V)) :
    activeAfter leaf schema patchPrior ensure patch type active = active ↔
      ∀ e, ensure = some e → active.map Prod.fst = some e.1 := by
  have isFields : (schema type).fields = fields := by rw [isUnion]; rfl
  have untouched : ∀ (k : Nat) (field : Field ν V), fields[k]? = some field →
      field.patchable = true → Untouched (schema type) field (ensuresActive ensure k)
        ((empties leaf schema patchPrior fields).getD k true)
        ((empties leaf schema patch fields).getD k true) remove := by
    intro k field there reach
    have unmodified := modifies_of_empty (by rw [isUnion]; trivial) empty
      (isFields.symm ▸ there) reach
    rw [Patch.modifies, isFields] at unmodified
    exact untouched_of_touches unmodified
  unfold activeAfter
  rw [isFields]
  constructor
  · rintro same e rfl
    have first := @patchActive_index P V ν leaf schema fields patchPrior 0 active
    have index := congrArg (Option.map Prod.fst) same
    rw [patchActive_index, ensureActive] at index
    split_ifs at index with has
    · rw [← first]
      cases patched : patchActive leaf schema patchPrior fields 0 active with
      | none =>
        rw [patched] at has
        cases has
      | some a =>
        rw [patched] at has
        exact congrArg some (beq_iff_eq.mp has)
    · exact index.symm
  · intro holds
    have prior : patchActive leaf schema patchPrior fields 0 active = active := by
      cases active with
      | none =>
        have none_there := @patchActive_index P V ν leaf schema fields patchPrior 0 none
        exact Option.map_eq_none_iff.mp none_there
      | some a =>
        exact patchActive_idle fun k field same there reach => by
          rw [Nat.zero_add] at same
          exact (untouched k field there reach).prior
    have later : patchActive leaf schema patch fields 0 active = active := by
      cases active with
      | none =>
        have none_there := @patchActive_index P V ν leaf schema fields patch 0 none
        exact Option.map_eq_none_iff.mp none_there
      | some a =>
        exact patchActive_idle fun k field same there reach =>
          (untouched k field there reach).patch
    have kept : ensureActive ensure active = active := by
      cases ensure with
      | none => rfl
      | some e =>
        have index := holds e rfl
        obtain ⟨a, rfl, same⟩ := Option.map_eq_some_iff.mp index
        rw [ensureActive]
        simp [same]
    rw [prior, kept, later]

/-! ## Soundness of the queries -/

theorem resets_of_modifies {patch : Patch P V} {type : ν} (isOf : patch.IsOf (schema type))
    {i : Nat} {field : Field ν V} (unmodified : patch.modifies leaf schema type i field = false) :
    patch.resets leaf = false := by
  cases patch with
  | leaf patch => exact isOf.elim
  | _ =>
    simp only [Patch.modifies, Bool.or_eq_false_iff] at unmodified
    rw [Patch.resets, unmodified.1.2]
    rfl

theorem applyOptional_some {patch : Patch P V} {type : ν} (kept : patch.resets leaf = false)
    (value : Value V) : patch.applyOptional leaf schema type (some value) =
      some (patch.apply leaf schema type value) := by
  rw [Patch.applyOptional, kept]
  rfl

theorem applyOptional_none {patch : Patch P V} {type : ν} :
    patch.applyOptional leaf schema type none = none := by
  rw [Patch.applyOptional]
  split_ifs <;> rfl

theorem applied_assign_iff {patch : Patch P V} {type : ν} {assigned value : Value V}
    (assigns : patch.apply leaf schema type value = assigned) (kept : patch.resets leaf = false) :
    (patch.apply leaf schema type value = value ∧
      patch.applyOptional leaf schema type (some value) = some value ∧
      patch.applyOptional leaf schema type none = none) ↔ assigned = value := by
  rw [applyOptional_some kept, applyOptional_none, assigns]
  exact ⟨fun same => same.1, fun same => ⟨same, congrArg some same, rfl⟩⟩

theorem not_applied_of_resets {patch : Patch P V} {type : ν} {value : Value V}
    (resets : patch.resets leaf = true) :
    ¬ (patch.apply leaf schema type value = value ∧
      patch.applyOptional leaf schema type (some value) = some value ∧
      patch.applyOptional leaf schema type none = none) := by
  rintro ⟨-, reset, -⟩
  rw [Patch.applyOptional, if_pos resets] at reset
  cases reset

theorem applied_iff_idle {patch : Patch P V} {type : ν} (isOf : patch.IsOf (schema type))
    (empty : patch.empty leaf schema type = true) (value : Value V) :
    (patch.apply leaf schema type value = value ∧
      patch.applyOptional leaf schema type (some value) = some value ∧
      patch.applyOptional leaf schema type none = none) ↔ patch.Idle value := by
  cases patch with
  | leaf patch => exact isOf.elim
  | struct assign clear patchPrior ensure patch remove =>
    cases assign with
    | some assigned =>
      have assigns : (Patch.struct (some assigned) clear patchPrior ensure patch remove).apply
          leaf schema type value = assigned := rfl
      rw [applied_assign_iff assigns (Bool.and_false clear)]
      simp [Patch.Idle]
    | none =>
      cases clear with
      | true =>
        refine iff_of_false (not_applied_of_resets rfl) ?_
        simp [Patch.Idle]
      | false =>
        cases isStruct : schema type with
        | struct fields cleared =>
          refine iff_of_true ?_ (Or.inr ⟨rfl, rfl⟩)
          rw [applyOptional_some rfl, applyOptional_none, apply_struct]
          have same : value.mapFields
              (fieldsAfter leaf schema patchPrior ensure patch remove type) = value := by
            cases value with
            | struct values => rw [Value.mapFields, fieldsAfter_eq isStruct empty]
            | _ => rfl
          exact ⟨same, congrArg some same, rfl⟩
        | _ =>
          rw [isStruct] at isOf
          exact isOf.elim
  | union assign clear patchPrior ensure patch remove =>
    cases assign with
    | some assigned =>
      have assigns : (Patch.union (some assigned) clear patchPrior ensure patch remove).apply
          leaf schema type value = assigned := rfl
      rw [applied_assign_iff assigns (Bool.and_false clear)]
      simp [Patch.Idle]
    | none =>
      cases clear with
      | true =>
        refine iff_of_false (not_applied_of_resets rfl) ?_
        simp [Patch.Idle]
      | false =>
        cases isUnion : schema type with
        | union fields =>
          rw [applyOptional_some rfl, applyOptional_none, apply_union]
          have same : value.mapActive
              (activeAfter leaf schema patchPrior ensure patch type) = value ↔
              value.holds ensure := by
            cases value with
            | union active =>
              rw [Value.mapActive, Value.union.injEq, activeAfter_eq_iff isUnion empty]
              rfl
            | _ => exact iff_of_true rfl trivial
          rw [Option.some.injEq, and_self_left, same]
          simp [Patch.Idle]
        | _ =>
          rw [isUnion] at isOf
          exact isOf.elim

/-- The field of a union that is ensured is one that can be patched. -/
def Patch.EnsuresPatchable : Patch P V → Ty ν V → Prop
  | .union _ _ _ (some (i, _)) _ _, type =>
    ∃ field, type.fields[i]? = some field ∧ field.patchable = true
  | _, _ => True

theorem idle_of_empty {patch : Patch P V} {type : ν} (isOf : patch.IsOf (schema type))
    (ensures : patch.EnsuresPatchable (schema type))
    (some_field : ∃ field ∈ (schema type).fields, field.patchable = true)
    (empty : patch.empty leaf schema type = true) (value : Value V) : patch.Idle value := by
  obtain ⟨field, member, reach⟩ := some_field
  obtain ⟨i, there⟩ := List.getElem?_of_mem member
  have unmodified := modifies_of_empty isOf empty there reach
  cases patch with
  | leaf patch => exact trivial
  | struct assign clear patchPrior ensure patch remove =>
    simp only [Patch.modifies, Bool.or_eq_false_iff, Option.isSome_eq_false_iff,
      Option.isNone_iff_eq_none] at unmodified
    exact Or.inr unmodified.1
  | union assign clear patchPrior ensure patch remove =>
    simp only [Patch.modifies, Bool.or_eq_false_iff, Option.isSome_eq_false_iff,
      Option.isNone_iff_eq_none] at unmodified
    refine Or.inr ⟨unmodified.1.1, unmodified.1.2, ?_⟩
    cases ensure with
    | none =>
      cases value with
      | union active => exact fun _ absent => nomatch absent
      | _ => exact trivial
    | some e =>
      -- the ensured field would be modified
      obtain ⟨j, ensured⟩ := e
      obtain ⟨field', there', reach'⟩ := ensures
      have unmodified' := modifies_of_empty isOf empty there' reach'
      cases isUnion : schema type with
      | union fields => simp [Patch.modifies, touches, ensuresActive, isUnion,
          Ty.isOptionalOrUnionField] at unmodified'
      | _ =>
        rw [isUnion] at isOf
        exact isOf.elim

/-- A field that a patch of a struct or a union does not modify is left unchanged, by the patch of a
value and by that of an optional field, just if a union does not lose it to an ensured one; and an
empty patch changes nothing just if it is idle. -/
theorem queries_sound_iff (leaf : LeafPatches P V) (schema : ν → Ty ν V) (patch : Patch P V)
    (type : ν) (isOf : patch.IsOf (schema type)) :
    (∀ i field, (schema type).fields[i]? = some field →
      patch.modifies leaf schema type i field = false → ∀ value : Value V,
      ((patch.apply leaf schema type value).field i = value.field i ∧
        (patch.applyOptional leaf schema type (some value)).map (fun v => v.field i) =
          some (value.field i) ↔ patch.displaces value i = false)) ∧
    (patch.empty leaf schema type = true → ∀ value : Value V,
      ((patch.apply leaf schema type value = value ∧
        patch.applyOptional leaf schema type (some value) = some value ∧
        patch.applyOptional leaf schema type none = none) ↔ patch.Idle value)) := by
  refine ⟨fun i field there unmodified value => ?_, applied_iff_idle isOf⟩
  rw [applyOptional_some (resets_of_modifies isOf unmodified), Option.map_some, Option.some.injEq,
    and_self, field_apply_iff isOf there unmodified]

/-! ## A union and a struct without fields -/

/-- Numbers are assigned. -/
def numberPatches : LeafPatches (Option Int) Int where
  empty patch := patch.isNone
  resets _ := false
  apply patch value := patch.getD value

inductive Name where
  | number
  | choice
  | nothing

def numberField (id : Int16) : Field Name Int :=
  { id := id, kind := .plain, type := .number, intrinsicDefault := some (.leaf 0) }

/-- A union of two numbers, and a struct without fields. -/
def choices : Name → Ty Name Int
  | .number => .leaf
  | .choice => .union [numberField 1, numberField 2]
  | .nothing => .struct [] (.struct [])

/-- `patch.ensure<ident::one>()`. -/
def ensureOne : Patch (Option Int) Int :=
  .union none false [.leaf none, .leaf none] (some (0, .leaf 0)) [.leaf none, .leaf none] []

/-- `patch.clear()`. -/
def clearNothing : Patch (Option Int) Int := .struct none true [] [] [] []

/-- The union loses the field that the patch does not modify, and the patch that says it is empty
resets an optional field. -/
theorem not_queries_sound : ¬ (∀ field : Field Name Int, (choices .choice).fields[1]? = some field →
        ensureOne.modifies numberPatches choices .choice 1 field = false →
        ∀ value : Value Int,
          (ensureOne.apply numberPatches choices .choice value).field 1 = value.field 1) ∧
      ¬ (clearNothing.empty numberPatches choices .nothing = true → ∀ value : Value Int,
          clearNothing.applyOptional numberPatches choices .nothing (some value) = some value) := by
  constructor
  · intro sound
    have kept := sound (numberField 2) rfl (by decide) (.union (some (1, .leaf 7)))
    cases kept
  · intro sound
    have kept := sound (by decide) (.struct [])
    cases kept

/-- The patch that ensures the first number keeps the second just where it is not displaced. -/
theorem queries_sound_choice : (∀ i field, (choices .choice).fields[i]? = some field →
      ensureOne.modifies numberPatches choices .choice i field = false → ∀ value : Value Int,
      ((ensureOne.apply numberPatches choices .choice value).field i = value.field i ∧
        (ensureOne.applyOptional numberPatches choices .choice (some value)).map
          (fun v => v.field i) = some (value.field i) ↔ ensureOne.displaces value i = false)) ∧
    (ensureOne.empty numberPatches choices .choice = true → ∀ value : Value Int,
      ((ensureOne.apply numberPatches choices .choice value = value ∧
        ensureOne.applyOptional numberPatches choices .choice (some value) = some value ∧
        ensureOne.applyOptional numberPatches choices .choice none = none) ↔
        ensureOne.Idle value)) :=
  queries_sound_iff numberPatches choices ensureOne .choice trivial

end FbThrift.StaticPatch
