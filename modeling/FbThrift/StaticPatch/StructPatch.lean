import Mathlib.Data.List.Basic
import Mathlib.Tactic.SplitIfs

/-!
# Static patches of structs and unions

`StructPatch` and `UnionPatch` hold operations in slots: `assign`, `clear`, patches of the fields
before and after the `ensure`d values, and the fields to `remove`.  A patch of a field that says it
is `empty` is not applied.  The patches of other types are left as they are: a struct patch asks of
them whether they are empty, and applies them.
-/

namespace FbThrift.StaticPatch

/-! ## Types and values -/

/-- A field of a struct is unset, or a union is empty, where there is no value. -/
inductive Value (V : Type) where
  | leaf (value : V)
  | struct (fields : List (Option (Value V)))
  | union (active : Option (Nat × Value V))

/-- How a struct refers to the value of a field. -/
inductive FieldKind where
  | plain
  | optional
  | uniquePtr
  | sharedPtr
  deriving DecidableEq

structure Field (ν V : Type) where
  id : Int16
  kind : FieldKind
  type : ν
  intrinsicDefault : Option (Value V)

/-- Fields with shared references have no patches. -/
def Field.patchable {ν V : Type} (field : Field ν V) : Bool := field.kind != .sharedPtr

/-- A struct type knows what its values are when they are cleared. -/
inductive Ty (ν V : Type) where
  | leaf
  | struct (fields : List (Field ν V)) (cleared : Value V)
  | union (fields : List (Field ν V))

def Ty.fields {ν V : Type} : Ty ν V → List (Field ν V)
  | .leaf => []
  | .struct fields _ | .union fields => fields

/-- `is_optional_or_union_field_v`. -/
def Ty.isOptionalOrUnionField {ν V : Type} (type : Ty ν V) (field : Field ν V) : Bool :=
  match type with
  | .leaf => false
  | .struct _ _ => field.kind == .optional
  | .union _ => true

/-! ## Patches -/

/-- A patch of a struct or a union has an entry for each field in `patchPrior`, `ensure` and
`patch`; `ensure` of a union is a union. -/
inductive Patch (P V : Type) where
  | leaf (patch : P)
  | struct (assign : Option (Value V)) (clear : Bool) (patchPrior : List (Patch P V))
    (ensure : List (Option (Value V))) (patch : List (Patch P V)) (remove : List Int16)
  | union (assign : Option (Value V)) (clear : Bool) (patchPrior : List (Patch P V))
    (ensure : Option (Nat × Value V)) (patch : List (Patch P V)) (remove : List Int16)

/-- The patches of other types; one `resets` an optional field if it has `clear` and no `assign`. -/
structure LeafPatches (P V : Type) where
  empty : P → Bool
  resets : P → Bool
  apply : P → V → V

section Patches

variable {P V ν : Type} (leaf : LeafPatches P V) (schema : ν → Ty ν V)

/-- What `modifies` looks at besides `assign` and `clear`, for one field. -/
def touches (type : Ty ν V) (field : Field ν V) (ensures priorEmpty patchEmpty : Bool)
    (remove : List Int16) : Bool :=
  ensures && type.isOptionalOrUnionField field || !priorEmpty || !patchEmpty ||
    (!remove.isEmpty && remove.contains field.id)

/-- Whether a union is ensured to have a field. -/
def ensuresActive (ensure : Option (Nat × Value V)) (i : Nat) : Bool :=
  match ensure with
  | none => false
  | some (j, _) => i == j

mutual

/-- `BaseEnsurePatch::empty`: no field that can be patched is modified. -/
def Patch.empty : Patch P V → ν → Bool
  | .leaf patch, _ => leaf.empty patch
  | .struct assign clear patchPrior ensure patch remove, type =>
    let priorEmpty := empties patchPrior (schema type).fields
    let patchEmpty := empties patch (schema type).fields
    (schema type).fields.zipIdx.all fun (field, i) => !field.patchable ||
      !(assign.isSome || clear || touches (schema type) field ((ensure[i]?.join).isSome)
        (priorEmpty.getD i true) (patchEmpty.getD i true) remove)
  | .union assign clear patchPrior ensure patch remove, type =>
    let priorEmpty := empties patchPrior (schema type).fields
    let patchEmpty := empties patch (schema type).fields
    (schema type).fields.zipIdx.all fun (field, i) => !field.patchable ||
      !(assign.isSome || clear || touches (schema type) field (ensuresActive ensure i)
        (priorEmpty.getD i true) (patchEmpty.getD i true) remove)

/-- Which of the patches of fields are empty. -/
def empties : List (Patch P V) → List (Field ν V) → List Bool
  | patch :: patches, field :: fields => patch.empty field.type :: empties patches fields
  | _, _ => []

end

/-- `modifies<Id>`, for the field number `i`. -/
def Patch.modifies (patch : Patch P V) (type : ν) (i : Nat) (field : Field ν V) : Bool :=
  match patch with
  | .leaf _ => false
  | .struct assign clear patchPrior ensure patch remove =>
    assign.isSome || clear || touches (schema type) field ((ensure[i]?.join).isSome)
      ((empties leaf schema patchPrior (schema type).fields).getD i true)
      ((empties leaf schema patch (schema type).fields).getD i true) remove
  | .union assign clear patchPrior ensure patch remove =>
    assign.isSome || clear || touches (schema type) field (ensuresActive ensure i)
      ((empties leaf schema patchPrior (schema type).fields).getD i true)
      ((empties leaf schema patch (schema type).fields).getD i true) remove

/-- The patch resets an optional field that it is applied to. -/
def Patch.resets : Patch P V → Bool
  | .leaf patch => leaf.resets patch
  | .struct assign clear _ _ _ _ | .union assign clear _ _ _ _ => clear && assign.isNone

/-! ## Application -/

def Value.mapFields (f : List (Option (Value V)) → List (Option (Value V))) : Value V → Value V
  | .struct fields => .struct (f fields)
  | v => v

def Value.mapActive (f : Option (Nat × Value V) → Option (Nat × Value V)) : Value V → Value V
  | .union active => .union (f active)
  | v => v

/-- Optional fields without a value get the one that is ensured. -/
def ensureFields : List (Field ν V) → List (Option (Value V)) → List (Option (Value V)) →
    List (Option (Value V))
  | field :: fields, ensured :: ensure, value :: values =>
    (if field.kind = .optional ∧ value.isNone then ensured else value) ::
      ensureFields fields ensure values
  | _, _, values => values

/-- The active field of a union is replaced unless it is the ensured one. -/
def ensureActive (ensure active : Option (Nat × Value V)) : Option (Nat × Value V) :=
  match ensure with
  | none => active
  | some (i, value) => if active.any fun a => a.1 == i then active else some (i, value)

/-- `op::clear_field` of the removed fields. -/
def removeFields (remove : List Int16) : List (Field ν V) → List (Option (Value V)) →
    List (Option (Value V))
  | field :: fields, value :: values =>
    (if field.patchable && remove.contains field.id then
      if field.kind = .optional then none else field.intrinsicDefault
    else value) :: removeFields remove fields values
  | _, values => values

mutual

/-- `apply` to a value: `BaseEnsurePatch::customVisit` with the `Applier`. -/
def Patch.apply : Patch P V → ν → Value V → Value V
  | .leaf patch, _, value =>
    match value with
    | .leaf v => .leaf (leaf.apply patch v)
    | value => value
  | .struct assign clear patchPrior ensure patch remove, type, value =>
    match assign with
    | some assigned => assigned
    | none =>
      let value := match clear, schema type with
        | true, .struct _ cleared => cleared
        | _, _ => value
      let value := value.mapFields (patchFields patchPrior (schema type).fields)
      let value := value.mapFields (ensureFields (schema type).fields ensure)
      let value := value.mapFields (patchFields patch (schema type).fields)
      value.mapFields (removeFields remove (schema type).fields)
  | .union assign clear patchPrior ensure patch _, type, value =>
    match assign with
    | some assigned => assigned
    | none =>
      let value := if clear then .union none else value
      let value := value.mapActive (patchActive patchPrior (schema type).fields 0)
      let value := value.mapActive (ensureActive ensure)
      value.mapActive (patchActive patch (schema type).fields 0)

/-- `FieldPatch::customVisit` for the fields of a struct: the patches that are not empty are applied
to the references of their fields. -/
def patchFields : List (Patch P V) → List (Field ν V) → List (Option (Value V)) →
    List (Option (Value V))
  | patch :: patches, field :: fields, value :: values =>
    (if !field.patchable || patch.empty leaf schema field.type then value
    else if field.kind = .optional ∧ patch.resets leaf then none
    else value.map fun v => patch.apply field.type v) :: patchFields patches fields values
  | _, _, values => values

/-- The same for the fields of a union, of which only the active one has a value. -/
def patchActive : List (Patch P V) → List (Field ν V) → Nat → Option (Nat × Value V) →
    Option (Nat × Value V)
  | patch :: patches, field :: fields, i, active =>
    patchActive patches fields (i + 1)
      (if !field.patchable || patch.empty leaf schema field.type then active
      else active.map fun a => (a.1, if a.1 = i then patch.apply field.type a.2 else a.2))
  | _, _, _, active => active

end

/-- `apply` to an optional field. -/
def Patch.applyOptional (patch : Patch P V) (type : ν) (value : Option (Value V)) :
    Option (Value V) :=
  if patch.resets leaf then none else value.map (patch.apply leaf schema type)

/-- The value of a field, if it has one. -/
def Value.field : Value V → Nat → Option (Value V)
  | .leaf _, _ => none
  | .struct fields, i => fields[i]?.join
  | .union active, i => (active.filter fun a => a.1 == i).map Prod.snd

end Patches

end FbThrift.StaticPatch
