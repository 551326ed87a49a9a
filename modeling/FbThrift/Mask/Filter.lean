import FbThrift.Mask.Algebra
import FbThrift.Patch.Op

/-!
# Filtering by a mask

`MaskRef::filter` copies the parts of an object that a mask selects.  What is left of a
nested struct or map is dropped when it is empty.  A mask of types filters the value in an
Any, which goes through the type registry and is outside of the model.
-/

namespace FbThrift

open SortedMap Mask

namespace MaskRef

/-- How the values in an object or a map are filtered. -/
abbrev FilterBelow {K : Type} (src : List (K × Value)) : Type :=
  MaskRef → (e : K × Value) → e ∈ src → Except String (Option Value)

/-- `MaskRef::filter(const Object&)`; `impl` is `filter_impl` for the fields of `src`. -/
def filterFields (ref : MaskRef) (src : Object) (impl : FilterBelow src) : Except String Object :=
  match ref.mask with
  | .fields _ _ => collectM src fun e member => do
    let child ← ref.getField e.1
    impl child e member
  | .types _ _ => .error "Incompatible mask and data: expected Any for type-mask"
  | _ => .error "not a field mask"

/-- `MaskRef::get` at a key of a map whose first key is of the given kind. -/
def getKey (ref : MaskRef) (key : Value) : ArrayKey → Except String MaskRef
  | .integer => do
    let id ← getMapIdFromValue key
    ref.getMapId id
  | .string => do
    let id ← getStringFromValue key
    ref.getString id

/-- The loop over the keys, which are in order: the first one decides their kind. -/
def filterKeys (ref : MaskRef) (src : List (Value × Value)) (impl : FilterBelow src) :
    Except String (List (Value × Value)) :=
  match src with
  | [] => .ok []
  | (first, v) :: rest => do
    let kind ← getArrayKeyFromValue first
    collectM ((first, v) :: rest) fun e member => do
      let child ← ref.getKey e.1 kind
      impl child e member

/-- `MaskRef::filter` of a map; `impl` is `filter_impl` for the keys of `src`. -/
def filterEntries (ref : MaskRef) (src : List (Value × Value)) (impl : FilterBelow src) :
    Except String (List (Value × Value)) :=
  match ref.mask with
  | .mapIds _ _ => ref.filterKeys src impl
  | .stringKeys _ _ => ref.filterKeys src impl
  | _ => .error "not a map mask"

/-- `filter_impl`: what is kept of a value. -/
def filterImpl (ref : MaskRef) (v : Value) : Except String (Option Value) :=
  -- Id doesn't exist in field mask, skip.
  if ref.isNoneMask then .ok none
  else if ref.isAllMask then .ok (some v)
  else
    match v with
    | .object src => do
      let recurse ← ref.filterFields src fun child e _ => child.filterImpl e.2
      .ok (if recurse.isEmpty then none else some (.object recurse))
    | .map src => do
      let recurse ← ref.filterEntries src fun child e _ => child.filterImpl e.2
      .ok (if recurse.isEmpty then none else some (.map recurse))
    | _ => .error "The mask and object are incompatible."
termination_by sizeOf v
decreasing_by
  · rename_i member
    have below := List.sizeOf_lt_of_mem member
    have value : sizeOf e.2 < sizeOf e := by
      obtain ⟨k, v⟩ := e
      simp only [Prod.mk.sizeOf_spec]
      omega
    simp only [Value.object.sizeOf_spec]
    omega
  · rename_i member
    have below := List.sizeOf_lt_of_mem member
    have value : sizeOf e.2 < sizeOf e := by
      obtain ⟨k, v⟩ := e
      simp only [Prod.mk.sizeOf_spec]
      omega
    simp only [Value.map.sizeOf_spec]
    omega

theorem filterImpl_of_none {ref : MaskRef} (none : ref.isNoneMask = true) (v : Value) :
    ref.filterImpl v = .ok .none := by
  rw [filterImpl.eq_def, if_pos none]

theorem filterImpl_of_all {ref : MaskRef} (notNone : ref.isNoneMask = false)
    (all : ref.isAllMask = true) (v : Value) : ref.filterImpl v = .ok (some v) := by
  rw [filterImpl.eq_def, if_neg (by simp [notNone]), if_pos all]

theorem filterImpl_other {ref : MaskRef} (part : ref.isNoneMask = false ∧ ref.isAllMask = false)
    {v : Value} (notObject : v.getTType ≠ .struct) (notMap : v.getTType ≠ .map) :
    ref.filterImpl v = .error "The mask and object are incompatible." := by
  rw [filterImpl.eq_def, if_neg (by simp [part]), if_neg (by simp [part])]
  cases v with
  | object => exact absurd rfl notObject
  | map => exact absurd rfl notMap
  | _ => rfl

theorem filterImpl_object (ref : MaskRef) (part : ref.isNoneMask = false ∧ ref.isAllMask = false)
    (src : Object) :
    ref.filterImpl (.object src) =
      (ref.filterFields src fun child e _ => child.filterImpl e.2).map fun recurse =>
        if recurse.isEmpty then none else some (.object recurse) := by
  rw [filterImpl]
  simp only [part.1, part.2, Bool.false_eq_true, if_false]
  rfl

theorem filterImpl_map (ref : MaskRef) (part : ref.isNoneMask = false ∧ ref.isAllMask = false)
    (src : List (Value × Value)) :
    ref.filterImpl (.map src) =
      (ref.filterEntries src fun child e _ => child.filterImpl e.2).map fun recurse =>
        if recurse.isEmpty then none else some (.map recurse) := by
  rw [filterImpl]
  simp only [part.1, part.2, Bool.false_eq_true, if_false]
  rfl

/-- `MaskRef::filter(const Object&)`. -/
def filter (ref : MaskRef) (src : Object) : Except String Object :=
  ref.filterFields src fun child e _ => child.filterImpl e.2

end MaskRef

/-- `protocol::filter`. -/
def Mask.filter (mask : Mask) (src : Object) : Except String Object :=
  MaskRef.filter ⟨mask, false⟩ src

end FbThrift
