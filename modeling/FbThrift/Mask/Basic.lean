import FbThrift.Type.Type

/-!
# Field masks

`Mask` selects parts of a value: fields of a struct, integer or string keys of a
map, types of an Any.  Each level either lists what it includes or what it
excludes, and an exclusive level complements everything below it.  `MaskRef`
walks a mask and remembers whether the walk is below an odd number of exclusive
levels.

Maps of a mask are hash maps in the source; here they are sorted association
lists, so that equality of masks is equality of terms.
-/

namespace FbThrift

open SortedMap

/-- The union `Mask`.  A level is inclusive or exclusive, and keyed by field ids,
integer map keys, string map keys or types; `empty` is the `__EMPTY__` state. -/
inductive Mask where
  | empty
  | fields (exclusive : Bool) (map : List (Int16 × Mask))
  | mapIds (exclusive : Bool) (map : List (Int64 × Mask))
  | stringKeys (exclusive : Bool) (map : List (Bytes × Mask))
  | types (exclusive : Bool) (map : List (FullType × Mask))

namespace Mask

/-! The eight members of the union under the names of the source. -/

@[match_pattern] abbrev excludes (map : List (Int16 × Mask)) : Mask := .fields true map
@[match_pattern] abbrev includes (map : List (Int16 × Mask)) : Mask := .fields false map
@[match_pattern] abbrev excludesMap (map : List (Int64 × Mask)) : Mask := .mapIds true map
@[match_pattern] abbrev includesMap (map : List (Int64 × Mask)) : Mask := .mapIds false map
@[match_pattern] abbrev excludesStringMap (map : List (Bytes × Mask)) : Mask :=
  .stringKeys true map
@[match_pattern] abbrev includesStringMap (map : List (Bytes × Mask)) : Mask :=
  .stringKeys false map
@[match_pattern] abbrev excludesType (map : List (FullType × Mask)) : Mask := .types true map
@[match_pattern] abbrev includesType (map : List (FullType × Mask)) : Mask := .types false map

/-- Masks all fields. -/
def allMask : Mask := .excludes []

/-- Masks no fields. -/
def noneMask : Mask := .includes []

/-- `detail::isAllMask`: exactly the mask `allMask`. -/
def isAllMask : Mask → Bool
  | .excludes [] => true
  | _ => false

/-- `detail::isNoneMask`: exactly the mask `noneMask`. -/
def isNoneMask : Mask → Bool
  | .includes [] => true
  | _ => false

/-- `detail::isInclusive`: the active member has an even number; `__EMPTY__` is 0. -/
def isInclusive : Mask → Bool
  | .empty => true
  | .fields exclusive _ => !exclusive
  | .mapIds exclusive _ => !exclusive
  | .stringKeys exclusive _ => !exclusive
  | .types exclusive _ => !exclusive

def getFieldMask : Mask → Option (List (Int16 × Mask))
  | .fields _ map => some map
  | _ => none

def getIntegerMapMask : Mask → Option (List (Int64 × Mask))
  | .mapIds _ map => some map
  | _ => none

def getStringMapMask : Mask → Option (List (Bytes × Mask))
  | .stringKeys _ map => some map
  | _ => none

def getTypeMask : Mask → Option (List (FullType × Mask))
  | .types _ map => some map
  | _ => none

/-- Complements the top level; everything below is complemented with it. -/
def reverseMask : Mask → Except String Mask
  | .empty => .error "Can not reverse empty masks"
  | .fields exclusive map => .ok (.fields (!exclusive) map)
  | .mapIds exclusive map => .ok (.mapIds (!exclusive) map)
  | .stringKeys exclusive map => .ok (.stringKeys (!exclusive) map)
  | .types exclusive map => .ok (.types (!exclusive) map)

/-! ## Maps of a mask by kind -/

def toFieldMask (mask : Mask) : Except String (List (Int16 × Mask)) :=
  match mask.getFieldMask with
  | some map => .ok map
  | none => .error "Incompatible masks"

def toStringMapMask (mask : Mask) : Except String (List (Bytes × Mask)) :=
  match mask.getStringMapMask with
  | some map => .ok map
  | none =>
    if mask.isAllMask || mask.isNoneMask then .ok [] else .error "Incompatible masks"

def toIntegerMapMask (mask : Mask) : Except String (List (Int64 × Mask)) :=
  match mask.getIntegerMapMask with
  | some map => .ok map
  | none =>
    if mask.isAllMask || mask.isNoneMask then .ok [] else .error "Incompatible masks"

def toTypeMask (mask : Mask) : Except String (List (FullType × Mask)) :=
  match mask.getTypeMask with
  | some map => .ok map
  | none =>
    if mask.isAllMask || mask.isNoneMask then .ok [] else .error "Incompatible masks"

/-! ## Merging the maps of two masks -/

section Impl

variable {K : Type} [Keyed K]

/-- What `insertIfNotNoneMask` stores for a mask: nothing for the mask `noneMask`. -/
def notNoneMask (mask : Mask) : Option Mask :=
  if mask.isNoneMask then none else some mask

/-- `insertIfNotNoneMask`: stores a mask under an id unless it is `noneMask`. -/
def insertIfNotNoneMask (map : List (K × Mask)) (id : K) (mask : Mask) : List (K × Mask) :=
  match notNoneMask mask with
  | none => map
  | some mask => insertOrAssign id mask map

/-- The body of the loop over lhs that the three implementations share: `alone` says
what is stored for an id that rhs does not have. -/
def mergeEntry (alone : Mask → Option Mask) (lhs rhs : List (K × Mask))
    (op : (l r : Mask) → (∃ k, (k, l) ∈ lhs) → (∃ k, (k, r) ∈ rhs) → Except String Mask)
    (e : K × Mask) (member : e ∈ lhs) : Except String (Option Mask) :=
  match p : find e.1 rhs with
  | none => .ok (alone e.2)
  | some rhsMask => do
    let mask ← op e.2 rhsMask ⟨e.1, member⟩ ⟨e.1, mem_of_find p⟩
    .ok (notNoneMask mask)

/-- `IntersectMaskImpl`; `op` is `operator&` on the entries of the two maps. -/
def intersectMaskImpl (lhs rhs : List (K × Mask))
    (op : (l r : Mask) → (∃ k, (k, l) ∈ lhs) → (∃ k, (k, r) ∈ rhs) → Except String Mask) :
    Except String (List (K × Mask)) :=
  collectM lhs (mergeEntry (fun _ => none) lhs rhs op)

/-- The second loop of `UnionMaskImpl`: entries of rhs whose id lhs does not have. -/
def insertRhsOnly (lhs : List (K × Mask)) : List (K × Mask) → List (K × Mask) → List (K × Mask)
  | [], map => map
  | (id, rhsMask) :: rhs, map =>
    insertRhsOnly lhs rhs <|
      if contains id lhs then map else insertIfNotNoneMask map id rhsMask

/-- `UnionMaskImpl`; `op` is `operator|` on the entries of the two maps. -/
def unionMaskImpl (lhs rhs : List (K × Mask))
    (op : (l r : Mask) → (∃ k, (k, l) ∈ lhs) → (∃ k, (k, r) ∈ rhs) → Except String Mask) :
    Except String (List (K × Mask)) := do
  let map ← collectM lhs (mergeEntry notNoneMask lhs rhs op)
  .ok (insertRhsOnly lhs rhs map)

/-- `SubtractMaskImpl`; `op` is `operator-` on the entries of the two maps. -/
def subtractMaskImpl (lhs rhs : List (K × Mask))
    (op : (l r : Mask) → (∃ k, (k, l) ∈ lhs) → (∃ k, (k, r) ∈ rhs) → Except String Mask) :
    Except String (List (K × Mask)) :=
  collectM lhs (mergeEntry notNoneMask lhs rhs op)

end Impl

/-- Which of the three implementations `apply` runs. -/
inductive Impl where
  | intersect
  | union
  | subtract

/-- Runs one implementation on the maps of one kind. -/
def Impl.run {K : Type} [Keyed K] (impl : Impl) (lhs rhs : List (K × Mask))
    (op : (l r : Mask) → (∃ k, (k, l) ∈ lhs) → (∃ k, (k, r) ∈ rhs) → Except String Mask) :
    Except String (List (K × Mask)) :=
  match impl with
  | .intersect => intersectMaskImpl lhs rhs op
  | .union => unionMaskImpl lhs rhs op
  | .subtract => subtractMaskImpl lhs rhs op

/-! ## The logical operators -/

variable {mask l : Mask}

theorem sizeOf_lt_of_mem {K : Type} [SizeOf K] {k : K} {map : List (K × Mask)}
    (member : (k, mask) ∈ map) : sizeOf mask < sizeOf map := by
  have entry := List.sizeOf_lt_of_mem member
  have value : sizeOf mask < sizeOf (k, mask) := by
    simp only [Prod.mk.sizeOf_spec]
    omega
  omega

theorem sizeOf_lt_of_toFieldMask {map : List (Int16 × Mask)}
    (ok : mask.toFieldMask = .ok map) (member : ∃ k, (k, l) ∈ map) :
    sizeOf l < sizeOf mask := by
  obtain ⟨k, member⟩ := member
  have below := sizeOf_lt_of_mem member
  cases mask <;> simp [toFieldMask, getFieldMask] at ok
  subst ok
  simp only [fields.sizeOf_spec]
  omega

theorem sizeOf_lt_of_toIntegerMapMask {map : List (Int64 × Mask)}
    (ok : mask.toIntegerMapMask = .ok map) (member : ∃ k, (k, l) ∈ map) :
    sizeOf l < sizeOf mask := by
  obtain ⟨k, member⟩ := member
  have below := sizeOf_lt_of_mem member
  have nonempty : map ≠ [] := List.ne_nil_of_mem member
  cases mask <;> simp [toIntegerMapMask, getIntegerMapMask] at ok
  case mapIds =>
    subst ok
    simp only [mapIds.sizeOf_spec]
    omega
  all_goals
    split at ok
    · cases ok
      exact (nonempty rfl).elim
    · cases ok

theorem sizeOf_lt_of_toStringMapMask {map : List (Bytes × Mask)}
    (ok : mask.toStringMapMask = .ok map) (member : ∃ k, (k, l) ∈ map) :
    sizeOf l < sizeOf mask := by
  obtain ⟨k, member⟩ := member
  have below := sizeOf_lt_of_mem member
  have nonempty : map ≠ [] := List.ne_nil_of_mem member
  cases mask <;> simp [toStringMapMask, getStringMapMask] at ok
  case stringKeys =>
    subst ok
    simp only [stringKeys.sizeOf_spec]
    omega
  all_goals
    split at ok
    · cases ok
      exact (nonempty rfl).elim
    · cases ok

theorem sizeOf_lt_of_toTypeMask {map : List (FullType × Mask)}
    (ok : mask.toTypeMask = .ok map) (member : ∃ k, (k, l) ∈ map) :
    sizeOf l < sizeOf mask := by
  obtain ⟨k, member⟩ := member
  have below := sizeOf_lt_of_mem member
  have nonempty : map ≠ [] := List.ne_nil_of_mem member
  cases mask <;> simp [toTypeMask, getTypeMask] at ok
  case types =>
    subst ok
    simp only [types.sizeOf_spec]
    omega
  all_goals
    split at ok
    · cases ok
      exact (nonempty rfl).elim
    · cases ok

/-- `apply`: runs one implementation on the maps of the two masks.  The result is
an inclusive mask of the kind that either of them has. -/
def apply (lhs rhs : Mask) (impl : Impl)
    (op : (l r : Mask) → sizeOf l + sizeOf r < sizeOf lhs + sizeOf rhs → Except String Mask) :
    Except String Mask :=
  if lhs.getStringMapMask.isSome || rhs.getStringMapMask.isSome then
    match hl : lhs.toStringMapMask, hr : rhs.toStringMapMask with
    | .ok l, .ok r => do
      let map ← impl.run l r fun a b ha hb => op a b (Nat.add_lt_add
        (sizeOf_lt_of_toStringMapMask hl ha) (sizeOf_lt_of_toStringMapMask hr hb))
      .ok (.includesStringMap map)
    | .error err, _ => .error err
    | _, .error err => .error err
  -- If one of them is an integer map mask, the other one must be either integer
  -- map mask, or allMask/noneMask.
  else if lhs.getIntegerMapMask.isSome || rhs.getIntegerMapMask.isSome then
    match hl : lhs.toIntegerMapMask, hr : rhs.toIntegerMapMask with
    | .ok l, .ok r => do
      let map ← impl.run l r fun a b ha hb => op a b (Nat.add_lt_add
        (sizeOf_lt_of_toIntegerMapMask hl ha) (sizeOf_lt_of_toIntegerMapMask hr hb))
      .ok (.includesMap map)
    | .error err, _ => .error err
    | _, .error err => .error err
  else if lhs.getTypeMask.isSome || rhs.getTypeMask.isSome then
    match hl : lhs.toTypeMask, hr : rhs.toTypeMask with
    | .ok l, .ok r => do
      let map ← impl.run l r fun a b ha hb => op a b (Nat.add_lt_add
        (sizeOf_lt_of_toTypeMask hl ha) (sizeOf_lt_of_toTypeMask hr hb))
      .ok (.includesType map)
    | .error err, _ => .error err
    | _, .error err => .error err
  else
    match hl : lhs.toFieldMask, hr : rhs.toFieldMask with
    | .ok l, .ok r => do
      let map ← impl.run l r fun a b ha hb => op a b (Nat.add_lt_add
        (sizeOf_lt_of_toFieldMask hl ha) (sizeOf_lt_of_toFieldMask hr hb))
      .ok (.includes map)
    | .error err, _ => .error err
    | _, .error err => .error err

mutual

/-- `operator&`: intersection. -/
def inter (lhs rhs : Mask) : Except String Mask :=
  if lhs.isAllMask || rhs.isNoneMask then .ok rhs
  else if lhs.isNoneMask || rhs.isAllMask then .ok lhs
  else if lhs.isInclusive then
    if rhs.isInclusive then apply lhs rhs .intersect fun l r _ => inter l r
    else apply lhs rhs .subtract fun l r _ => sub l r
  else if rhs.isInclusive then apply rhs lhs .subtract fun l r _ => sub l r
  else do
    let mask ← apply lhs rhs .union fun l r _ => union l r
    reverseMask mask
termination_by sizeOf lhs + sizeOf rhs

/-- `operator|`: union. -/
def union (lhs rhs : Mask) : Except String Mask :=
  if lhs.isAllMask || rhs.isNoneMask then .ok lhs
  else if lhs.isNoneMask || rhs.isAllMask then .ok rhs
  else if lhs.isInclusive then
    if rhs.isInclusive then apply lhs rhs .union fun l r _ => union l r
    else do
      let mask ← apply rhs lhs .subtract fun l r _ => sub l r
      reverseMask mask
  else if rhs.isInclusive then do
    let mask ← apply lhs rhs .subtract fun l r _ => sub l r
    reverseMask mask
  else do
    let mask ← apply lhs rhs .intersect fun l r _ => inter l r
    reverseMask mask
termination_by sizeOf lhs + sizeOf rhs

/-- `operator-`: subtraction. -/
def sub (lhs rhs : Mask) : Except String Mask :=
  if lhs.isAllMask then reverseMask rhs
  else if rhs.isNoneMask then .ok lhs
  else if lhs.isNoneMask || rhs.isAllMask then .ok noneMask
  else if lhs.isInclusive then
    if rhs.isInclusive then apply lhs rhs .subtract fun l r _ => sub l r
    else apply lhs rhs .intersect fun l r _ => inter l r
  else if rhs.isInclusive then do
    let mask ← apply lhs rhs .union fun l r _ => union l r
    reverseMask mask
  else apply rhs lhs .subtract fun l r _ => sub l r
termination_by sizeOf lhs + sizeOf rhs

end

/-! ## Well-formed masks -/

mutual

/-- Every map of the mask is a map: its keys are distinct, in canonical order. -/
def Wf : Mask → Prop
  | .empty => True
  | .fields _ map => Sorted map ∧ WfFields map
  | .mapIds _ map => Sorted map ∧ WfMapIds map
  | .stringKeys _ map => Sorted map ∧ WfStringKeys map
  | .types _ map => Sorted map ∧ WfTypes map

def WfFields : List (Int16 × Mask) → Prop
  | [] => True
  | (_, mask) :: map => mask.Wf ∧ WfFields map

def WfMapIds : List (Int64 × Mask) → Prop
  | [] => True
  | (_, mask) :: map => mask.Wf ∧ WfMapIds map

def WfStringKeys : List (Bytes × Mask) → Prop
  | [] => True
  | (_, mask) :: map => mask.Wf ∧ WfStringKeys map

def WfTypes : List (FullType × Mask) → Prop
  | [] => True
  | (_, mask) :: map => mask.Wf ∧ WfTypes map

end

end Mask

/-! ## Walking a mask -/

/-- A mask together with whether it comes from an excludes mask, in which case it
stands for its complement. -/
structure MaskRef where
  mask : Mask
  isExclusion : Bool

/-- One step of a path: a field, a map key, or the type held by an Any. -/
inductive PathStep where
  | field (id : Int16)
  | mapId (id : Int64)
  | stringKey (key : Bytes)
  | type (type : TypeStruct)

namespace MaskRef

def isAllMask (ref : MaskRef) : Bool :=
  (ref.isExclusion && ref.mask.isNoneMask) || (!ref.isExclusion && ref.mask.isAllMask)

def isNoneMask (ref : MaskRef) : Bool :=
  (ref.isExclusion && ref.mask.isAllMask) || (!ref.isExclusion && ref.mask.isNoneMask)

/-- `getMask`: the mask at a key, `noneMask` when the key is absent. -/
def getMask {K : Type} [Keyed K] (map : List (K × Mask)) (k : K) : Mask :=
  (find k map).getD Mask.noneMask

/-- `MaskRef::get(FieldId)`. -/
def getField (ref : MaskRef) (id : Int16) : Except String MaskRef :=
  match ref.mask with
  | .fields exclusive map => .ok ⟨getMask map id, exclusive ^^ ref.isExclusion⟩
  | _ => .error "not a field mask"

/-- `MaskRef::get(MapId)`. -/
def getMapId (ref : MaskRef) (id : Int64) : Except String MaskRef :=
  -- This whole map is included or excluded.
  if ref.isAllMask || ref.isNoneMask then .ok ref
  else match ref.mask with
    | .mapIds exclusive map => .ok ⟨getMask map id, exclusive ^^ ref.isExclusion⟩
    | _ => .error "not an integer map mask"

/-- `MaskRef::get(const std::string&)`. -/
def getString (ref : MaskRef) (key : Bytes) : Except String MaskRef :=
  -- This whole map is included or excluded.
  if ref.isAllMask || ref.isNoneMask then .ok ref
  else match ref.mask with
    | .stringKeys exclusive map => .ok ⟨getMask map key, exclusive ^^ ref.isExclusion⟩
    | _ => .error "not a string map mask"

/-- `MaskRef::get(const type::Type&)`; the lookup validates that the type is full. -/
def getType (ref : MaskRef) (type : TypeStruct) : Except String MaskRef :=
  -- All types included or excluded.
  if ref.isAllMask || ref.isNoneMask then .ok ref
  else match ref.mask with
    | .types exclusive map =>
      if full : type.isFull = true then
        .ok ⟨getMask map ⟨type, full⟩, exclusive ^^ ref.isExclusion⟩
      else .error "Type mask requires full type!"
    | _ => .error "not a type mask"

/-- `MaskRef::get` for one step of a path. -/
def get (ref : MaskRef) : PathStep → Except String MaskRef
  | .field id => ref.getField id
  | .mapId id => ref.getMapId id
  | .stringKey key => ref.getString key
  | .type type => ref.getType type

/-- Walks a path with `get`. -/
def walk (ref : MaskRef) : List PathStep → Except String MaskRef
  | [] => .ok ref
  | step :: path => do
    let next ← ref.get step
    next.walk path

end MaskRef

end FbThrift
