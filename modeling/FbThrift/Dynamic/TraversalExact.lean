import FbThrift.Dynamic.Traversal

/-!
# What a traversal finds

Steps name the parts of a value: the fields, the elements and keys by what they are.  The path
that is built for steps leads to the parts they name, or to nothing where there are none, but for
keys that do not survive the trip through their text or are compared as another type.
-/

namespace FbThrift.Dynamic.Traversal

open SimpleJSON

/-! ## Parts of values -/

def Value.child : Value → Slot → Option Value
  | .struct _ fields, .field i => fields[i]?.join
  | .union _ (some (active, value)), .field i => if active = i then some value else none
  | .list _ elements, .listElement i => elements[i]?
  | .set _ elements, .setElement i => elements[i]?
  | .map _ _ entries, .mapKey i => entries[i]?.map Prod.fst
  | .map _ _ entries, .mapValue i => entries[i]?.map Prod.snd
  | _, _ => none

/-- A step from a value to a part of it. -/
inductive Step where
  | field (field : FieldRef)
  | listElement (index : Nat)
  | setElement (key : Key)
  | mapKey (key : Key)
  | mapValue (key : Key)

section Paths

variable (ts : TypeSystem) (conv : Conversions)

/-- The step is the one to the slot: it has the name of the field, the index or the key that is
there. -/
def Step.Names (value : Value) : Step → Slot → Prop
  | .field f, .field i =>
    match value with
    | .struct uri _ => f.handleIn (ts.structFields uri) = i + 1
    | .union uri _ => f.handleIn (ts.unionFields uri) = i + 1
    | _ => False
  | .listElement i, .listElement j => i = j
  | .setElement key, .setElement i =>
    match value with
    | .set _ elements => elements[i]? = some (.primitive key)
    | _ => False
  | .mapKey key, .mapKey i | .mapValue key, .mapValue i =>
    match value with
    | .map _ _ entries => entries[i]?.map Prod.fst = some (.primitive key)
    | _ => False
  | _, _ => False

/-- The steps lead through the slots of a place to a value. -/
def Leads : Value → List Step → List Slot → Value → Prop
  | value, [], [], found => value = found
  | value, step :: steps, slot :: place, found =>
    step.Names ts value slot ∧ ∃ part, value.child slot = some part ∧ Leads part steps place found
  | _, _, _, _ => False

/-- The slot that a step names, if there is one; keys are found by equality. -/
def Value.locate : Value → Step → Option Slot
  | .struct uri fields, .field f =>
    match f.handleIn (ts.structFields uri) with
    | 0 => none
    | i + 1 => if (fields[i]?.join).isSome then some (.field i) else none
  | .union uri (some (active, _)), .field f =>
    if active + 1 = f.handleIn (ts.unionFields uri) then some (.field active) else none
  | .list _ elements, .listElement i =>
    if i < elements.length then some (.listElement i) else none
  | .set _ elements, .setElement key => (elements.findIdx? fun e => e.equals key).map .setElement
  | .map _ _ entries, .mapKey key => (entries.findIdx? fun e => e.1.equals key).map .mapKey
  | .map _ _ entries, .mapValue key => (entries.findIdx? fun e => e.1.equals key).map .mapValue
  | _, _ => none

/-- Where steps lead, and to what. -/
def Value.resolve : Value → List Step → Option (List Slot × Value)
  | value, [] => some ([], value)
  | value, step :: steps =>
    (value.locate ts step).bind fun slot => (value.child slot).bind fun part =>
      (part.resolve steps).map fun p => (slot :: p.1, p.2)

/-! ## Types of values and steps -/

def Key.HasType : Key → TypeRef → Prop
  | .bool _, .bool | .byte _, .byte | .i16 _, .i16 | .i32 _, .i32 | .i32 _, .enum _ => True
  | .i64 _, .i64 | .float _, .float | .double _, .double => True
  | .string _, .string | .binary _, .binary => True
  | _, _ => False

/-- No key of a hash container equals one in front of it. -/
def Distinct (keys : List Value) : Prop :=
  keys.Pairwise fun a b => ∀ key, b = .primitive key → a.equals key = false

/-- The values of a type. -/
inductive HasType : Value → TypeRef → Prop
  | primitive {key : Key} {type : TypeRef} : key.HasType type → HasType (.primitive key) type
  | any : HasType .any .any
  | list {type : TypeRef} {elements : List Value} :
    (∀ e ∈ elements, HasType e type) → HasType (.list type elements) (.list type)
  | set {type : TypeRef} {elements : List Value} :
    (∀ e ∈ elements, HasType e type) → Distinct elements → HasType (.set type elements) (.set type)
  | map {keyType valueType : TypeRef} {entries : List (Value × Value)} :
    (∀ e ∈ entries, HasType e.1 keyType) → (∀ e ∈ entries, HasType e.2 valueType) →
    Distinct (entries.map Prod.fst) →
    HasType (.map keyType valueType entries) (.map keyType valueType)
  | struct {uri : Uri} {fields : List (Option Value)} :
    fields.length = (ts.structFields uri).length →
    (∀ (i : Nat) f value, (ts.structFields uri)[i]? = some f → fields[i]? = some (some value) →
      HasType value f.type) → HasType (.struct uri fields) (.struct uri)
  | emptyUnion {uri : Uri} : HasType (.union uri none) (.union uri)
  | union {uri : Uri} {active : Nat} {value : Value} {f : FieldDefinition} :
    (ts.unionFields uri)[active]? = some f → HasType value f.type →
    HasType (.union uri (some (active, value))) (.union uri)

/-- The type behind a step, if the step is one from the type. -/
inductive Steps : TypeRef → Step → TypeRef → Prop
  | field {type : TypeRef} {fields : List FieldDefinition} {field : FieldRef} {i : Nat}
      {f : FieldDefinition} : ts.fieldsOf type = some fields → field.handleIn fields = i + 1 →
      fields[i]? = some f → Steps type (.field field) f.type
  | listElement {type : TypeRef} {i : Nat} : Steps (.list type) (.listElement i) type
  | setElement {type : TypeRef} {key : Key} : key.HasType type →
      Steps (.set type) (.setElement key) type
  | mapKey {keyType valueType : TypeRef} {key : Key} : key.HasType keyType →
      Steps (.map keyType valueType) (.mapKey key) keyType
  | mapValue {keyType valueType : TypeRef} {key : Key} : key.HasType keyType →
      Steps (.map keyType valueType) (.mapValue key) valueType

/-- The steps are such from a type on. -/
inductive Typed : TypeRef → List Step → Prop
  | nil {type : TypeRef} : Typed type []
  | cons {type next : TypeRef} {step : Step} {steps : List Step} :
    Steps ts type step next → Typed next steps → Typed type (step :: steps)

/-! ## The path for steps -/

/-- The native value of a key. -/
def Key.native (type : TypeRef) : Key → Native
  | .bool value => .bool value
  | .byte value => .byte value
  | .i16 value => .i16 value
  | .i32 value =>
    match type with
    | .enum _ => .enum value
    | _ => .i32 value
  | .i64 value => .i64 value
  | .float bits => .float bits
  | .double bits => .double bits
  | .string data => .string data
  | .binary data => .string (data.getD [])

/-- The type of the keys of a container. -/
def TypeRef.keyType : TypeRef → TypeRef
  | .set type => type
  | .map keyType _ => keyType
  | type => type

def PathBuilder.enter (builder : PathBuilder) : Step → Except Error PathBuilder
  | .field f => builder.enterField ts f
  | .listElement i => builder.enterListElement i
  | .setElement key => builder.enterSetElement conv (key.native builder.currentType.keyType)
  | .mapKey key => builder.enterMapKey conv (key.native builder.currentType.keyType)
  | .mapValue key => builder.enterMapValue conv (key.native builder.currentType.keyType)

/-- What the traversal of a value gives for the path that is built for the steps. -/
def traversed (access : Access) (type : TypeRef) (value : Value) (steps : List Step) :
    Except Error (Option (List Slot × Value)) := do
  let builder ← steps.foldlM (PathBuilder.enter ts conv) (.ofRoot type)
  let found ← traverse ts conv access type value builder.path
  .ok (found.map fun ref => (ref.place, ref.value))

/-! ## Keys that are lost -/

/-- The key equals what is read from its text: it is no NaN, and a binary, of which the text is a
string and is read as base64, is an empty buffer. -/
def Key.survives : Key → Bool
  | .float bits => !Format.single.isNaN bits.toNat
  | .double bits => !Format.double.isNaN bits.toNat
  | .binary data => data == some []
  | _ => true

def TypeRef.isEnum : TypeRef → Bool
  | .enum _ => true
  | _ => false

/-- The key is rebuilt as an integer and compared to enumerators. -/
def Step.retyped (type : TypeRef) : Step → Bool
  | .setElement _ | .mapKey _ => type.keyType.isEnum
  | _ => false

def Step.survives : Step → Bool
  | .setElement key | .mapKey key | .mapValue key => key.survives
  | _ => true

/-- All steps from a type on have keys that survive and are not retyped. -/
inductive Kept : TypeRef → List Step → Prop
  | nil {type : TypeRef} : Kept type []
  | cons {type next : TypeRef} {step : Step} {steps : List Step} : Steps ts type step next →
    step.retyped type = false → step.survives = true → Kept next steps → Kept type (step :: steps)

/-- The key that is read from the text of a key, up to equality. -/
def Key.asRead : Key → Key
  | .binary data => .binary (some (base64Decode (data.getD [])))
  | key => key

def Step.asRead : Step → Step
  | .setElement key => .setElement key.asRead
  | .mapKey key => .mapKey key.asRead
  | .mapValue key => .mapValue key.asRead
  | step => step

/-- One of the steps from a type on is retyped. -/
inductive Retyped : TypeRef → List Step → Prop
  | here {type : TypeRef} {step : Step} {steps : List Step} : step.retyped type = true →
    Retyped type (step :: steps)
  | later {type next : TypeRef} {step : Step} {steps : List Step} : Steps ts type step next →
    Retyped next steps → Retyped type (step :: steps)

end Paths

variable {ts : TypeSystem} {conv : Conversions}

/-! ## Building -/

/-- The component that a step adds at a type. -/
def componentOf (ts : TypeSystem) (conv : Conversions) (type : TypeRef) : Step → Component
  | .field f => .fieldAccess type (f.handleIn ((ts.fieldsOf type).getD []))
  | .listElement i => .listElement i
  | .setElement key => .setElement (toSimpleJSON conv (key.native type.keyType))
  | .mapKey key => .mapKey (toSimpleJSON conv (key.native type.keyType))
  | .mapValue key => .mapValue (toSimpleJSON conv (key.native type.keyType))

theorem enter_eq {builder : PathBuilder} {step : Step} {next : TypeRef}
    (steps : Steps ts builder.currentType step next) :
    builder.enter ts conv step =
      .ok (builder.push next (componentOf ts conv builder.currentType step)) := by
  obtain ⟨path, type, outer⟩ := builder
  dsimp only at steps ⊢
  cases steps with
  | field fields handle found =>
    simp [PathBuilder.enter, PathBuilder.enterField, fields, handle, found, componentOf]
  | listElement => rfl
  | setElement typed => rfl
  | mapKey typed => rfl
  | mapValue typed => rfl

/-- The components that are built for steps from a type on. -/
inductive Components (ts : TypeSystem) (conv : Conversions) :
    TypeRef → List Step → List Component → Prop
  | nil {type : TypeRef} : Components ts conv type [] []
  | cons {type next : TypeRef} {step : Step} {steps : List Step} {components : List Component} :
    Steps ts type step next → Components ts conv next steps components →
    Components ts conv type (step :: steps) (componentOf ts conv type step :: components)

theorem build_ok {type : TypeRef} {steps : List Step} (typed : Typed ts type steps)
    (builder : PathBuilder) (current : builder.currentType = type) :
    ∃ components built, Components ts conv type steps components ∧
      steps.foldlM (PathBuilder.enter ts conv) builder = .ok built ∧
      built.path.components = builder.path.components ++ components := by
  induction typed generalizing builder with
  | nil => exact ⟨[], builder, .nil, rfl, (List.append_nil _).symm⟩
  | @cons type next step rest first _ ih =>
    subst current
    obtain ⟨components, built, here, builds, added⟩ :=
      ih (builder.push next (componentOf ts conv builder.currentType step)) rfl
    refine ⟨_, built, .cons first here, ?_, ?_⟩
    · rw [List.foldlM_cons, enter_eq first]
      exact builds
    · rw [added]
      exact List.append_assoc ..

/-! ## Keys -/

/-- The type that a key is rebuilt with. -/
def TypeRef.readType : TypeRef → TypeRef
  | .enum _ => .i32
  | type => type

theorem equals_quietNaN (f : Format) (below : f.infinity < f.quietNaN % f.sign) (a : Nat) {x : Nat}
    (nan : f.isNaN x = true) : f.equals a f.quietNaN = f.equals a x := by
  have quiet : f.isNaN f.quietNaN = true := decide_eq_true below
  simp [Format.equals, nan, quiet]

theorem equals_float_read (bits : UInt32) (stored : Value) : stored.equals (.float (UInt32.ofNat
      (if Format.single.isNaN bits.toNat then Format.single.quietNaN else bits.toNat))) =
      stored.equals (.float bits) := by
  split
  · rename_i nan
    cases stored with
    | primitive key =>
      cases key with
      | float a => exact equals_quietNaN .single (by decide) a.toNat nan
      | _ => rfl
    | _ => rfl
  · rw [UInt32.ofNat_toNat]

theorem equals_double_read (bits : UInt64) (stored : Value) : stored.equals (.double (UInt64.ofNat
      (if Format.double.isNaN bits.toNat then Format.double.quietNaN else bits.toNat))) =
      stored.equals (.double bits) := by
  split
  · rename_i nan
    cases stored with
    | primitive key =>
      cases key with
      | double a => exact equals_quietNaN .double (by decide) a.toNat nan
      | _ => rfl
    | _ => rfl
  · rw [UInt64.ofNat_toNat]

variable {key : Key} {components : List Component}

theorem deserialize_native (roundTrip : conv.RoundTrip) {type : TypeRef}
    (typed : key.HasType type) :
    ∃ read, deserializePrimitiveKeyFromSimpleJSON conv (toSimpleJSON conv (key.native type)) type =
        .ok (type.readType, read) ∧
      ∀ stored : Value, stored.equals read = stored.equals key.asRead := by
  cases key with
  | bool value =>
    cases type <;> try cases typed
    refine ⟨.bool value, ?_, fun _ => rfl⟩
    simp [deserializePrimitiveKeyFromSimpleJSON, toSimpleJSON, Key.native,
      readJSONBool_writeJSONBool, TypeRef.readType]
  | byte value =>
    cases type <;> try cases typed
    refine ⟨.byte value, ?_, fun _ => rfl⟩
    simp [deserializePrimitiveKeyFromSimpleJSON, toSimpleJSON, Key.native, TypeRef.readType,
      @readJSONIntegral_writeJSONInt 8 value.toInt value.le_toInt value.toInt_lt]
  | i16 value =>
    cases type <;> try cases typed
    refine ⟨.i16 value, ?_, fun _ => rfl⟩
    simp [deserializePrimitiveKeyFromSimpleJSON, toSimpleJSON, Key.native, TypeRef.readType,
      @readJSONIntegral_writeJSONInt 16 value.toInt value.le_toInt value.toInt_lt]
  | i32 value =>
    have read := @readJSONIntegral_writeJSONInt 32 value.toInt value.le_toInt value.toInt_lt
    cases type <;> try cases typed
    · refine ⟨.i32 value, ?_, fun _ => rfl⟩
      simp [deserializePrimitiveKeyFromSimpleJSON, toSimpleJSON, Key.native, TypeRef.readType, read]
    · refine ⟨.i32 value, ?_, fun _ => rfl⟩
      simp [deserializePrimitiveKeyFromSimpleJSON, toSimpleJSON, Key.native, TypeRef.readType, read]
  | i64 value =>
    cases type <;> try cases typed
    refine ⟨.i64 value, ?_, fun _ => rfl⟩
    simp [deserializePrimitiveKeyFromSimpleJSON, toSimpleJSON, Key.native, TypeRef.readType,
      @readJSONIntegral_writeJSONInt 64 value.toInt value.le_toInt value.toInt_lt]
  | float bits =>
    cases type <;> try cases typed
    refine ⟨_, ?_, equals_float_read bits⟩
    simp [deserializePrimitiveKeyFromSimpleJSON, toSimpleJSON, Key.native, TypeRef.readType,
      readJSONFloating_writeJSONDouble (f := .single) roundTrip bits.toNat_lt (by decide)]
  | double bits =>
    cases type <;> try cases typed
    refine ⟨_, ?_, equals_double_read bits⟩
    simp [deserializePrimitiveKeyFromSimpleJSON, toSimpleJSON, Key.native, TypeRef.readType,
      readJSONFloating_writeJSONDouble (f := .double) roundTrip bits.toNat_lt (by decide)]
  | string data =>
    cases type <;> try cases typed
    refine ⟨.string data, ?_, fun _ => rfl⟩
    simp [deserializePrimitiveKeyFromSimpleJSON, toSimpleJSON, Key.native, TypeRef.readType,
      readJSONString_writeJSONString]
  | binary data =>
    cases type <;> try cases typed
    refine ⟨.binary (some (base64Decode (data.getD []))), ?_, fun _ => rfl⟩
    have read : readJSONBase64 (writeJSONString (data.getD [])) =
        .ok (base64Decode (data.getD []), []) := by
      rw [readJSONBase64, readJSONString_writeJSONString]
      rfl
    simp [deserializePrimitiveKeyFromSimpleJSON, toSimpleJSON, Key.native, TypeRef.readType, read]

/-! ## Inversion -/

section Inversion

variable {value : Value}

theorem HasType.struct_inv {uri : Uri} (typed : HasType ts value (.struct uri)) :
    ∃ fields, value = .struct uri fields ∧ fields.length = (ts.structFields uri).length ∧
      ∀ (i : Nat) f part, (ts.structFields uri)[i]? = some f → fields[i]? = some (some part) →
        HasType ts part f.type := by
  cases typed with
  | @primitive key _ typed => cases key <;> cases typed
  | struct length typed => exact ⟨_, rfl, length, typed⟩

theorem HasType.union_inv {uri : Uri} (typed : HasType ts value (.union uri)) :
    value = .union uri none ∨ ∃ active part f, value = .union uri (some (active, part)) ∧
      (ts.unionFields uri)[active]? = some f ∧ HasType ts part f.type := by
  cases typed with
  | @primitive key _ typed => cases key <;> cases typed
  | emptyUnion => exact .inl rfl
  | union found typed => exact .inr ⟨_, _, _, rfl, found, typed⟩

theorem HasType.list_inv {type : TypeRef} (typed : HasType ts value (.list type)) :
    ∃ elements, value = .list type elements ∧ ∀ e ∈ elements, HasType ts e type := by
  cases typed with
  | @primitive key _ typed => cases key <;> cases typed
  | list typed => exact ⟨_, rfl, typed⟩

theorem HasType.set_inv {type : TypeRef} (typed : HasType ts value (.set type)) :
    ∃ elements, value = .set type elements ∧ (∀ e ∈ elements, HasType ts e type) ∧
      Distinct elements := by
  cases typed with
  | @primitive key _ typed => cases key <;> cases typed
  | set typed distinct => exact ⟨_, rfl, typed, distinct⟩

theorem HasType.map_inv {keyType valueType : TypeRef}
    (typed : HasType ts value (.map keyType valueType)) :
    ∃ entries, value = .map keyType valueType entries ∧
      (∀ e ∈ entries, HasType ts e.1 keyType) ∧ (∀ e ∈ entries, HasType ts e.2 valueType) ∧
      Distinct (entries.map Prod.fst) := by
  cases typed with
  | @primitive key _ typed => cases key <;> cases typed
  | map keys values distinct => exact ⟨_, rfl, keys, values, distinct⟩

theorem HasType.set_distinct {type elementType : TypeRef} {elements : List Value}
    (typed : HasType ts (.set elementType elements) type) : Distinct elements := by
  cases typed with
  | set _ distinct => exact distinct

theorem HasType.map_distinct {type keyType valueType : TypeRef} {entries : List (Value × Value)}
    (typed : HasType ts (.map keyType valueType entries) type) :
    Distinct (entries.map Prod.fst) := by
  cases typed with
  | map _ _ distinct => exact distinct

theorem child_listElement {part : Value} {i : Nat}
    (child : value.child (.listElement i) = some part) :
    ∃ elementType elements, value = .list elementType elements ∧ elements[i]? = some part := by
  cases value with
  | list elementType elements => exact ⟨_, _, rfl, child⟩
  | union uri active =>
    cases active with
    | none => cases child
    | some active => cases child
  | _ => cases child

end Inversion

/-! ## One step -/

theorem readType_eq_self {type : TypeRef} (regular : type.isEnum = false) :
    type.readType = type := by
  cases type with
  | enum uri => cases regular
  | _ => rfl

theorem readType_ne_self {type : TypeRef} (enum : type.isEnum = true) : type ≠ type.readType := by
  cases type with
  | enum uri => nofun
  | _ => cases enum

/-- Where `contains` is asked before the search, and the type of the key is compared as well. -/
theorem search_eq {α β : Type} (elements : List α) (type : TypeRef) (matching : α → Bool)
    (g : Nat → Option β) :
    (if elements.any matching then
      (.ok ((elements.findIdx? fun e => decide (type = type.readType) && matching e).bind g) :
        Except Error (Option β))
    else .ok none) = .ok (if type.isEnum then none else (elements.findIdx? matching).bind g) := by
  by_cases enum : type.isEnum = true
  · have differs : decide (type = type.readType) = false :=
      decide_eq_false (readType_ne_self enum)
    have nowhere : elements.findIdx? (fun _ => false) = none :=
      List.findIdx?_eq_none_iff.mpr fun _ _ => rfl
    simp [enum, differs, nowhere]
  · rw [Bool.not_eq_true] at enum
    have same : decide (type = type.readType) = true :=
      decide_eq_true (readType_eq_self enum).symm
    simp only [enum, same, Bool.true_and, Bool.false_eq_true, if_false]
    split
    · rfl
    · rename_i nowhere
      have none_there : elements.findIdx? matching = none := by
        rw [List.findIdx?_eq_none_iff]
        simpa using nowhere
      rw [none_there]
      rfl

/-- What a step leads to, as the traversal sees it. -/
def seen (ts : TypeSystem) (ref : Ref) (step : Step) (next : TypeRef) : Option Ref :=
  if step.retyped ref.type then none
  else (ref.value.locate ts step.asRead).bind fun slot =>
    (ref.value.child slot).map fun part => ref.child next slot part

/-- A component leads to the part that its step names, and to nothing if there is none. -/
theorem follow_eq (roundTrip : conv.RoundTrip) {ref : Ref} {step : Step} {next : TypeRef}
    (typed : HasType ts ref.value ref.type) (steps : Steps ts ref.type step next) :
    follow ts conv .const ref (componentOf ts conv ref.type step) =
      .ok (seen ts ref step next) := by
  obtain ⟨type, place, value⟩ := ref
  dsimp only at typed steps ⊢
  cases steps with
  | @field _ fields field i f isStructured handle found =>
    cases type with
    | struct uri =>
      cases isStructured
      obtain ⟨values, rfl, length, -⟩ := typed.struct_inv
      have below : i < values.length := by
        rw [length]
        exact (List.getElem?_eq_some_iff.mp found).1
      obtain ⟨content, there⟩ : ∃ content, values[i]? = some content :=
        ⟨_, List.getElem?_eq_getElem below⟩
      cases content with
      | none => simp [follow, componentOf, TypeSystem.fieldsOf, getField, handle, found, there,
          seen, Step.retyped, Step.asRead, Value.locate]
      | some part => simp [follow, componentOf, TypeSystem.fieldsOf, getField, handle, found,
          there, seen, Step.retyped, Step.asRead, Value.locate, Value.child]
    | union uri =>
      cases isStructured
      rcases typed.union_inv with rfl | ⟨active, part, f', rfl, found', -⟩
      · simp [follow, componentOf, TypeSystem.fieldsOf, getActiveField, seen, Step.retyped,
          Value.locate]
      · by_cases here : active = i
        · subst here
          rw [found] at found'
          cases found'
          simp [follow, componentOf, TypeSystem.fieldsOf, getActiveField, handle, found, seen,
            Step.retyped, Step.asRead, Value.locate, Value.child]
        · simp [follow, componentOf, TypeSystem.fieldsOf, getActiveField, handle, here, seen,
            Step.retyped, Step.asRead, Value.locate]
    | _ => cases isStructured
  | @listElement _ i =>
    obtain ⟨elements, rfl, -⟩ := typed.list_inv
    by_cases below : i < elements.length
    · simp [follow, componentOf, seen, Step.retyped, Step.asRead, Value.locate, Value.child, below]
    · simp [follow, componentOf, seen, Step.retyped, Step.asRead, Value.locate, below]
  | @setElement _ key keyTyped =>
    obtain ⟨elements, rfl, -, -⟩ := typed.set_inv
    obtain ⟨read, reads, same⟩ := deserialize_native roundTrip keyTyped
    have equal : (fun e : Value => e.equals read) = fun e => e.equals key.asRead := funext same
    have search := search_eq elements next (fun e => e.equals read) fun i =>
      elements[i]?.map fun e =>
        Ref.child ⟨.set next, place, .set next elements⟩ next (.setElement i) e
    unfold follow componentOf
    dsimp only [TypeRef.keyType]
    rw [reads]
    refine search.trans ?_
    rw [equal]
    simp only [seen, Step.retyped, Step.asRead, TypeRef.keyType, Value.locate, Option.bind_map]
    rfl
  | @mapKey keyType valueType key keyTyped =>
    obtain ⟨entries, rfl, -, -, -⟩ := typed.map_inv
    obtain ⟨read, reads, same⟩ := deserialize_native roundTrip keyTyped
    have equal : (fun e : Value × Value => e.1.equals read) = fun e => e.1.equals key.asRead :=
      funext fun e => same e.1
    have search := search_eq entries next (fun e => e.1.equals read) fun i =>
      entries[i]?.map fun e =>
        Ref.child ⟨.map next valueType, place, .map next valueType entries⟩ next (.mapKey i) e.1
    unfold follow componentOf
    dsimp only [TypeRef.keyType]
    rw [reads]
    refine search.trans ?_
    rw [equal]
    simp only [seen, Step.retyped, Step.asRead, TypeRef.keyType, Value.locate, Option.bind_map]
    simp only [Function.comp_def, Value.child, Option.map_map]
  | @mapValue keyType valueType key keyTyped =>
    obtain ⟨entries, rfl, -, -, -⟩ := typed.map_inv
    obtain ⟨read, reads, same⟩ := deserialize_native roundTrip keyTyped
    have equal : (fun e : Value × Value => e.1.equals read) = fun e => e.1.equals key.asRead :=
      funext fun e => same e.1
    unfold follow componentOf
    dsimp only [TypeRef.keyType]
    rw [reads]
    show Except.ok ((entries.findIdx? fun e => e.1.equals read).bind fun i => _) = _
    rw [equal]
    simp only [seen, Step.retyped, Step.asRead, Value.locate, Option.bind_map, Function.comp_def,
      Value.child, Option.map_map]
    rfl

/-! ## Runs -/

/-- The slot is of the kind that the step is to. -/
def Step.Fits (ts : TypeSystem) (type : TypeRef) : Step → Slot → Prop
  | .field f, .field i => ∃ fields, ts.fieldsOf type = some fields ∧ f.handleIn fields = i + 1
  | .listElement i, .listElement j => i = j
  | .setElement _, .setElement _ | .mapKey _, .mapKey _ | .mapValue _, .mapValue _ => True
  | _, _ => False

section Fits

variable {value part : Value} {type next : TypeRef} {step : Step} {slot : Slot}

theorem child_hasType (typed : HasType ts value type) (steps : Steps ts type step next)
    (fits : step.Fits ts type slot) (child : value.child slot = some part) :
    HasType ts part next := by
  cases steps with
  | @field _ fields field i f isStructured handle found =>
    cases slot with
    | field j =>
      obtain ⟨fields', isStructured', handle'⟩ := fits
      rw [isStructured] at isStructured'
      cases isStructured'
      have same : i = j := by omega
      subst same
      cases type with
      | struct uri =>
        cases isStructured
        obtain ⟨values, rfl, -, typed⟩ := typed.struct_inv
        exact typed i f part found (Option.join_eq_some_iff.mp child)
      | union uri =>
        cases isStructured
        rcases typed.union_inv with rfl | ⟨active, part', f', rfl, found', typed⟩
        · cases child
        · simp only [Value.child, Option.ite_none_right_eq_some, Option.some.injEq] at child
          obtain ⟨rfl, rfl⟩ := child
          rw [found] at found'
          cases found'
          exact typed
      | _ => cases isStructured
    | _ => exact fits.elim
  | listElement =>
    cases slot with
    | listElement j =>
      obtain ⟨elements, rfl, all⟩ := typed.list_inv
      exact all part (List.mem_of_getElem? child)
    | _ => exact fits.elim
  | setElement _ =>
    cases slot with
    | setElement j =>
      obtain ⟨elements, rfl, all, -⟩ := typed.set_inv
      exact all part (List.mem_of_getElem? child)
    | _ => exact fits.elim
  | mapKey _ =>
    cases slot with
    | mapKey j =>
      obtain ⟨entries, rfl, all, -, -⟩ := typed.map_inv
      obtain ⟨e, there, rfl⟩ := Option.map_eq_some_iff.mp child
      exact all e (List.mem_of_getElem? there)
    | _ => exact fits.elim
  | mapValue _ =>
    cases slot with
    | mapValue j =>
      obtain ⟨entries, rfl, -, all, -⟩ := typed.map_inv
      obtain ⟨e, there, rfl⟩ := Option.map_eq_some_iff.mp child
      exact all e (List.mem_of_getElem? there)
    | _ => exact fits.elim

theorem locate_fits (typed : HasType ts value type) (steps : Steps ts type step next)
    (located : value.locate ts step.asRead = some slot) : step.Fits ts type slot := by
  cases steps with
  | @field _ fields field i f isStructured handle found =>
    refine ?_
    cases type with
    | struct uri =>
      cases isStructured
      obtain ⟨values, rfl, -, -⟩ := typed.struct_inv
      simp only [Step.asRead, Value.locate, handle, Option.ite_none_right_eq_some,
        Option.some.injEq] at located
      obtain ⟨-, rfl⟩ := located
      exact ⟨_, rfl, handle⟩
    | union uri =>
      cases isStructured
      rcases typed.union_inv with rfl | ⟨active, part', f', rfl, -, -⟩
      · cases located
      · simp only [Step.asRead, Value.locate, Option.ite_none_right_eq_some,
          Option.some.injEq] at located
        obtain ⟨here, rfl⟩ := located
        exact ⟨_, rfl, here.symm⟩
    | _ => cases isStructured
  | listElement =>
    obtain ⟨elements, rfl, -⟩ := typed.list_inv
    simp only [Step.asRead, Value.locate, Option.ite_none_right_eq_some,
      Option.some.injEq] at located
    obtain ⟨-, rfl⟩ := located
    rfl
  | setElement _ =>
    obtain ⟨elements, rfl, -, -⟩ := typed.set_inv
    obtain ⟨i, -, rfl⟩ := Option.map_eq_some_iff.mp located
    trivial
  | mapKey _ =>
    obtain ⟨entries, rfl, -, -, -⟩ := typed.map_inv
    obtain ⟨i, -, rfl⟩ := Option.map_eq_some_iff.mp located
    trivial
  | mapValue _ =>
    obtain ⟨entries, rfl, -, -, -⟩ := typed.map_inv
    obtain ⟨i, -, rfl⟩ := Option.map_eq_some_iff.mp located
    trivial

end Fits

theorem Steps.unique {type next next' : TypeRef} {step : Step} (one : Steps ts type step next)
    (other : Steps ts type step next') : next = next' := by
  cases one with
  | field isStructured handle found =>
    cases other with
    | field isStructured' handle' found' =>
      rw [isStructured] at isStructured'
      cases isStructured'
      rw [handle] at handle'
      cases handle'
      rw [found] at found'
      cases found'
      rfl
  | listElement =>
    cases other
    rfl
  | setElement =>
    cases other
    rfl
  | mapKey =>
    cases other
    rfl
  | mapValue =>
    cases other
    rfl

/-- The place and the value of what was found. -/
def located (found : Option Ref) : Option (List Slot × Value) :=
  found.map fun ref => (ref.place, ref.value)

theorem traverseImpl_cons (roundTrip : conv.RoundTrip) {ref : Ref} {step : Step} {next : TypeRef}
    (typed : HasType ts ref.value ref.type) (steps : Steps ts ref.type step next)
    (components : List Component) :
    (traverseImpl ts conv .const ref (componentOf ts conv ref.type step :: components) =
      match seen ts ref step next with
      | none => .ok none
      | some child => traverseImpl ts conv .const child components) ∧
    ∀ child, seen ts ref step next = some child → step.retyped ref.type = false ∧
      child.type = next ∧ HasType ts child.value child.type := by
  constructor
  · rw [traverseImpl, follow_eq roundTrip typed steps]
    cases seen ts ref step next <;> rfl
  · intro child found
    unfold seen at found
    split at found
    · cases found
    · rename_i regular
      obtain ⟨slot, there, found⟩ := Option.bind_eq_some_iff.mp found
      obtain ⟨part, inside, rfl⟩ := Option.map_eq_some_iff.mp found
      exact ⟨Bool.not_eq_true _ ▸ regular, rfl,
        child_hasType typed steps (locate_fits typed steps there) inside⟩

theorem traverseImpl_retyped (roundTrip : conv.RoundTrip) {type : TypeRef} {steps : List Step}
    (built : Components ts conv type steps components)
    (retyped : Retyped ts type steps) (ref : Ref) (isType : ref.type = type)
    (typed : HasType ts ref.value ref.type) :
    traverseImpl ts conv .const ref components = .ok none := by
  induction built generalizing ref with
  | nil => cases retyped
  | @cons type next step steps components first rest ih =>
    subst isType
    obtain ⟨here, behind⟩ := traverseImpl_cons roundTrip typed first components
    rw [here]
    cases found : seen ts ref step next with
    | none => rfl
    | some child =>
      obtain ⟨regular, isNext, childTyped⟩ := behind child found
      cases retyped with
      | here retyped =>
        rw [regular] at retyped
        cases retyped
      | later first' later =>
        exact ih (first.unique first' ▸ later) child isNext childTyped

/-- If no step is retyped, the traversal finds what the steps with the keys as they are read
name. -/
theorem traverseImpl_regular (roundTrip : conv.RoundTrip) {type : TypeRef} {steps : List Step}
    (built : Components ts conv type steps components)
    (regular : ¬ Retyped ts type steps) (ref : Ref) (isType : ref.type = type)
    (typed : HasType ts ref.value ref.type) :
    ∃ found, traverseImpl ts conv .const ref components = .ok found ∧
      located found = (ref.value.resolve ts (steps.map Step.asRead)).map
        fun p => (ref.place ++ p.1, p.2) := by
  induction built generalizing ref with
  | nil => exact ⟨some ref, rfl, by simp [located, Value.resolve]⟩
  | @cons type next step steps components first rest ih =>
    subst isType
    obtain ⟨here, behind⟩ := traverseImpl_cons roundTrip typed first components
    rw [here]
    have unretyped : step.retyped ref.type = false := by
      rw [← Bool.not_eq_true]
      exact fun retyped => regular (.here retyped)
    have later : ¬ Retyped ts next steps := fun retyped => regular (.later first retyped)
    have sees : seen ts ref step next = (ref.value.locate ts step.asRead).bind fun slot =>
        (ref.value.child slot).map fun part => ref.child next slot part := by
      rw [seen, unretyped]
      rfl
    rw [List.map_cons, Value.resolve]
    cases there : ref.value.locate ts step.asRead with
    | none =>
      rw [sees, there]
      exact ⟨none, rfl, rfl⟩
    | some slot =>
      rw [there] at sees
      cases inside : ref.value.child slot with
      | none =>
        rw [sees]
        simp only [Option.bind_some, inside]
        exact ⟨none, rfl, rfl⟩
      | some part =>
        have seesChild : seen ts ref step next = some (ref.child next slot part) := by
          rw [sees]
          simp only [Option.bind_some, inside, Option.map_some]
        obtain ⟨-, isNext, childTyped⟩ := behind _ seesChild
        obtain ⟨found, run, same⟩ := ih later (ref.child next slot part) isNext childTyped
        rw [seesChild]
        refine ⟨found, run, same.trans ?_⟩
        simp [inside, Ref.child, Function.comp_def]

/-! ## Keys that survive -/

theorem Format.equals_self (f : Format) (x : Nat) : f.equals x x = !f.isNaN x := by
  simp [Format.equals]

theorem equals_asRead (key : Key) : key.equals key.asRead = key.survives := by
  cases key with
  | float bits => exact Format.equals_self .single bits.toNat
  | double bits => exact Format.equals_self .double bits.toNat
  | binary data =>
    cases data with
    | none => rfl
    | some data =>
      show (some data == some (base64Decode data)) = (some data == some [])
      rw [Bool.eq_iff_iff]
      simp only [beq_iff_eq, Option.some.injEq]
      exact eq_comm.trans base64Decode_eq_self
  | _ => exact beq_self_eq_true _

theorem asRead_of_survives (survives : key.survives = true) : key.asRead = key := by
  cases key with
  | binary data =>
    have empty : data = some [] := by simpa [Key.survives] using survives
    subst empty
    rfl
  | _ => rfl

theorem findIdx_key {α : Type} {elements : List α} {keyOf : α → Value} {i : Nat}
    (distinct : Distinct (elements.map keyOf))
    (stored : elements[i]?.map keyOf = some (.primitive key)) :
    elements.findIdx? (fun e => (keyOf e).equals key.asRead) = some i ↔ key.survives = true := by
  obtain ⟨e, there, isKey⟩ := Option.map_eq_some_iff.mp stored
  obtain ⟨below, rfl⟩ := List.getElem?_eq_some_iff.mp there
  rw [List.findIdx?_eq_some_iff_getElem]
  have here : (keyOf elements[i]).equals key.asRead = key.survives := by
    rw [isKey]
    exact equals_asRead key
  constructor
  · rintro ⟨_, found, -⟩
    rw [← here]
    exact found
  · intro survives
    refine ⟨below, here.trans survives, fun j earlier => ?_⟩
    have apart := List.pairwise_iff_getElem.mp distinct j i (by rw [List.length_map]; omega)
      (by rwa [List.length_map]) earlier key (by rw [List.getElem_map, isKey])
    rw [List.getElem_map] at apart
    rw [asRead_of_survives survives, apart]
    decide

section Leads

variable {value part : Value} {type : TypeRef} {step : Step} {slot : Slot}

theorem Step.Names.steps (names : step.Names ts value slot) (typed : HasType ts value type)
    (child : value.child slot = some part) :
    ∃ next, Steps ts type step next ∧ step.Fits ts type slot := by
  cases step with
  | field f =>
    cases slot with
    | field i =>
      cases value with
      | struct uri fields =>
        cases typed with
        | struct length all =>
          have below : i < (ts.structFields uri).length := by
            rw [← length]
            exact (List.getElem?_eq_some_iff.mp (Option.join_eq_some_iff.mp child)).1
          exact ⟨_, .field rfl names (List.getElem?_eq_getElem below), _, rfl, names⟩
      | union uri active =>
        cases typed with
        | emptyUnion => cases child
        | union found all =>
          simp only [Value.child, Option.ite_none_right_eq_some] at child
          obtain ⟨rfl, -⟩ := child
          exact ⟨_, .field rfl names found, _, rfl, names⟩
      | _ => exact names.elim
    | _ => exact names.elim
  | listElement i =>
    cases slot with
    | listElement j =>
      obtain ⟨elementType, elements, rfl, -⟩ := child_listElement child
      cases typed
      exact ⟨_, .listElement, names⟩
    | _ => exact names.elim
  | setElement key =>
    cases slot with
    | setElement j =>
      cases value with
      | set elementType elements =>
        cases typed with
        | set all distinct =>
          have keyTyped := all _ (List.mem_of_getElem? names)
          cases keyTyped with
          | primitive keyTyped => exact ⟨_, .setElement keyTyped, trivial⟩
      | _ => exact names.elim
    | _ => exact names.elim
  | mapKey key =>
    cases slot with
    | mapKey j =>
      cases value with
      | map keyType valueType entries =>
        cases typed with
        | map keys values distinct =>
          obtain ⟨e, there, isKey⟩ := Option.map_eq_some_iff.mp names
          have keyTyped := keys e (List.mem_of_getElem? there)
          rw [isKey] at keyTyped
          cases keyTyped with
          | primitive keyTyped => exact ⟨_, .mapKey keyTyped, trivial⟩
      | _ => exact names.elim
    | _ => exact names.elim
  | mapValue key =>
    cases slot with
    | mapValue j =>
      cases value with
      | map keyType valueType entries =>
        cases typed with
        | map keys values distinct =>
          obtain ⟨e, there, isKey⟩ := Option.map_eq_some_iff.mp names
          have keyTyped := keys e (List.mem_of_getElem? there)
          rw [isKey] at keyTyped
          cases keyTyped with
          | primitive keyTyped => exact ⟨_, .mapValue keyTyped, trivial⟩
      | _ => exact names.elim
    | _ => exact names.elim

theorem Step.Names.locate_asRead (names : step.Names ts value slot) (typed : HasType ts value type)
    (child : value.child slot = some part) :
    value.locate ts step.asRead = some slot ↔ step.survives = true := by
  cases step with
  | field f =>
    refine iff_of_true ?_ rfl
    cases slot with
    | field i =>
      cases value with
      | struct uri fields =>
        have set : (fields[i]?.join).isSome := by
          rw [show fields[i]?.join = some part from child]
          rfl
        simp [Step.asRead, Value.locate, set,
          show f.handleIn (ts.structFields uri) = i + 1 from names]
      | union uri active =>
        cases active with
        | none => cases child
        | some active =>
          obtain ⟨active, content⟩ := active
          simp only [Value.child, Option.ite_none_right_eq_some] at child
          obtain ⟨rfl, -⟩ := child
          simp [Step.asRead, Value.locate,
            show f.handleIn (ts.unionFields uri) = active + 1 from names]
      | _ => exact names.elim
    | _ => exact names.elim
  | listElement i =>
    refine iff_of_true ?_ rfl
    cases slot with
    | listElement j =>
      cases (show i = j from names)
      obtain ⟨elementType, elements, rfl, there⟩ := child_listElement child
      exact if_pos (List.getElem?_eq_some_iff.mp there).1
    | _ => exact names.elim
  | setElement key =>
    cases slot with
    | setElement i =>
      cases value with
      | set elementType elements =>
        have distinct := typed.set_distinct
        rw [← List.map_id elements] at distinct
        have stored : elements[i]?.map id = some (.primitive key) := by
          rw [Option.map_id]
          exact names
        refine Iff.trans ?_ (findIdx_key distinct stored)
        simp [Step.asRead, Value.locate]
      | _ => exact names.elim
    | _ => exact names.elim
  | mapKey key =>
    cases slot with
    | mapKey i =>
      cases value with
      | map keyType valueType entries =>
        refine Iff.trans ?_ (findIdx_key typed.map_distinct names)
        simp [Step.asRead, Value.locate]
      | _ => exact names.elim
    | _ => exact names.elim
  | mapValue key =>
    cases slot with
    | mapValue i =>
      cases value with
      | map keyType valueType entries =>
        refine Iff.trans ?_ (findIdx_key typed.map_distinct names)
        simp [Step.asRead, Value.locate]
      | _ => exact names.elim
    | _ => exact names.elim

end Leads

/-! ## Runs of steps -/

section Runs

variable {value found : Value} {type : TypeRef} {steps : List Step} {place : List Slot}

theorem Leads.typed (leads : Leads ts value steps place found) (typed : HasType ts value type) :
    Typed ts type steps := by
  induction steps generalizing value type place with
  | nil => exact .nil
  | cons step steps ih =>
    cases place with
    | nil => exact leads.elim
    | cons slot place =>
      obtain ⟨names, part, child, leads⟩ := leads
      obtain ⟨next, first, fits⟩ := names.steps typed child
      exact .cons first (ih leads (child_hasType typed first fits child))

/-- With the keys as they are read the steps lead to the same place, unretyped, just if they are
kept. -/
theorem Leads.resolve_iff (leads : Leads ts value steps place found)
    (typed : HasType ts value type) :
    value.resolve ts (steps.map Step.asRead) = some (place, found) ∧ ¬ Retyped ts type steps ↔
      Kept ts type steps := by
  induction steps generalizing value type place with
  | nil =>
    cases place with
    | cons slot place => exact leads.elim
    | nil =>
      cases leads
      exact iff_of_true ⟨rfl, nofun⟩ .nil
  | cons step steps ih =>
    cases place with
    | nil => exact leads.elim
    | cons slot place =>
      obtain ⟨names, part, child, leads⟩ := leads
      obtain ⟨next, first, fits⟩ := names.steps typed child
      have later := ih leads (child_hasType typed first fits child)
      have locates := names.locate_asRead typed child
      rw [List.map_cons, Value.resolve]
      constructor
      · rintro ⟨resolves, regular⟩
        obtain ⟨slot', there, resolves⟩ := Option.bind_eq_some_iff.mp resolves
        obtain ⟨part', child', resolves⟩ := Option.bind_eq_some_iff.mp resolves
        obtain ⟨p, rest, same⟩ := Option.map_eq_some_iff.mp resolves
        cases same
        rw [child] at child'
        cases child'
        refine .cons first ?_ (locates.mp there) (later.mp ⟨rest, fun retyped =>
          regular (.later first retyped)⟩)
        rw [← Bool.not_eq_true]
        exact fun retyped => regular (.here retyped)
      · intro kept
        cases kept with
        | cons first' regular survives kept =>
          cases first.unique first'
          obtain ⟨rest, unretyped⟩ := later.mpr kept
          refine ⟨?_, fun retyped => ?_⟩
          · rw [locates.mpr survives, Option.bind_some, child, Option.bind_some, rest]
            rfl
          · cases retyped with
            | here retyped =>
              rw [regular] at retyped
              cases retyped
            | later first' retyped =>
              cases first.unique first'
              exact unretyped retyped

theorem traversed_eq (roundTrip : conv.RoundTrip) (typed : HasType ts value type)
    (steps_typed : Typed ts type steps) :
    (Retyped ts type steps → traversed ts conv .const type value steps = .ok none) ∧
      (¬ Retyped ts type steps → traversed ts conv .const type value steps =
          .ok (value.resolve ts (steps.map Step.asRead))) := by
  obtain ⟨components, builder, built, builds, added⟩ :=
    @build_ok ts conv type steps steps_typed (.ofRoot type) rfl
  have whole : builder.path.components = components := added
  have runs : ∀ found, traverseImpl ts conv .const ⟨type, [], value⟩ components = .ok found →
      traversed ts conv .const type value steps = .ok (located found) := by
    intro found run
    unfold traversed traverse
    rw [builds]
    show (traverseImpl ts conv .const ⟨type, [], value⟩ builder.path.components >>= _) = _
    rw [whole, run]
    rfl
  constructor
  · intro retyped
    exact runs none (traverseImpl_retyped roundTrip built retyped ⟨type, [], value⟩ rfl typed)
  · intro regular
    obtain ⟨found, run, same⟩ :=
      traverseImpl_regular roundTrip built regular ⟨type, [], value⟩ rfl typed
    rw [runs found run, same]
    simp

end Runs

/-! ## Mutable references -/

/-- There are no mutable references to the elements of sets and the keys of maps. -/
def Component.constOnly : Component → Bool
  | .setElement _ | .mapKey _ => true
  | _ => false

theorem follow_mutable (ref : Ref) {component : Component} (either : component.constOnly = false) :
    follow ts conv .mutable ref component = follow ts conv .const ref component := by
  cases component with
  | setElement _ | mapKey _ => cases either
  | _ => rfl

theorem traverseImpl_mutable (ref : Ref) (either : ∀ c ∈ components, c.constOnly = false) :
    traverseImpl ts conv .mutable ref components = traverseImpl ts conv .const ref components := by
  induction components generalizing ref with
  | nil => rfl
  | cons component components ih =>
    obtain ⟨first, rest⟩ := List.forall_mem_cons.mp either
    rw [traverseImpl, traverseImpl, follow_mutable ref first]
    cases follow ts conv .const ref component with
    | error e => rfl
    | ok found =>
      cases found with
      | none => rfl
      | some next => exact ih next rest

/-! ## What paths find -/

/-- The path for steps to a part of a value leads there just if the steps are kept: no enumerator
is looked up as an element of a set or as a key of a map, no key is a NaN, and every binary is an
empty buffer.  The path for steps that name no part leads nowhere just if it would not with its
binary keys read as base64.  Where both are possible a mutable reference is found as a const one
is. -/
theorem traverse_finds_iff (roundTrip : conv.RoundTrip) {value : Value} {type : TypeRef}
    (typed : HasType ts value type) :
    (∀ steps place found, Leads ts value steps place found →
      (traversed ts conv .const type value steps = .ok (some (place, found)) ↔
        Kept ts type steps)) ∧
    (∀ steps, Typed ts type steps → value.resolve ts steps = none →
      (traversed ts conv .const type value steps = .ok none ↔
        Retyped ts type steps ∨ value.resolve ts (steps.map Step.asRead) = none)) ∧
    ∀ path : Path, (∀ c ∈ path.components, c.constOnly = false) →
      traverse ts conv .mutable type value path = traverse ts conv .const type value path := by
  refine ⟨fun steps place found leads => ?_, fun steps stepsTyped _ => ?_, fun path either =>
    traverseImpl_mutable _ either⟩
  · obtain ⟨lost, kept⟩ := traversed_eq roundTrip typed (leads.typed typed)
    rw [← leads.resolve_iff typed]
    by_cases retyped : Retyped ts type steps
    · rw [lost retyped]
      exact iff_of_false nofun fun both => both.2 retyped
    · rw [kept retyped]
      exact ⟨fun same => ⟨Except.ok.inj same, retyped⟩, fun both => congrArg _ both.1⟩
  · obtain ⟨lost, kept⟩ := traversed_eq roundTrip typed stepsTyped
    by_cases retyped : Retyped ts type steps
    · exact iff_of_true (lost retyped) (.inl retyped)
    · rw [kept retyped]
      exact ⟨fun same => .inr (Except.ok.inj same), fun either =>
        congrArg _ (either.resolve_left retyped)⟩

/-! ## A set of enumerators -/

/-- Finite numbers by the decimal digits of their bits. -/
def decimalConversions : Conversions := ⟨fun _ x => digits x, fun _ s => parseDigits s⟩

theorem decimalConversions_roundTrip : decimalConversions.RoundTrip :=
  ⟨fun _ x _ ch member => isNumerical_of_isDigit (digits_all x ch member),
    fun _ x _ => parseDigits_digits x⟩

def noFields : TypeSystem := ⟨fun _ => [], fun _ => []⟩

def enumerators : Value := .set (.enum "E") [.primitive (.i32 1)]

theorem enumerators_hasType : HasType noFields enumerators (.set (.enum "E")) := by
  refine .set (fun e member => ?_) (List.pairwise_singleton _ _)
  cases List.mem_singleton.mp member
  exact .primitive trivial

theorem leads_enumerator :
    Leads noFields enumerators [.setElement (.i32 1)] [.setElement 0] (.primitive (.i32 1)) :=
  ⟨rfl, _, rfl, rfl⟩

theorem traverse_finds_at :
    traversed noFields decimalConversions .const (.set (.enum "E")) enumerators
        [.setElement (.i32 1)] = .ok (some ([.setElement 0], .primitive (.i32 1))) ↔
      Kept noFields (.set (.enum "E")) [.setElement (.i32 1)] :=
  (traverse_finds_iff decimalConversions_roundTrip enumerators_hasType).1 _ _ _ leads_enumerator

/-- The element of a set of enumerators is not found. -/
theorem not_traverse_finds :
    ¬ ∀ (conv : Conversions), conv.RoundTrip → ∀ ts value type, HasType ts value type →
      ∀ steps place found, Leads ts value steps place found →
        traversed ts conv .const type value steps = .ok (some (place, found)) := by
  intro finds
  have found := finds decimalConversions decimalConversions_roundTrip noFields enumerators _
    enumerators_hasType _ _ _ leads_enumerator
  have nothing : traversed noFields decimalConversions .const (.set (.enum "E")) enumerators
      [.setElement (.i32 1)] = .ok none := rfl
  rw [nothing] at found
  cases found

end FbThrift.Dynamic.Traversal
