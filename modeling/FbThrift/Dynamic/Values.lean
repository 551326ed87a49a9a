import FbThrift.Dynamic.Serialization

/-!
# Well-typed dynamic values

`HasType` says which data a `DynamicValue` of a type can hold.  `reread` is what is left of a
datum after a round trip: the content is the same, a list and a binary have storage and an empty
set or map has none.  A datum that is `AsRead` has that form already.
-/

namespace FbThrift.Dynamic

/-- No element of a hash set is equal to an earlier one. -/
def Distinct (elements : List Datum) : Prop :=
  elements.Pairwise fun a b => b.equals a = false

section Typing

variable (ts : TypeSystem) (stack : Nat)

mutual

/-- The datum is one of a value of the type.  Every struct value comes from `create`, so its
defaults exist, and a field without a value is optional. -/
def HasType : Datum → TypeRef → Prop
  | .bool _, .bool => True
  | .byte _, .byte => True
  | .i16 _, .i16 => True
  | .i32 _, .i32 => True
  | .i32 _, .enum _ => True
  | .i64 _, .i64 => True
  | .string _, .string => True
  | .binary _, .binary => True
  | .emptyList t, .list type => t = type
  | .list t es, .list type => t = type ∧ ElementsHaveType es type
  | .emptySet t, .set type => t = type
  | .set t es, .set type => t = type ∧ ElementsHaveType es type ∧ Distinct es
  | .emptyMap k v, .map key value => k = key ∧ v = value
  | .map k v es, .map key value =>
    (k = key ∧ v = value) ∧ EntriesHaveType es key value ∧ Distinct (es.map Prod.fst)
  | .struct uri values, .struct type =>
    uri = type ∧ (∃ created, create ts stack (ts.structNode type) = .ok created) ∧
      FieldsHaveType (ts.structNode type).fields values
  | .emptyUnion uri, .union type => uri = type
  | .union uri active value, .union type =>
    uri = type ∧ ∃ field, (ts.unionNode type).fields[active]? = some field ∧
      HasType value field.type
  | _, _ => False

def ElementsHaveType : List Datum → TypeRef → Prop
  | [], _ => True
  | e :: es, type => HasType e type ∧ ElementsHaveType es type

def EntriesHaveType : List (Datum × Datum) → TypeRef → TypeRef → Prop
  | [], _, _ => True
  | (k, v) :: es, key, value => (HasType k key ∧ HasType v value) ∧ EntriesHaveType es key value

def FieldsHaveType : List FieldDefinition → List Datum → Prop
  | [], [] => True
  | field :: fields, value :: values =>
    (field.presence = .optional ∧ value = .null ∨ HasType value field.type) ∧
      FieldsHaveType fields values
  | _, _ => False

end

end Typing

/-! ## Parts of a datum -/

mutual

/-- A property holds of a datum and of all that it contains. -/
def Datum.All (P : Datum → Prop) : Datum → Prop
  | .list t es => P (.list t es) ∧ AllElements P es
  | .set t es => P (.set t es) ∧ AllElements P es
  | .map k v es => P (.map k v es) ∧ AllEntries P es
  | .struct uri values => P (.struct uri values) ∧ AllElements P values
  | .union uri active value => P (.union uri active value) ∧ value.All P
  | d => P d

def AllElements (P : Datum → Prop) : List Datum → Prop
  | [] => True
  | e :: es => e.All P ∧ AllElements P es

def AllEntries (P : Datum → Prop) : List (Datum × Datum) → Prop
  | [] => True
  | (k, v) :: es => (k.All P ∧ v.All P) ∧ AllEntries P es

end

/-- Sizes fit in the 31 bits that they have on the wire. -/
def Datum.Fits : Datum → Prop
  | .string s => s.length < 2 ^ 31
  | .binary (some s) => s.length < 2 ^ 31
  | .list _ es => es.length < 2 ^ 31
  | .set _ es => es.length < 2 ^ 31
  | .map _ _ es => es.length < 2 ^ 31
  | _ => True

/-- Storage is there for a list or a binary, and not for an empty set or map. -/
def Datum.AsRead : Datum → Prop
  | .binary none => False
  | .emptyList _ => False
  | .set _ [] => False
  | .map _ _ [] => False
  | _ => True

mutual

/-- Levels of nested containers. -/
def Datum.nest : Datum → Nat
  | .emptyList _ => 1
  | .list _ es => nestElements es + 1
  | .emptySet _ => 1
  | .set _ es => nestElements es + 1
  | .emptyMap _ _ => 1
  | .map _ _ es => nestEntries es + 1
  | .struct _ values => nestElements values + 1
  | .emptyUnion _ => 1
  | .union _ _ value => value.nest + 1
  | _ => 0

def nestElements : List Datum → Nat
  | [] => 0
  | e :: es => max e.nest (nestElements es)

def nestEntries : List (Datum × Datum) → Nat
  | [] => 0
  | (k, v) :: es => max (max k.nest v.nest) (nestEntries es)

end

mutual

/-- The datum that is read where this one was written. -/
def Datum.reread : Datum → Datum
  | .binary none => .binary (some [])
  | .emptyList t => .list t []
  | .list t es => .list t (rereadElements es)
  | .set t es => makeSet t (rereadElements es)
  | .map k v es => makeMap k v (rereadEntries es)
  | .struct uri values => .struct uri (rereadElements values)
  | .union uri active value => .union uri active value.reread
  | d => d

def rereadElements : List Datum → List Datum
  | [] => []
  | e :: es => e.reread :: rereadElements es

def rereadEntries : List (Datum × Datum) → List (Datum × Datum)
  | [] => []
  | (k, v) :: es => (k.reread, v.reread) :: rereadEntries es

end

/-! ## Hash containers without duplicates -/

theorem foldl_setInsert {es acc : List Datum} (distinct : Distinct (acc ++ es)) :
    es.foldl setInsert acc = acc ++ es := by
  induction es generalizing acc with
  | nil => simp
  | cons e es ih =>
    have new : acc.any e.equals = false := by
      rw [List.any_eq_false]
      intro a member
      have pair := (List.pairwise_append.mp distinct).2.2 a member e (by simp)
      simp [pair]
    have grown : acc ++ e :: es = acc ++ [e] ++ es := by simp
    rw [List.foldl_cons, setInsert, new, if_neg (by simp), grown]
    exact ih (grown ▸ distinct)

theorem foldl_mapInsert {es acc : List (Datum × Datum)}
    (distinct : Distinct ((acc ++ es).map Prod.fst)) :
    es.foldl (fun es e => mapInsert es e.1 e.2) acc = acc ++ es := by
  induction es generalizing acc with
  | nil => simp
  | cons e es ih =>
    have new : acc.findIdx? (fun a => e.1.equals a.1) = none := by
      rw [List.findIdx?_eq_none_iff]
      intro a member
      rw [List.map_append] at distinct
      exact (List.pairwise_append.mp distinct).2.2 a.1 (List.mem_map_of_mem member) e.1 (by simp)
    have grown : acc ++ e :: es = acc ++ [e] ++ es := by simp
    rw [List.foldl_cons, mapInsert, new, grown]
    exact ih (grown ▸ distinct)

theorem makeSet_of_distinct {t : TypeRef} {es : List Datum} (distinct : Distinct es)
    (some : es ≠ []) : makeSet t es = .set t es := by
  cases es with
  | nil => exact (some rfl).elim
  | cons e es =>
    have inserted : (e :: es).foldl setInsert [] = e :: es := foldl_setInsert distinct
    simp only [makeSet, inserted]

theorem makeMap_of_distinct {k v : TypeRef} {es : List (Datum × Datum)}
    (distinct : Distinct (es.map Prod.fst)) (some : es ≠ []) : makeMap k v es = .map k v es := by
  cases es with
  | nil => exact (some rfl).elim
  | cons e es =>
    have inserted : (e :: es).foldl (fun es e => mapInsert es e.1 e.2) [] = e :: es :=
      foldl_mapInsert distinct
    simp only [makeMap, inserted]

section Stable

variable {ts : TypeSystem} {stack : Nat}

mutual

theorem Datum.reread_eq_self (d : Datum) (type : TypeRef) (typed : HasType ts stack d type)
    (asRead : d.All Datum.AsRead) : d.reread = d := by
  cases d with
  | binary data =>
    cases data with
    | none => exact asRead.elim
    | some s => rfl
  | emptyList t => exact asRead.elim
  | list t es =>
    cases type <;> first | exact typed.elim | skip
    exact congrArg (Datum.list t) (rereadElements_eq_self es _ typed.2 asRead.2)
  | set t es =>
    cases type <;> first | exact typed.elim | skip
    have nonempty : es ≠ [] := by
      rintro rfl
      exact asRead.1
    show makeSet t (rereadElements es) = _
    rw [rereadElements_eq_self es _ typed.2.1 asRead.2, makeSet_of_distinct typed.2.2 nonempty]
  | map k v es =>
    cases type <;> first | exact typed.elim | skip
    have nonempty : es ≠ [] := by
      rintro rfl
      exact asRead.1
    show makeMap k v (rereadEntries es) = _
    rw [rereadEntries_eq_self es _ _ typed.2.1 asRead.2, makeMap_of_distinct typed.2.2 nonempty]
  | struct uri values =>
    cases type <;> first | exact typed.elim | skip
    exact congrArg (Datum.struct uri) (rereadFields_eq_self values _ typed.2.2 asRead.2)
  | union uri active value =>
    cases type <;> first | exact typed.elim | skip
    obtain ⟨_, field, _, inner⟩ := typed
    exact congrArg (Datum.union uri active) (Datum.reread_eq_self value _ inner asRead.2)
  | _ => rfl
termination_by structural d

theorem rereadElements_eq_self (es : List Datum) (type : TypeRef)
    (typed : ElementsHaveType ts stack es type) (asRead : AllElements Datum.AsRead es) :
    rereadElements es = es := by
  cases es with
  | nil => rfl
  | cons e es =>
    exact congrArg₂ List.cons (Datum.reread_eq_self e _ typed.1 asRead.1)
      (rereadElements_eq_self es _ typed.2 asRead.2)
termination_by structural es

theorem rereadEntries_eq_self (es : List (Datum × Datum)) (key value : TypeRef)
    (typed : EntriesHaveType ts stack es key value) (asRead : AllEntries Datum.AsRead es) :
    rereadEntries es = es := by
  cases es with
  | nil => rfl
  | cons e es =>
    obtain ⟨k, v⟩ := e
    have first := Datum.reread_eq_self k _ typed.1.1 asRead.1.1
    have second := Datum.reread_eq_self v _ typed.1.2 asRead.1.2
    exact congrArg₂ List.cons (congrArg₂ Prod.mk first second)
      (rereadEntries_eq_self es _ _ typed.2 asRead.2)
termination_by structural es

theorem rereadFields_eq_self (values : List Datum) (fields : List FieldDefinition)
    (typed : FieldsHaveType ts stack fields values) (asRead : AllElements Datum.AsRead values) :
    rereadElements values = values := by
  cases values with
  | nil => rfl
  | cons value values =>
    cases fields with
    | nil => exact typed.elim
    | cons field fields =>
      have rest := rereadFields_eq_self values fields typed.2 asRead.2
      rcases typed.1 with ⟨_, rfl⟩ | inner
      · exact congrArg (List.cons Datum.null) rest
      · exact congrArg₂ List.cons (Datum.reread_eq_self value _ inner asRead.1) rest
termination_by structural values

end

mutual

theorem Datum.equals_self (d : Datum) (type : TypeRef) (typed : HasType ts stack d type) :
    d.equals d = true := by
  cases d with
  | binary data => cases data <;> simp [Datum.equals]
  | list t es =>
    cases type <;> first | exact typed.elim | skip
    simp [Datum.equals, elementsEqual_self es _ typed.2]
  | set t es =>
    cases type <;> first | exact typed.elim | skip
    simp [Datum.equals, allFound_self es _ es typed.2.1 fun _ member => member]
  | map k v es =>
    cases type <;> first | exact typed.elim | skip
    have found := allEntriesFound_self es _ _ [] typed.2.1 typed.2.2
    rw [List.nil_append] at found
    simp [Datum.equals, found]
  | struct uri values =>
    cases type <;> first | exact typed.elim | skip
    simp [Datum.equals, fieldsEqual_self values _ typed.2.2]
  | union uri active value =>
    cases type <;> first | exact typed.elim | skip
    obtain ⟨_, field, _, inner⟩ := typed
    simp [Datum.equals, Datum.equals_self value _ inner]
  | _ => simp [Datum.equals]
termination_by structural d

theorem elementsEqual_self (es : List Datum) (type : TypeRef)
    (typed : ElementsHaveType ts stack es type) : elementsEqual es es = true := by
  cases es with
  | nil => rfl
  | cons e es =>
    simp [elementsEqual, Datum.equals_self e _ typed.1, elementsEqual_self es _ typed.2]
termination_by structural es

theorem allFound_self (es : List Datum) (type : TypeRef) (all : List Datum)
    (typed : ElementsHaveType ts stack es type) (within : ∀ e ∈ es, e ∈ all) :
    allFound es all = true := by
  cases es with
  | nil => rfl
  | cons e es =>
    have rest := allFound_self es _ all typed.2 fun e' member =>
      within e' (List.mem_cons_of_mem _ member)
    have found : all.any e.equals = true :=
      List.any_eq_true.mpr ⟨e, within e (by simp), Datum.equals_self e _ typed.1⟩
    rw [allFound, found, rest]
    rfl
termination_by structural es

theorem allEntriesFound_self (es : List (Datum × Datum)) (key value : TypeRef)
    (before : List (Datum × Datum)) (typed : EntriesHaveType ts stack es key value)
    (distinct : Distinct ((before ++ es).map Prod.fst)) :
    allEntriesFound es (before ++ es) = true := by
  cases es with
  | nil => rfl
  | cons e es =>
    obtain ⟨k, v⟩ := e
    have grown : before ++ (k, v) :: es = before ++ [(k, v)] ++ es := by simp
    have rest := allEntriesFound_self es _ _ (before ++ [(k, v)]) typed.2 (grown ▸ distinct)
    have earlier : before.find? (fun e => k.equals e.1) = none := by
      rw [List.find?_eq_none]
      intro e member
      rw [List.map_append] at distinct
      have pair := (List.pairwise_append.mp distinct).2.2 e.1 (List.mem_map_of_mem member) k
        (by simp)
      simp [pair]
    have found : (before ++ (k, v) :: es).find? (fun e => k.equals e.1) = some (k, v) := by
      rw [List.find?_append, earlier, List.find?_cons, Datum.equals_self k _ typed.1.1]
      rfl
    rw [← grown] at rest
    simp [allEntriesFound, found, Datum.equals_self v _ typed.1.2, rest]
termination_by structural es

theorem fieldsEqual_self (values : List Datum) (fields : List FieldDefinition)
    (typed : FieldsHaveType ts stack fields values) : elementsEqual values values = true := by
  cases values with
  | nil => rfl
  | cons value values =>
    cases fields with
    | nil => exact typed.elim
    | cons field fields =>
      have rest := fieldsEqual_self values fields typed.2
      rcases typed.1 with ⟨_, rfl⟩ | inner
      · simp [elementsEqual, Datum.equals, rest]
      · simp [elementsEqual, Datum.equals_self value _ inner, rest]
termination_by structural values

end

end Stable

end FbThrift.Dynamic
