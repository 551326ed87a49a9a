import FbThrift.Compiler.ConstValue

/-!
# What duplicate keys are reported

Constants of a type denote its values, many constants one value: the elements of a set are written
in any order and any number of times, a boolean as an integer, a floating point number as an
integer, an empty container as a list or as a map, a struct with a field that it has anyway.  A
value is given by the one constant that the constants denoting it are brought to.

The search compares spellings.  It reports the keys that denote what an earlier key denotes exactly
where such keys are spelled alike, and their values are when they denote the same.
-/

namespace FbThrift

open ComparedMap

/-- The types of constants, behind their aliases. -/
inductive ConstType where
  | bool
  | byte
  | i16
  | i32
  | i64
  | float
  | double
  | string
  | binary
  | enum
  | list (element : ConstType)
  | set (element : ConstType)
  | map (key value : ConstType)
  | structured (name : Bytes)

/-- A floating point format: its bounds and the numbers that others are converted to. -/
structure FloatFormat (D : Type) where
  lowest : D
  max : D
  ofInteger : Int → D
  toInteger : D → Int
  round : D → D

/-- A field of a struct or of a union, and what it has when it is not mentioned. -/
structure ConstField (D : Type) where
  name : Bytes
  type : ConstType
  initial : Option (ConstValue D)

structure ConstStruct (D : Type) where
  isUnion : Bool
  fields : List (ConstField D)

/-- The declarations that constants are checked against. -/
structure ConstSchema (D : Type) where
  float : FloatFormat D
  double : FloatFormat D
  structured : Bytes → ConstStruct D

namespace ConstValue

variable {D : Type} [LinearOrder D] (schema : ConstSchema D)

def ConstStruct.getFieldByName (s : ConstStruct D) (name : Bytes) : Option (ConstField D) :=
  s.fields.find? fun f => f.name = name

/-! ## Well-typed constants -/

/-- The name of a field as the key of a struct has it. -/
def fieldName : ConstValue D → Option Bytes
  | .string name => some name
  | .identifier name => some name
  | _ => none

def checkInt (bits : Nat) : ConstValue D → Bool
  | .integer value => -2 ^ (bits - 1) ≤ value && value < 2 ^ (bits - 1)
  | _ => false

def checkFloat (format : FloatFormat D) : ConstValue D → Bool
  | .double value => format.lowest ≤ value && value ≤ format.max
  | .integer value => value = format.toInteger (format.ofInteger value)
  | _ => false

mutual

/-- Whether a constant is compatible with a type. -/
def check (type : ConstType) (value : ConstValue D) : Bool :=
  match type with
  | .string | .binary => value.kind = .string
  | .bool => value.kind = .bool || value.kind = .integer
  | .byte => checkInt 8 value
  | .i16 => checkInt 16 value
  | .i32 => checkInt 32 value
  | .i64 => checkInt 64 value
  | .float => checkFloat schema.float value
  | .double => checkFloat schema.double value
  | .enum => value.kind = .integer
  | .structured name =>
    match value with
    | .map entries =>
      !(1 < entries.length && (schema.structured name).isUnion) && checkFields name entries
    | _ => false
  | .map key type =>
    match value with
    | .list elements => elements.isEmpty
    | .map entries => checkEntries key type entries
    | _ => false
  | .list type | .set type =>
    match value with
    | .map entries => entries.isEmpty
    | .list elements => checkElements type elements
    | _ => false
termination_by structural value

def checkFields (name : Bytes) : List (ConstValue D × ConstValue D) → Bool
  | [] => true
  | e :: entries =>
    (match (fieldName e.1).bind (ConstStruct.getFieldByName (schema.structured name)) with
      | some field => check field.type e.2
      | none => false) && checkFields name entries
termination_by structural entries => entries

def checkEntries (key value : ConstType) : List (ConstValue D × ConstValue D) → Bool
  | [] => true
  | e :: entries => check key e.1 && check value e.2 && checkEntries key value entries
termination_by structural entries => entries

def checkElements (type : ConstType) : List (ConstValue D) → Bool
  | [] => true
  | e :: elements => check type e && checkElements type elements
termination_by structural elements => elements

end

/-! ## What a constant denotes -/

/-- The members of a set, in order and once each. -/
def setOf (members : List (ConstValue D)) : List (ConstValue D) :=
  (ofList ltValue (members.map fun v => (v, ()))).map Prod.fst

def denoteFloat (format : FloatFormat D) : ConstValue D → ConstValue D
  | .double value => .double (format.round value)
  | .integer value => .double (format.ofInteger value)
  | value => value

mutual

/-- The constant that stands for the value of a constant of a type. -/
def denote (type : ConstType) (value : ConstValue D) : ConstValue D :=
  match type with
  | .bool =>
    match value with
    | .integer value => .bool (value ≠ 0)
    | value => value
  | .float => denoteFloat schema.float value
  | .double => denoteFloat schema.double value
  | .list type =>
    match value with
    | .list elements => .list (denoteElements type elements)
    | .map _ => .list []
    | value => value
  | .set type =>
    match value with
    | .list elements => .list (setOf (denoteElements type elements))
    | .map _ => .list []
    | value => value
  | .map key type =>
    match value with
    | .map entries => .map (ofList ltValue (denoteEntries key type entries))
    | .list _ => .map []
    | value => value
  | .structured name =>
    match value with
    | .map entries =>
      .map ((schema.structured name).fields.filterMap fun f =>
        (((denoteFields name entries).lookup f.name).or f.initial).map fun v => (.string f.name, v))
    | value => value
  | _ => value
termination_by structural value

def denoteElements (type : ConstType) : List (ConstValue D) → List (ConstValue D)
  | [] => []
  | e :: elements => denote type e :: denoteElements type elements
termination_by structural elements => elements

def denoteEntries (key value : ConstType) :
    List (ConstValue D × ConstValue D) → List (ConstValue D × ConstValue D)
  | [] => []
  | e :: entries => (denote key e.1, denote value e.2) :: denoteEntries key value entries
termination_by structural entries => entries

/-- The fields that are mentioned, each with its value. -/
def denoteFields (name : Bytes) : List (ConstValue D × ConstValue D) → List (Bytes × ConstValue D)
  | [] => []
  | e :: entries =>
    match (fieldName e.1).bind (ConstStruct.getFieldByName (schema.structured name)) with
    | some field => (field.name, denote field.type e.2) :: denoteFields name entries
    | none => denoteFields name entries
termination_by structural entries => entries

end

/-- Constants that denote the same value of a type. -/
def Same (type : ConstType) (a b : ConstValue D) : Prop :=
  denote schema type a = denote schema type b

instance (type : ConstType) : DecidableRel (Same schema type) := fun a b =>
  inferInstanceAs (Decidable (denote schema type a = denote schema type b))

theorem same_self (type : ConstType) (a : ConstValue D) : Same schema type a a := rfl

variable {schema}

theorem Same.symm {type : ConstType} {a b : ConstValue D} (same : Same schema type a b) :
    Same schema type b a := Eq.symm same

theorem denoteElements_eq (type : ConstType) (elements : List (ConstValue D)) :
    denoteElements schema type elements = elements.map (denote schema type) := by
  induction elements with
  | nil => rfl
  | cons e elements ih => exact congrArg _ ih

theorem denoteEntries_eq (key value : ConstType) (entries : List (ConstValue D × ConstValue D)) :
    denoteEntries schema key value entries =
      entries.map fun e => (denote schema key e.1, denote schema value e.2) := by
  induction entries with
  | nil => rfl
  | cons e entries ih => exact congrArg _ ih

theorem same_list_iff {type : ConstType} {as bs : List (ConstValue D)} :
    Same schema (.list type) (.list as) (.list bs) ↔
      as.map (denote schema type) = bs.map (denote schema type) := by
  rw [← denoteElements_eq, ← denoteElements_eq]
  exact list.injEq _ _ ▸ Iff.rfl

theorem ite_some_none_eq_ite_some_none {p q : Prop} [Decidable p] [Decidable q] :
    ((if p then some () else none) = if q then some () else none) ↔ (p ↔ q) := by
  by_cases first : p <;> by_cases second : q <;> simp [first, second]

theorem storedFirst_unit (v : ConstValue D) (members : List (ConstValue D)) :
    storedFirst (· = ·) v (members.map fun v => (v, ())) =
      if v ∈ members then some () else none := by
  induction members with
  | nil => rfl
  | cons w members ih =>
    rw [List.map_cons, storedFirst, List.find?_cons]
    by_cases same : w = v
    · simp [same]
    · rw [decide_eq_false same]
      exact ih.trans (by simp [Ne.symm same])

theorem same_set_iff {type : ConstType} {as bs : List (ConstValue D)} :
    Same schema (.set type) (.list as) (.list bs) ↔
      ∀ v, v ∈ as.map (denote schema type) ↔ v ∈ bs.map (denote schema type) := by
  have spelled : Same schema (.set type) (.list as) (.list bs) ↔
      setOf (denoteElements schema type as) = setOf (denoteElements schema type bs) :=
    list.injEq _ _ ▸ Iff.rfl
  have tagged : Function.Injective (Prod.fst : ConstValue D × Unit → ConstValue D) :=
    fun _ _ same => Prod.ext same rfl
  rw [spelled, setOf, setOf, (List.map_injective_iff.mpr tagged).eq_iff,
    ofList_eq_iff strictTotal_ltValue, denoteElements_eq, denoteElements_eq]
  refine forall_congr' fun v => ?_
  rw [storedFirst_unit, storedFirst_unit, ite_some_none_eq_ite_some_none]

theorem same_map_iff {key value : ConstType} {as bs : List (ConstValue D × ConstValue D)} :
    Same schema (.map key value) (.map as) (.map bs) ↔ ∀ k, storedFirst (· = ·) k
          (as.map fun e => (denote schema key e.1, denote schema value e.2)) =
        storedFirst (· = ·) k
          (bs.map fun e => (denote schema key e.1, denote schema value e.2)) := by
  have spelled : Same schema (.map key value) (.map as) (.map bs) ↔
      ofList ltValue (denoteEntries schema key value as) =
        ofList ltValue (denoteEntries schema key value bs) := map.injEq _ _ ▸ Iff.rfl
  rw [spelled, ofList_eq_iff strictTotal_ltValue, denoteEntries_eq, denoteEntries_eq]

/-! ## Reports -/

section Reports

variable {K V : Type} {same : K → K → Prop} [DecidableRel same] {level level' : V → V → DiagnosticLevel}
  {es : List (K × V)} {i : Nat} {l : DiagnosticLevel} {k : K} {v : V}

/-- The entry at a position is to be reported at a level: an earlier key is the same, and the
level is what its value and the value under the first such key give. -/
def Reports (same : K → K → Prop) [DecidableRel same] (level : V → V → DiagnosticLevel)
    (es : List (K × V)) (i : Nat) (l : DiagnosticLevel) : Prop :=
  ∃ k v stored, es[i]? = some (k, v) ∧ storedFirst same k (es.take i) = some stored ∧
    l = level v stored

/-- Keys that are the same as an earlier key are equal to it. -/
def KeysAlike (same : K → K → Prop) (es : List (K × V)) : Prop :=
  es.Pairwise fun e e' => same e.1 e'.1 → e.1 = e'.1

/-- Where a key is repeated, its value gives one level and the other with the value under its
first occurrence. -/
def LevelsAlike [DecidableEq K] (level level' : V → V → DiagnosticLevel) (es : List (K × V)) :
    Prop :=
  ∀ i k v stored, es[i]? = some (k, v) → storedFirst (· = ·) k (es.take i) = some stored →
    level v stored = level' v stored

theorem reports_iff (there : es[i]? = some (k, v)) : Reports same level es i l ↔
      ∃ stored, storedFirst same k (es.take i) = some stored ∧ l = level v stored := by
  constructor
  · rintro ⟨k', v', stored, found, rest⟩
    obtain ⟨rfl, rfl⟩ := Prod.mk.inj (Option.some.inj (there.symm.trans found))
    exact ⟨stored, rest⟩
  · rintro ⟨stored, rest⟩
    exact ⟨k, v, stored, there, rest⟩

theorem mem_take_iff {e : K × V} : e ∈ es.take i ↔ ∃ j < i, es[j]? = some e := by
  rw [List.mem_iff_getElem?]
  refine exists_congr fun j => ?_
  rw [List.getElem?_take]
  by_cases early : j < i <;> simp [early]

/-- Something is stored under the keys that are the same as an earlier one. -/
theorem isSome_storedFirst_take :
    (storedFirst same k (es.take i)).isSome ↔ ∃ j < i, ∃ e, es[j]? = some e ∧ same e.1 k := by
  rw [storedFirst, Option.isSome_map, List.find?_isSome]
  constructor
  · rintro ⟨e, member, alike⟩
    obtain ⟨j, early, there⟩ := mem_take_iff.mp member
    exact ⟨j, early, e, there, of_decide_eq_true alike⟩
  · rintro ⟨j, early, e, there, alike⟩
    exact ⟨e, mem_take_iff.mpr ⟨j, early, there⟩, decide_eq_true alike⟩

omit [DecidableRel same] in
theorem KeysAlike.eq_of_lt (alike : KeysAlike same es) {j : Nat} {e e' : K × V} (early : j < i)
    (here : es[j]? = some e) (there : es[i]? = some e') : same e.1 e'.1 → e.1 = e'.1 := by
  obtain ⟨inside, rfl⟩ := List.getElem?_eq_some_iff.mp here
  obtain ⟨inside', rfl⟩ := List.getElem?_eq_some_iff.mp there
  exact List.pairwise_iff_getElem.mp alike j i inside inside' early

variable [DecidableEq K]

theorem storedFirst_congr (alike : ∀ e ∈ es, same e.1 k ↔ e.1 = k) :
    storedFirst same k es = storedFirst (· = ·) k es := by
  have first : es.find? (fun e => same e.1 k) = es.find? (fun e => e.1 = k) :=
    List.find?_congr fun e member => decide_eq_decide.mpr (alike e member)
  rw [storedFirst, storedFirst, first]

theorem KeysAlike.storedFirst_take (alike : KeysAlike same es) (self : ∀ k, same k k)
    (there : es[i]? = some (k, v)) :
    storedFirst same k (es.take i) = storedFirst (· = ·) k (es.take i) := by
  refine storedFirst_congr fun e member => ?_
  obtain ⟨j, early, here⟩ := mem_take_iff.mp member
  exact ⟨alike.eq_of_lt early here there, fun equal => equal ▸ self e.1⟩

/-- Where each key that is the same as an earlier one is equal to an earlier one, keys that are
the same are equal: the later of two spellings of one key would have to stand after itself. -/
theorem keysAlike_of_later (symm : ∀ {k k'}, same k k' → same k' k)
    (later : ∀ i k v, es[i]? = some (k, v) → (storedFirst same k (es.take i)).isSome →
      (storedFirst (· = ·) k (es.take i)).isSome) : KeysAlike same es := by
  have alike : ∀ (i j : Nat) (e e' : K × V), j < i → es[j]? = some e → es[i]? = some e' →
      same e.1 e'.1 → e.1 = e'.1 := by
    intro i
    induction i using Nat.strong_induction_on with
    | _ i ih =>
      intro j e e' early here there alike
      have known := isSome_storedFirst_take.mpr ⟨j, early, e, here, alike⟩
      obtain ⟨j', early', e'', here', equal⟩ :=
        isSome_storedFirst_take.mp (later i e'.1 e'.2 there known)
      rw [← equal] at alike ⊢
      rcases lt_trichotomy j j' with less | rfl | greater
      · exact ih j' early' j e e'' less here here' alike
      · rw [Option.some.inj (here.symm.trans here')]
      · exact (ih j early j' e'' e greater here' here (symm alike)).symm
  refine List.pairwise_iff_getElem.mpr fun j i inside inside' early => ?_
  exact alike i j _ _ early (List.getElem?_eq_getElem inside) (List.getElem?_eq_getElem inside')

/-- What has an equal key is reported exactly as what has the same key, when keys that are the
same are equal and the levels agree. -/
theorem forall_reports_iff (self : ∀ k, same k k) (symm : ∀ {k k'}, same k k' → same k' k) :
    (∀ i l, Reports (· = ·) level es i l ↔ Reports same level' es i l) ↔
      KeysAlike same es ∧ LevelsAlike level level' es := by
  constructor
  · intro agree
    have alike : KeysAlike same es := by
      refine keysAlike_of_later symm fun i k v there known => ?_
      obtain ⟨stored, found⟩ := Option.isSome_iff_exists.mp known
      obtain ⟨_, found', -⟩ := (reports_iff there).mp
        ((agree i _).mpr ((reports_iff there).mpr ⟨stored, found, rfl⟩))
      exact Option.isSome_iff_exists.mpr ⟨_, found'⟩
    refine ⟨alike, fun i k v stored there found => ?_⟩
    have found' := (alike.storedFirst_take self there).trans found
    obtain ⟨stored', again, equal⟩ := (reports_iff there).mp
      ((agree i _).mpr ((reports_iff there).mpr ⟨stored, found', rfl⟩))
    cases found.symm.trans again
    exact equal.symm
  · rintro ⟨alike, levels⟩ i l
    constructor
    · rintro ⟨k, v, stored, there, found, rfl⟩
      exact ⟨k, v, stored, there, (alike.storedFirst_take self there).trans found,
        levels i k v stored there found⟩
    · rintro ⟨k, v, stored, there, found, rfl⟩
      have found' := (alike.storedFirst_take self there).symm.trans found
      exact ⟨k, v, stored, there, found', (levels i k v stored there found').symm⟩

end Reports

/-! ## The search -/

section Search

variable {V : Type} {level : V → V → DiagnosticLevel} {es : List (ConstValue D × V)}

/-- A search reports the entries after those that were seen whose keys are spelled like one
that was seen before them. -/
theorem mem_duplicates_from (seen rest : List (ConstValue D × V)) (i : Nat) (l : DiagnosticLevel) :
    (i, l) ∈ duplicates level (ofList ltValue seen) seen.length rest ↔
      seen.length ≤ i ∧ Reports (· = ·) level (seen ++ rest) i l := by
  induction rest generalizing seen with
  | nil =>
    refine iff_of_false List.not_mem_nil ?_
    rintro ⟨late, k, v, stored, there, -⟩
    rw [List.append_nil, List.getElem?_eq_none late] at there
    cases there
  | cons e rest ih =>
    obtain ⟨k, v⟩ := e
    have step : ofList ltValue (seen ++ [(k, v)]) = emplace ltValue k v (ofList ltValue seen) := by
      rw [ofList, List.foldl_append]
      rfl
    have later := ih (seen ++ [(k, v)])
    rw [List.length_append, List.length_singleton, List.append_assoc, List.singleton_append,
      step] at later
    have there : (seen ++ (k, v) :: rest)[seen.length]? = some (k, v) := by simp
    have here : Reports (· = ·) level (seen ++ (k, v) :: rest) seen.length l ↔ _ :=
      reports_iff there
    rw [List.take_left, ← find_ofList strictTotal_ltValue] at here
    have split : seen.length ≤ i ↔ i = seen.length ∨ seen.length + 1 ≤ i := by omega
    rw [split, or_and_right, ← later, duplicates]
    cases known : find ltValue k (ofList ltValue seen) with
    | some stored =>
      rw [known] at here
      rw [emplace_of_find known, List.mem_cons, Prod.mk.injEq]
      refine or_congr_left (and_congr_right fun now => ?_)
      rw [now, here]
      simp
    | none =>
      rw [known] at here
      refine (or_iff_right ?_).symm
      rintro ⟨rfl, reported⟩
      obtain ⟨stored, found, -⟩ := here.mp reported
      cases found

theorem mem_duplicates {i : Nat} {l : DiagnosticLevel} :
    (i, l) ∈ duplicates level [] 0 es ↔ Reports (· = ·) level es i l :=
  (mem_duplicates_from [] es i l).trans (and_iff_right (Nat.zero_le i))

end Search

/-! ## Literals -/

/-- A literal that is searched for duplicate keys, with the types it is declared with. -/
inductive Literal (D : Type) where
  | map (key value : ConstType) (mapKvs : List (ConstValue D × ConstValue D))
  | set (element : ConstType) (setKeys : List (ConstValue D))

variable (schema)

def Literal.wellTyped : Literal D → Bool
  | .map key value mapKvs => checkEntries schema key value mapKvs
  | .set element setKeys => checkElements schema element setKeys

/-- The level that the values of two keys call for that are the same. -/
def levelOf (type : ConstType) (value stored : ConstValue D) : DiagnosticLevel :=
  if Same schema type value stored then kDuplicateLevel else kMismatchLevel

/-- The comparison is a strict total order, and a search of the literal reports exactly the keys
that denote what an earlier key denotes, as errors when their values differ. -/
def Literal.Exact : Literal D → Prop
  | .map key value mapKvs =>
    StrictTotal (Less : ConstValue D → ConstValue D → Prop) ∧
      ∀ i l, (i, l) ∈ findDuplicateKeysInMap mapKvs ↔
        Reports (Same schema key) (levelOf schema value) mapKvs i l
  | .set element setKeys =>
    StrictTotal (Less : ConstValue D → ConstValue D → Prop) ∧
      ∀ i l, (i, l) ∈ findDuplicateKeysInSet setKeys ↔
        Reports (Same schema element) (fun _ _ => kDuplicateLevel)
          (setKeys.map fun k => (k, ())) i l

/-- Keys that denote one value are spelled alike, and so are the value of a repeated key and the
one under its first occurrence when they denote one value. -/
def Literal.SpelledAlike : Literal D → Prop
  | .map key value mapKvs =>
    mapKvs.Pairwise (fun e e' => Same schema key e.1 e'.1 → e.1 = e'.1) ∧
      ∀ i k v stored, mapKvs[i]? = some (k, v) →
        storedFirst (· = ·) k (mapKvs.take i) = some stored → Same schema value v stored →
          v = stored
  | .set element setKeys => setKeys.Pairwise fun k k' => Same schema element k k' → k = k'

variable {schema}

theorem levels_eq_iff {type : ConstType} {value stored : ConstValue D} :
    (if equalValue value stored then kDuplicateLevel else kMismatchLevel) =
        levelOf schema type value stored ↔
      (Same schema type value stored → value = stored) := by
  rw [levelOf]
  by_cases equal : value = stored
  · subst equal
    rw [if_pos (equalValue_iff.mpr rfl), if_pos (same_self schema type value)]
    exact iff_of_true rfl fun _ => rfl
  · rw [if_neg fun spelled => equal (equalValue_iff.mp spelled)]
    by_cases same : Same schema type value stored <;>
      simp [same, equal, kDuplicateLevel, kMismatchLevel]

theorem exact_iff_spelledAlike (schema : ConstSchema D) (literal : Literal D) :
    literal.Exact schema ↔ literal.SpelledAlike schema := by
  cases literal with
  | map key value mapKvs =>
    rw [Literal.Exact, and_iff_right strictTotal_ltValue, findDuplicateKeysInMap]
    simp only [mem_duplicates]
    refine (forall_reports_iff (same_self schema key) Same.symm).trans (and_congr_right fun _ => ?_)
    simp only [LevelsAlike, levels_eq_iff]
  | set element setKeys =>
    rw [Literal.Exact, and_iff_right strictTotal_ltValue, findDuplicateKeysInSet]
    simp only [mem_duplicates]
    exact (forall_reports_iff (same_self schema element) Same.symm).trans
      ((and_iff_left fun _ _ _ _ _ _ => rfl).trans List.pairwise_map)

/-- Integers in the place of the floating point numbers, and no structs. -/
def integersOnly : ConstSchema Int where
  float := ⟨-2 ^ 24, 2 ^ 24, id, id, id⟩
  double := ⟨-2 ^ 53, 2 ^ 53, id, id, id⟩
  structured _ := ⟨false, []⟩

/-- Two spellings of one set as elements of a set. -/
def twiceSpelled : Literal Int :=
  .set (.set .i32) [.list [.integer 1, .integer 2], .list [.integer 2, .integer 1]]

/-- The second spelling of the set is not reported. -/
theorem not_exact_twiceSpelled :
    twiceSpelled.wellTyped integersOnly = true ∧ ¬ twiceSpelled.Exact integersOnly := by
  refine ⟨by decide, fun exact => ?_⟩
  have silent : (1, kDuplicateLevel) ∉ findDuplicateKeysInSet (D := Int)
      [.list [.integer 1, .integer 2], .list [.integer 2, .integer 1]] := by decide
  refine silent ((exact.2 1 kDuplicateLevel).mpr ⟨_, (), (), rfl, ?_, rfl⟩)
  decide

end ConstValue

end FbThrift
