import FbThrift.Dynamic.TypeSystem
import FbThrift.Lib.CanonicalOrder

/-!
# Records

The checks with which `SerializableRecord::fromThrift` builds a record, the equality of records
that its sets and maps use, and what it means for two records to differ in order only.
Sets and maps are hash containers, so the list that holds their elements has an arbitrary order;
a field set is an ordered map.
-/

namespace FbThrift.Dynamic.SerializableRecord

open List (Forall₂)

/-! ## Records inside a record -/

/-- The records directly inside a record. -/
def children : SerializableRecord → List SerializableRecord
  | .fieldSet fields => fields.map Prod.snd
  | .list elements => elements
  | .set elements => elements
  | .map entries => entries.flatMap fun entry => [entry.1, entry.2]
  | _ => []

variable {r : SerializableRecord} {as bs : List SerializableRecord}

theorem sizeOf_lt_of_mem_children {c : SerializableRecord} (inside : c ∈ r.children) :
    sizeOf c < sizeOf r := by
  cases r with
  | fieldSet fields =>
    obtain ⟨field, member, rfl⟩ := List.mem_map.mp inside
    have below := List.sizeOf_lt_of_mem member
    cases field
    simp only [fieldSet.sizeOf_spec, Prod.mk.sizeOf_spec] at below ⊢
    omega
  | list elements =>
    have below := List.sizeOf_lt_of_mem (show c ∈ elements from inside)
    simp only [list.sizeOf_spec]
    omega
  | set elements =>
    have below := List.sizeOf_lt_of_mem (show c ∈ elements from inside)
    simp only [set.sizeOf_spec]
    omega
  | map entries =>
    obtain ⟨entry, member, side⟩ := List.mem_flatMap.mp inside
    have below := List.sizeOf_lt_of_mem member
    cases entry
    simp only [map.sizeOf_spec, Prod.mk.sizeOf_spec] at below ⊢
    rcases List.mem_pair.mp side with rfl | rfl <;> omega
  | _ => cases inside

@[elab_as_elim]
theorem inductChildren {motive : SerializableRecord → Prop}
    (step : ∀ r, (∀ c ∈ r.children, motive c) → motive r) (r : SerializableRecord) : motive r :=
  step r fun c _ => inductChildren step c
termination_by sizeOf r
decreasing_by exact sizeOf_lt_of_mem_children ‹_›

theorem mem_children_key {entries : List (SerializableRecord × SerializableRecord)}
    {e : SerializableRecord × SerializableRecord} (member : e ∈ entries) :
    e.1 ∈ (SerializableRecord.map entries).children :=
  List.mem_flatMap.mpr ⟨e, member, by simp⟩

theorem mem_children_value {entries : List (SerializableRecord × SerializableRecord)}
    {e : SerializableRecord × SerializableRecord} (member : e ∈ entries) :
    e.2 ∈ (SerializableRecord.map entries).children :=
  List.mem_flatMap.mpr ⟨e, member, by simp⟩

theorem mem_children_field {fields : List (Int16 × SerializableRecord)}
    {f : Int16 × SerializableRecord} (member : f ∈ fields) :
    f.2 ∈ (SerializableRecord.fieldSet fields).children :=
  List.mem_map_of_mem member

/-- A property of a record and of every record inside it. -/
inductive Everywhere (p : SerializableRecord → Prop) : SerializableRecord → Prop
  | intro {r : SerializableRecord} (here : p r) (inside : ∀ c ∈ r.children, Everywhere p c) :
    Everywhere p r

theorem Everywhere.here {p : SerializableRecord → Prop} (all : Everywhere p r) : p r := by
  cases all
  assumption

theorem Everywhere.inside {p : SerializableRecord → Prop} {c : SerializableRecord}
    (all : Everywhere p r) (member : c ∈ r.children) : Everywhere p c := by
  cases all with
  | intro _ inside => exact inside c member

/-- A field set is an ordered map: its ids are in ascending order. -/
def Ascending : SerializableRecord → Prop
  | .fieldSet fields => (fields.map fun field => field.1.toInt).Pairwise (· < ·)
  | _ => True

/-! ## Equality -/

def isNaN32 (bits : UInt32) : Bool := 0x7f800000 < bits.toNat % 2 ^ 31

def isNaN64 (bits : UInt64) : Bool := 0x7ff0000000000000 < bits.toNat % 2 ^ 63

/-- Equality of two floats: the zeros are equal and a NaN equals nothing. -/
def float32Equal (a b : UInt32) : Bool :=
  !isNaN32 a && !isNaN32 b && (a == b || (a.toNat % 2 ^ 31 == 0 && b.toNat % 2 ^ 31 == 0))

def float64Equal (a b : UInt64) : Bool :=
  !isNaN64 a && !isNaN64 b && (a == b || (a.toNat % 2 ^ 63 == 0 && b.toNat % 2 ^ 63 == 0))

mutual

/-- `operator==` of two records. -/
def equals : SerializableRecord → SerializableRecord → Bool
  | .bool a, .bool b => a == b
  | .int8 a, .int8 b => a == b
  | .int16 a, .int16 b => a == b
  | .int32 a, .int32 b => a == b
  | .int64 a, .int64 b => a == b
  | .float32 a, .float32 b => float32Equal a b
  | .float64 a, .float64 b => float64Equal a b
  | .text a, .text b => a == b
  | .byteArray a, .byteArray b => a == b
  | .fieldSet as, .fieldSet bs => fieldsEqual as bs
  | .list as, .list bs => elementsEqual as bs
  | .set as, .set bs => as.length == bs.length && allFound as bs
  | .map as, .map bs => as.length == bs.length && allEntriesFound as bs
  | _, _ => false
termination_by structural a => a

def fieldsEqual : List (Int16 × SerializableRecord) → List (Int16 × SerializableRecord) → Bool
  | [], [] => true
  | a :: as, b :: bs => a.1 == b.1 && a.2.equals b.2 && fieldsEqual as bs
  | _, _ => false
termination_by structural as => as

def elementsEqual : List SerializableRecord → List SerializableRecord → Bool
  | [], [] => true
  | a :: as, b :: bs => a.equals b && elementsEqual as bs
  | _, _ => false
termination_by structural as => as

/-- Every element of a set is found in another. -/
def allFound : List SerializableRecord → List SerializableRecord → Bool
  | [], _ => true
  | a :: as, bs => bs.any (fun b => a.equals b) && allFound as bs
termination_by structural as => as

/-- Every key of a map is found in another and has an equal value there. -/
def allEntriesFound : List (SerializableRecord × SerializableRecord) →
    List (SerializableRecord × SerializableRecord) → Bool
  | [], _ => true
  | a :: as, bs =>
    bs.any (fun b => a.1.equals b.1 && a.2.equals b.2) && allEntriesFound as bs
termination_by structural as => as

end

/-! ## Validation -/

/-- Text of a message. -/
def message (s : String) : Bytes := s.toUTF8.toList

def ensureValidFloat32OrThrow (datum : UInt32) : Except Bytes Unit :=
  if isNaN32 datum then throw (message "NaN is not a valid Thrift datum")
  else if datum == 0x80000000 then throw (message "-0.0 is not a valid Thrift datum")
  else return ()

def ensureValidFloat64OrThrow (datum : UInt64) : Except Bytes Unit :=
  if isNaN64 datum then throw (message "NaN is not a valid Thrift datum")
  else if datum == 0x8000000000000000 then throw (message "-0.0 is not a valid Thrift datum")
  else return ()

/-- The number of bytes that the first byte of a UTF-8 sequence announces, 0 if it cannot be
one. -/
def sequenceLength (c : UInt8) : Nat :=
  if c ≤ 0x7f then 1
  else if c &&& 0xE0 = 0xC0 then 2
  else if c &&& 0xF0 = 0xE0 then 3
  else if c &&& 0xF8 = 0xF0 then 4
  else 0

/-- The loop of `ensureUTF8OrThrow` over the rest of the string, which each round shortens. -/
def isUTF8 : (rounds : Nat) → Bytes → Bool
  | _, [] => true
  | 0, _ => true
  | rounds + 1, c :: rest =>
    let n := sequenceLength c
    if n = 0 then false
    else if 1 < n ∧ c.toNat &&& (0xFF <<< (8 - n)) = 0xFF <<< (8 - n) then false
    -- Surrogates, U+D800 to U+DFFF.
    else if n = 3 ∧ c = 0xed ∧ rest.head?.any (fun d => d &&& 0xa0 = 0xa0) then false
    else if rest.length < n - 1 ∨ (rest.take (n - 1)).any (fun d => d &&& 0xC0 ≠ 0x80) then false
    else isUTF8 rounds (rest.drop (n - 1))

def ensureUTF8OrThrow (string : Bytes) : Except Bytes Unit :=
  if isUTF8 string.length string then return ()
  else throw (message "UTF-8 validation failed for '" ++ string ++ message "'")

mutual

/-- `SerializableRecord::fromThrift`. -/
def fromThrift : SerializableRecord → Except Bytes SerializableRecord
  | .float32 datum => do
    ensureValidFloat32OrThrow datum
    return .float32 datum
  | .float64 datum => do
    ensureValidFloat64OrThrow datum
    return .float64 datum
  | .text datum => do
    ensureUTF8OrThrow datum
    return .text datum
  | .fieldSet fields => return .fieldSet (← fieldsFromThrift fields)
  | .list elements => return .list (← elementsFromThrift elements)
  | .set elements => return .set (← insertElements [] elements)
  | .map entries => return .map (← insertEntries [] entries)
  | datum => return datum
termination_by structural value => value

def fieldsFromThrift : List (Int16 × SerializableRecord) →
    Except Bytes (List (Int16 × SerializableRecord))
  | [] => return []
  | field :: fields => do
    let datum ← fromThrift field.2
    return (field.1, datum) :: (← fieldsFromThrift fields)
termination_by structural fields => fields

def elementsFromThrift : List SerializableRecord → Except Bytes (List SerializableRecord)
  | [] => return []
  | element :: elements => do
    let datum ← fromThrift element
    return datum :: (← elementsFromThrift elements)
termination_by structural elements => elements

def insertElements (result : List SerializableRecord) :
    List SerializableRecord → Except Bytes (List SerializableRecord)
  | [] => return result
  | element :: elements => do
    let datum ← fromThrift element
    if result.any (fun e => e.equals datum) then
      throw (message "Duplicate element in setDatum")
    else insertElements (result ++ [datum]) elements
termination_by structural elements => elements

def insertEntries (result : List (SerializableRecord × SerializableRecord)) :
    List (SerializableRecord × SerializableRecord) →
      Except Bytes (List (SerializableRecord × SerializableRecord))
  | [] => return result
  | entry :: entries => do
    let key ← fromThrift entry.1
    let value ← fromThrift entry.2
    if result.any (fun e => e.1.equals key) then
      throw (message "Duplicate element in mapDatum")
    else insertEntries (result ++ [(key, value)]) entries
termination_by structural entries => entries

end

/-- What `fromThrift` has checked of a record, apart from the records inside it. -/
def Checked : SerializableRecord → Prop
  | .float32 datum => ensureValidFloat32OrThrow datum = .ok ()
  | .float64 datum => ensureValidFloat64OrThrow datum = .ok ()
  | .text datum => ensureUTF8OrThrow datum = .ok ()
  | .set elements => elements.Pairwise fun a b => a.equals b = false
  | .map entries => entries.Pairwise fun a b => a.1.equals b.1 = false
  | _ => True

section FromThrift

variable {p : SerializableRecord → Prop}

theorem fieldsFromThrift_ok {fields result : List (Int16 × SerializableRecord)}
    (each : ∀ f ∈ fields, ∀ r, fromThrift f.2 = .ok r → r = f.2 ∧ p f.2)
    (ok : fieldsFromThrift fields = .ok result) : result = fields ∧ ∀ f ∈ fields, p f.2 := by
  induction fields generalizing result with
  | nil =>
    cases ok
    exact ⟨rfl, by simp⟩
  | cons field fields ih =>
    unfold fieldsFromThrift at ok
    obtain ⟨datum, first, ok⟩ := Except.bind_eq_ok ok
    obtain ⟨rest, others, ok⟩ := Except.bind_eq_ok ok
    cases ok
    obtain ⟨rfl, here⟩ := each field (by simp) datum first
    obtain ⟨rfl, there⟩ := ih (fun f member => each f (by simp [member])) others
    exact ⟨rfl, List.forall_mem_cons.mpr ⟨here, there⟩⟩

theorem elementsFromThrift_ok {elements result : List SerializableRecord}
    (each : ∀ e ∈ elements, ∀ r, fromThrift e = .ok r → r = e ∧ p e)
    (ok : elementsFromThrift elements = .ok result) :
    result = elements ∧ ∀ e ∈ elements, p e := by
  induction elements generalizing result with
  | nil =>
    cases ok
    exact ⟨rfl, by simp⟩
  | cons element elements ih =>
    unfold elementsFromThrift at ok
    obtain ⟨datum, first, ok⟩ := Except.bind_eq_ok ok
    obtain ⟨rest, others, ok⟩ := Except.bind_eq_ok ok
    cases ok
    obtain ⟨rfl, here⟩ := each element (by simp) datum first
    obtain ⟨rfl, there⟩ := ih (fun e member => each e (by simp [member])) others
    exact ⟨rfl, List.forall_mem_cons.mpr ⟨here, there⟩⟩

theorem insertElements_ok {elements acc result : List SerializableRecord}
    (each : ∀ e ∈ elements, ∀ r, fromThrift e = .ok r → r = e ∧ p e)
    (distinct : acc.Pairwise fun a b => a.equals b = false)
    (ok : insertElements acc elements = .ok result) :
    result = acc ++ elements ∧ (result.Pairwise fun a b => a.equals b = false) ∧
      ∀ e ∈ elements, p e := by
  induction elements generalizing acc with
  | nil =>
    cases ok
    exact ⟨by simp, distinct, by simp⟩
  | cons element elements ih =>
    unfold insertElements at ok
    obtain ⟨datum, first, inserted⟩ := Except.bind_eq_ok ok
    obtain ⟨rfl, here⟩ := each element (by simp) datum first
    split at inserted
    next => cases inserted
    next fresh =>
      simp only [Bool.not_eq_true, List.any_eq_false] at fresh
      have grown : (acc ++ [datum]).Pairwise fun a b => a.equals b = false := by
        rw [List.pairwise_append]
        refine ⟨distinct, List.pairwise_singleton _ _, fun a member b only => ?_⟩
        rw [List.mem_singleton.mp only]
        simpa using fresh a member
      obtain ⟨rfl, apart, there⟩ := ih (fun e member => each e (by simp [member])) grown
        inserted
      exact ⟨by simp, apart, List.forall_mem_cons.mpr ⟨here, there⟩⟩

theorem insertEntries_ok {entries acc result : List (SerializableRecord × SerializableRecord)}
    (each : ∀ e ∈ entries, (∀ r, fromThrift e.1 = .ok r → r = e.1 ∧ p e.1) ∧
      ∀ r, fromThrift e.2 = .ok r → r = e.2 ∧ p e.2)
    (distinct : acc.Pairwise fun a b => a.1.equals b.1 = false)
    (ok : insertEntries acc entries = .ok result) :
    result = acc ++ entries ∧ (result.Pairwise fun a b => a.1.equals b.1 = false) ∧
      ∀ e ∈ entries, p e.1 ∧ p e.2 := by
  induction entries generalizing acc with
  | nil =>
    cases ok
    exact ⟨by simp, distinct, by simp⟩
  | cons entry entries ih =>
    unfold insertEntries at ok
    obtain ⟨key, first, more⟩ := Except.bind_eq_ok ok
    obtain ⟨value, second, inserted⟩ := Except.bind_eq_ok more
    obtain ⟨rfl, here⟩ := (each entry (by simp)).1 key first
    obtain ⟨rfl, here'⟩ := (each entry (by simp)).2 value second
    split at inserted
    next => cases inserted
    next fresh =>
      simp only [Bool.not_eq_true, List.any_eq_false] at fresh
      have grown : (acc ++ [entry]).Pairwise fun a b => a.1.equals b.1 = false := by
        rw [List.pairwise_append]
        refine ⟨distinct, List.pairwise_singleton _ _, fun a member b only => ?_⟩
        rw [List.mem_singleton.mp only]
        simpa using fresh a member
      obtain ⟨rfl, apart, there⟩ := ih (fun e member => each e (by simp [member])) grown
        inserted
      exact ⟨by simp, apart, List.forall_mem_cons.mpr ⟨⟨here, here'⟩, there⟩⟩

end FromThrift

/-- A record that passes the checks comes out as it is, with all its parts checked. -/
theorem fromThrift_ok : ∀ {r'}, fromThrift r = .ok r' → r' = r ∧ Everywhere Checked r := by
  induction r using inductChildren with
  | step r ih =>
    intro r' ok
    cases r with
    | float32 datum =>
      obtain ⟨⟨⟩, checked, ok⟩ := Except.bind_eq_ok ok
      cases ok
      exact ⟨rfl, ⟨checked, nofun⟩⟩
    | float64 datum =>
      obtain ⟨⟨⟩, checked, ok⟩ := Except.bind_eq_ok ok
      cases ok
      exact ⟨rfl, ⟨checked, nofun⟩⟩
    | text datum =>
      obtain ⟨⟨⟩, checked, ok⟩ := Except.bind_eq_ok ok
      cases ok
      exact ⟨rfl, ⟨checked, nofun⟩⟩
    | fieldSet fields =>
      obtain ⟨result, built, ok⟩ := Except.bind_eq_ok ok
      cases ok
      obtain ⟨rfl, inside⟩ := fieldsFromThrift_ok
        (fun f member _ ok => ih f.2 (mem_children_field member) ok) built
      refine ⟨rfl, ⟨trivial, fun c child => ?_⟩⟩
      obtain ⟨f, member, rfl⟩ := List.mem_map.mp child
      exact inside f member
    | list elements =>
      obtain ⟨result, built, ok⟩ := Except.bind_eq_ok ok
      cases ok
      obtain ⟨rfl, inside⟩ := elementsFromThrift_ok (fun e member _ ok => ih e member ok) built
      exact ⟨rfl, ⟨trivial, inside⟩⟩
    | set elements =>
      obtain ⟨result, built, ok⟩ := Except.bind_eq_ok ok
      cases ok
      obtain ⟨rfl, apart, inside⟩ :=
        insertElements_ok (fun e member _ ok => ih e member ok) .nil built
      exact ⟨rfl, ⟨apart, inside⟩⟩
    | map entries =>
      obtain ⟨result, built, ok⟩ := Except.bind_eq_ok ok
      cases ok
      obtain ⟨rfl, apart, inside⟩ := insertEntries_ok
        (fun e member => ⟨fun _ ok => ih e.1 (mem_children_key member) ok,
          fun _ ok => ih e.2 (mem_children_value member) ok⟩) .nil built
      refine ⟨rfl, ⟨apart, fun c child => ?_⟩⟩
      obtain ⟨e, member, side⟩ := List.mem_flatMap.mp child
      rcases List.mem_pair.mp side with rfl | rfl
      · exact (inside e member).1
      · exact (inside e member).2
    | _ =>
      cases ok
      exact ⟨rfl, ⟨trivial, nofun⟩⟩

/-! ## Records up to order -/

mutual

/-- Records that differ in the order of set elements and map entries only, at any depth. -/
def Reordered : SerializableRecord → SerializableRecord → Prop
  | .bool a, .bool b => a = b
  | .int8 a, .int8 b => a = b
  | .int16 a, .int16 b => a = b
  | .int32 a, .int32 b => a = b
  | .int64 a, .int64 b => a = b
  | .float32 a, .float32 b => a = b
  | .float64 a, .float64 b => a = b
  | .text a, .text b => a = b
  | .byteArray a, .byteArray b => a = b
  | .fieldSet as, .fieldSet bs => ReorderedFields as bs
  | .list as, .list bs => ReorderedElements as bs
  | .set as, .set bs => ∃ cs, ReorderedElements as cs ∧ cs.Perm bs
  | .map as, .map bs => ∃ cs, ReorderedEntries as cs ∧ cs.Perm bs
  | _, _ => False
termination_by structural a => a

def ReorderedFields : List (Int16 × SerializableRecord) → List (Int16 × SerializableRecord) → Prop
  | [], [] => True
  | a :: as, b :: bs => (a.1 = b.1 ∧ Reordered a.2 b.2) ∧ ReorderedFields as bs
  | _, _ => False
termination_by structural as => as

def ReorderedElements : List SerializableRecord → List SerializableRecord → Prop
  | [], [] => True
  | a :: as, b :: bs => Reordered a b ∧ ReorderedElements as bs
  | _, _ => False
termination_by structural as => as

def ReorderedEntries : List (SerializableRecord × SerializableRecord) →
    List (SerializableRecord × SerializableRecord) → Prop
  | [], [] => True
  | a :: as, b :: bs => (Reordered a.1 b.1 ∧ Reordered a.2 b.2) ∧ ReorderedEntries as bs
  | _, _ => False
termination_by structural as => as

end

theorem reorderedFields_iff {as bs : List (Int16 × SerializableRecord)} :
    ReorderedFields as bs ↔ Forall₂ (fun a b => a.1 = b.1 ∧ Reordered a.2 b.2) as bs := by
  induction as generalizing bs with
  | nil => cases bs <;> simp [ReorderedFields]
  | cons a as ih => cases bs <;> simp [ReorderedFields, ih]

theorem reorderedElements_iff : ReorderedElements as bs ↔ Forall₂ Reordered as bs := by
  induction as generalizing bs with
  | nil => cases bs <;> simp [ReorderedElements]
  | cons a as ih => cases bs <;> simp [ReorderedElements, ih]

theorem reorderedEntries_iff {as bs : List (SerializableRecord × SerializableRecord)} :
    ReorderedEntries as bs ↔ Forall₂ (fun a b => Reordered a.1 b.1 ∧ Reordered a.2 b.2) as bs := by
  induction as generalizing bs with
  | nil => cases bs <;> simp [ReorderedEntries]
  | cons a as ih => cases bs <;> simp [ReorderedEntries, ih]

theorem reordered_set_iff : Reordered (.set as) (.set bs) ↔ UpToOrder Reordered as bs :=
  exists_congr fun _ => and_congr_left fun _ => reorderedElements_iff

theorem reordered_map_iff {as bs : List (SerializableRecord × SerializableRecord)} :
    Reordered (.map as) (.map bs) ↔
      UpToOrder (fun a b => Reordered a.1 b.1 ∧ Reordered a.2 b.2) as bs :=
  exists_congr fun _ => and_congr_left fun _ => reorderedEntries_iff

theorem Reordered.refl (r : SerializableRecord) : Reordered r r := by
  induction r using inductChildren with
  | step r ih =>
    cases r with
    | fieldSet fields =>
      exact reorderedFields_iff.mpr (List.forall₂_same.mpr fun f member =>
        ⟨rfl, ih f.2 (mem_children_field member)⟩)
    | list elements => exact reorderedElements_iff.mpr (List.forall₂_same.mpr ih)
    | set elements =>
      exact reordered_set_iff.mpr ⟨elements, List.forall₂_same.mpr ih, .refl _⟩
    | map entries =>
      refine reordered_map_iff.mpr ⟨entries, List.forall₂_same.mpr fun e member => ?_, .refl _⟩
      exact ⟨ih e.1 (mem_children_key member), ih e.2 (mem_children_value member)⟩
    | _ => exact rfl

theorem fieldsEqual_iff {as bs : List (Int16 × SerializableRecord)} :
    fieldsEqual as bs = true ↔ Forall₂ (fun a b => a.1 = b.1 ∧ a.2.equals b.2 = true) as bs := by
  induction as generalizing bs with
  | nil => cases bs <;> simp [fieldsEqual]
  | cons a as ih => cases bs <;> simp [fieldsEqual, ih]

theorem elementsEqual_iff :
    elementsEqual as bs = true ↔ Forall₂ (fun a b => a.equals b = true) as bs := by
  induction as generalizing bs with
  | nil => cases bs <;> simp [elementsEqual]
  | cons a as ih => cases bs <;> simp [elementsEqual, ih]

theorem allFound_iff : allFound as bs = true ↔ ∀ a ∈ as, ∃ b ∈ bs, a.equals b = true := by
  induction as with
  | nil => simp [allFound]
  | cons a as ih => simp [allFound, ih]

theorem allEntriesFound_iff {as bs : List (SerializableRecord × SerializableRecord)} :
    allEntriesFound as bs = true ↔
      ∀ a ∈ as, ∃ b ∈ bs, a.1.equals b.1 = true ∧ a.2.equals b.2 = true := by
  induction as with
  | nil => simp [allEntriesFound]
  | cons a as ih => simp [allEntriesFound, ih]

theorem float32Equal_self {datum : UInt32} (checked : ensureValidFloat32OrThrow datum = .ok ()) :
    float32Equal datum datum = true := by
  unfold ensureValidFloat32OrThrow at checked
  split at checked
  next => cases checked
  next number => simp [float32Equal, number]

theorem float64Equal_self {datum : UInt64} (checked : ensureValidFloat64OrThrow datum = .ok ()) :
    float64Equal datum datum = true := by
  unfold ensureValidFloat64OrThrow at checked
  split at checked
  next => cases checked
  next number => simp [float64Equal, number]

theorem equals_of_reordered {a : SerializableRecord} :
    ∀ {b}, Everywhere Checked a → Reordered a b → a.equals b = true := by
  induction a using inductChildren with
  | step a ih =>
    intro b checked reordered
    cases a with
    | fieldSet as =>
      cases b <;> first | exact reordered.elim | skip
      have fields := reorderedFields_iff.mp reordered
      refine fieldsEqual_iff.mpr (forall₂_imp_of_mem fields fun f member g _ same => ?_)
      have child := mem_children_field member
      exact ⟨same.1, ih f.2 child (checked.inside child) same.2⟩
    | list as =>
      cases b <;> first | exact reordered.elim | skip
      have elements := reorderedElements_iff.mp reordered
      exact elementsEqual_iff.mpr (forall₂_imp_of_mem elements fun a member _ _ same =>
          ih a member (checked.inside member) same)
    | set as =>
      cases b <;> first | exact reordered.elim | skip
      rename_i bs
      have all := reordered_set_iff.mp reordered
      obtain ⟨cs, related, perm⟩ := all
      have found : allFound as bs = true := by
        refine allFound_iff.mpr fun a member => ?_
        obtain ⟨c, member', same⟩ := exists_of_forall₂ related member
        exact ⟨c, perm.mem_iff.mp member', ih a member (checked.inside member) same⟩
      have sizes : (as.length == bs.length) = true :=
        beq_iff_eq.mpr (related.length_eq.trans perm.length_eq)
      exact Bool.and_eq_true_iff.mpr ⟨sizes, found⟩
    | map as =>
      cases b <;> first | exact reordered.elim | skip
      rename_i bs
      have all := reordered_map_iff.mp reordered
      obtain ⟨cs, related, perm⟩ := all
      have found : allEntriesFound as bs = true := by
        refine allEntriesFound_iff.mpr fun a member => ?_
        obtain ⟨c, member', key, value⟩ := exists_of_forall₂ related member
        have inKey := mem_children_key member
        have inValue := mem_children_value member
        exact ⟨c, perm.mem_iff.mp member', ih a.1 inKey (checked.inside inKey) key,
          ih a.2 inValue (checked.inside inValue) value⟩
      have sizes : (as.length == bs.length) = true :=
        beq_iff_eq.mpr (related.length_eq.trans perm.length_eq)
      exact Bool.and_eq_true_iff.mpr ⟨sizes, found⟩
    | float32 a =>
      cases b <;> first | exact reordered.elim | skip
      obtain rfl := reordered
      exact float32Equal_self checked.here
    | float64 a =>
      cases b <;> first | exact reordered.elim | skip
      obtain rfl := reordered
      exact float64Equal_self checked.here
    | _ =>
      cases b <;> first | exact reordered.elim | skip
      obtain rfl := reordered
      exact beq_self_eq_true _

end FbThrift.Dynamic.SerializableRecord
