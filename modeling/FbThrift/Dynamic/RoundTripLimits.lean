import FbThrift.Dynamic.RoundTrip

/-!
# What survives a round trip

The round trip of whole values and of structs with their fields in any order, and its limits:
the depth that the writer refuses to go below, and storage.  A value equals what it is reread
as if and only if its storage already is as reading leaves it.
-/

namespace FbThrift.Dynamic

open FbThrift Datum

section Storage

variable {P : Datum → Prop}

theorem allElements_iff {es : List Datum} : AllElements P es ↔ ∀ e ∈ es, e.All P := by
  induction es with
  | nil => simp [AllElements]
  | cons e es ih => simp [AllElements, ih]

theorem allEntries_iff {es : List (Datum × Datum)} :
    AllEntries P es ↔ ∀ e ∈ es, e.1.All P ∧ e.2.All P := by
  induction es with
  | nil => simp [AllEntries]
  | cons e es ih => simp [AllEntries, ih]

theorem mem_foldl_setInsert {es acc : List Datum} {d : Datum}
    (member : d ∈ es.foldl setInsert acc) : d ∈ acc ∨ d ∈ es := by
  induction es generalizing acc with
  | nil => exact .inl member
  | cons e es ih =>
    rw [List.foldl_cons] at member
    rcases ih member with kept | later
    · unfold setInsert at kept
      split at kept
      · exact .inl kept
      · rcases List.mem_append.mp kept with old | new
        · exact .inl old
        · exact .inr (by simp_all)
    · exact .inr (List.mem_cons_of_mem _ later)

theorem setInsert_ne_nil (acc : List Datum) (d : Datum) : setInsert acc d ≠ [] := by
  unfold setInsert
  split
  next found =>
    rintro rfl
    simp at found
  next => simp

theorem foldl_setInsert_ne_nil {es acc : List Datum} (some : acc ≠ []) :
    es.foldl setInsert acc ≠ [] := by
  induction es generalizing acc with
  | nil => exact some
  | cons e es ih => exact ih (setInsert_ne_nil acc e)

theorem all_foldl_mapInsert {Q : Datum → Prop} {es acc : List (Datum × Datum)}
    (old : ∀ e ∈ acc, Q e.1 ∧ Q e.2) (new : ∀ e ∈ es, Q e.1 ∧ Q e.2) :
    ∀ e ∈ es.foldl (fun es e => mapInsert es e.1 e.2) acc, Q e.1 ∧ Q e.2 := by
  induction es generalizing acc with
  | nil => exact old
  | cons e es ih =>
    refine ih ?_ fun e' member => new e' (List.mem_cons_of_mem _ member)
    have here := new e (by simp)
    intro e' member
    change e' ∈ mapInsert acc e.1 e.2 at member
    unfold mapInsert at member
    split at member
    next i found =>
      obtain ⟨j, below, rfl⟩ := List.getElem_of_mem member
      rw [List.getElem_modify]
      have inside := old _ (List.getElem_mem (by simpa using below))
      split
      · exact ⟨inside.1, here.2⟩
      · exact inside
    next =>
      rcases List.mem_append.mp member with kept | last
      · exact old e' kept
      · obtain rfl : e' = (e.1, e.2) := List.mem_singleton.mp last
        exact here

theorem mapInsert_ne_nil (acc : List (Datum × Datum)) (k v : Datum) : mapInsert acc k v ≠ [] := by
  unfold mapInsert
  split
  next i found =>
    intro empty
    rw [List.modify_eq_nil_iff] at empty
    subst empty
    cases found
  next => simp

theorem foldl_mapInsert_ne_nil {es acc : List (Datum × Datum)} (some : acc ≠ []) :
    es.foldl (fun es e => mapInsert es e.1 e.2) acc ≠ [] := by
  induction es generalizing acc with
  | nil => exact some
  | cons e es ih => exact ih (mapInsert_ne_nil acc e.1 e.2)

theorem makeSet_asRead {t : TypeRef} {es : List Datum} (each : ∀ e ∈ es, e.All AsRead) :
    (makeSet t es).All AsRead := by
  cases es with
  | nil => trivial
  | cons e es =>
    have nonempty : (e :: es).foldl setInsert [] ≠ [] := by
      rw [List.foldl_cons]
      exact foldl_setInsert_ne_nil (setInsert_ne_nil [] e)
    refine ⟨?_, allElements_iff.mpr fun d member => ?_⟩
    · cases inserted : (e :: es).foldl setInsert [] with
      | nil => exact (nonempty inserted).elim
      | cons d ds => trivial
    · rcases mem_foldl_setInsert member with none | inside
      · cases none
      · exact each d inside

theorem makeMap_asRead {k v : TypeRef} {es : List (Datum × Datum)}
    (each : ∀ e ∈ es, e.1.All AsRead ∧ e.2.All AsRead) : (makeMap k v es).All AsRead := by
  cases es with
  | nil => trivial
  | cons e es =>
    have nonempty : (e :: es).foldl (fun es e => mapInsert es e.1 e.2) [] ≠ [] := by
      rw [List.foldl_cons]
      exact foldl_mapInsert_ne_nil (mapInsert_ne_nil [] e.1 e.2)
    refine ⟨?_, allEntries_iff.mpr (all_foldl_mapInsert (by simp) each)⟩
    cases inserted : (e :: es).foldl (fun es e => mapInsert es e.1 e.2) [] with
    | nil => exact (nonempty inserted).elim
    | cons d ds => trivial

mutual

theorem Datum.reread_asRead (d : Datum) : d.reread.All AsRead := by
  cases d with
  | binary data => cases data <;> trivial
  | emptyList t => exact ⟨trivial, trivial⟩
  | list t es => exact ⟨trivial, allElements_iff.mpr (rereadElements_asRead es)⟩
  | set t es => exact makeSet_asRead (rereadElements_asRead es)
  | map k v es => exact makeMap_asRead (rereadEntries_asRead es)
  | struct uri values => exact ⟨trivial, allElements_iff.mpr (rereadElements_asRead values)⟩
  | union uri active value => exact ⟨trivial, Datum.reread_asRead value⟩
  | _ => trivial
termination_by structural d

theorem rereadElements_asRead (es : List Datum) : ∀ e ∈ rereadElements es, e.All AsRead := by
  cases es with
  | nil => simp [rereadElements]
  | cons e es =>
    intro d member
    have first := Datum.reread_asRead e
    have rest := rereadElements_asRead es
    rcases List.mem_cons.mp member with same | later
    · rw [same]
      exact first
    · exact rest d later
termination_by structural es

theorem rereadEntries_asRead (es : List (Datum × Datum)) :
    ∀ e ∈ rereadEntries es, e.1.All AsRead ∧ e.2.All AsRead := by
  cases es with
  | nil => simp [rereadEntries]
  | cons e es =>
    obtain ⟨k, v⟩ := e
    intro d member
    have first := And.intro (Datum.reread_asRead k) (Datum.reread_asRead v)
    have rest := rereadEntries_asRead es
    rcases List.mem_cons.mp member with same | later
    · rw [same]
      exact first
    · exact rest d later
termination_by structural es

end

mutual

theorem Datum.asRead_of_equals (d d' : Datum) (same : d.equals d' = true)
    (asRead : d'.All AsRead) : d.All AsRead := by
  cases d with
  | binary data =>
    cases data with
    | some s => trivial
    | none =>
      cases d' with
      | binary data' =>
        cases data' with
        | none => exact asRead.elim
        | some s => simp [Datum.equals] at same
      | _ => simp [Datum.equals] at same
  | emptyList t => cases d' <;> simp_all [Datum.equals, Datum.All, AsRead]
  | list t es =>
    cases d' <;> simp only [Datum.equals, Bool.and_eq_true, reduceCtorEq] at same
    exact ⟨trivial, elements_asRead es _ same.2 asRead.2⟩
  | set t es =>
    cases d' <;> simp only [Datum.equals, Bool.and_eq_true, beq_iff_eq, reduceCtorEq] at same
    rename_i t' es'
    refine ⟨?_, found_asRead es es' same.2 (allElements_iff.mp asRead.2)⟩
    cases es with
    | nil =>
      obtain rfl : es' = [] := List.length_eq_zero_iff.mp same.1.2.symm
      exact asRead.1
    | cons e es => trivial
  | map k v es =>
    cases d' <;> simp only [Datum.equals, Bool.and_eq_true, beq_iff_eq, reduceCtorEq] at same
    rename_i k' v' es'
    refine ⟨?_, entriesFound_asRead es es' same.2 (allEntries_iff.mp asRead.2)⟩
    cases es with
    | nil =>
      obtain rfl : es' = [] := List.length_eq_zero_iff.mp same.1.2.symm
      exact asRead.1
    | cons e es => trivial
  | struct uri values =>
    cases d' <;> simp only [Datum.equals, Bool.and_eq_true, reduceCtorEq] at same
    exact ⟨trivial, elements_asRead values _ same.2 asRead.2⟩
  | union uri active value =>
    cases d' <;> simp only [Datum.equals, Bool.and_eq_true, reduceCtorEq] at same
    exact ⟨trivial, Datum.asRead_of_equals value _ same.2 asRead.2⟩
  | _ => trivial
termination_by structural d

theorem elements_asRead (es es' : List Datum) (same : elementsEqual es es' = true)
    (asRead : AllElements AsRead es') : AllElements AsRead es := by
  cases es with
  | nil => trivial
  | cons e es =>
    cases es' with
    | nil => simp [elementsEqual] at same
    | cons e' es' =>
      simp only [elementsEqual, Bool.and_eq_true] at same
      exact ⟨Datum.asRead_of_equals e e' same.1 asRead.1, elements_asRead es es' same.2 asRead.2⟩
termination_by structural es

theorem found_asRead (es es' : List Datum) (found : allFound es es' = true)
    (asRead : ∀ e ∈ es', e.All AsRead) : AllElements AsRead es := by
  cases es with
  | nil => trivial
  | cons e es =>
    simp only [allFound, Bool.and_eq_true, List.any_eq_true] at found
    obtain ⟨⟨e', member, same⟩, rest⟩ := found
    exact ⟨Datum.asRead_of_equals e e' same (asRead e' member), found_asRead es es' rest asRead⟩
termination_by structural es

theorem entriesFound_asRead (es es' : List (Datum × Datum)) (found : allEntriesFound es es' = true)
    (asRead : ∀ e ∈ es', e.1.All AsRead ∧ e.2.All AsRead) : AllEntries AsRead es := by
  cases es with
  | nil => trivial
  | cons e es =>
    obtain ⟨k, v⟩ := e
    simp only [allEntriesFound, Bool.and_eq_true] at found
    obtain ⟨here, rest⟩ := found
    refine ⟨?_, entriesFound_asRead es es' rest asRead⟩
    split at here
    next e' lookup =>
      have member := asRead e' (List.mem_of_find?_eq_some lookup)
      have key : k.equals e'.1 = true := by simpa using List.find?_some lookup
      exact ⟨Datum.asRead_of_equals k e'.1 key member.1,
        Datum.asRead_of_equals v e'.2 here member.2⟩
    next => cases here
termination_by structural es

end

theorem Datum.equals_reread_iff {ts : TypeSystem} {stack : Nat} {d : Datum} {type : TypeRef}
    (typed : HasType ts stack d type) : d.equals d.reread = true ↔ d.All AsRead := by
  constructor
  · intro same
    exact Datum.asRead_of_equals d d.reread same d.reread_asRead
  · intro asRead
    rw [Datum.reread_eq_self d type typed asRead]
    exact Datum.equals_self d type typed

end Storage

/-! ## Whole values -/

section Whole

variable (ts : TypeSystem) (stack maxDepth : Nat) (p : Protocol)

/-- A struct with its fields as they stand in a list, into an empty queue. -/
def serializeStruct (uri : Uri) (ws : List WireField) : Except String Bytes := do
  let (_, w) ← (do
    p.writer.writeStructBegin
    serializeWireFields ts p (ts.structNode uri) ws
    p.writer.writeFieldStop
    p.writer.writeStructEnd : WriteM) (Writer.new maxDepth)
  pure w.out

/-- What is written into an empty queue is read from the whole buffer. -/
theorem RoundTrip.whole {α : Type} {write : WriteM} {read : ReadM α} {a : α}
    (trip : FbThrift.RoundTrip (maxDepth + 1) 1 write read a) :
    ∃ bytes, (do
        let (_, w) ← write (Writer.new maxDepth)
        pure w.out : Except String Bytes) = .ok bytes ∧
      (do
        let (a, r) ← read (Reader.ofBytes maxDepth bytes)
        pure (a, r.input) : Except String (α × Bytes)) = .ok (a, []) := by
  obtain ⟨bytes, _, writes, reads⟩ := trip
  have written := writes (Writer.new maxDepth) (Nat.le_refl _) rfl
  have read' := reads (Reader.ofBytes maxDepth bytes) [] (by simp [Reader.ofBytes])
    (Nat.le_refl _) rfl
  refine ⟨bytes, ?_, ?_⟩
  · rw [written]
    rfl
  · rw [read']
    rfl

/-- Within the limits every value is read back as `reread` says. -/
theorem deserializeValue_serializeValue {d : Datum} {type : TypeRef}
    (typed : HasType ts stack d type) (fits : d.All Fits) (shallow : d.nest ≤ maxDepth) :
    ∃ bytes, serializeValue ts maxDepth p d = .ok bytes ∧
      deserializeValue ts stack maxDepth p type bytes = .ok (d.reread, []) :=
  RoundTrip.whole maxDepth (datum_trip maxDepth p d type typed fits (maxDepth + 1) (by omega))

theorem deserializeValue_serializeStruct {uri : Uri} {created : List Datum} {ws : List WireField}
    (pos : 1 ≤ maxDepth) (creates : create ts stack (ts.structNode uri) = .ok created)
    (valid : ∀ w ∈ ws, w.Valid ts stack maxDepth p (ts.structNode uri) maxDepth) :
    ∃ bytes, serializeStruct ts maxDepth p uri ws = .ok bytes ∧
      deserializeValue ts stack maxDepth p (.struct uri) bytes =
        .ok (.struct uri (takeLast created ws), []) := by
  have trips : ∀ handle d field, .known handle d ∈ ws →
      (ts.structNode uri).fields[handle]? = some field →
      FieldTrip p maxDepth field.wireType field.id (serialize ts p.writer d)
        (deserializeAt ts stack maxDepth p maxDepth field.type) d.reread := by
    intro handle d field member found
    obtain ⟨field', found', has, fits, below⟩ := valid _ member
    obtain rfl : field' = field := Option.some.inj (found'.symm.trans found)
    exact value_field_trip maxDepth p field' pos has (datum_trip maxDepth p d _ has fits _ below)
  have trip := (structTrip_wireFields pos ws valid trips).struct pos creates
  simp only [bind_assoc] at trip
  rw [foldl_assign] at trip
  exact RoundTrip.whole maxDepth trip

/-- A value within the limits, with its storage as reading leaves it, equals what is read back;
a struct whose fields come in any order, with unknown fields between them, is read with the last
occurrence of each known field. -/
theorem dynamic_roundTrip :
    (∀ d type, HasType ts stack d type → d.All Fits → d.nest ≤ maxDepth → d.All AsRead →
      ∃ bytes d', serializeValue ts maxDepth p d = .ok bytes ∧
        deserializeValue ts stack maxDepth p type bytes = .ok (d', []) ∧ d.equals d' = true) ∧
    (∀ uri created ws, 1 ≤ maxDepth → create ts stack (ts.structNode uri) = .ok created →
      (∀ w ∈ ws, w.Valid ts stack maxDepth p (ts.structNode uri) maxDepth) →
      ∃ bytes, serializeStruct ts maxDepth p uri ws = .ok bytes ∧
        deserializeValue ts stack maxDepth p (.struct uri) bytes =
          .ok (.struct uri (takeLast created ws), [])) := by
  constructor
  · intro d type typed fits shallow asRead
    obtain ⟨bytes, written, read⟩ :=
      deserializeValue_serializeValue ts stack maxDepth p typed fits shallow
    exact ⟨bytes, d.reread, written, read, (Datum.equals_reread_iff typed).mpr asRead⟩
  · intro uri created ws pos creates valid
    exact deserializeValue_serializeStruct ts stack maxDepth p pos creates valid

end Whole

/-- A struct `S` with an optional number, a list of booleans and a boolean, in every type. -/
def exampleTypes : TypeSystem where
  structNode := fun uri =>
    { uri
      fields := [⟨1, "number", .optional, .i32, none⟩,
        ⟨2, "flags", .unqualified, .list .bool, none⟩,
        ⟨-3, "flag", .unqualified, .bool, some (.bool true)⟩]
      distinct := by decide
      few := by decide }
  unionNode := fun uri => { uri, fields := [], distinct := by decide, few := by decide }
  structUri := fun _ => rfl
  unionUri := fun _ => rfl

/-- A struct with an absent field, and the same struct with its fields out of order, one of them
twice, around a boolean with an unknown id. -/
theorem dynamic_roundTrip_struct :
    let d : Datum := .struct "S" [.null, .list .bool [.bool true, .bool false], .bool false]
    (∃ bytes d', serializeValue exampleTypes 12000 .compact d = .ok bytes ∧
      deserializeValue exampleTypes 1 12000 .compact (.struct "S") bytes = .ok (d', []) ∧
        d.equals d' = true) ∧
    (∃ bytes, serializeStruct exampleTypes 12000 .compact "S"
        [.known 2 (.bool false), .known 0 (.i32 5), .unknownBool 7 true, .known 0 (.i32 6)] =
          .ok bytes ∧
      deserializeValue exampleTypes 1 12000 .compact (.struct "S") bytes =
        .ok (.struct "S" [.i32 6, .emptyList .bool, .bool false], [])) := by
  intro d
  have creates : create exampleTypes 1 (exampleTypes.structNode "S") =
      .ok [.null, .emptyList .bool, .bool true] := rfl
  have typed : HasType exampleTypes 1 d (.struct "S") :=
    ⟨rfl, ⟨_, creates⟩, .inl ⟨rfl, rfl⟩, .inr ⟨rfl, trivial, trivial, trivial⟩, .inr trivial,
      trivial⟩
  have valid : ∀ w ∈ [WireField.known 2 (.bool false), .known 0 (.i32 5), .unknownBool 7 true,
      .known 0 (.i32 6)],
      w.Valid exampleTypes 1 12000 .compact (exampleTypes.structNode "S") 12000 := by
    intro w member
    simp only [List.mem_cons, List.not_mem_nil, or_false] at member
    rcases member with rfl | rfl | rfl | rfl
    · exact ⟨_, rfl, trivial, trivial, by decide⟩
    · exact ⟨_, rfl, trivial, trivial, by decide⟩
    · exact ⟨by decide, by decide⟩
    · exact ⟨_, rfl, trivial, trivial, by decide⟩
  have both := dynamic_roundTrip exampleTypes 1 12000 .compact
  refine ⟨both.1 d (.struct "S") typed ?_ (by decide) ?_, both.2 "S" _ _ (by decide) creates valid⟩
  · exact ⟨trivial, trivial, ⟨by simp [Datum.Fits], trivial, trivial, trivial⟩, trivial, trivial⟩
  · exact ⟨trivial, trivial, ⟨trivial, trivial, trivial, trivial⟩, trivial, trivial⟩

/-! ## The limits -/

def nestedType : Nat → TypeRef
  | 0 => .i32
  | n + 1 => .list (nestedType n)

/-- An empty list of numbers, `n` lists deep. -/
def nestedLists : Nat → Datum
  | 0 => .list .i32 []
  | n + 1 => .list (nestedType (n + 1)) [nestedLists n]

theorem hasType_nestedLists (ts : TypeSystem) (stack n : Nat) :
    HasType ts stack (nestedLists n) (nestedType (n + 1)) := by
  induction n with
  | zero => exact ⟨rfl, trivial⟩
  | succ n ih => exact ⟨rfl, ih, trivial⟩

theorem writeListBegin_error (p : Protocol) (type : TType) (size : UInt32) {w : Writer}
    (low : w.height ≤ 1) : ∃ err, p.writer.writeListBegin type size w = .error err := by
  have refused : WriteM.descend w = .error exceededDepthLimit := by
    unfold WriteM.descend
    rw [if_pos (by omega)]
  cases p <;> exact ⟨_, Run.bind_of_error refused⟩

theorem serialize_nestedLists_error (ts : TypeSystem) (p : Protocol) (n : Nat) (w : Writer)
    (low : w.height ≤ n + 1) (pending : w.booleanField = none) :
    ∃ err, serialize ts p.writer (nestedLists n) w = .error err := by
  by_cases bottom : w.height ≤ 1
  · obtain ⟨err, refused⟩ := writeListBegin_error p (nestedType n).toTType
      (UInt32.ofNat (match n with | 0 => 0 | _ + 1 => 1)) bottom
    cases n <;> exact ⟨err, Run.bind_of_error refused⟩
  · cases n with
    | zero => omega
    | succ n =>
      obtain ⟨hs, _, writes, _⟩ := p.list_header (nestedType (n + 1)).toTType_isValue
        (show 1 < 2 ^ 31 by omega)
      have begun := writes w (by omega) pending
      obtain ⟨err, inner⟩ := serialize_nestedLists_error ts p n (w.down.append hs)
        (by simp; omega) (by simpa using pending)
      exact ⟨err, (Run.bind_of_ok begun).trans (Run.bind_of_error (Run.bind_of_error inner))⟩

/-- Lists nested deeper than the depth limit are not written, and an empty list without storage
does not equal the one with storage that is read back. -/
theorem not_roundTrips : (HasType exampleTypes 1 (nestedLists 12000) (nestedType 12001) ∧
      ∀ bytes, serializeValue exampleTypes 12000 .compact (nestedLists 12000) ≠ .ok bytes) ∧
    (HasType exampleTypes 1 (.emptyList .i32) (.list .i32) ∧
      ∃ bytes d', serializeValue exampleTypes 12000 .compact (.emptyList .i32) = .ok bytes ∧
        deserializeValue exampleTypes 1 12000 .compact (.list .i32) bytes = .ok (d', []) ∧
          (Datum.emptyList .i32).equals d' = false) := by
  refine ⟨⟨hasType_nestedLists _ 1 12000, fun bytes ok => ?_⟩, rfl, ?_⟩
  · obtain ⟨err, refused⟩ := serialize_nestedLists_error exampleTypes .compact 12000
      (Writer.new 12000) (Nat.le_refl _) rfl
    unfold serializeValue at ok
    rw [refused] at ok
    cases ok
  · have typed : HasType exampleTypes 1 (.emptyList .i32) (.list .i32) := rfl
    obtain ⟨bytes, written, read⟩ :=
      deserializeValue_serializeValue exampleTypes 1 12000 .compact typed trivial (by decide)
    exact ⟨bytes, _, written, read, rfl⟩

end FbThrift.Dynamic
