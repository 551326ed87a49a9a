import FbThrift.Dynamic.StructFields

/-!
# Dynamic values are read back

`deserializeValue` inverts `serializeValue` on every well-typed value within the limits of the
protocols.  The induction is on the datum; it gives `reread`, which is the datum itself when its
storage is as reading leaves it.  A struct is an instance of fields in any order.
-/

namespace FbThrift.Dynamic

open FbThrift Datum

/-! ## Headers without elements -/

/-- A list without storage is written with no element type, which the reader never looks at. -/
theorem list_header_void (p : Protocol) : ∃ type, HeaderTrip (p.writer.writeListBegin .void 0)
    p.reader.readListBegin (type, 0) := by
  cases p with
  | binary =>
    obtain ⟨bs, long, writes, reads⟩ := Protocol.i32_roundTrip .binary 1 0
    refine ⟨.void, HeaderTrip.of_roundTrip ⟨[TType.void.toByte] ++ bs, by simp,
      (Writes.push _ 1).seq writes, ?_⟩⟩
    refine (Reads.decode (Decoder.decodes_readByte _) 1).bind ?_
    rw [← List.append_nil bs]
    exact reads.bind ((reads_checkContainerSize rfl 1).bind_pure fun n => (TType.void, n))
  | compact =>
    refine ⟨.stop, HeaderTrip.of_roundTrip ⟨[0], Nat.le_refl 1, .push _ 1, ?_⟩⟩
    refine (Reads.decode (Decoder.decodes_readByte _) 1).bind (v := []) ?_
    refine (Reads.pure (0 : Int32) 1).bind (v := []) ?_
    exact (reads_checkContainerSize rfl 1).bind (v := [])
      ((reads_getType rfl 1).bind_pure fun elem => (elem, 0))

section Containers

variable {α : Type} {h n types : Nat} {write : WriteM} {element : ReadM α} {as : List α}
variable {check : ReadM Unit}

theorem containerElements_zero (check : ReadM Unit) (types h : Nat)
    (element : ReadM α) : RoundTrip h 0 (pure ()) (containerElements check types 0 element) [] :=
  ⟨[], Nat.le_refl 0, fun w _ _ => by rw [Run.pure_run, Writer.append_nil], .pure [] h⟩

theorem containerElements_trip (passes : ∀ r, n ≠ 0 → check r = .ok ((), r))
    (trip : RoundTrip h (n * types) write (ReadM.times element n) as) :
    RoundTrip h (n * types) write (containerElements check types n element) as := by
  by_cases empty : n = 0
  · subst empty
    exact trip
  obtain ⟨bs, long, writes, reads⟩ := trip.parseElements
  refine ⟨bs, long, writes, fun r rest input high pending => ?_⟩
  unfold Dynamic.containerElements
  rw [if_neg empty, Run.bind_of_ok (passes r empty)]
  exact reads r rest input high pending

end Containers

/-! ## Structs -/

section Present

variable {ts : TypeSystem} {stack : Nat} {p : Protocol}

/-- The fields of a struct that are written, from the one with index `i` on. -/
def presentFields : (i : Nat) → List FieldDefinition → List Datum → List WireField
  | i, field :: fields, value :: values =>
    if hasField field value then .known i value :: presentFields (i + 1) fields values
    else presentFields (i + 1) fields values
  | _, _, _ => []

theorem serializeFields_eq {node : StructuredNode} {before fields : List FieldDefinition}
    (all : node.fields = before ++ fields) (values : List Datum) :
    serializeFields ts p.writer fields values =
      serializeWireFields ts p node (presentFields before.length fields values) := by
  induction values generalizing before fields with
  | nil => cases fields <;> rfl
  | cons value values ih =>
    cases fields with
    | nil => rfl
    | cons field fields =>
      have moved : node.fields = (before ++ [field]) ++ fields := by simp [all]
      have rest := ih moved
      rw [List.length_append, List.length_singleton] at rest
      have found : node.fields[before.length]? = some field := by simp [all]
      unfold serializeFields presentFields
      rw [rest]
      split
      · simp [serializeWireFields, serializeWireField, found]
      · simp

/-- What `create` leaves in the optional fields. -/
theorem create_optional {created : List Datum} {node : StructuredNode}
    (creates : create ts stack node = .ok created) :
    List.Forall₂ (fun field d => field.presence = .optional → d = .null) node.fields created := by
  cases stack with
  | zero => cases creates
  | succ stack =>
    unfold create at creates
    generalize node.fields = fields at creates
    induction fields generalizing created with
    | nil =>
      cases creates
      exact .nil
    | cons field fields ih =>
      rw [List.mapM_cons] at creates
      obtain ⟨d, first, others⟩ := Except.bind_eq_ok creates
      obtain ⟨ds, rest, whole⟩ := Except.bind_eq_ok others
      cases whole
      refine .cons (fun optional => ?_) (ih rest)
      rw [if_pos optional] at first
      cases first
      rfl

theorem foldl_presentFields {before values : List Datum} {fields : List FieldDefinition}
    {created : List Datum} (typed : FieldsHaveType ts stack fields values)
    (nulls : List.Forall₂ (fun field d => field.presence = .optional → d = .null) fields created) :
    (presentFields before.length fields values).foldl WireField.assign (before ++ created) =
      before ++ rereadElements values := by
  induction values generalizing before fields created with
  | nil =>
    cases fields with
    | nil =>
      cases nulls
      rfl
    | cons field fields => exact typed.elim
  | cons value values ih =>
    cases fields with
    | nil => exact typed.elim
    | cons field fields =>
      obtain _ | ⟨null, rest⟩ := nulls
      rename_i d created
      have next : ∀ x : Datum, (presentFields (before.length + 1) fields values).foldl
          WireField.assign (before ++ x :: created) = before ++ x :: rereadElements values := by
        intro x
        have moved : before ++ x :: created = (before ++ [x]) ++ created := by simp
        have longer : before.length + 1 = (before ++ [x]).length := by simp
        rw [moved, longer, ih typed.2 rest]
        simp
      unfold presentFields
      split
      next present =>
        rw [List.foldl_cons]
        show List.foldl WireField.assign ((before ++ d :: created).set before.length _) _ = _
        rw [List.set_append_right _ _ (Nat.le_refl _), Nat.sub_self, List.set_cons_zero]
        exact next _
      next absent =>
        have both : field.presence = .optional ∧ value.isNull = true := by
          simpa [hasField] using absent
        have isNull : value = .null := by
          cases value <;> simp_all [Datum.isNull]
        rw [null both.1, isNull]
        exact next _

theorem nest_le_of_mem {es : List Datum} {e : Datum} (member : e ∈ es) :
    e.nest ≤ nestElements es := by
  induction es with
  | nil => cases member
  | cons e' es ih =>
    rcases List.mem_cons.mp member with rfl | later
    · exact le_max_left _ _
    · exact (ih later).trans (le_max_right _ _)

theorem all_of_mem {P : Datum → Prop} {es : List Datum} {e : Datum} (all : AllElements P es)
    (member : e ∈ es) : e.All P := by
  induction es with
  | nil => cases member
  | cons e' es ih =>
    rcases List.mem_cons.mp member with rfl | later
    · exact all.1
    · exact ih all.2 later

theorem of_mem_presentFields {i : Nat} {fields : List FieldDefinition} {values : List Datum}
    {w : WireField} (typed : FieldsHaveType ts stack fields values)
    (member : w ∈ presentFields i fields values) :
    ∃ k field value, w = .known (i + k) value ∧ fields[k]? = some field ∧ value ∈ values ∧
      (HasType ts stack value field.type) := by
  induction values generalizing i fields with
  | nil => cases fields <;> simp [presentFields] at member
  | cons value values ih =>
    cases fields with
    | nil => exact typed.elim
    | cons field fields =>
      unfold presentFields at member
      have later : w ∈ presentFields (i + 1) fields values → ∃ k field' value',
          w = .known (i + k) value' ∧ (field :: fields)[k]? = some field' ∧
            value' ∈ value :: values ∧ HasType ts stack value' field'.type := by
        intro tail
        obtain ⟨k, field', value', rfl, found, inside, has⟩ := ih typed.2 tail
        exact ⟨k + 1, field', value', by rw [Nat.add_right_comm, Nat.add_assoc],
          by simpa using found,
          List.mem_cons_of_mem _ inside, has⟩
      split at member
      next present =>
        rcases List.mem_cons.mp member with rfl | tail
        · refine ⟨0, field, value, rfl, rfl, by simp, ?_⟩
          rcases typed.1 with ⟨optional, rfl⟩ | has
          · simp [hasField, optional, Datum.isNull] at present
          · exact has
        · exact later tail
      next => exact later member

end Present

/-! ## Values -/

section Values

variable {ts : TypeSystem} {stack : Nat} (maxDepth : Nat) (p : Protocol)

/-- A value behind the header of its field; that of a boolean may be in the header. -/
theorem value_field_trip {h : Nat} {d : Datum} (field : FieldDefinition) (pos : 1 ≤ h)
    (typed : HasType ts stack d field.type)
    (trip : RoundTrip h 1 (serialize ts p.writer d)
      (deserializeAt ts stack maxDepth p h field.type) d.reread) :
    FieldTrip p h field.wireType field.id (serialize ts p.writer d)
      (deserializeAt ts stack maxDepth p h field.type) d.reread := by
  unfold FieldDefinition.wireType
  by_cases isBool : field.type = .bool
  · rw [isBool] at typed ⊢
    obtain ⟨b, rfl⟩ : ∃ b, d = .bool b := by cases d <;> simp_all [HasType]
    obtain ⟨h, rfl⟩ : ∃ m, h = m + 1 := ⟨h - 1, by omega⟩
    intro last
    obtain ⟨fs, long, writes, reads⟩ := p.bool_field_trip (h + 1) field.id b last
    refine ⟨fs, long, writes, fun r rest input high pending same => ?_⟩
    obtain ⟨mid, header, read⟩ := reads r rest input high pending same
    exact ⟨mid, header, Run.map_of_ok read Datum.bool⟩
  · have notBool : field.type.toTType ≠ .bool := by
      cases type : field.type <;> simp_all [TypeRef.toTType]
    exact p.field_trip field.type.toTType_isValue notBool field.id trip

theorem union_trip {h : Nat} {uri : Uri} {active : Nat} {field : FieldDefinition} {d d' : Datum}
    {value : TypeRef → ReadM Datum} (pos : 1 ≤ h)
    (found : (ts.unionNode uri).fields[active]? = some field)
    (trip : FieldTrip p h field.wireType field.id (serialize ts p.writer d) (value field.type) d') :
    RoundTrip (h + 1) 1 (serialize ts p.writer (.union uri active d))
      (deserializeUnion ts maxDepth p value uri) (.union uri active d') := by
  obtain ⟨fs, long, written, read⟩ := trip 0
  have stop : FieldsRead p h (p.nextLast 0 field.id) [0]
      (fun left => readUnionStop p.reader (p.skipAt maxDepth) left (.union uri active d'))
      (.union uri active d') := by
    refine (stopReads p).fieldsRead fun r r' left begun => ?_
    rw [readUnionStop, Run.bind_of_ok begun]
    rfl
  have whole : FieldsRead p h 0 (fs ++ [0])
      (readUnionFields p.reader value (p.skipAt maxDepth) (ts.unionNode uri))
      (.union uri active d') := by
    refine FieldsRead.cons_field long read stop fun r mid s left header taken => ?_
    have notStop : field.wireType ≠ .stop := field.type.toTType_ne_stop
    rw [readUnionFields, Run.bind_of_ok header]
    show (if field.wireType = .stop then _ else _ : ReadM Datum) mid = _
    rw [if_neg notStop, handle_of_getElem? found]
    show ((ts.unionNode uri).at active >>= _ : ReadM Datum) mid = _
    rw [Run.bind_of_ok (at_of_getElem? found mid), Run.bind_of_ok (checkType_self _ _ mid),
      Run.bind_of_ok taken, ts.unionUri]
  have writes := (FieldsWritten.cons written (.stop p h _)).struct pos
  refine ⟨fs ++ [0], by simp, ?_, whole.struct pos id⟩
  simp only [serialize, found]
  simpa only [bind_assoc] using writes

theorem emptyUnion_trip {h : Nat} (uri : Uri) (value : TypeRef → ReadM Datum) (pos : 1 ≤ h) :
    RoundTrip (h + 1) 1 (serialize ts p.writer (.emptyUnion uri))
      (deserializeUnion ts maxDepth p value uri) (.emptyUnion uri) := by
  have whole : FieldsRead p h 0 [0]
      (readUnionFields p.reader value (p.skipAt maxDepth) (ts.unionNode uri))
      (.emptyUnion uri) := by
    refine (stopReads p).fieldsRead fun r r' left begun => ?_
    rw [readUnionFields, Run.bind_of_ok begun]
    show Except.ok (Datum.emptyUnion (ts.unionNode uri).uri, r') = _
    rw [ts.unionUri]
  exact ⟨[0], Nat.le_refl 1, (FieldsWritten.stop p h 0).struct pos, whole.struct pos id⟩

mutual

/-- A well-typed datum is written and read back. -/
theorem datum_trip (d : Datum) (type : TypeRef) (typed : HasType ts stack d type)
    (fits : d.All Fits) (h : Nat) (shallow : d.nest < h) :
    RoundTrip h 1 (serialize ts p.writer d) (deserializeAt ts stack maxDepth p h type)
      d.reread := by
  obtain ⟨h, rfl⟩ : ∃ m, h = m + 1 := ⟨h - 1, by omega⟩
  cases d with
  | null => cases type <;> exact typed.elim
  | bool b =>
    cases type <;> first | exact typed.elim | skip
    exact (p.bool_roundTrip _ b).map Datum.bool
  | byte n =>
    cases type <;> first | exact typed.elim | skip
    exact (p.byte_roundTrip _ n).map Datum.byte
  | i16 n =>
    cases type <;> first | exact typed.elim | skip
    exact (p.i16_roundTrip _ n).map Datum.i16
  | i32 n =>
    cases type <;> first | exact typed.elim | exact (p.i32_roundTrip _ n).map Datum.i32
  | i64 n =>
    cases type <;> first | exact typed.elim | skip
    exact (p.i64_roundTrip _ n).map Datum.i64
  | string s =>
    cases type <;> first | exact typed.elim | skip
    exact (p.binary_roundTrip _ fits).map Datum.string
  | binary data =>
    cases type <;> first | exact typed.elim | skip
    cases data with
    | none => exact (p.binary_roundTrip _ (s := []) (by simp)).map fun s => Datum.binary (some s)
    | some s => exact (p.binary_roundTrip _ fits).map fun s => Datum.binary (some s)
  | emptyList t =>
    cases type <;> first | exact typed.elim | skip
    rename_i type
    obtain rfl : t = type := typed
    obtain ⟨ttype, header⟩ := list_header_void p
    have whole := header.nest
      (fun header => containerElements (checkType "list element" t.toTType header.1) 1 header.2
        (deserializeAt ts stack maxDepth p h t)) (Datum.list t) (by unfold nest at shallow; omega)
      (containerElements_zero _ 1 h _)
    simp only [pure_bind] at whole
    cases p <;> exact whole
  | list t es =>
    cases type <;> first | exact typed.elim | skip
    rename_i type
    obtain ⟨rfl, elements⟩ := typed
    have below : nestElements es < h := by unfold nest at shallow; omega
    have body := (elements_trip es t elements fits.2 h below).mono (m := es.length * 1) (by omega)
    have whole := (p.list_header t.toTType_isValue fits.1).nest
      (fun header => containerElements (checkType "list element" t.toTType header.1) 1 header.2
        (deserializeAt ts stack maxDepth p h t)) (Datum.list t) (by omega)
      (containerElements_trip (fun r _ => checkType_self _ _ r) body)
    cases p <;> exact whole
  | emptySet t =>
    cases type <;> first | exact typed.elim | skip
    rename_i type
    obtain rfl : t = type := typed
    have whole := (p.set_header (n := 0) t.toTType_isValue (by omega)).nest
      (fun header => containerElements (checkType "set element" t.toTType header.1) 1 header.2
        (deserializeAt ts stack maxDepth p h t)) (makeSet t) (by unfold nest at shallow; omega)
      (containerElements_zero _ 1 h _)
    simp only [pure_bind] at whole
    cases p <;> exact whole
  | set t es =>
    cases type <;> first | exact typed.elim | skip
    rename_i type
    obtain ⟨rfl, elements, _⟩ := typed
    have below : nestElements es < h := by unfold nest at shallow; omega
    have body := (elements_trip es t elements fits.2 h below).mono (m := es.length * 1) (by omega)
    have whole := (p.set_header t.toTType_isValue fits.1).nest
      (fun header => containerElements (checkType "set element" t.toTType header.1) 1 header.2
        (deserializeAt ts stack maxDepth p h t)) (makeSet t) (by omega)
      (containerElements_trip (fun r _ => checkType_self _ _ r) body)
    cases p <;> exact whole
  | emptyMap k v =>
    cases type <;> first | exact typed.elim | skip
    rename_i key value
    obtain ⟨rfl, rfl⟩ : k = key ∧ v = value := typed
    obtain ⟨keyType, valueType, _, header⟩ :=
      p.map_header (n := 0) k.toTType_isValue v.toTType_isValue (by omega)
    have whole := header.nest (fun header => containerElements (do
          checkType "map key" k.toTType header.1
          checkType "map value" v.toTType header.2.1) 2 header.2.2 (do
          let key ← deserializeAt ts stack maxDepth p h k
          let value ← deserializeAt ts stack maxDepth p h v
          pure (key, value))) (makeMap k v) (by unfold nest at shallow; omega)
      (containerElements_zero _ 2 h _)
    simp only [pure_bind] at whole
    cases p <;> exact whole
  | map k v es =>
    cases type <;> first | exact typed.elim | skip
    rename_i key value
    obtain ⟨⟨rfl, rfl⟩, entries, _⟩ := typed
    have below : nestEntries es < h := by unfold nest at shallow; omega
    obtain ⟨keyType, valueType, kept, header⟩ :=
      p.map_header k.toTType_isValue v.toTType_isValue fits.1
    have passes : ∀ r, es.length ≠ 0 → (do
        checkType "map key" k.toTType keyType
        checkType "map value" v.toTType valueType : ReadM Unit) r = .ok ((), r) := by
      intro r nonempty
      obtain ⟨rfl, rfl⟩ := kept nonempty
      rw [Run.bind_of_ok (checkType_self _ _ r)]
      exact checkType_self _ _ r
    have whole := header.nest (fun header => containerElements (do
          checkType "map key" k.toTType header.1
          checkType "map value" v.toTType header.2.1) 2 header.2.2 (do
          let key ← deserializeAt ts stack maxDepth p h k
          let value ← deserializeAt ts stack maxDepth p h v
          pure (key, value))) (makeMap k v) (by omega)
      (containerElements_trip passes (entries_trip es k v entries fits.2 h below))
    cases p <;> exact whole
  | struct uri values =>
    cases type <;> first | exact typed.elim | skip
    rename_i type
    obtain ⟨rfl, ⟨created, creates⟩, fields⟩ := typed
    have below : nestElements values < h := by unfold nest at shallow; omega
    have trips := fields_trip values fits.2 h below
    have valid : ∀ w ∈ presentFields 0 (ts.structNode uri).fields values,
        w.Valid ts stack maxDepth p (ts.structNode uri) h := by
      intro w member
      obtain ⟨k, field, value, rfl, found, inside, has⟩ := of_mem_presentFields fields member
      rw [Nat.zero_add]
      exact ⟨field, found, has, all_of_mem fits.2 inside, by have := nest_le_of_mem inside; omega⟩
    have each : ∀ handle d field,
        .known handle d ∈ presentFields 0 (ts.structNode uri).fields values →
        (ts.structNode uri).fields[handle]? = some field →
        FieldTrip p h field.wireType field.id (serialize ts p.writer d)
          (deserializeAt ts stack maxDepth p h field.type) d.reread := by
      intro handle d field member found
      obtain ⟨k, field', value, same, found', inside, has⟩ := of_mem_presentFields fields member
      rw [Nat.zero_add] at same
      cases same
      obtain rfl : field' = field := Option.some.inj (found'.symm.trans found)
      exact value_field_trip maxDepth p field' (by omega) has (trips d inside _ has)
    have loop := structTrip_wireFields (by omega) _ valid each
    have whole := loop.struct (by omega) creates
    have result := @foldl_presentFields ts stack [] _ _ _ fields (create_optional creates)
    simp only [List.length_nil, List.nil_append] at result
    rw [result] at whole
    have written : serializeFields ts p.writer (ts.structNode uri).fields values =
        serializeWireFields ts p (ts.structNode uri)
          (presentFields 0 (ts.structNode uri).fields values) :=
      serializeFields_eq (List.nil_append _).symm values
    simp only [bind_assoc] at whole
    simp only [serialize, written]
    exact whole
  | emptyUnion uri =>
    cases type <;> first | exact typed.elim | skip
    rename_i type
    obtain rfl : uri = type := typed
    exact emptyUnion_trip maxDepth p uri _ (by unfold nest at shallow; omega)
  | union uri active value =>
    cases type <;> first | exact typed.elim | skip
    rename_i type
    obtain ⟨rfl, field, found, has⟩ := typed
    have below : value.nest < h := by unfold nest at shallow; omega
    have inner := datum_trip value field.type has fits.2 h below
    exact union_trip maxDepth p (by omega) found
      (value_field_trip maxDepth p field (by omega) has inner)
termination_by structural d

theorem elements_trip (es : List Datum) (type : TypeRef) (typed : ElementsHaveType ts stack es type)
    (fits : AllElements Fits es) (h : Nat) (shallow : nestElements es < h) :
    RoundTrip h es.length (serializeElements ts p.writer es)
      (ReadM.times (deserializeAt ts stack maxDepth p h type) es.length) (rereadElements es) := by
  cases es with
  | nil => exact .times_nil h _
  | cons e es =>
    unfold nestElements at shallow
    have head := datum_trip e type typed.1 fits.1 h (by omega)
    have tail := elements_trip es type typed.2 fits.2 h (by omega)
    exact (head.times_cons tail).mono (by rw [List.length_cons]; omega)
termination_by structural es

theorem entries_trip (es : List (Datum × Datum)) (key value : TypeRef)
    (typed : EntriesHaveType ts stack es key value) (fits : AllEntries Fits es) (h : Nat)
    (shallow : nestEntries es < h) :
    RoundTrip h (es.length * 2) (serializeEntries ts p.writer es) (ReadM.times (do
        let k ← deserializeAt ts stack maxDepth p h key
        let v ← deserializeAt ts stack maxDepth p h value
        pure (k, v)) es.length) (rereadEntries es) := by
  cases es with
  | nil => exact .times_nil h _
  | cons e es =>
    obtain ⟨k, v⟩ := e
    unfold nestEntries at shallow
    obtain ⟨bs, long, writes, reads⟩ := datum_trip k key typed.1.1 fits.1.1 h (by omega)
    obtain ⟨cs, long', writes', reads'⟩ := datum_trip v value typed.1.2 fits.1.2 h (by omega)
    have pair : RoundTrip h 2 (serialize ts p.writer k >>= fun _ => serialize ts p.writer v) (do
          let k ← deserializeAt ts stack maxDepth p h key
          let v ← deserializeAt ts stack maxDepth p h value
          pure (k, v)) (k.reread, v.reread) :=
      ⟨bs ++ cs, by rw [List.length_append]; omega, writes.seq writes',
        reads.bind (reads'.bind_pure fun v => (k.reread, v))⟩
    have tail := entries_trip es key value typed.2 fits.2 h (by omega)
    have whole := (pair.times_cons tail).mono (m := (es.length + 1) * 2) (by omega)
    simpa only [serializeEntries, rereadEntries, bind_assoc, List.length_cons] using whole
termination_by structural es

theorem fields_trip (values : List Datum) (fits : AllElements Fits values) (h : Nat)
    (shallow : nestElements values < h) : ∀ d ∈ values, ∀ type, HasType ts stack d type →
    RoundTrip h 1 (serialize ts p.writer d) (deserializeAt ts stack maxDepth p h type)
      d.reread := by
  cases values with
  | nil => simp
  | cons value values =>
    unfold nestElements at shallow
    have first := fun type has => datum_trip value type has fits.1 h (by omega)
    have rest := fields_trip values fits.2 h (by omega)
    intro d member type has
    rcases List.mem_cons.mp member with same | later
    · rw [same] at has ⊢
      exact first type has
    · exact rest d later type has
termination_by structural values

end

end Values

end FbThrift.Dynamic
