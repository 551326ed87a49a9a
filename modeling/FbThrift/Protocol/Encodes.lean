import FbThrift.Protocol.RoundTrip

/-!
# The wire format

`Encodes p h type bs v` says that `bs` is a well-formed encoding of `v` with fewer than `h`
levels of nesting: every header and every scalar is one that the reader of `p` takes,
whether or not a writer would choose that form, and field ids and map keys are unique.
Wire types are the ones that writers use, so a string has the type `T_STRING`.

Parsing an encoding returns its value, and the value is one that the writer takes.
-/

namespace FbThrift

open Decoder SortedMap Value

/-- The encodings of the elements of a list, one after the other. -/
inductive EncodesSeq {α : Type} (enc : Bytes → α → Prop) : Bytes → List α → Prop
  | nil : EncodesSeq enc [] []
  | cons {bs cs : Bytes} {a : α} {as : List α} (first : enc bs a) (rest : EncodesSeq enc cs as) :
      EncodesSeq enc (bs ++ cs) (a :: as)

/-- The fields of a struct and its stop, behind a field with id `last`.  A boolean of Compact
has no bytes besides its header. -/
inductive EncodesFields (p : Protocol) (enc : TType → Bytes → Value → Prop) :
    Int16 → Bytes → List (Int16 × Value) → Prop
  | stop {last : Int16} {fs : Bytes} (header : StopReads p fs) : EncodesFields p enc last fs []
  | field {last id : Int16} {hs bs fs : Bytes} {type : TType} {v : Value}
      {ms : List (Int16 × Value)} (header : FieldHeaderReads p last hs type id none)
      (value : enc type bs v) (rest : EncodesFields p enc (p.nextLast last id) fs ms) :
      EncodesFields p enc last (hs ++ (bs ++ fs)) ((id, v) :: ms)
  | boolField {last id : Int16} {hs fs : Bytes} {b : Bool} {ms : List (Int16 × Value)}
      (compact : p = .compact) (header : FieldHeaderReads p last hs .bool id (some b))
      (rest : EncodesFields p enc (p.nextLast last id) fs ms) :
      EncodesFields p enc last (hs ++ fs) ((id, .bool b) :: ms)

/-- A key and its value. -/
def EncodesPair (key value : Bytes → Value → Prop) (bs : Bytes) (e : Value × Value) : Prop :=
  ∃ ks vs, bs = ks ++ vs ∧ key ks e.1 ∧ value vs e.2

/-- The bytes are a well-formed encoding of the value, for fewer than `h` levels. -/
def Encodes (p : Protocol) : Nat → TType → Bytes → Value → Prop
  | 0, _, _, _ => False
  | h + 1, type, bs, v => 1 ≤ bs.length ∧
    match type with
    | .bool => ∃ b, Reads p.reader.readBool 0 bs b ∧ v = .bool b
    | .byte => ∃ n, Reads p.reader.readByte 0 bs n ∧ v = .byte n
    | .i16 => ∃ n, Reads p.reader.readI16 0 bs n ∧ v = .i16 n
    | .i32 => ∃ n, Reads p.reader.readI32 0 bs n ∧ v = .i32 n
    | .i64 => ∃ n, Reads p.reader.readI64 0 bs n ∧ v = .i64 n
    | .float => ∃ n, Reads p.reader.readFloat 0 bs n ∧ v = .float n
    | .double => ∃ n, Reads p.reader.readDouble 0 bs n ∧ v = .double n
    | .string => ∃ s, s.length < 2 ^ 31 ∧ Reads p.reader.readBinary 0 bs s ∧ v = .binary s
    | .struct => ∃ ms, 1 ≤ h ∧ EncodesFields p (Encodes p h) 0 bs ms ∧ (ms.map Prod.fst).Nodup ∧
        v = .object (ofList ms)
    | .list => ∃ hs cs elem vs, 1 ≤ h ∧ bs = hs ++ cs ∧ vs.length < 2 ^ 31 ∧
        HeaderReads p.reader.readListBegin hs (elem, vs.length) ∧
        EncodesSeq (Encodes p h elem) cs vs ∧ v = .list vs
    | .set => ∃ hs cs elem vs, 1 ≤ h ∧ bs = hs ++ cs ∧ vs.length < 2 ^ 31 ∧
        HeaderReads p.reader.readSetBegin hs (elem, vs.length) ∧
        EncodesSeq (Encodes p h elem) cs vs ∧ v = .set (SortedSet.ofList vs)
    | .map => ∃ hs cs key value es, 1 ≤ h ∧ bs = hs ++ cs ∧ es.length < 2 ^ 31 ∧
        HeaderReads p.reader.readMapBegin hs (key, value, es.length) ∧
        EncodesSeq (EncodesPair (Encodes p h key) (Encodes p h value)) cs es ∧
        (es.map Prod.fst).Nodup ∧ v = .map (ofList es)
    | _ => False

section Reading

variable {p : Protocol} {h : Nat} {type : TType} {bs : Bytes} {v : Value}

theorem Encodes.length_pos (encodes : Encodes p h type bs v) : 1 ≤ bs.length := by
  cases h with
  | zero => exact encodes.elim
  | succ h => exact encodes.1

theorem Encodes.isValue (encodes : Encodes p h type bs v) : type.IsValue := by
  cases h with
  | zero => exact encodes.elim
  | succ h =>
    obtain ⟨_, encodes⟩ := encodes
    cases type <;> first
      | exact encodes.elim
      | decide

theorem Encodes.ne_stop (encodes : Encodes p h type bs v) : type ≠ .stop := by
  rintro rfl
  have valued := encodes.isValue
  simp [TType.IsValue] at valued

/-! ## Parsing an encoding -/

theorem Reads.of_zero {α : Type} {read : ReadM α} {bs : Bytes} {a : α} (reads : Reads read 0 bs a)
    (h : Nat) : Reads read h bs a :=
  fun r rest input _ pending => reads r rest input (Nat.zero_le _) pending

theorem EncodesSeq.imp {α : Type} {enc enc' : Bytes → α → Prop} {cs : Bytes} {as : List α}
    (seq : EncodesSeq enc cs as) (implies : ∀ bs, ∀ a ∈ as, enc bs a → enc' bs a) :
    EncodesSeq enc' cs as := by
  induction seq with
  | nil => exact .nil
  | cons first rest ih =>
    exact .cons (implies _ _ (by simp) first)
      (ih fun bs a member => implies bs a (by simp [member]))

theorem EncodesFields.imp {enc enc' : TType → Bytes → Value → Prop} {last : Int16}
    {ms : List (Int16 × Value)} (fields : EncodesFields p enc last bs ms)
    (implies : ∀ type bs, ∀ e ∈ ms, enc type bs e.2 → enc' type bs e.2) :
    EncodesFields p enc' last bs ms := by
  induction fields with
  | stop header => exact .stop header
  | @field last id hs bs fs type v ms header value rest ih =>
    exact .field header (implies _ _ (id, v) (by simp) value)
      (ih fun type bs e member => implies type bs e (by simp [member]))
  | boolField compact header rest ih =>
    exact .boolField compact header (ih fun type bs e member => implies type bs e (by simp [member]))

/-- A sequence is read element by element, a byte or more each. -/
theorem EncodesSeq.reads {α β : Type} {enc : Bytes → α → Prop} {elem : ReadM β} {g : α → β}
    {cs : Bytes} {as : List α} {k : Nat} (seq : EncodesSeq enc cs as)
    (each : ∀ bs a, enc bs a → Reads elem h bs (g a) ∧ k ≤ bs.length) :
    Reads (ReadM.times elem as.length) h cs (as.map g) ∧ as.length * k ≤ cs.length := by
  induction seq with
  | nil => exact ⟨.pure [] h, by simp⟩
  | @cons bs cs a as first rest ih =>
    obtain ⟨reads, long⟩ := each bs a first
    obtain ⟨readsRest, longRest⟩ := ih
    refine ⟨reads.bind (readsRest.bind_pure fun as => g a :: as), ?_⟩
    rw [List.length_cons, List.length_append, Nat.add_mul, Nat.one_mul]
    omega

/-- The same behind the check that the input is long enough. -/
theorem EncodesSeq.reads_parseElements {α : Type} {enc : Bytes → α → Prop} {cs : Bytes}
    {as : List α} {k : Nat} (seq : EncodesSeq enc cs as) (elem : ReadM α)
    (each : ∀ bs a, enc bs a → Reads elem h bs a ∧ k ≤ bs.length) :
    Reads (parseElements k as.length elem) h cs as := by
  obtain ⟨reads, long⟩ := seq.reads (g := id) each
  rw [List.map_id] at reads
  intro r rest input high pending
  have check : ReadM.canReadNElements as.length k r = .ok (true, r) := by
    unfold ReadM.canReadNElements
    rw [decide_eq_true (by rw [input, List.length_append]; omega)]
  unfold parseElements
  rw [Run.bind_of_ok check]
  exact reads r rest input high pending

theorem HeaderReads.nest {α β γ : Type} {headerRead : ReadM α} {header : α} {hs cs : Bytes}
    {body : β} (bodyRead : α → ReadM β) (g : β → γ) (headers : HeaderReads headerRead hs header)
    (pos : 1 ≤ h) (bodies : Reads (bodyRead header) h cs body) :
    Reads (headerRead >>= fun header => bodyRead header >>= fun body =>
      ReadM.ascend >>= fun _ => pure (g body)) (h + 1) (hs ++ cs) (g body) := by
  intro r rest input high pending
  rw [List.append_assoc] at input
  have low : h ≤ (r.down.withInput (cs ++ rest)).height := by
    simp only [Reader.height_withInput, Reader.height_down]
    omega
  have back : r.height - 1 + 1 = r.height := by omega
  rw [Run.bind_of_ok (headers.2 r (cs ++ rest) input (by omega) pending),
    Run.bind_of_ok (bodies (r.down.withInput (cs ++ rest)) rest rfl low pending)]
  show Except.ok (g body, { r.withInput rest with height := r.height - 1 + 1 }) = _
  rw [back]
  rfl

/-- The loop over the fields, when each value reads as `g` of it. -/
theorem EncodesFields.reads {α : Type} {enc : TType → Bytes → Value → Prop} {last : Int16}
    {ms : List (Int16 × Value)} (fields : EncodesFields p enc last bs ms)
    (value : TType → ReadM α) (g : Value → α)
    (each : ∀ type bs v, enc type bs v → type ≠ .stop ∧ Reads (value type) h bs (g v))
    (bools : ∀ (r : Reader) (b : Bool), (∃ id, (id, .bool b) ∈ ms) → p = .compact →
      r.boolValue = some b → value .bool r = .ok (g (.bool b), { r with boolValue := none })) :
    FieldsRead p h last bs (ReadM.fields p.reader value) (ms.map fun e => (e.1, g e.2)) := by
  induction fields with
  | stop header =>
    refine header.fieldsRead fun r r' left begun => ?_
    rw [ReadM.fields, Run.bind_of_ok begun]
    rfl
  | @field last id hs bs fs type v ms header enc rest ih =>
    obtain ⟨notStop, reads⟩ := each type bs v enc
    obtain ⟨lasts, kept, below⟩ := ih fun r b member =>
      bools r b (member.imp fun _ => List.mem_cons_of_mem _)
    have others : FieldsRead p h (p.nextLast last id) fs (fun left => do
        let rest ← ReadM.fields p.reader value left
        pure ((id, g v) :: rest)) ((id, g v) :: ms.map fun e => (e.1, g e.2)) :=
      ⟨lasts, kept, fun r tail left input high pending same room =>
        Run.bind_of_ok (below r tail left input high pending same room)⟩
    refine FieldsRead.cons bs header others fun r mid cs left input high pending begun => ?_
    rw [ReadM.fields, Run.bind_of_ok begun]
    show (if type = .stop then pure [] else _ : ReadM _) r = _
    rw [if_neg notStop, Run.bind_of_ok (reads r cs input high pending), ← pending]
    rfl
  | @boolField last id hs fs b ms compact header rest ih =>
    obtain ⟨lasts, kept, below⟩ := ih fun r b member =>
      bools r b (member.imp fun _ => List.mem_cons_of_mem _)
    have others : FieldsRead p h (p.nextLast last id) fs (fun left => do
        let rest ← ReadM.fields p.reader value left
        pure ((id, g (.bool b)) :: rest)) ((id, g (.bool b)) :: ms.map fun e => (e.1, g e.2)) :=
      ⟨lasts, kept, fun r tail left input high pending same room =>
        Run.bind_of_ok (below r tail left input high pending same room)⟩
    refine FieldsRead.cons [] header others fun r mid cs left input high pending begun => ?_
    obtain rfl : r.input = cs := input
    rw [ReadM.fields, Run.bind_of_ok begun]
    show (if TType.bool = .stop then pure [] else _ : ReadM _) r = _
    rw [if_neg (by decide), Run.bind_of_ok (bools r b ⟨id, by simp⟩ compact pending)]

theorem readBool_of_pending (compact : p = .compact) {r : Reader} {b : Bool}
    (pending : r.boolValue = some b) :
    p.reader.readBool r = .ok (b, { r with boolValue := none }) := by
  subst compact
  show CompactProtocolReader.readBool r = _
  unfold CompactProtocolReader.readBool
  rw [Run.get_bind, pending]
  rfl

theorem parseValueAt_of_pending (compact : p = .compact) (pos : 1 ≤ h) {r : Reader} {b : Bool}
    (pending : r.boolValue = some b) :
    parseValueAt p.reader h .bool r = .ok (.bool b, { r with boolValue := none }) := by
  obtain ⟨h, rfl⟩ : ∃ m, h = m + 1 := ⟨h - 1, by omega⟩
  exact Run.map_of_ok (readBool_of_pending compact pending) Value.bool

/-- Parsing an encoding gives its value and stops behind it. -/
theorem Encodes.reads (encodes : Encodes p h type bs v) :
    Reads (parseValueAt p.reader h type) h bs v := by
  induction h generalizing type bs v with
  | zero => exact encodes.elim
  | succ h ih =>
    obtain ⟨_, encodes⟩ := encodes
    cases type with
    | bool =>
      obtain ⟨b, reads, rfl⟩ := encodes
      exact (reads.of_zero _).map Value.bool
    | byte =>
      obtain ⟨n, reads, rfl⟩ := encodes
      exact (reads.of_zero _).map Value.byte
    | i16 =>
      obtain ⟨n, reads, rfl⟩ := encodes
      exact (reads.of_zero _).map Value.i16
    | i32 =>
      obtain ⟨n, reads, rfl⟩ := encodes
      exact (reads.of_zero _).map Value.i32
    | i64 =>
      obtain ⟨n, reads, rfl⟩ := encodes
      exact (reads.of_zero _).map Value.i64
    | float =>
      obtain ⟨n, reads, rfl⟩ := encodes
      exact (reads.of_zero _).map Value.float
    | double =>
      obtain ⟨n, reads, rfl⟩ := encodes
      exact (reads.of_zero _).map Value.double
    | string =>
      obtain ⟨s, _, reads, rfl⟩ := encodes
      exact (reads.of_zero _).map Value.binary
    | struct =>
      obtain ⟨ms, pos, fields, _, rfl⟩ := encodes
      have loop := fields.reads (parseValueAt p.reader h) id
        (fun type bs v encodes => ⟨encodes.ne_stop, ih encodes⟩)
        (fun r b _ compact pending => parseValueAt_of_pending compact pos pending)
      have whole := (loop.struct pos ofList).map Value.object
      simp only [id_eq, Prod.mk.eta, List.map_id_fun'] at whole
      exact whole
    | list =>
      obtain ⟨hs, cs, elem, vs, pos, rfl, _, header, seq, rfl⟩ := encodes
      have body := seq.reads_parseElements (k := 1) _ fun bs v encodes =>
        ⟨ih encodes, encodes.length_pos⟩
      have whole := header.nest
        (fun header => parseElements 1 header.2 (parseValueAt p.reader h header.1))
        Value.list pos body
      cases p <;> exact whole
    | set =>
      obtain ⟨hs, cs, elem, vs, pos, rfl, _, header, seq, rfl⟩ := encodes
      have body := seq.reads_parseElements (k := 1) _ fun bs v encodes =>
        ⟨ih encodes, encodes.length_pos⟩
      have whole := header.nest
        (fun header => parseElements 1 header.2 (parseValueAt p.reader h header.1))
        (fun elems => Value.set (SortedSet.ofList elems)) pos body
      cases p <;> exact whole
    | map =>
      obtain ⟨hs, cs, key, value, es, pos, rfl, _, header, seq, _, rfl⟩ := encodes
      have body := seq.reads_parseElements (k := 2) (h := h) (do
          let key ← parseValueAt p.reader h key
          let val ← parseValueAt p.reader h value
          pure (key, val)) fun bs e pair => by
        obtain ⟨ks, vs, rfl, keys, values⟩ := pair
        have long := keys.length_pos
        have long' := values.length_pos
        refine ⟨(ih keys).bind ((ih values).bind_pure fun val => (e.1, val)), ?_⟩
        rw [List.length_append]
        omega
      have whole := header.nest (fun header => parseElements 2 header.2.2 (do
            let key ← parseValueAt p.reader h header.1
            let val ← parseValueAt p.reader h header.2.1
            pure (key, val)))
        (fun entries => Value.map (ofList entries)) pos body
      cases p <;> exact whole
    | _ => exact encodes.elim

end Reading

/-! ## What an encoding can hold -/

/-- A value that a parser can return for a type: a writer takes it and gives it back. -/
structure Value.Parsed (h : Nat) (type : TType) (v : Value) : Prop where
  typed : v.getTType = type
  serializable : v.Serializable
  shallow : v.nest < h
  wf : v.Wf
  noStrings : v.NoStrings

section Parsed

variable {p : Protocol} {h : Nat} {type : TType} {bs : Bytes} {v : Value}

theorem Value.Parsed.members {ms : List (Int16 × Value)} (pos : 1 ≤ h)
    (each : ∀ e ∈ ms, ∃ type, e.2.Parsed h type) :
    SerializableMembers ms ∧ nestMembers ms < h ∧ WfMembers ms ∧ NoStringsMembers ms := by
  induction ms with
  | nil => exact ⟨trivial, pos, trivial, trivial⟩
  | cons e ms ih =>
    obtain ⟨type, typed, serializable, shallow, wf, none⟩ := each e (by simp)
    obtain ⟨s, n, w, b⟩ := ih fun e member => each e (by simp [member])
    exact ⟨⟨serializable, s⟩, max_lt shallow n, ⟨wf, w⟩, ⟨none, b⟩⟩

theorem Value.Parsed.elems {vs : List Value} (pos : 1 ≤ h) (each : ∀ v ∈ vs, v.Parsed h type) :
    SerializableElems type vs ∧ nestElems vs < h ∧ WfElems vs ∧ NoStringsElems vs := by
  induction vs with
  | nil => exact ⟨trivial, pos, trivial, trivial⟩
  | cons v vs ih =>
    obtain ⟨typed, serializable, shallow, wf, none⟩ := each v (by simp)
    obtain ⟨s, n, w, b⟩ := ih fun v member => each v (by simp [member])
    exact ⟨⟨typed, serializable, s⟩, max_lt shallow n, ⟨wf, w⟩, ⟨none, b⟩⟩

theorem Value.Parsed.entries {key value : TType} {es : List (Value × Value)} (pos : 1 ≤ h)
    (each : ∀ e ∈ es, e.1.Parsed h key ∧ e.2.Parsed h value) :
    SerializableEntries key value es ∧ nestEntries es < h ∧ WfEntries es ∧ NoStringsEntries es := by
  induction es with
  | nil => exact ⟨trivial, pos, trivial, trivial⟩
  | cons e es ih =>
    obtain ⟨⟨typed, serializable, shallow, wf, none⟩, value⟩ := each e (by simp)
    obtain ⟨s, n, w, b⟩ := ih fun e member => each e (by simp [member])
    exact ⟨⟨⟨typed, value.typed⟩, ⟨serializable, value.serializable⟩, s⟩,
      max_lt (max_lt shallow value.shallow) n, ⟨wf, value.wf, w⟩, ⟨⟨none, value.noStrings⟩, b⟩⟩

theorem serializableElems_elemTypeOf {vs : List Value} (elems : SerializableElems type vs) :
    SerializableElems (elemTypeOf vs) vs := by
  cases vs with
  | nil => trivial
  | cons v vs =>
    obtain ⟨rfl, first, rest⟩ := elems
    exact ⟨rfl, first, rest⟩

theorem serializableEntries_entryTypesOf {key value : TType} {es : List (Value × Value)}
    (entries : SerializableEntries key value es) :
    SerializableEntries (entryTypesOf es).1 (entryTypesOf es).2 es := by
  cases es with
  | nil => trivial
  | cons e es =>
    obtain ⟨⟨rfl, rfl⟩, both, rest⟩ := entries
    exact ⟨⟨rfl, rfl⟩, both, rest⟩

theorem EncodesSeq.forall {α : Type} {enc : Bytes → α → Prop} {cs : Bytes} {as : List α}
    (seq : EncodesSeq enc cs as) : ∀ a ∈ as, ∃ bs, enc bs a := by
  induction seq with
  | nil => simp
  | cons first rest ih =>
    intro a member
    rcases List.mem_cons.mp member with rfl | later
    · exact ⟨_, first⟩
    · exact ih a later

theorem EncodesFields.parsed {enc : TType → Bytes → Value → Prop} {last : Int16}
    {ms : List (Int16 × Value)} (fields : EncodesFields p enc last bs ms) (pos : 1 ≤ h)
    (each : ∀ type bs v, enc type bs v → v.Parsed h type) :
    ∀ e ∈ ms, ∃ type, e.2.Parsed h type := by
  induction fields with
  | stop header => simp
  | field header value rest ih =>
    intro e member
    rcases List.mem_cons.mp member with rfl | later
    · exact ⟨_, each _ _ _ value⟩
    · exact ih e later
  | boolField compact header rest ih =>
    intro e member
    rcases List.mem_cons.mp member with rfl | later
    · exact ⟨.bool, rfl, trivial, pos, trivial, trivial⟩
    · exact ih e later

theorem Encodes.parsed (encodes : Encodes p h type bs v) : v.Parsed h type := by
  induction h generalizing type bs v with
  | zero => exact encodes.elim
  | succ h ih =>
    obtain ⟨_, encodes⟩ := encodes
    have pos : 1 ≤ h + 1 := by omega
    cases type with
    | bool =>
      obtain ⟨b, _, rfl⟩ := encodes
      exact ⟨rfl, trivial, pos, trivial, trivial⟩
    | byte =>
      obtain ⟨n, _, rfl⟩ := encodes
      exact ⟨rfl, trivial, pos, trivial, trivial⟩
    | i16 =>
      obtain ⟨n, _, rfl⟩ := encodes
      exact ⟨rfl, trivial, pos, trivial, trivial⟩
    | i32 =>
      obtain ⟨n, _, rfl⟩ := encodes
      exact ⟨rfl, trivial, pos, trivial, trivial⟩
    | i64 =>
      obtain ⟨n, _, rfl⟩ := encodes
      exact ⟨rfl, trivial, pos, trivial, trivial⟩
    | float =>
      obtain ⟨n, _, rfl⟩ := encodes
      exact ⟨rfl, trivial, pos, trivial, trivial⟩
    | double =>
      obtain ⟨n, _, rfl⟩ := encodes
      exact ⟨rfl, trivial, pos, trivial, trivial⟩
    | string =>
      obtain ⟨s, fits, _, rfl⟩ := encodes
      exact ⟨rfl, fits, pos, trivial, trivial⟩
    | struct =>
      obtain ⟨ms, pos, fields, _, rfl⟩ := encodes
      have each : ∀ e ∈ ofList ms, ∃ type, e.2.Parsed h type := fun e member =>
        fields.parsed pos (fun _ _ _ => ih) e (mem_of_mem_ofList member)
      obtain ⟨s, n, w, b⟩ := Value.Parsed.members pos each
      exact ⟨rfl, s, Nat.succ_lt_succ n, ⟨sorted_ofList ms, w⟩, b⟩
    | list =>
      obtain ⟨hs, cs, elem, vs, pos, rfl, fits, _, seq, rfl⟩ := encodes
      have each : ∀ v ∈ vs, v.Parsed h elem := fun v member =>
        (seq.forall v member).elim fun _ => ih
      obtain ⟨s, n, w, b⟩ := Value.Parsed.elems pos each
      exact ⟨rfl, ⟨fits, serializableElems_elemTypeOf s⟩, Nat.succ_lt_succ n, w, b⟩
    | set =>
      obtain ⟨hs, cs, elem, vs, pos, rfl, fits, _, seq, rfl⟩ := encodes
      have each : ∀ v ∈ SortedSet.ofList vs, v.Parsed h elem := fun v member =>
        (seq.forall v (SortedSet.mem_ofList.mp member)).elim fun _ => ih
      obtain ⟨s, n, w, b⟩ := Value.Parsed.elems pos each
      have fewer := SortedSet.length_ofList_le vs
      exact ⟨rfl, ⟨by omega, serializableElems_elemTypeOf s⟩, Nat.succ_lt_succ n,
        ⟨SortedSet.sorted_ofList vs, w⟩, b⟩
    | map =>
      obtain ⟨hs, cs, key, value, es, pos, rfl, fits, _, seq, _, rfl⟩ := encodes
      have each : ∀ e ∈ ofList es, e.1.Parsed h key ∧ e.2.Parsed h value := by
        intro e member
        obtain ⟨bs, ks, vs, _, keys, values⟩ := seq.forall e (mem_of_mem_ofList member)
        exact ⟨ih keys, ih values⟩
      obtain ⟨s, n, w, b⟩ := Value.Parsed.entries pos each
      have fewer := length_ofList_le es
      exact ⟨rfl, ⟨by omega, serializableEntries_entryTypesOf s⟩, Nat.succ_lt_succ n,
        ⟨sorted_ofList es, w⟩, b⟩
    | _ => exact encodes.elim

theorem Value.Parsed.trip (p : Protocol) (parsed : v.Parsed h type) :
    RoundTrip h 1 (serializeValue p.writer v) (parseValueAt p.reader h type) v := by
  have trip := value_trip p v parsed.serializable h parsed.shallow
  rwa [parsed.typed, Value.stringToBinary_eq_self v parsed.wf parsed.noStrings] at trip

end Parsed

/-! ## Encodings that writers produce -/

section Writing

variable {p : Protocol} {h : Nat} {type : TType} {bs : Bytes}

theorem Writes.of_zero {write : WriteM} (writes : Writes write 0 bs) (h : Nat) : Writes write h bs :=
  fun w _ pending => writes w (Nat.zero_le _) pending

/-- A container is written by its header, its contents and its end. -/
theorem Writes.nest {headerWrite bodyWrite : WriteM} {hs cs : Bytes} (pos : 1 ≤ h)
    (headers : ∀ w : Writer, 2 ≤ w.height → w.booleanField = none →
      headerWrite w = .ok ((), w.down.append hs))
    (bodies : Writes bodyWrite h cs) :
    Writes (headerWrite >>= fun _ => bodyWrite >>= fun _ => WriteM.ascend) (h + 1) (hs ++ cs) := by
  intro w high pending
  have low : h ≤ (w.down.append hs).height := by
    simp only [Writer.height_append, Writer.height_down]
    omega
  have back : w.height - 1 + 1 = w.height := by omega
  rw [Run.bind_of_ok (headers w (by omega) pending),
    Run.bind_of_ok (bodies (w.down.append hs) low pending)]
  simp [WriteM.ascend, Writer.append, Writer.down, back]

theorem Writes.ensureSameType {v : Value} {write : WriteM} (typed : v.getTType = type)
    (writes : Writes write h bs) : Writes (ensureSameType v type >>= fun _ => write) h bs := by
  rw [ensureSameType_of_typed typed]
  exact writes

end Writing

section Produced

variable (p : Protocol)

mutual

theorem value_encoding (v : Value) (h : Nat) (serializable : v.Serializable) (shallow : v.nest < h)
    (wf : v.Wf) (none : v.NoStrings) :
    ∃ bs, Writes (serializeValue p.writer v) h bs ∧ Encodes p h v.getTType bs v := by
  obtain ⟨h, rfl⟩ : ∃ m, h = m + 1 := ⟨h - 1, by omega⟩
  cases v with
  | empty => exact serializable.elim
  | bool b =>
    obtain ⟨bs, long, writes, reads⟩ := p.bool_roundTrip 0 b
    exact ⟨bs, writes.of_zero _, long, b, reads, rfl⟩
  | byte n =>
    obtain ⟨bs, long, writes, reads⟩ := p.byte_roundTrip 0 n
    exact ⟨bs, writes.of_zero _, long, n, reads, rfl⟩
  | i16 n =>
    obtain ⟨bs, long, writes, reads⟩ := p.i16_roundTrip 0 n
    exact ⟨bs, writes.of_zero _, long, n, reads, rfl⟩
  | i32 n =>
    obtain ⟨bs, long, writes, reads⟩ := p.i32_roundTrip 0 n
    exact ⟨bs, writes.of_zero _, long, n, reads, rfl⟩
  | i64 n =>
    obtain ⟨bs, long, writes, reads⟩ := p.i64_roundTrip 0 n
    exact ⟨bs, writes.of_zero _, long, n, reads, rfl⟩
  | float n =>
    obtain ⟨bs, long, writes, reads⟩ := p.float_roundTrip 0 n
    exact ⟨bs, writes.of_zero _, long, n, reads, rfl⟩
  | double n =>
    obtain ⟨bs, long, writes, reads⟩ := p.double_roundTrip 0 n
    exact ⟨bs, writes.of_zero _, long, n, reads, rfl⟩
  | string s => exact none.elim
  | binary s =>
    obtain ⟨bs, long, writes, reads⟩ := p.binary_roundTrip 0 serializable
    exact ⟨bs, writes.of_zero _, long, s, serializable, reads, rfl⟩
  | list vs =>
    obtain ⟨fits, elems⟩ := serializable
    have below : nestElems vs < h := by unfold nest at shallow; omega
    obtain ⟨cs, writes, seq⟩ := elems_encoding vs _ h elems below wf none
    obtain ⟨hs, header, headerWrites⟩ := (p.list_header (elemTypeOf_isValue elems) fits).split
    have long := header.1
    refine ⟨hs ++ cs, ?_, by simp; omega, hs, cs, elemTypeOf vs, vs, by omega, rfl, fits, header, seq, rfl⟩
    have whole := Writes.nest (by omega) headerWrites writes
    cases p <;> exact whole
  | set vs =>
    obtain ⟨fits, elems⟩ := serializable
    have below : nestElems vs < h := by unfold nest at shallow; omega
    obtain ⟨cs, writes, seq⟩ := elems_encoding vs _ h elems below wf.2 none
    obtain ⟨hs, header, headerWrites⟩ := (p.set_header (elemTypeOf_isValue elems) fits).split
    have long := header.1
    refine ⟨hs ++ cs, ?_, by simp; omega, hs, cs, elemTypeOf vs, vs, by omega, rfl, fits, header, seq,
      by rw [wf.1.ofList_eq]⟩
    have whole := Writes.nest (by omega) headerWrites writes
    cases p <;> exact whole
  | map es =>
    obtain ⟨fits, entries⟩ := serializable
    have below : nestEntries es < h := by unfold nest at shallow; omega
    obtain ⟨keyed, valued⟩ := entryTypesOf_isValue entries
    obtain ⟨cs, writes, seq⟩ := entries_encoding es _ _ h entries below wf.2 none
    obtain ⟨keyType, valueType, kept, trip⟩ := p.map_header keyed valued fits
    obtain ⟨hs, header, headerWrites⟩ := trip.split
    have long := header.1
    refine ⟨hs ++ cs, ?_, by simp; omega, hs, cs, keyType, valueType, es, by omega, rfl, fits, header,
      ?_, wf.1.nodup, by rw [wf.1.ofList_eq]⟩
    · have whole := Writes.nest (by omega) headerWrites writes
      cases p <;> exact whole
    · by_cases empty : es.length = 0
      · rw [List.length_eq_zero_iff] at empty
        subst empty
        cases seq
        exact .nil
      · obtain ⟨rfl, rfl⟩ := kept empty
        exact seq
  | object ms =>
    have below : nestMembers ms < h := by unfold nest at shallow; omega
    obtain ⟨fs, long, written, fields⟩ := members_encoding ms h 0 serializable below wf.2 none
    refine ⟨fs, ?_, long, ms, by omega, fields, wf.1.nodup, by rw [wf.1.ofList_eq]⟩
    have whole := written.struct (by omega)
    simp only [bind_assoc] at whole
    exact whole
termination_by structural v

theorem elems_encoding (vs : List Value) (type : TType) (h : Nat)
    (serializable : SerializableElems type vs) (shallow : nestElems vs < h) (wf : WfElems vs)
    (none : NoStringsElems vs) :
    ∃ cs, Writes (serializeElems p.writer type vs) h cs ∧ EncodesSeq (Encodes p h type) cs vs := by
  cases vs with
  | nil => exact ⟨[], fun w _ _ => by rw [Writer.append_nil]; rfl, .nil⟩
  | cons v vs =>
    obtain ⟨rfl, first, rest⟩ := serializable
    unfold nestElems at shallow
    obtain ⟨bs, writes, encodes⟩ := value_encoding v h first (by omega) wf.1 none.1
    obtain ⟨cs, writes', seq⟩ := elems_encoding vs v.getTType h rest (by omega) wf.2 none.2
    exact ⟨bs ++ cs, (writes.seq writes').ensureSameType rfl, .cons encodes seq⟩
termination_by structural vs

theorem entries_encoding (es : List (Value × Value)) (key value : TType) (h : Nat)
    (serializable : SerializableEntries key value es) (shallow : nestEntries es < h)
    (wf : WfEntries es) (none : NoStringsEntries es) :
    ∃ cs, Writes (serializeEntries p.writer key value es) h cs ∧
      EncodesSeq (EncodesPair (Encodes p h key) (Encodes p h value)) cs es := by
  cases es with
  | nil => exact ⟨[], fun w _ _ => by rw [Writer.append_nil]; rfl, .nil⟩
  | cons e es =>
    obtain ⟨k, v⟩ := e
    obtain ⟨⟨rfl, rfl⟩, ⟨first, second⟩, rest⟩ := serializable
    unfold nestEntries at shallow
    obtain ⟨ks, keyWrites, keys⟩ := value_encoding k h first (by omega) wf.1 none.1.1
    obtain ⟨vs, valueWrites, values⟩ := value_encoding v h second (by omega) wf.2.1 none.1.2
    obtain ⟨cs, writes, seq⟩ := entries_encoding es k.getTType v.getTType h rest (by omega)
      wf.2.2 none.2
    have whole := ((keyWrites.seq (valueWrites.seq writes)).ensureSameType
      (rfl : v.getTType = _)).ensureSameType (rfl : k.getTType = _)
    refine ⟨(ks ++ vs) ++ cs, ?_, .cons ⟨ks, vs, rfl, keys, values⟩ seq⟩
    rw [List.append_assoc]
    exact whole
termination_by structural es

theorem members_encoding (ms : List (Int16 × Value)) (h : Nat) (last : Int16)
    (serializable : SerializableMembers ms) (shallow : nestMembers ms < h) (wf : WfMembers ms)
    (none : NoStringsMembers ms) :
    ∃ fs, 1 ≤ fs.length ∧
      FieldsWritten p h last fs (serializeMembers p.writer ms >>= fun _ => p.writer.writeFieldStop) ∧
      EncodesFields p (Encodes p h) last fs ms := by
  cases ms with
  | nil => exact ⟨[0], Nat.le_refl 1, .stop p h last, .stop (stopReads p)⟩
  | cons m ms =>
    obtain ⟨id, v⟩ := m
    obtain ⟨first, rest⟩ := serializable
    unfold nestMembers at shallow
    obtain ⟨fs, _, written, fields⟩ := members_encoding ms h (p.nextLast last id) rest (by omega)
      wf.2 none.2
    by_cases bool : p = .compact ∧ v.getTType = .bool
    · obtain ⟨rfl, typed⟩ := bool
      obtain ⟨b, rfl⟩ : ∃ b, v = .bool b := by cases v <;> simp_all [getTType]
      obtain ⟨hs, header, writes⟩ := compact_bool_header last id b
      refine ⟨hs ++ fs, by have := header.1; simp; omega, ?_, .boolField rfl header fields⟩
      have whole := FieldsWritten.cons (fun w _ pending same => writes w pending (same rfl)) written
      simp only [bind_assoc] at whole
      simp only [serializeMembers, bind_assoc]
      exact whole
    · have plain : p = .compact → v.getTType ≠ .bool := fun compact typed => bool ⟨compact, typed⟩
      obtain ⟨bs, writes, encodes⟩ := value_encoding v h first (by omega) wf.1 none.1
      obtain ⟨hs, header, headerWrites⟩ := p.field_header (getTType_isValue first.ne_empty) plain
        last id
      refine ⟨hs ++ (bs ++ fs), by have := header.1; simp; omega, ?_, .field header encodes fields⟩
      have both : ∀ w : Writer, h ≤ w.height → w.booleanField = Option.none →
          (p = .compact → w.lastFieldId = last) →
          (p.writer.writeFieldBegin v.getTType id >>= fun _ => serializeValue p.writer v) w =
            .ok ((), (w.append (hs ++ bs)).withLast (p.nextLast w.lastFieldId id)) := by
        intro w high pending same
        rw [Run.bind_of_ok (headerWrites w pending same),
          writes ((w.append hs).withLast (p.nextLast w.lastFieldId id)) high pending,
          ← Writer.append_append]
        rfl
      have whole := FieldsWritten.cons both written
      rw [List.append_assoc] at whole
      simpa only [serializeMembers, bind_assoc] using whole
termination_by structural ms

end

end Produced

theorem serialize_encoding (p : Protocol) {maxDepth : Nat} {obj : Object} {buf : Bytes}
    (serializable : (Value.object obj).Serializable)
    (shallow : (Value.object obj).nest ≤ maxDepth) (wf : (Value.object obj).Wf)
    (none : (Value.object obj).NoStrings) (ok : p.serialize maxDepth obj = .ok buf) :
    Encodes p (maxDepth + 1) .struct buf (.object obj) := by
  obtain ⟨bs, writes, encodes⟩ := value_encoding p (.object obj) (maxDepth + 1) serializable
    (by omega) wf none
  have written := writes (Writer.new maxDepth) (Nat.le_refl _) rfl
  unfold Protocol.serialize serializeObject at ok
  rw [written] at ok
  cases ok
  exact encodes

end FbThrift
