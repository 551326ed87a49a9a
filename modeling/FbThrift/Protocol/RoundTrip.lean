import FbThrift.Protocol.Rules

/-!
# Serialized objects are read back

`parseObject` inverts `serializeObject` for both protocols, up to strings becoming
binaries, on every object that the writer can represent: containers with elements of
one type, sizes below 2^31, and no more nesting than the depth limit.  The induction is
on the value; it carries that the written bytes are read back whatever follows them.
-/

namespace FbThrift

open Decoder

namespace Value

/-! ## What the formats can represent -/

mutual

/-- Levels of nested containers. -/
def nest : Value → Nat
  | .object ms => nestMembers ms + 1
  | .list vs => nestElems vs + 1
  | .set vs => nestElems vs + 1
  | .map es => nestEntries es + 1
  | _ => 0

def nestMembers : List (Int16 × Value) → Nat
  | [] => 0
  | (_, v) :: ms => max v.nest (nestMembers ms)

def nestElems : List Value → Nat
  | [] => 0
  | v :: vs => max v.nest (nestElems vs)

def nestEntries : List (Value × Value) → Nat
  | [] => 0
  | (k, v) :: es => max (max k.nest v.nest) (nestEntries es)

end

mutual

/-- Containers are homogeneous, sizes fit in 31 bits and no member is the empty union. -/
def Serializable : Value → Prop
  | .empty => False
  | .string s => s.length < 2 ^ 31
  | .binary s => s.length < 2 ^ 31
  | .object ms => SerializableMembers ms
  | .list vs => vs.length < 2 ^ 31 ∧ SerializableElems (elemTypeOf vs) vs
  | .set vs => vs.length < 2 ^ 31 ∧ SerializableElems (elemTypeOf vs) vs
  | .map es => es.length < 2 ^ 31 ∧
      SerializableEntries (entryTypesOf es).1 (entryTypesOf es).2 es
  | _ => True

def SerializableMembers : List (Int16 × Value) → Prop
  | [] => True
  | (_, v) :: ms => v.Serializable ∧ SerializableMembers ms

def SerializableElems (type : TType) : List Value → Prop
  | [] => True
  | v :: vs => v.getTType = type ∧ v.Serializable ∧ SerializableElems type vs

def SerializableEntries (keyType valueType : TType) : List (Value × Value) → Prop
  | [] => True
  | (k, v) :: es => (k.getTType = keyType ∧ v.getTType = valueType) ∧
      (k.Serializable ∧ v.Serializable) ∧ SerializableEntries keyType valueType es

end

mutual

/-- The value with every string read as a binary, its containers rebuilt entry by entry. -/
def stringToBinary : Value → Value
  | .string s => .binary s
  | .object ms => .object (SortedMap.ofList (stringToBinaryMembers ms))
  | .list vs => .list (stringToBinaryElems vs)
  | .set vs => .set (SortedSet.ofList (stringToBinaryElems vs))
  | .map es => .map (SortedMap.ofList (stringToBinaryEntries es))
  | v => v

def stringToBinaryMembers : List (Int16 × Value) → List (Int16 × Value)
  | [] => []
  | (id, v) :: ms => (id, v.stringToBinary) :: stringToBinaryMembers ms

def stringToBinaryElems : List Value → List Value
  | [] => []
  | v :: vs => v.stringToBinary :: stringToBinaryElems vs

def stringToBinaryEntries : List (Value × Value) → List (Value × Value)
  | [] => []
  | (k, v) :: es => (k.stringToBinary, v.stringToBinary) :: stringToBinaryEntries es

end

theorem Serializable.ne_empty {v : Value} (serializable : v.Serializable) : v ≠ .empty := by
  rintro rfl
  exact serializable

end Value

open Value

/-! ## Loops -/

variable {α : Type} {h n k : Nat} {write : WriteM} {type : TType}

/-- The bytes of `n` tuples pass the check before the loop over them. -/
theorem RoundTrip.parseElements {types : Nat} {elem : ReadM α}
    {as : List α} (trip : RoundTrip h (n * types) write (ReadM.times elem n) as) :
    RoundTrip h (n * types) write (parseElements types n elem) as := by
  obtain ⟨bs, long, writes, reads⟩ := trip
  refine ⟨bs, long, writes, fun r rest input high pending => ?_⟩
  have enough : n * types ≤ r.input.length := by
    rw [input, List.length_append]
    omega
  have check : ReadM.canReadNElements n types r = .ok (true, r) := by
    unfold ReadM.canReadNElements
    rw [decide_eq_true enough]
  unfold FbThrift.parseElements
  rw [Run.bind_of_ok check]
  exact reads r rest input high pending

theorem RoundTrip.times_nil (h : Nat) (elem : ReadM α) :
    RoundTrip h 0 (pure ()) (ReadM.times elem 0) [] :=
  ⟨[], Nat.le_refl 0, fun w _ _ => by rw [Run.pure_run, Writer.append_nil], .pure [] h⟩

theorem RoundTrip.times_cons {m : Nat} {writes : WriteM} {elem : ReadM α}
    {a : α} {as : List α} (first : RoundTrip h k write elem a)
    (rest : RoundTrip h m writes (ReadM.times elem n) as) :
    RoundTrip h (k + m) (write >>= fun _ => writes) (ReadM.times elem (n + 1)) (a :: as) := by
  obtain ⟨bs, long, writes₁, reads₁⟩ := first
  obtain ⟨cs, long', writes₂, reads₂⟩ := rest
  refine ⟨bs ++ cs, ?_, writes₁.seq writes₂, reads₁.bind (reads₂.bind_pure fun as => a :: as)⟩
  rw [List.length_append]
  omega

theorem ReadM.times_add (elem : ReadM α) (n n' : Nat) : ReadM.times elem (n + n') =
      ReadM.times elem n >>= fun as => ReadM.times elem n' >>= fun bs => pure (as ++ bs) := by
  induction n with
  | zero => simp [ReadM.times]
  | succ n ih =>
    rw [Nat.succ_add, ReadM.times, ih]
    simp [ReadM.times]

theorem RoundTrip.times_append {m n' : Nat} {write' : WriteM} {elem : ReadM α}
    {as bs : List α} (first : RoundTrip h k write (ReadM.times elem n) as)
    (second : RoundTrip h m write' (ReadM.times elem n') bs) :
    RoundTrip h (k + m) (write >>= fun _ => write') (ReadM.times elem (n + n')) (as ++ bs) := by
  obtain ⟨u, long, writes₁, reads₁⟩ := first
  obtain ⟨v, long', writes₂, reads₂⟩ := second
  refine ⟨u ++ v, by rw [List.length_append]; omega, writes₁.seq writes₂, ?_⟩
  rw [ReadM.times_add]
  exact reads₁.bind (reads₂.bind_pure fun bs => as ++ bs)

theorem ensureSameType_of_typed {v : Value} (same : v.getTType = type) :
    ensureSameType v type = pure () := by
  unfold ensureSameType
  rw [if_neg (by simp [same])]

/-- The check of an element's type passes and writes nothing. -/
theorem RoundTrip.ensureSameType {v : Value}
    {read : ReadM α} {a : α} (same : v.getTType = type) (trip : RoundTrip h k write read a) :
    RoundTrip h k (ensureSameType v type >>= fun _ => write) read a := by
  rw [ensureSameType_of_typed same]
  exact trip

/-- The fields of a struct and its stop, behind a field with id `last`; `lasts` says how they
move the last field id. -/
def FieldsTrip (p : Protocol) (h : Nat) (write : WriteM) (value : TType → ReadM Value)
    (members : Object) : Prop :=
  ∀ last : Int16, ∃ (fs : Bytes) (lasts : Int16 → Int16), 1 ≤ fs.length ∧
    (p = .binary → ∀ l, lasts l = l) ∧
    (∀ w : Writer, h ≤ w.height → w.booleanField = none → (p = .compact → w.lastFieldId = last) →
      write w = .ok ((), (w.append fs).withLast (lasts w.lastFieldId))) ∧
    ∀ (r : Reader) (rest : Bytes) (left : Nat), r.input = fs ++ rest → h ≤ r.height →
      r.boolValue = none → (p = .compact → r.lastFieldId = last) → r.input.length < left →
      ReadM.fields p.reader value left r =
        .ok (members, (r.withInput rest).withLast (lasts r.lastFieldId))

theorem FieldsTrip.stop (p : Protocol) (h : Nat) (value : TType → ReadM Value) :
    FieldsTrip p h p.writer.writeFieldStop value [] := by
  intro last
  refine ⟨[0], id, Nat.le_refl 1, fun _ _ => rfl, fun w _ _ _ => ?_,
    fun r rest left input _ pending _ room => ?_⟩
  · cases p <;> rfl
  · obtain ⟨left, rfl⟩ : ∃ m, left = m + 1 := ⟨left - 1, by omega⟩
    have header := (stopReads p).2 r rest input pending
    unfold ReadM.fields
    rw [Run.bind_of_ok header]
    rfl

theorem FieldsTrip.cons {p : Protocol} {id : Int16}
    {writes : WriteM} {value : TType → ReadM Value} {a : Value} {members : Object}
    (notStop : type ≠ .stop) (first : FieldTrip p h type id write (value type) a)
    (rest : FieldsTrip p h writes value members) :
    FieldsTrip p h (p.writer.writeFieldBegin type id >>= fun _ => write >>= fun _ => writes) value
      ((id, a) :: members) := by
  intro last
  obtain ⟨fs, long, writes₁, reads₁⟩ := first last
  obtain ⟨gs, lasts, _, kept, writes₂, reads₂⟩ := rest id
  have moved : ∀ l, p = .compact → p.nextLast l id = id := by
    rintro l rfl
    rfl
  refine ⟨fs ++ gs, fun l => lasts (p.nextLast l id), by simp; omega, ?_,
    fun w high pending same => ?_, fun r tail left input high pending same room => ?_⟩
  · rintro rfl l
    exact kept rfl l
  · rw [← bind_assoc, Run.bind_of_ok (writes₁ w high pending same),
      writes₂ ((w.append fs).withLast (p.nextLast w.lastFieldId id)) high pending (moved _),
      ← Writer.append_append]
    rfl
  · obtain ⟨left, rfl⟩ : ∃ m, left = m + 1 := ⟨left - 1, by omega⟩
    have length : r.input.length = fs.length + (gs ++ tail).length := by
      rw [input, List.append_assoc, List.length_append]
    rw [List.append_assoc] at input
    obtain ⟨mid, header, read⟩ := reads₁ r (gs ++ tail) input high pending same
    have below := reads₂ ((r.withInput (gs ++ tail)).withLast (p.nextLast r.lastFieldId id)) tail
      left rfl high pending (moved _) (by show (gs ++ tail).length < left; omega)
    unfold ReadM.fields
    rw [Run.bind_of_ok header]
    show (if type = .stop then pure [] else _ : ReadM Object) mid = _
    rw [if_neg notStop, Run.bind_of_ok read, Run.bind_of_ok below]
    rfl

theorem FieldsTrip.struct {p : Protocol} {value : TType → ReadM Value}
    {members : Object} (pos : 1 ≤ h) (fields : FieldsTrip p h write value members) :
    RoundTrip (h + 1) 1
      (p.writer.writeStructBegin >>= fun _ => write >>= fun _ => p.writer.writeStructEnd)
      (parseObjectWith p.reader value) (SortedMap.ofList members) := by
  obtain ⟨fs, lasts, long, kept, writes, reads⟩ := fields 0
  have written : FieldsWritten p h 0 fs write := ⟨lasts, kept, writes⟩
  have loop : FieldsRead p h 0 fs (ReadM.fields p.reader value) members := ⟨lasts, kept, reads⟩
  exact ⟨fs, long, written.struct pos, loop.struct pos SortedMap.ofList⟩

/-! ## Values -/

section Values

variable (p : Protocol)

theorem member_trip {h : Nat} (pos : 1 ≤ h) {v : Value} (serializable : v.Serializable)
    (id : Int16) (trip : RoundTrip h 1 (serializeValue p.writer v) (parseValueAt p.reader h v.getTType)
      v.stringToBinary) :
    FieldTrip p h v.getTType id (serializeValue p.writer v) (parseValueAt p.reader h v.getTType)
      v.stringToBinary := by
  by_cases isBool : v.getTType = .bool
  · obtain ⟨b, rfl⟩ : ∃ b, v = .bool b := by cases v <;> simp_all [getTType]
    intro last
    obtain ⟨h, rfl⟩ : ∃ m, h = m + 1 := ⟨h - 1, by omega⟩
    obtain ⟨fs, long, writes, reads⟩ := p.bool_field_trip (h + 1) id b last
    refine ⟨fs, long, writes, fun r rest input high pending same => ?_⟩
    obtain ⟨mid, header, read⟩ := reads r rest input high pending same
    exact ⟨mid, header, Run.map_of_ok read Value.bool⟩
  · exact p.field_trip (getTType_isValue serializable.ne_empty) isBool id trip

theorem elemTypeOf_isValue {vs : List Value} (elems : SerializableElems (elemTypeOf vs) vs) :
    (elemTypeOf vs).IsValue := by
  cases vs with
  | nil => decide
  | cons v vs => exact getTType_isValue elems.2.1.ne_empty

theorem entryTypesOf_isValue {es : List (Value × Value)}
    (entries : SerializableEntries (entryTypesOf es).1 (entryTypesOf es).2 es) :
    (entryTypesOf es).1.IsValue ∧ (entryTypesOf es).2.IsValue := by
  cases es with
  | nil => decide
  | cons e es =>
    obtain ⟨_, ⟨key, value⟩, _⟩ := entries
    exact ⟨getTType_isValue key.ne_empty, getTType_isValue value.ne_empty⟩

mutual

theorem value_trip (v : Value) (serializable : v.Serializable) (h : Nat) (shallow : v.nest < h) :
    RoundTrip h 1 (serializeValue p.writer v) (parseValueAt p.reader h v.getTType)
      v.stringToBinary := by
  obtain ⟨h, rfl⟩ : ∃ m, h = m + 1 := ⟨h - 1, by omega⟩
  cases v with
  | empty => exact serializable.elim
  | bool b => exact (p.bool_roundTrip _ b).map Value.bool
  | byte n => exact (p.byte_roundTrip _ n).map Value.byte
  | i16 n => exact (p.i16_roundTrip _ n).map Value.i16
  | i32 n => exact (p.i32_roundTrip _ n).map Value.i32
  | i64 n => exact (p.i64_roundTrip _ n).map Value.i64
  | float n => exact (p.float_roundTrip _ n).map Value.float
  | double n => exact (p.double_roundTrip _ n).map Value.double
  | string s => exact (p.binary_roundTrip _ serializable).map Value.binary
  | binary s => exact (p.binary_roundTrip _ serializable).map Value.binary
  | list vs =>
    obtain ⟨fits, elems⟩ := serializable
    have below : nestElems vs < h := by unfold nest at shallow; omega
    have pos : 1 ≤ h := by omega
    have body := (elems_trip vs _ elems h below).mono (m := vs.length * 1) (by omega)
    have whole := (p.list_header (elemTypeOf_isValue elems) fits).nest
      (fun header => parseElements 1 header.2 (parseValueAt p.reader h header.1))
      Value.list pos body.parseElements
    cases p <;> exact whole
  | set vs =>
    obtain ⟨fits, elems⟩ := serializable
    have below : nestElems vs < h := by unfold nest at shallow; omega
    have pos : 1 ≤ h := by omega
    have body := (elems_trip vs _ elems h below).mono (m := vs.length * 1) (by omega)
    have whole := (p.set_header (elemTypeOf_isValue elems) fits).nest
      (fun header => parseElements 1 header.2 (parseValueAt p.reader h header.1))
      (fun elems => Value.set (SortedSet.ofList elems)) pos body.parseElements
    cases p <;> exact whole
  | map es =>
    obtain ⟨fits, entries⟩ := serializable
    have below : nestEntries es < h := by unfold nest at shallow; omega
    obtain ⟨keyed, valued⟩ := entryTypesOf_isValue entries
    obtain ⟨keyType, valueType, kept, header⟩ := p.map_header keyed valued fits
    have body : RoundTrip h (es.length * 2)
        (serializeEntries p.writer (entryTypesOf es).1 (entryTypesOf es).2 es)
        (ReadM.times (do
          let key ← parseValueAt p.reader h keyType
          let val ← parseValueAt p.reader h valueType
          pure (key, val)) es.length) (stringToBinaryEntries es) := by
      by_cases empty : es.length = 0
      · rw [List.length_eq_zero_iff] at empty
        subst empty
        exact .times_nil h _
      · obtain ⟨rfl, rfl⟩ := kept empty
        exact entries_trip es _ _ entries h below
    have whole := header.nest (fun header => parseElements 2 header.2.2 (do
          let key ← parseValueAt p.reader h header.1
          let val ← parseValueAt p.reader h header.2.1
          pure (key, val)))
      (fun entries => Value.map (SortedMap.ofList entries)) (by omega) body.parseElements
    cases p <;> exact whole
  | object ms =>
    have below : nestMembers ms < h := by unfold nest at shallow; omega
    have fields := members_trip ms serializable h below
    have whole := (fields.struct (by omega)).map Value.object
    simp only [bind_assoc] at whole
    exact whole
termination_by structural v

theorem elems_trip (vs : List Value) (type : TType) (serializable : SerializableElems type vs)
    (h : Nat) (shallow : nestElems vs < h) :
    RoundTrip h vs.length (serializeElems p.writer type vs)
      (ReadM.times (parseValueAt p.reader h type) vs.length) (stringToBinaryElems vs) := by
  cases vs with
  | nil => exact .times_nil h _
  | cons v vs =>
    obtain ⟨rfl, first, rest⟩ := serializable
    have head := value_trip v first h (by unfold nestElems at shallow; omega)
    have tail := elems_trip vs v.getTType rest h (by unfold nestElems at shallow; omega)
    refine ((head.times_cons tail).ensureSameType rfl).mono ?_
    rw [List.length_cons]
    omega
termination_by structural vs

theorem entries_trip (es : List (Value × Value)) (keyType valueType : TType)
    (serializable : SerializableEntries keyType valueType es) (h : Nat)
    (shallow : nestEntries es < h) :
    RoundTrip h (es.length * 2) (serializeEntries p.writer keyType valueType es) (ReadM.times (do
        let key ← parseValueAt p.reader h keyType
        let val ← parseValueAt p.reader h valueType
        pure (key, val)) es.length) (stringToBinaryEntries es) := by
  cases es with
  | nil => exact .times_nil h _
  | cons e es =>
    obtain ⟨k, v⟩ := e
    obtain ⟨⟨rfl, rfl⟩, ⟨key, value⟩, rest⟩ := serializable
    have head := value_trip k key h (by unfold nestEntries at shallow; omega)
    have mid := value_trip v value h (by unfold nestEntries at shallow; omega)
    have tail := entries_trip es k.getTType v.getTType rest h
      (by unfold nestEntries at shallow; omega)
    obtain ⟨bs, long, writes, reads⟩ := head
    obtain ⟨cs, long', writes', reads'⟩ := mid
    have pair : RoundTrip h 2 (serializeValue p.writer k >>= fun _ => serializeValue p.writer v) (do
          let key ← parseValueAt p.reader h k.getTType
          let val ← parseValueAt p.reader h v.getTType
          pure (key, val)) (k.stringToBinary, v.stringToBinary) :=
      ⟨bs ++ cs, by rw [List.length_append]; omega, writes.seq writes',
        reads.bind (reads'.bind_pure fun val => (k.stringToBinary, val))⟩
    have both := ((pair.times_cons tail).ensureSameType (rfl : v.getTType = _)).ensureSameType
      (rfl : k.getTType = _)
    have whole := both.mono (m := (es.length + 1) * 2) (by omega)
    simpa only [serializeEntries, stringToBinaryEntries, bind_assoc, List.length_cons] using whole
termination_by structural es

theorem members_trip (ms : List (Int16 × Value)) (serializable : SerializableMembers ms)
    (h : Nat) (shallow : nestMembers ms < h) :
    FieldsTrip p h (serializeMembers p.writer ms >>= fun _ => p.writer.writeFieldStop)
      (parseValueAt p.reader h) (stringToBinaryMembers ms) := by
  cases ms with
  | nil => exact .stop p h _
  | cons m ms =>
    obtain ⟨id, v⟩ := m
    obtain ⟨first, rest⟩ := serializable
    have head := value_trip v first h (by unfold nestMembers at shallow; omega)
    have tail := members_trip ms rest h (by unfold nestMembers at shallow; omega)
    have notStop : v.getTType ≠ .stop := by cases v <;> simp [getTType]
    have both := FieldsTrip.cons notStop (member_trip p (by omega) first id head) tail
    simpa only [serializeMembers, stringToBinaryMembers, bind_assoc] using both
termination_by structural ms

end

end Values

/-! ## Objects -/

/-- An object as it is read back. -/
def Object.stringToBinary (obj : Object) : Object :=
  SortedMap.ofList (stringToBinaryMembers obj)

/-- Writing an object appends bytes that parse back to it, whatever follows them. -/
theorem object_trip (p : Protocol) {obj : Object} (serializable : (Value.object obj).Serializable)
    (shallow : (Value.object obj).nest < h) :
    RoundTrip h 1 (serializeObject p.writer obj)
      (parseObjectWith p.reader (parseValueAt p.reader (h - 1))) obj.stringToBinary := by
  obtain ⟨h, rfl⟩ : ∃ m, h = m + 1 := ⟨h - 1, by omega⟩
  have below : nestMembers obj < h := by unfold nest at shallow; omega
  have whole := (members_trip p obj serializable h below).struct (by omega)
  simp only [bind_assoc] at whole
  exact whole

theorem parse_serialize (p : Protocol) {maxDepth : Nat} {obj : Object}
    (serializable : (Value.object obj).Serializable)
    (shallow : (Value.object obj).nest ≤ maxDepth) :
    ∃ bytes, p.serialize maxDepth obj = .ok bytes ∧
      p.parse maxDepth bytes = .ok (obj.stringToBinary, []) := by
  obtain ⟨bytes, _, writes, reads⟩ :=
    object_trip p serializable (h := maxDepth + 1) (by omega)
  refine ⟨bytes, ?_, ?_⟩
  · unfold Protocol.serialize
    rw [writes (Writer.new maxDepth) (Nat.le_refl _) rfl]
    rfl
  · have read := reads (Reader.ofBytes maxDepth bytes) [] (List.append_nil bytes).symm
      (Nat.le_refl _) rfl
    unfold Protocol.parse parseObject
    rw [show (Reader.ofBytes maxDepth bytes).height - 1 = maxDepth + 1 - 1 from rfl, read]
    rfl

mutual

/-- No string anywhere in the value. -/
def Value.NoStrings : Value → Prop
  | .string _ => False
  | .object ms => NoStringsMembers ms
  | .list vs => NoStringsElems vs
  | .set vs => NoStringsElems vs
  | .map es => NoStringsEntries es
  | _ => True

def NoStringsMembers : List (Int16 × Value) → Prop
  | [] => True
  | (_, v) :: ms => v.NoStrings ∧ NoStringsMembers ms

def NoStringsElems : List Value → Prop
  | [] => True
  | v :: vs => v.NoStrings ∧ NoStringsElems vs

def NoStringsEntries : List (Value × Value) → Prop
  | [] => True
  | (k, v) :: es => (k.NoStrings ∧ v.NoStrings) ∧ NoStringsEntries es

end

mutual

theorem Value.stringToBinary_eq_self (v : Value) (wf : v.Wf) (none : v.NoStrings) :
    v.stringToBinary = v := by
  cases v with
  | string s => exact none.elim
  | object ms =>
    unfold Value.stringToBinary
    rw [stringToBinaryMembers_eq_self ms wf.2 none, wf.1.ofList_eq]
  | list vs =>
    unfold Value.stringToBinary
    rw [stringToBinaryElems_eq_self vs wf none]
  | set vs =>
    unfold Value.stringToBinary
    rw [stringToBinaryElems_eq_self vs wf.2 none, wf.1.ofList_eq]
  | map es =>
    unfold Value.stringToBinary
    rw [stringToBinaryEntries_eq_self es wf.2 none, wf.1.ofList_eq]
  | _ => rfl
termination_by structural v

theorem stringToBinaryMembers_eq_self (ms : List (Int16 × Value)) (wf : WfMembers ms)
    (none : NoStringsMembers ms) : stringToBinaryMembers ms = ms := by
  cases ms with
  | nil => rfl
  | cons m ms =>
    obtain ⟨id, v⟩ := m
    unfold stringToBinaryMembers
    rw [Value.stringToBinary_eq_self v wf.1 none.1, stringToBinaryMembers_eq_self ms wf.2 none.2]
termination_by structural ms

theorem stringToBinaryElems_eq_self (vs : List Value) (wf : WfElems vs)
    (none : NoStringsElems vs) : stringToBinaryElems vs = vs := by
  cases vs with
  | nil => rfl
  | cons v vs =>
    unfold stringToBinaryElems
    rw [Value.stringToBinary_eq_self v wf.1 none.1, stringToBinaryElems_eq_self vs wf.2 none.2]
termination_by structural vs

theorem stringToBinaryEntries_eq_self (es : List (Value × Value)) (wf : WfEntries es)
    (none : NoStringsEntries es) : stringToBinaryEntries es = es := by
  cases es with
  | nil => rfl
  | cons e es =>
    obtain ⟨k, v⟩ := e
    unfold stringToBinaryEntries
    rw [Value.stringToBinary_eq_self k wf.1 none.1.1, Value.stringToBinary_eq_self v wf.2.1 none.1.2,
      stringToBinaryEntries_eq_self es wf.2.2 none.2]
termination_by structural es

end

/-- The Compact round trip, up to the depth limit; an object without strings is read back as it is. -/
theorem compact_parse_serialize {maxDepth : Nat} {obj : Object}
    (serializable : (Value.object obj).Serializable)
    (shallow : (Value.object obj).nest ≤ maxDepth) :
    ∃ bytes, Protocol.compact.serialize maxDepth obj = .ok bytes ∧
      Protocol.compact.parse maxDepth bytes = .ok (obj.stringToBinary, []) ∧
      ((Value.object obj).Wf → (Value.object obj).NoStrings → obj.stringToBinary = obj) := by
  obtain ⟨bytes, written, read⟩ := parse_serialize .compact serializable shallow
  refine ⟨bytes, written, read, fun wf none => ?_⟩
  exact Value.object.inj (Value.stringToBinary_eq_self (.object obj) wf none)

/-- Booleans in a field and in a set, a delta, a long id and an empty map. -/
theorem compact_parse_serialize_at :
    let obj : Object := [(-3, .bool true), (5, .set [.bool false]), (21, .map []),
      (22, .object [(7, .string [97])])]
    ∃ bytes, Protocol.compact.serialize 12000 obj = .ok bytes ∧
      Protocol.compact.parse 12000 bytes = .ok (obj.stringToBinary, []) := by
  intro obj
  have serializable : (Value.object obj).Serializable := by
    simp [obj, Serializable, SerializableMembers, SerializableElems, SerializableEntries, elemTypeOf]
  have shallow : (Value.object obj).nest ≤ 12000 := by decide
  obtain ⟨bytes, written, read, _⟩ := compact_parse_serialize serializable shallow
  exact ⟨bytes, written, read⟩

/-! ## The depth limit -/

/-- Structs nested `n` levels below the outermost. -/
def chain : Nat → Object
  | 0 => []
  | n + 1 => [(1, .object (chain n))]

theorem serializable_chain (n : Nat) : (Value.object (chain n)).Serializable := by
  induction n with
  | zero => trivial
  | succ n ih => exact ⟨ih, trivial⟩

theorem writeFieldBegin_struct_height (id : Int16) (w : Writer) :
    ∃ w', CompactProtocolWriter.writeFieldBegin .struct id w = .ok ((), w') ∧
      w'.height = w.height := by
  obtain ⟨hs, _, writes, _⟩ := compact_field_header (c := Compact.ttypeToCType .struct)
    (by decide) (by decide) w.lastFieldId id
  refine ⟨(w.append hs).withLast id, ?_, rfl⟩
  unfold CompactProtocolWriter.writeFieldBegin
  rw [if_neg (by decide), Run.get_bind]
  exact Run.bind_of_ok (writes w)

theorem serialize_chain_error (n : Nat) (w : Writer) (low : w.height ≤ n + 1) :
    ∃ err, serializeObject Protocol.compact.writer (chain n) w = .error err := by
  induction n generalizing w with
  | zero =>
    have refused : WriteM.descend w = .error exceededDepthLimit := by
      unfold WriteM.descend
      rw [if_pos (by omega)]
    exact ⟨_, Run.bind_of_error (Run.bind_of_error refused)⟩
  | succ n ih =>
    by_cases bottom : w.height - 1 = 0
    · have refused : WriteM.descend w = .error exceededDepthLimit := by
        unfold WriteM.descend
        rw [if_pos bottom]
      exact ⟨_, Run.bind_of_error (Run.bind_of_error refused)⟩
    have begun : CompactProtocolWriter.writeStructBegin w = .ok ((),
        { w.down with lastField := w.lastFieldId :: w.lastField, lastFieldId := 0 }) :=
      Run.bind_of_ok (WriteM.descend_of_height (by omega))
    obtain ⟨w', field, same⟩ := writeFieldBegin_struct_height 1
      { w.down with lastField := w.lastFieldId :: w.lastField, lastFieldId := 0 }
    have low' : w'.height ≤ n + 1 := by
      rw [same]
      show w.height - 1 ≤ n + 1
      omega
    obtain ⟨err, refused⟩ := ih w' low'
    refine ⟨err, (Run.bind_of_ok begun).trans (Run.bind_of_error ?_)⟩
    exact (Run.bind_of_ok field).trans (Run.bind_of_error refused)

theorem compact_depth_limit : ¬ ∀ obj : Object, (Value.object obj).Serializable →
      ∃ bytes, Protocol.compact.serialize 12000 obj = .ok bytes ∧
        Protocol.compact.parse 12000 bytes = .ok (obj.stringToBinary, []) := by
  intro claim
  obtain ⟨bytes, written, _⟩ := claim (chain 12000) (serializable_chain 12000)
  obtain ⟨err, refused⟩ := serialize_chain_error 12000 (Writer.new 12000) (Nat.le_refl _)
  unfold Protocol.serialize at written
  rw [refused] at written
  cases written

end FbThrift
