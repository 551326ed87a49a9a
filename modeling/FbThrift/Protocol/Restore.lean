import FbThrift.Protocol.Masked
import FbThrift.Protocol.SkipRules

/-!
# Putting masked data back

`serializeObject(obj, protocolData)` splices the bytes of the excluded data into the
object.  `Restored` says that a member of a struct or an entry of a map comes back: it was
parsed, it is stored as bytes, or it is split and its two halves are put together one level
further down.  `restore_struct` and `restore_map` carry it from the members to the whole.
-/

namespace FbThrift

open Decoder SortedMap Value

/-! ## Tables -/

/-- Value ids are the positions, doubled. -/
theorem valueIdOf_eq {pos : Nat} (fits : pos < 2 ^ 31) : valueIdOf pos = .ok (2 * pos) := by
  have sign : (BitVec.ofNat 32 pos).msb = false := by
    rw [BitVec.msb_eq_false_iff_two_mul_lt, BitVec.toNat_ofNat]
    omega
  have shift : (BitVec.ofNat 32 pos).sshiftRight 31 = 0#32 := by
    rw [BitVec.sshiftRight_eq_of_msb_false sign]
    apply BitVec.eq_of_toNat_eq
    rw [BitVec.toNat_ushiftRight, BitVec.toNat_ofNat, Nat.shiftRight_eq_div_pow]
    simp
    omega
  unfold valueIdOf signedIntToZigzag
  rw [if_pos fits, shift, BitVec.xor_zero, BitVec.toNat_shiftLeft, BitVec.toNat_ofNat,
    Nat.shiftLeft_eq]
  congr 1
  omega

theorem getByValueId_of_getElem? {α : Type} {values : List α} {pos : Nat} {a : α}
    (fits : pos < 2 ^ 31) (found : values[pos]? = some a) :
    getByValueId values (2 * pos) = .ok a := by
  have even : (BitVec.ofNat 64 (2 * pos)).getLsbD 0 = false := by
    rw [BitVec.getLsbD_ofNat]
    simp [Nat.testBit_zero]
  have half : (zigzagToSignedInt (BitVec.ofNat 64 (2 * pos))).toNat = pos := by
    unfold zigzagToSignedInt
    rw [even, if_neg Bool.false_ne_true, BitVec.toNat_ushiftRight, BitVec.toNat_ofNat,
      Nat.shiftRight_eq_div_pow]
    omega
  unfold getByValueId
  rw [half, found]

/-- The tables only grow, at their ends. -/
structure MaskedProtocolData.Extends (a b : MaskedProtocolData) : Prop where
  values : a.values <+: b.values
  keys : a.keys <+: b.keys

theorem MaskedProtocolData.Extends.refl (a : MaskedProtocolData) : a.Extends a :=
  ⟨List.prefix_refl _, List.prefix_refl _⟩

theorem MaskedProtocolData.Extends.trans {a b c : MaskedProtocolData} (ab : a.Extends b)
    (bc : b.Extends c) : a.Extends c :=
  ⟨ab.values.trans bc.values, ab.keys.trans bc.keys⟩

theorem getByValueId_of_longer {α : Type} {before after : List α} {a : α}
    (longer : before ++ [a] <+: after) (fits : before.length < 2 ^ 31) :
    getByValueId after (2 * before.length) = .ok a := by
  refine getByValueId_of_getElem? fits ?_
  obtain ⟨rest, rfl⟩ := longer
  simp

/-! ## Raw values -/

theorem toBaseType_of_isValue {type : TType} (valued : type.IsValue) :
    ∃ base, toBaseType type = .ok base ∧ base.toTType = type := by
  unfold TType.IsValue at valued
  fin_cases valued <;> exact ⟨_, rfl, rfl⟩

theorem writes_writeRaw {data : Bytes} (fits : data.length < 2 ^ 31) (h : Nat) :
    Writes (writeRaw data) h data :=
  (Protocol.writes_checkBinarySize fits h).seq (.push data h)

theorem Encodes.raw_trip {p : Protocol} {h : Nat} {type : TType} {bs : Bytes} {v : Value}
    (encodes : Encodes p h type bs v) (fits : bs.length < 2 ^ 31) :
    RoundTrip h 1 (writeRaw bs) (parseValueAt p.reader h type) v :=
  ⟨bs, encodes.length_pos, writes_writeRaw fits h, encodes.reads⟩

theorem WriteM.ofExcept_bind {α : Type} {x : Except String α} {a : α} (ok : x = .ok a)
    (f : α → WriteM) : (WriteM.ofExcept x >>= f) = f a := by
  subst ok
  rfl

/-- A member of a value of the given type: what the object holds of it, what the excluded data
holds of it, and the member they stand for. -/
inductive Restored (p : Protocol) (h : Nat) (pd : MaskedProtocolData) (type : TType) (v : Value) :
    Option Value → Option MaskedData → Prop
  | parsed (parsed : v.Parsed h type) : Restored p h pd type v (some v) none
  | stored {id : Nat} {value : EncodedValue} (notBool : type ≠ .bool)
      (found : getByValueId pd.values id = .ok value) (wireType : value.wireType.toTType = type)
      (encodes : Encodes p h type value.data v) (fits : value.data.length < 2 ^ 31) :
      Restored p h pd type v none (some (.full id))
  | split {included : Value} {data : MaskedData} (notBool : type ≠ .bool) (valued : type.IsValue)
      (typed : included.getTType = type)
      (trip : RoundTrip h 1 (serializeValueMasked p.writer pd included data)
        (parseValueAt p.reader h type) v) :
      Restored p h pd type v (some included) (some data)

theorem memberWriters_eq (P : WriterOps) (pd : MaskedProtocolData) (ms : List (Int16 × Value))
    (fields : List (Int16 × MaskedData)) :
    memberWriters P pd ms fields = ms.map fun e => (e.1, do
      P.writeFieldBegin e.2.getTType e.1
      match find e.1 fields with
      | none => serializeValue P e.2
      | some data => serializeValueMasked P pd e.2 data) := by
  induction ms with
  | nil => rfl
  | cons e ms ih =>
    obtain ⟨id, v⟩ := e
    rw [memberWriters, ih]
    rfl

theorem entryWriters_eq (P : WriterOps) (pd : MaskedProtocolData) (es : List (Value × Value)) :
    entryWriters P pd es = es.map fun e =>
      (e.1, ⟨e.2, serializeValue P e.2, serializeValueMasked P pd e.2⟩) := by
  induction es with
  | nil => rfl
  | cons e es ih =>
    obtain ⟨k, v⟩ := e
    rw [entryWriters, ih]
    rfl

/-! ## Structs -/

section Struct

variable {P : WriterOps} {pd : MaskedProtocolData}

theorem sorted_addRawFields {members : List (Int16 × WriteM)} (sorted : Sorted members)
    (fields : List (Int16 × MaskedData)) : Sorted (addRawFields P pd members fields) := by
  induction fields generalizing members with
  | nil => exact sorted
  | cons e fields ih => exact ih (sorted.emplace _ _)

theorem find_addRawFields (id : Int16) (members : List (Int16 × WriteM))
    (fields : List (Int16 × MaskedData)) :
    find id (addRawFields P pd members fields) =
      (find id members).or ((find id fields).map (writeRawField P pd id)) := by
  induction fields generalizing members with
  | nil => simp [addRawFields]
  | cons e fields ih =>
    obtain ⟨id', data⟩ := e
    rw [addRawFields, ih, find_emplace, find_cons]
    split
    next same =>
      subst same
      cases find id members <;> simp
    next => rfl

/-- The write of one member, by what the object and the excluded data hold of it. -/
def memberWrite (P : WriterOps) (pd : MaskedProtocolData) (id : Int16) :
    Option Value → Option MaskedData → Option WriteM
  | some v, data => some do
      P.writeFieldBegin v.getTType id
      match data with
      | none => serializeValue P v
      | some data => serializeValueMasked P pd v data
  | none, data => data.map (writeRawField P pd id)

theorem find_structWriters (id : Int16) (obj : Object) (fields : List (Int16 × MaskedData)) :
    find id (addRawFields P pd (memberWriters P pd obj fields) fields) =
      memberWrite P pd id (find id obj) (find id fields) := by
  rw [find_addRawFields, memberWriters_eq]
  have present := find_map (fun id v => do
      P.writeFieldBegin v.getTType id
      match find id fields with
      | none => serializeValue P v
      | some data => serializeValueMasked P pd v data) id obj
  rw [present]
  cases find id obj <;> rfl

variable {p : Protocol} {h : Nat}

theorem Restored.field_trip {type : TType} {v : Value} {included : Option Value}
    {data : Option MaskedData} (restored : Restored p h pd type v included data) (id : Int16) :
    ∃ write, type ≠ .stop ∧ memberWrite p.writer pd id included data =
        some (p.writer.writeFieldBegin type id >>= fun _ => write) ∧
      FieldTrip p h type id write (parseValueAt p.reader h type) v := by
  have notStop : type.IsValue → type ≠ .stop := by
    rintro valued rfl
    simp [TType.IsValue] at valued
  cases restored with
  | parsed parsed =>
    have valued : type.IsValue := by
      rw [← parsed.typed]
      exact getTType_isValue parsed.serializable.ne_empty
    have trip := member_trip p (Nat.lt_of_le_of_lt (Nat.zero_le _) parsed.shallow)
      parsed.serializable id
      (value_trip p v parsed.serializable h parsed.shallow)
    rw [parsed.typed, Value.stringToBinary_eq_self v parsed.wf parsed.noStrings] at trip
    refine ⟨serializeValue p.writer v, notStop valued, ?_, trip⟩
    rw [← parsed.typed]
    rfl
  | @stored valueId value notBool found wireType encodes fits =>
    refine ⟨writeRaw value.data, encodes.ne_stop, ?_,
      p.field_trip encodes.isValue notBool id (encodes.raw_trip fits)⟩
    show some (WriteM.ofExcept (getByValueId pd.values valueId) >>= _) = _
    rw [WriteM.ofExcept_bind found, wireType]
  | @split incl data notBool valued typed trip =>
    refine ⟨serializeValueMasked p.writer pd incl data, notStop valued, ?_,
      p.field_trip valued notBool id trip⟩
    rw [← typed]
    rfl

theorem fieldsTrip_writeAll {ms : Object} {write : Int16 → WriteM}
    (each : ∀ e ∈ ms, ∃ type value, type ≠ .stop ∧
      write e.1 = (p.writer.writeFieldBegin type e.1 >>= fun _ => value) ∧
      FieldTrip p h type e.1 value (parseValueAt p.reader h type) e.2) :
    FieldsTrip p h (writeAll (ms.map fun e => write e.1) >>= fun _ => p.writer.writeFieldStop)
      (parseValueAt p.reader h) ms := by
  induction ms with
  | nil => exact .stop p h _
  | cons e ms ih =>
    obtain ⟨type, value, notStop, written, trip⟩ := each e (by simp)
    have rest := ih fun e member => each e (by simp [member])
    have whole := FieldsTrip.cons notStop trip rest
    rw [List.map_cons, writeAll, written]
    simpa only [bind_assoc] using whole

/-- A struct comes back when all its members do and there are no others. -/
theorem restore_struct {obj ms : Object} {fields : List (Int16 × MaskedData)} (pos : 1 ≤ h)
    (sorted : Sorted obj) (sortedMs : Sorted ms)
    (absent : ∀ id, find id ms = none → find id obj = none ∧ find id fields = none)
    (present : ∀ id v, find id ms = some v →
      ∃ type, Restored p h pd type v (find id obj) (find id fields)) :
    RoundTrip (h + 1) 1 (serializeValueMasked p.writer pd (.object obj) (.fields fields))
      (parseValueAt p.reader (h + 1) .struct) (.object ms) := by
  let writers := addRawFields p.writer pd (memberWriters p.writer pd obj fields) fields
  let write : Int16 → WriteM := fun id => (find id writers).getD (pure ())
  have sortedWriters : Sorted writers := by
    refine sorted_addRawFields ?_ fields
    rw [memberWriters_eq]
    refine (sorted_map_iff _ ?_ obj).mpr sorted
    exact fun _ => rfl
  have found : ∀ id v, find id ms = some v → ∃ type value, type ≠ .stop ∧
      find id writers = some (p.writer.writeFieldBegin type id >>= fun _ => value) ∧
      FieldTrip p h type id value (parseValueAt p.reader h type) v := by
    intro id v here
    obtain ⟨type, restored⟩ := present id v here
    obtain ⟨value, notStop, written, trip⟩ := restored.field_trip id
    exact ⟨type, value, notStop, (find_structWriters id obj fields).trans written, trip⟩
  have same : writers = ms.map fun e => (e.1, write e.1) := by
    have sortedWrites : Sorted (ms.map fun e => (e.1, write e.1)) := by
      refine (sorted_map_iff _ ?_ ms).mpr sortedMs
      exact fun _ => rfl
    refine sortedWriters.ext sortedWrites fun id => ?_
    rw [find_map (fun id _ => write id)]
    cases here : find id ms with
    | none =>
      obtain ⟨noObj, noData⟩ := absent id here
      rw [find_structWriters, noObj, noData]
      rfl
    | some v =>
      obtain ⟨type, value, _, written, _⟩ := found id v here
      simp [write, written]
  have fieldsTrip : FieldsTrip p h (writeAll (writers.map Prod.snd) >>= fun _ =>
      p.writer.writeFieldStop) (parseValueAt p.reader h) ms := by
    have list : writers.map Prod.snd = ms.map fun e => write e.1 := by
      rw [same, List.map_map]
      rfl
    rw [list]
    refine fieldsTrip_writeAll fun e member => ?_
    obtain ⟨type, value, notStop, written, trip⟩ := found e.1 e.2 (sortedMs.mem_iff.mp member)
    exact ⟨type, value, notStop, by simp [write, written], trip⟩
  have whole := (fieldsTrip.struct pos).map Value.object
  rw [sortedMs.ofList_eq] at whole
  simp only [bind_assoc] at whole
  rw [serializeValueMasked]
  exact whole

end Struct

/-! ## Maps -/

/-- The excluded entries of a map, with their ids looked up in the table of keys. -/
def HasKeys (pd : MaskedProtocolData) : List (Nat × MaskedData) → List (Value × MaskedData) → Prop :=
  List.Forall₂ fun e d => getByValueId pd.keys e.1 = .ok d.1 ∧ e.2 = d.2

/-- The entries of a map: what was parsed of them, what is excluded, and what they stand for. -/
structure RestoredEntries (p : Protocol) (h : Nat) (pd : MaskedProtocolData) (keyType valueType : TType)
    (es map : List (Value × Value)) (excluded : List (Value × MaskedData)) : Prop where
  nodup : (es.map Prod.fst).Nodup
  keys : ∀ e ∈ es, e.1.Parsed h keyType
  sorted : Sorted map
  nodupExcluded : (excluded.map Prod.fst).Nodup
  absent : ∀ k, find k es = none → find k map = none ∧ find k excluded = none
  present : ∀ k v, find k es = some v → Restored p h pd valueType v (find k map) (find k excluded)

section Map

variable {p : Protocol} {h : Nat} {pd : MaskedProtocolData} {keyType valueType : TType}
variable {es map : List (Value × Value)} {excluded : List (Value × MaskedData)}
variable {values : List (Nat × MaskedData)}

theorem RestoredEntries.of_map (entries : RestoredEntries p h pd keyType valueType es map excluded)
    {k v : Value} (found : find k map = some v) : ∃ v', (k, v') ∈ es ∧ k.Parsed h keyType ∧
      Restored p h pd valueType v' (some v) (find k excluded) := by
  cases here : find k es with
  | none =>
    rw [(entries.absent k here).1] at found
    cases found
  | some v' =>
    have restored := entries.present k v' here
    rw [found] at restored
    exact ⟨v', mem_of_find here, entries.keys _ (mem_of_find here), restored⟩

theorem RestoredEntries.of_excluded (entries : RestoredEntries p h pd keyType valueType es map excluded)
    {k : Value} {data : MaskedData} (member : (k, data) ∈ excluded) :
    ∃ v, (k, v) ∈ es ∧ k.Parsed h keyType ∧ Restored p h pd valueType v (find k map) (some data) := by
  have found := (mem_iff_find entries.nodupExcluded).mp member
  cases here : find k es with
  | none =>
    rw [(entries.absent k here).2] at found
    cases found
  | some v =>
    have restored := entries.present k v here
    rw [found] at restored
    exact ⟨v, mem_of_find here, entries.keys _ (mem_of_find here), restored⟩

theorem Restored.typed {v included : Value} {data : Option MaskedData}
    (restored : Restored p h pd valueType v (some included) data) :
    included.getTType = valueType := by
  cases restored with
  | parsed parsed => exact parsed.typed
  | split _ _ typed _ => exact typed

theorem Restored.isValue {v : Value} {included : Option Value} {data : Option MaskedData}
    (restored : Restored p h pd valueType v included data) : valueType.IsValue := by
  cases restored with
  | parsed parsed =>
    rw [← parsed.typed]
    exact getTType_isValue parsed.serializable.ne_empty
  | stored _ _ _ encodes _ => exact encodes.isValue
  | split _ valued _ _ => exact valued

theorem RestoredEntries.types (entries : RestoredEntries p h pd keyType valueType es map excluded)
    (ids : HasKeys pd values excluded) (some : excluded ≠ []) :
    maskedEntryTypes pd map values = .ok (keyType, valueType) := by
  cases map with
  | nil =>
    cases ids with
    | nil => exact (some rfl).elim
    | @cons e d values excluded first rest =>
      obtain ⟨id, data⟩ := e
      obtain ⟨k, data'⟩ := d
      obtain ⟨key, same⟩ : getByValueId pd.keys id = .ok k ∧ data = data' := first
      subst same
      obtain ⟨v, _, parsed, restored⟩ := entries.of_excluded (List.mem_cons_self)
      cases restored with
      | stored _ found wireType _ _ =>
        simp [maskedEntryTypes, key, found, wireType, parsed.typed, bind, Except.bind]
  | cons e map =>
    obtain ⟨k, v⟩ := e
    obtain ⟨v', _, parsed, restored⟩ := entries.of_map (k := k) (v := v) (by simp [find_cons])
    show Except.ok (k.getTType, v.getTType) = _
    rw [parsed.typed, restored.typed]

theorem HasKeys.countRawEntries (ids : HasKeys pd values excluded) (map : List (Value × Value)) :
    countRawEntries pd map values = .ok (excluded.filter fun d => !contains d.1 map).length := by
  induction ids with
  | nil => rfl
  | @cons e d values excluded first rest ih =>
    obtain ⟨id, data⟩ := e
    rw [FbThrift.countRawEntries, first.1, ih]
    cases held : contains d.1 map <;> simp [held, bind, Except.bind]

theorem HasKeys.excludedKeys (ids : HasKeys pd values excluded) :
    excludedKeys pd values = .ok (excluded.map Prod.fst) := by
  induction ids with
  | nil => rfl
  | @cons e d values excluded first rest ih =>
    obtain ⟨id, data⟩ := e
    rw [FbThrift.excludedKeys, first.1, ih]
    rfl

/-- The reads of one entry of a map. -/
def readEntry (P : ReaderOps) (h : Nat) (keyType valueType : TType) : ReadM (Value × Value) := do
  let key ← parseValueAt P h keyType
  let val ← parseValueAt P h valueType
  pure (key, val)

theorem RoundTrip.entry {k v : Value} {write : WriteM} (key : k.Parsed h keyType)
    (value : RoundTrip h 1 write (parseValueAt p.reader h valueType) v) :
    RoundTrip h 2 (FbThrift.ensureSameType k keyType >>= fun _ => serializeValue p.writer k >>= fun _ => write)
      (readEntry p.reader h keyType valueType) (k, v) := by
  obtain ⟨bs, long, writes, reads⟩ := key.trip p
  obtain ⟨cs, long', writes', reads'⟩ := value
  refine RoundTrip.ensureSameType key.typed ⟨bs ++ cs, by rw [List.length_append]; omega,
    writes.seq writes', reads.bind (reads'.bind_pure fun val => (k, val))⟩

/-- The value of an excluded entry, raw or around what was parsed of it. -/
theorem Restored.excluded_trip {v : Value} {included : Option Value} {data : MaskedData}
    (restored : Restored p h pd valueType v included (some data)) :
    RoundTrip h 1 (writeExcludedValue pd valueType (included.map fun v =>
        ⟨v, serializeValue p.writer v, serializeValueMasked p.writer pd v⟩) data)
      (parseValueAt p.reader h valueType) v := by
  cases restored with
  | @stored id value _ found wireType encodes fits =>
    have raw : writeRawMapValue pd valueType (.full id) = writeRaw value.data := by
      show (WriteM.ofExcept (getByValueId pd.values id) >>= _) = _
      rw [WriteM.ofExcept_bind found, if_neg (by simp [wireType])]
    show RoundTrip h 1 (writeRawMapValue pd valueType (.full id)) _ _
    rw [raw]
    exact encodes.raw_trip fits
  | split _ _ typed trip => exact RoundTrip.ensureSameType typed trip

theorem RestoredEntries.excluded_trip
    (entries : RestoredEntries p h pd keyType valueType es map excluded)
    {ds : List (Value × MaskedData)} {ids : List (Nat × MaskedData)} (keys : HasKeys pd ids ds)
    (among : ∀ d ∈ ds, d ∈ excluded) :
    RoundTrip h (ds.length * 2)
      (writeExcludedEntries p.writer pd keyType valueType (entryWriters p.writer pd map) ids)
      (ReadM.times (readEntry p.reader h keyType valueType) ds.length)
      (ds.map fun d => (d.1, (find d.1 es).getD .empty)) := by
  induction keys with
  | nil => exact .times_nil h _
  | @cons e d ids ds first rest ih =>
    obtain ⟨id, data⟩ := e
    obtain ⟨k, data'⟩ := d
    obtain ⟨key, same⟩ : getByValueId pd.keys id = .ok k ∧ data = data' := first
    subst same
    obtain ⟨v, member, parsed, restored⟩ := entries.of_excluded (among (k, data) (by simp))
    have tail := ih fun d member => among d (by simp [member])
    have head := RoundTrip.entry parsed restored.excluded_trip
    have found := find_map (fun _ v => EntryWriter.mk v (serializeValue p.writer v)
      (serializeValueMasked p.writer pd v)) k map
    rw [writeExcludedEntries, WriteM.ofExcept_bind key, entryWriters_eq, found, List.map_cons,
      (mem_iff_find entries.nodup).mp member]
    rw [entryWriters_eq] at tail
    have whole := (head.times_cons tail).mono (m := (ds.length + 1) * 2) (by omega)
    simpa only [bind_assoc, List.length_cons, Option.getD_some] using whole

/-- The loop over the entries without excluded data. -/
theorem RestoredEntries.other_trip
    (entries : RestoredEntries p h pd keyType valueType es map excluded)
    {ms : List (Value × Value)} (among : ∀ e ∈ ms, e ∈ map) :
    RoundTrip h ((ms.filter fun e => e.1 ∉ excluded.map Prod.fst).length * 2)
      (writeOtherEntries p.writer keyType valueType (excluded.map Prod.fst)
        (entryWriters p.writer pd ms))
      (ReadM.times (readEntry p.reader h keyType valueType)
        (ms.filter fun e => e.1 ∉ excluded.map Prod.fst).length)
      (ms.filter fun e => e.1 ∉ excluded.map Prod.fst) := by
  induction ms with
  | nil => exact .times_nil h _
  | cons e ms ih =>
    obtain ⟨k, v⟩ := e
    have tail := ih fun e member => among e (by simp [member])
    rw [entryWriters, writeOtherEntries]
    by_cases held : k ∈ excluded.map Prod.fst
    · rw [if_pos held, List.filter_cons_of_neg (by simpa using held)]
      exact tail
    · have found : find k map = some v := entries.sorted.mem_iff.mp (among (k, v) (by simp))
      obtain ⟨v', member, parsed, restored⟩ := entries.of_map found
      have none : find k excluded = none := find_eq_none_iff.mpr fun d member same =>
        held (List.mem_map.mpr ⟨d, member, same⟩)
      rw [none] at restored
      cases restored with
      | parsed value =>
        have head := RoundTrip.entry parsed (value.trip p)
        rw [if_neg held, List.filter_cons_of_pos (by simpa using held)]
        have both : writeOtherEntry p.writer keyType valueType k
            ⟨v, serializeValue p.writer v, serializeValueMasked p.writer pd v⟩ =
            (ensureSameType k keyType >>= fun _ => serializeValue p.writer k >>= fun _ =>
              serializeValue p.writer v) := by
          unfold writeOtherEntry
          simp only [ensureSameType_of_typed value.typed, pure_bind]
        rw [both]
        have whole := (head.times_cons tail).mono
          (m := ((ms.filter fun e => e.1 ∉ excluded.map Prod.fst).length + 1) * 2) (by omega)
        simpa only [List.length_cons] using whole

/-- The entries in the order in which they are written. -/
def writtenEntries (es map : List (Value × Value)) (excluded : List (Value × MaskedData)) :
    List (Value × Value) :=
  (excluded.map fun d => (d.1, (find d.1 es).getD .empty)) ++
    map.filter fun e => e.1 ∉ excluded.map Prod.fst

theorem RestoredEntries.mem_writtenEntries
    (entries : RestoredEntries p h pd keyType valueType es map excluded) (e : Value × Value) :
    e ∈ writtenEntries es map excluded ↔ e ∈ es := by
  obtain ⟨k, v⟩ := e
  simp only [writtenEntries, List.mem_append, List.mem_map, List.mem_filter, decide_eq_true_eq]
  constructor
  · rintro (⟨d, member, same⟩ | ⟨member, free⟩)
    · obtain ⟨v', found, _⟩ := entries.of_excluded member
      rw [(mem_iff_find entries.nodup).mp found] at same
      cases same
      exact found
    · obtain ⟨v', found, _, restored⟩ := entries.of_map (entries.sorted.mem_iff.mp member)
      have none : find k excluded = none := find_eq_none_iff.mpr fun d member same =>
        free ⟨d, member, same⟩
      rw [none] at restored
      cases restored with
      | parsed _ => exact found
  · intro member
    have found := (mem_iff_find entries.nodup).mp member
    have restored := entries.present k v found
    cases here : find k excluded with
    | some data =>
      exact Or.inl ⟨(k, data), mem_of_find here, by rw [found]; rfl⟩
    | none =>
      rw [here] at restored
      refine Or.inr ⟨?_, ?_⟩
      · cases parsed : find k map with
        | none =>
          rw [parsed] at restored
          cases restored
        | some v' =>
          rw [parsed] at restored
          cases restored with
          | parsed _ => exact mem_of_find parsed
      · rintro ⟨d, member, same⟩
        exact find_eq_none_iff.mp here d member same

theorem RestoredEntries.nodup_writtenEntries
    (entries : RestoredEntries p h pd keyType valueType es map excluded) :
    ((writtenEntries es map excluded).map Prod.fst).Nodup := by
  rw [writtenEntries, List.map_append, List.map_map]
  refine List.nodup_append.mpr ⟨entries.nodupExcluded, ?_, ?_⟩
  · exact entries.sorted.nodup.sublist (List.filter_sublist.map _)
  · intro k first k' second same
    subst same
    obtain ⟨e, member, rfl⟩ := List.mem_map.mp second
    have free := (List.mem_filter.mp member).2
    exact (of_decide_eq_true free) first

theorem RestoredEntries.length_writtenEntries
    (entries : RestoredEntries p h pd keyType valueType es map excluded) :
    (writtenEntries es map excluded).length = es.length := by
  refine ((List.perm_ext_iff_of_nodup ?_ ?_).mpr entries.mem_writtenEntries).length_eq
  · exact entries.nodup_writtenEntries.of_map _
  · exact entries.nodup.of_map _

theorem RestoredEntries.ofList_writtenEntries
    (entries : RestoredEntries p h pd keyType valueType es map excluded) :
    ofList (writtenEntries es map excluded) = ofList es := by
  refine (sorted_ofList _).ext (sorted_ofList _) fun k => ?_
  rw [find_ofList entries.nodup_writtenEntries, find_ofList entries.nodup]
  refine Option.ext fun v => ?_
  rw [← mem_iff_find entries.nodup_writtenEntries, ← mem_iff_find entries.nodup]
  exact entries.mem_writtenEntries (k, v)

theorem RestoredEntries.size (entries : RestoredEntries p h pd keyType valueType es map excluded) :
    map.length + (excluded.filter fun d => !contains d.1 map).length = es.length := by
  have both := length_filter_mem_comm entries.sorted.nodup entries.nodupExcluded
  have parts := map.length_eq_length_filter_add fun e => decide (e.1 ∈ excluded.map Prod.fst)
  have parts' := excluded.length_eq_length_filter_add fun d => decide (d.1 ∈ map.map Prod.fst)
  rw [← entries.length_writtenEntries, writtenEntries, List.length_append, List.length_map]
  simp only [contains_eq_decide, decide_not] at parts parts' ⊢
  omega

/-- A map comes back when all its entries do and there are no others. -/
theorem restore_map (entries : RestoredEntries p h pd keyType valueType es map excluded)
    (ids : HasKeys pd values excluded) (some : excluded ≠ []) (fits : es.length < 2 ^ 31)
    (pos : 1 ≤ h) :
    RoundTrip (h + 1) 1 (serializeValueMasked p.writer pd (.map map) (.values values))
      (parseValueAt p.reader (h + 1) .map) (.map (ofList es)) := by
  have excludedTrip := entries.excluded_trip ids fun _ member => member
  have among : ∀ e ∈ map, e ∈ map := fun _ member => member
  have otherTrip := entries.other_trip among
  have body := excludedTrip.times_append otherTrip
  have length : excluded.length + (map.filter fun e => e.1 ∉ excluded.map Prod.fst).length =
      es.length := by
    rw [← entries.length_writtenEntries, writtenEntries, List.length_append, List.length_map]
  rw [← Nat.add_mul, length] at body
  change RoundTrip h _ _ _ (writtenEntries es map excluded) at body
  obtain ⟨keyed, valued, nonempty⟩ : keyType.IsValue ∧ valueType.IsValue ∧ es.length ≠ 0 := by
    cases excluded with
    | nil => exact (some rfl).elim
    | cons d ds =>
      obtain ⟨v, member, parsed, restored⟩ := entries.of_excluded (List.mem_cons_self)
      refine ⟨?_, restored.isValue, fun empty => ?_⟩
      · rw [← parsed.typed]
        exact getTType_isValue parsed.serializable.ne_empty
      · rw [List.length_eq_zero_iff.mp empty] at member
        cases member
  obtain ⟨keyType', valueType', kept, header⟩ := p.map_header keyed valued fits
  obtain ⟨rfl, rfl⟩ := kept nonempty
  have whole := header.nest
    (fun header => parseElements 2 header.2.2 (readEntry p.reader h header.1 header.2.1))
    (fun entries => Value.map (ofList entries)) pos body.parseElements
  rw [entries.ofList_writtenEntries] at whole
  rw [serializeValueMasked, WriteM.ofExcept_bind (entries.types ids some)]
  simp only [WriteM.ofExcept_bind (ids.countRawEntries map), entries.size]
  simp only [WriteM.ofExcept_bind ids.excludedKeys]
  simp only [bind_assoc] at whole
  cases p <;> exact whole

end Map

end FbThrift
