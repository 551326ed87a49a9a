import FbThrift.Dynamic.Values
import FbThrift.Protocol.SkipRules

/-!
# Fields of a struct in any order

What the struct reader does with the fields on the wire: whatever their order, and whatever
unknown fields stand between them, each known field takes its last occurrence.  The reader's
guess of the next field agrees with a lookup by id, so its position never matters.
-/

namespace FbThrift.Dynamic

open FbThrift

/-! ## The guess -/

/-- The guessed field is the one that a lookup finds. -/
theorem StructuredNode.nextField_fst (node : StructuredNode) (pos : Nat) (id : Int16) :
    (node.nextField pos id).1 = node.fieldHandleFor id := by
  unfold nextField
  split
  next skipped found =>
    obtain ⟨below, same, _⟩ := List.findIdx?_eq_some_iff_getElem.mp found
    refine (StructuredNode.fieldHandleFor_eq_some.mpr ⟨_, ?_, of_decide_eq_true same⟩).symm
    rw [← List.getElem?_drop]
    exact List.getElem?_eq_getElem below
  next => rfl

/-! ## Fields on the wire -/

/-- A field as it stands on the wire: one of the node with its value, or one with another id,
which for a boolean has its value in the header of Compact. -/
inductive WireField where
  | known (handle : Nat) (value : Datum)
  | unknown (id : Int16) (type : TType) (bytes : Bytes)
  | unknownBool (id : Int16) (value : Bool)

section Fields

variable (ts : TypeSystem) (stack maxDepth : Nat) (p : Protocol) (node : StructuredNode)

def serializeWireField : WireField → WriteM
  | .known handle value =>
    match node.fields[handle]? with
    | some field => do
      p.writer.writeFieldBegin field.wireType field.id
      serialize ts p.writer value
    | none => throw (invalidFieldHandle (handle + 1))
  | .unknown id type bytes => do
    p.writer.writeFieldBegin type id
    WriteM.push bytes
  | .unknownBool id value => do
    p.writer.writeFieldBegin .bool id
    p.writer.writeBool value

def serializeWireFields : List WireField → WriteM
  | [] => pure ()
  | w :: ws => do
    serializeWireField ts p node w
    serializeWireFields ws

/-- The value fits its field; an unknown field is any encoding that `skip` goes through. -/
def WireField.Valid (h : Nat) : WireField → Prop
  | .known handle value => ∃ field, node.fields[handle]? = some field ∧
      HasType ts stack value field.type ∧ value.All Datum.Fits ∧ value.nest < h
  | .unknown id type bytes => node.fieldHandleFor id = none ∧ type ≠ .bool ∧
      ∃ v, Encodes p h type bytes v ∧ v.skipLevels ≤ maxDepth
  | .unknownBool id _ => node.fieldHandleFor id = none ∧ 1 ≤ maxDepth

/-- What a field does to the fields read so far. -/
def WireField.assign (fields : List Datum) : WireField → List Datum
  | .known handle value => fields.set handle value.reread
  | _ => fields

/-- The value of a field of the node. -/
def WireField.valueAt (handle : Nat) : WireField → Option Datum
  | .known handle' value => if handle' = handle then some value else none
  | _ => none

/-- The last occurrence of a field. -/
def lastOccurrence (ws : List WireField) (handle : Nat) : Option Datum :=
  (ws.filterMap (WireField.valueAt handle)).getLast?

/-- Each field takes its last occurrence, or else stays as it was created. -/
def takeLast (created : List Datum) (ws : List WireField) : List Datum :=
  created.mapIdx fun handle default => ((lastOccurrence ws handle).map Datum.reread).getD default

theorem lastOccurrence_cons (w : WireField) (ws : List WireField) (handle : Nat) :
    lastOccurrence (w :: ws) handle = (lastOccurrence ws handle).or (w.valueAt handle) := by
  unfold lastOccurrence
  rw [List.filterMap_cons]
  cases w.valueAt handle with
  | none => simp
  | some value => simp [List.getLast?_cons]

/-- Overwriting in order leaves the last occurrences. -/
theorem foldl_assign (ws : List WireField) (created : List Datum) :
    ws.foldl WireField.assign created = takeLast created ws := by
  induction ws generalizing created with
  | nil =>
    apply List.ext_getElem
    · simp [takeLast]
    · intro i below below'
      simp [takeLast, lastOccurrence]
  | cons w ws ih =>
    rw [List.foldl_cons, ih]
    unfold takeLast
    apply List.ext_getElem
    · cases w <;> simp [WireField.assign]
    · intro i below below'
      simp only [List.getElem_mapIdx, lastOccurrence_cons]
      cases lastOccurrence ws i with
      | some value => rfl
      | none =>
        cases w with
        | known handle value =>
          by_cases same : handle = i <;> simp [WireField.assign, WireField.valueAt, same]
        | unknown id type bytes => rfl
        | unknownBool id value => rfl

end Fields

/-! ## Reading -/

section Reading

variable {p : Protocol} {h : Nat} {type : TType} {id last : Int16}

theorem FieldsRead.cons_field {α β : Type} {fs gs : Bytes} {read : ReadM α} {a : α}
    {loop next : Nat → ReadM β} {b : β} (long : 1 ≤ fs.length)
    (first : ∀ (r : Reader) (rest : Bytes), r.input = fs ++ rest → h ≤ r.height →
      r.boolValue = none → (p = .compact → r.lastFieldId = last) →
      ∃ mid, p.reader.readFieldBegin r = .ok ((type, id), mid) ∧
        read mid = .ok (a, (r.withInput rest).withLast (p.nextLast r.lastFieldId id)))
    (rest : FieldsRead p h (p.nextLast last id) gs next b)
    (step : ∀ (r mid s : Reader) (left : Nat), p.reader.readFieldBegin r = .ok ((type, id), mid) →
      read mid = .ok (a, s) → loop (left + 1) r = next left s) :
    FieldsRead p h last (fs ++ gs) loop b := by
  obtain ⟨lasts, kept, reads⟩ := rest
  refine ⟨fun l => lasts (p.nextLast l id), ?_, fun r tail left input high pending same room => ?_⟩
  · rintro rfl l
    exact kept rfl l
  obtain ⟨left, rfl⟩ : ∃ m, left = m + 1 := ⟨left - 1, by omega⟩
  have length : r.input.length = fs.length + (gs ++ tail).length := by
    rw [input, List.append_assoc, List.length_append]
  have moved : p = .compact → p.nextLast r.lastFieldId id = p.nextLast last id := by
    rintro rfl
    rfl
  rw [List.append_assoc] at input
  obtain ⟨mid, header, value⟩ := first r (gs ++ tail) input high pending same
  rw [step r mid _ left header value]
  exact reads ((r.withInput (gs ++ tail)).withLast (p.nextLast r.lastFieldId id)) tail left rfl
    high pending moved (by show (gs ++ tail).length < left; omega)

theorem unknown_trip {maxDepth : Nat} {bytes : Bytes} {v : Value} (notBool : type ≠ .bool)
    (encodes : Encodes p h type bytes v) (levels : v.skipLevels ≤ maxDepth) (id : Int16) :
    FieldTrip p h type id (WriteM.push bytes) (p.skipAt maxDepth type) () :=
  p.field_trip encodes.isValue notBool id
    ⟨bytes, encodes.length_pos, .push bytes h, (skips_skipAt p h maxDepth).value encodes levels⟩

theorem unknownBool_trip {maxDepth : Nat} (pos : 1 ≤ h) (deep : 1 ≤ maxDepth) (id : Int16)
    (b : Bool) :
    FieldTrip p h .bool id (p.writer.writeBool b) (p.skipAt maxDepth .bool) () := by
  obtain ⟨h, rfl⟩ : ∃ m, h = m + 1 := ⟨h - 1, by omega⟩
  have skips := skips_skipAt p (h + 1) maxDepth
  cases p with
  | binary =>
    obtain ⟨bs, long, writes, reads⟩ := Protocol.binary.bool_roundTrip 0 b
    have encodes : Encodes .binary (h + 1) .bool bs (.bool b) := ⟨long, b, reads, rfl⟩
    exact Protocol.plain_field_trip .binary (by decide) (by rintro ⟨⟩) id
      ⟨bs, long, writes.of_zero _, skips.value encodes (by simpa [Value.skipLevels] using deep)⟩
  | compact =>
    intro last
    obtain ⟨hs, ⟨long, reads⟩, writes⟩ := compact_bool_header last id b
    refine ⟨hs, long, fun w _ pending same => writes w pending (same rfl),
      fun r rest input _ pending same => ⟨_, reads r rest input pending same, ?_⟩⟩
    rw [skips.pending rfl deep rfl, ← pending]
    rfl

end Reading

section Structs

variable {ts : TypeSystem} {stack maxDepth : Nat} {p : Protocol} {node : StructuredNode} {h : Nat}
variable {value : TypeRef → ReadM Datum}

/-- A write of fields and the loop of the struct reader over them, from any position. -/
def StructTrip (p : Protocol) (maxDepth : Nat) (node : StructuredNode)
    (value : TypeRef → ReadM Datum) (h : Nat) (write : WriteM)
    (assign : List Datum → List Datum) : Prop :=
  ∀ last : Int16, ∃ fs : Bytes, 1 ≤ fs.length ∧ FieldsWritten p h last fs write ∧
    ∀ pos ret, FieldsRead p h last fs
      (fun left => readStructFields p.reader value (p.skipAt maxDepth) node left pos ret)
      (assign ret)

theorem StructTrip.stop : StructTrip p maxDepth node value h p.writer.writeFieldStop id := by
  intro last
  refine ⟨[0], Nat.le_refl 1, .stop p h last, fun pos ret => ?_⟩
  refine (stopReads p).fieldsRead fun r r' left begun => ?_
  rw [readStructFields, Run.bind_of_ok begun]
  rfl

theorem checkType_self (context : String) (type : TType) (r : Reader) :
    checkType context type type r = .ok ((), r) := by
  unfold checkType
  rw [if_neg (by simp)]
  rfl

variable {handle : Nat} {field : FieldDefinition} {write : WriteM}
  {assign : List Datum → List Datum}

theorem at_of_getElem? (found : node.fields[handle]? = some field) (r : Reader) :
    node.at handle r = .ok (field, r) := by
  unfold StructuredNode.at
  rw [found]
  rfl

theorem handle_of_getElem?
    (found : node.fields[handle]? = some field) : node.fieldHandleFor field.id = some handle :=
  StructuredNode.fieldHandleFor_eq_some.mpr ⟨field, found, rfl⟩

/-- A known field is bound to its own handle, wherever the reader's position is. -/
theorem StructTrip.known {writes : WriteM}
    {d : Datum} (found : node.fields[handle]? = some field)
    (first : FieldTrip p h field.wireType field.id write (value field.type) d)
    (rest : StructTrip p maxDepth node value h writes assign) :
    StructTrip p maxDepth node value h
      (p.writer.writeFieldBegin field.wireType field.id >>= fun _ => write >>= fun _ => writes)
      (fun ret => assign (ret.set handle d)) := by
  intro last
  obtain ⟨fs, long, written, read⟩ := first last
  obtain ⟨gs, _, writtenRest, readRest⟩ := rest (p.nextLast last field.id)
  have both := FieldsWritten.cons written writtenRest
  simp only [bind_assoc] at both
  refine ⟨fs ++ gs, by simp; omega, both, fun pos ret => ?_⟩
  have guess := (node.nextField_fst pos field.id).trans (handle_of_getElem? found)
  refine FieldsRead.cons_field long read
    (readRest (node.nextField pos field.id).2 (ret.set handle d))
    fun r mid s left header taken => ?_
  have split : node.nextField pos field.id = (some handle, (node.nextField pos field.id).2) :=
    Prod.ext guess rfl
  rw [readStructFields, Run.bind_of_ok header]
  have notStop : field.wireType ≠ .stop := field.type.toTType_ne_stop
  show (if field.wireType = .stop then pure ret else _ : ReadM (List Datum)) mid = _
  rw [if_neg notStop, split]
  show (node.at handle >>= _ : ReadM (List Datum)) mid = _
  rw [Run.bind_of_ok (at_of_getElem? found mid), Run.bind_of_ok (checkType_self _ _ mid),
    Run.bind_of_ok taken]

theorem StructTrip.unknown {type : TType} {id : Int16} {writes : WriteM}
    (absent : node.fieldHandleFor id = none)
    (notStop : type ≠ .stop)
    (first : FieldTrip p h type id write (p.skipAt maxDepth type) ())
    (rest : StructTrip p maxDepth node value h writes assign) :
    StructTrip p maxDepth node value h
      (p.writer.writeFieldBegin type id >>= fun _ => write >>= fun _ => writes) assign := by
  intro last
  obtain ⟨fs, long, written, read⟩ := first last
  obtain ⟨gs, _, writtenRest, readRest⟩ := rest (p.nextLast last id)
  have both := FieldsWritten.cons written writtenRest
  simp only [bind_assoc] at both
  refine ⟨fs ++ gs, by simp; omega, both, fun pos ret => ?_⟩
  have guess := (node.nextField_fst pos id).trans absent
  refine FieldsRead.cons_field long read (readRest (node.nextField pos id).2 ret)
    fun r mid s left header taken => ?_
  have split : node.nextField pos id = (none, (node.nextField pos id).2) := Prod.ext guess rfl
  rw [readStructFields, Run.bind_of_ok header]
  show (if type = .stop then pure ret else _ : ReadM (List Datum)) mid = _
  rw [if_neg notStop, split]
  show (p.skipAt maxDepth type >>= _ : ReadM (List Datum)) mid = _
  rw [Run.bind_of_ok taken]

theorem structTrip_wireFields (pos : 1 ≤ h) (ws : List WireField)
    (valid : ∀ w ∈ ws, w.Valid ts stack maxDepth p node h)
    (trips : ∀ handle d field, .known handle d ∈ ws → node.fields[handle]? = some field →
      FieldTrip p h field.wireType field.id (serialize ts p.writer d) (value field.type) d.reread) :
    StructTrip p maxDepth node value h
      (serializeWireFields ts p node ws >>= fun _ => p.writer.writeFieldStop)
      (fun ret => ws.foldl WireField.assign ret) := by
  induction ws with
  | nil => exact .stop
  | cons w ws ih =>
    have rest := ih (fun w' member => valid w' (List.mem_cons_of_mem _ member))
      fun handle d field member => trips handle d field (List.mem_cons_of_mem _ member)
    have here := valid w (by simp)
    simp only [serializeWireFields, bind_assoc]
    cases w with
    | known handle d =>
      obtain ⟨field, found, _⟩ := here
      simp only [serializeWireField, found, bind_assoc]
      exact .known found (trips handle d field (by simp) found) rest
    | unknown id type bytes =>
      obtain ⟨absent, notBool, v, encodes, levels⟩ := here
      simp only [serializeWireField, bind_assoc]
      exact .unknown absent encodes.ne_stop (unknown_trip notBool encodes levels id) rest
    | unknownBool id b =>
      obtain ⟨absent, deep⟩ := here
      simp only [serializeWireField, bind_assoc]
      exact .unknown absent (by decide) (unknownBool_trip pos deep id b) rest

theorem StructTrip.struct {uri : Uri}
    {created : List Datum} (pos : 1 ≤ h)
    (fields : StructTrip p maxDepth (ts.structNode uri) value h write assign)
    (creates : create ts stack (ts.structNode uri) = .ok created) :
    RoundTrip (h + 1) 1
      (p.writer.writeStructBegin >>= fun _ => write >>= fun _ => p.writer.writeStructEnd)
      (deserializeStruct ts stack maxDepth p value uri) (.struct uri (assign created)) := by
  obtain ⟨fs, long, written, read⟩ := fields 0
  have whole := (read 0 created).struct pos (Datum.struct uri)
  refine ⟨fs, long, written.struct pos, ?_⟩
  unfold deserializeStruct
  rw [creates]
  exact whole

end Structs

end FbThrift.Dynamic
