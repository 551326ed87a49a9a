import FbThrift.Protocol.Encodes

/-!
# What a parser accepts

Whatever the bytes are, the value that a parser takes from them is well formed: a writer of either
protocol takes it under the same depth limit, and its parser gives the value back.
-/

namespace FbThrift

open SortedMap Decoder

variable {α β : Type}

/-- From `m` levels that are left the read comes to `n`, with a result that satisfies `q`. -/
def Lands (x : ReadM α) (m n : Nat) (q : α → Prop) : Prop :=
  ∀ ⦃r a r'⦄, r.height = m → x r = .ok (a, r') → r'.height = n ∧ q a

namespace Lands

variable {x : ReadM α} {f : α → ReadM β} {k m n : Nat} {q : α → Prop} {q' : β → Prop}

theorem pure {a : α} (holds : q a) : Lands (pure a : ReadM α) m m q := by
  intro r a' r' height ok
  cases ok
  exact ⟨height, holds⟩

theorem throw (err : String) : Lands (throw err : ReadM α) m n q := by
  intro r a r' _ ok
  cases ok

theorem bind (first : Lands x m k q) (second : ∀ a, q a → Lands (f a) k n q') :
    Lands (x >>= f) m n q' := by
  intro r b r' height ok
  rcases Run.bind_ok ok with ⟨a, mid, ran, rest⟩
  rcases first height ran with ⟨height, holds⟩
  exact second a holds height rest

theorem map {g : α → β} (first : Lands x m n q) (holds : ∀ a, q a → q' (g a)) :
    Lands (g <$> x) m n q' := by
  rw [map_eq_pure_bind]
  intro r b r' height ok
  rcases Run.bind_ok ok with ⟨a, mid, ran, rest⟩
  cases rest
  rcases first height ran with ⟨height, found⟩
  exact ⟨height, holds a found⟩

theorem ite {c : Prop} [Decidable c] {y : ReadM α} (yes : c → Lands x m n q)
    (no : ¬ c → Lands y m n q) : Lands (if c then x else y) m n q := by
  split
  next holds => exact yes holds
  next fails => exact no fails

theorem decode {d : Decoder α} (holds : ∀ input a rest, d input = .ok (a, rest) → q a) :
    Lands (ReadM.decode d) m m q := by
  intro r a r' height ok
  unfold ReadM.decode at ok
  split at ok
  next decoded =>
    cases ok
    exact ⟨height, holds _ _ _ decoded⟩
  next => cases ok

theorem decoding {d : Decoder α} (rest : ∀ a, Lands (f a) m n q') :
    Lands (ReadM.decode d >>= f) m n q' :=
  (decode (q := fun _ => True) fun _ _ _ _ => trivial).bind fun a _ => rest a

/-- A decoder and what is made of its result. -/
theorem decoded (d : Decoder α) (g : α → β) :
    Lands (ReadM.decode d >>= fun a => Pure.pure (g a)) m m fun _ => True :=
  decoding fun _ => pure trivial

theorem modify {g : Reader → Reader} (same : ∀ r, (g r).height = r.height) :
    Lands (modify g : ReadM PUnit) m m fun _ => True := by
  intro r a r' height ok
  cases ok
  exact ⟨(same r).trans height, trivial⟩

theorem reading {g : Reader → ReadM α} (each : ∀ r, Lands (g r) m n q) : Lands (get >>= g) m n q :=
  fun r _ _ height ok => each r height ok

theorem descend : Lands ReadM.descend m (m - 1) fun _ => 2 ≤ m := by
  intro r a r' height ok
  unfold ReadM.descend at ok
  split at ok
  · cases ok
  · cases ok
    exact ⟨congrArg (· - 1) height, by omega⟩

theorem ascend : Lands ReadM.ascend m (m + 1) fun _ => True := by
  intro r a r' height ok
  cases ok
  exact ⟨congrArg (· + 1) height, trivial⟩

theorem checkContainerSize (size : Int32) :
    Lands (ReadM.checkContainerSize size) m m fun n => n < 2 ^ 31 := by
  refine ite (fun _ => throw _) fun _ => pure ?_
  have := size.toInt_lt
  omega

theorem times (each : Lands x m m q) (n : Nat) :
    Lands (ReadM.times x n) m m fun as => as.length = n ∧ ∀ a ∈ as, q a := by
  induction n with
  | zero => exact pure ⟨rfl, by simp⟩
  | succ n ih =>
    refine each.bind fun a found => ih.bind fun as rest => pure ⟨congrArg (· + 1) rest.1, ?_⟩
    exact List.forall_mem_cons.mpr ⟨found, rest.2⟩

theorem parseElements (types n : Nat) (each : Lands x m m q) :
    Lands (parseElements types n x) m m fun as => as.length = n ∧ ∀ a ∈ as, q a := by
  refine bind (q := fun _ => True) (fun r a r' height ok => ?_) fun enough _ =>
    ite (fun _ => each.times n) fun _ => throw _
  cases ok
  exact ⟨height, trivial⟩

end Lands

/-! ## The calls of the readers -/

section Calls

variable (p : Protocol) {m : Nat}

theorem lands_readVarint32 : Lands CompactProtocolReader.readVarint32 m m fun _ => True :=
  .decoded _ _

theorem lands_readI16 : Lands CompactProtocolReader.readI16 m m fun _ => True :=
  lands_readVarint32.bind fun _ _ => .pure trivial

theorem lands_readBool : Lands p.reader.readBool m m fun _ => True := by
  cases p with
  | binary => exact .decoding fun _ => .ite (fun _ => .throw _) fun _ => .pure trivial
  | compact =>
    refine .reading fun r => ?_
    split
    · exact .bind (.modify fun _ => rfl) fun _ _ => .pure trivial
    · exact .decoded _ _

/-- The calls that read a number. -/
theorem lands_numbers : Lands p.reader.readByte m m (fun _ => True) ∧
    Lands p.reader.readI16 m m (fun _ => True) ∧ Lands p.reader.readI32 m m (fun _ => True) ∧
    Lands p.reader.readI64 m m (fun _ => True) ∧ Lands p.reader.readFloat m m (fun _ => True) ∧
    Lands p.reader.readDouble m m (fun _ => True) := by
  cases p with
  | binary =>
    exact ⟨.decoded _ _, .decoded _ _, .decoded _ _, .decoded _ _, .decoded _ _, .decoded _ _⟩
  | compact =>
    exact ⟨.decoded _ _, lands_readI16, lands_readVarint32.bind fun _ _ => .pure trivial,
      .decoded _ _, .decoded _ _, .decoded _ _⟩

theorem lands_readBinary : Lands p.reader.readBinary m m fun s => s.length < 2 ^ 31 := by
  have body (size : Int32) : Lands (if size < 0 then throw negativeSize
      else ReadM.decode (take size.toInt.toNat)) m m fun s => s.length < 2 ^ 31 := by
    refine .ite (fun _ => .throw _) fun _ => .decode fun input s rest ok => ?_
    unfold take at ok
    split at ok
    · have := size.toInt_lt
      cases ok
      rw [List.length_take]
      omega
    · cases ok
  cases p with
  | binary => exact (lands_numbers .binary).2.2.1.bind fun size _ => body size
  | compact => exact lands_readVarint32.bind fun size _ => body size

theorem lands_readStructBegin : Lands p.reader.readStructBegin m (m - 1) fun _ => 2 ≤ m := by
  cases p with
  | binary => exact .descend
  | compact =>
    refine .bind .descend fun _ high => ?_
    intro r a r' height ok
    cases ok
    exact ⟨height, high⟩

theorem lands_readStructEnd : Lands p.reader.readStructEnd m (m + 1) fun _ => True := by
  cases p with
  | binary => exact .ascend
  | compact => exact .bind (.modify fun _ => rfl) fun _ _ => .ascend

theorem lands_getType (type : Nat) :
    Lands (CompactProtocolReader.getType type) m m fun _ => True := by
  unfold CompactProtocolReader.getType
  split
  · exact .pure trivial
  · exact .throw _

theorem lands_readFieldBegin : Lands p.reader.readFieldBegin m m fun _ => True := by
  cases p with
  | binary =>
    exact .decoding fun _ => .ite (fun _ => .pure trivial) fun _ =>
      (lands_numbers .binary).2.1.bind fun _ _ => .pure trivial
  | compact =>
    refine .decoding fun byte => .ite (fun _ => .pure trivial) fun _ => ?_
    have fieldId : Lands (CompactProtocolReader.readFieldId (byte.toNat / 16)) m m fun _ => True :=
      .ite (fun _ => lands_readI16) fun _ => .reading fun _ => .pure trivial
    have saved : Lands (CompactProtocolReader.saveBool (byte.toNat % 16)) m m fun _ => True :=
      .ite (fun _ => .modify fun _ => rfl) fun _ => .pure trivial
    exact fieldId.bind fun _ _ => (lands_getType _).bind fun _ _ => saved.bind fun _ _ =>
      .bind (.modify fun _ => rfl) fun _ _ => .pure trivial

/-- A container is begun one level further down, where one is left, and its size is bounded. -/
theorem lands_readListBegin :
    Lands p.reader.readListBegin m (m - 1) fun header => 2 ≤ m ∧ header.2 < 2 ^ 31 := by
  cases p with
  | binary =>
    exact .bind .descend fun _ high => .decoding fun _ => .bind (lands_numbers .binary).2.2.1
      fun _ _ => (Lands.checkContainerSize _).bind fun _ fits => .pure ⟨high, fits⟩
  | compact =>
    exact .bind .descend fun _ high => .decoding fun _ =>
      .bind (.ite (fun _ => lands_readVarint32) fun _ => .pure trivial) fun _ _ =>
        (Lands.checkContainerSize _).bind fun _ fits => (lands_getType _).bind fun _ _ =>
          .pure ⟨high, fits⟩

theorem lands_readSetBegin :
    Lands p.reader.readSetBegin m (m - 1) fun header => 2 ≤ m ∧ header.2 < 2 ^ 31 := by
  cases p with
  | binary => exact lands_readListBegin .binary
  | compact => exact lands_readListBegin .compact

theorem lands_readMapBegin :
    Lands p.reader.readMapBegin m (m - 1) fun header => 2 ≤ m ∧ header.2.2 < 2 ^ 31 := by
  cases p with
  | binary =>
    exact .bind .descend fun _ high => .decoding fun _ => .decoding fun _ =>
      .bind (lands_numbers .binary).2.2.1 fun _ _ => (Lands.checkContainerSize _).bind
        fun _ fits => .pure ⟨high, fits⟩
  | compact =>
    exact .bind .descend fun _ high => .bind lands_readVarint32 fun _ _ =>
      .bind (.ite (fun _ => .decode fun _ _ _ _ => trivial) fun _ => .pure trivial) fun _ _ =>
        (Lands.checkContainerSize _).bind fun _ fits => (lands_getType _).bind fun _ _ =>
          (lands_getType _).bind fun _ _ => .pure ⟨high, fits⟩

theorem lands_fields {value : TType → ReadM Value} {h : Nat}
    (each : ∀ type, Lands (value type) m m fun v => v.Parsed h type.unifyStringType) (n : Nat) :
    Lands (ReadM.fields p.reader value n) m m fun ms => ∀ e ∈ ms, ∃ type, e.2.Parsed h type := by
  induction n with
  | zero => exact .throw _
  | succ n ih =>
    refine .bind (lands_readFieldBegin p) fun field _ => .ite (fun _ => .pure (by simp)) fun _ => ?_
    refine (each field.1).bind fun v parsed => ih.bind fun rest later => .pure ?_
    exact List.forall_mem_cons.mpr ⟨⟨_, parsed⟩, later⟩

end Calls

/-! ## Values and objects -/

theorem lands_parseObjectWith (p : Protocol) {value : TType → ReadM Value} {h : Nat}
    (each : ∀ type, Lands (value type) h h fun v => v.Parsed h type.unifyStringType) :
    Lands (parseObjectWith p.reader value) (h + 1) (h + 1) fun ms =>
      (Value.object ms).Parsed (h + 1) .struct := by
  refine .bind (lands_readStructBegin p) fun _ high => .reading fun r => ?_
  refine (lands_fields p each _).bind fun ms parsed =>
    .bind (lands_readStructEnd p) fun _ _ => .pure ?_
  obtain ⟨s, n, w, b⟩ := Value.Parsed.members (by omega) fun e member =>
    parsed e (mem_of_mem_ofList member)
  exact ⟨rfl, s, Nat.succ_lt_succ n, ⟨sorted_ofList ms, w⟩, b⟩

/-- With as many levels as the reader has left, a value is parsed that has no more. -/
theorem lands_parseValueAt (p : Protocol) (h : Nat) (type : TType) :
    Lands (parseValueAt p.reader h type) h h fun v => v.Parsed h type.unifyStringType := by
  induction h generalizing type with
  | zero => exact .throw _
  | succ h ih =>
    have pos : 1 ≤ h + 1 := by omega
    rcases lands_numbers p (m := h + 1) with ⟨byte, i16, i32, i64, float, double⟩
    have plain {v : Value} (typed : v.getTType = type.unifyStringType) (s : v.Serializable)
        (n : v.nest = 0) (w : v.Wf) (b : v.NoStrings) : v.Parsed (h + 1) type.unifyStringType :=
      ⟨typed, s, by omega, w, b⟩
    unfold parseValueAt
    generalize type.unifyStringType = kind at plain ⊢
    cases kind with
    | bool => exact (lands_readBool p).map fun _ _ => plain rfl trivial rfl trivial trivial
    | byte => exact byte.map fun _ _ => plain rfl trivial rfl trivial trivial
    | i16 => exact i16.map fun _ _ => plain rfl trivial rfl trivial trivial
    | i32 => exact i32.map fun _ _ => plain rfl trivial rfl trivial trivial
    | i64 => exact i64.map fun _ _ => plain rfl trivial rfl trivial trivial
    | float => exact float.map fun _ _ => plain rfl trivial rfl trivial trivial
    | double => exact double.map fun _ _ => plain rfl trivial rfl trivial trivial
    | string => exact (lands_readBinary p).map fun _ fits => plain rfl fits rfl trivial trivial
    | struct => exact (lands_parseObjectWith p ih).map fun _ parsed => parsed
    | list =>
      refine .bind (lands_readListBegin p) fun header begun => ?_
      refine (Lands.parseElements 1 header.2 (ih header.1)).bind fun vs read =>
        .bind (by cases p <;> exact .ascend) fun _ _ => .pure ?_
      obtain ⟨s, n, w, b⟩ := Value.Parsed.elems (by omega) read.2
      exact ⟨rfl, ⟨by omega, serializableElems_elemTypeOf s⟩, Nat.succ_lt_succ n, w, b⟩
    | set =>
      refine .bind (lands_readSetBegin p) fun header begun => ?_
      refine (Lands.parseElements 1 header.2 (ih header.1)).bind fun vs read =>
        .bind (by cases p <;> exact .ascend) fun _ _ => .pure ?_
      obtain ⟨s, n, w, b⟩ := Value.Parsed.elems (by omega) fun v member =>
        read.2 v (SortedSet.mem_ofList.mp member)
      have fewer := SortedSet.length_ofList_le vs
      exact ⟨rfl, ⟨by omega, serializableElems_elemTypeOf s⟩, Nat.succ_lt_succ n,
        ⟨SortedSet.sorted_ofList vs, w⟩, b⟩
    | map =>
      refine .bind (lands_readMapBegin p) fun header begun => ?_
      have pair := (ih header.1).bind fun k keyed => (ih header.2.1).bind fun v valued =>
        Lands.pure (q := fun e : Value × Value => e.1.Parsed h header.1.unifyStringType ∧
          e.2.Parsed h header.2.1.unifyStringType) (a := (k, v)) ⟨keyed, valued⟩
      refine (Lands.parseElements 2 header.2.2 pair).bind fun es read =>
        .bind (by cases p <;> exact .ascend) fun _ _ => .pure ?_
      obtain ⟨s, n, w, b⟩ := Value.Parsed.entries (by omega) fun e member =>
        read.2 e (mem_of_mem_ofList member)
      have fewer := length_ofList_le es
      exact ⟨rfl, ⟨by omega, serializableEntries_entryTypesOf s⟩, Nat.succ_lt_succ n,
        ⟨sorted_ofList es, w⟩, b⟩
    | _ => exact .throw _

/-- Whatever the bytes are, an object that one protocol takes from them is written by the other
under the same depth limit, and read back from there as it is. -/
theorem transcodes (p q : Protocol) {maxDepth : Nat} {buf rest : Bytes} {obj : Object}
    (accepted : p.parse maxDepth buf = .ok (obj, rest)) :
    ∃ bytes, q.serialize maxDepth obj = .ok bytes ∧ q.parse maxDepth bytes = .ok (obj, []) := by
  unfold Protocol.parse at accepted
  rcases Except.bind_eq_ok accepted with ⟨⟨_, r⟩, parsed, same⟩
  cases same
  obtain ⟨-, typed, serializable, shallow, wf, none⟩ :=
    lands_parseObjectWith p (lands_parseValueAt p maxDepth) rfl parsed
  rcases parse_serialize q serializable (Nat.lt_succ_iff.mp shallow) with ⟨bytes, written, read⟩
  have same := Value.object.inj (Value.stringToBinary_eq_self _ wf none)
  exact ⟨bytes, written, by rw [read]; exact congrArg _ (congrArg (·, []) same)⟩

/-- A struct with an unsorted set and a field that comes twice. -/
theorem transcodes_at : ∃ bytes,
    Protocol.compact.serialize 2 [(1, .set [.byte 2, .byte 3])] = .ok bytes ∧
      Protocol.compact.parse 2 bytes = .ok ([(1, .set [.byte 2, .byte 3])], []) := by
  have accepted : Protocol.binary.parse 2 [3, 0, 1, 7, 14, 0, 1, 3, 0, 0, 0, 2, 3, 2, 0, 9] =
      .ok ([(1, .set [.byte 2, .byte 3])], [9]) := by decide +kernel
  exact transcodes .binary .compact accepted

end FbThrift
