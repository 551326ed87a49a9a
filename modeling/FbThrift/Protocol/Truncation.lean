import FbThrift.Protocol.Locality

/-!
# Truncated buffers

What stands behind an object does not change what a parser takes of it.  So no buffer that a parser
takes as a whole is accepted when its end is cut off.
-/

namespace FbThrift

open Decoder

variable {α β : Type}

/-- The read succeeds as before when more bytes follow. -/
def Extends (x : ReadM α) : Prop :=
  ∀ ⦃r a r'⦄, x r = .ok (a, r') → ∀ more,
    x (r.withInput (r.input ++ more)) = .ok (a, r'.withInput (r'.input ++ more))

theorem Local.extends {x : ReadM α} (reads : Local x) : Extends x := by
  intro r a r' ok more
  rcases reads ok with ⟨bs, split, again⟩
  rw [split, List.append_assoc]
  exact again (r'.input ++ more)

namespace Extends

variable {x : ReadM α} {f : α → ReadM β}

theorem bind (first : Extends x) (second : ∀ a, Extends (f a)) : Extends (x >>= f) := by
  intro r b r' ok more
  rcases Run.bind_ok ok with ⟨a, mid, ran, rest⟩
  rw [Run.bind_of_ok (first ran more)]
  exact second a rest more

theorem map (first : Extends x) (g : α → β) : Extends (g <$> x) := by
  rw [map_eq_pure_bind]
  exact first.bind fun a => (Local.pure (g a)).extends

theorem times (each : Extends x) (n : Nat) : Extends (ReadM.times x n) := by
  induction n with
  | zero => exact (Local.pure []).extends
  | succ n ih => exact each.bind fun a => ih.bind fun as => (Local.pure (a :: as)).extends

/-- More elements can be in a longer input. -/
theorem parseElements (types n : Nat) (each : Extends x) : Extends (parseElements types n x) := by
  intro r as r' ok more
  rcases Run.bind_ok ok with ⟨enough, mid, looked, ran⟩
  cases looked
  split at ran
  next fits =>
    have fits' : n * types ≤ (r.input ++ more).length := by
      rw [List.length_append]
      exact Nat.le_add_right_of_le (of_decide_eq_true fits)
    have looked : ReadM.canReadNElements n types (r.withInput (r.input ++ more)) =
        .ok (true, r.withInput (r.input ++ more)) := by
      rw [ReadM.canReadNElements, Reader.input_withInput, decide_eq_true fits']
    rw [FbThrift.parseElements, Run.bind_of_ok looked, if_pos rfl]
    exact each.times n ran more
  next => cases ran

/-- The bound on the number of fields grows with the input. -/
theorem fields {P : ReaderOps} {value : TType → ReadM α} (header : Extends P.readFieldBegin)
    (each : ∀ type, Extends (value type)) {n m : Nat} (more : n ≤ m) ⦃r as r'⦄
    (ok : ReadM.fields P value n r = .ok (as, r')) (behind : Bytes) :
    ReadM.fields P value m (r.withInput (r.input ++ behind)) =
      .ok (as, r'.withInput (r'.input ++ behind)) := by
  induction n generalizing m r as with
  | zero => cases ok
  | succ n ih =>
    obtain ⟨m, rfl⟩ : ∃ k, m = k + 1 := ⟨m - 1, by omega⟩
    rcases Run.bind_ok ok with ⟨⟨type, id⟩, mid, begun, ran⟩
    rw [ReadM.fields, Run.bind_of_ok (header begun behind)]
    dsimp only at ran ⊢
    by_cases stop : type = .stop
    · rw [if_pos stop] at ran ⊢
      cases ran
      rfl
    · rw [if_neg stop] at ran ⊢
      rcases Run.bind_ok ran with ⟨v, mid', read, ran⟩
      rcases Run.bind_ok ran with ⟨rest, last, later, done⟩
      cases done
      rw [Run.bind_of_ok (each type read behind), Run.bind_of_ok (ih (by omega) later)]
      rfl

end Extends

section Parser

variable (p : Protocol)

/-- The calls of the readers for values of one kind each. -/
theorem local_values : Local p.reader.readBool ∧ Local p.reader.readByte ∧ Local p.reader.readI16 ∧
    Local p.reader.readI32 ∧ Local p.reader.readI64 ∧ Local p.reader.readFloat ∧
    Local p.reader.readDouble ∧ Local p.reader.readBinary := by
  cases p with
  | binary =>
    open BinaryProtocolReader in
    exact ⟨local_readBool, local_readByte, local_readI16, local_readI32, local_readI64,
      local_readFloat, local_readDouble, local_readI32.bind fun _ => .ite (.throw _) (.take _)⟩
  | compact =>
    open CompactProtocolReader in
    exact ⟨local_readBool, local_readByte, local_readI16, local_readI32, local_readI64,
      local_readFloat, local_readDouble, local_readVarint32.bind fun _ => .ite (.throw _) (.take _)⟩

/-- The calls of the readers around members and elements. -/
theorem local_levels : Local p.reader.readStructBegin ∧ Local p.reader.readFieldBegin ∧
    Local p.reader.readStructEnd ∧ Local p.reader.readListBegin ∧ Local p.reader.readListEnd ∧
    Local p.reader.readSetBegin ∧ Local p.reader.readSetEnd ∧ Local p.reader.readMapBegin ∧
    Local p.reader.readMapEnd := by
  cases p with
  | binary =>
    open BinaryProtocolReader in
    exact ⟨.descend, (Local.decode consumes_readByte).bind fun _ => .ite (.pure _)
      (local_readI16.bind fun _ => .pure _), .ascend, local_readListBegin, .ascend,
      local_readListBegin, .ascend, local_readMapBegin, .ascend⟩
  | compact =>
    open CompactProtocolReader in
    exact ⟨local_readStructBegin, local_readFieldBegin, local_readStructEnd, local_readListBegin,
      .ascend, local_readListBegin, .ascend, local_readMapBegin, .ascend⟩

theorem extends_parseObjectWith {value : TType → ReadM Value}
    (each : ∀ type, Extends (value type)) : Extends (parseObjectWith p.reader value) := by
  rcases local_levels p with ⟨structBegin, fieldBegin, structEnd, _⟩
  refine structBegin.extends.bind fun _ r ms r' ok more => ?_
  rcases Run.bind_ok ok with ⟨_, _, got, ran⟩
  cases got
  rcases Run.bind_ok ran with ⟨members, mid, read, rest⟩
  rw [Run.get_bind, Reader.input_withInput, Run.bind_of_ok (Extends.fields fieldBegin.extends each
    (by rw [List.length_append]; omega) read more)]
  exact (structEnd.bind fun _ => .pure _).extends rest more

theorem extends_parseValueAt (h : Nat) (type : TType) : Extends (parseValueAt p.reader h type) := by
  induction h generalizing type with
  | zero => exact (Local.throw _).extends
  | succ h ih =>
    rcases local_values p with ⟨bool, byte, i16, i32, i64, float, double, binary⟩
    rcases local_levels p with ⟨_, _, _, listBegin, listEnd, setBegin, setEnd, mapBegin, mapEnd⟩
    unfold parseValueAt
    cases type.unifyStringType with
    | bool => exact bool.extends.map _
    | byte => exact byte.extends.map _
    | i16 => exact i16.extends.map _
    | i32 => exact i32.extends.map _
    | i64 => exact i64.extends.map _
    | float => exact float.extends.map _
    | double => exact double.extends.map _
    | string => exact binary.extends.map _
    | struct => exact (extends_parseObjectWith p ih).map _
    | list =>
      exact listBegin.extends.bind fun header => (Extends.parseElements 1 header.2
        (ih header.1)).bind fun vs => (listEnd.bind fun _ => .pure _).extends
    | set =>
      exact setBegin.extends.bind fun header => (Extends.parseElements 1 header.2
        (ih header.1)).bind fun vs => (setEnd.bind fun _ => .pure _).extends
    | map =>
      refine mapBegin.extends.bind fun header => ?_
      have entry := (ih header.1).bind fun k => (ih header.2.1).bind fun v =>
        (Local.pure (k, v)).extends
      exact (Extends.parseElements 2 header.2.2 entry).bind fun es =>
        (mapEnd.bind fun _ => .pure _).extends
    | _ => exact (Local.throw _).extends

/-- Bytes behind an object stay unread, and no proper part of a buffer that is taken as a whole is
accepted. -/
theorem parse_truncated {maxDepth : Nat} {buf rest : Bytes} {obj : Object}
    (accepted : p.parse maxDepth buf = .ok (obj, rest)) :
    (∀ more, p.parse maxDepth (buf ++ more) = .ok (obj, rest ++ more)) ∧
    (rest = [] → ∀ head tail, buf = head ++ tail → tail ≠ [] →
      ∃ err, p.parse maxDepth head = .error err) := by
  have longer {buf rest : Bytes} {obj : Object} (ok : p.parse maxDepth buf = .ok (obj, rest))
      (more : Bytes) : p.parse maxDepth (buf ++ more) = .ok (obj, rest ++ more) := by
    rcases Except.bind_eq_ok ok with ⟨⟨_, r⟩, parsed, same⟩
    cases same
    have again := extends_parseObjectWith p (extends_parseValueAt p maxDepth) parsed more
    unfold Protocol.parse
    change (parseObject p.reader (Reader.ofBytes maxDepth (buf ++ more)) >>= _) = _
    rw [show parseObject p.reader (Reader.ofBytes maxDepth (buf ++ more)) = _ from again]
    rfl
  refine ⟨longer accepted, ?_⟩
  rintro rfl head tail rfl cut
  cases other : p.parse maxDepth head with
  | error err => exact ⟨err, rfl⟩
  | ok taken =>
    have whole := (longer other tail).symm.trans accepted
    cases taken with
    | mk obj' left =>
      have empty := congrArg Prod.snd (Except.ok.inj whole)
      exact absurd (List.append_eq_nil_iff.mp empty).2 cut

/-- A struct with a list of booleans, in Compact, and two bytes behind it. -/
theorem parse_truncated_list : let buf : Bytes := [25, 34, 1, 2, 0]
    (∀ more, Protocol.compact.parse 4 (buf ++ more) =
      .ok ([(1, .list [.bool true, .bool false])], [] ++ more)) ∧
    ([] = ([] : Bytes) → ∀ head tail, buf = head ++ tail → tail ≠ [] →
      ∃ err, Protocol.compact.parse 4 head = .error err) :=
  parse_truncated .compact (by decide +kernel)

end Parser

end FbThrift
