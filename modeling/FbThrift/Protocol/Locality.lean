import FbThrift.Protocol.Object

/-!
# Reads are local

A read that succeeds takes bytes off the front of the input and depends on nothing behind them.
It therefore succeeds on any input that begins with these bytes, and on no proper part of them.
-/

namespace FbThrift

open Decoder

variable {α β : Type}

/-- The read depends on the bytes that it takes only. -/
def Local (x : ReadM α) : Prop :=
  ∀ ⦃r a r'⦄, x r = .ok (a, r') → ∃ bs, r.input = bs ++ r'.input ∧
    ∀ rest, x (r.withInput (bs ++ rest)) = .ok (a, r'.withInput rest)

/-- The read takes `k` bytes where it succeeds. -/
def Advances (x : ReadM α) (k : Nat) : Prop :=
  ∀ ⦃r a r'⦄, x r = .ok (a, r') → r.input.length = k + r'.input.length

namespace Local

variable {x : ReadM α} {f : α → ReadM β} {r r' : Reader} {a : α}

theorem pure (a : α) : Local (pure a : ReadM α) := by
  intro r a' r' ok
  cases ok
  exact ⟨[], rfl, fun rest => rfl⟩

theorem throw (err : String) : Local (throw err : ReadM α) := by
  intro r a r' ok
  cases ok

theorem bind (first : Local x) (second : ∀ a, Local (f a)) : Local (x >>= f) := by
  intro r b r'' ok
  obtain ⟨a, r', read, rest⟩ := Run.bind_ok ok
  obtain ⟨bs, split, again⟩ := first read
  obtain ⟨cs, split', again'⟩ := second a rest
  refine ⟨bs ++ cs, by rw [split, split', List.append_assoc], fun rest => ?_⟩
  rw [List.append_assoc, Run.bind_of_ok (again _), again']

theorem decode {d : Decoder α} {k : Nat} (consumes : Consumes d k) : Local (ReadM.decode d) := by
  intro r a r' ok
  unfold ReadM.decode at ok
  cases decoded : d r.input with
  | error err =>
    rw [decoded] at ok
    cases ok
  | ok pair =>
    rw [decoded] at ok
    cases ok
    obtain ⟨bs, split, _, decodes⟩ := consumes _ _ _ decoded
    refine ⟨bs, split, fun rest => ?_⟩
    simp only [ReadM.decode, Reader.input_withInput, decodes rest, Reader.withInput_withInput]

/-- A change of the state of the reader that leaves the input alone. -/
theorem modify {g : Reader → Reader} (commutes : ∀ r rest, g (r.withInput rest) =
    (g r).withInput rest) : Local (modify g : ReadM PUnit) := by
  intro r a r' ok
  cases ok
  have same : (g r).input = r.input := by
    have input := congrArg Reader.input (commutes r r.input)
    rwa [Reader.withInput_input, Reader.input_withInput] at input
  exact ⟨[], by rw [same]; rfl, fun rest => by rw [Run.modify_run, commutes]; rfl⟩

/-- What follows may depend on the state of the reader, but not on the input. -/
theorem reading {g : Reader → ReadM α} (same : ∀ r rest, g (r.withInput rest) = g r)
    (each : ∀ r, Local (g r)) : Local (get >>= g) := by
  intro r a r' ok
  rw [Run.get_bind] at ok
  obtain ⟨bs, split, again⟩ := each r ok
  exact ⟨bs, split, fun rest => by rw [Run.get_bind, same]; exact again rest⟩

theorem ite {p : Prop} [Decidable p] {y : ReadM α} (yes : Local x) (no : Local y) :
    Local (if p then x else y) := by
  split
  · exact yes
  · exact no

theorem length_le (reads : Local x) (ok : x r = .ok (a, r')) :
    r'.input.length ≤ r.input.length := by
  obtain ⟨bs, split, _⟩ := reads ok
  rw [split, List.length_append]
  exact Nat.le_add_left _ _

/-- A read succeeds as well where a part of the input is left out that it does not take. -/
theorem of_prefix (reads : Local x) (ok : x r = .ok (a, r')) {chunk rest : Bytes}
    (split : r.input = chunk ++ rest) (enough : r.input.length ≤ chunk.length + r'.input.length) :
    ∃ left, x (r.withInput chunk) = .ok (a, r'.withInput left) ∧ r'.input = left ++ rest := by
  obtain ⟨bs, begins, again⟩ := reads ok
  have begins' : chunk ++ rest = bs ++ r'.input := split ▸ begins
  have long : bs.length ≤ chunk.length := by
    rw [begins, List.length_append] at enough
    omega
  obtain ⟨left, rfl⟩ : ∃ left, chunk = bs ++ left := by
    rcases List.append_eq_append_iff.mp begins' with ⟨as, rfl, _⟩ | ⟨cs, rfl, _⟩
    · rw [List.length_append] at long
      have none : as = [] := List.eq_nil_of_length_eq_zero (by omega)
      exact ⟨[], by rw [none, List.append_nil, List.append_nil]⟩
    · exact ⟨cs, rfl⟩
  refine ⟨left, again left, ?_⟩
  rw [List.append_assoc] at begins'
  exact (List.append_cancel_left begins').symm

theorem fails_of_prefix (reads : Local x) (ok : x r = .ok (a, r')) {chunk rest : Bytes}
    (split : r.input = chunk ++ rest) (short : chunk.length + r'.input.length < r.input.length) :
    ∃ err, x (r.withInput chunk) = .error err := by
  cases other : x (r.withInput chunk) with
  | error err => exact ⟨err, rfl⟩
  | ok pair =>
    obtain ⟨a', r''⟩ := pair
    obtain ⟨bs, begins, again⟩ := reads other
    rw [Reader.input_withInput] at begins
    have whole := again (r''.input ++ rest)
    rw [Reader.withInput_withInput, ← List.append_assoc, ← begins, ← split,
      Reader.withInput_input, ok] at whole
    injection whole with same
    have left : r'.input = r''.input ++ rest := by
      rw [(Prod.mk.inj same).2, Reader.input_withInput]
    rw [left, split, List.length_append, List.length_append] at short
    omega

end Local

namespace Advances

variable {x : ReadM α}

theorem bind_pure {k : Nat} (takes : Advances x k) (g : α → β) :
    Advances (x >>= fun a => pure (g a)) k := by
  intro r b r' ok
  obtain ⟨a, r'', read, rest⟩ := Run.bind_ok ok
  cases rest
  exact takes read

theorem decode {d : Decoder α} {k : Nat}
    (takes : ∀ input a rest, d input = .ok (a, rest) → input.length = k + rest.length) :
    Advances (ReadM.decode d) k := by
  intro r a r' ok
  unfold ReadM.decode at ok
  cases decoded : d r.input with
  | error err =>
    rw [decoded] at ok
    cases ok
  | ok pair =>
    rw [decoded] at ok
    cases ok
    exact takes _ _ _ decoded

end Advances

/-! ## How much the decoders take -/

variable {input rest bs : Bytes} {n m : Nat}

theorem length_of_readByte {b : UInt8}
    (ok : Decoder.readByte input = .ok (b, rest)) : input.length = 1 + rest.length := by
  cases input with
  | nil => cases ok
  | cons b input =>
    cases ok
    rw [List.length_cons, Nat.add_comm]

theorem length_of_take (ok : take n input = .ok (bs, rest)) : input.length = n + rest.length := by
  unfold take at ok
  split at ok
  · cases ok
    rw [List.length_drop]
    omega
  · cases ok

theorem length_of_readBELoop {k acc : Nat}
    (ok : readBELoop k acc input = .ok (n, rest)) : input.length = k + rest.length := by
  induction k generalizing acc input with
  | zero =>
    cases ok
    exact (Nat.zero_add _).symm
  | succ k ih =>
    obtain ⟨b, mid, read, more⟩ := Run.bind_ok ok
    rw [length_of_readByte read, ih more]
    omega

/-- The number of bytes up to the first one that ends a varint. -/
def varintSpan : Bytes → Option Nat
  | [] => none
  | b :: bs => if b.toNat < 128 then some 1 else (varintSpan bs).map (· + 1)

theorem varintSpan_pos (span : varintSpan bs = some m) : 0 < m ∧ m ≤ bs.length := by
  induction bs generalizing m with
  | nil => cases span
  | cons b bs ih =>
    rw [varintSpan] at span
    split at span
    · cases span
      exact ⟨Nat.one_pos, by rw [List.length_cons]; omega⟩
    · obtain ⟨n, found, rfl⟩ := Option.map_eq_some_iff.mp span
      obtain ⟨pos, inside⟩ := ih found
      rw [List.length_cons]
      omega

/-- The end of a varint is found in every part of the input that reaches it. -/
theorem varintSpan_append (more : Bytes) (span : varintSpan (bs ++ more) = some m) :
    varintSpan bs = if m ≤ bs.length then some m else none := by
  induction bs generalizing m with
  | nil =>
    have pos := varintSpan_pos span
    rw [if_neg (by rw [List.length_nil]; omega), varintSpan]
  | cons b bs ih =>
    rw [List.cons_append, varintSpan] at span
    rw [varintSpan]
    split at span
    next ends =>
      cases span
      rw [if_pos ends, if_pos (by rw [List.length_cons]; omega)]
    next continues =>
      obtain ⟨n, found, rfl⟩ := Option.map_eq_some_iff.mp span
      rw [if_neg continues, ih found, List.length_cons]
      split
      · rw [if_pos (by omega), Option.map_some]
      · rw [if_neg (by omega), Option.map_none]

/-- A varint that is read ends within the bytes that its width allows. -/
theorem varintSpan_of_readVarintLoop {bits left shift result : Nat}
    (ok : readVarintLoop bits left shift result input = .ok (n, rest)) :
    ∃ m ≤ left, varintSpan input = some m ∧ input.length = m + rest.length := by
  induction left generalizing shift result input with
  | zero => cases ok
  | succ left ih =>
    obtain ⟨b, mid, read, more⟩ := Run.bind_ok ok
    cases input with
    | nil => cases read
    | cons b' input =>
      cases read
      dsimp only at more
      rw [varintSpan, List.length_cons]
      split at more
      next ends =>
        cases more
        exact ⟨1, by omega, by rw [if_pos ends], by omega⟩
      next continues =>
        obtain ⟨m, few, span, length⟩ := ih more
        exact ⟨m + 1, by omega, by rw [if_neg continues, span]; rfl, by omega⟩

/-! ## The calls of the readers -/

theorem Local.descend : Local ReadM.descend := by
  intro r a r' ok
  unfold ReadM.descend at ok
  split at ok
  · cases ok
  next high =>
    cases ok
    exact ⟨[], rfl, fun rest => if_neg high⟩

theorem Local.ascend : Local ReadM.ascend := by
  intro r a r' ok
  cases ok
  exact ⟨[], rfl, fun rest => rfl⟩

theorem Local.checkContainerSize (size : Int32) : Local (ReadM.checkContainerSize size) :=
  .ite (.throw _) (.pure _)

theorem Local.take (n : Nat) : Local (ReadM.decode (take n)) := .decode (consumes_take n)

theorem Advances.descend : Advances ReadM.descend 0 := by
  intro r a r' ok
  unfold ReadM.descend at ok
  split at ok
  · cases ok
  · cases ok
    exact (Nat.zero_add _).symm

theorem Advances.ascend : Advances ReadM.ascend 0 := by
  intro r a r' ok
  cases ok
  exact (Nat.zero_add _).symm

theorem Advances.readByte : Advances (ReadM.decode Decoder.readByte) 1 :=
  .decode fun _ _ _ => length_of_readByte

theorem Advances.readBE (k : Nat) : Advances (ReadM.decode (readBE k)) k :=
  .decode fun _ _ _ => length_of_readBELoop

theorem Advances.take (n : Nat) : Advances (ReadM.decode (take n)) n :=
  .decode fun _ _ _ => length_of_take

theorem Advances.bind {α β : Type} {x : ReadM α} {f : α → ReadM β} {k : Nat} (first : Advances x k)
    (second : ∀ a, Advances (f a) m) : Advances (x >>= f) (k + m) := by
  intro r b r'' ok
  obtain ⟨a, r', read, rest⟩ := Run.bind_ok ok
  rw [first read, second a rest, Nat.add_assoc]

theorem Advances.pure {α : Type} (a : α) : Advances (Pure.pure a : ReadM α) 0 := by
  intro r a' r' ok
  cases ok
  exact (Nat.zero_add _).symm

theorem Advances.checkContainerSize (size : Int32) :
    Advances (ReadM.checkContainerSize size) 0 := by
  unfold ReadM.checkContainerSize
  split
  · intro r a r' ok
    cases ok
  · exact .pure _

/-- The read takes a varint. -/
def Spans {α : Type} (x : ReadM α) : Prop :=
  ∀ ⦃r a r'⦄, x r = .ok (a, r') → ∃ m ≤ 10, varintSpan r.input = some m ∧
    r.input.length = m + r'.input.length

theorem Spans.bind {α β : Type} {x : ReadM α} {f : α → ReadM β} (spans : Spans x)
    (rest : ∀ a, Advances (f a) 0) : Spans (x >>= f) := by
  intro r b r' ok
  obtain ⟨a, r'', read, more⟩ := Run.bind_ok ok
  obtain ⟨m, short, span, length⟩ := spans read
  exact ⟨m, short, span, by rw [length, rest a more, Nat.zero_add]⟩

theorem Spans.readVarint {bits : Nat} (wide : varintMaxBytes bits ≤ 10) :
    Spans (ReadM.decode (readVarint bits)) := by
  intro r n r' ok
  unfold ReadM.decode at ok
  cases decoded : Decoder.readVarint bits r.input with
  | error err =>
    rw [decoded] at ok
    cases ok
  | ok pair =>
    rw [decoded] at ok
    cases ok
    obtain ⟨m, few, span, length⟩ := varintSpan_of_readVarintLoop decoded
    exact ⟨m, Nat.le_trans few wide, span, length⟩

theorem readByte_bind_ok {α : Type} {f : UInt8 → ReadM α} {r r' : Reader} {a : α}
    (ok : (ReadM.decode Decoder.readByte >>= f) r = .ok (a, r')) :
    ∃ byte bytes, r.input = byte :: bytes ∧ f byte (r.withInput bytes) = .ok (a, r') := by
  obtain ⟨byte, mid, read, rest⟩ := Run.bind_ok ok
  unfold ReadM.decode at read
  cases input : r.input with
  | nil =>
    rw [input] at read
    cases read
  | cons b bytes =>
    rw [input] at read
    cases read
    exact ⟨byte, bytes, rfl, rest⟩

theorem descend_bind_ok {α : Type} {f : Unit → ReadM α} {r r' : Reader} {a : α}
    (ok : (ReadM.descend >>= f) r = .ok (a, r')) :
    ∃ down : Reader, down.input = r.input ∧ f () down = .ok (a, r') := by
  obtain ⟨_, down, descends, rest⟩ := Run.bind_ok ok
  unfold ReadM.descend at descends
  split at descends
  · cases descends
  · cases descends
    exact ⟨r.down, rfl, rest⟩

namespace CompactProtocolReader

theorem local_readByte : Local readByte := (Local.decode consumes_readByte).bind fun _ => .pure _

theorem local_readVarint32 : Local readVarint32 :=
  (Local.decode (consumes_readVarint 32)).bind fun _ => .pure _

theorem local_readI16 : Local readI16 := local_readVarint32.bind fun _ => .pure _

theorem local_readI32 : Local readI32 := local_readVarint32.bind fun _ => .pure _

theorem local_readI64 : Local readI64 :=
  (Local.decode (consumes_readVarint 64)).bind fun _ => .pure _

theorem local_readFloat : Local readFloat :=
  (Local.decode (consumes_readBE 4)).bind fun _ => .pure _

theorem local_readDouble : Local readDouble :=
  (Local.decode (consumes_readBE 8)).bind fun _ => .pure _

theorem local_readStructBegin : Local readStructBegin :=
  Local.descend.bind fun _ => .modify fun _ _ => rfl

theorem local_readStructEnd : Local readStructEnd :=
  (Local.modify fun _ _ => rfl).bind fun _ => .ascend

theorem local_getType (type : Nat) : Local (getType type) := by
  unfold getType
  split
  · exact .pure _
  · exact .throw _

theorem local_readFieldId (modifier : Nat) : Local (readFieldId modifier) :=
  .ite local_readI16 (.reading (fun _ _ => rfl) fun _ => .pure _)

theorem local_saveBool (type : Nat) : Local (saveBool type) :=
  .ite (.modify fun _ _ => rfl) (.pure _)

theorem local_readFieldBegin : Local readFieldBegin :=
  (Local.decode consumes_readByte).bind fun _ => .ite (.pure _)
    ((local_readFieldId _).bind fun _ => (local_getType _).bind fun _ =>
      (local_saveBool _).bind fun _ => (Local.modify fun _ _ => rfl).bind fun _ => .pure _)

theorem local_readBool : Local readBool := by
  refine .reading (fun _ _ => rfl) fun r => ?_
  split
  · exact (Local.modify fun _ _ => rfl).bind fun _ => .pure _
  · exact (Local.decode consumes_readByte).bind fun _ => .pure _

theorem local_readMapBegin : Local readMapBegin :=
  Local.descend.bind fun _ => local_readVarint32.bind fun _ =>
    (Local.ite (.decode consumes_readByte) (.pure _)).bind fun _ =>
      (Local.checkContainerSize _).bind fun _ => (local_getType _).bind fun _ =>
        (local_getType _).bind fun _ => .pure _

theorem local_readListBegin : Local readListBegin :=
  Local.descend.bind fun _ => (Local.decode consumes_readByte).bind fun _ =>
    (Local.ite local_readVarint32 (.pure _)).bind fun _ =>
      (Local.checkContainerSize _).bind fun _ => (local_getType _).bind fun _ => .pure _

theorem spans_readVarint32 : Spans readVarint32 :=
  (Spans.readVarint (by decide)).bind fun _ => .pure _

theorem spans_readI16 : Spans readI16 := spans_readVarint32.bind fun _ => .pure _

theorem spans_readI32 : Spans readI32 := spans_readVarint32.bind fun _ => .pure _

theorem spans_readI64 : Spans readI64 :=
  (Spans.readVarint (by decide)).bind fun _ => .pure _

theorem advances_getType (type : Nat) : Advances (getType type) 0 := by
  unfold getType
  split
  · exact .pure _
  · intro r a r' ok
    cases ok

theorem advances_saveBool (type : Nat) : Advances (saveBool type) 0 := by
  unfold saveBool
  split
  · intro r a r' ok
    cases ok
    exact (Nat.zero_add _).symm
  · exact .pure _

theorem readFieldBegin_advances {r r' : Reader} {field : TType × Int16}
    (ok : readFieldBegin r = .ok (field, r')) : ∃ byte bytes, r.input = byte :: bytes ∧
      if byte.toNat % 16 ≠ 0 ∧ byte.toNat / 16 = 0 then
        ∃ m ≤ 10, varintSpan bytes = some m ∧ bytes.length = m + r'.input.length
      else bytes.length = r'.input.length := by
  obtain ⟨byte, bytes, input, rest⟩ := readByte_bind_ok ok
  refine ⟨byte, bytes, input, ?_⟩
  have later : ∀ id, Advances (do
      let fieldType ← getType (byte.toNat % 16)
      saveBool (byte.toNat % 16)
      modify fun r => { r with lastFieldId := id }
      pure (fieldType, id)) 0 := by
    intro id
    refine (advances_getType _).bind (m := 0) fun type => (advances_saveBool _).bind (m := 0) fun _ => ?_
    intro r a r' ok
    cases ok
    exact (Nat.zero_add _).symm
  split at rest
  next stop =>
    cases rest
    rw [if_neg (fun both => both.1 stop)]
    rfl
  next field =>
    unfold readFieldId at rest
    split at rest
    next modifier =>
      rw [if_pos ⟨field, modifier⟩]
      exact (spans_readI16.bind later) rest
    next modifier =>
      rw [if_neg (fun both => modifier both.2)]
      obtain ⟨id, mid, read, more⟩ := Run.bind_ok rest
      cases read
      exact (later _ more).trans (Nat.zero_add _)

theorem readListBegin_advances {r r' : Reader} {header : TType × Nat}
    (ok : readListBegin r = .ok (header, r')) : ∃ byte bytes, r.input = byte :: bytes ∧
      if byte.toNat / 16 = 15 then
        ∃ m ≤ 10, varintSpan bytes = some m ∧ bytes.length = m + r'.input.length
      else bytes.length = r'.input.length := by
  obtain ⟨down, same, begins⟩ := descend_bind_ok ok
  obtain ⟨byte, bytes, input, rest⟩ := readByte_bind_ok begins
  refine ⟨byte, bytes, same.symm.trans input, ?_⟩
  have later : ∀ lsize, Advances (do
      let size ← ReadM.checkContainerSize lsize
      let elem ← getType (byte.toNat % 16)
      pure (elem, size)) 0 :=
    fun lsize => (Advances.checkContainerSize _).bind (m := 0) fun _ =>
      (advances_getType _).bind (m := 0) fun _ => .pure _
  unfold readCollectionSize at rest
  split at rest
  next full =>
    rw [if_pos full]
    exact (spans_readVarint32.bind later) rest
  next small =>
    rw [if_neg small]
    exact (later _ rest).trans (Nat.zero_add _)

/-- A size whose first byte is zero is zero. -/
theorem readVarint32_of_zero {r r' : Reader} {n : Int32} {bytes : Bytes}
    (ok : readVarint32 r = .ok (n, r')) (input : r.input = 0 :: bytes) : n = 0 := by
  have zero : readVarint32 r = .ok (0, r.withInput bytes) := by
    unfold readVarint32
    rw [Run.bind_of_ok (a := 0) (t := r.withInput bytes)]
    · rfl
    · unfold ReadM.decode
      rw [input]
      rfl
  cases ok.symm.trans zero
  rfl

theorem toNat_eq_zero_iff {n : Int32} (nonneg : ¬ n < 0) : n.toInt.toNat = 0 ↔ n = 0 := by
  rw [Int32.lt_iff_toInt_lt] at nonneg
  rw [← Int32.toInt_inj]
  have zero : (0 : Int32).toInt = 0 := rfl
  omega

theorem readMapBegin_advances {r r' : Reader} {header : TType × TType × Nat}
    (ok : readMapBegin r = .ok (header, r')) : ∃ m ≤ 10, varintSpan r.input = some m ∧
      r.input.length = m + (if header.2.2 = 0 then 0 else 1) + r'.input.length ∧
      (header.2.2 ≠ 0 → r.input.headD 0 ≠ 0) := by
  obtain ⟨down, same, begins⟩ := descend_bind_ok ok
  obtain ⟨msize, mid, read, rest⟩ := Run.bind_ok begins
  obtain ⟨kvType, mid', types, more⟩ := Run.bind_ok rest
  obtain ⟨size, mid'', check, last⟩ := Run.bind_ok more
  obtain ⟨m, short, span, length⟩ := spans_readVarint32 read
  rw [same] at span length
  have sized : header.2.2 = size ∧ mid''.input.length = r'.input.length := by
    obtain ⟨key, mid₁, getKey, last⟩ := Run.bind_ok last
    obtain ⟨value, mid₂, getValue, last⟩ := Run.bind_ok last
    cases last
    have key := advances_getType _ getKey
    have value := advances_getType _ getValue
    exact ⟨rfl, by omega⟩
  have checked : size = 0 ↔ msize = 0 := by
    unfold ReadM.checkContainerSize at check
    split at check
    · cases check
    next nonneg =>
      cases check
      exact toNat_eq_zero_iff nonneg
  have kept := Advances.checkContainerSize _ check
  rw [sized.1]
  refine ⟨m, short, span, ?_, fun nonzero first => ?_⟩
  · unfold readKeyValueTypes at types
    split at types
    next nonzero =>
      have byte := Advances.readByte types
      rw [if_neg (fun zero => nonzero (checked.mp zero))]
      omega
    next zero =>
      cases types
      rw [if_pos (checked.mpr (not_not.mp zero))]
      omega
  · obtain ⟨byte, bytes, input⟩ : ∃ byte bytes, r.input = byte :: bytes := by
      cases input : r.input with
      | nil =>
        rw [input] at span
        cases span
      | cons byte bytes => exact ⟨byte, bytes, rfl⟩
    rw [input, List.headD_cons] at first
    rw [first, ← same] at input
    exact nonzero (checked.mpr (readVarint32_of_zero read input))

end CompactProtocolReader

namespace BinaryProtocolReader

theorem local_readByte : Local readByte := (Local.decode consumes_readByte).bind fun _ => .pure _

theorem local_readI16 : Local readI16 := (Local.decode (consumes_readBE 2)).bind fun _ => .pure _

theorem local_readI32 : Local readI32 := (Local.decode (consumes_readBE 4)).bind fun _ => .pure _

theorem local_readI64 : Local readI64 := (Local.decode (consumes_readBE 8)).bind fun _ => .pure _

theorem local_readFloat : Local readFloat :=
  (Local.decode (consumes_readBE 4)).bind fun _ => .pure _

theorem local_readDouble : Local readDouble :=
  (Local.decode (consumes_readBE 8)).bind fun _ => .pure _

theorem local_readBool : Local readBool :=
  (Local.decode consumes_readByte).bind fun _ => .ite (.throw _) (.pure _)

theorem local_readMapBegin : Local readMapBegin :=
  Local.descend.bind fun _ => (Local.decode consumes_readByte).bind fun _ =>
    (Local.decode consumes_readByte).bind fun _ => local_readI32.bind fun _ =>
      (Local.checkContainerSize _).bind fun _ => .pure _

theorem local_readListBegin : Local readListBegin :=
  Local.descend.bind fun _ => (Local.decode consumes_readByte).bind fun _ =>
    local_readI32.bind fun _ => (Local.checkContainerSize _).bind fun _ => .pure _

theorem advances_readI32 : Advances readI32 4 := (Advances.readBE 4).bind_pure _

theorem advances_readMapBegin : Advances readMapBegin 6 :=
  Advances.descend.bind fun _ => Advances.readByte.bind (m := 5) fun _ =>
    Advances.readByte.bind (m := 4) fun _ => advances_readI32.bind (m := 0) fun _ =>
      (Advances.checkContainerSize _).bind (m := 0) fun _ => .pure _

theorem advances_readListBegin : Advances readListBegin 5 :=
  Advances.descend.bind fun _ => Advances.readByte.bind (m := 4) fun _ =>
    advances_readI32.bind (m := 0) fun _ =>
      (Advances.checkContainerSize _).bind (m := 0) fun _ => .pure _

end BinaryProtocolReader

end FbThrift
