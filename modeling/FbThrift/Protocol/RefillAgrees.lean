import FbThrift.Protocol.RefillRules

/-!
# Refilling readers against plain readers

The compact reader has to find the end of a varint before it reads it; the binary one knows what
every call takes.  From the single calls the free function `skip` and then every sequence of calls
follow.
-/

namespace FbThrift

open Decoder ProtocolReaderWithRefill

variable {extra : Nat → Nat} {s : Refilling}

/-! ## Varints -/

theorem varintSpan_chunk {idx m : Nat} (inside : idx ≤ s.length)
    (span : varintSpan (s.whole.input.drop idx) = some m) :
    varintSpan (s.reader.input.drop idx) = if idx + m ≤ s.length then some m else none := by
  have split : s.whole.input.drop idx = s.reader.input.drop idx ++ s.rest := by
    change (s.reader.input ++ s.rest).drop idx = _
    exact List.drop_append_of_le_length inside
  rw [split] at span
  rw [varintSpan_append s.rest span, List.length_drop]
  change (if m ≤ s.length - idx then _ else _) = _
  by_cases fits : idx + m ≤ s.length
  · rw [if_pos fits, if_pos (by omega)]
  · rw [if_neg fits, if_neg (by omega)]

theorem varintSpan_drop {bs : Bytes} {m n : Nat} (span : varintSpan bs = some m) (less : n < m) :
    varintSpan (bs.drop n) = some (m - n) := by
  induction n generalizing bs m with
  | zero => rw [List.drop_zero, span, Nat.sub_zero]
  | succ n ih =>
    cases bs with
    | nil => cases span
    | cons b bs =>
      rw [varintSpan] at span
      split at span
      · cases span
        omega
      · obtain ⟨m', found, rfl⟩ := Option.map_eq_some_iff.mp span
        rw [List.drop_succ_cons, ih found (by omega)]
        congr 1
        omega

namespace CompactProtocolReaderWithRefill

theorem ensures_ensureIntegerLoop {fuel idx m : Nat} (inside : idx ≤ s.length)
    (span : varintSpan (s.whole.input.drop idx) = some m) (short : m ≤ 10)
    (small : idx + m < 2 ^ 32) (fueled : s.rest.length < fuel) :
    Ensures extra (ensureIntegerLoop extra fuel idx) s (idx + m) := by
  induction fuel generalizing s idx m with
  | zero => omega
  | succ fuel ih =>
    obtain ⟨pos, within⟩ := varintSpan_pos span
    rw [List.length_drop] at within
    -- A refill takes from the rest.
    have refilled : ∀ {t : Refilling} {n : Nat}, t.whole = s.whole →
        t.Holds extra (max s.length n) → s.length < n → t.rest.length < fuel := by
      intro t n whole holds more
      have same := congrArg (fun r : Reader => r.input.length) whole
      simp only [Refilling.length_whole] at same
      have least := holds.1
      omega
    unfold ensureIntegerLoop Ensures
    rw [Run.get_bind]
    split
    next near =>
      split
      next atEnd =>
        have more : Ensures extra _ s (idx + 1) := .buffer (by omega) (by omega)
        refine Ensures.bind (by omega) more fun t whole holds => ?_
        have least := holds.1
        exact ih (by omega) (by rw [whole]; exact span) short small
          (refilled whole holds (by omega))
      next =>
        rw [varintSpan_chunk inside span]
        split
        next found => exact Ensures.nothing found
        next missing =>
          refine Ensures.bind (by omega)
            (.buffer (by omega) (by omega) : Ensures extra _ s (s.length + 1))
            fun t whole holds => ?_
          have least := holds.1
          have later := varintSpan_drop span (show s.length - idx < m by omega)
          rw [List.drop_drop, Nat.add_sub_cancel' inside] at later
          have target : s.length + (m - (s.length - idx)) = idx + m := by omega
          rw [← target]
          exact ih (by omega) (by rw [whole]; exact later) (by omega) (by omega)
            (refilled whole holds (by omega))
    next far => exact Ensures.nothing (by omega)

theorem ensures_ensureInteger {idx m : Nat} (inside : idx ≤ s.length)
    (span : varintSpan (s.whole.input.drop idx) = some m) (short : m ≤ 10)
    (small : idx + m < 2 ^ 32) : Ensures extra (ensureInteger extra idx) s (idx + m) :=
  ensures_ensureIntegerLoop inside span short small (Nat.lt_add_of_pos_right Nat.two_pos)

end CompactProtocolReaderWithRefill

open CompactProtocolReaderWithRefill in
theorem Agrees.integer {α : Type} {x : ReadM α} (reads : Local x) (spans : Spans x) :
    Agrees extra x (Careful.read x) (ensureInteger extra 0 >>= fun _ => protocol x) := by
  refine .read reads fun ok s whole => ?_
  obtain ⟨m, short, span, length⟩ := spans ok
  have taken : ∀ n, m + n - n = 0 + m := fun n => by omega
  rw [length, taken]
  rw [← whole] at span
  exact ensures_ensureInteger (Nat.zero_le _) span short (by omega)

/-! ## Careful reads of more than one part -/

namespace Careful

variable {α β : Type} {x : ReadM α} {f : α → ReadM β}

/-- A read of two parts is careful if the parts are. -/
theorem read_bind (reads : Local x) (rest : ∀ a, Local (f a)) :
    read (x >>= f) = read x >>= fun a => read (f a) := by
  funext s
  cases first : x s.reader with
  | error err =>
    have failed : read x s = .error err := by
      simp only [read, readUnless, first]
      rfl
    rw [Run.bind_of_error failed]
    simp only [read, readUnless, Run.bind_of_error first]
    rfl
  | ok pair =>
    obtain ⟨a, r⟩ := pair
    have done : read x s = .ok (a, ⟨r, passed s.ahead s.reader r⟩) := by
      simp only [read, readUnless, first]
      rfl
    rw [Run.bind_of_ok done]
    simp only [read, readUnless, Run.bind_of_ok first]
    cases second : f a r with
    | error err => rfl
    | ok pair =>
      obtain ⟨b, r'⟩ := pair
      have shrinks := reads.length_le first
      have shrinks' := (rest a).length_le second
      have both : passed s.ahead s.reader r' = passed (passed s.ahead s.reader r) r r' := by
        unfold passed
        by_cases same : r'.input.length = s.reader.input.length
        · rw [same, show r.input.length = s.reader.input.length by omega]
          simp
        · rw [beq_false_of_ne same, Bool.and_false]
          by_cases same' : r.input.length = s.reader.input.length
          · rw [show (r'.input.length == r.input.length) = false from
              beq_false_of_ne (by omega), Bool.and_false]
          · rw [beq_false_of_ne same', Bool.and_false, Bool.false_and]
      exact congrArg (fun ahead => Except.ok (b, (⟨r', ahead⟩ : Careful))) both

theorem read_pure (a : α) : read (pure a) = pure a := by
  funext s
  simp [read, readUnless, passed]

theorem read_throw (err : String) : read (throw err : ReadM α) = throw err := by
  funext s
  rfl

theorem read_ite {p : Prop} [Decidable p] (x y : ReadM α) :
    read (if p then x else y) = if p then read x else read y := by
  split <;> rfl

end Careful

/-! ## Calls of both readers -/

theorem local_skipBytes (n : Nat) : Local (skipBytes n) := (Local.take n).bind fun _ => .pure _

theorem advances_skipBytes (n : Nat) : Advances (skipBytes n) n := (Advances.take n).bind_pure _

/-- What is skipped is ensured unless its size does not fit in the argument of `ensureBuffer`. -/
theorem agrees_skipBytes (n : Nat) : Agrees extra (skipBytes n) (Careful.skipBytes n)
    (ensureBuffer extra n >>= fun _ => protocol (skipBytes n)) := by
  refine .reads (local_skipBytes n) (fun {r h a r'} ok small s whole _ => ?_)
    fun {r h a r'} ok large => ?_
  · have length := advances_skipBytes n ok
    rw [show r.input.length - r'.input.length = n by omega]
    exact .buffer (by simpa using small) (by rw [whole]; omega)
  · have length := advances_skipBytes n ok
    have large : 2 ^ 32 ≤ n := by simpa using large
    have less : n % 2 ^ 32 < n := Nat.lt_of_lt_of_le (Nat.mod_lt n (by omega)) large
    refine ⟨n % 2 ^ 32, by omega, fun scant s whole held => ⟨s, ?_, whole, ?_⟩⟩
    · unfold ensureBuffer
      dsimp only
      rw [if_pos (by omega)]
    · have one := Bool.toNat_le h
      omega

theorem agrees_string {size : ReadM Int32} {readSize : RefillM Int32} (reads : Local size)
    (agrees : Agrees extra size (Careful.read size) readSize) :
    Agrees extra
      (size >>= fun n => if n < 0 then throw negativeSize else ReadM.decode (take n.toInt.toNat))
      (Careful.read
        (size >>= fun n => if n < 0 then throw negativeSize else ReadM.decode (take n.toInt.toNat)))
      (readSize >>= fun n => if n < 0 then throw negativeSize
        else ensureBuffer extra n.toInt.toNat >>= fun _ =>
          protocol (ReadM.decode (take n.toInt.toNat))) := by
  rw [Careful.read_bind reads fun n => .ite (.throw _) (.take _)]
  refine agrees.bind fun n => ?_
  rw [Careful.read_ite, Careful.read_throw]
  refine .ite (.throw _) (.fixed (.take _) (Advances.take _) ?_)
  have bound := n.toInt_lt
  omega

theorem agrees_left : Agrees extra (do
      let r ← get
      pure r.input.length) Careful.left (do
      let s ← get
      pure (s.length + s.rest.length)) where
  careful ok := by
    cases ok
    exact ⟨rfl, Nat.le_of_eq (Nat.add_comm _ _)⟩
  shrinks ok := by
    cases ok
    exact Nat.le_refl _
  follows ok s whole held := by
    cases ok
    rw [Nat.sub_self, Nat.sub_zero, Nat.max_eq_left held]
    refine ⟨s, ?_, whole, Nat.le_refl _, fun _ => rfl⟩
    rw [← whole, Refilling.length_whole]
    rfl
  fails _ failed := by cases failed

/-! ## Calls of the compact reader -/

theorem headD_chunk {byte : UInt8} {bytes : Bytes} (pos : 0 < s.length)
    (input : s.whole.input = byte :: bytes) : s.reader.input.headD 0 = byte := by
  change s.reader.input ++ s.rest = byte :: bytes at input
  unfold Refilling.length at pos
  cases chunk : s.reader.input with
  | nil =>
    rw [chunk] at pos
    cases pos
  | cons b chunk' =>
    rw [chunk, List.cons_append] at input
    exact (List.cons.inj input).1

/-- Three bytes that end no varint. -/
def LongVarint (bytes : Bytes) : Prop :=
  ∃ b₁ b₂ b₃ more, bytes = b₁ :: b₂ :: b₃ :: more ∧ 128 ≤ b₁.toNat ∧ 128 ≤ b₂.toNat ∧ 128 ≤ b₃.toNat

theorem longVarint_iff {bytes : Bytes} {m : Nat} (span : varintSpan bytes = some m) :
    LongVarint bytes ↔ 4 ≤ m := by
  constructor
  · rintro ⟨b₁, b₂, b₃, more, rfl, first, second, third⟩
    simp only [varintSpan, Nat.not_lt_of_le first, Nat.not_lt_of_le second,
      Nat.not_lt_of_le third, if_false] at span
    obtain ⟨m₁, found, last⟩ := Option.map_eq_some_iff.mp span
    obtain ⟨m₂, found, last'⟩ := Option.map_eq_some_iff.mp found
    obtain ⟨m₃, found, last''⟩ := Option.map_eq_some_iff.mp found
    have pos := (varintSpan_pos found).1
    omega
  · intro many
    -- The first bytes do not end the varint, as it is longer.
    have next : ∀ {bytes m}, varintSpan bytes = some (m + 2) →
        ∃ b more, bytes = b :: more ∧ 128 ≤ b.toNat ∧ varintSpan more = some (m + 1) := by
      intro bytes m span
      cases bytes with
      | nil => cases span
      | cons b more =>
        rw [varintSpan] at span
        split at span
        · cases span
        next continues =>
          obtain ⟨n, found, same⟩ := Option.map_eq_some_iff.mp span
          obtain rfl : n = m + 1 := by omega
          exact ⟨b, more, rfl, Nat.le_of_not_lt continues, found⟩
    obtain ⟨n, rfl⟩ := Nat.exists_eq_add_of_le' many
    obtain ⟨b₁, more, rfl, first, span⟩ := next span
    obtain ⟨b₂, more, rfl, second, span⟩ := next span
    obtain ⟨b₃, more, rfl, third, span⟩ := next span
    exact ⟨b₁, b₂, b₃, more, rfl, first, second, third⟩

/-- The fields whose headers a refilling reader does not provide for. -/
theorem longFieldId_iff {r : Reader} {h : Bool} {byte : UInt8} {bytes : Bytes}
    (input : r.input = byte :: bytes) : Careful.longFieldId r h = true ↔
      (byte.toNat % 16 ≠ 0 ∧ byte.toNat / 16 = 0) ∧ LongVarint bytes := by
  unfold Careful.longFieldId LongVarint
  rw [input]
  split
  next same =>
    cases same
    simp [and_assoc]
  next other =>
    simp only [Bool.false_eq_true, false_iff]
    rintro ⟨_, b₁, b₂, b₃, more, rfl, _⟩
    exact other _ _ _ _ _ rfl

namespace CompactProtocolReaderWithRefill

open CompactProtocolReader

theorem agrees_readFieldBegin : Agrees extra readFieldBegin
    (Careful.readUnless Careful.longFieldId readFieldBegin)
    (ensureFieldBegin extra >>= fun _ => protocol readFieldBegin) := by
  refine .reads local_readFieldBegin (fun {r h a r'} ok allowed s whole _ => ?_)
    fun {r h a r'} ok long => ?_
  · obtain ⟨byte, bytes, input, takes⟩ := readFieldBegin_advances ok
    have length : r.input.length = bytes.length + 1 := by rw [input, List.length_cons]
    refine Ensures.reading ?_
    split at takes
    next id =>
      obtain ⟨m, short, span, length'⟩ := takes
      have few : ¬ 4 ≤ m := fun many => Bool.eq_false_iff.mp allowed
        ((longFieldId_iff input).mpr ⟨id, (longVarint_iff span).mpr many⟩)
      split
      next enough => exact Ensures.nothing (by omega)
      next =>
        refine Ensures.bind (by omega)
          (.buffer (by decide) (by rw [whole]; omega) : Ensures extra _ s 1)
          fun t wholeT holds => Ensures.reading ?_
        have least := holds.1
        rw [whole] at wholeT
        rw [headD_chunk (by omega) (wholeT ▸ input), if_neg id.1, if_pos id.2]
        split
        next enough => exact Ensures.nothing (by omega)
        next =>
          rw [show r.input.length - r'.input.length = 1 + m by omega]
          exact ensures_ensureInteger (by omega) (by rw [wholeT, input]; exact span) short
            (by omega)
    next noId =>
      split
      next enough => exact Ensures.nothing (by omega)
      next =>
        refine Ensures.bind (by omega)
          (.buffer (by decide) (by rw [whole]; omega) : Ensures extra _ s 1)
          fun t wholeT holds => Ensures.reading ?_
        have least := holds.1
        rw [whole] at wholeT
        rw [headD_chunk (by omega) (wholeT ▸ input)]
        split
        next enough => exact Ensures.nothing (by omega)
        next =>
          dsimp only
          split
          next => exact Ensures.nothing (by omega)
          next field =>
            rw [if_neg (fun modifier => noId ⟨field, modifier⟩)]
            exact Ensures.nothing (by omega)
  · obtain ⟨byte, bytes, input, takes⟩ := readFieldBegin_advances ok
    have length : r.input.length = bytes.length + 1 := by rw [input, List.length_cons]
    obtain ⟨id, large⟩ := (longFieldId_iff input).mp long
    rw [if_pos id] at takes
    obtain ⟨m, short, span, length'⟩ := takes
    have many := (longVarint_iff span).mp large
    have one := Bool.toNat_le h
    refine ⟨4, by omega, fun scant s whole held => ⟨s, ?_, whole, by omega⟩⟩
    unfold ensureFieldBegin
    rw [Run.get_bind, if_pos (by omega)]
    rfl

theorem agrees_readListBegin : Agrees extra readListBegin (Careful.read readListBegin)
    (ensureListBegin extra >>= fun _ => protocol readListBegin) := by
  refine .read local_readListBegin fun {r a r'} ok s whole => ?_
  obtain ⟨byte, bytes, input, takes⟩ := readListBegin_advances ok
  have length : r.input.length = bytes.length + 1 := by rw [input, List.length_cons]
  refine Ensures.reading ?_
  split at takes
  next full =>
    obtain ⟨m, short, span, length'⟩ := takes
    split
    next enough => exact Ensures.nothing (by omega)
    next =>
      refine Ensures.bind (by omega)
        (.buffer (by decide) (by rw [whole]; omega) : Ensures extra _ s 1)
        fun t wholeT holds => Ensures.reading ?_
      have least := holds.1
      rw [whole] at wholeT
      rw [headD_chunk (by omega) (wholeT ▸ input), if_pos full,
        show r.input.length - r'.input.length = 1 + m by omega]
      exact ensures_ensureInteger (by omega) (by rw [wholeT, input]; exact span) short (by omega)
  next small =>
    split
    next enough => exact Ensures.nothing (by omega)
    next =>
      refine Ensures.bind (by omega)
        (.buffer (by decide) (by rw [whole]; omega) : Ensures extra _ s 1)
        fun t wholeT holds => Ensures.reading ?_
      have least := holds.1
      rw [whole] at wholeT
      rw [headD_chunk (by omega) (wholeT ▸ input), if_neg small]
      exact Ensures.nothing (by omega)

theorem agrees_readSetBegin : Agrees extra readListBegin
    (Careful.readUnless Careful.missingSetHeader readListBegin) (protocol readListBegin) := by
  have agrees : Agrees extra readListBegin
      (Careful.readUnless Careful.missingSetHeader readListBegin)
      ((pure () : RefillM Unit) >>= fun _ => protocol readListBegin) := by
    refine .reads local_readListBegin (fun {r h a r'} ok allowed s whole held => ?_)
      fun {r h a r'} ok missing => ?_
    · obtain ⟨byte, bytes, input, takes⟩ := readListBegin_advances ok
      have length : r.input.length = bytes.length + 1 := by rw [input, List.length_cons]
      simp only [Careful.missingSetHeader, input, List.headD_cons, Bool.or_eq_false_iff,
        Bool.not_eq_false', beq_eq_false_iff_ne] at allowed
      rw [if_neg allowed.2] at takes
      rw [allowed.1, Bool.toNat_true] at held
      exact .nothing (by omega)
    · obtain ⟨byte, bytes, input, takes⟩ := readListBegin_advances ok
      have length : r.input.length = bytes.length + 1 := by rw [input, List.length_cons]
      refine ⟨0, Nat.zero_le _, fun scant s whole held => ⟨s, rfl, whole, ?_⟩⟩
      simp only [Careful.missingSetHeader, input, List.headD_cons, Bool.or_eq_true,
        Bool.not_eq_true', beq_iff_eq] at missing
      split at takes
      next full =>
        obtain ⟨m, _, span, length'⟩ := takes
        have pos := (varintSpan_pos span).1
        have one := Bool.toNat_le h
        omega
      next small =>
        rcases missing with rfl | full
        · simp only [Bool.toNat_false] at held
          omega
        · exact absurd full small
  exact agrees

theorem agrees_readBool : Agrees extra readBool (Careful.read readBool)
    (ensureBool extra >>= fun _ => protocol readBool) := by
  refine .read local_readBool fun {r a r'} ok s whole => Ensures.reading ?_
  have bool : s.reader.boolValue = r.boolValue := by rw [← whole]; rfl
  rw [bool]
  rw [readBool, Run.get_bind] at ok
  cases saved : r.boolValue with
  | some b =>
    simp only [saved] at ok
    cases ok
    exact .nothing (by rw [Nat.sub_self]; exact Nat.zero_le _)
  | none =>
    simp only [saved] at ok
    have length := Advances.readByte.bind_pure _ ok
    rw [if_pos rfl, show r.input.length - r'.input.length = 1 by omega]
    exact .buffer (by decide) (by rw [whole]; omega)

theorem varintSpan_of_holds {m : Nat} (span : varintSpan s.whole.input = some m)
    (held : m ≤ s.length) : varintSpan s.reader.input = some m := by
  have chunk : varintSpan (s.reader.input.drop 0) = if 0 + m ≤ s.length then some m else none :=
    varintSpan_chunk (Nat.zero_le s.length) span
  rwa [if_pos (by omega), List.drop_zero] at chunk

theorem ensures_ensureMapBegin {byte : UInt8} {bytes : Bytes} {m n : Nat}
    (input : s.whole.input = byte :: bytes) (span : varintSpan s.whole.input = some m)
    (short : m ≤ 10) (target : n = m + if byte = 0 then 0 else 1)
    (inside : n ≤ s.whole.input.length) : Ensures extra (ensureMapBegin extra) s n := by
  have small : n ≤ 11 := by
    split at target <;> omega
  have pos := (varintSpan_pos span).1
  refine Ensures.reading ?_
  split
  next enough => exact Ensures.nothing (by omega)
  next =>
    have integer : Ensures extra (ensureInteger extra 0) s (0 + m) :=
      ensures_ensureInteger (Nat.zero_le _) span short (by omega)
    refine Ensures.bind (by split at target <;> omega) integer
      fun t wholeT holds => Ensures.reading ?_
    have least := holds.1
    split
    next enough => exact Ensures.nothing (by omega)
    next =>
      rw [varintSpan_of_holds (wholeT ▸ span) (by omega),
        headD_chunk (by omega) (wholeT ▸ input)]
      dsimp only [Option.getD_some]
      split
      next asks =>
        rw [target, if_neg asks.2, ← asks.1]
        rw [target, if_neg asks.2] at inside
        exact .buffer (by omega) (by rw [wholeT]; exact inside)
      next quiet =>
        refine Ensures.nothing ?_
        split at target
        · omega
        next nonzero =>
          have longer : m ≠ t.length := fun same => quiet ⟨same, nonzero⟩
          omega

theorem readMapBegin_ok {r r' : Reader} {h h' : Bool} {header : TType × TType × Nat}
    (ok : Careful.readMapBegin ⟨r, h⟩ = .ok (header, ⟨r', h'⟩)) :
    readMapBegin r = .ok (header, r') ∧
      ((header.2.2 = 0 ∧ r.input.headD 0 ≠ 0) ∧ r'.input ≠ [] ∧ h' = true ∨
        ¬ (header.2.2 = 0 ∧ r.input.headD 0 ≠ 0) ∧ h' = Careful.passed h r r') := by
  unfold Careful.readMapBegin at ok
  cases read : readMapBegin r with
  | error err =>
    simp only [read] at ok
    cases ok
  | ok pair =>
    obtain ⟨header', r''⟩ := pair
    simp only [read] at ok
    split at ok
    next overlong =>
      split at ok
      · cases ok
      next more =>
        cases ok
        exact ⟨rfl, .inl ⟨overlong, more, rfl⟩⟩
    next exact =>
      cases ok
      exact ⟨rfl, .inr ⟨exact, rfl⟩⟩

theorem cons_of_span {bs : Bytes} {m : Nat} (span : varintSpan bs = some m) :
    ∃ byte bytes, bs = byte :: bytes := by
  cases bs with
  | nil => cases span
  | cons byte bytes => exact ⟨byte, bytes, rfl⟩

theorem agrees_readMapBegin : Agrees extra readMapBegin Careful.readMapBegin
    (ensureMapBegin extra >>= fun _ => protocol readMapBegin) := by
  refine .after local_readMapBegin (fun {r h header r' h'} ok => ?_)
    (fun {r h header r' h'} ok s whole held => ?_) fun {r h header r' err} ok failed => ?_
  · obtain ⟨read, ⟨_, _, rfl⟩ | ⟨_, rfl⟩⟩ := readMapBegin_ok ok
    · have shrinks := local_readMapBegin.length_le read
      have one := Bool.toNat_le h
      rw [Bool.toNat_true]
      exact ⟨read, by omega⟩
    · exact ⟨read, (Careful.toNat_passed (local_readMapBegin.length_le read)).1⟩
  · obtain ⟨read, ahead⟩ := readMapBegin_ok ok
    obtain ⟨m, short, span, length, first⟩ := readMapBegin_advances read
    obtain ⟨byte, bytes, input⟩ := cons_of_span span
    have pos := (varintSpan_pos span).1
    rw [input, List.headD_cons] at first ahead
    have target : r.input.length - r'.input.length + h'.toNat = m + (if byte = 0 then 0 else 1) ∧
        r.input.length - r'.input.length + h'.toNat ≤ r.input.length := by
      rcases ahead with ⟨overlong, more, rfl⟩ | ⟨exact, rfl⟩
      · have some := List.length_pos_iff.mpr more
        rw [if_pos overlong.1] at length
        rw [if_neg overlong.2, Bool.toNat_true]
        omega
      · have below : r'.input.length < r.input.length := by omega
        rw [(Careful.toNat_passed (h := h) (Nat.le_of_lt below)).2.1 below, Bool.toNat_false]
        by_cases empty : header.2.2 = 0
        · rw [if_pos empty] at length
          rw [if_pos (not_not.mp fun nonzero => exact ⟨empty, nonzero⟩)]
          omega
        · rw [if_neg empty] at length
          rw [if_neg (first empty)]
          omega
    rw [← whole] at input span
    exact ensures_ensureMapBegin input span short target.1 (by rw [whole]; exact target.2)
  · obtain ⟨m, short, span, length, first⟩ := readMapBegin_advances ok
    have pos := (varintSpan_pos span).1
    simp only [Careful.readMapBegin, ok] at failed
    split at failed
    next overlong =>
      split at failed
      next last =>
        rw [if_pos overlong.1, last, List.length_nil] at length
        refine ⟨m, by omega, fun scant s whole held => ⟨askedTooMuch, Run.bind_of_error ?_⟩⟩
        have one := Bool.toNat_le h
        rw [← whole] at span length
        obtain ⟨t, integer, wholeT, _, exactly⟩ :=
          (ensures_ensureInteger (Nat.zero_le _) span short (by omega) :
            Ensures extra (ensureInteger extra 0) s (0 + m))
        have lengthT := exactly scant
        have wholeLength := congrArg (fun r : Reader => r.input.length) wholeT
        simp only [Refilling.length_whole] at wholeLength length
        obtain ⟨byte, bytes, input⟩ := cons_of_span span
        have head : t.reader.input.headD 0 ≠ 0 := by
          rw [headD_chunk (by omega) (wholeT ▸ input)]
          rw [← whole, input] at overlong
          exact overlong.2
        unfold ensureMapBegin
        rw [Run.get_bind, if_neg (by omega), Run.bind_of_ok integer, Run.get_bind,
          if_neg (by omega), varintSpan_of_holds (wholeT ▸ span) (by omega)]
        dsimp only [Option.getD_some]
        rw [if_pos ⟨by omega, head⟩]
        unfold ensureBuffer
        dsimp only
        rw [if_neg (by omega), if_neg (by omega)]
      next => cases failed
    next => cases failed

end CompactProtocolReaderWithRefill

/-! ## All calls -/

/-- The three readers agree on every call. -/
structure AgreeCalls (extra : Nat → Nat) (x : ReaderCalls ReadM) (c : ReaderCalls CarefulM)
    (y : ReaderCalls RefillM) : Prop where
  readBool : Agrees extra x.readBool c.readBool y.readBool
  readByte : Agrees extra x.readByte c.readByte y.readByte
  readI16 : Agrees extra x.readI16 c.readI16 y.readI16
  readI32 : Agrees extra x.readI32 c.readI32 y.readI32
  readI64 : Agrees extra x.readI64 c.readI64 y.readI64
  readFloat : Agrees extra x.readFloat c.readFloat y.readFloat
  readDouble : Agrees extra x.readDouble c.readDouble y.readDouble
  readBinary : Agrees extra x.readBinary c.readBinary y.readBinary
  readStructBegin : Agrees extra x.readStructBegin c.readStructBegin y.readStructBegin
  readStructEnd : Agrees extra x.readStructEnd c.readStructEnd y.readStructEnd
  readFieldBegin : Agrees extra x.readFieldBegin c.readFieldBegin y.readFieldBegin
  readMapBegin : Agrees extra x.readMapBegin c.readMapBegin y.readMapBegin
  readMapEnd : Agrees extra x.readMapEnd c.readMapEnd y.readMapEnd
  readListBegin : Agrees extra x.readListBegin c.readListBegin y.readListBegin
  readListEnd : Agrees extra x.readListEnd c.readListEnd y.readListEnd
  readSetBegin : Agrees extra x.readSetBegin c.readSetBegin y.readSetBegin
  readSetEnd : Agrees extra x.readSetEnd c.readSetEnd y.readSetEnd
  skipBytes : ∀ n, Agrees extra (x.skipBytes n) (c.skipBytes n) (y.skipBytes n)
  left : Agrees extra x.left c.left y.left

theorem agrees_ascend : Agrees extra ReadM.ascend (Careful.read ReadM.ascend)
    (protocol ReadM.ascend) :=
  .unmoved .ascend .ascend

section Compact

open CompactProtocolReader

theorem advances_modify {g : Reader → Reader} (same : ∀ r, (g r).input = r.input) :
    Advances (modify g : ReadM PUnit) 0 := by
  intro r a r' ok
  cases ok
  rw [same, Nat.zero_add]

theorem advances_readStructEnd : Advances readStructEnd 0 := by
  have saved : Advances (modify fun r : Reader =>
      { r with lastFieldId := r.lastField.headD 0, lastField := r.lastField.tail } :
        ReadM PUnit) 0 := advances_modify fun _ => rfl
  exact saved.bind (m := 0) fun _ => .ascend

theorem agreeCalls_compact : AgreeCalls extra Protocol.compact.plainCalls
    Protocol.compact.carefulCalls (CompactProtocolReaderWithRefill.calls extra) where
  readBool := CompactProtocolReaderWithRefill.agrees_readBool
  readByte := .fixed local_readByte (Advances.readByte.bind_pure _) (by decide)
  readI16 := .integer local_readI16 spans_readI16
  readI32 := .integer local_readI32 spans_readI32
  readI64 := .integer local_readI64 spans_readI64
  readFloat := .fixed local_readFloat ((Advances.readBE 4).bind_pure _) (by decide)
  readDouble := .fixed local_readDouble ((Advances.readBE 8).bind_pure _) (by decide)
  readBinary := agrees_string local_readVarint32 (.integer local_readVarint32 spans_readVarint32)
  readStructBegin := .unmoved local_readStructBegin
    (Advances.descend.bind (m := 0) fun _ => advances_modify fun _ => rfl)
  readStructEnd := .unmoved local_readStructEnd advances_readStructEnd
  readFieldBegin := CompactProtocolReaderWithRefill.agrees_readFieldBegin
  readMapBegin := CompactProtocolReaderWithRefill.agrees_readMapBegin
  readMapEnd := agrees_ascend
  readListBegin := CompactProtocolReaderWithRefill.agrees_readListBegin
  readListEnd := agrees_ascend
  readSetBegin := CompactProtocolReaderWithRefill.agrees_readSetBegin
  readSetEnd := agrees_ascend
  skipBytes := agrees_skipBytes
  left := agrees_left

end Compact

section Binary

open BinaryProtocolReader

theorem agrees_binaryReadByte : Agrees extra BinaryProtocolReader.readByte
    (Careful.read BinaryProtocolReader.readByte)
    (BinaryProtocolReaderWithRefill.readByte extra) :=
  .fixed BinaryProtocolReader.local_readByte (Advances.readByte.bind_pure _) (by decide)

theorem agrees_binaryReadI16 : Agrees extra readI16 (Careful.read readI16)
    (BinaryProtocolReaderWithRefill.readI16 extra) :=
  .fixed local_readI16 ((Advances.readBE 2).bind_pure _) (by decide)

theorem agrees_binaryReadI32 : Agrees extra readI32 (Careful.read readI32)
    (BinaryProtocolReaderWithRefill.readI32 extra) :=
  .fixed local_readI32 advances_readI32 (by decide)

theorem readFieldBegin_eq : readFieldBegin = BinaryProtocolReader.readByte >>= fun type =>
    if TType.ofByte type.toUInt8 = .stop then pure (.stop, 0)
    else readI16 >>= fun id => pure (TType.ofByte type.toUInt8, id) := by
  unfold readFieldBegin BinaryProtocolReader.readByte
  simp only [bind_assoc, pure_bind, UInt8.toUInt8_toInt8]

theorem agrees_binaryReadFieldBegin : Agrees extra readFieldBegin (Careful.read readFieldBegin)
    (BinaryProtocolReaderWithRefill.readFieldBegin extra) := by
  have later : ∀ type, Local (readI16 >>= fun id => pure (TType.ofByte type, id)) :=
    fun type => local_readI16.bind fun _ => .pure _
  rw [readFieldBegin_eq, Careful.read_bind BinaryProtocolReader.local_readByte
    fun type => .ite (.pure _) (later _)]
  refine agrees_binaryReadByte.bind fun type => ?_
  rw [Careful.read_ite, Careful.read_pure, Careful.read_bind local_readI16 fun _ => .pure _]
  refine .ite (.pure _) (agrees_binaryReadI16.bind fun id => ?_)
  rw [Careful.read_pure]
  exact .pure _

theorem agreeCalls_binary : AgreeCalls extra Protocol.binary.plainCalls
    Protocol.binary.carefulCalls (BinaryProtocolReaderWithRefill.calls extra) where
  readBool := by
    refine .fixed local_readBool (k := 1) ?_ (by decide)
    refine Advances.readByte.bind (m := 0) fun b => ?_
    split
    · intro r a r' ok
      cases ok
    · exact .pure _
  readByte := agrees_binaryReadByte
  readI16 := agrees_binaryReadI16
  readI32 := agrees_binaryReadI32
  readI64 := .fixed local_readI64 ((Advances.readBE 8).bind_pure _) (by decide)
  readFloat := .fixed local_readFloat ((Advances.readBE 4).bind_pure _) (by decide)
  readDouble := .fixed local_readDouble ((Advances.readBE 8).bind_pure _) (by decide)
  readBinary := agrees_string local_readI32 agrees_binaryReadI32
  readStructBegin := .unmoved .descend .descend
  readStructEnd := agrees_ascend
  readFieldBegin := agrees_binaryReadFieldBegin
  readMapBegin := .fixed local_readMapBegin advances_readMapBegin (by decide)
  readMapEnd := agrees_ascend
  readListBegin := .fixed local_readListBegin advances_readListBegin (by decide)
  readListEnd := agrees_ascend
  readSetBegin := .fixed local_readListBegin advances_readListBegin (by decide)
  readSetEnd := agrees_ascend
  skipBytes := agrees_skipBytes
  left := agrees_left

end Binary

theorem agreeCalls (p : Protocol) :
    AgreeCalls extra p.plainCalls p.carefulCalls (p.refillCalls extra) := by
  cases p with
  | binary => exact agreeCalls_binary
  | compact => exact agreeCalls_compact

end FbThrift
