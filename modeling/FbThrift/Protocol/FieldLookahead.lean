import FbThrift.Protocol.Rules

/-!
# Field lookahead in Compact

A deserializer expects the fields of a struct in the order of their declarations.
`advanceToNextField` compares the bytes in front of the cursor with the header of the expected
field, and decodes them only when they differ.  What it leaves is what `readFieldBegin` leaves,
and it reports a match when the bytes are the header that the writer writes for the field.
-/

namespace FbThrift

open Decoder

namespace CompactProtocolReader

/-! ## The lookahead -/

/-- The field that a deserializer is at. -/
structure StructReadState where
  fieldId : Int16
  fieldType : TType
  deriving DecidableEq, Repr

/-- A byte in front of the cursor, which stays where it is. -/
def byteAt (r : Reader) (i : Nat) : UInt8 := r.input.getD i 0

def skipNoAdvance (n : Nat) : ReadM Unit := modify fun r => r.withInput (r.input.drop n)

/-- The id of a field: a delta against the one before, or a varint of its own. -/
def readFieldIdWithState (prevFieldId : Int16) (modifier : Nat) : ReadM Int16 :=
  if modifier ≠ 0 then pure (prevFieldId + Int16.ofNat modifier) else readI16

/-- Only a byte that is zero as a whole ends the struct at once. -/
def readFieldBeginWithStateImpl (state : StructReadState) (prevFieldId : Int16)
    (firstByte : UInt8) : ReadM StructReadState :=
  if firstByte = 0 then pure { state with fieldType := .stop }
  else do
    let fieldId ← readFieldIdWithState prevFieldId (firstByte.toNat / 16)
    let fieldType ← getType (firstByte.toNat % 16)
    saveBool (firstByte.toNat % 16)
    pure ⟨fieldId, fieldType⟩

def readFieldBeginWithState (state : StructReadState) : ReadM StructReadState := do
  let byte ← ReadM.decode Decoder.readByte
  readFieldBeginWithStateImpl state state.fieldId byte

def readFieldBeginWithStateMediumSlow (state : StructReadState) (prevFieldId : Int16) :
    ReadM StructReadState := do
  let r ← get
  skipNoAdvance 1
  readFieldBeginWithStateImpl state prevFieldId (byteAt r 0)

/-- A boolean of either value matches, and its value is saved. -/
def matchTypeHeader (byte : UInt8) (type : TType) (diff : UInt8) : ReadM Bool :=
  if type = .bool then
    if byte = diff <<< 4 ||| Compact.boolCType true ∨
        byte = diff <<< 4 ||| Compact.boolCType false then do
      modify fun r => { r with boolValue := some (byte.toNat % 2 = 1) }
      pure true
    else pure false
  else pure (byte = diff <<< 4 ||| Compact.ttypeToCType type)

/-- The bytes of a header with the id of the expected field behind the type, if the next of the
`length` bytes that the buffer has left are those. -/
def matchFieldId (length : Nat) (nextFieldId : Int16) (r : Reader) : Option Nat :=
  let zigzag := (signedIntToZigzag nextFieldId.toInt32.toBitVec).toNat
  -- One byte holds 7 bits of the varint and two hold 14.
  if -64 ≤ nextFieldId.toInt ∧ nextFieldId.toInt ≤ 63 then
    if 1 < length ∧ byteAt r 1 = UInt8.ofNat zigzag then some 2 else none
  else if -8192 ≤ nextFieldId.toInt ∧ nextFieldId.toInt ≤ 8191 then
    if 2 < length ∧ (byteAt r 1).toNat = zigzag &&& 0x7f ||| 0x80 ∧
        (byteAt r 2).toNat = (zigzag &&& 0x3f80) >>> 7 then some 3
    else none
  else
    if 3 < length ∧ (byteAt r 1).toNat = zigzag &&& 0x7f ||| 0x80 ∧
        (byteAt r 2).toNat = (zigzag &&& 0x3f80) >>> 7 ||| 0x80 ∧
        (byteAt r 3).toNat = (zigzag &&& 0x1fc000) >>> 14 then some 4
    else none

/-- The comparisons of `advanceToNextField`. -/
def matchNextField (length : Nat) (currFieldId nextFieldId : Int16) (nextFieldType : TType) :
    ReadM Bool := do
  let r ← get
  if nextFieldType = .stop then
    if byteAt r 0 = TType.stop.toByte then do
      skipNoAdvance 1
      pure true
    else pure false
  else if currFieldId.toInt < nextFieldId.toInt ∧ nextFieldId.toInt - currFieldId.toInt ≤ 15 then do
    let matched ← matchTypeHeader (byteAt r 0) nextFieldType
      (UInt8.ofNat (nextFieldId.toInt - currFieldId.toInt).toNat)
    if matched then do
      skipNoAdvance 1
      pure true
    else pure false
  else do
    let matched ← matchTypeHeader (byteAt r 0) nextFieldType 0
    if matched then
      match matchFieldId length nextFieldId r with
      | some n => do
        skipNoAdvance n
        pure true
      | none => pure false
    else pure false

/-- `length` is that of what is left of the buffer that the cursor is in; what has not been read
may go on in other buffers. -/
def advanceToNextField (length : Nat) (currFieldId nextFieldId : Int16) (nextFieldType : TType)
    (state : StructReadState) : ReadM (Bool × StructReadState) :=
  if length = 0 then do
    let read ← readFieldBeginWithState { state with fieldId := currFieldId }
    pure (false, read)
  else do
    let matched ← matchNextField length currFieldId nextFieldId nextFieldType
    if matched then pure (true, state)
    else do
      let read ← readFieldBeginWithStateMediumSlow state currFieldId
      pure (false, read)

/-! ## The general reader -/

/-- What `readFieldBegin` returns and leaves: it returns id 0 at the end of a struct, and keeps
the id of a field in the reader. -/
def generally (currFieldId : Int16) (state : StructReadState) (r : Reader) :
    (TType × Int16) × Reader :=
  if state.fieldType = .stop then ((.stop, 0), { r with lastFieldId := currFieldId })
  else ((state.fieldType, state.fieldId), { r with lastFieldId := state.fieldId })

variable {r : Reader} {curr next : Int16} {type : TType} {length : Nat} {rest : Bytes}
  {byte c : UInt8}

theorem readFieldId_eq (modifier : Nat) (last : r.lastFieldId = curr) :
    readFieldId modifier r = readFieldIdWithState curr modifier r := by
  rw [readFieldId, readFieldIdWithState]
  by_cases zero : modifier = 0
  · rw [if_pos zero, if_neg (not_not.mpr zero)]
  · rw [if_neg zero, if_pos zero, Run.get_bind, last]

/-- Only the code of the end of a struct has that type. -/
theorem cTypeToTType_ne_stop {n : Nat} (nonzero : n ≠ 0) (below : n < 16) :
    Compact.cTypeToTType n ≠ some .stop := by
  have all : ∀ n < 16, n ≠ 0 → Compact.cTypeToTType n ≠ some .stop := by decide
  exact all n below nonzero

theorem decode_readByte (input : r.input = byte :: rest) :
    ReadM.decode Decoder.readByte r = .ok (byte, r.withInput rest) :=
  ReadM.decode_of_decodes (decodes_readByte byte) input

/-- Both readers decode the same header. -/
theorem readFieldBegin_eq_impl (state : StructReadState) (input : r.input = byte :: rest)
    (last : r.lastFieldId = curr) :
    readFieldBegin r = (readFieldBeginWithStateImpl state curr byte (r.withInput rest)).map
      fun p => generally curr p.1 p.2 := by
  have first := decode_readByte input
  have bound := byte.toNat_lt
  rw [readFieldBegin, Run.bind_of_ok first, readFieldBeginWithStateImpl]
  by_cases stop : byte.toNat % 16 = 0
  · rw [if_pos stop, ← last]
    by_cases zero : byte = 0
    · rw [if_pos zero]
      rfl
    · have modifier : byte.toNat / 16 ≠ 0 := by
        have nonzero : byte.toNat ≠ 0 := fun same => zero (UInt8.toNat_inj.mp same)
        omega
      rw [if_neg zero, stop, readFieldIdWithState, if_pos modifier]
      rfl
  · have nonzero : byte ≠ 0 := by
      rintro rfl
      exact stop rfl
    rw [if_neg stop, if_neg nonzero]
    have same := readFieldId_eq (r := r.withInput rest) (byte.toNat / 16) last
    cases read : readFieldIdWithState curr (byte.toNat / 16) (r.withInput rest) with
    | error err =>
      rw [Run.bind_of_error (same.trans read), Run.bind_of_error read]
      rfl
    | ok p =>
      rw [Run.bind_of_ok (same.trans read), Run.bind_of_ok read, getType]
      cases known : Compact.cTypeToTType (byte.toNat % 16) with
      | none => rfl
      | some fieldType =>
        have notStop : fieldType ≠ .stop := fun same =>
          cTypeToTType_ne_stop stop (Nat.mod_lt _ (by omega)) (known.trans (same ▸ rfl))
        simp only [Run.pure_bind_run]
        rw [saveBool]
        split
        · simp only [Run.modify_bind, Run.pure_run, Except.map, generally, if_neg notStop]
        · simp only [Run.pure_bind_run, Run.modify_bind, Run.pure_run, Except.map, generally,
            if_neg notStop]

theorem readFieldIdWithState_local (prev : Int16) (modifier : Nat) (r : Reader) :
    ∃ x : Except String (Int16 × Bytes), ∀ pending,
      readFieldIdWithState prev modifier { r with boolValue := pending } =
        x.map fun p => (p.1, Reader.withInput { r with boolValue := pending } p.2) := by
  unfold readFieldIdWithState
  split
  · exact ⟨.ok (prev + Int16.ofNat modifier, r.input), fun _ => rfl⟩
  · refine ⟨(readVarint 32 >>= fun n => pure (Int32.ofBitVec
      (zigzagToSignedInt (UInt32.ofNat n).toInt32.toBitVec)).toInt16) r.input, fun pending => ?_⟩
    rw [readI16_eq_decode, ReadM.decode]
    cases (readVarint 32 >>= _) r.input <;> rfl

/-- A boolean that is pending does not matter when the header is that of a boolean. -/
theorem readFieldBeginWithStateImpl_pending (state : StructReadState) (b : Bool)
    (bool : byte.toNat % 16 = 1 ∨ byte.toNat % 16 = 2) :
    readFieldBeginWithStateImpl state curr byte { r with boolValue := some b } =
      readFieldBeginWithStateImpl state curr byte r := by
  have nonzero : byte ≠ 0 := by
    rintro rfl
    revert bool
    decide
  have known : getType (byte.toNat % 16) = pure .bool := by
    rcases bool with bool | bool <;> rw [bool] <;> rfl
  obtain ⟨x, decoded⟩ := readFieldIdWithState_local curr (byte.toNat / 16) r
  rw [readFieldBeginWithStateImpl, if_neg nonzero, known, saveBool, if_pos bool]
  cases x with
  | error err => rw [Run.bind_of_error (decoded (some b)), Run.bind_of_error (decoded r.boolValue)]
  | ok p =>
    rw [Run.bind_of_ok (decoded (some b)), Run.bind_of_ok (decoded r.boolValue)]
    rfl

/-! ## The headers that the writer writes -/

/-- The codes of a type in the header of a field. -/
def codes (type : TType) : List UInt8 :=
  if type = .bool then [Compact.boolCType true, Compact.boolCType false]
  else [Compact.ttypeToCType type]

/-- The headers that the writer writes for a field behind the field with an id. -/
def expectedHeaders (currFieldId nextFieldId : Int16) (type : TType) : List Bytes :=
  if type = .stop then [[TType.stop.toByte]]
  else (codes type).map fun c => Compact.fieldHeader c nextFieldId currFieldId

/-- What the header says of the value of a field. -/
def pendingOf (type : TType) (c : UInt8) (pending : Option Bool) : Option Bool :=
  if type = .bool then some (c = Compact.boolCType true) else pending

theorem codes_bounds (known : type.IsValue) (member : c ∈ codes type) :
    0 < c.toNat ∧ c.toNat < 16 ∧ Compact.cTypeToTType c.toNat = some type := by
  by_cases bool : type = .bool
  · rw [codes, if_pos bool] at member
    have code : c = 1 ∨ c = 2 := by simpa [Compact.boolCType] using member
    subst bool
    rcases code with rfl | rfl
    · exact ⟨by decide, by decide, rfl⟩
    · exact ⟨by decide, by decide, rfl⟩
  · rw [codes, if_neg bool, List.mem_singleton] at member
    subst member
    obtain ⟨typed, pos, below⟩ := Compact.cTypeToTType_ttypeToCType known
    exact ⟨pos, below, typed⟩

theorem readFieldBegin_of_header (known : type.IsValue) (member : c ∈ codes type)
    (input : r.input = Compact.fieldHeader c next curr ++ rest) (last : r.lastFieldId = curr) :
    readFieldBegin r = .ok (generally curr ⟨next, type⟩
      { r.withInput rest with boolValue := pendingOf type c r.boolValue }) := by
  obtain ⟨pos, below, typed⟩ := codes_bounds known member
  rw [readFieldBegin_fieldHeader pos below input last, getType, typed, generally]
  have notStop : type ≠ .stop := by
    rintro rfl
    simp [TType.IsValue] at known
  rw [if_neg notStop, saveBool, pendingOf]
  by_cases bool : type = .bool
  · rw [codes, if_pos bool] at member
    rw [if_pos bool]
    have code : c = 1 ∨ c = 2 := by simpa [Compact.boolCType] using member
    rcases code with rfl | rfl <;> rfl
  · rw [codes, if_neg bool, List.mem_singleton] at member
    subst member
    rw [if_neg bool, if_neg (Compact.ttypeToCType_ne_bool known bool)]
    rfl

/-- Whether bytes start a window of a buffer, one byte after the other. -/
theorem cons_prefix_window {a : UInt8} {bs l : Bytes} {k n : Nat} (held : n ≤ l.length) :
    a :: bs <+: (l.drop k).take (n - k) ↔
      k < n ∧ l.getD k 0 = a ∧ bs <+: (l.drop (k + 1)).take (n - (k + 1)) := by
  by_cases less : k < n
  · have inside : k < l.length := Nat.lt_of_lt_of_le less held
    rw [List.drop_eq_getElem_cons inside, show n - k = n - (k + 1) + 1 by omega,
      List.take_succ_cons, List.cons_prefix_cons, List.getD_eq_getElem l 0 inside, eq_comm]
    simp [less]
  · simp [less, Nat.sub_eq_zero_of_le (Nat.le_of_not_lt less)]

theorem nil_prefix_window (l : Bytes) : [] <+: l ↔ True :=
  iff_of_true List.nil_prefix trivial

/-! ## What the lookahead matches -/

theorem toNat_zigzag (id : Int16) : (signedIntToZigzag id.toInt32.toBitVec).toNat =
      if 0 ≤ id.toInt then (2 * id.toInt).toNat else (-2 * id.toInt - 1).toNat := by
  rw [toNat_signedIntToZigzag (by omega)]
  have same : id.toInt32.toBitVec.toInt = id.toInt := Int16.toInt_toInt32 id
  rw [same]

theorem and_low (n : Nat) : n &&& 0x7f = n % 128 := Nat.and_two_pow_sub_one_eq_mod n 7

theorem and_middle (n : Nat) : (n &&& 0x3f80) >>> 7 = n / 128 % 128 := by
  rw [Nat.shiftRight_and_distrib, Nat.shiftRight_eq_div_pow]
  exact and_low _

theorem and_high (n : Nat) : (n &&& 0x1fc000) >>> 14 = n / 16384 % 128 := by
  rw [Nat.shiftRight_and_distrib, Nat.shiftRight_eq_div_pow]
  exact and_low _

theorem or_continue {n : Nat} (below : n < 128) : n ||| 0x80 = n + 128 := by
  have all : ∀ n < 128, n ||| 0x80 = n + 128 := by decide
  exact all n below

theorem writeVarint_one {n : Nat} (small : n < 128) : writeVarint n = [UInt8.ofNat n] := by
  rw [writeVarint, if_pos small]

theorem writeVarint_more {n : Nat} (large : ¬n < 128) :
    writeVarint n = UInt8.ofNat (n % 128 + 128) :: writeVarint (n / 128) := by
  rw [writeVarint, if_neg large]

theorem eq_ofNat_iff {b : UInt8} {n : Nat} (below : n < 256) : b = UInt8.ofNat n ↔ b.toNat = n := by
  rw [← UInt8.toNat_inj, UInt8.toNat_ofNat', Nat.mod_eq_of_lt below]

theorem matchFieldId_eq (held : length ≤ r.input.length) : matchFieldId length next r =
      if writeVarint (signedIntToZigzag next.toInt32.toBitVec).toNat <+:
          (r.input.drop 1).take (length - 1) then
        some (1 + (writeVarint (signedIntToZigzag next.toInt32.toBitVec).toNat).length)
      else none := by
  have value := toNat_zigzag next
  have lower := next.minValue_le_toInt
  have upper := next.toInt_le
  simp only [Int16.toInt_minValue, Int16.toInt_maxValue] at lower upper
  unfold matchFieldId
  generalize (signedIntToZigzag next.toInt32.toBitVec).toNat = zigzag at value ⊢
  dsimp only
  split
  next near =>
    have small : zigzag < 128 := by split at value <;> omega
    rw [writeVarint_one small]
    refine if_congr ?_ rfl rfl
    rw [cons_prefix_window held, nil_prefix_window, and_true]
    rfl
  next notNear =>
    have large : ¬zigzag < 128 := by split at value <;> omega
    have low : zigzag &&& 0x7f ||| 0x80 = zigzag % 128 + 128 := by
      rw [and_low, or_continue (Nat.mod_lt _ (by omega))]
    rw [writeVarint_more large, low, and_middle, and_high]
    split
    next middle =>
      have small : zigzag / 128 < 128 := by split at value <;> omega
      rw [writeVarint_one small, Nat.mod_eq_of_lt small]
      refine if_congr ?_ rfl rfl
      rw [cons_prefix_window held, cons_prefix_window held, nil_prefix_window, and_true,
        eq_ofNat_iff (by omega), eq_ofNat_iff (by omega)]
      change _ ↔ 1 < length ∧ (byteAt r 1).toNat = _ ∧ 2 < length ∧ (byteAt r 2).toNat = _
      omega
    next far =>
      have large : ¬zigzag / 128 < 128 := by split at value <;> omega
      have small : zigzag / 128 / 128 < 128 := by split at value <;> omega
      have continued : zigzag / 128 % 128 ||| 0x80 = zigzag / 128 % 128 + 128 :=
        or_continue (Nat.mod_lt _ (by omega))
      have last : zigzag / 16384 % 128 = zigzag / 128 / 128 := by omega
      rw [writeVarint_more large, writeVarint_one small, continued, last]
      refine if_congr ?_ rfl rfl
      rw [cons_prefix_window held, cons_prefix_window held, cons_prefix_window held,
        nil_prefix_window, and_true, eq_ofNat_iff (by omega), eq_ofNat_iff (by omega),
        eq_ofNat_iff (by omega)]
      change _ ↔ 1 < length ∧ (byteAt r 1).toNat = _ ∧ 2 < length ∧ (byteAt r 2).toNat = _ ∧
        3 < length ∧ (byteAt r 3).toNat = _
      omega

theorem matchTypeHeader_of_code {diff : UInt8} (near : diff.toNat < 16) (member : c ∈ codes type)
    (same : byte = diff <<< 4 ||| c) :
    matchTypeHeader byte type diff r =
      .ok (true, { r with boolValue := pendingOf type c r.boolValue }) := by
  rw [matchTypeHeader, pendingOf]
  by_cases bool : type = .bool
  · rw [codes, if_pos bool] at member
    rw [if_pos bool, if_pos bool]
    have code : c = Compact.boolCType true ∨ c = Compact.boolCType false := by
      simpa using member
    have value := toNat_halves near (b := c) (by rcases code with rfl | rfl <;> decide)
    rw [if_pos (by rcases code with rfl | rfl <;> simp [same]), same, value]
    have odd : (diff.toNat * 16 + c.toNat) % 2 = 1 ↔ c = Compact.boolCType true := by
      rcases code with rfl | rfl
      · exact iff_of_true (by simp [Compact.boolCType]; omega) rfl
      · exact iff_of_false (by simp [Compact.boolCType]; omega) (by decide)
    simp only [odd]
    rfl
  · rw [codes, if_neg bool, List.mem_singleton] at member
    subst member
    rw [if_neg bool, if_neg bool, same, decide_eq_true rfl]
    rfl

theorem matchTypeHeader_of_none {diff : UInt8} (none : ∀ c ∈ codes type, byte ≠ diff <<< 4 ||| c) :
    matchTypeHeader byte type diff r = .ok (false, r) := by
  rw [matchTypeHeader]
  by_cases bool : type = .bool
  · rw [codes, if_pos bool] at none
    rw [if_pos bool, if_neg]
    · rfl
    · rintro (same | same)
      · exact none _ (by simp) same
      · exact none _ (by simp) same
  · rw [codes, if_neg bool] at none
    rw [if_neg bool, decide_eq_false (none _ (List.mem_singleton_self _))]
    rfl

/-- The reader behind a header that was matched. -/
def behind (r : Reader) (type : TType) (c : UInt8) (header : Bytes) : Reader :=
  { r.withInput (r.input.drop header.length) with boolValue := pendingOf type c r.boolValue }

theorem starts_delta (held : length ≤ r.input.length) (some : 0 < length)
    (delta : curr.toInt < next.toInt ∧ next.toInt - curr.toInt ≤ 15) :
    Compact.fieldHeader c next curr <+: r.input.take length ↔
      byteAt r 0 = UInt8.ofNat (next.toInt - curr.toInt).toNat <<< 4 ||| c := by
  rw [Compact.fieldHeader, if_pos delta]
  refine (cons_prefix_window (k := 0) held).trans ?_
  rw [nil_prefix_window, and_true]
  exact and_iff_right some

/-- The header with the id behind the type. -/
theorem starts_far (held : length ≤ r.input.length) (some : 0 < length)
    (far : ¬(curr.toInt < next.toInt ∧ next.toInt - curr.toInt ≤ 15)) :
    Compact.fieldHeader c next curr <+: r.input.take length ↔ byteAt r 0 = (0 : UInt8) <<< 4 ||| c ∧
        writeVarint (signedIntToZigzag next.toInt32.toBitVec).toNat <+:
          (r.input.drop 1).take (length - 1) := by
  rw [Compact.fieldHeader, if_neg far]
  refine (cons_prefix_window (k := 0) held).trans ?_
  have code : (0 : UInt8) <<< 4 ||| c = c := by simp
  rw [code]
  exact and_iff_right some

theorem matchNextField_of_header (known : type.IsValue) (held : length ≤ r.input.length)
    (some : 0 < length) (member : c ∈ codes type)
    (same : Compact.fieldHeader c next curr <+: r.input.take length) :
    matchNextField length curr next type r =
      .ok (true, behind r type c (Compact.fieldHeader c next curr)) := by
  have notStop : type ≠ .stop := by
    rintro rfl
    simp [TType.IsValue] at known
  rw [matchNextField, Run.get_bind, if_neg notStop, behind]
  split
  next delta =>
    rw [starts_delta held some delta] at same
    have near : (UInt8.ofNat (next.toInt - curr.toInt).toNat).toNat < 16 := by
      rw [UInt8.toNat_ofNat']
      omega
    rw [Run.bind_of_ok (matchTypeHeader_of_code near member same), Compact.fieldHeader,
      if_pos delta]
    rfl
  next far =>
    have near : (0 : UInt8).toNat < 16 := by decide
    rw [starts_far held some far] at same
    rw [Run.bind_of_ok (matchTypeHeader_of_code near member same.1), if_pos rfl,
      matchFieldId_eq held, if_pos same.2, Compact.fieldHeader, if_neg far, List.length_cons,
      Nat.add_comm 1]
    rfl

theorem matchNextField_of_none (known : type.IsValue) (held : length ≤ r.input.length)
    (some : 0 < length)
    (none : ∀ c ∈ codes type, ¬Compact.fieldHeader c next curr <+: r.input.take length) :
    ∃ r', matchNextField length curr next type r = .ok (false, r') ∧
      (r' = r ∨ ∃ b, r' = { r with boolValue := Option.some b } ∧
        ((byteAt r 0).toNat % 16 = 1 ∨ (byteAt r 0).toNat % 16 = 2)) := by
  have notStop : type ≠ .stop := by
    rintro rfl
    simp [TType.IsValue] at known
  rw [matchNextField, Run.get_bind, if_neg notStop]
  split
  next delta =>
    have apart : ∀ c ∈ codes type,
        byteAt r 0 ≠ UInt8.ofNat (next.toInt - curr.toInt).toNat <<< 4 ||| c := fun c member same =>
      none c member ((starts_delta held some delta).mpr same)
    exact ⟨r, Run.bind_of_ok (matchTypeHeader_of_none apart), .inl rfl⟩
  next far =>
    have near : (0 : UInt8).toNat < 16 := by decide
    by_cases typed : ∃ c ∈ codes type, byteAt r 0 = (0 : UInt8) <<< 4 ||| c
    · obtain ⟨c, member, same⟩ := typed
      have other : ¬writeVarint (signedIntToZigzag next.toInt32.toBitVec).toNat <+:
          (r.input.drop 1).take (length - 1) := fun id =>
        none c member ((starts_far held some far).mpr ⟨same, id⟩)
      rw [Run.bind_of_ok (matchTypeHeader_of_code near member same), if_pos rfl,
        matchFieldId_eq held, if_neg other]
      refine ⟨_, rfl, ?_⟩
      rw [pendingOf]
      by_cases bool : type = .bool
      · rw [codes, if_pos bool] at member
        rw [if_pos bool]
        refine .inr ⟨_, rfl, ?_⟩
        have code : c = Compact.boolCType true ∨ c = Compact.boolCType false := by
          simpa using member
        rw [same]
        rcases code with rfl | rfl
        · exact .inl rfl
        · exact .inr rfl
      · rw [if_neg bool]
        exact .inl rfl
    · have apart : ∀ c ∈ codes type, byteAt r 0 ≠ (0 : UInt8) <<< 4 ||| c := fun c member same =>
        typed ⟨c, member, same⟩
      exact ⟨r, Run.bind_of_ok (matchTypeHeader_of_none apart), .inl rfl⟩

theorem matchNextField_stop : matchNextField length curr next .stop r =
      if byteAt r 0 = TType.stop.toByte then .ok (true, r.withInput (r.input.drop 1))
      else .ok (false, r) := by
  rw [matchNextField, Run.get_bind, if_pos rfl]
  split <;> rfl

theorem starts_stop (held : length ≤ r.input.length) (some : 0 < length) :
    [TType.stop.toByte] <+: r.input.take length ↔ byteAt r 0 = TType.stop.toByte := by
  refine (cons_prefix_window (k := 0) held).trans ?_
  rw [nil_prefix_window, and_true]
  exact and_iff_right some

/-! ## Both readers agree -/

/-- What a lookahead leaves, as the general reader would: the field that was expected, or the
one that was decoded. -/
def leaves (curr next : Int16) (type : TType) (p : (Bool × StructReadState) × Reader) :
    (TType × Int16) × Reader :=
  generally curr (if p.1.1 then ⟨next, type⟩ else p.1.2) p.2

theorem advanceToNextField_of_header (known : type = .stop ∨ type.IsValue)
    (held : length ≤ r.input.length) (last : r.lastFieldId = curr) (state : StructReadState)
    {header : Bytes} (member : header ∈ expectedHeaders curr next type)
    (same : header <+: r.input.take length) :
    ∃ r', advanceToNextField length curr next type state r = .ok ((true, state), r') ∧
      readFieldBegin r = .ok (generally curr ⟨next, type⟩ r') ∧ r'.lastFieldId = curr := by
  have nonempty : header ≠ [] := by
    rw [expectedHeaders] at member
    split at member
    · rw [List.mem_singleton.mp member]
      exact List.cons_ne_nil _ _
    · obtain ⟨c, -, rfl⟩ := List.mem_map.mp member
      exact Compact.fieldHeader_ne_nil c next curr
  have some : 0 < length := by
    refine Nat.pos_of_ne_zero fun zero => ?_
    rw [zero, List.take_zero, List.prefix_nil] at same
    exact nonempty same
  have input : r.input = header ++ r.input.drop header.length :=
    List.prefix_iff_eq_append.mp (same.trans (List.take_prefix _ _)) |>.symm
  rw [advanceToNextField, if_neg (Nat.pos_iff_ne_zero.mp some)]
  rcases known with rfl | known
  · obtain rfl : header = [TType.stop.toByte] := List.mem_singleton.mp member
    have matched : matchNextField length curr next .stop r = _ := matchNextField_stop
    rw [if_pos ((starts_stop held some).mp same)] at matched
    refine ⟨_, Run.bind_of_ok matched, ?_, last⟩
    rw [readFieldBegin, Run.bind_of_ok (ReadM.decode_of_decodes (decodes_readByte _) input)]
    subst last
    rfl
  · have notStop : type ≠ .stop := by
      rintro rfl
      simp [TType.IsValue] at known
    rw [expectedHeaders, if_neg notStop] at member
    obtain ⟨c, code, rfl⟩ := List.mem_map.mp member
    have matched := matchNextField_of_header known held some code same
    exact ⟨_, Run.bind_of_ok matched, readFieldBegin_of_header known code input last, last⟩

theorem bind_missed (x : ReadM StructReadState) (r : Reader) :
    (x >>= fun read => (pure (false, read) : ReadM (Bool × StructReadState))) r =
      (x r).map fun p => ((false, p.1), p.2) := by
  cases read : x r with
  | error err => exact Run.bind_of_error read
  | ok p => exact Run.bind_of_ok read

theorem lastFieldId_impl {state read : StructReadState} {r' : Reader}
    (ok : readFieldBeginWithStateImpl state curr byte r = .ok (read, r')) :
    r'.lastFieldId = r.lastFieldId := by
  rw [readFieldBeginWithStateImpl] at ok
  split at ok
  · cases ok
    rfl
  · obtain ⟨x, decoded⟩ := readFieldIdWithState_local curr (byte.toNat / 16) r
    obtain ⟨id, s, read, ok⟩ := Run.bind_ok ok
    have same : s.lastFieldId = r.lastFieldId := by
      rw [decoded r.boolValue] at read
      obtain ⟨q, -, whole⟩ := Except.map_eq_ok read
      cases whole
      rfl
    obtain ⟨fieldType, t, typed, ok⟩ := Run.bind_ok ok
    rw [getType] at typed
    cases code : Compact.cTypeToTType (byte.toNat % 16) with
    | none =>
      rw [code] at typed
      cases typed
    | some fieldType =>
      rw [code] at typed
      cases typed
      rw [saveBool] at ok
      split at ok <;> cases ok <;> exact same

/-- The comparisons of a lookahead that fails leave the rest to the decoding of the header. -/
theorem matchNextField_other (known : type = .stop ∨ type.IsValue)
    (held : length ≤ r.input.length) (some : 0 < length) (input : r.input = byte :: rest)
    (state : StructReadState)
    (other : ∀ header ∈ expectedHeaders curr next type, ¬header <+: r.input.take length) :
    ∃ r', matchNextField length curr next type r = .ok (false, r') ∧
      readFieldBeginWithStateMediumSlow state curr r' =
        readFieldBeginWithStateImpl state curr byte (r.withInput rest) := by
  have first : byteAt r 0 = byte := by
    rw [byteAt, input]
    rfl
  have here : readFieldBeginWithStateMediumSlow state curr r =
      readFieldBeginWithStateImpl state curr byte (r.withInput rest) := by
    change readFieldBeginWithStateImpl state curr (byteAt r 0) (r.withInput (r.input.drop 1)) = _
    rw [first, input]
    rfl
  rcases known with rfl | known
  · have apart : byteAt r 0 ≠ TType.stop.toByte := fun same =>
      other _ (List.mem_singleton_self _) ((starts_stop held some).mpr same)
    exact ⟨r, matchNextField_stop.trans (if_neg apart), here⟩
  · have notStop : type ≠ .stop := by
      rintro rfl
      simp [TType.IsValue] at known
    rw [expectedHeaders, if_neg notStop] at other
    obtain ⟨r', missed, rfl | ⟨b, rfl, bool⟩⟩ := matchNextField_of_none known held some
      fun c member => other _ (List.mem_map_of_mem member)
    · exact ⟨_, missed, here⟩
    · rw [first] at bool
      refine ⟨_, missed, ?_⟩
      change readFieldBeginWithStateImpl state curr (byteAt r 0)
        { r.withInput (r.input.drop 1) with boolValue := Option.some b } = _
      rw [first, readFieldBeginWithStateImpl_pending state b bool, input]
      rfl

/-- Another header is in front of the cursor, or none. -/
theorem advanceToNextField_of_other (known : type = .stop ∨ type.IsValue)
    (held : length ≤ r.input.length) (last : r.lastFieldId = curr) (state : StructReadState)
    (other : ∀ header ∈ expectedHeaders curr next type, ¬header <+: r.input.take length) :
    ∃ x : Except String (StructReadState × Reader),
      advanceToNextField length curr next type state r = x.map (fun p => ((false, p.1), p.2)) ∧
      readFieldBegin r = x.map (fun p => generally curr p.1 p.2) ∧
      ∀ p, x = .ok p → p.2.lastFieldId = curr := by
  rw [advanceToNextField]
  cases input : r.input with
  | nil =>
    have none : length = 0 := by
      rw [input] at held
      exact Nat.le_zero.mp held
    obtain ⟨err, failed⟩ : ∃ err, ReadM.decode Decoder.readByte r = .error err := by
      rw [ReadM.decode, input]
      exact ⟨_, rfl⟩
    rw [if_pos none, bind_missed, readFieldBeginWithState, Run.bind_of_error failed,
      readFieldBegin, Run.bind_of_error failed]
    exact ⟨.error err, rfl, rfl, by rintro _ ⟨⟩⟩
  | cons byte rest =>
    have first := decode_readByte input
    have kept (state : StructReadState) (p : StructReadState × Reader)
        (ok : readFieldBeginWithStateImpl state curr byte (r.withInput rest) = .ok p) :
        p.2.lastFieldId = curr := (lastFieldId_impl ok).trans last
    by_cases none : length = 0
    · rw [if_pos none, bind_missed, readFieldBeginWithState, Run.bind_of_ok first]
      exact ⟨_, rfl, readFieldBegin_eq_impl _ input last, kept _⟩
    · obtain ⟨r', missed, slow⟩ := matchNextField_other known held (Nat.pos_of_ne_zero none)
        input state other
      rw [if_neg none, Run.bind_of_ok missed, if_neg Bool.false_ne_true, bind_missed, slow]
      exact ⟨_, rfl, readFieldBegin_eq_impl state input last, kept state⟩

/-- For every buffer, the lookahead leaves what the general reader leaves, reports a match
exactly when the header that the writer writes for the expected field is in the buffer, and keeps
the last field id of the reader. -/
theorem advanceToNextField_agrees (length : Nat) (curr next : Int16) (type : TType)
    (state : StructReadState) (r : Reader) (known : type = .stop ∨ type.IsValue)
    (held : length ≤ r.input.length) (last : r.lastFieldId = curr) :
    readFieldBegin r =
        (advanceToNextField length curr next type state r).map (leaves curr next type) ∧
      ((∃ state' r', advanceToNextField length curr next type state r = .ok ((true, state'), r')) ↔
        ∃ header ∈ expectedHeaders curr next type, header <+: r.input.take length) ∧
      ∀ p, advanceToNextField length curr next type state r = .ok p →
        p.2.lastFieldId = curr ∧ (p.1.1 = true → p.1.2 = state) := by
  by_cases found : ∃ header ∈ expectedHeaders curr next type, header <+: r.input.take length
  · obtain ⟨header, member, same⟩ := found
    obtain ⟨r', matched, general, kept⟩ :=
      advanceToNextField_of_header known held last state member same
    refine ⟨by rw [general, matched]; rfl, ?_, fun p ok => ?_⟩
    · exact iff_of_true ⟨state, r', matched⟩ ⟨header, member, same⟩
    · rw [matched] at ok
      cases ok
      exact ⟨kept, fun _ => rfl⟩
  · obtain ⟨x, missed, general, kept⟩ := advanceToNextField_of_other known held last state
      fun header member same => found ⟨header, member, same⟩
    refine ⟨?_, ?_, fun p ok => ?_⟩
    · rw [general, missed]
      cases x <;> rfl
    · refine iff_of_false ?_ found
      rintro ⟨state', r', matched⟩
      rw [missed] at matched
      obtain ⟨q, -, same⟩ := Except.map_eq_ok matched
      cases same
    · rw [missed] at ok
      obtain ⟨q, found, rfl⟩ := Except.map_eq_ok ok
      exact ⟨kept q found, nofun⟩

/-- The reader of a buffer behind the field with id 1. -/
def behindFirst (buf : Bytes) : Reader := { Reader.ofBytes 100 buf with lastFieldId := 1 }

/-- The header of field 3 in the delta form, an int32. -/
theorem advanceToNextField_agrees_delta : readFieldBegin (behindFirst [0x25, 7]) =
        (advanceToNextField 2 1 3 .i32 ⟨1, .stop⟩ (behindFirst [0x25, 7])).map (leaves 1 3 .i32) ∧
      ((∃ state' r', advanceToNextField 2 1 3 .i32 ⟨1, .stop⟩ (behindFirst [0x25, 7]) =
          .ok ((true, state'), r')) ↔
        ∃ header ∈ expectedHeaders 1 3 .i32, header <+: (behindFirst [0x25, 7]).input.take 2) ∧
      ∀ p, advanceToNextField 2 1 3 .i32 ⟨1, .stop⟩ (behindFirst [0x25, 7]) = .ok p →
        p.2.lastFieldId = 1 ∧ (p.1.1 = true → p.1.2 = ⟨1, .stop⟩) :=
  advanceToNextField_agrees 2 1 3 .i32 ⟨1, .stop⟩ (behindFirst [0x25, 7])
    (.inr (by decide)) (by decide) rfl

/-- Field 2 may come with its id behind the type.  The general reader reads it then, and keeps
its id; the lookahead reports no match, and it keeps no id in the reader when it does. -/
theorem not_advanceToNextField_exactly :
    ((readFieldBegin (behindFirst [5, 4])).map fun p => (p.1, p.2.lastFieldId)) =
        .ok ((.i32, 2), 2) ∧
      ((advanceToNextField 2 1 2 .i32 ⟨1, .stop⟩ (behindFirst [5, 4])).map fun p => p.1.1) =
        .ok false ∧
      ((readFieldBegin (behindFirst [0x15])).map fun p => (p.1, p.2.lastFieldId)) =
        .ok ((.i32, 2), 2) ∧
      ((advanceToNextField 1 1 2 .i32 ⟨1, .stop⟩ (behindFirst [0x15])).map fun p =>
        (p.1, p.2.lastFieldId)) = .ok ((true, ⟨1, .stop⟩), 1) :=
  ⟨rfl, rfl, rfl, rfl⟩

end CompactProtocolReader

end FbThrift
