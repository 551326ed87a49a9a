import FbThrift.Lib.Decoder

/-!
# Strings in JSON

`JSONProtocolWriterCommon` writes a small string into one buffer that holds it in any case, and a
large one into a row of buffers of which it knows only the lengths when it gets them.  Both write
through a pointer, so a store past the end of the buffer is a fault of the model.
-/

namespace FbThrift.JSONProtocolWriterCommon

/-! ## Buffers -/

/-- What must not happen. -/
inductive Fault where
  /-- A store past the end of the buffer. -/
  | pastBuffer
  /-- A load past the end of the string. -/
  | pastString
  /-- The loop goes on after as many rounds as the string has characters. -/
  | endless
  deriving DecidableEq

/-- The writable data of the queue, and what was stored there up to the pointer. -/
structure Buffer where
  length : Nat
  stored : Bytes
  deriving DecidableEq

/-- `*p++ = b`. -/
def Buffer.store (p : Buffer) (b : UInt8) : Except Fault Buffer :=
  if p.stored.length < p.length then .ok { p with stored := p.stored ++ [b] }
  else .error .pastBuffer

def Buffer.storeAll (p : Buffer) (bs : Bytes) : Except Fault Buffer := bs.foldlM Buffer.store p

/-! ## Characters -/

def kJSONStringDelimiter : UInt8 := 0x22
def kJSONBackslash : UInt8 := 0x5C
def kJSONEscapePrefix : Bytes := [0x5C, 0x75, 0x30, 0x30]

def kJSONCharTable : Bytes :=
  [0, 0, 0, 0, 0, 0, 0, 0, 0x62, 0x74, 0x6E, 0, 0x66, 0x72, 0, 0,
   0, 0, 0, 0, 0, 0, 0, 0, 0, 0, 0, 0, 0, 0, 0, 0,
   1, 1, 0x22, 1, 1, 1, 1, 1, 1, 1, 1, 1, 1, 1, 1, 1]

def hexChar (val : UInt8) : UInt8 :=
  let val := val &&& 0x0F
  if val < 10 then val + 0x30 else val - 10 + 0x61

def writeJSONEscapeChar (p : Buffer) (ch : UInt8) : Except Fault Buffer := do
  let p ← p.storeAll kJSONEscapePrefix
  let p ← p.store (hexChar (ch >>> 4))
  p.store (hexChar ch)

def writeJSONStringChar (p : Buffer) (ch : UInt8) : Except Fault Buffer := do
  let p ← if ch = kJSONBackslash ∨ ch = kJSONStringDelimiter then p.store kJSONBackslash else .ok p
  if 32 ≤ ch then p.store ch
  else
    let outCh := kJSONCharTable.getD ch.toNat 0
    if outCh ≠ 0 then do
      let p ← p.store kJSONBackslash
      p.store outCh
    else writeJSONEscapeChar p ch

/-! ## Strings -/

/-- What a writer returns and what it appends to the queue. -/
abbrev Written := UInt32 × Bytes

def kDesiredQueueGrowth : Nat := 1 <<< 14 - 64

def kMaxStringLengthFittingGrowthStrategy : Nat := (kDesiredQueueGrowth - 2) / 6

/-- `writeJSONStringSmall` with a buffer of `room` bytes, which `ensure` has made for it. -/
def writeJSONStringSmall (room : Nat) (str : Bytes) : Except Fault Written := do
  let p : Buffer := ⟨room, []⟩
  let p ← p.store kJSONStringDelimiter
  let p ← str.foldlM writeJSONStringChar p
  let p ← p.store kJSONStringDelimiter
  .ok (UInt32.ofNat p.stored.length, p.stored)

/-- The innermost loop of `writeJSONStringLarge`, which writes a character before it looks at the
limit.  The string is given from index `i` on. -/
def writeChars (indexLimit : Nat) : (i : Nat) → (rest : Bytes) → Buffer →
    Except Fault (Nat × Bytes × Buffer)
  | _, [], _ => .error .pastString
  | i, ch :: rest, p => do
    let p ← writeJSONStringChar p ch
    if i + 1 < indexLimit then writeChars indexLimit (i + 1) rest p
    else .ok (i + 1, rest, p)

/-- The loop of `writeJSONStringLarge` over one buffer; `size` is that of the whole string. -/
def fillBuffer (size : Nat) : (rounds i : Nat) → (rest : Bytes) →
    (outstandingBufferLen bytesWrittenOnAlloc : Nat) → Buffer →
    Except Fault (Nat × Bytes × Nat × Buffer)
  | 0, _, _, _, _, _ => .error .endless
  | rounds + 1, i, rest, outstandingBufferLen, bytesWrittenOnAlloc, start => do
    let charsGuaranteed := outstandingBufferLen / 6
    let indexLimit := min (i + charsGuaranteed) size
    let (i, rest, p) ← writeChars indexLimit i rest start
    let bytesWrittenInIteration := p.stored.length - start.stored.length
    let bytesWrittenOnAlloc := bytesWrittenOnAlloc + bytesWrittenInIteration
    let outstandingBufferLen := outstandingBufferLen - bytesWrittenInIteration
    if i < size ∧ 5 < outstandingBufferLen then
      fillBuffer size rounds i rest outstandingBufferLen bytesWrittenOnAlloc p
    else .ok (i, rest, bytesWrittenOnAlloc, p)

/-- The outermost loop: `lengths k` is the length of the buffer that the call number `k` of
`ensureWithinMaxGrowth` leaves. -/
def writeBuffers (lengths : Nat → Nat) (size : Nat) : (rounds k i : Nat) → (rest : Bytes) →
    (totalBytesWritten : Nat) → (out : Bytes) → Except Fault (Nat × Bytes)
  | 0, _, _, _, _, _ => .error .endless
  | rounds + 1, k, i, rest, totalBytesWritten, out => do
    let (i, rest, bytesWrittenOnAlloc, p) ←
      fillBuffer size size i rest (lengths k) 0 ⟨lengths k, []⟩
    let out := out ++ p.stored.take bytesWrittenOnAlloc
    let totalBytesWritten := totalBytesWritten + bytesWrittenOnAlloc
    if i < size then writeBuffers lengths size rounds (k + 1) i rest totalBytesWritten out
    else .ok (totalBytesWritten, out)

/-- The bytes that `writeJSONStringLarge` asks each buffer to have, if the limit of the growth
allows. -/
def bytesDesired (str : Bytes) : Nat := str.length * 2

def writeJSONStringLarge (lengths : Nat → Nat) (str : Bytes) : Except Fault Written := do
  let (totalBytesWritten, out) ←
    writeBuffers lengths str.length str.length 0 0 str 2 [kJSONStringDelimiter]
  .ok (UInt32.ofNat totalBytesWritten, out ++ [kJSONStringDelimiter])

/-! ## What is stored for a character -/

/-- The bytes of a character. -/
def escape (ch : UInt8) : Bytes :=
  if ch = kJSONBackslash ∨ ch = kJSONStringDelimiter then [kJSONBackslash, ch]
  else if 32 ≤ ch then [ch]
  else if kJSONCharTable.getD ch.toNat 0 ≠ 0 then
    [kJSONBackslash, kJSONCharTable.getD ch.toNat 0]
  else kJSONEscapePrefix ++ [hexChar (ch >>> 4), hexChar ch]

theorem escape_length (ch : UInt8) : 1 ≤ (escape ch).length ∧ (escape ch).length ≤ 6 := by
  unfold escape
  split_ifs <;> simp [kJSONEscapePrefix]

@[simp] theorem storeAll_nil (p : Buffer) : p.storeAll [] = .ok p := rfl

theorem storeAll_cons (p : Buffer) (b : UInt8) (bs : Bytes) :
    p.storeAll (b :: bs) = p.store b >>= fun p => p.storeAll bs := rfl

theorem storeAll_append (p : Buffer) (bs cs : Bytes) :
    p.storeAll (bs ++ cs) = p.storeAll bs >>= fun p => p.storeAll cs := List.foldlM_append

theorem storeAll_ok (p : Buffer) (bs : Bytes) (fits : p.stored.length + bs.length ≤ p.length) :
    p.storeAll bs = .ok { p with stored := p.stored ++ bs } := by
  induction bs generalizing p with
  | nil => simp
  | cons b bs ih =>
    rw [List.length_cons] at fits
    rw [storeAll_cons, Buffer.store, if_pos (by omega)]
    show Buffer.storeAll _ bs = _
    have fits' : (p.stored ++ [b]).length + bs.length ≤ p.length := by
      rw [List.length_append, List.length_singleton]
      omega
    rw [ih _ fits', List.append_assoc]
    rfl

theorem storeAll_singleton (p : Buffer) (b : UInt8) : p.storeAll [b] = p.store b := by
  rw [storeAll_cons]
  cases p.store b with
  | error fault => rfl
  | ok p => rfl

theorem storeAll_pair (p : Buffer) (b c : UInt8) :
    p.storeAll [b, c] = p.store b >>= fun p => p.store c := by
  rw [storeAll_cons]
  simp only [storeAll_singleton]

/-- A character is stored as its bytes. -/
theorem writeJSONStringChar_eq (p : Buffer) (ch : UInt8) :
    writeJSONStringChar p ch = p.storeAll (escape ch) := by
  unfold writeJSONStringChar escape
  by_cases special : ch = kJSONBackslash ∨ ch = kJSONStringDelimiter
  · -- Both special characters are at least 32.
    have regular : 32 ≤ ch := by
      rcases special with rfl | rfl <;> decide
    rw [if_pos special, if_pos special, storeAll_pair]
    simp only [if_pos regular]
  · rw [if_neg special, if_neg special]
    show (if 32 ≤ ch then p.store ch else if kJSONCharTable.getD ch.toNat 0 ≠ 0 then do
        let p ← p.store kJSONBackslash
        p.store (kJSONCharTable.getD ch.toNat 0)
      else writeJSONEscapeChar p ch) = _
    split_ifs with regular short
    · exact (storeAll_singleton p ch).symm
    · exact (storeAll_pair p _ _).symm
    · rw [storeAll_append]
      simp only [storeAll_pair]
      rfl

/-- The bytes of a string, without the delimiters. -/
def escapeAll (str : Bytes) : Bytes := str.flatMap escape

@[simp] theorem escapeAll_nil : escapeAll [] = [] := rfl

@[simp] theorem escapeAll_cons (ch : UInt8) (str : Bytes) :
    escapeAll (ch :: str) = escape ch ++ escapeAll str := rfl

theorem escapeAll_append (s t : Bytes) : escapeAll (s ++ t) = escapeAll s ++ escapeAll t :=
  List.flatMap_append

theorem length_escapeAll_le (str : Bytes) : (escapeAll str).length ≤ 6 * str.length := by
  induction str with
  | nil => rfl
  | cons ch str ih =>
    have most := (escape_length ch).2
    rw [escapeAll_cons, List.length_append, List.length_cons]
    omega

theorem foldlM_writeJSONStringChar (p : Buffer) (str : Bytes)
    (fits : p.stored.length + (escapeAll str).length ≤ p.length) :
    str.foldlM writeJSONStringChar p = .ok { p with stored := p.stored ++ escapeAll str } := by
  induction str generalizing p with
  | nil =>
    rw [escapeAll_nil, List.append_nil]
    rfl
  | cons ch str ih =>
    rw [escapeAll_cons, List.length_append] at fits
    have fits' : (p.stored ++ escape ch).length + (escapeAll str).length ≤ p.length := by
      rw [List.length_append]
      omega
    rw [List.foldlM_cons, writeJSONStringChar_eq, storeAll_ok p _ (by omega)]
    show List.foldlM writeJSONStringChar _ str = _
    rw [ih _ fits', escapeAll_cons, List.append_assoc]

/-- What `writeJSONStringSmall` writes into a buffer that `ensure` has made. -/
theorem writeJSONStringSmall_eq {room : Nat} {str : Bytes} (ensured : str.length * 6 + 2 ≤ room) :
    writeJSONStringSmall room str = .ok (UInt32.ofNat ((escapeAll str).length + 2),
        kJSONStringDelimiter :: escapeAll str ++ [kJSONStringDelimiter]) := by
  have most := length_escapeAll_le str
  have first : Buffer.store ⟨room, []⟩ kJSONStringDelimiter =
      .ok ⟨room, [kJSONStringDelimiter]⟩ := if_pos (show 0 < room by omega)
  have middle := foldlM_writeJSONStringChar ⟨room, [kJSONStringDelimiter]⟩ str
    (show 1 + (escapeAll str).length ≤ room by omega)
  have last : Buffer.store ⟨room, [kJSONStringDelimiter] ++ escapeAll str⟩ kJSONStringDelimiter =
      .ok ⟨room, [kJSONStringDelimiter] ++ escapeAll str ++ [kJSONStringDelimiter]⟩ := by
    refine if_pos (show ([kJSONStringDelimiter] ++ escapeAll str).length < room from ?_)
    rw [List.length_append, List.length_singleton]
    omega
  unfold writeJSONStringSmall
  show (Buffer.store ⟨room, []⟩ kJSONStringDelimiter >>= _) = _
  rw [first]
  show (str.foldlM writeJSONStringChar ⟨room, [kJSONStringDelimiter]⟩ >>= _) = _
  rw [middle]
  show (Buffer.store ⟨room, [kJSONStringDelimiter] ++ escapeAll str⟩ kJSONStringDelimiter >>= _) = _
  rw [last]
  have size : ([kJSONStringDelimiter] ++ escapeAll str ++ [kJSONStringDelimiter]).length =
      (escapeAll str).length + 2 := by
    simp only [List.length_append, List.length_singleton]
    omega
  show Except.ok (UInt32.ofNat (List.length _), _) = _
  rw [size]
  rfl

/-! ## Large strings -/

/-- The innermost loop writes characters up to its limit, at least one, if six bytes are free for
each. -/
theorem writeChars_ok (indexLimit i : Nat) {rest : Bytes} {p : Buffer} (more : rest ≠ [])
    (inside : indexLimit ≤ i + rest.length)
    (room : p.stored.length + 6 * max 1 (indexLimit - i) ≤ p.length) :
    ∃ cs rest', rest = cs ++ rest' ∧ cs.length = max 1 (indexLimit - i) ∧
      writeChars indexLimit i rest p =
        .ok (i + cs.length, rest', { p with stored := p.stored ++ escapeAll cs }) := by
  induction rest generalizing i p with
  | nil => exact absurd rfl more
  | cons ch rest ih =>
    have bounds := escape_length ch
    have stored := storeAll_ok p (escape ch) (by omega)
    unfold writeChars
    rw [writeJSONStringChar_eq, stored]
    show ∃ cs rest', _ ∧ _ ∧ (if i + 1 < indexLimit then _ else _) = _
    by_cases next : i + 1 < indexLimit
    · rw [if_pos next]
      have more' : rest ≠ [] := by
        rintro rfl
        rw [List.length_singleton] at inside
        omega
      obtain ⟨cs, rest', cut, count, ran⟩ := ih (i + 1)
        (p := { p with stored := p.stored ++ escape ch }) more'
        (by rw [List.length_cons] at inside; omega)
        (by simp only [List.length_append]; omega)
      refine ⟨ch :: cs, rest', by rw [cut, List.cons_append], ?_, ?_⟩
      · rw [List.length_cons, count]
        omega
      · rw [ran, escapeAll_cons, List.length_cons, List.append_assoc, Nat.add_assoc, Nat.add_comm 1]
    · rw [if_neg next]
      refine ⟨[ch], rest, rfl, ?_, ?_⟩
      · rw [List.length_singleton]
        omega
      · rw [escapeAll_cons, escapeAll_nil, List.append_nil, List.length_singleton]

theorem fillBuffer_step {size rounds i i' outstanding written : Nat} {rest rest' : Bytes}
    {start p : Buffer}
    (ran : writeChars (min (i + outstanding / 6) size) i rest start = .ok (i', rest', p)) :
    fillBuffer size (rounds + 1) i rest outstanding written start =
      if i' < size ∧ 5 < outstanding - (p.stored.length - start.stored.length) then
        fillBuffer size rounds i' rest' (outstanding - (p.stored.length - start.stored.length))
          (written + (p.stored.length - start.stored.length)) p
      else .ok (i', rest', written + (p.stored.length - start.stored.length), p) := by
  rw [fillBuffer]
  simp only [ran]
  rfl

/-- The loop over a buffer with room for a character writes at least one and stays inside. -/
theorem fillBuffer_ok (size rounds i outstanding written : Nat) {rest : Bytes} {p : Buffer}
    (more : rest ≠ []) (position : i + rest.length = size) (enough : rest.length ≤ rounds)
    (account : written = p.stored.length) (free : outstanding + p.stored.length = p.length)
    (room : 6 ≤ outstanding) :
    ∃ cs rest', rest = cs ++ rest' ∧ cs ≠ [] ∧ fillBuffer size rounds i rest outstanding written p =
        .ok (i + cs.length, rest', written + (escapeAll cs).length,
          { p with stored := p.stored ++ escapeAll cs }) := by
  induction rounds generalizing i outstanding written rest p with
  | zero => exact absurd (List.eq_nil_of_length_eq_zero (by omega)) more
  | succ rounds ih =>
    have positive := List.length_pos_of_ne_nil more
    have count : max 1 (min (i + outstanding / 6) size - i) ≤ outstanding / 6 := by omega
    obtain ⟨cs, rest', cut, length, ran⟩ := writeChars_ok (min (i + outstanding / 6) size) i
      (p := p) more (by omega) (by omega)
    have most := length_escapeAll_le cs
    have some : cs ≠ [] := List.ne_nil_of_length_pos (by omega)
    have lengths := congrArg List.length cut
    rw [List.length_append] at lengths
    have inIteration : (p.stored ++ escapeAll cs).length - p.stored.length =
        (escapeAll cs).length := by
      rw [List.length_append]
      omega
    rw [fillBuffer_step ran]
    simp only [inIteration]
    split
    · rename_i next
      obtain ⟨cs', rest'', cut', -, ran'⟩ := ih (i + cs.length)
        (outstanding - (escapeAll cs).length) (written + (escapeAll cs).length)
        (p := { p with stored := p.stored ++ escapeAll cs })
        (show rest' ≠ [] from List.ne_nil_of_length_pos (by omega)) (by omega) (by omega)
        (by rw [List.length_append, account]) (by simp only [List.length_append]; omega)
        (by omega)
      refine ⟨cs ++ cs', rest'', by rw [cut, cut', List.append_assoc], by simp [some], ?_⟩
      rw [ran', escapeAll_append, List.length_append, List.length_append, List.append_assoc,
        Nat.add_assoc, Nat.add_assoc]
    · exact ⟨cs, rest', cut, some, rfl⟩

theorem writeBuffers_step {lengths : Nat → Nat} {size rounds k i i' total written : Nat}
    {rest rest' out : Bytes} {p : Buffer}
    (ran : fillBuffer size size i rest (lengths k) 0 ⟨lengths k, []⟩ =
      .ok (i', rest', written, p)) :
    writeBuffers lengths size (rounds + 1) k i rest total out =
      if i' < size then writeBuffers lengths size rounds (k + 1) i' rest' (total + written)
        (out ++ p.stored.take written)
      else .ok (total + written, out ++ p.stored.take written) := by
  rw [writeBuffers, ran]
  rfl

theorem writeBuffers_ok {lengths : Nat → Nat} (room : ∀ k, 6 ≤ lengths k)
    {size rounds k i total : Nat} {rest out : Bytes} (more : rest ≠ [])
    (position : i + rest.length = size) (enough : rest.length ≤ rounds) :
    writeBuffers lengths size rounds k i rest total out =
      .ok (total + (escapeAll rest).length, out ++ escapeAll rest) := by
  induction rounds generalizing k i rest total out with
  | zero => exact absurd (List.eq_nil_of_length_eq_zero (by omega)) more
  | succ rounds ih =>
    obtain ⟨cs, rest', cut, some, ran⟩ := fillBuffer_ok size size i (lengths k) 0
      (p := ⟨lengths k, []⟩) more position (by omega) rfl rfl (room k)
    have positive := List.length_pos_of_ne_nil some
    have count := congrArg List.length cut
    rw [List.length_append] at count
    rw [writeBuffers_step ran]
    simp only [Nat.zero_add, List.nil_append, List.take_length]
    split
    · rename_i next
      rw [ih (List.ne_nil_of_length_pos (by omega)) (by omega) (by omega), cut,
        escapeAll_append, List.length_append, List.append_assoc]
      rw [Nat.add_assoc]
    · rename_i last
      obtain rfl : rest' = [] := List.eq_nil_of_length_eq_zero (by omega)
      rw [cut, List.append_nil]

/-- A large string is written without a fault, and as `writeJSONStringSmall` writes it. -/
theorem writeJSONStringLarge_eq_small {room : Nat} (maxGrowth : Nat) {lengths : Nat → Nat}
    {str : Bytes}
    (long : kMaxStringLengthFittingGrowthStrategy < str.length) (limit : 6 ≤ maxGrowth)
    (granted : ∀ k, min (bytesDesired str) maxGrowth ≤ lengths k)
    (ensured : str.length * 6 + 2 ≤ room) :
    ∃ written, writeJSONStringLarge lengths str = .ok written ∧
      writeJSONStringSmall room str = .ok written := by
  refine ⟨_, ?_, writeJSONStringSmall_eq ensured⟩
  have large : 2719 < str.length := long
  have free (k : Nat) : 6 ≤ lengths k := by
    have least := granted k
    unfold bytesDesired at least
    omega
  unfold writeJSONStringLarge
  rw [writeBuffers_ok free (List.ne_nil_of_length_pos (by omega)) (Nat.zero_add _) (Nat.le_refl _)]
  show Except.ok (UInt32.ofNat _, _) = _
  rw [Nat.add_comm]
  rfl

/-- Letters in buffers of six bytes. -/
theorem writeJSONStringLarge_at :
    ∃ written, writeJSONStringLarge (fun _ => 6) (List.replicate 3000 0x61) = .ok written ∧
      writeJSONStringSmall 20000 (List.replicate 3000 0x61) = .ok written := by
  refine writeJSONStringLarge_eq_small 6 ?_ (Nat.le_refl _) (fun _ => ?_) ?_
  · rw [List.length_replicate]
    decide
  · exact min_le_right _ _
  · rw [List.length_replicate]
    decide

end FbThrift.JSONProtocolWriterCommon
