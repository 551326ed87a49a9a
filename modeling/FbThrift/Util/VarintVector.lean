import FbThrift.Util.VarintRead

/-!
# Vectors of varints

`readEncodedArithmeticVector` reads a given number of zigzagged varints.  It goes in rounds:
while the current buffer has room for two of the longest varints it reads pairs from memory,
and then one varint for each byte that is left of the buffer.  A round that starts at the end
of the stream reads nothing, and the loop does not end.
-/

namespace FbThrift.Varint

/-! ## The reader -/

/-- The bytes of the type that an element of `size` bytes is read as. -/
def wireSize (size : Nat) : Nat := if size = 2 then 4 else size

def element (size : Nat) (value : Nat) : BitVec (8 * size) :=
  (Decoder.zigzagToSignedInt (BitVec.ofNat (8 * wireSize size) value)).setWidth (8 * size)

def kMaxVarintBytes (size : Nat) : Nat := Decoder.varintMaxBytes (8 * wireSize size)

/-- The first of the buffers that is not empty. -/
def peekNext : Bytes → List Bytes → Cursor
  | [], chunk :: next => peekNext chunk next
  | chunk, next => ⟨chunk, next⟩

/-- `peekBytes`: moves to a buffer that is not empty, if there is one. -/
def Cursor.peekBytes (c : Cursor) : Cursor := peekNext c.chunk c.next

abbrev Elements (size : Nat) : Type := List (BitVec (8 * size))

/-- The loop over the memory of the buffer, with `left` elements to go and `inPtr` bytes behind:
the elements, how many are still to go and how far it came. -/
def readPairs (build : Build) (size : Nat) (c : Cursor) :
    Nat → Nat → Except String (Elements size × Nat × Nat)
  | left + 2, inPtr =>
    if inPtr + kMaxVarintBytes size * 2 ≤ c.length then
      match readVarintMediumSlowUnrolled build (wireSize size) fun i => c.data (inPtr + i) with
      | .error err => .error err
      | .ok (valueA, readA) =>
        match readVarintMediumSlowUnrolled build (wireSize size)
            fun i => c.data (inPtr + readA + i) with
        | .error err => .error err
        | .ok (valueB, readB) =>
          (readPairs build size c left (inPtr + readA + readB)).map
            fun (values, rest) => (element size valueA :: element size valueB :: values, rest)
    else .ok ([], left + 2, inPtr)
  | left, inPtr => .ok ([], left, inPtr)

/-- The loop that finishes a buffer, with `count` elements to go. -/
def readTrailing (size : Nat) : Nat → Cursor → Except String (Elements size × Cursor)
  | 0, c => .ok ([], c)
  | count + 1, c =>
    match readVarintSlow (wireSize size) c with
    | .error err => .error err
    | .ok (value, c) =>
      (readTrailing size count c).map fun (values, c) => (element size value :: values, c)

/-- The body of the outer loop: the elements it reads, how many are still to go and the
cursor behind them. -/
def readRound (build : Build) (size left : Nat) (c : Cursor) :
    Except String (Elements size × Nat × Cursor) :=
  let c := c.peekBytes
  match readPairs build size c left 0 with
  | .error err => .error err
  | .ok (values, left, consumed) =>
    let count := min left (c.length - consumed)
    (readTrailing size count (c.skipNoAdvance consumed)).map
      fun (trailing, c) => (values ++ trailing, left - count, c)

/-- The outer loop for at most `fuel` iterations. -/
def readEncodedArithmeticVector (build : Build) (size : Nat) :
    Nat → Nat → Cursor → Option (Except String (Elements size × Cursor))
  | 0, _, _ => none
  | fuel + 1, left, c =>
    if left = 0 then some (.ok ([], c))
    else
      match readRound build size left c with
      | .error err => some (.error err)
      | .ok (values, left, c) =>
        (readEncodedArithmeticVector build size fuel left c).map
          (·.map fun (more, c) => (values ++ more, c))

/-- `readZigzaggedVarint`, the reader of one element. -/
def readZigzaggedVarint (build : Build) (size : Nat) (c : Cursor) :
    Except String (BitVec (8 * size) × Cursor) :=
  (readVarint build (wireSize size) c).map fun (value, c) => (element size value, c)

/-- The elements one after the other. -/
def readElements (build : Build) (size : Nat) :
    Nat → Cursor → Except String (Elements size × Cursor)
  | 0, c => .ok ([], c)
  | n + 1, c =>
    match readZigzaggedVarint build size c with
    | .error err => .error err
    | .ok (value, c) =>
      (readElements build size n c).map fun (values, c) => (value :: values, c)

/-- The elements and what is left of the stream, however it is split. -/
def flattenAll {size : Nat} (read : Except String (Elements size × Cursor)) :
    Except String (Elements size × Bytes) :=
  read.map fun (values, c) => (values, c.bytes)

/-! ## When the stream runs out between two rounds -/

/-- The lengths of the varints that the bytes are made up of, if they are; the first has
`begun` more bytes before these. -/
def varintLengths (maxBytes : Nat) : Nat → Bytes → Option (List Nat)
  | 0, [] => some []
  | _ + 1, [] => none
  | begun, byte :: bytes =>
    if maxBytes ≤ begun then none
    else if continues byte then varintLengths maxBytes (begun + 1) bytes
    else (varintLengths maxBytes 0 bytes).map fun lengths => (begun + 1) :: lengths

/-- How many varints a round takes from a buffer with `len` bytes: pairs while it has room for
two of the longest, then one for each byte that is left. -/
def roundTakes (maxBytes : Nat) : Nat → List Nat → Nat
  | len, a :: b :: lengths =>
    if maxBytes * 2 ≤ len then 2 + roundTakes maxBytes (len - a - b) lengths else len
  | len, _ => len

/-- The lengths of the buffers after `n` bytes, without empty ones at the front. -/
def dropBytes : Nat → List Nat → List Nat
  | _, [] => []
  | n, len :: buffers => if n < len then (len - n) :: buffers else dropBytes (n - len) buffers

/-- Varints of these lengths in buffers of these lengths end together with a round. -/
inductive EndsWithRound (maxBytes : Nat) : List Nat → List Nat → Prop
  | done {buffers : List Nat} : EndsWithRound maxBytes buffers []
  | round {len : Nat} {buffers lengths : List Nat} (taken : Nat) (some : lengths ≠ [])
      (takes : roundTakes maxBytes len lengths = taken) (inside : taken ≤ lengths.length)
      (rest : EndsWithRound maxBytes (dropBytes (lengths.take taken).sum (len :: buffers))
        (lengths.drop taken)) :
      EndsWithRound maxBytes (len :: buffers) lengths

def Cursor.lengths (c : Cursor) : List Nat := (c.chunk :: c.next).map List.length

/-- The stream is made up of fewer than `n` varints, and the last of them ends a round. -/
def RunsOut (size n : Nat) (c : Cursor) : Prop :=
  ∃ lengths, varintLengths (kMaxVarintBytes size) 0 c.bytes = some lengths ∧
    lengths.length < n ∧ EndsWithRound (kMaxVarintBytes size) (dropBytes 0 c.lengths) lengths


/-! ## Elements of a stream -/

/-- The elements as the reader of the protocols takes them from the bytes. -/
def elements (size : Nat) : Nat → Decoder (Elements size)
  | 0 => pure []
  | n + 1 => do
      let value ← Decoder.readVarint (8 * wireSize size)
      let values ← elements size n
      pure (element size value :: values)

section

variable {build : Build} {size : Nat} {n m : Nat} {bs rest : Bytes} {values more : Elements size}

theorem wireSize_wide (sizes : size = 2 ∨ size = 4 ∨ size = 8) :
    wireSize size = 4 ∨ wireSize size = 8 := by
  rcases sizes with rfl | rfl | rfl <;> decide

theorem kMaxVarintBytes_pos (sizes : size = 2 ∨ size = 4 ∨ size = 8) :
    0 < kMaxVarintBytes size := by
  rcases sizes with rfl | rfl | rfl <;> decide

theorem elements_succ_of_error {err : String}
    (first : Decoder.readVarint (8 * wireSize size) bs = .error err) :
    elements size (n + 1) bs = .error err :=
  Run.bind_of_error first

theorem elements_succ_of_ok {value : Nat}
    (first : Decoder.readVarint (8 * wireSize size) bs = .ok (value, rest)) :
    elements size (n + 1) bs =
      (elements size n rest).map fun (values, last) => (element size value :: values, last) := by
  rw [elements, Run.bind_of_ok first]
  cases later : elements size n rest with
  | error err => exact Run.bind_of_error later
  | ok pair => exact Run.bind_of_ok later

theorem elements_length (read : elements size n bs = .ok (values, rest)) : values.length = n := by
  induction n generalizing bs values with
  | zero =>
    cases read
    rfl
  | succ n ih =>
    cases first : Decoder.readVarint (8 * wireSize size) bs with
    | error err =>
      rw [elements_succ_of_error first] at read
      cases read
    | ok pair =>
      rw [elements_succ_of_ok first] at read
      obtain ⟨⟨tail, last⟩, later, same⟩ := Except.map_eq_ok read
      cases same
      exact congrArg (· + 1) (ih later)

theorem elements_add (read : elements size n bs = .ok (values, rest)) : elements size (n + m) bs =
      (elements size m rest).map fun (more, last) => (values ++ more, last) := by
  induction n generalizing bs values with
  | zero =>
    cases read
    rw [Nat.zero_add]
    cases elements size m rest <;> rfl
  | succ n ih =>
    cases first : Decoder.readVarint (8 * wireSize size) bs with
    | error err =>
      rw [elements_succ_of_error first] at read
      cases read
    | ok pair =>
      rw [elements_succ_of_ok first] at read
      obtain ⟨⟨tail, last⟩, later, same⟩ := Except.map_eq_ok read
      cases same
      rw [Nat.add_right_comm, elements_succ_of_ok first, ih later]
      cases elements size m rest <;> rfl

theorem elements_add_of_error {err : String} (fails : elements size n bs = .error err) :
    elements size (n + m) bs = .error err := by
  induction n generalizing bs with
  | zero => cases fails
  | succ n ih =>
    rw [Nat.add_right_comm]
    cases first : Decoder.readVarint (8 * wireSize size) bs with
    | error err' =>
      rw [elements_succ_of_error first] at fails ⊢
      exact fails
    | ok pair =>
      rw [elements_succ_of_ok first] at fails ⊢
      cases later : elements size n pair.2 with
      | error err' =>
        rw [later] at fails
        cases fails
        rw [ih later]
        rfl
      | ok tail =>
        rw [later] at fails
        cases fails

/-- The reader that dispatches on the buffer takes the same elements. -/
theorem flattenAll_readElements (sizes : size = 2 ∨ size = 4 ∨ size = 8) (n : Nat) (c : Cursor) :
    flattenAll (readElements build size n c) = elements size n c.bytes := by
  induction n generalizing c with
  | zero => rfl
  | succ n ih =>
    have wide := wireSize_wide sizes
    have agrees : flatten (readVarint build (wireSize size) c) =
        Decoder.readVarint (8 * wireSize size) c.bytes :=
      (flatten_readVarint build (.inr (.inr wide)) fun _ => .of_wide wide _).trans
        (flatten_readVarintSlow _ c)
    cases first : readVarint build (wireSize size) c with
    | error err =>
      rw [first] at agrees
      rw [readElements, readZigzaggedVarint, first, elements_succ_of_error agrees.symm]
      rfl
    | ok pair =>
      rw [first] at agrees
      rw [readElements, readZigzaggedVarint, first, elements_succ_of_ok agrees.symm, ← ih]
      change flattenAll ((readElements build size n pair.2).map _) = _
      cases readElements build size n pair.2 <;> rfl

theorem flattenAll_readTrailing (count : Nat) (c : Cursor) :
    flattenAll (readTrailing size count c) = elements size count c.bytes := by
  induction count generalizing c with
  | zero => rfl
  | succ count ih =>
    have agrees := flatten_readVarintSlow (wireSize size) c
    cases first : readVarintSlow (wireSize size) c with
    | error err =>
      rw [first] at agrees
      rw [readTrailing, first, elements_succ_of_error agrees.symm]
      rfl
    | ok pair =>
      rw [first] at agrees
      rw [readTrailing, first, elements_succ_of_ok agrees.symm, ← ih]
      change flattenAll ((readTrailing size count pair.2).map _) = _
      cases readTrailing size count pair.2 <;> rfl

end

/-! ## Reading from the memory of a buffer -/

theorem readVarintLoop_consumed {bits left shift result value : Nat} {bs rest : Bytes}
    (ok : Decoder.readVarintLoop bits left shift result bs = .ok (value, rest)) :
    bs.length ≤ rest.length + left := by
  induction left generalizing shift result bs with
  | zero => cases ok
  | succ left ih =>
    cases bs with
    | nil => simp
    | cons b bs =>
      rw [readVarintLoop_cons] at ok
      split at ok
      · have := ih ok
        simp only [List.length_cons]
        omega
      · cases ok
        simp only [List.length_cons]
        omega

variable {c d : Cursor}

/-- An unrolled decoder takes what the reader of the protocols takes, and no more bytes than
the longest varint has. -/
theorem readUnrolled_cases (build : Build) {size : Nat} (wide : size = 4 ∨ size = 8)
    {pos : Nat} (room : pos + Decoder.varintMaxBytes (8 * size) ≤ c.length) :
    (∃ err, readVarintMediumSlowUnrolled build size (fun i => c.data (pos + i)) = .error err ∧
      Decoder.readVarint (8 * size) (c.skipNoAdvance pos).bytes = .error err) ∨
    ∃ value read, readVarintMediumSlowUnrolled build size (fun i => c.data (pos + i)) =
        .ok (value, read) ∧ read ≤ Decoder.varintMaxBytes (8 * size) ∧
      Decoder.readVarint (8 * size) (c.skipNoAdvance pos).bytes =
        .ok (value, (c.skipNoAdvance (pos + read)).bytes) := by
  have data : (fun i => c.data (pos + i)) = fun i => (c.chunk.drop pos).getD i 0 := by
    funext i
    simp [Cursor.data, List.getD_eq_getElem?_getD, List.getElem?_drop]
  have padded : (fun i => (c.chunk.drop pos).getD i 0) =
      fun i => (c.chunk.drop pos ++ [0]).getD i 0 := by
    funext i
    by_cases below : i < (c.chunk.drop pos).length
    · rw [List.getD_append _ _ _ _ below]
    · rw [List.getD_append_right _ _ _ _ (Nat.le_of_not_lt below),
        List.getD_eq_default _ _ (Nat.le_of_not_lt below)]
      cases i - (c.chunk.drop pos).length <;> rfl
  have enough : Decoder.varintMaxBytes (8 * size) ≤ (c.chunk.drop pos).length := by
    rw [List.length_drop]
    unfold Cursor.length at room
    omega
  have agrees := readVarintMediumSlowUnrolled_agrees build (.inr (.inr wide))
    (.of_wide wide _) enough
  have longer : Decoder.varintMaxBytes (8 * size) ≤ (c.chunk.drop pos ++ [0]).length := by
    rw [List.length_append]
    omega
  have bound := readVarintMediumSlowUnrolled_agrees build (.inr (.inr wide))
    (.of_wide wide _) longer
  have whole : Decoder.readVarint (8 * size) (c.skipNoAdvance pos).bytes =
      (Decoder.readVarint (8 * size) (c.chunk.drop pos)).map fun read =>
        (read.1, read.2 ++ c.next.flatten) :=
    readVarintLoop_append _ _ _ enough _
  rw [data, whole, ← agrees]
  rw [← padded] at bound
  cases read : readVarintMediumSlowUnrolled build size fun i => (c.chunk.drop pos).getD i 0 with
  | error err => exact .inl ⟨err, rfl, rfl⟩
  | ok pair =>
    rw [read] at bound
    have consumed := readVarintLoop_consumed bound.symm
    simp only [List.length_drop, List.length_append, List.length_singleton] at consumed enough
    refine .inr ⟨pair.1, pair.2, rfl, by omega, ?_⟩
    simp only [dropRead, Except.map, Cursor.bytes, Cursor.skipNoAdvance, List.drop_drop]

/-! ## Lengths -/

section

variable {maxBytes begun : Nat} {bytes : Bytes} {lengths : List Nat}

theorem varintLengths_sum (whole : varintLengths maxBytes begun bytes = some lengths) :
    lengths.sum = begun + bytes.length := by
  induction bytes generalizing begun lengths with
  | nil =>
    cases begun with
    | zero =>
      cases whole
      rfl
    | succ begun => cases whole
  | cons byte bytes ih =>
    rw [varintLengths] at whole
    split at whole
    · cases whole
    · split at whole
      · rw [ih whole, List.length_cons]
        omega
      · obtain ⟨later, rest, rfl⟩ := Option.map_eq_some_iff.mp whole
        rw [List.sum_cons, ih rest, List.length_cons]
        omega

theorem readVarintLoop_lengths {bits left shift result value : Nat} {rest : Bytes}
    (full : begun + left = maxBytes)
    (read : Decoder.readVarintLoop bits left shift result bytes = .ok (value, rest)) :
    ∃ len, 0 < len ∧ begun + bytes.length = len + rest.length ∧ varintLengths maxBytes begun bytes =
        (varintLengths maxBytes 0 rest).map fun lengths => len :: lengths := by
  induction left generalizing shift result begun bytes with
  | zero => cases read
  | succ left ih =>
    cases bytes with
    | nil =>
      rw [readVarintLoop_nil] at read
      cases read
    | cons byte bytes =>
      rw [readVarintLoop_cons] at read
      rw [varintLengths, if_neg (by omega)]
      split at read
      next more =>
        obtain ⟨len, pos, split, same⟩ := ih (Nat.succ_add_eq_add_succ begun left ▸ full) read
        rw [if_pos more]
        exact ⟨len, pos, by rw [List.length_cons]; omega, same⟩
      next stop =>
        cases read
        rw [if_neg stop]
        exact ⟨begun + 1, by omega, by rw [List.length_cons]; omega, rfl⟩

theorem readVarintLoop_of_lengths {bits left shift result : Nat} (full : begun + left = maxBytes)
    (nonempty : bytes ≠ [] ∨ 0 < begun)
    (whole : varintLengths maxBytes begun bytes = some lengths) :
    ∃ value rest, Decoder.readVarintLoop bits left shift result bytes = .ok (value, rest) := by
  induction left generalizing shift result begun bytes with
  | zero =>
    cases bytes with
    | nil =>
      cases begun with
      | zero => simp at nonempty
      | succ begun => cases whole
    | cons byte bytes =>
      rw [varintLengths, if_pos (by omega)] at whole
      cases whole
  | succ left ih =>
    cases bytes with
    | nil =>
      cases begun with
      | zero => simp at nonempty
      | succ begun => cases whole
    | cons byte bytes =>
      rw [varintLengths, if_neg (by omega)] at whole
      rw [readVarintLoop_cons]
      split
      next more =>
        rw [if_pos more] at whole
        exact ih (by omega) (.inr (by omega)) whole
      next => exact ⟨_, _, rfl⟩

end

section

variable {build : Build} {size n : Nat} {bs rest : Bytes} {values : Elements size}
variable {lengths later : List Nat}

theorem readVarint_lengths {value : Nat}
    (read : Decoder.readVarint (8 * wireSize size) bs = .ok (value, rest)) :
    ∃ len, 0 < len ∧ bs.length = len + rest.length ∧ varintLengths (kMaxVarintBytes size) 0 bs =
        (varintLengths (kMaxVarintBytes size) 0 rest).map fun lengths => len :: lengths := by
  obtain ⟨len, pos, split, same⟩ := readVarintLoop_lengths (Nat.zero_add _) read
  exact ⟨len, pos, by omega, same⟩

theorem readVarint_of_lengths {len : Nat}
    (whole : varintLengths (kMaxVarintBytes size) 0 bs = some (len :: lengths)) :
    ∃ value rest, Decoder.readVarint (8 * wireSize size) bs = .ok (value, rest) ∧
      bs.length = len + rest.length ∧
      varintLengths (kMaxVarintBytes size) 0 rest = some lengths := by
  have nonempty : bs ≠ [] := by
    rintro rfl
    cases whole
  obtain ⟨value, rest, read⟩ :
      ∃ value rest, Decoder.readVarint (8 * wireSize size) bs = .ok (value, rest) :=
    readVarintLoop_of_lengths (Nat.zero_add _) (.inl nonempty) whole
  obtain ⟨len', pos, split, same⟩ := readVarint_lengths read
  obtain ⟨later, rest', same'⟩ := Option.map_eq_some_iff.mp (same.symm.trans whole)
  cases same'
  exact ⟨value, rest, read, split, rest'⟩

theorem varintLengths_eq_none {err : String} (nonempty : bs ≠ [])
    (fails : Decoder.readVarint (8 * wireSize size) bs = .error err) :
    varintLengths (kMaxVarintBytes size) 0 bs = none := by
  cases whole : varintLengths (kMaxVarintBytes size) 0 bs with
  | none => rfl
  | some lengths =>
    obtain ⟨value, rest, read⟩ :
        ∃ value rest, Decoder.readVarint (8 * wireSize size) bs = .ok (value, rest) :=
      readVarintLoop_of_lengths (Nat.zero_add _) (.inl nonempty) whole
    cases fails.symm.trans read

theorem elements_lengths (read : elements size n bs = .ok (values, rest)) :
    ∃ taken : List Nat, taken.length = n ∧ n ≤ taken.sum ∧
      bs.length = taken.sum + rest.length ∧ varintLengths (kMaxVarintBytes size) 0 bs =
        (varintLengths (kMaxVarintBytes size) 0 rest).map fun later => taken ++ later := by
  induction n generalizing bs values with
  | zero =>
    cases read
    refine ⟨[], rfl, Nat.le_refl 0, by simp, ?_⟩
    cases varintLengths (kMaxVarintBytes size) 0 rest <;> rfl
  | succ n ih =>
    cases first : Decoder.readVarint (8 * wireSize size) bs with
    | error err =>
      rw [elements_succ_of_error first] at read
      cases read
    | ok pair =>
      rw [elements_succ_of_ok first] at read
      obtain ⟨⟨tail, last⟩, next, same⟩ := Except.map_eq_ok read
      cases same
      obtain ⟨taken, count, long, split, later⟩ := ih next
      obtain ⟨len, pos, split', begins⟩ := readVarint_lengths first
      refine ⟨len :: taken, congrArg (· + 1) count, by rw [List.sum_cons]; omega,
        by rw [List.sum_cons]; omega, ?_⟩
      rw [begins, later]
      cases varintLengths (kMaxVarintBytes size) 0 rest <;> rfl

theorem elements_of_lengths
    (whole : varintLengths (kMaxVarintBytes size) 0 bs = some (lengths ++ later)) :
    ∃ values rest, elements size lengths.length bs = .ok (values, rest) ∧
      bs.length = lengths.sum + rest.length ∧
      varintLengths (kMaxVarintBytes size) 0 rest = some later := by
  induction lengths generalizing bs with
  | nil => exact ⟨[], bs, rfl, by simp, whole⟩
  | cons len lengths ih =>
    obtain ⟨value, mid, first, split, next⟩ := readVarint_of_lengths whole
    obtain ⟨values, rest, read, split', last⟩ := ih next
    refine ⟨element size value :: values, rest, ?_, ?_, last⟩
    · rw [List.length_cons, elements_succ_of_ok first, read]
      rfl
    · rw [List.sum_cons]
      omega

end

/-! ## Buffers -/

theorem dropBytes_dropBytes (n m : Nat) (buffers : List Nat) :
    dropBytes m (dropBytes n buffers) = dropBytes (n + m) buffers := by
  induction buffers generalizing n with
  | nil => rfl
  | cons len buffers ih =>
    rw [dropBytes, dropBytes]
    split
    next inside =>
      rw [dropBytes]
      split
      · rw [if_pos (by omega)]
        congr 1
        omega
      · rw [if_neg (by omega)]
        congr 1
        omega
    next beyond =>
      rw [if_neg (by omega), ih]
      congr 1
      omega

/-- The second cursor is so many bytes ahead of the first. -/
def Ahead (n : Nat) (c d : Cursor) : Prop :=
  c.bytes.length = n + d.bytes.length ∧ ∀ m, dropBytes m d.lengths = dropBytes (n + m) c.lengths

theorem Ahead.refl (c : Cursor) : Ahead 0 c c :=
  ⟨(Nat.zero_add _).symm, fun m => by rw [Nat.zero_add]⟩

theorem Ahead.trans {n m : Nat} {b : Cursor} (first : Ahead n b c) (second : Ahead m c d) :
    Ahead (n + m) b d :=
  ⟨by rw [first.1, second.1, Nat.add_assoc],
    fun k => by rw [second.2, first.2, Nat.add_assoc]⟩

theorem dropBytes_nil_cons (m : Nat) (buffers : List Nat) :
    dropBytes m (0 :: buffers) = dropBytes m buffers := by
  rw [dropBytes, if_neg (Nat.not_lt_zero m), Nat.sub_zero]

theorem ahead_peekNext (chunk : Bytes) (next : List Bytes) :
    Ahead 0 ⟨chunk, next⟩ (peekNext chunk next) := by
  induction next generalizing chunk with
  | nil => cases chunk <;> exact .refl _
  | cons chunk' next ih =>
    cases chunk with
    | nil =>
      obtain ⟨bytes, lengths⟩ := ih chunk'
      refine ⟨bytes, fun m => (lengths m).trans ?_⟩
      exact (dropBytes_nil_cons (0 + m) _).symm
    | cons => exact .refl _

theorem Cursor.ahead_peekBytes (c : Cursor) : Ahead 0 c c.peekBytes :=
  ahead_peekNext c.chunk c.next

theorem peekNext_bytes (chunk : Bytes) (next : List Bytes) :
    (peekNext chunk next).bytes = chunk ++ next.flatten := by
  induction next generalizing chunk with
  | nil => cases chunk <;> rfl
  | cons chunk' next ih =>
    cases chunk with
    | nil => exact ih chunk'
    | cons => rfl

theorem Cursor.peekBytes_bytes (c : Cursor) : c.peekBytes.bytes = c.bytes :=
  peekNext_bytes c.chunk c.next

theorem peekNext_chunk {chunk : Bytes} {next : List Bytes} (some : chunk ++ next.flatten ≠ []) :
    (peekNext chunk next).chunk ≠ [] := by
  induction next generalizing chunk with
  | nil =>
    cases chunk with
    | nil => simp at some
    | cons => simp [peekNext]
  | cons chunk' next ih =>
    cases chunk with
    | nil => exact ih some
    | cons => simp [peekNext]

/-- Where there are bytes, `peekBytes` finds the first buffer that has some. -/
theorem Cursor.lengths_peekBytes (some : c.bytes ≠ []) :
    dropBytes 0 c.lengths = c.peekBytes.lengths := by
  have nonempty : 0 < c.peekBytes.chunk.length :=
    List.length_pos_iff.mpr (peekNext_chunk some)
  rw [← c.ahead_peekBytes.2 0, Cursor.lengths, List.map_cons, dropBytes, if_pos nonempty,
    Nat.sub_zero]

theorem Cursor.ahead_skipNoAdvance {n : Nat} (inside : n ≤ c.length) :
    Ahead n c (c.skipNoAdvance n) := by
  obtain ⟨chunk, next⟩ := c
  change n ≤ chunk.length at inside
  refine ⟨?_, fun m => ?_⟩
  · simp only [Cursor.bytes, Cursor.skipNoAdvance, List.length_append, List.length_drop]
    omega
  · simp only [Cursor.lengths, Cursor.skipNoAdvance, List.map_cons, List.length_drop, dropBytes]
    split
    · rw [if_pos (by omega)]
      congr 1
      omega
    · rw [if_neg (by omega)]
      congr 1
      omega

theorem ahead_tail (byte : UInt8) (chunk : Bytes) (next : List Bytes) :
    Ahead 1 ⟨byte :: chunk, next⟩ ⟨chunk, next⟩ :=
  Cursor.ahead_skipNoAdvance (c := ⟨byte :: chunk, next⟩) (Nat.succ_pos _)

theorem readNext_ahead {chunk : Bytes} {next : List Bytes} {byte : UInt8}
    (read : Cursor.readNext (chunk :: next) = .ok (byte, d)) : Ahead 1 ⟨chunk, next⟩ d := by
  induction next generalizing chunk with
  | nil =>
    cases chunk with
    | nil => cases read
    | cons b chunk =>
      cases read
      exact ahead_tail byte _ _
  | cons chunk' next ih =>
    cases chunk with
    | nil =>
      have first : Ahead 0 ⟨[], chunk' :: next⟩ ⟨chunk', next⟩ :=
        ⟨(Nat.zero_add _).symm, fun m => (dropBytes_nil_cons (0 + m) _).symm ▸ by
          rw [Nat.zero_add]; rfl⟩
      exact first.trans (ih read)
    | cons b chunk =>
      cases read
      exact ahead_tail byte _ _

theorem readVarintSlowLoop_ahead {size left i result value : Nat}
    (read : readVarintSlowLoop size left i result c = .ok (value, d)) : ∃ n, Ahead n c d := by
  induction left generalizing i result c with
  | zero => cases read
  | succ left ih =>
    rw [readVarintSlowLoop] at read
    cases first : c.read with
    | error err =>
      rw [first] at read
      cases read
    | ok pair =>
      obtain ⟨byte, mid⟩ := pair
      rw [first] at read
      have step : Ahead 1 c mid := readNext_ahead first
      simp only at read
      split at read
      · obtain ⟨n, later⟩ := ih read
        exact ⟨1 + n, step.trans later⟩
      · cases read
        exact ⟨1, step⟩

theorem readTrailing_ahead {size count : Nat} {values : Elements size}
    (read : readTrailing size count c = .ok (values, d)) : ∃ n, Ahead n c d := by
  induction count generalizing c values with
  | zero =>
    cases read
    exact ⟨0, .refl _⟩
  | succ count ih =>
    rw [readTrailing] at read
    cases first : readVarintSlow (wireSize size) c with
    | error err =>
      rw [first] at read
      cases read
    | ok pair =>
      rw [first] at read
      obtain ⟨⟨tail, last⟩, next, same⟩ := Except.map_eq_ok read
      cases same
      obtain ⟨n, step⟩ := readVarintSlowLoop_ahead first
      obtain ⟨m, later⟩ := ih next
      exact ⟨n + m, step.trans later⟩

/-! ## A round -/

section

variable {build : Build} {size : Nat}

theorem Cursor.skipNoAdvance_bytes_ne_nil {c : Cursor} {pos : Nat} (inside : pos < c.length) :
    (c.skipNoAdvance pos).bytes ≠ [] := by
  have nonempty : c.chunk.drop pos ≠ [] := by
    rw [Ne, List.drop_eq_nil_iff]
    exact Nat.not_le_of_lt inside
  exact List.append_ne_nil_of_left_ne_nil nonempty _

/-- What the loop over the memory reads, and how much of a round it is; it fails only on an
invalid varint. -/
theorem readPairs_cases (build : Build) (sizes : size = 2 ∨ size = 4 ∨ size = 8) (c : Cursor)
    (left : Nat) {pos : Nat} (inside : pos ≤ c.length) :
    (∃ err, readPairs build size c left pos = .error err ∧
      elements size left (c.skipNoAdvance pos).bytes = .error err ∧
      varintLengths (kMaxVarintBytes size) 0 (c.skipNoAdvance pos).bytes = none) ∨
    ∃ values left' pos', readPairs build size c left pos = .ok (values, left', pos') ∧
      pos' ≤ c.length ∧ left = values.length + left' ∧
      elements size values.length (c.skipNoAdvance pos).bytes =
        .ok (values, (c.skipNoAdvance pos').bytes) ∧
      ∀ lengths, varintLengths (kMaxVarintBytes size) 0 (c.skipNoAdvance pos).bytes =
          some lengths → lengths.length < left →
        roundTakes (kMaxVarintBytes size) (c.length - pos) lengths =
          values.length + (c.length - pos') := by
  have wide := wireSize_wide sizes
  have atLeast := kMaxVarintBytes_pos sizes
  fun_induction readPairs build size c left pos with
  | case1 left pos room err first =>
    have room' : pos + kMaxVarintBytes size ≤ c.length := by omega
    rcases readUnrolled_cases build wide room' with
      ⟨err', failed, fails⟩ | ⟨value, read, done, _, _⟩
    · cases first.symm.trans failed
      exact .inl ⟨err, rfl, elements_succ_of_error fails,
        varintLengths_eq_none (Cursor.skipNoAdvance_bytes_ne_nil (by omega)) fails⟩
    · cases first.symm.trans done
  | case2 left pos room valueA readA first err second =>
    have room' : pos + kMaxVarintBytes size ≤ c.length := by omega
    rcases readUnrolled_cases build wide room' with
      ⟨err', failed, fails⟩ | ⟨value, read, done, bound, reads⟩
    · cases first.symm.trans failed
    · cases first.symm.trans done
      change readA ≤ kMaxVarintBytes size at bound
      have room'' : pos + readA + kMaxVarintBytes size ≤ c.length := by omega
      rcases readUnrolled_cases build wide room'' with
        ⟨err', failed, fails⟩ | ⟨value, read, done, _, _⟩
      · cases second.symm.trans failed
        obtain ⟨a, _, _, same⟩ := readVarint_lengths reads
        refine .inl ⟨err, rfl, ?_, ?_⟩
        · rw [elements_succ_of_ok reads, elements_succ_of_error fails]
          rfl
        · rw [same, varintLengths_eq_none (Cursor.skipNoAdvance_bytes_ne_nil (by omega)) fails]
          rfl
      · cases second.symm.trans done
  | case3 left pos room valueA readA first valueB readB second ih =>
    have room' : pos + kMaxVarintBytes size ≤ c.length := by omega
    rcases readUnrolled_cases build wide room' with
      ⟨err', failed, fails⟩ | ⟨value, read, done, bound, reads⟩
    · cases first.symm.trans failed
    · cases first.symm.trans done
      change readA ≤ kMaxVarintBytes size at bound
      have room'' : pos + readA + kMaxVarintBytes size ≤ c.length := by omega
      rcases readUnrolled_cases build wide room'' with
        ⟨err', failed, fails⟩ | ⟨value, read, done, bound', reads'⟩
      · cases second.symm.trans failed
      · cases second.symm.trans done
        change readB ≤ kMaxVarintBytes size at bound'
        have two (n : Nat) : elements size (n + 2) (c.skipNoAdvance pos).bytes =
            (elements size n (c.skipNoAdvance (pos + readA + readB)).bytes).map
              fun (values, rest) =>
                (element size valueA :: element size valueB :: values, rest) := by
          rw [elements_succ_of_ok reads, elements_succ_of_ok reads']
          cases elements size n (c.skipNoAdvance (pos + readA + readB)).bytes <;> rfl
        obtain ⟨a, _, splitA, same⟩ := readVarint_lengths reads
        obtain ⟨b, _, splitB, same'⟩ := readVarint_lengths reads'
        rcases ih (by omega) with ⟨err, failed, fails, invalid⟩ |
          ⟨values, left', pos', done, inside', count, read, takes⟩
        · refine .inl ⟨err, by rw [failed]; rfl, by rw [two, fails]; rfl, ?_⟩
          rw [same, same', invalid]
          rfl
        · refine .inr ⟨_, left', pos', by rw [done]; rfl, inside', by
            simp only [List.length_cons]; omega, ?_, fun lengths whole fewer => ?_⟩
          · rw [List.length_cons, List.length_cons, two, read]
            rfl
          · rw [same, same'] at whole
            obtain ⟨_, whole', rfl⟩ := Option.map_eq_some_iff.mp whole
            obtain ⟨lengths, whole'', rfl⟩ := Option.map_eq_some_iff.mp whole'
            have stepA := (Cursor.ahead_skipNoAdvance (c := c) (n := pos) inside).1
            have stepB := (Cursor.ahead_skipNoAdvance (c := c) (n := pos + readA) (by omega)).1
            have stepC := (Cursor.ahead_skipNoAdvance (c := c) (n := pos + readA + readB)
              (by omega)).1
            have rest := takes lengths whole'' (by simp only [List.length_cons] at fewer; omega)
            have len : c.length - pos - a - b = c.length - (pos + readA + readB) := by omega
            rw [roundTakes, if_pos (by omega), len, rest]
            simp only [List.length_cons]
            omega
  | case4 left pos short =>
    refine .inr ⟨[], left + 2, pos, rfl, inside, by simp, rfl, fun lengths _ _ => ?_⟩
    match lengths with
    | [] => simp [roundTakes]
    | [_] => simp [roundTakes]
    | a :: b :: lengths =>
      rw [roundTakes, if_neg (by omega)]
      simp
  | case5 left pos few =>
    refine .inr ⟨[], left, pos, rfl, inside, by simp, rfl, fun lengths _ fewer => ?_⟩
    match left, few with
    | 0, _ => omega
    | 1, _ =>
      obtain rfl : lengths = [] := List.length_eq_zero_iff.mp (by omega)
      simp [roundTakes]
    | left + 2, few => exact absurd rfl (few left)

theorem readRound_cases (build : Build) (sizes : size = 2 ∨ size = 4 ∨ size = 8) {c : Cursor}
    {left : Nat} (more : 0 < left) :
    (∃ err, readRound build size left c = .error err ∧ elements size left c.bytes = .error err ∧
      ∀ lengths, varintLengths (kMaxVarintBytes size) 0 c.bytes = some lengths →
        lengths.length < left →
        lengths.length < roundTakes (kMaxVarintBytes size) c.peekBytes.length lengths) ∨
    ∃ values left' d, readRound build size left c = .ok (values, left', d) ∧
      left = values.length + left' ∧ elements size values.length c.bytes = .ok (values, d.bytes) ∧
      (∃ n, Ahead n c d) ∧
      (0 < left' → ∀ lengths, varintLengths (kMaxVarintBytes size) 0 c.bytes = some lengths →
        lengths.length < left →
        roundTakes (kMaxVarintBytes size) c.peekBytes.length lengths = values.length) ∧
      (values = [] → c.bytes = []) := by
  have zero : (c.peekBytes.skipNoAdvance 0).bytes = c.bytes := c.peekBytes_bytes
  have pairs := readPairs_cases build sizes c.peekBytes left (Nat.zero_le _)
  rw [zero, Nat.sub_zero] at pairs
  rcases pairs with ⟨err, failed, fails, invalid⟩ |
    ⟨values, left', consumed, done, inside, count, read, takes⟩
  · refine .inl ⟨err, by simp only [readRound, failed], fails, fun lengths whole => ?_⟩
    cases invalid.symm.trans whole
  · obtain ⟨trail, isTrail⟩ : ∃ trail, trail = min left' (c.peekBytes.length - consumed) :=
      ⟨_, rfl⟩
    have round : readRound build size left c =
        (readTrailing size trail (c.peekBytes.skipNoAdvance consumed)).map
          fun (trailing, d) => (values ++ trailing, left' - trail, d) := by
      simp only [readRound, done, isTrail]
    have trailing : flattenAll (readTrailing size trail (c.peekBytes.skipNoAdvance consumed)) =
        elements size trail (c.peekBytes.skipNoAdvance consumed).bytes :=
      flattenAll_readTrailing _ _
    have step := Cursor.ahead_skipNoAdvance inside
    obtain ⟨taken, takenCount, _, _, begins⟩ := elements_lengths read
    cases last : readTrailing size trail (c.peekBytes.skipNoAdvance consumed) with
    | error err =>
      rw [last] at round trailing
      refine .inl ⟨err, round, ?_, fun lengths whole fewer => ?_⟩
      · obtain ⟨beyond, rfl⟩ : ∃ beyond, left' = trail + beyond :=
          ⟨left' - trail, by omega⟩
        rw [count, elements_add read, elements_add_of_error trailing.symm]
        rfl
      · rw [takes lengths whole fewer]
        rw [begins] at whole
        obtain ⟨later, whole', rfl⟩ := Option.map_eq_some_iff.mp whole
        rw [List.length_append, takenCount] at fewer ⊢
        by_cases enough : trail ≤ later.length
        · rw [← List.take_append_drop trail later] at whole'
          obtain ⟨_, _, reads, _⟩ := elements_of_lengths whole'
          rw [List.length_take_of_le enough, ← trailing] at reads
          cases reads
        · omega
    | ok pair =>
      obtain ⟨ws, d⟩ := pair
      rw [last] at round trailing
      have long := elements_length trailing.symm
      obtain ⟨n, ahead⟩ := readTrailing_ahead last
      refine .inr ⟨_, _, _, round, ?_, ?_, ⟨_, c.ahead_peekBytes.trans (step.trans ahead)⟩,
        fun rest lengths whole fewer => ?_, fun none => ?_⟩
      · rw [List.length_append, long]
        omega
      · rw [List.length_append, long, elements_add read, ← trailing]
        rfl
      · rw [takes lengths whole fewer, List.length_append, long]
        omega
      · obtain ⟨rfl, rfl⟩ := List.append_eq_nil_iff.mp none
        have same : c.bytes = (c.peekBytes.skipNoAdvance consumed).bytes :=
          (Prod.mk.inj (Except.ok.inj read)).2
        have peek := c.ahead_peekBytes.1
        have behind := step.1
        rw [← same] at behind
        by_contra some
        have nonempty : 0 < c.peekBytes.length :=
          List.length_pos_iff.mpr (peekNext_chunk some)
        rw [List.length_nil] at long count
        omega

end

/-! ## The outer loop -/

section

variable {build : Build} {size : Nat}

variable {c : Cursor} {left : Nat}

theorem runsOut_iff_of_round (sizes : size = 2 ∨ size = 4 ∨ size = 8) {d : Cursor}
    {left' : Nat} {values : Elements size} (more : 0 < left)
    (round : readRound build size left c = .ok (values, left', d)) :
    RunsOut size left c ↔ RunsOut size left' d := by
  rcases readRound_cases build (c := c) sizes more with
    ⟨err, failed, _⟩ | ⟨values', left'', d', done, count, read, ⟨n, ahead⟩, takes, _⟩
  · cases round.symm.trans failed
  cases round.symm.trans done
  obtain ⟨taken, takenCount, long, split, begins⟩ := elements_lengths read
  obtain rfl : n = taken.sum := by
    have := ahead.1
    omega
  have buffers : dropBytes 0 d.lengths = dropBytes taken.sum (dropBytes 0 c.lengths) := by
    rw [ahead.2, dropBytes_dropBytes, Nat.zero_add, Nat.add_zero]
  by_cases empty : c.bytes = []
  · rw [empty, List.length_nil] at split
    have none : d.bytes = [] := List.length_eq_zero_iff.mp (by omega)
    constructor
    · exact fun _ => ⟨[], by rw [none]; rfl, by rw [List.length_nil]; omega, .done⟩
    · exact fun _ => ⟨[], by rw [empty]; rfl, more, .done⟩
  · have peek := Cursor.lengths_peekBytes empty
    constructor
    · rintro ⟨lengths, whole, fewer, ends⟩
      obtain ⟨later, whole', same⟩ := Option.map_eq_some_iff.mp (begins.symm.trans whole)
      have fewer' := fewer
      rw [← same, List.length_append] at fewer'
      refine ⟨later, whole', by omega, ?_⟩
      have takes' := takes (by omega) lengths whole fewer
      rw [peek] at buffers ends
      rw [buffers]
      cases ends with
      | done =>
        have none := varintLengths_sum whole
        rw [List.sum_nil] at none
        exact absurd (List.length_eq_zero_iff.mp (by omega)) empty
      | round count' some takes'' inside rest =>
        obtain rfl : count' = values.length := takes''.symm.trans takes'
        rw [← same, ← takenCount, List.take_left, List.drop_left] at rest
        exact rest
    · rintro ⟨later, whole, fewer, ends⟩
      rw [whole] at begins
      have fewer' : (taken ++ later).length < left := by
        rw [List.length_append]
        omega
      refine ⟨taken ++ later, begins, fewer', ?_⟩
      have takes' := takes (by omega) _ begins fewer'
      rw [peek, Cursor.lengths, List.map_cons]
      refine .round values.length ?_ takes' ?_ ?_
      · intro none
        have all := varintLengths_sum begins
        simp only [none, List.sum_nil] at all
        exact absurd (List.length_eq_zero_iff.mp (by omega)) empty
      · rw [List.length_append]
        omega
      · rw [← takenCount, List.take_left, List.drop_left]
        rw [buffers, peek] at ends
        exact ends

theorem readRound_of_runsOut (build : Build) (sizes : size = 2 ∨ size = 4 ∨ size = 8)
    (out : RunsOut size left c) : ∃ result, readRound build size left c = .ok result := by
  obtain ⟨lengths, whole, fewer, ends⟩ := out
  rcases readRound_cases build (c := c) sizes (Nat.zero_lt_of_lt fewer) with
    ⟨err, failed, _, beyond⟩ | ⟨values, left', d, done, _⟩
  · have beyond' := beyond lengths whole fewer
    exfalso
    by_cases empty : c.bytes = []
    · have peek := c.peekBytes_bytes
      rw [empty] at whole peek
      cases whole
      have none : c.peekBytes.chunk = [] := (List.append_eq_nil_iff.mp peek).1
      rw [Cursor.length, none] at beyond'
      exact absurd beyond' (Nat.lt_irrefl 0)
    · rw [Cursor.lengths_peekBytes empty] at ends
      cases ends with
      | done =>
        have none := varintLengths_sum whole
        rw [List.sum_nil] at none
        exact absurd (List.length_eq_zero_iff.mp (by omega)) empty
      | round count' some takes' inside rest =>
        change roundTakes _ c.peekBytes.length lengths = count' at takes'
        omega
  · exact ⟨_, done⟩

/-- Where the stream runs out between two rounds, the loop does not end. -/
theorem loops_of_runsOut (sizes : size = 2 ∨ size = 4 ∨ size = 8) {fuel : Nat}
    (out : RunsOut size left c) : readEncodedArithmeticVector build size fuel left c = none := by
  induction fuel generalizing left c with
  | zero => rfl
  | succ fuel ih =>
    have more : 0 < left := Nat.zero_lt_of_lt out.choose_spec.2.1
    obtain ⟨⟨values, left', d⟩, round⟩ := readRound_of_runsOut build sizes out
    rw [readEncodedArithmeticVector, if_neg (Nat.ne_of_gt more), round]
    simp only [ih ((runsOut_iff_of_round sizes more round).mp out), Option.map_none]

/-- Elsewhere it does. -/
theorem returns_of_not_runsOut (build : Build) (sizes : size = 2 ∨ size = 4 ∨ size = 8)
    (runs : ¬ RunsOut size left c) :
    ∃ fuel result, readEncodedArithmeticVector build size fuel left c = some result := by
  induction left using Nat.strongRecOn generalizing c with
  | ind left ih =>
    by_cases done : left = 0
    · exact ⟨1, .ok ([], c), by rw [readEncodedArithmeticVector, if_pos done]⟩
    rcases readRound_cases build (c := c) sizes (Nat.pos_of_ne_zero done) with
      ⟨err, failed, _⟩ | ⟨values, left', d, round, count, _, _, _, empty⟩
    · exact ⟨1, .error err, by rw [readEncodedArithmeticVector, if_neg done, failed]⟩
    · cases values with
      | nil => exact absurd ⟨[], by rw [empty rfl]; rfl, Nat.pos_of_ne_zero done, .done⟩ runs
      | cons value values =>
        rw [List.length_cons] at count
        have runs' := mt (runsOut_iff_of_round sizes (Nat.pos_of_ne_zero done) round).mpr runs
        obtain ⟨fuel, result, returned⟩ := ih left' (by omega) runs'
        refine ⟨fuel + 1, result.map fun (more, c) => (value :: values ++ more, c), ?_⟩
        rw [readEncodedArithmeticVector, if_neg done, round]
        simp only [returned, Option.map_some]

theorem flattenAll_readEncodedArithmeticVector (sizes : size = 2 ∨ size = 4 ∨ size = 8)
    {fuel : Nat} {result : Except String (Elements size × Cursor)}
    (returned : readEncodedArithmeticVector build size fuel left c = some result) :
    flattenAll result = elements size left c.bytes := by
  induction fuel generalizing left c result with
  | zero => cases returned
  | succ fuel ih =>
    rw [readEncodedArithmeticVector] at returned
    split at returned
    next done =>
      subst done
      cases returned
      rfl
    next more =>
      rcases readRound_cases build (c := c) sizes (Nat.pos_of_ne_zero more) with
        ⟨err, failed, fails, _⟩ | ⟨values, left', d, round, count, read, _⟩
      · rw [failed] at returned
        cases returned
        exact fails.symm
      · rw [round] at returned
        obtain ⟨rest, returned', rfl⟩ := Option.map_eq_some_iff.mp returned
        rw [count, elements_add read, ← ih returned']
        cases rest <;> rfl

end

/-- For each split of the stream into buffers and each count the loop ends, and then with the
elements that are read one after the other or with their error, unless the stream is made up
of fewer varints and the last of them ends a round. -/
theorem readEncodedArithmeticVector_agrees_iff (build : Build) {size : Nat}
    (sizes : size = 2 ∨ size = 4 ∨ size = 8) (numElements : Nat) (c : Cursor) :
    (∃ fuel result, readEncodedArithmeticVector build size fuel numElements c = some result ∧
      flattenAll result = flattenAll (readElements build size numElements c)) ↔
    ¬ RunsOut size numElements c := by
  constructor
  · rintro ⟨fuel, result, returned, _⟩ out
    cases returned.symm.trans (loops_of_runsOut sizes out)
  · intro runs
    obtain ⟨fuel, result, returned⟩ := returns_of_not_runsOut build sizes runs
    refine ⟨fuel, result, returned, ?_⟩
    rw [flattenAll_readEncodedArithmeticVector sizes returned, flattenAll_readElements sizes]

/-- Three elements of a buffer with two varints of ten bytes each: the two are read from memory,
and the third is looked for at the end of the stream again and again, where `readVarint` throws;
the buffer passes the check of one byte for each element. -/
theorem readEncodedArithmeticVector_loops :
    let bytes : Bytes := List.replicate 9 0xff ++ [0x01] ++ List.replicate 9 0xff ++ [0x01]
    let build : Build := ⟨false, true, true⟩
    3 ≤ bytes.length ∧ flattenAll (readElements build 8 3 ⟨bytes, []⟩) = .error "underflow" ∧
    ¬ ∃ fuel result, readEncodedArithmeticVector build 8 fuel 3 ⟨bytes, []⟩ = some result ∧
      flattenAll result = flattenAll (readElements build 8 3 ⟨bytes, []⟩) := by
  refine ⟨by decide, by decide +kernel, ?_⟩
  rintro ⟨fuel, result, returned, _⟩
  have out : RunsOut 8 3 ⟨List.replicate 9 0xff ++ [0x01] ++ List.replicate 9 0xff ++ [0x01], []⟩ :=
    ⟨[10, 10], by decide, by decide, .round 2 (by simp) (by decide) (by decide) .done⟩
  cases returned.symm.trans (loops_of_runsOut (.inr (.inr rfl)) out)

/-- A vector of three elements in two buffers, the second of which is split. -/
theorem readEncodedArithmeticVector_agrees_split : (∃ fuel result,
      readEncodedArithmeticVector ⟨false, true, true⟩ 4 fuel 3 ⟨[0x02, 0x85], [[], [0x01, 0x07]]⟩ =
        some result ∧
      flattenAll result =
        flattenAll (readElements ⟨false, true, true⟩ 4 3 ⟨[0x02, 0x85], [[], [0x01, 0x07]]⟩)) ↔
    ¬ RunsOut 4 3 ⟨[0x02, 0x85], [[], [0x01, 0x07]]⟩ :=
  readEncodedArithmeticVector_agrees_iff _ (.inr (.inl rfl)) _ _
/-! ## Vectors that were written -/

open Decoder

/-- What the writer of the Compact protocol appends for an element of `size` bytes: it widens an
element of two bytes to a word of four. -/
def writeElement {size : Nat} (value : BitVec (8 * size)) : Bytes :=
  writeVarint (signedIntToZigzag (value.signExtend (8 * wireSize size))).toNat

theorem element_signedIntToZigzag (sizes : size = 2 ∨ size = 4 ∨ size = 8)
    (value : BitVec (8 * size)) :
    element size (signedIntToZigzag (value.signExtend (8 * wireSize size))).toNat = value := by
  have wide : 0 < size ∧ size ≤ wireSize size := by rcases sizes with rfl | rfl | rfl <;> decide
  rw [element, BitVec.ofNat_toNat, BitVec.setWidth_eq,
    zigzagToSignedInt_signedIntToZigzag (by omega)]
  apply BitVec.eq_of_getLsbD_eq
  intro i below
  rw [BitVec.getLsbD_setWidth, BitVec.getLsbD_signExtend]
  simp [below, show i < 8 * wireSize size by omega]

theorem elements_writeElement (sizes : size = 2 ∨ size = 4 ∨ size = 8) (values : Elements size)
    (rest : Bytes) :
    elements size values.length (values.flatMap writeElement ++ rest) = .ok (values, rest) := by
  induction values with
  | nil => rfl
  | cons value values ih =>
    have pos : 0 < 8 * wireSize size := by have := wireSize_wide sizes; omega
    have read := decodes_readVarint pos
      (signedIntToZigzag (value.signExtend (8 * wireSize size))).isLt
      (values.flatMap writeElement ++ rest)
    rw [List.flatMap_cons, List.append_assoc, writeElement, List.length_cons,
      elements_succ_of_ok read, ih, element_signedIntToZigzag sizes]
    rfl

theorem not_runsOut_of_elements {size n : Nat} {c : Cursor} {values : Elements size} {rest : Bytes}
    (read : elements size n c.bytes = .ok (values, rest)) : ¬ RunsOut size n c := by
  rintro ⟨lengths, whole, few, _⟩
  obtain ⟨taken, count, -, -, later⟩ := elements_lengths read
  rw [later] at whole
  obtain ⟨more, -, rfl⟩ := Option.map_eq_some_iff.mp whole
  rw [List.length_append] at few
  omega

/-- A vector of any length that the Compact writer wrote is read back by every build, however it
and what follows are split into buffers. -/
theorem readEncodedArithmeticVector_writeElement (build : Build) {size : Nat}
    (sizes : size = 2 ∨ size = 4 ∨ size = 8) (values : Elements size) (rest : Bytes) {c : Cursor}
    (bytes : c.bytes = values.flatMap writeElement ++ rest) :
    ∃ fuel result, readEncodedArithmeticVector build size fuel values.length c = some result ∧
      flattenAll result = .ok (values, rest) := by
  have read := elements_writeElement sizes values rest
  rw [← bytes] at read
  obtain ⟨fuel, result, returned⟩ :=
    returns_of_not_runsOut build sizes (not_runsOut_of_elements read)
  exact ⟨fuel, result, returned, (flattenAll_readEncodedArithmeticVector sizes returned).trans read⟩

/-- The elements `-300` and `1` in two buffers that part the first of them. -/
theorem readEncodedArithmeticVector_writeElement_split :
    ∃ fuel result, readEncodedArithmeticVector ⟨false, true, true⟩ 2 fuel 2
      ⟨[0xd7], [[0x04, 0x02, 0x09]]⟩ = some result ∧
      flattenAll result = .ok ([0xfed4, 0x0001], [0x09]) :=
  readEncodedArithmeticVector_writeElement _ (.inl rfl) [0xfed4, 0x0001] [0x09] (by decide +kernel)

end FbThrift.Varint
