import Mathlib.Data.Nat.Digits.Defs
import FbThrift.Lib.Decoder
import FbThrift.Lib.Words

/-!
# Reading varints

A varint is a number in base 128, least significant digit first; the high bit of a byte says
that another digit follows.  `readVarintSlow` reads it a byte at a time from a chain of
buffers.  When a buffer has room for the longest varint, `readVarint` reads from its memory
instead, with code that is unrolled or works on eight bytes at once, depending on the CPU.
`Decoder.readVarint` is the reader of the protocols, over the bytes of the whole chain.
-/

namespace FbThrift.Varint

open Words

/-! ## Cursors -/

/-- What is left of the current buffer of a chain, and the buffers behind it. -/
structure Cursor where
  chunk : Bytes
  next : List Bytes

namespace Cursor

/-- The bytes from the cursor to the end of the chain. -/
def bytes (c : Cursor) : Bytes := c.chunk ++ c.next.flatten

def length (c : Cursor) : Nat := c.chunk.length

/-- The memory at the cursor, as far as the buffer goes. -/
def data (c : Cursor) (i : Nat) : UInt8 := c.chunk.getD i 0

def skipNoAdvance (c : Cursor) (n : Nat) : Cursor := { c with chunk := c.chunk.drop n }

/-- The first byte of the buffers that have one. -/
def readNext : List Bytes → Except String (UInt8 × Cursor)
  | [] => .error "underflow"
  | [] :: next => readNext next
  | (byte :: chunk) :: next => .ok (byte, ⟨chunk, next⟩)

/-- `read<uint8_t>()`. -/
def read (c : Cursor) : Except String (UInt8 × Cursor) := readNext (c.chunk :: c.next)

end Cursor

/-! ## One byte at a time -/

/-- `byte & 0x7f`. -/
def digit (byte : UInt8) : Nat := (byte &&& 0x7f).toNat

/-- `byte & 0x80`. -/
def continues (byte : UInt8) : Bool := byte &&& 0x80 != 0

def throwInvalidVarint {α : Type} : Except String α := .error "invalid varint read"

/-- The loop of `readVarintSlow` for a type of `size` bytes, with `left` iterations to go. -/
def readVarintSlowLoop (size : Nat) : Nat → Nat → Nat → Cursor → Except String (Nat × Cursor)
  | 0, _, _, _ => throwInvalidVarint
  | left + 1, i, result, c =>
    match c.read with
    | .error err => .error err
    | .ok (byte, c) =>
      let result := result ||| wrap (8 * size) (digit byte <<< (i * 7))
      if continues byte then readVarintSlowLoop size left (i + 1) result c
      else .ok (result, c)

def readVarintSlow (size : Nat) (c : Cursor) : Except String (Nat × Cursor) :=
  readVarintSlowLoop size (Decoder.varintMaxBytes (8 * size)) 0 0 c

/-! ## Unrolled decoders -/

/-- A line of the unrolled decoders: adds the digit at `p + i` and goes on if another one
follows.  The result is a `uint64_t`; a decoder returns it with the number of bytes read. -/
def readDigit (size : Nat) (p : Nat → UInt8) (i result : Nat)
    (next : Nat → Except String (Nat × Nat)) : Except String (Nat × Nat) :=
  let result := result ||| wrap 64 (digit (p i) <<< (7 * i))
  if continues (p i) then next result else .ok (wrap (8 * size) result, i + 1)

def readVarintMediumSlowUnrolledX86 (size : Nat) (p : Nat → UInt8) : Except String (Nat × Nat) :=
  readDigit size p 0 0 fun result =>
  readDigit size p 1 result fun result =>
  if size ≤ 1 then throwInvalidVarint else
  readDigit size p 2 result fun result =>
  if size ≤ 2 then throwInvalidVarint else
  readDigit size p 3 result fun result =>
  readDigit size p 4 result fun result =>
  if size ≤ 4 then throwInvalidVarint else
  readDigit size p 5 result fun result =>
  readDigit size p 6 result fun result =>
  readDigit size p 7 result fun result =>
  readDigit size p 8 result fun result =>
  readDigit size p 9 result fun _ =>
  throwInvalidVarint

/-- The last digit that a type has room for: no other may follow, and it must not be above
the limit, which is `0x7f` where the source has none. -/
def readLastDigit (size : Nat) (p : Nat → UInt8) (i acc : Nat) (mask : UInt8) (limit : Nat) :
    Except String (Nat × Nat) :=
  let acc := acc ||| wrap 64 ((p i &&& mask).toNat <<< (7 * i))
  if continues (p i) then throwInvalidVarint
  else if limit < digit (p i) then throwInvalidVarint
  else .ok (wrap (8 * size) acc, i + 1)

def readVarintMediumSlowUnrolledAarch64 (size : Nat) (p : Nat → UInt8) :
    Except String (Nat × Nat) :=
  readDigit size p 0 0 fun acc =>
  if size = 1 then readLastDigit size p 1 acc 0x7f 0x01 else
  readDigit size p 1 acc fun acc =>
  if size = 2 then readLastDigit size p 2 acc 0x7f 0x03 else
  readDigit size p 2 acc fun acc =>
  readDigit size p 3 acc fun acc =>
  if size = 4 then readLastDigit size p 4 acc 0x7f 0x7f else
  readDigit size p 4 acc fun acc =>
  readDigit size p 5 acc fun acc =>
  readDigit size p 6 acc fun acc =>
  readDigit size p 7 acc fun acc =>
  readDigit size p 8 acc fun acc =>
  readLastDigit size p 9 acc 0x01 0x7f

/-! ## Eight bytes at once -/

/-- The number in the first two bytes, and whether it ends there. -/
def tryReadFirstTwoBytesU64 (p : Nat → UInt8) : Nat × Bool :=
  ((digit (p 1) <<< 7) ||| digit (p 0), !continues (p 1))

/-- `loadUnaligned<uint64_t>`. -/
def loadUnaligned (p : Nat → UInt8) (i : Nat) : Nat :=
  loadLE [p i, p (i + 1), p (i + 2), p (i + 3), p (i + 4), p (i + 5), p (i + 6), p (i + 7)]

def kDataBitMask : Nat := 0x7F7F7F7F7F7F7F7F

/-! The vectors of SSE have sixteen bytes or eight lanes of two bytes, the lowest first. -/

/-- `_mm_set_epi64x`. -/
def setEpi64x (e1 e0 : Nat) : Bytes := storeLE 8 e0 ++ storeLE 8 e1

/-- `_mm_set_epi16` and `_mm_set_epi8`, whose arguments start with the highest. -/
def setEpi {α : Type} (es : List α) : List α := es.reverse

/-- `_mm_cvtepu8_epi16`. -/
def cvtepu8Epi16 (a : Bytes) : List UInt16 := (a.take 8).map UInt8.toUInt16

/-- `_mm_mullo_epi16`. -/
def mulloEpi16 (a b : List UInt16) : List UInt16 := List.zipWith (· * ·) a b

/-- The bytes of lanes. -/
def laneBytes (a : List UInt16) : Bytes := a.flatMap fun lane => storeLE 2 lane.toNat

/-- `_mm_shuffle_epi8`. -/
def shuffleEpi8 (a : Bytes) (b : List Int) : Bytes :=
  b.map fun i => if i < 0 then 0 else a.getD (i.toNat % 16) 0

/-- `_mm_extract_epi64`. -/
def extractEpi64 (a : Bytes) (imm : Nat) : Nat := loadLE ((a.drop (8 * imm)).take 8)

def readContiguousVarintMediumSlowU64SIMD (p : Nat → UInt8) : Except String (Nat × Nat) :=
  let (result, done) := tryReadFirstTwoBytesU64 p
  if done then .ok (result, 2) else
  let bits := loadUnaligned p 2
  let bitsOnlyContinuations := bits ||| kDataBitMask
  let lastContinuationBitSet := wrap 64 (bitsOnlyContinuations + 1)
  if lastContinuationBitSet = 0 then throwInvalidVarint else
  let intBytes := countrZero 64 lastContinuationBitSet / 8 + 1
  let solelyLastContinuationBitSet :=
    lastContinuationBitSet &&& wrap 64 (2 ^ 64 - 1 - lastContinuationBitSet + 1)
  let dataAndContinuationBits := bits &&& (solelyLastContinuationBitSet - 1)
  let dataBits64 := dataAndContinuationBits &&& kDataBitMask
  let dataBits := setEpi64x 0 dataBits64
  let alternatingZeros := cvtepu8Epi16 dataBits
  let shifted := mulloEpi16 alternatingZeros (setEpi [128, 1, 2, 4, 8, 16, 32, 64])
  let shuffled := shuffleEpi8 (laneBytes shifted)
    (setEpi [12, 10, 8, 6, 4, 2, 0, -1, 14, 9, 7, 5, 3, 1, -1, -1])
  let highData1 := extractEpi64 shuffled 0
  let highData2 := extractEpi64 shuffled 1
  .ok (wrap 64 (result + highData1 + highData2), 2 + intBytes)

def readContiguousVarintMediumSlowU64BMI2 (p : Nat → UInt8) : Except String (Nat × Nat) :=
  let (result, done) := tryReadFirstTwoBytesU64 p
  if done then .ok (result, 2) else
  let bits := loadUnaligned p 2
  let allDataBitsSet := bits ||| kDataBitMask
  let oneInLowestUnsetContinuationBitWithTrailingBitsZero := wrap 64 (allDataBitsSet + 1)
  if oneInLowestUnsetContinuationBitWithTrailingBitsZero = 0 then throwInvalidVarint else
  let maskShift := countrZero 64 oneInLowestUnsetContinuationBitWithTrailingBitsZero
  let intBytes := (maskShift >>> 3) + 1
  let mask := 1 <<< maskShift - 1
  let highBits := pext 64 (bits &&& mask) kDataBitMask
  .ok (result ||| wrap 64 (highBits <<< 14), 2 + intBytes)

/-! ## The dispatch -/

/-- What the code is compiled for. -/
structure Build where
  isArchAArch64 : Bool
  bmi2 : Bool
  simd : Bool

def readVarintMediumSlowUnrolled (build : Build) (size : Nat) (p : Nat → UInt8) :
    Except String (Nat × Nat) :=
  if build.isArchAArch64 then readVarintMediumSlowUnrolledAarch64 size p
  else readVarintMediumSlowUnrolledX86 size p

/-- The decoder of a type of `size` bytes for memory that holds the longest varint. -/
def readContiguous (build : Build) (size : Nat) (p : Nat → UInt8) : Except String (Nat × Nat) :=
  if size ≤ 4 then readVarintMediumSlowUnrolled build size p
  else
    (if build.bmi2 then readContiguousVarintMediumSlowU64BMI2 p
      else if build.simd then readContiguousVarintMediumSlowU64SIMD p
      else readVarintMediumSlowUnrolled build 8 p).map fun (result, bytesRead) =>
        (wrap (8 * size) result, bytesRead)

/-- Moves the cursor behind what was read from memory. -/
def skipRead (c : Cursor) (read : Except String (Nat × Nat)) : Except String (Nat × Cursor) :=
  read.map fun (value, bytesRead) => (value, c.skipNoAdvance bytesRead)

def readVarintMediumSlow (build : Build) (size : Nat) (c : Cursor) : Except String (Nat × Cursor) :=
  if Decoder.varintMaxBytes (8 * size) ≤ c.length then
    skipRead c (readContiguous build size c.data)
  else readVarintSlow size c

def readVarint (build : Build) (size : Nat) (c : Cursor) : Except String (Nat × Cursor) :=
  if 0 < c.length ∧ continues (c.data 0) = false then
    .ok (wrap (8 * size) (c.data 0).toNat, c.skipNoAdvance 1)
  else readVarintMediumSlow build size c

/-! ## Every split of the stream -/

theorem digit_eq (byte : UInt8) : digit byte = byte.toNat % 128 := by
  rw [digit, UInt8.toNat_and]
  exact Nat.and_two_pow_sub_one_eq_mod byte.toNat 7

theorem digit_lt (byte : UInt8) : digit byte < 128 := by
  rw [digit_eq]
  exact Nat.mod_lt _ (by omega)

theorem continues_eq (byte : UInt8) : continues byte = decide (128 ≤ byte.toNat) := by
  have bound := byte.toNat_lt
  have bit : (byte &&& 0x80).toNat = (byte.toNat.testBit 7).toNat * 128 := by
    rw [UInt8.toNat_and]
    exact Nat.and_two_pow byte.toNat 7
  rw [Nat.testBit_eq_decide_div_mod_eq] at bit
  rw [continues, Bool.eq_iff_iff, bne_iff_ne, decide_eq_true_eq, ne_eq, ← UInt8.toNat_inj, bit]
  by_cases high : 128 ≤ byte.toNat
  · have one : byte.toNat / 128 % 2 = 1 := by omega
    simp [high, one]
  · have zero : byte.toNat / 128 % 2 = 0 := by omega
    simp [high, zero]

theorem not_continues {byte : UInt8} : continues byte = false ↔ byte.toNat < 128 := by
  rw [continues_eq, decide_eq_false_iff_not]
  omega

/-- What the loop of `Decoder.readVarint` does with a byte. -/
theorem readVarintLoop_cons (bits left shift result : Nat) (byte : UInt8) (rest : Bytes) :
    Decoder.readVarintLoop bits (left + 1) shift result (byte :: rest) = if continues byte then
        Decoder.readVarintLoop bits left (shift + 7)
          (result ||| wrap bits (digit byte <<< shift)) rest
      else .ok (result ||| wrap bits (digit byte <<< shift), rest) := by
  have first : Decoder.readByte (byte :: rest) = .ok (byte, rest) := rfl
  rw [Decoder.readVarintLoop, Run.bind_of_ok first, digit_eq, wrap, continues_eq]
  by_cases high : 128 ≤ byte.toNat
  · simp [high, Nat.not_lt.mpr high]
  · simp [high, Nat.not_le.mp high]

theorem readVarintLoop_nil (bits left shift result : Nat) :
    Decoder.readVarintLoop bits (left + 1) shift result [] = .error "underflow" := by
  have first : Decoder.readByte [] = .error "underflow" := rfl
  rw [Decoder.readVarintLoop, Run.bind_of_error first]

/-- The value and what is left of the stream, however it is split. -/
def flatten (read : Except String (Nat × Cursor)) : Except String (Nat × Bytes) :=
  read.map fun (value, c) => (value, c.bytes)

namespace Cursor

theorem readNext_cases (chunks : List Bytes) :
    (chunks.flatten = [] ∧ readNext chunks = .error "underflow") ∨
      ∃ byte c, readNext chunks = .ok (byte, c) ∧ chunks.flatten = byte :: c.bytes := by
  induction chunks with
  | nil => exact .inl ⟨rfl, rfl⟩
  | cons chunk next ih =>
    cases chunk with
    | nil => exact ih
    | cons byte chunk => exact .inr ⟨byte, ⟨chunk, next⟩, rfl, rfl⟩

theorem read_cases (c : Cursor) : (c.bytes = [] ∧ c.read = .error "underflow") ∨
      ∃ byte d, c.read = .ok (byte, d) ∧ c.bytes = byte :: d.bytes :=
  readNext_cases (c.chunk :: c.next)

end Cursor

theorem flatten_readVarintSlowLoop (size left i result : Nat) (c : Cursor) :
    flatten (readVarintSlowLoop size left i result c) =
      Decoder.readVarintLoop (8 * size) left (i * 7) result c.bytes := by
  induction left generalizing i result c with
  | zero => rfl
  | succ left ih =>
    rcases c.read_cases with ⟨empty, read⟩ | ⟨byte, d, read, first⟩
    · rw [readVarintSlowLoop, read, empty, readVarintLoop_nil]
      rfl
    · rw [readVarintSlowLoop, read, first, readVarintLoop_cons]
      simp only
      split
      · rw [ih, Nat.add_mul i 1 7]
      · rfl

/-- The slow path does not see where the buffers end. -/
theorem flatten_readVarintSlow (size : Nat) (c : Cursor) :
    flatten (readVarintSlow size c) = Decoder.readVarint (8 * size) c.bytes := by
  rw [readVarintSlow, flatten_readVarintSlowLoop, Nat.zero_mul]
  rfl

/-! ## Unrolled decoders -/

/-- The value and what is left of the bytes. -/
def dropRead (bs : Bytes) (read : Except String (Nat × Nat)) : Except String (Nat × Bytes) :=
  read.map fun (value, bytesRead) => (value, bs.drop bytesRead)

@[simp] theorem dropRead_ok (bs : Bytes) (value bytesRead : Nat) :
    dropRead bs (.ok (value, bytesRead)) = .ok (value, bs.drop bytesRead) := rfl

section

variable {bs : Bytes} {size i left : Nat}

/-- A word keeps its low bits when a digit is added to it. -/
theorem wrap_or_wrap (small : size ≤ 8) (result x : Nat) : wrap (8 * size) (result ||| wrap 64 x) =
      wrap (8 * size) result ||| wrap (8 * size) x := by
  rw [wrap, wrap, wrap, wrap, Nat.or_mod_two_pow,
    Nat.mod_mod_of_dvd x (Nat.pow_dvd_pow 2 (by omega : 8 * size ≤ 64))]

theorem drop_eq_getD_cons (short : i < bs.length) : bs.drop i = bs.getD i 0 :: bs.drop (i + 1) := by
  rw [List.drop_eq_getElem_cons short, List.getD_eq_getElem _ _ short]

theorem readDigit_agrees {result : Nat} {next : Nat → Except String (Nat × Nat)}
    (small : size ≤ 8) (short : i < bs.length)
    (rest : continues (bs.getD i 0) = true → ∀ result, dropRead bs (next result) =
      Decoder.readVarintLoop (8 * size) left (7 * (i + 1)) (wrap (8 * size) result)
        (bs.drop (i + 1))) :
    dropRead bs (readDigit size (fun i => bs.getD i 0) i result next) =
      Decoder.readVarintLoop (8 * size) (left + 1) (7 * i) (wrap (8 * size) result)
        (bs.drop i) := by
  rw [drop_eq_getD_cons short, readVarintLoop_cons, readDigit]
  split
  next more =>
    rw [rest more, wrap_or_wrap small]
    rfl
  next =>
    rw [wrap_or_wrap small]
    rfl

theorem readLastDigit_agrees {acc limit : Nat} {mask : UInt8} (small : size ≤ 8)
    (short : i < bs.length) (below : digit (bs.getD i 0) ≤ limit)
    (masked : ∀ byte : UInt8, wrap (8 * size) ((byte &&& mask).toNat <<< (7 * i)) =
      wrap (8 * size) (digit byte <<< (7 * i))) :
    dropRead bs (readLastDigit size (fun i => bs.getD i 0) i acc mask limit) =
      Decoder.readVarintLoop (8 * size) 1 (7 * i) (wrap (8 * size) acc) (bs.drop i) := by
  rw [drop_eq_getD_cons short, readVarintLoop_cons, readLastDigit, if_neg (Nat.not_lt.mpr below)]
  split
  · rfl
  · rw [wrap_or_wrap small, masked]
    rfl

theorem readVarint_eq_loop (size : Nat) (bs : Bytes) : Decoder.readVarint (8 * size) bs =
      Decoder.readVarintLoop (8 * size) (Decoder.varintMaxBytes (8 * size)) (7 * 0)
        (wrap (8 * size) 0) (bs.drop 0) := by
  simp [Decoder.readVarint, wrap]

theorem readVarintMediumSlowUnrolledX86_agrees (sizes : size = 1 ∨ size = 2 ∨ size = 4 ∨ size = 8)
    (enough : Decoder.varintMaxBytes (8 * size) ≤ bs.length) :
    dropRead bs (readVarintMediumSlowUnrolledX86 size fun i => bs.getD i 0) =
      Decoder.readVarint (8 * size) bs := by
  have small : size ≤ 8 := by omega
  rw [readVarint_eq_loop, readVarintMediumSlowUnrolledX86]
  rcases sizes with rfl | rfl | rfl | rfl
  · change 2 ≤ bs.length at enough
    refine readDigit_agrees small (by omega) fun _ _ => ?_
    refine readDigit_agrees small (by omega) fun _ _ => ?_
    rfl
  · change 3 ≤ bs.length at enough
    iterate 2 refine readDigit_agrees small (by omega) fun _ _ => ?_
    rw [if_neg (by omega)]
    refine readDigit_agrees small (by omega) fun _ _ => ?_
    rfl
  · change 5 ≤ bs.length at enough
    iterate 2 refine readDigit_agrees small (by omega) fun _ _ => ?_
    rw [if_neg (by omega)]
    refine readDigit_agrees small (by omega) fun _ _ => ?_
    rw [if_neg (by omega)]
    iterate 2 refine readDigit_agrees small (by omega) fun _ _ => ?_
    rfl
  · change 10 ≤ bs.length at enough
    iterate 2 refine readDigit_agrees small (by omega) fun _ _ => ?_
    rw [if_neg (by omega)]
    refine readDigit_agrees small (by omega) fun _ _ => ?_
    rw [if_neg (by omega)]
    iterate 2 refine readDigit_agrees small (by omega) fun _ _ => ?_
    rw [if_neg (by omega)]
    iterate 5 refine readDigit_agrees small (by omega) fun _ _ => ?_
    rfl

/-- The last digit of a narrow type is within its limit, if there is one. -/
def NarrowFits (size : Nat) (p : Nat → UInt8) : Prop :=
  (size = 1 → continues (p 0) = true → digit (p 1) ≤ 0x01) ∧
  (size = 2 → continues (p 0) = true → continues (p 1) = true → digit (p 2) ≤ 0x03)

theorem NarrowFits.of_wide (wide : size = 4 ∨ size = 8) (p : Nat → UInt8) : NarrowFits size p :=
  ⟨by omega, by omega⟩

theorem readVarintMediumSlowUnrolledAarch64_agrees
    (sizes : size = 1 ∨ size = 2 ∨ size = 4 ∨ size = 8)
    (narrow : NarrowFits size fun i => bs.getD i 0)
    (enough : Decoder.varintMaxBytes (8 * size) ≤ bs.length) :
    dropRead bs (readVarintMediumSlowUnrolledAarch64 size fun i => bs.getD i 0) =
      Decoder.readVarint (8 * size) bs := by
  have small : size ≤ 8 := by omega
  have unlimited (i : Nat) : digit (bs.getD i 0) ≤ 0x7f := Nat.le_of_lt_succ (digit_lt _)
  rw [readVarint_eq_loop, readVarintMediumSlowUnrolledAarch64]
  rcases sizes with rfl | rfl | rfl | rfl
  · change 2 ≤ bs.length at enough
    refine readDigit_agrees small (by omega) fun more _ => ?_
    rw [if_pos rfl]
    exact readLastDigit_agrees small (by omega) (narrow.1 rfl more) fun _ => rfl
  · change 3 ≤ bs.length at enough
    refine readDigit_agrees small (by omega) fun more _ => ?_
    rw [if_neg (by omega)]
    refine readDigit_agrees small (by omega) fun more' _ => ?_
    rw [if_pos rfl]
    exact readLastDigit_agrees small (by omega) (narrow.2 rfl more more') fun _ => rfl
  · change 5 ≤ bs.length at enough
    refine readDigit_agrees small (by omega) fun _ _ => ?_
    rw [if_neg (by omega)]
    refine readDigit_agrees small (by omega) fun _ _ => ?_
    rw [if_neg (by omega)]
    iterate 2 refine readDigit_agrees small (by omega) fun _ _ => ?_
    rw [if_pos rfl]
    exact readLastDigit_agrees small (by omega) (unlimited 4) fun _ => rfl
  · change 10 ≤ bs.length at enough
    refine readDigit_agrees small (by omega) fun _ _ => ?_
    rw [if_neg (by omega)]
    refine readDigit_agrees small (by omega) fun _ _ => ?_
    rw [if_neg (by omega)]
    iterate 2 refine readDigit_agrees small (by omega) fun _ _ => ?_
    rw [if_neg (by omega)]
    iterate 5 refine readDigit_agrees small (by omega) fun _ _ => ?_
    refine readLastDigit_agrees small (by omega) (unlimited 9) fun byte => ?_
    -- only the lowest bit of the tenth digit fits
    have low : (byte &&& 0x01).toNat = byte.toNat % 2 := by
      rw [UInt8.toNat_and]
      exact Nat.and_one_is_mod byte.toNat
    rw [low, digit_eq, wrap, wrap, Nat.shiftLeft_eq, Nat.shiftLeft_eq]
    omega

end

/-! ## Where a varint ends -/

theorem split_continues (bs : Bytes) : (∀ b ∈ bs, continues b = true) ∨
      ∃ cont last rest, bs = cont ++ last :: rest ∧ (∀ b ∈ cont, continues b = true) ∧
        continues last = false := by
  induction bs with
  | nil => exact .inl (by simp)
  | cons b bs ih =>
    cases first : continues b with
    | false => exact .inr ⟨[], b, bs, rfl, by simp, first⟩
    | true =>
      rcases ih with all | ⟨cont, last, rest, rfl, all, stop⟩
      · exact .inl (by simpa [first] using all)
      · exact .inr ⟨b :: cont, last, rest, rfl, by simpa [first] using all, stop⟩

section

variable {bits left shift result : Nat}

/-- A digit is added above the ones before it. -/
theorem or_wrap_shiftLeft (low : result < 2 ^ shift) (le : shift ≤ bits) (d : Nat) :
    result ||| wrap bits (d <<< shift) = wrap bits (result + 2 ^ shift * d) := by
  obtain ⟨m, rfl⟩ := Nat.exists_eq_add_of_le le
  have shifted : d <<< shift % 2 ^ (shift + m) = 2 ^ shift * (d % 2 ^ m) := by
    have split := mod_digit (Nat.two_pow_pos shift) d m
    rw [Nat.zero_add, Nat.zero_add] at split
    rw [Nat.shiftLeft_eq, Nat.mul_comm, split]
  rw [wrap, wrap, shifted, mod_digit low, Nat.or_comm, ← Nat.two_pow_add_eq_or_of_lt low,
    Nat.add_comm]

theorem readVarintLoop_split {cont : Bytes} {last : UInt8} (rest : Bytes)
    (all : ∀ b ∈ cont, continues b = true) (stop : continues last = false)
    (room : cont.length < left) (low : result < 2 ^ shift)
    (fits : shift + 7 * cont.length < bits) :
    Decoder.readVarintLoop bits left shift result (cont ++ last :: rest) =
      .ok (wrap bits (result + 2 ^ shift * Nat.ofDigits 128 ((cont ++ [last]).map digit)),
        rest) := by
  induction cont generalizing left shift result with
  | nil =>
    obtain ⟨left, rfl⟩ : ∃ n, left = n + 1 := ⟨left - 1, by simp at room; omega⟩
    have single : Nat.ofDigits 128 (([] ++ [last]).map digit) = digit last := by simp
    rw [List.nil_append, readVarintLoop_cons, stop, if_neg (by simp), single,
      or_wrap_shiftLeft low (by simp at fits; omega)]
  | cons b cont ih =>
    obtain ⟨left, rfl⟩ : ∃ n, left = n + 1 := ⟨left - 1, by simp at room; omega⟩
    rw [List.length_cons] at room fits
    have digit_small := digit_lt b
    have power : 2 ^ (shift + 7) = 2 ^ shift * 128 := Nat.pow_add 2 shift 7
    have next : result + 2 ^ shift * digit b < 2 ^ (shift + 7) := by
      have := Nat.mul_le_mul_left (2 ^ shift) (show digit b ≤ 127 by omega)
      omega
    have whole : wrap bits (result + 2 ^ shift * digit b) = result + 2 ^ shift * digit b :=
      Nat.mod_eq_of_lt (Nat.lt_of_lt_of_le next (Nat.pow_le_pow_right (by omega) (by omega)))
    rw [List.cons_append, readVarintLoop_cons, all b (by simp), if_pos rfl,
      or_wrap_shiftLeft low (by omega), whole,
      ih (fun c member => all c (by simp [member])) (by omega) next (by omega), power,
      List.cons_append, List.map_cons, Nat.ofDigits_cons]
    congr 3
    ring

/-- A varint that does not end in time is rejected. -/
theorem readVarintLoop_continues {cont : Bytes} (rest : Bytes)
    (all : ∀ b ∈ cont, continues b = true) :
    Decoder.readVarintLoop bits cont.length shift result (cont ++ rest) =
      .error "invalid varint read" := by
  induction cont generalizing shift result with
  | nil => rfl
  | cons b cont ih =>
    rw [List.cons_append, List.length_cons, readVarintLoop_cons, all b (by simp), if_pos rfl,
      ih fun c member => all c (by simp [member])]

end

/-! ## The continuation bits of a word -/

section

variable {n : Nat}

theorem or_low (small : n < 128) : n ||| 0x7f = 0x7f := by
  revert n
  decide

theorem or_high (high : 128 ≤ n) (small : n < 256) : n ||| 0x7f = 0xff := by
  have split : n = (n - 128) + 2 ^ 7 * 1 := by omega
  have mask : 0x7f = 0x7f + 2 ^ 7 * 0 := rfl
  rw [split, mask, or_digit (by omega) (by omega), or_low (by omega)]
  rfl

/-- With all data bits set the continuation bits carry. -/
theorem or_septets_cons (b : UInt8) (bs : Bytes) :
    loadLE (b :: bs) ||| repeatByte 0x7f (b :: bs).length =
      (b.toNat ||| 0x7f) + 256 * (loadLE bs ||| repeatByte 0x7f bs.length) :=
  or_digit b.toNat_lt (by omega) _ _

theorem or_septets_continues {bs : Bytes} (all : ∀ b ∈ bs, continues b = true) :
    (loadLE bs ||| repeatByte 0x7f bs.length) + 1 = 256 ^ bs.length := by
  induction bs with
  | nil => rfl
  | cons b bs ih =>
    have high : 128 ≤ b.toNat := by
      have first := all b (by simp)
      rw [continues_eq] at first
      exact of_decide_eq_true first
    have rest := ih fun c member => all c (by simp [member])
    rw [or_septets_cons, or_high high b.toNat_lt, List.length_cons, Nat.pow_succ]
    omega

theorem or_septets_split {cont : Bytes} {last : UInt8} (rest : Bytes)
    (all : ∀ b ∈ cont, continues b = true) (stop : continues last = false) :
    ∃ junk < 256 ^ rest.length, (loadLE (cont ++ last :: rest) |||
        repeatByte 0x7f (cont ++ last :: rest).length) + 1 =
      256 ^ cont.length * (128 + 256 * junk) := by
  induction cont with
  | nil =>
    have power : 256 ^ rest.length = 2 ^ (8 * rest.length) := Nat.pow_mul 2 8 rest.length ▸ rfl
    have small := Nat.or_lt_two_pow (power ▸ loadLE_lt rest)
      (power ▸ repeatByte_lt (by omega : 0x7f < 256) rest.length)
    refine ⟨loadLE rest ||| repeatByte 0x7f rest.length, power ▸ small, ?_⟩
    rw [List.nil_append, or_septets_cons, or_low (not_continues.mp stop), List.length_nil,
      Nat.pow_zero, Nat.one_mul, Nat.add_right_comm]
  | cons b cont ih =>
    have high : 128 ≤ b.toNat := by
      have first := all b (by simp)
      rw [continues_eq] at first
      exact of_decide_eq_true first
    obtain ⟨junk, small, tail⟩ := ih fun c member => all c (by simp [member])
    refine ⟨junk, small, ?_⟩
    rw [List.cons_append, or_septets_cons, or_high high b.toNat_lt, List.length_cons,
      Nat.pow_succ, Nat.mul_comm (256 ^ cont.length), Nat.mul_assoc, ← tail]
    omega

theorem countrZero_continuation {k : Nat} (inside : k < n) (junk : Nat) :
    countrZero (8 * n) (256 ^ k * (128 + 256 * junk)) = 8 * k + 7 := by
  obtain ⟨n, rfl⟩ : ∃ m, n = m + 1 := ⟨n - 1, by omega⟩
  induction k generalizing n with
  | zero => rw [Nat.pow_zero, Nat.one_mul, Nat.mul_add, countrZero_high]
  | succ k ih =>
    obtain ⟨n, rfl⟩ : ∃ m, n = m + 1 := ⟨n - 1, by omega⟩
    rw [Nat.pow_succ, Nat.mul_comm (256 ^ k), Nat.mul_assoc, Nat.mul_add, countrZero_byte,
      ih _ (by omega)]
    omega

/-- The bits below the last continuation bit are those of the varint. -/
theorem mod_continuation {cont : Bytes} {last : UInt8} (rest : Bytes)
    (stop : continues last = false) :
    loadLE (cont ++ last :: rest) % 2 ^ (8 * cont.length + 7) = loadLE (cont ++ [last]) := by
  induction cont with
  | nil =>
    have small := not_continues.mp stop
    simp only [List.nil_append, loadLE, List.length_nil]
    omega
  | cons b cont ih =>
    have power : 8 * (b :: cont).length + 7 = 8 + (8 * cont.length + 7) := by
      rw [List.length_cons]
      omega
    rw [List.cons_append, List.cons_append, loadLE, loadLE, power]
    exact (mod_digit b.toNat_lt _ _).trans (by rw [ih]; rfl)

theorem pext_zero (w mask : Nat) : pext w 0 mask = 0 := by
  induction w generalizing mask with
  | zero => rfl
  | succ w ih =>
    rw [pext]
    split <;> simp [ih]

/-- Gathering the data bits of bytes makes a number of their digits. -/
theorem pext_septets {bs : Bytes} (le : bs.length ≤ n) :
    pext (8 * n) (loadLE bs) (repeatByte 0x7f n) = Nat.ofDigits 128 (bs.map digit) := by
  induction n generalizing bs with
  | zero =>
    obtain rfl : bs = [] := List.eq_nil_of_length_eq_zero (Nat.le_zero.mp le)
    rfl
  | succ n ih =>
    cases bs with
    | nil => exact pext_zero _ _
    | cons b bs =>
      have small := b.toNat_lt
      have head : (b.toNat + 256 * loadLE bs) % 128 = digit b := by
        rw [digit_eq]
        omega
      have tail : (b.toNat + 256 * loadLE bs) / 256 = loadLE bs := by omega
      rw [Nat.mul_add, repeatByte, loadLE, pext_septet, head, tail,
        ih (Nat.le_of_succ_le_succ le), List.map_cons, Nat.ofDigits_cons]

theorem and_septets {bs : Bytes} (le : bs.length ≤ n) :
    loadLE bs &&& repeatByte 0x7f n = loadLE (bs.map (· &&& 0x7f)) := by
  induction n generalizing bs with
  | zero =>
    obtain rfl : bs = [] := List.eq_nil_of_length_eq_zero (Nat.le_zero.mp le)
    rfl
  | succ n ih =>
    cases bs with
    | nil => exact Nat.zero_and _
    | cons b bs =>
      rw [List.map_cons, loadLE, loadLE, repeatByte, ← ih (Nat.le_of_succ_le_succ le)]
      exact and_digit b.toNat_lt (by omega) _ _

end

/-! ## Eight bytes at once -/

theorem kDataBitMask_eq : kDataBitMask = repeatByte 0x7f 8 := rfl

theorem tryReadFirstTwoBytesU64_eq (p : Nat → UInt8) :
    tryReadFirstTwoBytesU64 p = (digit (p 0) + 128 * digit (p 1), !continues (p 1)) := by
  have small := digit_lt (p 0)
  rw [tryReadFirstTwoBytesU64, ← Nat.shiftLeft_add_eq_or_of_lt small, Nat.shiftLeft_eq,
    Nat.add_comm, Nat.mul_comm]

variable {w cont rest : Bytes} {c : Cursor}

theorem wrap_continues (eight : w.length = 8) (all : ∀ b ∈ w, continues b = true) :
    wrap 64 ((loadLE w ||| kDataBitMask) + 1) = 0 := by
  have value := or_septets_continues all
  rw [eight, ← kDataBitMask_eq] at value
  rw [value, wrap]
  norm_num

theorem continuation_bit {last : UInt8} (eight : w.length = 8)
    (split : w = cont ++ last :: rest) (all : ∀ b ∈ cont, continues b = true)
    (stop : continues last = false) :
    0 < wrap 64 ((loadLE w ||| kDataBitMask) + 1) ∧
      wrap 64 ((loadLE w ||| kDataBitMask) + 1) < 2 ^ 64 ∧
      countrZero 64 (wrap 64 ((loadLE w ||| kDataBitMask) + 1)) = 8 * cont.length + 7 := by
  have length : cont.length + (rest.length + 1) = 8 := by
    rw [← eight, split, List.length_append, List.length_cons]
  obtain ⟨junk, small, value⟩ := or_septets_split rest all stop
  rw [← split, eight, ← kDataBitMask_eq] at value
  have below : 256 ^ cont.length * (128 + 256 * junk) < 2 ^ 64 := by
    have power : 256 ^ cont.length * (256 * 256 ^ rest.length) = 2 ^ 64 := by
      rw [← Nat.pow_succ', ← Nat.pow_add, Nat.succ_eq_add_one, length]
      norm_num
    rw [← power]
    exact Nat.mul_lt_mul_of_pos_left (by omega) (by positivity)
  have inside : cont.length < 8 := by omega
  rw [value, wrap, Nat.mod_eq_of_lt below]
  exact ⟨by positivity, below, countrZero_continuation inside junk⟩

theorem readVarint64_split {last : UInt8} (rest : Bytes)
    (all : ∀ b ∈ cont, continues b = true) (stop : continues last = false)
    (room : cont.length < 10) :
    Decoder.readVarint 64 (cont ++ last :: rest) =
      .ok (wrap 64 (Nat.ofDigits 128 ((cont ++ [last]).map digit)), rest) := by
  have split := readVarintLoop_split rest all stop room (Nat.two_pow_pos 0)
    (by omega : 0 + 7 * cont.length < 64)
  rw [Nat.pow_zero, Nat.one_mul, Nat.zero_add] at split
  exact split

theorem readVarint64_continues (rest : Bytes)
    (all : ∀ b ∈ cont, continues b = true) (ten : cont.length = 10) :
    Decoder.readVarint 64 (cont ++ rest) = .error "invalid varint read" := by
  have maxBytes : Decoder.varintMaxBytes 64 = cont.length := ten.symm
  rw [Decoder.readVarint, maxBytes, readVarintLoop_continues rest all]

/-- The decoders that work on eight bytes at once agree with the loop when what they make of
the eight bytes behind the first two is right. -/
theorem contiguous_agrees {b0 b1 : UInt8} {bs : Bytes}
    {decoded : Except String (Nat × Nat)} (eight : w.length = 8)
    (split : bs = b0 :: b1 :: (w ++ rest)) (first : continues b0 = true)
    (invalid : (∀ b ∈ w, continues b = true) → decoded = throwInvalidVarint)
    (valid : ∀ cont last left, w = cont ++ last :: left → (∀ b ∈ cont, continues b = true) →
      continues last = false → decoded = .ok (wrap 64 (digit b0 + 128 * digit b1 +
          2 ^ 14 * Nat.ofDigits 128 ((cont ++ [last]).map digit)), 2 + (cont.length + 1))) :
    dropRead bs (if !continues b1 then .ok (digit b0 + 128 * digit b1, 2) else decoded) =
      Decoder.readVarint 64 bs := by
  have small0 := digit_lt b0
  have small1 := digit_lt b1
  subst split
  cases second : continues b1 with
  | false =>
    have two : Decoder.readVarint 64 ([b0] ++ b1 :: (w ++ rest)) = _ :=
      readVarint64_split _ (by simpa using first) second (by simp)
    have value : wrap 64 (Nat.ofDigits 128 (([b0] ++ [b1]).map digit)) =
        digit b0 + 128 * digit b1 := by
      simp only [List.singleton_append, List.map_cons, List.map_nil, Nat.ofDigits_cons,
        Nat.ofDigits_nil]
      exact Nat.mod_eq_of_lt (by omega)
    rw [value] at two
    exact two.symm
  | true =>
    rcases split_continues w with all | ⟨cont, last, left, rfl, all, stop⟩
    · have ten : Decoder.readVarint 64 ((b0 :: b1 :: w) ++ rest) = _ :=
        readVarint64_continues rest (by simpa [first, second] using all) (by simp [eight])
      rw [Bool.not_true, if_neg (by simp), invalid all]
      exact ten.symm
    · rw [List.length_append, List.length_cons] at eight
      have whole : Decoder.readVarint 64 ((b0 :: b1 :: cont) ++ last :: (left ++ rest)) = _ :=
        readVarint64_split _ (by simpa [first, second] using all) stop
          (by simp only [List.length_cons]; omega)
      have value : Nat.ofDigits 128 (((b0 :: b1 :: cont) ++ [last]).map digit) =
          digit b0 + 128 * digit b1 + 2 ^ 14 * Nat.ofDigits 128 ((cont ++ [last]).map digit) := by
        simp only [List.cons_append, List.map_cons, Nat.ofDigits_cons]
        ring
      have behind : (b0 :: b1 :: ((cont ++ last :: left) ++ rest)).drop
          (2 + (cont.length + 1)) = left ++ rest := by
        simp [Nat.add_comm 2, List.drop_append]
      rw [value] at whole
      rw [Bool.not_true, if_neg (by simp), valid cont last left rfl all stop, dropRead_ok,
        behind]
      simpa using whole.symm

/-- The bytes at which the decoders look. -/
theorem exists_ten {bs : Bytes} (enough : 10 ≤ bs.length) :
    ∃ b0 b1 w rest, bs = b0 :: b1 :: (w ++ rest) ∧ w.length = 8 ∧
      loadUnaligned (fun i => bs.getD i 0) 2 = loadLE w := by
  match bs, enough with
  | b0 :: b1 :: b2 :: b3 :: b4 :: b5 :: b6 :: b7 :: b8 :: b9 :: rest, _ =>
    exact ⟨b0, b1, [b2, b3, b4, b5, b6, b7, b8, b9], rest, rfl, rfl, rfl⟩

theorem readContiguousVarintMediumSlowU64BMI2_agrees {bs : Bytes} (enough : 10 ≤ bs.length)
    (first : continues (bs.getD 0 0) = true) :
    dropRead bs (readContiguousVarintMediumSlowU64BMI2 fun i => bs.getD i 0) =
      Decoder.readVarint 64 bs := by
  obtain ⟨b0, b1, w, rest, split, eight, loaded⟩ := exists_ten enough
  rw [readContiguousVarintMediumSlowU64BMI2, tryReadFirstTwoBytesU64_eq, loaded]
  have head0 : bs.getD 0 0 = b0 := by rw [split]; rfl
  have head1 : bs.getD 1 0 = b1 := by rw [split]; rfl
  rw [head0] at first
  simp only [head0, head1]
  have small0 := digit_lt b0
  have small1 := digit_lt b1
  refine contiguous_agrees eight split first ?_ ?_
  · intro all
    rw [if_pos (wrap_continues eight all)]
  · intro cont last left parts all stop
    obtain ⟨pos, -, shift⟩ := continuation_bit eight parts all stop
    have short : (cont ++ [last]).length ≤ 8 := by
      rw [parts, List.length_append, List.length_cons] at eight
      simp only [List.length_append, List.length_singleton]
      omega
    rw [if_neg (by omega), shift, Nat.one_shiftLeft, Nat.and_two_pow_sub_one_eq_mod, parts,
      mod_continuation left stop, kDataBitMask_eq]
    have gathered := pext_septets short
    simp only [Nat.reduceMul] at gathered
    have bytesRead : (8 * cont.length + 7) >>> 3 = cont.length := by
      rw [Nat.shiftRight_eq_div_pow]
      omega
    rw [gathered, bytesRead, or_wrap_shiftLeft (by omega) (by omega)]

theorem shuffleEpi8_eq (a0 a1 a2 a3 a4 a5 a6 a7 a8 a9 a10 a11 a12 a13 a14 a15 : UInt8) :
    shuffleEpi8 [a0, a1, a2, a3, a4, a5, a6, a7, a8, a9, a10, a11, a12, a13, a14, a15]
        (setEpi [12, 10, 8, 6, 4, 2, 0, -1, 14, 9, 7, 5, 3, 1, -1, -1]) =
      [0, 0, a1, a3, a5, a7, a9, a14, 0, a0, a2, a4, a6, a8, a10, a12] := rfl

theorem toNat_lane {e : UInt8} (small : e.toNat < 128) {c : UInt16} (le : c.toNat ≤ 128) :
    (e.toUInt16 * c).toNat = e.toNat * c.toNat := by
  have bound : e.toNat * c.toNat ≤ 127 * 128 := Nat.mul_le_mul (by omega) le
  rw [UInt16.toNat_mul, UInt8.toNat_toUInt16]
  exact Nat.mod_eq_of_lt (by omega)

/-- The low and high bytes of the lanes, each where the shuffle puts it, make the number with
the digits; five lanes have two bytes, the next two fit in one, and of the last one bit is
left. -/
theorem lanes_sum {result n0 n1 n2 n3 n4 n5 n6 n7 l0 l1 l2 l3 l4 l7 u0 u1 u2 u3 u4 carry : Nat}
    (q0 : l0 + 256 * u0 = n0 * 64) (q1 : l1 + 256 * u1 = n1 * 32) (q2 : l2 + 256 * u2 = n2 * 16)
    (q3 : l3 + 256 * u3 = n3 * 8) (q4 : l4 + 256 * u4 = n4 * 4)
    (q7 : l7 + 256 * carry = n7 * 128) :
    result + 2 ^ 14 * (n0 + 128 * (n1 + 128 * (n2 + 128 * (n3 + 128 * (n4 + 128 * (n5 +
        128 * (n6 + 128 * (n7 + 0)))))))) =
      result + (0 + 256 * (0 + 256 * (u0 + 256 * (u1 + 256 * (u2 + 256 * (u3 +
        256 * (u4 + 256 * (l7 + 0)))))))) + (0 + 256 * (l0 + 256 * (l1 + 256 * (l2 + 256 * (l3 +
        256 * (l4 + 256 * (n5 * 2 + 256 * (n6 + 0)))))))) + 2 ^ 64 * carry := by
  zify at *
  linear_combination -256 * q0 - 256 ^ 2 * q1 - 256 ^ 3 * q2 - 256 ^ 4 * q3 - 256 ^ 5 * q4 -
    256 ^ 7 * q7

/-- The lanes of a vector are shifted to where their digits belong. -/
theorem gather_lanes {es : Bytes} (eight : es.length = 8) (small : ∀ e ∈ es, e.toNat < 128)
    (result : Nat) :
    let shuffled := shuffleEpi8 (laneBytes (mulloEpi16 (cvtepu8Epi16 (es ++ storeLE 8 0))
        (setEpi [128, 1, 2, 4, 8, 16, 32, 64])))
      (setEpi [12, 10, 8, 6, 4, 2, 0, -1, 14, 9, 7, 5, 3, 1, -1, -1])
    wrap 64 (result + extractEpi64 shuffled 0 + extractEpi64 shuffled 1) =
      wrap 64 (result + 2 ^ 14 * Nat.ofDigits 128 (es.map UInt8.toNat)) := by
  match es, eight with
  | [e0, e1, e2, e3, e4, e5, e6, e7], _ =>
    have h0 := toNat_lane (small e0 (by simp)) (show (64 : UInt16).toNat ≤ 128 by decide)
    have h1 := toNat_lane (small e1 (by simp)) (show (32 : UInt16).toNat ≤ 128 by decide)
    have h2 := toNat_lane (small e2 (by simp)) (show (16 : UInt16).toNat ≤ 128 by decide)
    have h3 := toNat_lane (small e3 (by simp)) (show (8 : UInt16).toNat ≤ 128 by decide)
    have h4 := toNat_lane (small e4 (by simp)) (show (4 : UInt16).toNat ≤ 128 by decide)
    have h5 := toNat_lane (small e5 (by simp)) (show (2 : UInt16).toNat ≤ 128 by decide)
    have h6 := toNat_lane (small e6 (by simp)) (show (1 : UInt16).toNat ≤ 128 by decide)
    have h7 := toNat_lane (small e7 (by simp)) (show (128 : UInt16).toNat ≤ 128 by decide)
    have lanes : laneBytes (mulloEpi16 (cvtepu8Epi16
        ([e0, e1, e2, e3, e4, e5, e6, e7] ++ storeLE 8 0)) (setEpi [128, 1, 2, 4, 8, 16, 32, 64])) =
        storeLE 2 (e0.toUInt16 * 64).toNat ++ (storeLE 2 (e1.toUInt16 * 32).toNat ++
        (storeLE 2 (e2.toUInt16 * 16).toNat ++ (storeLE 2 (e3.toUInt16 * 8).toNat ++
        (storeLE 2 (e4.toUInt16 * 4).toNat ++ (storeLE 2 (e5.toUInt16 * 2).toNat ++
        (storeLE 2 (e6.toUInt16 * 1).toNat ++ (storeLE 2 (e7.toUInt16 * 128).toNat ++ []))))))) :=
      rfl
    rw [lanes, h0, h1, h2, h3, h4, h5, h6, h7]
    have s0 := small e0 (by simp)
    have s1 := small e1 (by simp)
    have s2 := small e2 (by simp)
    have s3 := small e3 (by simp)
    have s4 := small e4 (by simp)
    have s5 := small e5 (by simp)
    have s6 := small e6 (by simp)
    simp only [storeLE, List.cons_append, List.nil_append, shuffleEpi8_eq]
    simp only [extractEpi64, List.drop_zero, List.drop_succ_cons, List.take_succ_cons,
      List.take_zero, loadLE, UInt8.toNat_ofNat', List.map_cons, List.map_nil,
      Nat.ofDigits_cons, Nat.ofDigits_nil, UInt16.reduceToNat, UInt8.reduceToNat,
      Nat.reduceMul]
    generalize e0.toNat = n0 at *
    generalize e1.toNat = n1 at *
    generalize e2.toNat = n2 at *
    generalize e3.toNat = n3 at *
    generalize e4.toNat = n4 at *
    generalize e5.toNat = n5 at *
    generalize e6.toNat = n6 at *
    generalize e7.toNat = n7 at *
    have both : ∀ x < 2 ^ 16, x % 2 ^ 8 + 256 * (x / 256 % 2 ^ 8) = x := by omega
    have q5 : n5 * 2 % 2 ^ 8 = n5 * 2 := by omega
    have q6 : n6 * 1 % 2 ^ 8 = n6 := by omega
    have q7 : n7 * 128 % 2 ^ 8 + 256 * (n7 / 2) = n7 * 128 := by omega
    rw [q5, q6, lanes_sum (both (n0 * 64) (by omega)) (both (n1 * 32) (by omega))
      (both (n2 * 16) (by omega)) (both (n3 * 8) (by omega)) (both (n4 * 4) (by omega)) q7,
      wrap, wrap, Nat.add_mul_mod_self_left]

theorem storeLE_pad {bs : Bytes} {n : Nat} (le : bs.length ≤ n) :
    storeLE n (loadLE bs) = bs ++ List.replicate (n - bs.length) 0 := by
  induction n generalizing bs with
  | zero =>
    obtain rfl : bs = [] := List.eq_nil_of_length_eq_zero (Nat.le_zero.mp le)
    rfl
  | succ n ih =>
    cases bs with
    | nil =>
      have rest : storeLE n (loadLE []) = [] ++ List.replicate (n - 0) 0 :=
        ih (Nat.zero_le n)
      exact congrArg (0 :: ·) rest
    | cons b bs =>
      rw [loadLE, storeLE_digit b.toNat_lt, ih (Nat.le_of_succ_le_succ le), UInt8.ofNat_toNat,
        List.length_cons, Nat.succ_sub_succ, List.cons_append]

theorem ofDigits_pad (ds : List Nat) (n : Nat) :
    Nat.ofDigits 128 (ds ++ List.replicate n 0) = Nat.ofDigits 128 ds := by
  have zeros : Nat.ofDigits 128 (List.replicate n 0) = 0 := by
    induction n with
    | zero => rfl
    | succ n ih => rw [List.replicate_succ, Nat.ofDigits_cons, ih]
  rw [Nat.ofDigits_append, zeros, Nat.mul_zero, Nat.add_zero]

theorem readContiguousVarintMediumSlowU64SIMD_agrees {bs : Bytes} (enough : 10 ≤ bs.length)
    (first : continues (bs.getD 0 0) = true) :
    dropRead bs (readContiguousVarintMediumSlowU64SIMD fun i => bs.getD i 0) =
      Decoder.readVarint 64 bs := by
  obtain ⟨b0, b1, w, rest, split, eight, loaded⟩ := exists_ten enough
  rw [readContiguousVarintMediumSlowU64SIMD, tryReadFirstTwoBytesU64_eq, loaded]
  have head0 : bs.getD 0 0 = b0 := by rw [split]; rfl
  have head1 : bs.getD 1 0 = b1 := by rw [split]; rfl
  rw [head0] at first
  simp only [head0, head1]
  refine contiguous_agrees eight split first ?_ ?_
  · intro all
    rw [if_pos (wrap_continues eight all)]
  · intro cont last left parts all stop
    obtain ⟨pos, below, shift⟩ := continuation_bit eight parts all stop
    have short : (cont ++ [last]).length ≤ 8 := by
      rw [parts, List.length_append, List.length_cons] at eight
      simp only [List.length_append, List.length_singleton]
      omega
    rw [if_neg (by omega), shift]
    generalize wrap 64 ((loadLE w ||| kDataBitMask) + 1) = x at *
    have lowest : x &&& wrap 64 (2 ^ 64 - 1 - x + 1) = 2 ^ (8 * cont.length + 7) := by
      have neg : wrap 64 (2 ^ 64 - 1 - x + 1) = 2 ^ 64 - x := by
        rw [wrap]
        omega
      rw [neg, and_neg pos below, shift]
    have masked : loadLE w &&& (2 ^ (8 * cont.length + 7) - 1) &&& kDataBitMask =
        loadLE ((cont ++ [last]).map (· &&& 0x7f)) := by
      rw [Nat.and_two_pow_sub_one_eq_mod, parts, mod_continuation left stop, kDataBitMask_eq,
        and_septets short]
    have length : ((cont ++ [last]).map (· &&& 0x7f)).length ≤ 8 := by
      rw [List.length_map]
      exact short
    have digits : (storeLE 8 (loadLE ((cont ++ [last]).map (· &&& 0x7f)))).map UInt8.toNat =
        (cont ++ [last]).map digit ++
          List.replicate (8 - ((cont ++ [last]).map (· &&& (0x7f : UInt8))).length) 0 := by
      rw [storeLE_pad length, List.map_append, List.map_map, List.map_replicate]
      rfl
    have small : ∀ e ∈ storeLE 8 (loadLE ((cont ++ [last]).map (· &&& 0x7f))), e.toNat < 128 := by
      intro e member
      have listed := List.mem_map_of_mem (f := UInt8.toNat) member
      rw [digits, List.mem_append, List.mem_map, List.mem_replicate] at listed
      rcases listed with ⟨b, -, same⟩ | ⟨-, zero⟩
      · rw [← same]
        exact digit_lt b
      · omega
    have bytesRead : (8 * cont.length + 7) / 8 = cont.length := by omega
    rw [lowest, masked, bytesRead, setEpi64x, gather_lanes (length_storeLE 8 _) small, digits,
      ofDigits_pad]

/-! ## All decoders agree -/

theorem readVarintLoop_append (bits : Nat) {left : Nat} (shift result : Nat) {bs : Bytes}
    (enough : left ≤ bs.length) (more : Bytes) :
    Decoder.readVarintLoop bits left shift result (bs ++ more) =
      (Decoder.readVarintLoop bits left shift result bs).map fun (value, rest) =>
        (value, rest ++ more) := by
  induction left generalizing shift result bs with
  | zero => rfl
  | succ left ih =>
    match bs, enough with
    | b :: bs, enough =>
      rw [List.cons_append, readVarintLoop_cons, readVarintLoop_cons]
      split
      · exact ih _ _ (Nat.le_of_succ_le_succ enough)
      · rfl

/-- A decoder that is right about the buffer is right about the stream. -/
theorem flatten_skipRead {size : Nat} {read : Except String (Nat × Nat)}
    (enough : Decoder.varintMaxBytes (8 * size) ≤ c.length)
    (agrees : dropRead c.chunk read = Decoder.readVarint (8 * size) c.chunk) :
    flatten (skipRead c read) = flatten (readVarintSlow size c) := by
  rw [flatten_readVarintSlow, Cursor.bytes, Decoder.readVarint, readVarintLoop_append _ _ _ enough]
  change _ = Except.map _ (Decoder.readVarint (8 * size) c.chunk)
  rw [← agrees]
  cases read <;> rfl

/-- The value fits the word. -/
theorem readVarintLoop_lt {bits left shift result value : Nat} {bs : Bytes}
    (small : result < 2 ^ bits)
    (ok : Decoder.readVarintLoop bits left shift result bs = .ok (value, rest)) :
    value < 2 ^ bits := by
  induction left generalizing shift result bs with
  | zero => cases ok
  | succ left ih =>
    cases bs with
    | nil =>
      rw [readVarintLoop_nil] at ok
      cases ok
    | cons b bs =>
      have next : result ||| wrap bits (digit b <<< shift) < 2 ^ bits :=
        Nat.or_lt_two_pow small (Nat.mod_lt _ (Nat.two_pow_pos bits))
      rw [readVarintLoop_cons] at ok
      split at ok
      · exact ih next ok
      · cases ok
        exact next

/-- The cast to the type does not change a value that was read for it. -/
theorem dropRead_cast {bits : Nat} {bs : Bytes} {read : Except String (Nat × Nat)}
    (agrees : dropRead bs read = Decoder.readVarint bits bs) :
    dropRead bs (read.map fun (result, bytesRead) => (wrap bits result, bytesRead)) =
      Decoder.readVarint bits bs := by
  rw [← agrees]
  cases read with
  | error _ => rfl
  | ok pair =>
    have fits := readVarintLoop_lt (Nat.two_pow_pos bits) agrees.symm
    exact congrArg (fun value => Except.ok (value, bs.drop pair.2)) (Nat.mod_eq_of_lt fits)

theorem readVarintMediumSlowUnrolled_agrees (build : Build) {size : Nat}
    (sizes : size = 1 ∨ size = 2 ∨ size = 4 ∨ size = 8) {bs : Bytes}
    (narrow : NarrowFits size fun i => bs.getD i 0)
    (enough : Decoder.varintMaxBytes (8 * size) ≤ bs.length) :
    dropRead bs (readVarintMediumSlowUnrolled build size fun i => bs.getD i 0) =
      Decoder.readVarint (8 * size) bs := by
  unfold readVarintMediumSlowUnrolled
  split
  · exact readVarintMediumSlowUnrolledAarch64_agrees sizes narrow enough
  · exact readVarintMediumSlowUnrolledX86_agrees sizes enough

theorem readContiguous_agrees (build : Build) {size : Nat}
    (sizes : size = 1 ∨ size = 2 ∨ size = 4 ∨ size = 8) {bs : Bytes}
    (narrow : NarrowFits size fun i => bs.getD i 0)
    (enough : Decoder.varintMaxBytes (8 * size) ≤ bs.length)
    (first : continues (bs.getD 0 0) = true) :
    dropRead bs (readContiguous build size fun i => bs.getD i 0) =
      Decoder.readVarint (8 * size) bs := by
  have unrolled := readVarintMediumSlowUnrolled_agrees build sizes narrow enough
  unfold readContiguous
  split
  next => exact unrolled
  next wide =>
    obtain rfl : size = 8 := by omega
    apply dropRead_cast
    split
    · exact readContiguousVarintMediumSlowU64BMI2_agrees enough first
    · split
      · exact readContiguousVarintMediumSlowU64SIMD_agrees enough first
      · exact unrolled

/-- The first byte alone. -/
theorem flatten_readVarint_one {size : Nat} (pos : 0 < size) (some : 0 < c.length)
    (stop : continues (c.data 0) = false) :
    flatten (.ok (wrap (8 * size) (c.data 0).toNat, c.skipNoAdvance 1)) =
      flatten (readVarintSlow size c) := by
  obtain ⟨chunk, next⟩ := c
  cases chunk with
  | nil => cases some
  | cons b chunk =>
    have maxBytes : Decoder.varintMaxBytes (8 * size) =
        (Decoder.varintMaxBytes (8 * size) - 1) + 1 := by
      unfold Decoder.varintMaxBytes
      omega
    have first : continues b = false := stop
    have value : digit b = b.toNat := by
      rw [digit_eq]
      exact Nat.mod_eq_of_lt (not_continues.mp first)
    rw [flatten_readVarintSlow, Cursor.bytes, List.cons_append, Decoder.readVarint, maxBytes,
      readVarintLoop_cons, first, if_neg (by simp), Nat.shiftLeft_zero, Nat.zero_or, value]
    rfl

theorem flatten_readVarint (build : Build) {size : Nat}
    (sizes : size = 1 ∨ size = 2 ∨ size = 4 ∨ size = 8)
    (narrow : Decoder.varintMaxBytes (8 * size) ≤ c.length → NarrowFits size c.data) :
    flatten (readVarint build size c) = flatten (readVarintSlow size c) := by
  unfold readVarint
  split
  next one => exact flatten_readVarint_one (by omega) one.1 one.2
  next more =>
    unfold readVarintMediumSlow
    split
    next enough =>
      have some : 0 < c.length := by
        unfold Decoder.varintMaxBytes at enough
        omega
      have first : continues (c.data 0) = true := by
        rw [← Bool.not_eq_false]
        exact fun stop => more ⟨some, stop⟩
      exact flatten_skipRead enough (readContiguous_agrees build sizes (narrow enough) enough first)
    next => rfl

/-- For each build, stream and split of the stream into buffers the dispatching decoder, the
slow one and the reader of the protocols agree; in memory that has room for the longest
varint so do the unrolled decoders and, on a varint that does not end with its first byte,
those that work on eight bytes at once. -/
theorem varint_decoders_agree (build : Build) {size : Nat} (sizes : size = 4 ∨ size = 8)
    (c : Cursor) :
    flatten (readVarint build size c) = flatten (readVarintSlow size c) ∧
    flatten (readVarintSlow size c) = Decoder.readVarint (8 * size) c.bytes ∧
    (Decoder.varintMaxBytes (8 * size) ≤ c.length →
      flatten (skipRead c (readVarintMediumSlowUnrolledX86 size c.data)) =
        flatten (readVarintSlow size c) ∧
      flatten (skipRead c (readVarintMediumSlowUnrolledAarch64 size c.data)) =
        flatten (readVarintSlow size c) ∧
      (size = 8 → continues (c.data 0) = true →
        flatten (skipRead c (readContiguousVarintMediumSlowU64SIMD c.data)) =
          flatten (readVarintSlow size c) ∧
        flatten (skipRead c (readContiguousVarintMediumSlowU64BMI2 c.data)) =
          flatten (readVarintSlow size c))) := by
  have sizes' : size = 1 ∨ size = 2 ∨ size = 4 ∨ size = 8 := .inr (.inr sizes)
  refine ⟨flatten_readVarint build sizes' fun _ => .of_wide sizes _, flatten_readVarintSlow size c,
    fun enough => ⟨?_, ?_, ?_⟩⟩
  · exact flatten_skipRead enough (readVarintMediumSlowUnrolledX86_agrees sizes' enough)
  · exact flatten_skipRead enough
      (readVarintMediumSlowUnrolledAarch64_agrees sizes' (.of_wide sizes _) enough)
  · rintro rfl first
    exact ⟨flatten_skipRead enough (readContiguousVarintMediumSlowU64SIMD_agrees enough first),
      flatten_skipRead enough (readContiguousVarintMediumSlowU64BMI2_agrees enough first)⟩

/-- A varint of three bytes that are split between two buffers. -/
theorem varint_decoders_agree_split : let build : Build := ⟨false, true, true⟩
    let c : Cursor := ⟨[0x85], [[], [0x91, 0x01, 0x07]]⟩
    flatten (readVarint build 8 c) = flatten (readVarintSlow 8 c) ∧
    flatten (readVarintSlow 8 c) = Decoder.readVarint (8 * 8) c.bytes ∧
    (Decoder.varintMaxBytes (8 * 8) ≤ c.length →
      flatten (skipRead c (readVarintMediumSlowUnrolledX86 8 c.data)) =
        flatten (readVarintSlow 8 c) ∧
      flatten (skipRead c (readVarintMediumSlowUnrolledAarch64 8 c.data)) =
        flatten (readVarintSlow 8 c) ∧
      (8 = 8 → continues (c.data 0) = true →
        flatten (skipRead c (readContiguousVarintMediumSlowU64SIMD c.data)) =
          flatten (readVarintSlow 8 c) ∧
        flatten (skipRead c (readContiguousVarintMediumSlowU64BMI2 c.data)) =
          flatten (readVarintSlow 8 c))) :=
  varint_decoders_agree ⟨false, true, true⟩ (.inr rfl) _

end FbThrift.Varint
