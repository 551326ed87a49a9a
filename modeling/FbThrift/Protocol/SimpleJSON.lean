import FbThrift.Protocol.JSONString

/-!
# Single values in SimpleJSON

The texts that `SimpleJSONProtocolWriter` writes for a value outside of any container, and how
`SimpleJSONProtocolReader` reads one.  The writer is told the type of the value by the value, the
reader by its caller.  Numbers are converted by `folly/Conv.h`: the integers in decimal, the
floating point ones by conversions that are parameters here.
-/

namespace FbThrift.SimpleJSON

open JSONProtocolWriterCommon (kJSONStringDelimiter kJSONBackslash kJSONEscapePrefix kJSONCharTable
  hexChar escape escapeAll escapeAll_cons)

/-! ## Floating point numbers -/

/-- A format of floating point numbers, by the bits of the exponent and of the fraction. -/
structure Format where
  exponentBits : Nat
  fractionBits : Nat

def Format.single : Format := ⟨8, 23⟩
def Format.double : Format := ⟨11, 52⟩

/-- The bits of a positive infinity. -/
def Format.infinity (f : Format) : Nat := (2 ^ f.exponentBits - 1) * 2 ^ f.fractionBits

/-- The weight of the sign bit. -/
def Format.sign (f : Format) : Nat := 2 ^ (f.exponentBits + f.fractionBits)

def Format.quietNaN (f : Format) : Nat := f.infinity + 2 ^ (f.fractionBits - 1)

def Format.isNaN (f : Format) (bits : Nat) : Bool := f.infinity < bits % f.sign

def Format.isFinite (f : Format) (bits : Nat) : Bool := bits % f.sign < f.infinity

/-- `==` of two numbers: a NaN equals none, and the two zeros equal one another. -/
def Format.equals (f : Format) (a b : Nat) : Bool :=
  !f.isNaN a && !f.isNaN b && (a == b || (a % f.sign == 0 && b % f.sign == 0))

/-- The conversions of `folly/Conv.h`, from and to the bits of a number. -/
structure Conversions where
  toAppend : Format → Nat → Bytes
  tryTo : Format → Bytes → Option Nat

/-! ## Writing -/

def toBytes (s : String) : Bytes := s.toList.map fun c => UInt8.ofNat c.toNat

def kThriftNan : Bytes := toBytes "NaN"
def kThriftNegativeNan : Bytes := toBytes "-NaN"
def kThriftInfinity : Bytes := toBytes "Infinity"
def kThriftNegativeInfinity : Bytes := toBytes "-Infinity"
def kJSONTrue : Bytes := toBytes "true"
def kJSONFalse : Bytes := toBytes "false"

/-- What both writers of strings write. -/
def writeJSONString (str : Bytes) : Bytes :=
  kJSONStringDelimiter :: (escapeAll str ++ [kJSONStringDelimiter])

def digits (n : Nat) : Bytes := (Nat.toDigits 10 n).map fun c => UInt8.ofNat c.toNat

def writeJSONInt (num : Int) : Bytes :=
  if num < 0 then 0x2D :: digits num.natAbs else digits num.natAbs

def writeJSONDouble (conv : Conversions) (f : Format) (dbl : Nat) : Bytes :=
  if dbl = f.infinity then writeJSONString kThriftInfinity
  else if dbl = f.sign + f.infinity then writeJSONString kThriftNegativeInfinity
  else if f.isNaN dbl then writeJSONString kThriftNan
  else conv.toAppend f dbl

def writeJSONBool (val : Bool) : Bytes := if val then kJSONTrue else kJSONFalse

/-! ## Reading -/

inductive ReadError where
  /-- The input ends. -/
  | outOfRange
  | unexpectedChar (actual expected : UInt8)
  | invalidEscapeChar (ch : UInt8)
  | invalidHexChar (ch : UInt8)
  | invalidTrailingSurrogate (c : Nat)
  | invalidUtf16CodeUnit (c : Nat)
  | unrecognizableAsIntegral (s : Bytes)
  | unrecognizableAsFloatingPoint (s : Bytes)
  | unrecognizableAsBoolean (s : Bytes)
  deriving DecidableEq

/-- A reader takes its value from the input and leaves the rest. -/
abbrev Read (α : Type) := Bytes → Except ReadError (α × Bytes)

def isWhitespace (ch : UInt8) : Bool := ch == 0x20 || ch == 0x0A || ch == 0x09 || ch == 0x0D

def skipWhitespace (input : Bytes) : Bytes := input.dropWhile isWhitespace

def readByteOf : Read UInt8
  | [] => .error .outOfRange
  | ch :: rest => .ok (ch, rest)

def ensureCharNoWhitespace (expected : UInt8) : Read Unit := fun input => do
  let (actual, rest) ← readByteOf input
  if actual = expected then .ok ((), rest) else .error (.unexpectedChar actual expected)

def ensureChar (expected : UInt8) : Read Unit := fun input =>
  ensureCharNoWhitespace expected (skipWhitespace input)

/-! ### Escape sequences -/

def hexVal (ch : UInt8) : Except ReadError Nat :=
  if 0x30 ≤ ch ∧ ch ≤ 0x39 then .ok (ch.toNat - 0x30)
  else if 0x61 ≤ ch ∧ ch ≤ 0x66 then .ok (ch.toNat - 0x61 + 10)
  else if 0x41 ≤ ch ∧ ch ≤ 0x46 then .ok (ch.toNat - 0x41 + 10)
  else .error (.invalidHexChar ch)

def readHexDigit : Read Nat := fun input => do
  let (ch, rest) ← readByteOf input
  let v ← hexVal ch
  .ok (v, rest)

def readJSONEscapeCodeUnit16Suffix : Read Nat := fun input => do
  let (a, input) ← readHexDigit input
  let (b, input) ← readHexDigit input
  let (c, input) ← readHexDigit input
  let (d, input) ← readHexDigit input
  .ok (((a * 16 + b) * 16 + c) * 16 + d, input)

def isBmp (c : Nat) : Bool := c < 0xD800 || 0xE000 ≤ c
def isHighSurrogate (c : Nat) : Bool := 0xD800 ≤ c && c < 0xDC00
def isLowSurrogate (c : Nat) : Bool := 0xDC00 ≤ c && c < 0xE000

/-- `unicode_code_point_to_utf8`, of a code point that is no surrogate. -/
def codePointToUtf8 (cp : Nat) : Bytes := String.utf8EncodeChar (Char.ofNat cp)

def readJSONEscapeCodePoint16Suffix : Read Bytes := fun input => do
  let (c0, input) ← readJSONEscapeCodeUnit16Suffix input
  if isBmp c0 then .ok (codePointToUtf8 c0, input)
  else if isHighSurrogate c0 then do
    let ((), input) ← ensureCharNoWhitespace kJSONBackslash input
    let ((), input) ← ensureCharNoWhitespace 0x75 input
    let (c1, input) ← readJSONEscapeCodeUnit16Suffix input
    if isLowSurrogate c1 then
      .ok (codePointToUtf8 (0x10000 + (c0 - 0xD800) * 0x400 + (c1 - 0xDC00)), input)
    else .error (.invalidTrailingSurrogate c1)
  else .error (.invalidUtf16CodeUnit c0)

def kEscapeChars : Bytes := toBytes "\"\\/bfnrt"
def kEscapeCharVals : Bytes := [0x22, 0x5C, 0x2F, 0x08, 0x0C, 0x0A, 0x0D, 0x09]

def readJSONEscapeSequence : Read Bytes := fun input => do
  let (ch, input) ← readByteOf input
  if ch = 0x75 then readJSONEscapeCodePoint16Suffix input
  else
    match kEscapeChars.findIdx? (· == ch) with
    | some pos => .ok ([kEscapeCharVals.getD pos 0], input)
    | none => .error (.invalidEscapeChar ch)

/-- The reader leaves no more than it gets. -/
def Shrinks {α : Type} (r : Read α) : Prop :=
  ∀ input a rest, r input = .ok (a, rest) → rest.length ≤ input.length

section Shrinks

variable {α β : Type} {input rest : Bytes} {a : α}

theorem shrinks_readByteOf : Shrinks readByteOf := by
  intro input ch rest read
  cases input with
  | nil => cases read
  | cons b bs =>
    cases read
    exact Nat.le_succ _

theorem shrinks_bind {r : Read α} {k : α × Bytes → Except ReadError (β × Bytes)}
    (first : Shrinks r) (next : ∀ a, Shrinks fun input => k (a, input)) :
    Shrinks fun input => r input >>= k := by
  intro input b rest read
  dsimp only at read
  cases took : r input with
  | error e =>
    rw [took] at read
    cases read
  | ok p =>
    rw [took] at read
    exact Nat.le_trans (next p.1 p.2 b rest read) (first input p.1 p.2 took)

theorem shrinks_ok (a : α) : Shrinks fun input => .ok (a, input) := by
  intro input b rest read
  cases read
  exact Nat.le_refl _

theorem shrinks_error (e : ReadError) :
    Shrinks fun _ => (.error e : Except ReadError (α × Bytes)) :=
  nofun

theorem shrinks_ite {c : Prop} [Decidable c] {r r' : Read α} (yes : Shrinks r) (no : Shrinks r') :
    Shrinks fun input => if c then r input else r' input := by
  split
  · exact yes
  · exact no

theorem shrinks_ensureCharNoWhitespace (expected : UInt8) :
    Shrinks (ensureCharNoWhitespace expected) :=
  shrinks_bind shrinks_readByteOf fun _ => shrinks_ite (shrinks_ok ()) (shrinks_error _)

theorem shrinks_readHexDigit : Shrinks readHexDigit := by
  refine shrinks_bind shrinks_readByteOf fun ch => ?_
  show Shrinks fun input => hexVal ch >>= fun v => .ok (v, input)
  cases hexVal ch with
  | error e => exact shrinks_error e
  | ok v => exact shrinks_ok v

theorem shrinks_readJSONEscapeCodeUnit16Suffix : Shrinks readJSONEscapeCodeUnit16Suffix :=
  shrinks_bind shrinks_readHexDigit fun _ => shrinks_bind shrinks_readHexDigit fun _ =>
    shrinks_bind shrinks_readHexDigit fun _ => shrinks_bind shrinks_readHexDigit fun _ =>
      shrinks_ok _

theorem shrinks_readJSONEscapeCodePoint16Suffix : Shrinks readJSONEscapeCodePoint16Suffix := by
  refine shrinks_bind shrinks_readJSONEscapeCodeUnit16Suffix fun c0 => shrinks_ite (shrinks_ok _) ?_
  refine shrinks_ite ?_ (shrinks_error _)
  exact shrinks_bind (shrinks_ensureCharNoWhitespace _) fun _ =>
    shrinks_bind (shrinks_ensureCharNoWhitespace _) fun _ =>
      shrinks_bind shrinks_readJSONEscapeCodeUnit16Suffix fun _ =>
        shrinks_ite (shrinks_ok _) (shrinks_error _)

theorem shrinks_readJSONEscapeSequence : Shrinks readJSONEscapeSequence := by
  refine shrinks_bind shrinks_readByteOf fun ch => ?_
  refine shrinks_ite shrinks_readJSONEscapeCodePoint16Suffix ?_
  cases kEscapeChars.findIdx? (· == ch) with
  | some pos => exact shrinks_ok _
  | none => exact shrinks_error _

end Shrinks

/-! ### Strings -/

/-- The loop of `readJSONString`, behind the opening delimiter. -/
def readStringChars : Read Bytes
  | [] => .error .outOfRange
  | ch :: rest =>
    if ch = kJSONStringDelimiter then .ok ([], rest)
    else if ch = kJSONBackslash then
      match read : readJSONEscapeSequence rest with
      | .error e => .error e
      | .ok (seq, rest') =>
        have : rest'.length < rest.length + 1 :=
          Nat.lt_succ_of_le (shrinks_readJSONEscapeSequence _ _ _ read)
        (readStringChars rest').map fun p => (seq ++ p.1, p.2)
    else (readStringChars rest).map fun p => (ch :: p.1, p.2)
termination_by input => input.length

def readJSONString : Read Bytes := fun input => do
  let ((), input) ← ensureChar kJSONStringDelimiter input
  readStringChars input

/-! ### Numbers -/

def isNumerical (ch : UInt8) : Bool :=
  (0x30 ≤ ch && ch ≤ 0x39) || ch == 0x2B || ch == 0x2D || ch == 0x2E || ch == 0x45 || ch == 0x65

def readNumericalChars (input : Bytes) : Bytes × Bytes := (skipWhitespace input).span isNumerical

def isDigit (ch : UInt8) : Bool := 0x30 ≤ ch && ch ≤ 0x39

/-- The number that digits stand for, if there are digits only. -/
def parseDigits (s : Bytes) : Option Nat :=
  if s ≠ [] ∧ s.all isDigit then
    some (Nat.ofDigitChars 10 (s.map fun ch => Char.ofNat ch.toNat) 0)
  else none

/-- `folly::tryTo` of an integer, of at most `bits` bits with its sign. -/
def tryToIntegral (bits : Nat) (s : Bytes) : Option Int :=
  let parsed := match s with
    | 0x2D :: rest => (parseDigits rest).map fun n : Nat => -(n : Int)
    | 0x2B :: rest => (parseDigits rest).map fun n : Nat => (n : Int)
    | s => (parseDigits s).map fun n : Nat => (n : Int)
  parsed.filter fun n => -2 ^ (bits - 1) ≤ n ∧ n < 2 ^ (bits - 1)

def readJSONIntegral (bits : Nat) : Read Int := fun input =>
  let (s, rest) := readNumericalChars input
  match tryToIntegral bits s with
  | some n => .ok (n, rest)
  | none => .error (.unrecognizableAsIntegral s)

def peekCharSafe (input : Bytes) : UInt8 := input.headD 0

def readJSONFloating (conv : Conversions) (f : Format) : Read Nat := fun input =>
  let input := skipWhitespace input
  if peekCharSafe input = kJSONStringDelimiter then do
    let (str, rest) ← readJSONString input
    if str = kThriftNan then .ok (f.quietNaN, rest)
    else if str = kThriftNegativeNan then .ok (f.sign + f.quietNaN, rest)
    else if str = kThriftInfinity then .ok (f.infinity, rest)
    else if str = kThriftNegativeInfinity then .ok (f.sign + f.infinity, rest)
    else .error (.unrecognizableAsFloatingPoint str)
  else
    let (s, rest) := readNumericalChars input
    match conv.tryTo f s with
    | some x => .ok (x, rest)
    | none => .error (.unrecognizableAsFloatingPoint s)

/-! ### Keywords -/

def readJSONKeyword (input : Bytes) : Bytes × Bytes :=
  (skipWhitespace input).span fun ch => 0x61 ≤ ch && ch ≤ 0x7A

def readJSONBool : Read Bool := fun input =>
  let (s, rest) := readJSONKeyword input
  if s = kJSONTrue then .ok (true, rest)
  else if s = kJSONFalse then .ok (false, rest)
  else .error (.unrecognizableAsBoolean s)

/-! ### Base64 -/

/-- `kBase64DecodeTable`. -/
def base64Value (ch : UInt8) : UInt8 :=
  if 0x41 ≤ ch ∧ ch ≤ 0x5A then ch - 0x41
  else if 0x61 ≤ ch ∧ ch ≤ 0x7A then ch - 0x61 + 26
  else if 0x30 ≤ ch ∧ ch ≤ 0x39 then ch - 0x30 + 52
  else if ch = 0x2B then 0x3E
  else if ch = 0x2F then 0x3F
  else 0xFF

/-- Groups of four characters give three bytes.  A single character that is left gives none. -/
def base64Groups : Bytes → Bytes
  | a :: b :: c :: d :: rest =>
    [base64Value a <<< 2 ||| base64Value b >>> 4,
      (base64Value b <<< 4 &&& (0xF0 : UInt8)) ||| base64Value c >>> 2,
      (base64Value c <<< 6 &&& (0xC0 : UInt8)) ||| base64Value d] ++ base64Groups rest
  | [a, b, c] =>
    [base64Value a <<< 2 ||| base64Value b >>> 4,
      (base64Value b <<< 4 &&& (0xF0 : UInt8)) ||| base64Value c >>> 2]
  | [a, b] => [base64Value a <<< 2 ||| base64Value b >>> 4]
  | [_] => []
  | [] => []

/-- Padding is stripped first. -/
def base64Decode (tmp : Bytes) : Bytes := base64Groups (tmp.rdropWhile (· == 0x3D))

def readJSONBase64 : Read Bytes := fun input => do
  let (tmp, rest) ← readJSONString input
  .ok (base64Decode tmp, rest)

/-! ## Strings read back -/

theorem skipWhitespace_cons {ch : UInt8} (visible : isWhitespace ch = false) (rest : Bytes) :
    skipWhitespace (ch :: rest) = ch :: rest := by
  rw [skipWhitespace, List.dropWhile_cons_of_neg (by simp [visible])]

theorem readStringChars_delimiter (rest : Bytes) :
    readStringChars (kJSONStringDelimiter :: rest) = .ok ([], rest) := by
  rw [readStringChars, if_pos rfl]

theorem readStringChars_regular {ch : UInt8} (delimiter : ch ≠ kJSONStringDelimiter)
    (backslash : ch ≠ kJSONBackslash) (rest : Bytes) :
    readStringChars (ch :: rest) = (readStringChars rest).map fun p => (ch :: p.1, p.2) := by
  rw [readStringChars, if_neg delimiter, if_neg backslash]

theorem readStringChars_escape {input seq rest : Bytes}
    (read : readJSONEscapeSequence input = .ok (seq, rest)) :
    readStringChars (kJSONBackslash :: input) =
      (readStringChars rest).map fun p => (seq ++ p.1, p.2) := by
  rw [readStringChars, if_neg (by decide), if_pos rfl]
  split
  · rename_i e failed
    rw [read] at failed
    cases failed
  · rename_i seq' rest' read'
    rw [read] at read'
    cases read'
    rfl

theorem readJSONEscapeSequence_control (rest : Bytes) : ∀ n < 32,
    escape (UInt8.ofNat n) = kJSONBackslash :: (escape (UInt8.ofNat n)).tail ∧
      readJSONEscapeSequence ((escape (UInt8.ofNat n)).tail ++ rest) =
        .ok ([UInt8.ofNat n], rest) := by
  intro n control
  interval_cases n <;> exact ⟨rfl, rfl⟩

theorem readStringChars_escape_append (ch : UInt8) (rest : Bytes) :
    readStringChars (escape ch ++ rest) = (readStringChars rest).map fun p => (ch :: p.1, p.2) := by
  by_cases special : ch = kJSONBackslash ∨ ch = kJSONStringDelimiter
  · have short : escape ch = [kJSONBackslash, ch] := by
      rw [escape, if_pos special]
    have read : readJSONEscapeSequence (ch :: rest) = .ok ([ch], rest) := by
      rcases special with rfl | rfl <;> rfl
    rw [short]
    exact readStringChars_escape read
  · by_cases regular : 32 ≤ ch
    · have plain : escape ch = [ch] := by
        rw [escape, if_neg special, if_pos regular]
      rw [plain]
      exact readStringChars_regular (fun same => special (.inr same))
        (fun same => special (.inl same)) rest
    · have control : ch.toNat < 32 := by
        simpa [UInt8.le_iff_toNat_le] using regular
      have same : UInt8.ofNat ch.toNat = ch := UInt8.ofNat_toNat
      have sequence := readJSONEscapeSequence_control rest ch.toNat control
      rw [same] at sequence
      rw [sequence.1]
      exact readStringChars_escape sequence.2

theorem readStringChars_escapeAll (str rest : Bytes) :
    readStringChars (escapeAll str ++ kJSONStringDelimiter :: rest) = .ok (str, rest) := by
  induction str with
  | nil => exact readStringChars_delimiter rest
  | cons ch str ih =>
    rw [escapeAll_cons, List.append_assoc, readStringChars_escape_append, ih]
    rfl

theorem readJSONString_writeJSONString (str : Bytes) :
    readJSONString (writeJSONString str) = .ok (str, []) := by
  have chars := readStringChars_escapeAll str []
  have opens : ensureChar kJSONStringDelimiter (writeJSONString str) =
      .ok ((), escapeAll str ++ [kJSONStringDelimiter]) := by
    rw [ensureChar, writeJSONString, skipWhitespace_cons (by decide)]
    rfl
  rw [readJSONString, opens]
  exact chars

/-! ## Numbers read back -/

theorem takeWhile_eq_self {p : UInt8 → Bool} {s : Bytes} (all : ∀ ch ∈ s, p ch = true) :
    s.span p = (s, []) := by
  rw [List.span_eq_takeWhile_dropWhile, List.takeWhile_eq_self_iff.mpr all,
    List.dropWhile_eq_nil_iff.mpr all]

theorem skipWhitespace_numerical {s : Bytes} (all : ∀ ch ∈ s, isNumerical ch = true) :
    skipWhitespace s = s := by
  cases s with
  | nil => rfl
  | cons ch rest =>
    refine skipWhitespace_cons ?_ rest
    have numerical := all ch List.mem_cons_self
    by_contra white
    rw [Bool.not_eq_false] at white
    simp only [isWhitespace, Bool.or_eq_true, beq_iff_eq] at white
    rcases white with ((rfl | rfl) | rfl) | rfl <;> exact absurd numerical (by decide)

theorem readNumericalChars_eq {s : Bytes} (all : ∀ ch ∈ s, isNumerical ch = true) :
    readNumericalChars s = (s, []) := by
  rw [readNumericalChars, skipWhitespace_numerical all, takeWhile_eq_self all]

theorem digit_byte {c : Char} (digit : c.isDigit = true) :
    isDigit (UInt8.ofNat c.toNat) = true ∧ Char.ofNat (UInt8.ofNat c.toNat).toNat = c := by
  have range : 0x30 ≤ c.toNat ∧ c.toNat ≤ 0x39 := by
    simpa [Char.isDigit, UInt32.le_iff_toNat_le] using digit
  have same : (UInt8.ofNat c.toNat).toNat = c.toNat := by
    rw [UInt8.toNat_ofNat']
    omega
  refine ⟨?_, by rw [same, Char.ofNat_toNat]⟩
  simp [isDigit, UInt8.le_iff_toNat_le, same, range]

theorem digits_all (n : Nat) : ∀ ch ∈ digits n, isDigit ch = true := by
  intro ch member
  obtain ⟨c, inside, rfl⟩ := List.mem_map.mp member
  exact (digit_byte (Nat.isDigit_of_mem_toDigits (b := 10) (by decide) (by decide) inside)).1

theorem parseDigits_digits (n : Nat) : parseDigits (digits n) = some n := by
  have nonempty : digits n ≠ [] := by
    simp [digits, Nat.toDigits_ne_nil]
  have back : (digits n).map (fun ch => Char.ofNat ch.toNat) = Nat.toDigits 10 n := by
    rw [digits, List.map_map]
    refine (List.map_congr_left fun c inside => ?_).trans (List.map_id _)
    exact (digit_byte (Nat.isDigit_of_mem_toDigits (b := 10) (by decide) (by decide) inside)).2
  rw [parseDigits, if_pos ⟨nonempty, List.all_eq_true.mpr (digits_all n)⟩, back,
    Nat.ofDigitChars_ten_toDigits]

theorem isNumerical_of_isDigit {ch : UInt8} (digit : isDigit ch = true) :
    isNumerical ch = true := by
  unfold isDigit at digit
  simp [isNumerical, digit]

theorem writeJSONInt_all (num : Int) : ∀ ch ∈ writeJSONInt num, isNumerical ch = true := by
  have unsigned : ∀ ch ∈ digits num.natAbs, isNumerical ch = true := fun ch member =>
    isNumerical_of_isDigit (digits_all _ ch member)
  unfold writeJSONInt
  split
  · exact List.forall_mem_cons.mpr ⟨by decide, unsigned⟩
  · exact unsigned

theorem tryToIntegral_writeJSONInt {bits : Nat} {num : Int} (low : -2 ^ (bits - 1) ≤ num)
    (high : num < 2 ^ (bits - 1)) : tryToIntegral bits (writeJSONInt num) = some num := by
  have kept : (some num).filter (fun n => decide (-2 ^ (bits - 1) ≤ n ∧ n < 2 ^ (bits - 1))) =
      some num := by
    rw [Option.filter_some, if_pos (decide_eq_true ⟨low, high⟩)]
  unfold tryToIntegral writeJSONInt
  split_ifs with negative
  · have value : -((num.natAbs : Nat) : Int) = num := by omega
    simp only [parseDigits_digits, Option.map_some, value]
    exact kept
  · have value : ((num.natAbs : Nat) : Int) = num := by omega
    have sign : ∀ ch rest, digits num.natAbs = ch :: rest → isDigit ch = true :=
      fun ch rest cut => digits_all _ ch (cut ▸ List.mem_cons_self)
    split
    · rename_i rest cut
      exact absurd (sign _ _ cut) (by decide)
    · rename_i rest cut
      exact absurd (sign _ _ cut) (by decide)
    · simp only [parseDigits_digits, Option.map_some, value]
      exact kept

/-- An integer that fits is read back. -/
theorem readJSONIntegral_writeJSONInt {bits : Nat} {num : Int} (low : -2 ^ (bits - 1) ≤ num)
    (high : num < 2 ^ (bits - 1)) :
    readJSONIntegral bits (writeJSONInt num) = .ok (num, []) := by
  unfold readJSONIntegral
  rw [readNumericalChars_eq (writeJSONInt_all num)]
  dsimp only
  rw [tryToIntegral_writeJSONInt low high]

/-- The text of a finite number is numerical and stands for the number. -/
structure Conversions.RoundTrip (conv : Conversions) : Prop where
  numerical : ∀ f x, f.isFinite x = true → ∀ ch ∈ conv.toAppend f x, isNumerical ch = true
  exact : ∀ f x, f.isFinite x = true → conv.tryTo f (conv.toAppend f x) = some x

section Floating

variable {conv : Conversions} {f : Format} {x : Nat}

theorem readJSONFloating_string (str : Bytes) : readJSONFloating conv f (writeJSONString str) =
      if str = kThriftNan then .ok (f.quietNaN, [])
      else if str = kThriftNegativeNan then .ok (f.sign + f.quietNaN, [])
      else if str = kThriftInfinity then .ok (f.infinity, [])
      else if str = kThriftNegativeInfinity then .ok (f.sign + f.infinity, [])
      else .error (.unrecognizableAsFloatingPoint str) := by
  have opens : skipWhitespace (writeJSONString str) = writeJSONString str :=
    skipWhitespace_cons (by decide) _
  have quoted : peekCharSafe (writeJSONString str) = kJSONStringDelimiter := rfl
  unfold readJSONFloating
  simp only [opens]
  rw [if_pos quoted, readJSONString_writeJSONString]
  rfl

/-- A number is read back, as the quiet NaN where it is a NaN. -/
theorem readJSONFloating_writeJSONDouble (roundTrip : conv.RoundTrip) (x_lt : x < 2 * f.sign)
    (below : f.infinity < f.sign) :
    readJSONFloating conv f (writeJSONDouble conv f x) =
      .ok (if f.isNaN x then f.quietNaN else x, []) := by
  have half : x % f.sign = x ∨ x = f.sign + x % f.sign := by
    have cut := Nat.div_add_mod x f.sign
    have quotient : x / f.sign < 2 := Nat.div_lt_of_lt_mul (by rwa [Nat.mul_comm] at x_lt)
    rcases Nat.lt_succ_iff_lt_or_eq.mp quotient with zero | one
    · have less := (Nat.div_eq_zero_iff_lt (by omega)).mp (Nat.lt_one_iff.mp zero)
      exact .inl (Nat.mod_eq_of_lt less)
    · rw [one, Nat.mul_one] at cut
      exact .inr cut.symm
  unfold writeJSONDouble
  by_cases positive : x = f.infinity
  · have number : f.isNaN x = false := by
      rw [Format.isNaN, decide_eq_false_iff_not, positive, Nat.mod_eq_of_lt below]
      omega
    rw [if_pos positive, readJSONFloating_string, if_neg (by decide), if_neg (by decide),
      if_pos rfl, number, positive]
    rfl
  rw [if_neg positive]
  by_cases negative : x = f.sign + f.infinity
  · have number : f.isNaN x = false := by
      rw [Format.isNaN, decide_eq_false_iff_not, negative, Nat.add_mod_left, Nat.mod_eq_of_lt below]
      omega
    rw [if_pos negative, readJSONFloating_string, if_neg (by decide), if_neg (by decide),
      if_neg (by decide), if_pos rfl, number, negative]
    rfl
  rw [if_neg negative]
  by_cases nan : f.isNaN x = true
  · rw [if_pos nan, if_pos nan, readJSONFloating_string, if_pos rfl]
  · rw [if_neg nan, if_neg nan]
    have finite : f.isFinite x = true := by
      rw [Format.isNaN, decide_eq_true_iff] at nan
      rw [Format.isFinite, decide_eq_true_iff]
      omega
    have all := roundTrip.numerical f x finite
    have unquoted : peekCharSafe (conv.toAppend f x) ≠ kJSONStringDelimiter := by
      cases cut : conv.toAppend f x with
      | nil => decide
      | cons ch rest =>
        intro quoted
        have numerical := all ch (cut ▸ List.mem_cons_self)
        rw [show ch = kJSONStringDelimiter from quoted] at numerical
        exact absurd numerical (by decide)
    unfold readJSONFloating
    simp only [skipWhitespace_numerical all]
    rw [if_neg unquoted, readNumericalChars_eq all]
    dsimp only
    rw [roundTrip.exact f x finite]

end Floating

theorem readJSONBool_writeJSONBool (val : Bool) :
    readJSONBool (writeJSONBool val) = .ok (val, []) := by
  cases val <;> rfl

/-! ## Base64 -/

theorem length_base64Groups_lt {s : Bytes} (nonempty : s ≠ []) :
    (base64Groups s).length < s.length := by
  induction s using base64Groups.induct with
  | case1 a b c d rest ih =>
    rw [base64Groups]
    by_cases last : rest = []
    · subst last
      simp [base64Groups]
    · have less := ih last
      simp only [List.length_append, List.length_cons, List.length_nil]
      omega
  | case2 a b c => exact Nat.lt_succ_self _
  | case3 a b => exact Nat.lt_succ_self _
  | case4 a => exact Nat.zero_lt_one
  | case5 => exact absurd rfl nonempty

/-- Reading text as base64 changes all of it but the empty one. -/
theorem base64Decode_eq_self {s : Bytes} : base64Decode s = s ↔ s = [] := by
  constructor
  · intro same
    by_contra nonempty
    have stripped : (s.rdropWhile (· == 0x3D)).length ≤ s.length :=
      (List.rdropWhile_prefix _ _).length_le
    have less : (base64Decode s).length < s.length := by
      unfold base64Decode
      by_cases padding : s.rdropWhile (· == 0x3D) = []
      · rw [padding]
        exact List.length_pos_iff.mpr nonempty
      · exact Nat.lt_of_lt_of_le (length_base64Groups_lt padding) stripped
    rw [same] at less
    exact Nat.lt_irrefl _ less
  · rintro rfl
    rfl

end FbThrift.SimpleJSON
