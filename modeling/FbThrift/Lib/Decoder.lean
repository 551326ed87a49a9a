import Mathlib.Data.Nat.Bitwise
import FbThrift.Lib.PrefixCode

/-!
# Decoders over byte streams

A `Decoder` takes bytes from the front of its input.  `Decodes x bs a` says that the
bytes `bs` decode to `a` whatever follows them, and `Consumes x k` that a successful
run used at least `k` bytes and looked at nothing else.  Both are closed under
sequencing, so a format is verified by verifying its primitives: fixed width big
endian words, base 128 varints and zigzag.
-/

namespace FbThrift

/-! ## Runs of a failing state monad -/

theorem Except.bind_eq_ok {ε α β : Type} {x : Except ε α} {f : α → Except ε β} {b : β}
    (ok : x >>= f = .ok b) : ∃ a, x = .ok a ∧ f a = .ok b := by
  cases x with
  | error err => cases ok
  | ok a => exact ⟨a, rfl, ok⟩

theorem Except.map_eq_ok {ε α β : Type} {x : Except ε α} {f : α → β} {b : β}
    (ok : x.map f = .ok b) : ∃ a, x = .ok a ∧ f a = b := by
  cases x with
  | error err => cases ok
  | ok a => exact ⟨a, rfl, Except.ok.inj ok⟩

namespace Run

variable {σ α β : Type} {x : StateT σ (Except String) α} {f : α → StateT σ (Except String) β}
variable {s t u : σ} {a : α} {b : β}

/-- A run of a sequence is a run of its first part and one of the rest. -/
theorem bind_ok (ok : (x >>= f) s = .ok (b, u)) : ∃ a t, x s = .ok (a, t) ∧ f a t = .ok (b, u) := by
  change (x s >>= fun p => f p.1 p.2) = _ at ok
  cases first : x s with
  | error err =>
    rw [first] at ok
    cases ok
  | ok p =>
    rw [first] at ok
    exact ⟨p.1, p.2, rfl, ok⟩

theorem bind_of_ok (first : x s = .ok (a, t)) : (x >>= f) s = f a t := by
  change (x s >>= fun p => f p.1 p.2) = _
  rw [first]
  rfl

theorem bind_of_error {err : String} (first : x s = .error err) : (x >>= f) s = .error err := by
  change (x s >>= fun p => f p.1 p.2) = _
  rw [first]
  rfl

theorem map_of_ok (first : x s = .ok (a, t)) (g : α → β) : (g <$> x) s = .ok (g a, t) := by
  change (x s >>= fun p => pure (g p.1, p.2)) = _
  rw [first]
  rfl

theorem map_ok {g : α → β} (ok : (g <$> x) s = .ok (b, u)) : ∃ a, x s = .ok (a, u) ∧ b = g a := by
  change (x s >>= fun p => pure (g p.1, p.2)) = _ at ok
  cases first : x s with
  | error err =>
    rw [first] at ok
    cases ok
  | ok p =>
    rw [first] at ok
    cases ok
    exact ⟨p.1, rfl, rfl⟩

@[simp] theorem get_bind {f : σ → StateT σ (Except String) β} : (get >>= f) s = f s s := rfl

@[simp] theorem modify_bind {g : σ → σ} {f : PUnit → StateT σ (Except String) β} :
    (modify g >>= f) s = f ⟨⟩ (g s) := rfl

@[simp] theorem modify_run {g : σ → σ} :
    (modify g : StateT σ (Except String) PUnit) s = .ok (⟨⟩, g s) := rfl

@[simp] theorem pure_run {a : α} : (pure a : StateT σ (Except String) α) s = .ok (a, s) := rfl

@[simp] theorem throw_run {err : String} :
    (throw err : StateT σ (Except String) α) s = .error err := rfl

@[simp] theorem pure_bind_run {f : α → StateT σ (Except String) β} : (pure a >>= f) s = f a s := rfl

@[simp] theorem throw_bind_run {err : String} {f : α → StateT σ (Except String) β} :
    ((throw err : StateT σ (Except String) α) >>= f) s = .error err := rfl

end Run

/-! ## Decoders -/

/-- Takes bytes from the front of the input, or fails with a message. -/
abbrev Decoder (α : Type) := StateT Bytes (Except String) α

namespace Decoder

variable {α β : Type} {x : Decoder α} {f : α → Decoder β} {bs cs : Bytes} {a : α} {b : β}

/-- The bytes decode to the value, and the decoder stops right after them. -/
def Decodes (x : Decoder α) (bs : Bytes) (a : α) : Prop :=
  ∀ rest, x (bs ++ rest) = .ok (a, rest)

/-- Every run uses at least `k` bytes, and depends on nothing after them. -/
def Consumes (x : Decoder α) (k : Nat) : Prop :=
  ∀ input a rest, x input = .ok (a, rest) →
    ∃ bs, input = bs ++ rest ∧ k ≤ bs.length ∧ Decodes x bs a

theorem Decodes.pure (a : α) : Decodes (pure a) [] a :=
  fun _ => rfl

theorem Decodes.bind (first : Decodes x bs a) (second : Decodes (f a) cs b) :
    Decodes (x >>= f) (bs ++ cs) b := by
  intro rest
  rw [List.append_assoc, Run.bind_of_ok (first (cs ++ rest)), second rest]

theorem Consumes.pure (a : α) : Consumes (pure a : Decoder α) 0 := by
  intro input a' rest ok
  cases ok
  exact ⟨[], rfl, Nat.le_refl 0, .pure a⟩

theorem Consumes.throw (err : String) (k : Nat) : Consumes (throw err : Decoder α) k := by
  intro input a rest ok
  cases ok

theorem Consumes.mono {k m : Nat} (consumes : Consumes x k) (le : m ≤ k) : Consumes x m := by
  intro input a rest ok
  obtain ⟨bs, split, long, decodes⟩ := consumes input a rest ok
  exact ⟨bs, split, Nat.le_trans le long, decodes⟩

theorem Consumes.bind {k m : Nat} (first : Consumes x k) (second : ∀ a, Consumes (f a) m) :
    Consumes (x >>= f) (k + m) := by
  intro input b rest ok
  obtain ⟨a, mid, ok₁, ok₂⟩ := Run.bind_ok ok
  obtain ⟨bs, split₁, long₁, decodes₁⟩ := first _ _ _ ok₁
  obtain ⟨cs, split₂, long₂, decodes₂⟩ := second a _ _ _ ok₂
  refine ⟨bs ++ cs, ?_, ?_, decodes₁.bind decodes₂⟩
  · rw [split₁, split₂, List.append_assoc]
  · rw [List.length_append]
    omega

/-! ## Bytes -/

/-- `Cursor::read<uint8_t>`. -/
def readByte : Decoder UInt8 := fun input =>
  match input with
  | [] => .error "underflow"
  | b :: rest => .ok (b, rest)

/-- Takes the next `n` bytes, as `Cursor::clone` and `Cursor::skip` do. -/
def take (n : Nat) : Decoder Bytes := fun input =>
  if n ≤ input.length then .ok (input.take n, input.drop n) else .error "underflow"

theorem decodes_readByte (b : UInt8) : Decodes readByte [b] b :=
  fun _ => rfl

theorem consumes_readByte : Consumes readByte 1 := by
  intro input a rest ok
  cases input with
  | nil => cases ok
  | cons b input =>
    cases ok
    exact ⟨[a], rfl, Nat.le_refl 1, decodes_readByte a⟩

theorem decodes_take (bs : Bytes) : Decodes (take bs.length) bs bs := by
  intro rest
  simp [take]

theorem consumes_take (n : Nat) : Consumes (take n) n := by
  intro input a rest ok
  unfold take at ok
  split at ok
  next fits =>
    cases ok
    have length : (input.take n).length = n := List.length_take_of_le fits
    have decodes := decodes_take (input.take n)
    rw [length] at decodes
    exact ⟨input.take n, (List.take_append_drop n input).symm, by omega, decodes⟩
  next => cases ok

/-! ## Big endian words -/

/-- The low `k` bytes of a number, most significant first. -/
def writeBE : Nat → Nat → Bytes
  | 0, _ => []
  | k + 1, n => UInt8.ofNat (n / 256 ^ k) :: writeBE k n

/-- Reads `k` bytes, most significant first, below the bytes read so far. -/
def readBELoop : Nat → Nat → Decoder Nat
  | 0, acc => pure acc
  | k + 1, acc => do
    let b ← readByte
    readBELoop k (acc * 256 + b.toNat)

/-- `Cursor::readBE` for a word of `k` bytes. -/
def readBE (k : Nat) : Decoder Nat := readBELoop k 0

@[simp] theorem length_writeBE (k n : Nat) : (writeBE k n).length = k := by
  induction k with
  | zero => rfl
  | succ k ih => simp [writeBE, ih]

theorem decodes_readBELoop (k n acc : Nat) :
    Decodes (readBELoop k acc) (writeBE k n) (acc * 256 ^ k + n % 256 ^ k) := by
  induction k generalizing acc with
  | zero =>
    have value : acc * 256 ^ 0 + n % 256 ^ 0 = acc := by
      rw [Nat.pow_zero, Nat.mod_one]
      omega
    rw [value]
    exact .pure acc
  | succ k ih =>
    have rest := ih (acc * 256 + (UInt8.ofNat (n / 256 ^ k)).toNat)
    have value : (acc * 256 + (UInt8.ofNat (n / 256 ^ k)).toNat) * 256 ^ k + n % 256 ^ k =
        acc * 256 ^ (k + 1) + n % 256 ^ (k + 1) := by
      have digit : (UInt8.ofNat (n / 256 ^ k)).toNat = n / 256 ^ k % 256 := by simp
      rw [digit, Nat.mod_pow_succ]
      ring
    rw [value] at rest
    exact (decodes_readByte _).bind rest

theorem decodes_readBE {k n : Nat} (fits : n < 256 ^ k) : Decodes (readBE k) (writeBE k n) n := by
  have whole := decodes_readBELoop k n 0
  rw [Nat.zero_mul, Nat.zero_add, Nat.mod_eq_of_lt fits] at whole
  exact whole

theorem consumes_readBELoop (k acc : Nat) : Consumes (readBELoop k acc) k := by
  induction k generalizing acc with
  | zero => exact .pure acc
  | succ k ih =>
    have both := consumes_readByte.bind fun b => ih (acc * 256 + b.toNat)
    rw [Nat.add_comm] at both
    exact both

theorem consumes_readBE (k : Nat) : Consumes (readBE k) k :=
  consumes_readBELoop k 0

/-! ## Varints -/

/-- `kVarintMaxBytes`: base 128 digits of a word. -/
def varintMaxBytes (bits : Nat) : Nat := (bits + 6) / 7

/-- The loop of `readVarintSlow`: `left` more bytes may follow, the next digit goes
to bit `shift`, and the word keeps its low `bits` bits. -/
def readVarintLoop (bits : Nat) : Nat → Nat → Nat → Decoder Nat
  | 0, _, _ => throw "invalid varint read"
  | left + 1, shift, result => do
    let byte ← readByte
    let result := result ||| (byte.toNat % 128) <<< shift % 2 ^ bits
    if byte.toNat < 128 then pure result
    else readVarintLoop bits left (shift + 7) result

/-- `readVarint`, as the unsigned word. -/
def readVarint (bits : Nat) : Decoder Nat :=
  readVarintLoop bits (varintMaxBytes bits) 0 0

/-- `writeVarint` of an unsigned word: seven bits a byte, least significant first,
with the high bit set on all but the last. -/
def writeVarint (n : Nat) : Bytes :=
  if n < 128 then [UInt8.ofNat n]
  else UInt8.ofNat (n % 128 + 128) :: writeVarint (n / 128)
termination_by n

theorem decodes_readVarintLoop (bits left shift result n : Nat) (low : result < 2 ^ shift)
    (fits : n * 2 ^ shift < 2 ^ bits) (enough : bits ≤ shift + 7 * left)
    (some : shift < bits) :
    Decodes (readVarintLoop bits left shift result) (writeVarint n) (result + n * 2 ^ shift) := by
  induction left generalizing shift result n with
  | zero => omega
  | succ left ih =>
    -- A digit lands above the bits read so far, so `|||` is an addition.
    have digit : ∀ d, d < 128 → d * 2 ^ shift < 2 ^ bits →
        result ||| (d % 128) <<< shift % 2 ^ bits = result + d * 2 ^ shift := by
      intro d small below
      rw [Nat.mod_eq_of_lt small, Nat.shiftLeft_eq, Nat.mod_eq_of_lt below, Nat.or_comm,
        ← Nat.shiftLeft_eq, ← Nat.shiftLeft_add_eq_or_of_lt low, Nat.shiftLeft_eq, Nat.add_comm]
    unfold writeVarint
    split
    next small =>
      have byte : (UInt8.ofNat n).toNat = n := by
        simp only [UInt8.toNat_ofNat']
        omega
      have stop : Decodes (pure (result + n * 2 ^ shift) : Decoder Nat) [] _ := .pure _
      refine (decodes_readByte (UInt8.ofNat n)).bind ?_
      simpa only [byte, small, if_true, digit n small fits] using stop
    next large =>
      have byte : (UInt8.ofNat (n % 128 + 128)).toNat = n % 128 + 128 := by
        simp only [UInt8.toNat_ofNat']
        omega
      have mod : (n % 128 + 128) % 128 = n % 128 := by omega
      have power : (2 : Nat) ^ (shift + 7) = 2 ^ shift * 128 := by rw [Nat.pow_add]
      have parts : n = n % 128 + 128 * (n / 128) := by omega
      have value : result + n * 2 ^ shift =
          result + n % 128 * 2 ^ shift + n / 128 * 2 ^ (shift + 7) := by
        rw [power]
        nth_rewrite 1 [parts]
        ring
      have below : n % 128 * 2 ^ shift < 2 ^ bits :=
        Nat.lt_of_le_of_lt (Nat.mul_le_mul_right _ (Nat.mod_le n 128)) fits
      have low' : result + n % 128 * 2 ^ shift < 2 ^ (shift + 7) := by
        have bound : n % 128 * 2 ^ shift ≤ 127 * 2 ^ shift :=
          Nat.mul_le_mul_right _ (by omega)
        rw [power]
        omega
      have fits' : n / 128 * 2 ^ (shift + 7) < 2 ^ bits := by
        have le : n / 128 * 128 * 2 ^ shift ≤ n * 2 ^ shift :=
          Nat.mul_le_mul_right _ (Nat.div_mul_le_self n 128)
        rw [power]
        calc n / 128 * (2 ^ shift * 128) = n / 128 * 128 * 2 ^ shift := by ring
          _ < 2 ^ bits := by omega
      -- A digit that is left over lies below bit `bits`.
      have some' : shift + 7 < bits := by
        have one : 2 ^ (shift + 7) ≤ n / 128 * 2 ^ (shift + 7) :=
          Nat.le_mul_of_pos_left _ (by omega)
        exact (Nat.pow_lt_pow_iff_right (by omega)).mp (Nat.lt_of_le_of_lt one fits')
      have rest := ih _ _ _ low' fits' (by omega) some'
      rw [← value] at rest
      refine (decodes_readByte _).bind ?_
      have digit' := digit (n % 128) (Nat.mod_lt n (by omega)) below
      rw [Nat.mod_mod] at digit'
      simpa only [byte, mod, digit', show ¬ n % 128 + 128 < 128 by omega, if_false] using rest

theorem decodes_readVarint {bits n : Nat} (pos : 0 < bits) (fits : n < 2 ^ bits) :
    Decodes (readVarint bits) (writeVarint n) n := by
  have enough : bits ≤ 0 + 7 * varintMaxBytes bits := by
    unfold varintMaxBytes
    omega
  have whole := decodes_readVarintLoop bits (varintMaxBytes bits) 0 0 n (by omega)
    (by simpa using fits) enough pos
  simpa [readVarint] using whole

theorem consumes_readVarintLoop (bits left shift result : Nat) :
    Consumes (readVarintLoop bits left shift result) 1 := by
  induction left generalizing shift result with
  | zero => exact .throw _ _
  | succ left ih =>
    refine (consumes_readByte.bind (m := 0) fun byte => ?_).mono (by omega)
    dsimp only
    split
    · exact .pure _
    · exact (ih _ _).mono (by omega)

theorem consumes_readVarint (bits : Nat) : Consumes (readVarint bits) 1 :=
  consumes_readVarintLoop bits _ 0 0

theorem writeVarint_ne_nil (n : Nat) : writeVarint n ≠ [] := by
  unfold writeVarint
  split <;> simp

/-! ## Fixed widths -/

/-- A decoder that takes exactly `k` bytes. -/
def Takes (x : Decoder α) (k : Nat) : Prop :=
  ∀ input a rest, x input = .ok (a, rest) → input.length = k + rest.length

theorem takes_readByte : Takes readByte 1 := by
  intro input a rest ok
  cases input with
  | nil => cases ok
  | cons b input =>
    cases ok
    simp [Nat.add_comm]

theorem takes_readBELoop (k acc : Nat) : Takes (readBELoop k acc) k := by
  induction k generalizing acc with
  | zero =>
    intro input a rest ok
    cases ok
    simp
  | succ k ih =>
    intro input a rest ok
    obtain ⟨b, mid, first, second⟩ := Run.bind_ok ok
    have one := takes_readByte input b mid first
    have others := ih _ mid a rest second
    omega

theorem takes_readBE (k : Nat) : Takes (readBE k) k := takes_readBELoop k 0

/-! ## Zigzag -/

/-- `signedIntToZigzag`. -/
def signedIntToZigzag {w : Nat} (n : BitVec w) : BitVec w :=
  (n <<< 1) ^^^ n.sshiftRight (w - 1)

/-- `zigzagToSignedInt`. -/
def zigzagToSignedInt {w : Nat} (n : BitVec w) : BitVec w :=
  if n.getLsbD 0 then ~~~(n >>> 1) else n >>> 1

theorem getLsbD_sign {w : Nat} (pos : 0 < w) (n : BitVec w) (i : Nat) (below : i < w) :
    (n.sshiftRight (w - 1)).getLsbD i = n.msb := by
  rw [BitVec.getLsbD_sshiftRight, BitVec.msb_eq_getLsbD_last]
  by_cases zero : i = 0
  · have last : w - 1 < w := by omega
    simp [zero, last, Nat.ne_of_gt pos]
  · have beyond : ¬ w - 1 + i < w := by omega
    simp [below, beyond]

theorem zigzagToSignedInt_signedIntToZigzag {w : Nat} (pos : 0 < w) (n : BitVec w) :
    zigzagToSignedInt (signedIntToZigzag n) = n := by
  have sign := getLsbD_sign pos n
  have low : (signedIntToZigzag n).getLsbD 0 = n.msb := by
    simp [signedIntToZigzag, sign 0 pos]
  unfold zigzagToSignedInt
  rw [low]
  apply BitVec.eq_of_getLsbD_eq
  intro i below
  by_cases last : i + 1 < w
  · have bit : (signedIntToZigzag n).getLsbD (i + 1) = (n.getLsbD i ^^ n.msb) := by
      rw [signedIntToZigzag, BitVec.getLsbD_xor, sign (i + 1) last, BitVec.getLsbD_shiftLeft]
      simp [last]
    cases msb : n.msb <;> simp [Nat.add_comm 1 i, bit, msb, below]
  · -- The last bit is the sign, which the shift brings in as zero.
    have top : (signedIntToZigzag n).getLsbD (i + 1) = false :=
      BitVec.getLsbD_of_ge _ _ (by omega)
    have isLast : n[i] = n.msb := by
      rw [BitVec.msb_eq_getLsbD_last, show w - 1 = i by omega, BitVec.getLsbD_eq_getElem below]
    cases msb : n.msb <;> simp [Nat.add_comm 1 i, top, msb, below, isLast]

/-- The zigzag of a word, as a number. -/
theorem toNat_signedIntToZigzag {w : Nat} (pos : 0 < w) (n : BitVec w) :
    (signedIntToZigzag n).toNat =
      if 0 ≤ n.toInt then (2 * n.toInt).toNat else (-2 * n.toInt - 1).toNat := by
  have below := n.isLt
  have sign : n.sshiftRight (w - 1) = if n.msb then BitVec.allOnes w else 0#w := by
    apply BitVec.eq_of_getLsbD_eq
    intro i below
    rw [getLsbD_sign pos n i below]
    cases n.msb <;> simp [below]
  have half := BitVec.msb_eq_decide n
  have power : (2 : Nat) ^ w = 2 * 2 ^ (w - 1) := by
    rw [← Nat.pow_succ', Nat.succ_eq_add_one, Nat.sub_add_cancel pos]
  rw [signedIntToZigzag, sign, BitVec.toInt_eq_msb_cond]
  cases msb : n.msb with
  | false =>
    rw [msb] at half
    have small : n.toNat < 2 ^ (w - 1) := by simpa using half.symm
    have shifted : (n <<< 1).toNat = 2 * n.toNat := by
      rw [BitVec.toNat_shiftLeft, Nat.shiftLeft_eq, Nat.pow_one, Nat.mul_comm]
      exact Nat.mod_eq_of_lt (by omega)
    simp only [Bool.false_eq_true, if_false, BitVec.xor_zero, shifted]
    rw [if_pos (by omega)]
    omega
  | true =>
    rw [msb] at half
    have large : 2 ^ (w - 1) ≤ n.toNat := by simpa using half.symm
    have shifted : (n <<< 1).toNat = 2 * n.toNat - 2 ^ w := by
      rw [BitVec.toNat_shiftLeft, Nat.shiftLeft_eq, Nat.pow_one, Nat.mul_comm,
        Nat.mod_eq_sub_mod (by omega)]
      exact Nat.mod_eq_of_lt (by omega)
    simp only [if_true, BitVec.xor_allOnes, BitVec.toNat_not, shifted]
    rw [if_neg (by omega)]
    omega

end Decoder

end FbThrift
