import Mathlib.Data.Nat.Bitwise
import Mathlib.Data.Nat.Size
import FbThrift.Lib.PrefixCode

/-!
# Words and their bytes

A word is a number below a power of two.  Its bytes are its base 256 digits, least
significant first, and bitwise operations work on each digit by itself.  The instructions
that gather and scatter bits and that count zeros are defined bit by bit, as their manuals
have them, and followed byte by byte in proofs.
-/

namespace FbThrift.Words

/-! ## Digits -/

/-- Arithmetic of a word of `w` bits. -/
def wrap (w n : Nat) : Nat := n % 2 ^ w

section

variable {k a c : Nat}

/-- A number above a digit is that number beside the digit. -/
theorem testBit_digit (small : a < 2 ^ k) (b j : Nat) :
    (a + 2 ^ k * b).testBit j = if j < k then a.testBit j else b.testBit (j - k) := by
  rw [Nat.add_comm, Nat.testBit_two_pow_mul_add b small]

theorem or_digit (small : a < 2 ^ k) (small' : c < 2 ^ k) (b d : Nat) :
    (a + 2 ^ k * b) ||| (c + 2 ^ k * d) = (a ||| c) + 2 ^ k * (b ||| d) := by
  apply Nat.eq_of_testBit_eq
  intro j
  rw [Nat.testBit_or, testBit_digit small, testBit_digit small',
    testBit_digit (Nat.or_lt_two_pow small small')]
  split <;> rw [Nat.testBit_or]

theorem and_digit (small : a < 2 ^ k) (small' : c < 2 ^ k) (b d : Nat) :
    (a + 2 ^ k * b) &&& (c + 2 ^ k * d) = (a &&& c) + 2 ^ k * (b &&& d) := by
  apply Nat.eq_of_testBit_eq
  intro j
  rw [Nat.testBit_and, testBit_digit small, testBit_digit small',
    testBit_digit (Nat.and_lt_two_pow a small')]
  split <;> rw [Nat.testBit_and]

/-- The low bits of a number end inside a digit above the first one. -/
theorem mod_digit (small : a < 2 ^ k) (b m : Nat) :
    (a + 2 ^ k * b) % 2 ^ (k + m) = a + 2 ^ k * (b % 2 ^ m) := by
  rw [Nat.pow_add, Nat.mod_mul, Nat.add_mul_mod_self_left, Nat.mod_eq_of_lt small,
    Nat.add_mul_div_left _ _ (by positivity), Nat.div_eq_of_lt small, Nat.zero_add]

/-- The highest bit of a number is above the digit beside it. -/
theorem size_digit (small : a < 2 ^ k) {b : Nat} (pos : 0 < b) :
    (a + 2 ^ k * b).size = k + b.size := by
  apply Nat.le_antisymm
  · rw [Nat.size_le, Nat.pow_add]
    have above : b + 1 ≤ 2 ^ b.size := Nat.lt_size_self b
    have scaled := Nat.mul_le_mul_left (2 ^ k) above
    rw [Nat.mul_add, Nat.mul_one] at scaled
    omega
  · obtain ⟨s, size⟩ : ∃ s, b.size = s + 1 :=
      Nat.exists_eq_succ_of_ne_zero (Nat.pos_iff_ne_zero.mp (Nat.size_pos.mpr pos))
    have top : 2 ^ s ≤ b := Nat.lt_size.mp (by omega)
    have scaled := Nat.mul_le_mul_left (2 ^ k) top
    rw [← Nat.pow_add] at scaled
    rw [size]
    exact Nat.lt_size.mpr (Nat.le_trans scaled (Nat.le_add_left _ a))

end

theorem shiftRight_ones {s w : Nat} (le : s ≤ w) : (2 ^ w - 1) >>> (w - s) = 2 ^ s - 1 := by
  have split : 2 ^ w = 2 ^ s * 2 ^ (w - s) := by rw [← Nat.pow_add, Nat.add_sub_cancel' le]
  have pos := Nat.two_pow_pos (w - s)
  rw [Nat.shiftRight_eq_div_pow, split]
  apply Nat.div_eq_of_lt_le
  · rw [Nat.sub_mul, Nat.one_mul]
    omega
  · rw [Nat.sub_add_cancel (Nat.two_pow_pos s)]
    have := Nat.mul_pos (Nat.two_pow_pos s) pos
    omega

/-- Bits beside some of them. -/
theorem mod_or_self (n s : Nat) : n % 2 ^ s ||| n = n := by
  apply Nat.eq_of_testBit_eq
  intro i
  rw [Nat.testBit_or, Nat.testBit_mod_two_pow]
  cases n.testBit i <;> simp

/-! ## Bytes -/

/-- A little endian load. -/
def loadLE : Bytes → Nat
  | [] => 0
  | b :: bs => b.toNat + 256 * loadLE bs

/-- The low `k` bytes of a word, least significant first. -/
def storeLE : Nat → Nat → Bytes
  | 0, _ => []
  | k + 1, n => UInt8.ofNat n :: storeLE k (n / 256)

/-- A word all of whose `k` bytes are the same. -/
def repeatByte (b : Nat) : Nat → Nat
  | 0 => 0
  | k + 1 => b + 256 * repeatByte b k

@[simp] theorem length_storeLE (k n : Nat) : (storeLE k n).length = k := by
  induction k generalizing n with
  | zero => rfl
  | succ k ih => simp [storeLE, ih]

theorem storeLE_digit {a : Nat} (small : a < 256) (k b : Nat) :
    storeLE (k + 1) (a + 256 * b) = UInt8.ofNat a :: storeLE k b := by
  have head : UInt8.ofNat (a + 256 * b) = UInt8.ofNat a := by
    rw [← UInt8.toNat_inj, UInt8.toNat_ofNat', UInt8.toNat_ofNat']
    omega
  have tail : (a + 256 * b) / 256 = b := by omega
  rw [storeLE, head, tail]

theorem loadLE_lt (bs : Bytes) : loadLE bs < 256 ^ bs.length := by
  induction bs with
  | nil => simp [loadLE]
  | cons b bs ih =>
    have := b.toNat_lt
    rw [loadLE, List.length_cons, Nat.pow_succ]
    omega

theorem repeatByte_lt {b : Nat} (small : b < 256) (k : Nat) : repeatByte b k < 256 ^ k := by
  induction k with
  | zero => simp [repeatByte]
  | succ k ih =>
    rw [repeatByte, Nat.pow_succ]
    omega

theorem take_storeLE {j k : Nat} (le : j ≤ k) (n : Nat) : (storeLE k n).take j = storeLE j n := by
  induction j generalizing k n with
  | zero => rfl
  | succ j ih =>
    obtain ⟨m, rfl⟩ : ∃ m, k = m + 1 := Nat.exists_eq_succ_of_ne_zero (by omega)
    rw [storeLE, storeLE, List.take_succ_cons, ih (by omega)]

/-- A word without its low bytes. -/
theorem repeatByte_shiftRight {b : Nat} (small : b < 256) (j k : Nat) :
    repeatByte b (j + k) >>> (8 * j) = repeatByte b k := by
  induction j with
  | zero => simp
  | succ j ih =>
    have drop : (b + 256 * repeatByte b (j + k)) / 2 ^ 8 = repeatByte b (j + k) := by omega
    rw [show j + 1 + k = j + k + 1 by omega, repeatByte, show 8 * (j + 1) = 8 + 8 * j by omega,
      Nat.shiftRight_add, Nat.shiftRight_eq_div_pow _ 8, drop, ih]

/-! ## Gathering and scattering bits -/

/-- `_pext_u64` for words of any width: the bits of the source at the set bits of the mask,
beside each other. -/
def pext : Nat → Nat → Nat → Nat
  | 0, _, _ => 0
  | w + 1, source, mask =>
    if mask % 2 = 1 then source % 2 + 2 * pext w (source / 2) (mask / 2)
    else pext w (source / 2) (mask / 2)

/-- `_pdep_u64` for words of any width: the low bits of the source, at the set bits of the
mask. -/
def pdep : Nat → Nat → Nat → Nat
  | 0, _, _ => 0
  | w + 1, source, mask =>
    if mask % 2 = 1 then source % 2 + 2 * pdep w (source / 2) (mask / 2)
    else 2 * pdep w source (mask / 2)

section

variable {w mask : Nat}

theorem pext_odd (source mask : Nat) :
    pext (w + 1) source (2 * mask + 1) = source % 2 + 2 * pext w (source / 2) mask := by
  have half : (2 * mask + 1) / 2 = mask := by omega
  rw [pext, if_pos (by omega), half]

theorem pext_even (source mask : Nat) :
    pext (w + 1) source (2 * mask) = pext w (source / 2) mask := by
  have half : 2 * mask / 2 = mask := by omega
  rw [pext, if_neg (by omega), half]

theorem pdep_odd (source mask : Nat) :
    pdep (w + 1) source (2 * mask + 1) = source % 2 + 2 * pdep w (source / 2) mask := by
  have half : (2 * mask + 1) / 2 = mask := by omega
  rw [pdep, if_pos (by omega), half]

theorem pdep_even (source mask : Nat) :
    pdep (w + 1) source (2 * mask) = 2 * pdep w source mask := by
  have half : 2 * mask / 2 = mask := by omega
  rw [pdep, if_neg (by omega), half]

/-- Seven set bits and a clear one. -/
theorem septet_eq (mask : Nat) :
    0x7f + 256 * mask = 2 * (2 * (2 * (2 * (2 * (2 * (2 * (2 * mask) + 1) + 1) + 1) + 1) + 1) + 1)
      + 1 := by
  omega

/-- A byte of which seven bits are gathered. -/
theorem pext_septet (source mask : Nat) : pext (w + 8) source (0x7f + 256 * mask) =
      source % 128 + 128 * pext w (source / 256) mask := by
  have last : source / 2 / 2 / 2 / 2 / 2 / 2 / 2 / 2 = source / 256 := by omega
  rw [septet_eq, pext_odd, pext_odd, pext_odd, pext_odd, pext_odd, pext_odd, pext_odd, pext_even,
    last]
  omega

/-- A byte of which seven bits are filled. -/
theorem pdep_septet (source mask : Nat) : pdep (w + 8) source (0x7f + 256 * mask) =
      source % 128 + 256 * pdep w (source / 128) mask := by
  have last : source / 2 / 2 / 2 / 2 / 2 / 2 / 2 = source / 128 := by omega
  rw [septet_eq, pdep_odd, pdep_odd, pdep_odd, pdep_odd, pdep_odd, pdep_odd, pdep_odd, pdep_even,
    last]
  omega

end

theorem pdep_lt (w source mask : Nat) : pdep w source mask < 2 ^ w := by
  induction w generalizing source mask with
  | zero => simp [pdep]
  | succ w ih =>
    have next := ih (source / 2) (mask / 2)
    have same := ih source (mask / 2)
    rw [pdep, Nat.pow_succ]
    split <;> omega

theorem pdep_zero (w mask : Nat) : pdep w 0 mask = 0 := by
  induction w generalizing mask with
  | zero => rfl
  | succ w ih =>
    rw [pdep]
    split <;> simp [ih]

/-! ## Counting zeros -/

/-- `std::countr_zero` for words of any width. -/
def countrZero : Nat → Nat → Nat
  | 0, _ => 0
  | w + 1, n => if n % 2 = 1 then 0 else 1 + countrZero w (n / 2)

/-- The leading zeros of a word of `w` bits. -/
def countlZero (w n : Nat) : Nat := w - n.size

theorem countrZero_even (w n : Nat) : countrZero (w + 1) (2 * n) = 1 + countrZero w n := by
  have half : 2 * n / 2 = n := by omega
  rw [countrZero, if_neg (by omega), half]

theorem countrZero_odd (w n : Nat) : countrZero (w + 1) (2 * n + 1) = 0 := by
  rw [countrZero, if_pos (by omega)]

theorem countrZero_byte (w n : Nat) : countrZero (w + 8) (256 * n) = 8 + countrZero w n := by
  have parts : 256 * n = 2 * (2 * (2 * (2 * (2 * (2 * (2 * (2 * n))))))) := by omega
  rw [parts, countrZero_even, countrZero_even, countrZero_even, countrZero_even, countrZero_even,
    countrZero_even, countrZero_even, countrZero_even]
  omega

/-- Only the highest bit of the lowest byte is set. -/
theorem countrZero_high (w n : Nat) : countrZero (w + 8) (128 + 256 * n) = 7 := by
  have parts : 128 + 256 * n = 2 * (2 * (2 * (2 * (2 * (2 * (2 * (2 * n + 1))))))) := by omega
  rw [parts, countrZero_even, countrZero_even, countrZero_even, countrZero_even, countrZero_even,
    countrZero_even, countrZero_even, countrZero_odd]

/-- A number has no bit in common with its complement. -/
theorem and_complement {w n : Nat} (fits : n < 2 ^ w) : n &&& (2 ^ w - (n + 1)) = 0 := by
  apply Nat.eq_of_testBit_eq
  intro i
  rw [Nat.testBit_and, Nat.testBit_two_pow_sub_succ fits, Nat.zero_testBit]
  cases n.testBit i <;> simp

/-- The idiom that keeps the lowest set bit. -/
theorem and_neg {w n : Nat} (pos : 0 < n) (fits : n < 2 ^ w) :
    n &&& (2 ^ w - n) = 2 ^ countrZero w n := by
  induction w generalizing n with
  | zero => omega
  | succ w ih =>
    rw [Nat.pow_succ] at fits ⊢
    rcases Nat.even_or_odd' n with ⟨m, rfl | rfl⟩
    · have neg : 2 ^ w * 2 - 2 * m = 0 + 2 ^ 1 * (2 ^ w - m) := by omega
      have split : 2 * m = 0 + 2 ^ 1 * m := by omega
      have power : 2 ^ (1 + countrZero w m) = 0 + 2 ^ 1 * 2 ^ countrZero w m := by
        rw [Nat.pow_add, Nat.zero_add]
      rw [countrZero_even, power, neg, ← ih (by omega) (by omega)]
      nth_rewrite 1 [split]
      exact and_digit (by omega) (by omega) _ _
    · have neg : 2 ^ w * 2 - (2 * m + 1) = 1 + 2 ^ 1 * (2 ^ w - (m + 1)) := by omega
      have split : 2 * m + 1 = 1 + 2 ^ 1 * m := by omega
      rw [countrZero_odd, neg]
      nth_rewrite 1 [split]
      rw [and_digit (by omega) (by omega), and_complement (by omega)]
      rfl

end FbThrift.Words
