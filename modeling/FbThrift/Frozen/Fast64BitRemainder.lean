import FbThrift.Frozen.SparseTable

/-!
# The remainder in machine words

The calculator of remainders with the words that it has: a constant of 128 bits, products and
sums that wrap, and a multiplication whose upper half is put together from two.  It computes what
the calculation in natural numbers computes, so the remainder is exact, and nothing wraps in the
multiplication.
-/

namespace FbThrift.Frozen

structure Fast64BitRemainderCalculator where
  fastRemainderConstant : BitVec 128

namespace Fast64BitRemainderCalculator

def ofDivisor (divisor : BitVec 64) : Fast64BitRemainderCalculator where
  fastRemainderConstant :=
    if divisor ≠ 0 then ~~~(0 : BitVec 128) / divisor.setWidth 128 + 1 else 0

/-- The upper half of the product with the lower word. -/
def bottom (lowbits : BitVec 128) (d : BitVec 64) : BitVec 128 :=
  ((lowbits &&& 0xFFFFFFFFFFFFFFFF) * d.setWidth 128) >>> 64

/-- The product with the upper word. -/
def top (lowbits : BitVec 128) (d : BitVec 64) : BitVec 128 :=
  (lowbits >>> 64) * d.setWidth 128

def mul128U64 (lowbits : BitVec 128) (d : BitVec 64) : BitVec 64 :=
  ((bottom lowbits d + top lowbits d) >>> 64).setWidth 64

def remainder (calculator : Fast64BitRemainderCalculator) (lhs rhs : BitVec 64) : BitVec 64 :=
  let lowBits := calculator.fastRemainderConstant * lhs.setWidth 128
  mul128U64 lowBits rhs

variable {lowbits : BitVec 128} {d lhs : BitVec 64}

theorem toNat_setWidth (d : BitVec 64) : (d.setWidth 128).toNat = d.toNat :=
  BitVec.toNat_setWidth_of_le (by decide)

theorem toNat_low (lowbits : BitVec 128) :
    (lowbits &&& 0xFFFFFFFFFFFFFFFF).toNat = lowbits.toNat % 2 ^ 64 := by
  rw [BitVec.toNat_and]
  exact Nat.and_two_pow_sub_one_eq_mod _ 64

theorem toNat_high (lowbits : BitVec 128) : (lowbits >>> 64).toNat = lowbits.toNat / 2 ^ 64 := by
  rw [BitVec.toNat_ushiftRight, Nat.shiftRight_eq_div_pow]

theorem mul_lt {a : Nat} (fits : a < 2 ^ 64) (d : BitVec 64) : a * d.toNat < 2 ^ 128 := by
  have product := Nat.mul_le_mul (Nat.le_sub_one_of_lt fits) (Nat.le_sub_one_of_lt d.isLt)
  omega

theorem toNat_bottom : (bottom lowbits d).toNat = lowbits.toNat % 2 ^ 64 * d.toNat / 2 ^ 64 := by
  rw [bottom, toNat_high, BitVec.toNat_mul, toNat_low, toNat_setWidth,
    Nat.mod_eq_of_lt (mul_lt (Nat.mod_lt _ (by decide)) d)]

theorem high_lt (lowbits : BitVec 128) : lowbits.toNat / 2 ^ 64 < 2 ^ 64 :=
  Nat.div_lt_of_lt_mul lowbits.isLt

theorem toNat_top : (top lowbits d).toNat = lowbits.toNat / 2 ^ 64 * d.toNat := by
  rw [top, BitVec.toNat_mul, toNat_high, toNat_setWidth,
    Nat.mod_eq_of_lt (mul_lt (high_lt lowbits) d)]

/-- The words compute what the natural numbers compute. -/
theorem toNat_mul128U64 : (mul128U64 lowbits d).toNat = Frozen.mul128U64 lowbits.toNat d.toNat := by
  rw [mul128U64, BitVec.toNat_setWidth, toNat_high, BitVec.toNat_add, toNat_bottom, toNat_top,
    Frozen.mul128U64, Nat.mod_eq_of_lt (mul_lt (high_lt lowbits) d)]

theorem toNat_ofDivisor (positive : d ≠ 0) :
    (ofDivisor d).fastRemainderConstant.toNat = Frozen.fastRemainderConstant d.toNat := by
  have nonzero : d.toNat ≠ 0 := fun zero => positive (BitVec.eq_of_toNat_eq zero)
  rw [ofDivisor, if_pos positive, Frozen.fastRemainderConstant, if_neg nonzero, BitVec.toNat_add,
    BitVec.toNat_udiv, toNat_setWidth]
  rfl

theorem toNat_remainder (positive : d ≠ 0) :
    ((ofDivisor d).remainder lhs d).toNat = Frozen.remainder lhs.toNat d.toNat := by
  rw [remainder, toNat_mul128U64, BitVec.toNat_mul, toNat_ofDivisor positive, toNat_setWidth,
    Frozen.remainder]

/-- No product and no sum of the multiplication wraps. -/
def NoWrap (lowbits : BitVec 128) (d : BitVec 64) : Prop :=
  (lowbits &&& 0xFFFFFFFFFFFFFFFF).toNat * d.toNat < 2 ^ 128 ∧
    (lowbits >>> 64).toNat * d.toNat < 2 ^ 128 ∧
      (bottom lowbits d).toNat + (top lowbits d).toNat < 2 ^ 128

theorem noWrap (lowbits : BitVec 128) (d : BitVec 64) : NoWrap lowbits d := by
  have low : lowbits.toNat % 2 ^ 64 < 2 ^ 64 := Nat.mod_lt _ (by decide)
  refine ⟨toNat_low lowbits ▸ mul_lt low d, toNat_high lowbits ▸ mul_lt (high_lt lowbits) d, ?_⟩
  rw [toNat_bottom, toNat_top]
  have upper : lowbits.toNat % 2 ^ 64 * d.toNat / 2 ^ 64 ≤ d.toNat :=
    Nat.div_le_of_le_mul (Nat.mul_le_mul_right d.toNat low.le)
  have product := Nat.mul_le_mul (Nat.le_sub_one_of_lt (high_lt lowbits))
    (Nat.le_sub_one_of_lt d.isLt)
  have fits := d.isLt
  omega

/-- The remainder is exact for every divisor and number of a word, and no sum of the
multiplication wraps. -/
theorem remainder_exact (d lhs : BitVec 64) (positive : d ≠ 0) :
    (ofDivisor d).remainder lhs d = lhs % d ∧
      NoWrap ((ofDivisor d).fastRemainderConstant * lhs.setWidth 128) d := by
  refine ⟨BitVec.eq_of_toNat_eq ?_, noWrap _ d⟩
  have nonzero : d.toNat ≠ 0 := fun zero => positive (BitVec.eq_of_toNat_eq zero)
  rw [toNat_remainder positive, remainder_eq (Nat.pos_of_ne_zero nonzero) d.isLt lhs.isLt,
    BitVec.toNat_umod]

theorem remainder_exact_one :
    (ofDivisor 1).remainder 0xFFFFFFFFFFFFFFFF 1 = 0xFFFFFFFFFFFFFFFF % 1 ∧
      NoWrap ((ofDivisor 1).fastRemainderConstant *
        (0xFFFFFFFFFFFFFFFF : BitVec 64).setWidth 128) 1 :=
  remainder_exact 1 0xFFFFFFFFFFFFFFFF (by decide)

end Fast64BitRemainderCalculator

end FbThrift.Frozen
