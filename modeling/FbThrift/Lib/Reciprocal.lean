import Mathlib.Algebra.Order.Ring.Nat
import Mathlib.Tactic.Ring

/-!
# Remainders by multiplication

A rounded-up reciprocal of a divisor, times a number, has the remainder of the number in its
fraction.
-/

namespace FbThrift

variable {modulus reciprocal excess divisor number : Nat}

theorem fraction_mul_div (rounded : reciprocal * divisor = modulus + excess)
    (precise : number * excess < modulus) (positive : 0 < divisor) :
    reciprocal * number % modulus * divisor / modulus = number % divisor := by
  have quotient := Nat.div_add_mod number divisor
  have less := Nat.mod_lt number positive
  generalize number % divisor = r at quotient less ⊢
  generalize number / divisor = q at quotient
  have product : reciprocal * number = (q * excess + reciprocal * r) + modulus * q := by
    calc reciprocal * number
        = q * (reciprocal * divisor) + reciprocal * r := by rw [← quotient]; ring
      _ = (q * excess + reciprocal * r) + modulus * q := by rw [rounded]; ring
  have scaled : (q * excess + reciprocal * r) * divisor = number * excess + r * modulus := by
    calc (q * excess + reciprocal * r) * divisor
        = q * excess * divisor + r * (reciprocal * divisor) := by ring
      _ = (divisor * q + r) * excess + r * modulus := by rw [rounded]; ring
      _ = number * excess + r * modulus := by rw [quotient]
  have fits : q * excess + reciprocal * r < modulus := by
    by_contra large
    have above := Nat.mul_le_mul_right divisor (Nat.le_of_not_lt large)
    have next := Nat.mul_le_mul_left modulus (Nat.succ_le_of_lt less)
    rw [scaled] at above
    rw [Nat.mul_succ, Nat.mul_comm modulus r] at next
    omega
  rw [product, Nat.add_mul_mod_self_left, Nat.mod_eq_of_lt fits, scaled,
    Nat.add_mul_div_right _ _ (Nat.zero_lt_of_lt precise), Nat.div_eq_of_lt precise, Nat.zero_add]

/-- A reciprocal that is rounded up. -/
theorem exists_excess (positive : 0 < divisor) (modulusPositive : 0 < modulus) :
    ∃ excess < divisor, ((modulus - 1) / divisor + 1) * divisor = modulus + excess := by
  have division := Nat.div_add_mod (modulus - 1) divisor
  have less := Nat.mod_lt (modulus - 1) positive
  refine ⟨divisor - 1 - (modulus - 1) % divisor, by omega, ?_⟩
  rw [Nat.add_mul, Nat.one_mul, Nat.mul_comm]
  omega

theorem mul_div_words (number factor word : Nat) (positive : 0 < word) :
    (number % word * factor / word + number / word * factor) / word =
      number * factor / (word * word) := by
  have split : number * factor = number % word * factor + number / word * factor * word := by
    calc number * factor = (word * (number / word) + number % word) * factor := by
          rw [Nat.div_add_mod]
      _ = number % word * factor + number / word * factor * word := by ring
  rw [← Nat.div_div_eq_div_mul, split, Nat.add_mul_div_right _ _ positive]

end FbThrift
