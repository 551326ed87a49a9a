import FbThrift.Frozen.HashTable
import FbThrift.Lib.Reciprocal

/-!
# Sparse tables

The multiplication by a reciprocal gives the remainder, and a sparse table gives for each bucket
whether it holds an item and where that item is.
-/

namespace FbThrift.Frozen

/-! ## Remainders -/

theorem mul128U64_eq {lowbits d : Nat} (lowbitsFits : lowbits < 2 ^ 128) (fits : d < 2 ^ 64) :
    mul128U64 lowbits d = lowbits * d / 2 ^ 128 % 2 ^ 64 := by
  have high : lowbits / 2 ^ 64 ≤ 2 ^ 64 - 1 := by omega
  have low : lowbits % 2 ^ 64 * d ≤ 2 ^ 64 * d :=
    Nat.mul_le_mul_right d (Nat.le_of_lt (Nat.mod_lt _ (by omega)))
  have bottom : lowbits % 2 ^ 64 * d / 2 ^ 64 ≤ d :=
    Nat.div_le_of_le_mul low
  have top : lowbits / 2 ^ 64 * d ≤ (2 ^ 64 - 1) * (2 ^ 64 - 1) :=
    Nat.mul_le_mul high (by omega)
  have sum : lowbits % 2 ^ 64 * d / 2 ^ 64 + lowbits / 2 ^ 64 * d < 2 ^ 128 := by omega
  rw [mul128U64, Nat.mod_eq_of_lt (Nat.lt_of_le_of_lt top (by decide)), Nat.mod_eq_of_lt sum,
    mul_div_words _ _ _ (Nat.two_pow_pos 64), ← Nat.pow_add]

theorem remainder_eq {lhs rhs : Nat} (positive : 0 < rhs) (fits : rhs < 2 ^ 64)
    (lhsFits : lhs < 2 ^ 64) : remainder lhs rhs = lhs % rhs := by
  rw [remainder, mul128U64_eq (Nat.mod_lt _ (Nat.two_pow_pos 128)) fits, fastRemainderConstant,
    if_neg (Nat.ne_of_gt positive)]
  rcases Nat.eq_or_lt_of_le (Nat.succ_le_of_lt positive) with one | large
  · rw [← one, Nat.mod_one]
    simp
  · obtain ⟨excess, less, rounded⟩ := exists_excess positive (Nat.two_pow_pos 128)
    have constant : (2 ^ 128 - 1) / rhs + 1 < 2 ^ 128 := by
      have half : (2 ^ 128 - 1) / rhs ≤ (2 ^ 128 - 1) / 2 := Nat.div_le_div_left large (by omega)
      omega
    have precise : lhs * excess < 2 ^ 128 := by
      have product := Nat.mul_le_mul (Nat.le_of_lt lhsFits)
        (Nat.le_sub_one_of_lt (Nat.lt_trans less fits))
      omega
    rw [Nat.mod_eq_of_lt constant, fraction_mul_div rounded precise positive]
    exact Nat.mod_eq_of_lt (Nat.lt_trans (Nat.mod_lt lhs positive) fits)

/-! ## Masks -/

variable {α : Type} {index : Index α}

theorem slot_cons_zero (slot : Option α) : Index.slot (slot :: index) 0 = slot := by
  cases slot <;> rfl

theorem slot_cons_succ (slot : Option α) (bucket : Nat) :
    Index.slot (slot :: index) (bucket + 1) = index.slot bucket :=
  rfl

theorem slot_cons_sub {offset bucket : Nat} (slot : Option α) (behind : offset < bucket) :
    Index.slot (slot :: index) (bucket - offset) = index.slot (bucket - (offset + 1)) := by
  have next : bucket - offset = bucket - (offset + 1) + 1 := by omega
  rw [next, slot_cons_succ]

theorem getLsbD_one_shiftLeft {offset bucket : Nat} (fits : offset < 64) :
    (1#64 <<< offset).getLsbD bucket = decide (bucket = offset) := by
  rw [BitVec.getLsbD_shiftLeft, BitVec.getLsbD_one]
  by_cases same : bucket = offset
  · simp [same, fits]
  · have other : ¬ (offset ≤ bucket ∧ bucket - offset = 0) := by omega
    by_cases less : bucket < offset
    · simp [same, less]
    · have positive : bucket - offset ≠ 0 := by omega
      simp [same, positive]

theorem getLsbD_markBuckets (offset : Nat) (mask : BitVec 64) (count : Nat)
    (fits : offset + index.length ≤ 64) (bucket : Nat) :
    (markBuckets offset mask count index).1.getLsbD bucket = (mask.getLsbD bucket ||
        (decide (offset ≤ bucket) && (index.slot (bucket - offset)).isSome)) := by
  induction index generalizing offset mask count with
  | nil => simp [markBuckets, Index.slot]
  | cons slot index ih =>
    rw [List.length_cons] at fits
    rcases Nat.lt_trichotomy bucket offset with before | rfl | behind
    · cases slot with
      | none =>
        rw [markBuckets, ih _ _ _ (by omega)]
        simp [Nat.not_le_of_lt before, Nat.not_le_of_lt (Nat.lt_succ_of_lt before)]
      | some item =>
        rw [markBuckets, ih _ _ _ (by omega), BitVec.getLsbD_or,
          getLsbD_one_shiftLeft (by omega)]
        simp [Nat.not_le_of_lt before, Nat.not_le_of_lt (Nat.lt_succ_of_lt before),
          Nat.ne_of_lt before]
    · rw [Nat.sub_self, slot_cons_zero]
      cases slot with
      | none =>
        rw [markBuckets, ih _ _ _ (by omega)]
        simp
      | some item =>
        rw [markBuckets, ih _ _ _ (by omega), BitVec.getLsbD_or,
          getLsbD_one_shiftLeft (by omega)]
        simp
    · rw [slot_cons_sub slot behind]
      cases slot with
      | none =>
        rw [markBuckets, ih _ _ _ (by omega)]
        simp [Nat.le_of_lt behind, Nat.succ_le_of_lt behind]
      | some item =>
        rw [markBuckets, ih _ _ _ (by omega), BitVec.getLsbD_or,
          getLsbD_one_shiftLeft (by omega)]
        simp [Nat.le_of_lt behind, Nat.succ_le_of_lt behind, Nat.ne_of_gt behind]

theorem count_markBuckets (offset : Nat) (mask : BitVec 64) (count : Nat) :
    (markBuckets offset mask count index).2 = count + index.countP Option.isSome := by
  fun_induction markBuckets offset mask count index with
  | case1 => rfl
  | case2 offset mask count index ih => rw [ih]; rfl
  | case3 offset mask count item index ih =>
    rw [ih, List.countP_cons_of_pos (by rfl)]
    omega

/-! ## Blocks -/

/-- How many items are in front of a bucket. -/
def Index.rank (index : Index α) (bucket : Nat) : Nat :=
  (index.take bucket).countP Option.isSome

theorem slot_drop (index : Index α) (skipped bucket : Nat) :
    Index.slot (index.drop skipped) bucket = index.slot (skipped + bucket) := by
  rw [Index.slot, List.getElem?_drop]
  rfl

theorem slot_take {bucket taken : Nat} (less : bucket < taken) :
    Index.slot (index.take taken) bucket = index.slot bucket := by
  rw [Index.slot, List.getElem?_take_of_lt less]
  rfl

theorem rank_add (index : Index α) (front bucket : Nat) :
    index.rank (front + bucket) = index.rank front + Index.rank (index.drop front) bucket := by
  rw [Index.rank, List.take_add, List.countP_append]
  rfl

theorem countP_range_slot (index : Index α) (bucket : Nat) :
    (List.range bucket).countP (fun before => (index.slot before).isSome) = index.rank bucket := by
  induction bucket with
  | zero => rfl
  | succ bucket ih =>
    rw [List.range_succ, List.countP_append, ih, Index.rank, Index.rank, List.take_add_one,
      List.countP_append]
    congr 1
    unfold Index.slot
    rw [List.countP_singleton]
    cases index[bucket]? with
    | none => rfl
    | some slot => cases slot <;> rfl

/-- The block of some buckets. -/
structure Block.Of (block : Block) (index : Index α) (number count : Nat) : Prop where
  mask : ∀ bucket < bits, block.mask.getLsbD bucket = (index.slot (number * bits + bucket)).isSome
  offset : block.offset = count + index.rank (number * bits)

theorem exists_block {blocks number : Nat} (count : Nat) (index : Index α)
    (fits : index.length = blocks * Block.bits) (less : number < blocks) :
    ∃ block, (sparseTable count index blocks)[number]? = some block ∧
      block.Of index number count := by
  induction blocks generalizing number count index with
  | zero => cases less
  | succ blocks ih =>
    have bits : Block.bits = 64 := rfl
    rw [sparseTable]
    cases number with
    | zero =>
      refine ⟨_, List.getElem?_cons_zero, ⟨fun bucket bucketLess => ?_, ?_⟩⟩
      · rw [getLsbD_markBuckets _ _ _ (by rw [List.length_take]; omega), Nat.sub_zero,
          slot_take bucketLess]
        simp
      · simp [Index.rank]
    | succ number =>
      have dropped : (index.drop Block.bits).length = blocks * Block.bits := by
        rw [List.length_drop, fits, Nat.succ_mul]
        omega
      obtain ⟨block, found, of⟩ := ih (markBuckets 0 0#64 count (index.take Block.bits)).2
        (index.drop Block.bits) dropped (Nat.lt_of_succ_lt_succ less)
      refine ⟨block, List.getElem?_cons_succ.trans found, ⟨fun bucket bucketLess => ?_, ?_⟩⟩
      · rw [of.mask bucket bucketLess, slot_drop, Nat.succ_mul]
        congr 2
        omega
      · rw [of.offset, count_markBuckets, Nat.succ_mul, Nat.add_comm _ Block.bits, rank_add,
          Nat.add_assoc]
        rfl

theorem getElem?_items {bucket : Nat} {item : α} (here : index.slot bucket = some item) :
    (index.filterMap id)[index.rank bucket]? = some item := by
  induction index generalizing bucket with
  | nil => simp [Index.slot] at here
  | cons slot index ih =>
    cases bucket with
    | zero =>
      rw [slot_cons_zero] at here
      subst here
      rfl
    | succ bucket =>
      rw [slot_cons_succ] at here
      have behind := ih here
      cases slot with
      | none => exact behind
      | some first =>
        rw [Index.rank, List.take_succ_cons, List.countP_cons_of_pos (by rfl)]
        exact behind

/-! ## Bits of a block -/

theorem below_eq_ofNat {minor : Nat} (fits : minor < 64) :
    1#64 <<< minor - 1#64 = BitVec.ofNat 64 (2 ^ minor - 1) := by
  have less : 2 ^ minor < 2 ^ 64 := Nat.pow_lt_pow_right (by decide) fits
  have positive := Nat.two_pow_pos minor
  apply BitVec.eq_of_toNat_eq
  rw [BitVec.toNat_sub, BitVec.toNat_shiftLeft, BitVec.toNat_ofNat, BitVec.toNat_ofNat,
    Nat.shiftLeft_eq]
  omega

theorem getLsbD_below {minor bucket : Nat} (fits : minor < 64) :
    (1#64 <<< minor - 1#64).getLsbD bucket = decide (bucket < minor) := by
  rw [below_eq_ofNat fits, BitVec.getLsbD_ofNat, Nat.testBit_two_pow_sub_one]
  by_cases less : bucket < minor
  · simp [less, Nat.lt_trans less fits]
  · simp [less]

theorem popcount_below (mask : BitVec 64) {minor : Nat} (fits : minor < 64) :
    popcount (mask &&& (1#64 <<< minor - 1#64)) = (List.range minor).countP mask.getLsbD := by
  have bits (bucket : Nat) : (mask &&& (1#64 <<< minor - 1#64)).getLsbD bucket =
      (mask.getLsbD bucket && decide (bucket < minor)) := by
    rw [BitVec.getLsbD_and, getLsbD_below fits]
  have split : List.range 64 = List.range minor ++ (List.range (64 - minor)).map (minor + ·) := by
    rw [← List.range_add, Nat.add_sub_cancel' (Nat.le_of_lt fits)]
  have above : ((List.range (64 - minor)).map (minor + ·)).countP
      (mask &&& (1#64 <<< minor - 1#64)).getLsbD = 0 := by
    rw [List.countP_eq_zero]
    intro bucket member
    obtain ⟨distance, -, rfl⟩ := List.mem_map.mp member
    rw [bits]
    simp
  rw [popcount, split, List.countP_append, above, Nat.add_zero]
  refine List.countP_congr fun bucket member => ?_
  rw [bits]
  simp [List.mem_range.mp member]

theorem bit_eq_zero_iff (mask : BitVec 64) (minor : Nat) :
    (mask >>> minor) &&& 1#64 = 0#64 ↔ mask.getLsbD minor = false := by
  have bit (bucket : Nat) : ((mask >>> minor) &&& 1#64).getLsbD bucket =
      (mask.getLsbD (minor + bucket) && decide (bucket = 0)) := by
    rw [BitVec.getLsbD_and, BitVec.getLsbD_ushiftRight, BitVec.getLsbD_one]
    simp
  constructor
  · intro zero
    have first := bit 0
    rw [zero] at first
    simpa using first.symm
  · intro zero
    refine BitVec.eq_of_getLsbD_eq fun bucket _ => ?_
    rw [bit]
    cases bucket with
    | zero => simp [zero]
    | succ => simp

end FbThrift.Frozen
