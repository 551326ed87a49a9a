import FbThrift.Util.VarintRead

/-!
# Writing varints

`writeVarintUnrolled` writes a digit at a time.  The branch free writers spread the digits of
the whole word over the bytes of another one, set the bits that say that a digit follows, and
find the number of bytes from the leading zeros; what does not fit the word they write behind
it.  All bytes are written, and the cursor moves over those that count.
-/

namespace FbThrift.Varint

open Words Decoder

/-! ## A digit at a time -/

/-- The loop of `writeVarintSlow`, which writes a digit before it looks at the next. -/
def writeVarintSlow (unval : Nat) : Bytes :=
  let next := unval >>> 7
  UInt8.ofNat (unval &&& 0x7f ||| 0x80) ::
    (if next ≤ 0x7f then [UInt8.ofNat next] else writeVarintSlow next)
termination_by unval
decreasing_by
  rw [Nat.shiftRight_eq_div_pow] at *
  omega


/-- `folly::to_unsigned` of the value is given, and `value & ~0x7f` is zero up to `0x7f`. -/
def writeVarintUnrolled (value : Nat) : Bytes :=
  if value ≤ 0x7f then [UInt8.ofNat value] else writeVarintSlow value

/-! ## A word at a time -/

def kMask : Nat := 0x8080808080808080

def kShift (i : Nat) : Nat := (if i = 0 then 0 else 8 - (63 - i) / 7) * 8

def kSize (i : Nat) : Nat := (63 - i) / 7 + 1

def compressBits (value mask : Nat) : Nat := pdep 64 value mask

/-- What is stored at the cursor, and the number of bytes that it moves over. -/
def writeVarintBranchFreeX86 (size value : Nat) : Bytes :=
  if value ≤ 0x7f then [UInt8.ofNat value]
  else if size = 1 then storeLE 2 (value ||| 0x100)
  else
    let clzll := countlZero 64 value
    let v := compressBits value (2 ^ 64 - 1 - kMask) ||| kMask >>> kShift clzll
    let p := if size < 8 then storeLE 8 v else storeLE 8 v ++ [UInt8.ofNat (value >>> 56), 1]
    p.take (kSize clzll)

/-- An instruction on the two words of 32 bits that a word of 64 bits holds. -/
def lanes32 (f : Nat → Nat) (vec : Nat) : Nat := f (vec % 2 ^ 32) + 2 ^ 32 * f (vec / 2 ^ 32)

/-! Of the vectors of `writeVarintSve` only the lowest 64 bits are looked at. -/

def clzV (size vec : Nat) : Nat :=
  if size = 2 then lanes32 (countlZero 32) vec else countlZero 64 vec

def clzMaskV (size clzV : Nat) : Nat :=
  if size = 2 then lanes32 (fun clz => (2 ^ 32 - 1) >>> clz) clzV else (2 ^ 64 - 1) >>> clzV

def sizeSV (size clzV : Nat) : Nat :=
  wrap 64 ((if size = 2 then 4 else 8) + (2 ^ 64 - clzV >>> 3))

def writeVarintSve (size value : Nat) : Bytes :=
  if value ≤ 0x7f then [UInt8.ofNat value]
  else if size = 1 then storeLE 2 (value ||| 0x100)
  else
    let vec := pdep 64 value (repeatByte 0x7f 8)
    let clz := clzV size vec
    let vec := (vec ||| repeatByte 0x80 8) &&& clzMaskV size clz
    let orMask := if value < 2 ^ 56 then 0 else 0x80
    let vec := if size = 8 then vec ||| repeatByte orMask 8 else vec
    let p :=
      if size = 2 then storeLE 3 vec
      else if size = 4 then storeLE 5 vec
      else storeLE 8 vec ++ [UInt8.ofNat (value >>> 56), UInt8.ofNat (value >>> 63)]
    p.take (if size = 8 ∧ 2 ^ 56 ≤ value then value >>> 63 + 9 else wrap 8 (sizeSV size clz))

/-! ## The digits of a varint -/

theorem writeVarint_one {n : Nat} (small : n < 128) : writeVarint n = [UInt8.ofNat n] := by
  rw [writeVarint, if_pos small]

theorem writeVarint_more {n : Nat} (large : 128 ≤ n) :
    writeVarint n = UInt8.ofNat (n % 128 + 128) :: writeVarint (n / 128) := by
  rw [writeVarint, if_neg (Nat.not_lt.mpr large)]

/-- A varint by its digits. -/
@[elab_as_elim]
theorem septet_induction {motive : Nat → Prop} (one : ∀ n < 128, motive n)
    (more : ∀ n, 128 ≤ n → motive (n / 128) → motive n) (n : Nat) : motive n := by
  induction n using Nat.strongRecOn with
  | ind n ih =>
    by_cases small : n < 128
    · exact one n small
    · exact more n (by omega) (ih _ (by omega))

theorem size_septet {n : Nat} (large : 128 ≤ n) : n.size = 7 + (n / 128).size := by
  have digit : n % 128 < 2 ^ 7 := Nat.mod_lt n (by omega)
  have split : n % 128 + 2 ^ 7 * (n / 128) = n := by omega
  have size := size_digit digit (by omega : 0 < n / 128)
  rwa [split] at size

theorem length_writeVarint (n : Nat) : (writeVarint n).length = (n.size - 1) / 7 + 1 := by
  induction n using septet_induction with
  | one n small =>
    have short : n.size ≤ 7 := Nat.size_le.mpr small
    rw [writeVarint_one small, List.length_singleton]
    omega
  | more n large ih =>
    have some : 0 < (n / 128).size := Nat.size_pos.mpr (by omega)
    rw [writeVarint_more large, List.length_cons, ih, size_septet large]
    omega

/-! ## The writers agree -/

theorem or_continue {d : Nat} (small : d < 128) : d ||| 0x80 = d + 128 := by
  rw [Nat.or_comm, Nat.add_comm]
  exact (Nat.two_pow_add_eq_or_of_lt (i := 7) small 1).symm

theorem writeVarintSlow_eq {n : Nat} (large : 0x7f < n) : writeVarintSlow n = writeVarint n := by
  induction n using septet_induction with
  | one n small => omega
  | more n _ ih =>
    have next : n >>> 7 = n / 128 := Nat.shiftRight_eq_div_pow n 7
    have low : n &&& 0x7f = n % 128 := Nat.and_two_pow_sub_one_eq_mod n 7
    rw [writeVarintSlow, writeVarint_more large, next, low, or_continue (Nat.mod_lt n (by omega))]
    split
    next small => rw [writeVarint_one (by omega)]
    next more => rw [ih (by omega)]

theorem writeVarintUnrolled_eq (n : Nat) : writeVarintUnrolled n = writeVarint n := by
  rw [writeVarintUnrolled]
  split
  next small => rw [writeVarint_one (by omega)]
  next large => exact writeVarintSlow_eq (by omega)


/-- The digits of a number, each in a byte of its own. -/
def spread (n v : Nat) : Nat := pdep (8 * n) v (repeatByte 0x7f n)

theorem spread_succ (n v : Nat) : spread (n + 1) v = v % 128 + 256 * spread n (v / 128) :=
  pdep_septet v (repeatByte 0x7f n)

theorem spread_small {n v : Nat} (small : v < 128) : spread (n + 1) v = v := by
  rw [spread_succ, Nat.mod_eq_of_lt small, Nat.div_eq_of_lt small, spread, pdep_zero]
  rfl

/-- A digit that is marked as one that another follows. -/
theorem spread_or_continue (n v k : Nat) : spread (n + 1) v ||| repeatByte 0x80 (k + 1) =
      (v % 128 + 128) + 256 * (spread n (v / 128) ||| repeatByte 0x80 k) := by
  have digit : v % 128 < 128 := Nat.mod_lt v (by omega)
  rw [spread_succ, repeatByte, ← or_continue digit]
  exact or_digit (k := 8) (by omega) (by omega) _ _

section

variable {n v : Nat}

theorem exists_digits (pos : 0 < v) (fits : v < 128 ^ n) : ∃ m, n = m + 1 := by
  cases n with
  | zero => omega
  | succ m => exact ⟨m, rfl⟩

theorem div_lt_pow {m : Nat} (fits : v < 128 ^ (m + 1)) : v / 128 < 128 ^ m := by
  rw [Nat.pow_succ] at fits
  omega

/-- The digits of a number that has room for them, with a bit on each but the last. -/
theorem writeVarint_prefix (pos : 0 < v) (fits : v < 128 ^ n) : writeVarint v <+:
      storeLE n (spread n v ||| repeatByte 0x80 ((writeVarint v).length - 1)) := by
  induction v using septet_induction generalizing n with
  | one v small =>
    obtain ⟨m, rfl⟩ := exists_digits pos fits
    have digit : storeLE (m + 1) v = UInt8.ofNat v :: storeLE m (v / 256) := rfl
    rw [writeVarint_one small, List.length_singleton, spread_small small]
    change _ <+: storeLE (m + 1) (v ||| 0)
    rw [Nat.or_zero, digit]
    exact ⟨_, rfl⟩
  | more v large ih =>
    obtain ⟨m, rfl⟩ := exists_digits pos fits
    have rest := ih (by omega) (div_lt_pow fits)
    obtain ⟨k, length⟩ : ∃ k, (writeVarint (v / 128)).length = k + 1 :=
      ⟨_, length_writeVarint _⟩
    rw [length] at rest
    rw [writeVarint_more large, List.length_cons, length, Nat.add_sub_cancel,
      spread_or_continue, storeLE_digit (by omega)]
    exact List.prefix_cons_inj _ |>.mpr rest

/-- The digits of a number that has more of them than there is room for. -/
theorem writeVarint_append (long : 128 ^ n ≤ v) :
    writeVarint v = storeLE n (spread n v ||| repeatByte 0x80 n) ++ writeVarint (v / 128 ^ n) := by
  induction n generalizing v with
  | zero => simp [storeLE]
  | succ n ih =>
    rw [Nat.pow_succ] at long
    have one : 1 ≤ 128 ^ n := Nat.one_le_pow _ _ (by omega)
    have rest : 128 ^ n ≤ v / 128 := by omega
    rw [writeVarint_more (by omega), ih rest, spread_or_continue, storeLE_digit (by omega),
      Nat.div_div_eq_div_mul, Nat.pow_succ, Nat.mul_comm 128]
    rfl

theorem spread_pos (pos : 0 < v) (fits : v < 128 ^ n) : 0 < spread n v := by
  induction v using septet_induction generalizing n with
  | one v small =>
    obtain ⟨m, rfl⟩ := exists_digits pos fits
    rwa [spread_small small]
  | more v large ih =>
    obtain ⟨m, rfl⟩ := exists_digits pos fits
    have rest := ih (by omega) (div_lt_pow fits)
    rw [spread_succ]
    omega

theorem size_spread_succ (large : 128 ≤ v) (fits : v < 128 ^ (n + 1)) :
    (spread (n + 1) v).size = 8 + (spread n (v / 128)).size := by
  rw [spread_succ]
  exact size_digit (k := 8) (by omega) (spread_pos (by omega) (div_lt_pow fits))

/-- The highest bit of a spread number is in the byte of the last digit. -/
theorem size_spread (pos : 0 < v) (fits : v < 128 ^ n) :
    ((spread n v).size + 7) / 8 = (writeVarint v).length := by
  induction v using septet_induction generalizing n with
  | one v small =>
    obtain ⟨m, rfl⟩ := exists_digits pos fits
    have some : 0 < v.size := Nat.size_pos.mpr pos
    have short : v.size ≤ 7 := Nat.size_le.mpr small
    rw [spread_small small, writeVarint_one small, List.length_singleton]
    omega
  | more v large ih =>
    obtain ⟨m, rfl⟩ := exists_digits pos fits
    have rest := ih (by omega) (div_lt_pow fits)
    rw [size_spread_succ large fits, writeVarint_more large, List.length_cons]
    omega

/-- The digits of a number with a bit on each, up to the highest bit of the last. -/
theorem writeVarint_prefix_mod (pos : 0 < v) (fits : v < 128 ^ n) : writeVarint v <+:
      storeLE n ((spread n v ||| repeatByte 0x80 n) % 2 ^ (spread n v).size) := by
  induction v using septet_induction generalizing n with
  | one v small =>
    obtain ⟨m, rfl⟩ := exists_digits pos fits
    have short : v.size ≤ 7 := Nat.size_le.mpr small
    have clear : repeatByte 0x80 (m + 1) % 2 ^ v.size = 0 := by
      apply Nat.mod_eq_zero_of_dvd
      apply (Nat.pow_dvd_pow 2 short).trans
      exact ⟨1 + 2 * repeatByte 0x80 m, by rw [repeatByte]; omega⟩
    have digit : storeLE (m + 1) v = UInt8.ofNat v :: storeLE m (v / 256) := rfl
    rw [writeVarint_one small, spread_small small, Nat.or_mod_two_pow, clear, Nat.or_zero,
      Nat.mod_eq_of_lt (Nat.lt_size_self v), digit]
    exact ⟨_, rfl⟩
  | more v large ih =>
    obtain ⟨m, rfl⟩ := exists_digits pos fits
    have digit : v % 128 + 128 < 2 ^ 8 := by omega
    rw [size_spread_succ large fits, spread_or_continue, writeVarint_more large]
    have low := mod_digit digit (spread m (v / 128) ||| repeatByte 0x80 m) (spread m (v / 128)).size
    rw [show (256 : Nat) = 2 ^ 8 from rfl, low, show (2 : Nat) ^ 8 = 256 from rfl,
      storeLE_digit digit]
    exact List.prefix_cons_inj _ |>.mpr (ih (by omega) (div_lt_pow fits))

end


section

variable {size v : Nat}

theorem take_of_prefix {bs p : Bytes} {k : Nat} (isPrefix : bs <+: p) (length : k = bs.length) :
    p.take k = bs := by
  rw [length]
  exact (List.prefix_iff_eq_take.mp isPrefix).symm

/-- The last byte or two of a varint whose digits do not fit a word. -/
theorem writeVarint_high {high : Nat} (fits : high < 256) {last : UInt8}
    (one : 128 ≤ high → last = 1) : writeVarint high <+: [UInt8.ofNat high, last] := by
  by_cases small : high < 128
  · rw [writeVarint_one small]
    exact ⟨[last], rfl⟩
  · have low : high % 128 + 128 = high := by omega
    have top : high / 128 = 1 := by omega
    rw [writeVarint_more (by omega), low, top, writeVarint_one (by omega), one (by omega)]
    exact List.prefix_rfl

/-- Eight digits fit a word, and the others are the bytes behind it. -/
theorem writeVarint_long (long : 2 ^ 56 ≤ v) (fits : v < 2 ^ 64) {last : UInt8}
    (one : v >>> 63 = 1 → last = 1) :
    writeVarint v <+:
      storeLE 8 (spread 8 v ||| repeatByte 0x80 8) ++ [UInt8.ofNat (v >>> 56), last] := by
  have top : v >>> 56 = v / 128 ^ 8 := Nat.shiftRight_eq_div_pow v 56
  rw [Nat.shiftRight_eq_div_pow] at one
  rw [writeVarint_append (n := 8) long, top]
  exact (List.prefix_append_right_inj _).mpr (writeVarint_high (by omega) fun two => one (by omega))

theorem length_writeVarint_long (long : 2 ^ 56 ≤ v) (fits : v < 2 ^ 64) :
    (writeVarint v).length = v >>> 63 + 9 := by
  have atLeast : 57 ≤ v.size := Nat.lt_size.mpr long
  have atMost : v.size ≤ 64 := Nat.size_le.mpr fits
  rw [length_writeVarint, Nat.shiftRight_eq_div_pow]
  by_cases high : 2 ^ 63 ≤ v
  · have last : 64 ≤ v.size := Nat.lt_size.mpr high
    omega
  · have last : v.size ≤ 63 := Nat.size_le.mpr (by omega)
    omega

theorem writeVarint_two (large : 0x7f < v) (fits : v < 2 ^ (8 * 1)) :
    storeLE 2 (v ||| 0x100) = writeVarint v := by
  have beside : v ||| 0x100 = v + 256 * 1 := by
    rw [Nat.or_comm, Nat.add_comm]
    exact (Nat.two_pow_add_eq_or_of_lt (i := 8) fits 1).symm
  have low : v % 128 + 128 = v := by omega
  have top : v / 128 = 1 := by omega
  rw [beside, storeLE_digit (by omega), writeVarint_more (by omega), low, top,
    writeVarint_one (by omega)]
  rfl

theorem kShift_countlZero (large : 0x7f < v) (fits : v < 2 ^ 64) :
    kMask >>> kShift (countlZero 64 v) = repeatByte 0x80 (min ((writeVarint v).length - 1) 8) := by
  have long : 8 ≤ v.size := Nat.lt_size.mpr (by omega)
  have short : v.size ≤ 64 := Nat.size_le.mpr fits
  have kept : kShift (countlZero 64 v) = 8 * (8 - min ((writeVarint v).length - 1) 8) := by
    rw [kShift, countlZero, length_writeVarint]
    split <;> omega
  have parts : 8 - min ((writeVarint v).length - 1) 8 + min ((writeVarint v).length - 1) 8 = 8 := by
    omega
  have shifted := repeatByte_shiftRight (by omega : 0x80 < 256)
    (8 - min ((writeVarint v).length - 1) 8) (min ((writeVarint v).length - 1) 8)
  rw [parts] at shifted
  rw [kept]
  exact shifted

theorem kSize_countlZero (large : 0x7f < v) (fits : v < 2 ^ 64) :
    kSize (countlZero 64 v) = (writeVarint v).length := by
  have long : 8 ≤ v.size := Nat.lt_size.mpr (by omega)
  have short : v.size ≤ 64 := Nat.size_le.mpr fits
  rw [kSize, countlZero, length_writeVarint]
  omega

theorem length_le_eight (fits : v < 128 ^ 8) : (writeVarint v).length ≤ 8 := by
  have short : v.size ≤ 56 := Nat.size_le.mpr fits
  rw [length_writeVarint]
  omega

theorem fits_word (sizes : size = 1 ∨ size = 2 ∨ size = 4 ∨ size = 8) (fits : v < 2 ^ (8 * size)) :
    v < 2 ^ 64 :=
  Nat.lt_of_lt_of_le fits (Nat.pow_le_pow_right (by omega) (by omega))

theorem writeVarintBranchFreeX86_eq (sizes : size = 1 ∨ size = 2 ∨ size = 4 ∨ size = 8)
    (fits : v < 2 ^ (8 * size)) : writeVarintBranchFreeX86 size v = writeVarint v := by
  have word := fits_word sizes fits
  rw [writeVarintBranchFreeX86]
  split
  next small => rw [writeVarint_one (by omega)]
  next large =>
    have large : 0x7f < v := by omega
    split
    next one =>
      subst one
      exact writeVarint_two large fits
    next =>
      refine take_of_prefix ?_ (kSize_countlZero large word)
      have mask : compressBits v (2 ^ 64 - 1 - kMask) = spread 8 v := rfl
      rw [mask, kShift_countlZero large word]
      by_cases low : v < 128 ^ 8
      · have length := length_le_eight low
        have isPrefix := writeVarint_prefix (by omega) low
        rw [Nat.min_eq_left (by omega)]
        split
        · exact isPrefix
        · exact isPrefix.trans (List.prefix_append _ _)
      · have long : 2 ^ 56 ≤ v := Nat.not_lt.mp low
        have size : size = 8 := by
          rcases sizes with rfl | rfl | rfl | rfl
          all_goals omega
        have length := length_writeVarint_long long word
        rw [Nat.min_eq_right (by omega), if_neg (by omega)]
        exact writeVarint_long long word fun _ => rfl

end


/-! ## SVE -/

section

variable {size v vec : Nat}

/-- Above a number that fits its lane the lanes of 32 bits are empty. -/
theorem clzV_two (fits : vec < 2 ^ 32) : clzV 2 vec = 32 - vec.size + 2 ^ 32 * 32 := by
  rw [clzV, if_pos rfl, lanes32, Nat.mod_eq_of_lt fits, Nat.div_eq_of_lt fits, countlZero,
    countlZero, Nat.size_zero]

/-- The mask keeps the bits up to the highest of the number. -/
theorem and_clzMaskV (fits : vec < 2 ^ 64) (narrow : size = 2 → vec < 2 ^ 32) (n : Nat) :
    n &&& clzMaskV size (clzV size vec) = n % 2 ^ vec.size := by
  by_cases two : size = 2
  · subst two
    have short : vec.size ≤ 32 := Nat.size_le.mpr (narrow rfl)
    have low : (32 - vec.size + 2 ^ 32 * 32) % 2 ^ 32 = 32 - vec.size := by omega
    have high : (32 - vec.size + 2 ^ 32 * 32) / 2 ^ 32 = 32 := by omega
    have none : (2 ^ 32 - 1) >>> 32 = 0 := rfl
    rw [clzMaskV, if_pos rfl, clzV_two (narrow rfl), lanes32, low, high, shiftRight_ones short, none,
      Nat.mul_zero, Nat.add_zero, Nat.and_two_pow_sub_one_eq_mod]
  · have short : vec.size ≤ 64 := Nat.size_le.mpr fits
    rw [clzMaskV, if_neg two, clzV, if_neg two, countlZero, shiftRight_ones short,
      Nat.and_two_pow_sub_one_eq_mod]

/-- The bytes up to the highest bit of the number. -/
theorem wrap_sizeSV (fits : vec < 2 ^ 64) (narrow : size = 2 → vec < 2 ^ 32) :
    wrap 8 (sizeSV size (clzV size vec)) = (vec.size + 7) / 8 := by
  by_cases two : size = 2
  · subst two
    have short : vec.size ≤ 32 := Nat.size_le.mpr (narrow rfl)
    rw [sizeSV, if_pos rfl, clzV_two (narrow rfl), wrap, wrap, Nat.shiftRight_eq_div_pow]
    omega
  · have short : vec.size ≤ 64 := Nat.size_le.mpr fits
    rw [sizeSV, if_neg two, clzV, if_neg two, countlZero, wrap, wrap, Nat.shiftRight_eq_div_pow]
    omega

theorem length_writeVarint_le (fits : v < 2 ^ (8 * size)) :
    (writeVarint v).length ≤ (8 * size - 1) / 7 + 1 := by
  have short : v.size ≤ 8 * size := Nat.size_le.mpr fits
  rw [length_writeVarint]
  omega

theorem writeVarintSve_eq (sizes : size = 1 ∨ size = 2 ∨ size = 4 ∨ size = 8)
    (fits : v < 2 ^ (8 * size)) : writeVarintSve size v = writeVarint v := by
  rw [writeVarintSve]
  split
  next small => rw [writeVarint_one (by omega)]
  next large =>
    have large : 0x7f < v := by omega
    split
    next one =>
      subst one
      exact writeVarint_two large fits
    next more =>
      have length := length_writeVarint_le fits
      have word : spread 8 v < 2 ^ 64 := pdep_lt _ _ _
      have narrow : size = 2 → spread 8 v < 2 ^ 32 := by
        rintro rfl
        have room : v < 128 ^ 8 := by omega
        have bytes := size_spread (by omega) room
        exact Nat.size_le.mp (by omega)
      have vec : pdep 64 v (repeatByte 0x7f 8) = spread 8 v := rfl
      simp only [vec, and_clzMaskV word narrow, wrap_sizeSV word narrow]
      by_cases low : v < 2 ^ 56
      · have bytes := size_spread (by omega) (n := 8) low
        have isPrefix := writeVarint_prefix_mod (by omega) (n := 8) low
        have none : repeatByte 0 8 = 0 := rfl
        rw [if_pos low, none, Nat.or_zero, ite_self, if_neg (by omega)]
        refine take_of_prefix ?_ bytes
        rcases sizes with rfl | rfl | rfl | rfl
        · omega
        · rw [if_pos rfl, ← take_storeLE (by omega : 3 ≤ 8), List.prefix_take_iff]
          exact ⟨isPrefix, length⟩
        · rw [if_neg (by omega), if_pos rfl, ← take_storeLE (by omega : 5 ≤ 8),
            List.prefix_take_iff]
          exact ⟨isPrefix, length⟩
        · rw [if_neg (by omega), if_neg (by omega)]
          exact isPrefix.trans (List.prefix_append _ _)
      · have size : size = 8 := by
          rcases sizes with rfl | rfl | rfl | rfl
          all_goals omega
        subst size
        have long : 2 ^ 56 ≤ v := Nat.not_lt.mp low
        have kept : (spread 8 v ||| repeatByte 0x80 8) % 2 ^ (spread 8 v).size |||
            repeatByte 0x80 8 = spread 8 v ||| repeatByte 0x80 8 := by
          rw [Nat.or_mod_two_pow, Nat.mod_eq_of_lt (Nat.lt_size_self _), Nat.or_assoc, mod_or_self]
        rw [if_neg low, if_pos (rfl : 8 = 8), kept, if_neg (by omega : ¬ 8 = 2),
          if_neg (by omega : ¬ 8 = 4), if_pos (⟨rfl, long⟩ : 8 = 8 ∧ 2 ^ 56 ≤ v),
          ← length_writeVarint_long long fits]
        refine take_of_prefix (writeVarint_long long fits fun one => ?_) rfl
        rw [one]
        rfl

end


/-! ## Reading it back -/

section

variable {size v : Nat}

theorem continues_ofNat {n : Nat} (small : n < 128) : continues (UInt8.ofNat n) = false := by
  rw [not_continues, UInt8.toNat_ofNat']
  omega

theorem digit_ofNat_le {n k : Nat} (le : n ≤ k) (small : n < 128) : digit (UInt8.ofNat n) ≤ k := by
  rw [digit_eq, UInt8.toNat_ofNat']
  omega

theorem NarrowFits.of_writeVarint (fits : v < 2 ^ (8 * size)) {p : Nat → UInt8} (rest : Bytes)
    (bytes : ∀ i < Decoder.varintMaxBytes (8 * size), p i = (writeVarint v ++ rest).getD i 0) :
    NarrowFits size p := by
  constructor
  · rintro rfl more
    rw [bytes 0 (by decide)] at more
    rw [bytes 1 (by decide)]
    by_cases one : v < 128
    · rw [writeVarint_one one] at more
      exact absurd more (by simp [continues_ofNat one])
    · rw [writeVarint_more (by omega), writeVarint_one (by omega)]
      exact digit_ofNat_le (by omega) (by omega)
  · rintro rfl more more'
    rw [bytes 0 (by decide)] at more
    rw [bytes 1 (by decide)] at more'
    rw [bytes 2 (by decide)]
    by_cases one : v < 128
    · rw [writeVarint_one one] at more
      exact absurd more (by simp [continues_ofNat one])
    · rw [writeVarint_more (by omega)] at more' ⊢
      by_cases two : v / 128 < 128
      · rw [writeVarint_one two] at more'
        exact absurd more' (by simp [continues_ofNat two])
      · rw [writeVarint_more (by omega), writeVarint_one (by omega)]
        exact digit_ofNat_le (by omega) (by omega)

/-- What was written is read back by each build, however it is split. -/
theorem readVarint_writeVarint (build : Build)
    (sizes : size = 1 ∨ size = 2 ∨ size = 4 ∨ size = 8) (fits : v < 2 ^ (8 * size)) {c : Cursor}
    {rest : Bytes} (bytes : c.bytes = writeVarint v ++ rest) :
    flatten (Varint.readVarint build size c) = .ok (v, rest) := by
  have narrow (enough : Decoder.varintMaxBytes (8 * size) ≤ c.length) : NarrowFits size c.data := by
    refine .of_writeVarint fits rest fun i below => ?_
    rw [← bytes, Cursor.bytes, List.getD_append _ _ _ _ (Nat.lt_of_lt_of_le below enough)]
    rfl
  rw [flatten_readVarint build sizes narrow, flatten_readVarintSlow, bytes]
  exact decodes_readVarint (by omega) fits rest

theorem readVarintLoop_lt_pow {bits left shift result value : Nat} {bs : Bytes}
    (small : result < 2 ^ shift)
    (ok : Decoder.readVarintLoop bits left shift result bs = .ok (value, [])) :
    value < 2 ^ (shift + 7 * bs.length) := by
  induction left generalizing shift result bs with
  | zero => cases ok
  | succ left ih =>
    cases bs with
    | nil =>
      rw [readVarintLoop_nil] at ok
      cases ok
    | cons b bs =>
      have added : wrap bits (digit b <<< shift) < 2 ^ (shift + 7) := by
        refine Nat.lt_of_le_of_lt (Nat.mod_le _ _) ?_
        rw [Nat.shiftLeft_eq, Nat.pow_add, Nat.mul_comm]
        exact Nat.mul_lt_mul_of_pos_left (digit_lt b) (Nat.two_pow_pos shift)
      have next : result ||| wrap bits (digit b <<< shift) < 2 ^ (shift + 7) :=
        Nat.or_lt_two_pow
          (Nat.lt_of_lt_of_le small (Nat.pow_le_pow_right (by omega) (by omega))) added
      rw [readVarintLoop_cons] at ok
      split at ok
      · have bound := ih next ok
        rw [Nat.add_assoc, Nat.add_comm 7, ← Nat.mul_succ] at bound
        exact bound
      · cases ok
        exact next

theorem length_writeVarint_minimal {bits value : Nat} {bs : Bytes}
    (ok : Decoder.readVarint bits bs = .ok (value, [])) :
    (writeVarint value).length ≤ bs.length := by
  have bound := readVarintLoop_lt_pow (Nat.two_pow_pos 0) ok
  have short : value.size ≤ 0 + 7 * bs.length := Nat.size_le.mpr bound
  obtain ⟨read, split, some, -⟩ := consumes_readVarint bits bs value [] ok
  rw [List.append_nil] at split
  rw [length_writeVarint, split]
  rw [split] at short
  omega

/-- The writers agree on every integer, `writeVarintSlow` on those that it is called for; what
they write is as short as it can be, and is read back by each build from any split of it and of
what follows into buffers. -/
theorem varint_encoders_agree (sizes : size = 1 ∨ size = 2 ∨ size = 4 ∨ size = 8)
    (value : BitVec (8 * size)) :
    (0x7f < value.toNat → writeVarintSlow value.toNat = writeVarintUnrolled value.toNat) ∧
    writeVarintBranchFreeX86 size value.toNat = writeVarintUnrolled value.toNat ∧
    writeVarintSve size value.toNat = writeVarintUnrolled value.toNat ∧
    (∀ c : Cursor, flatten (readVarintSlow size c) = .ok (value.toNat, []) →
      (writeVarintUnrolled value.toNat).length ≤ c.bytes.length) ∧
    (∀ (build : Build) (c : Cursor) (rest : Bytes),
      c.bytes = writeVarintUnrolled value.toNat ++ rest →
        flatten (Varint.readVarint build size c) = .ok (value.toNat, rest)) ∧
    zigzagToSignedInt (signedIntToZigzag value) = value := by
  have fits := value.isLt
  rw [writeVarintUnrolled_eq, writeVarintBranchFreeX86_eq sizes fits, writeVarintSve_eq sizes fits]
  refine ⟨writeVarintSlow_eq, rfl, rfl, fun c ok => ?_, fun build c rest bytes => ?_, ?_⟩
  · rw [flatten_readVarintSlow] at ok
    exact length_writeVarint_minimal ok
  · exact readVarint_writeVarint build sizes fits bytes
  · exact zigzagToSignedInt_signedIntToZigzag (by omega) value

/-- The value `-300` of a type of four bytes. -/
theorem varint_encoders_agree_negative : let value : BitVec (8 * 4) := 0xfffffed4
    (0x7f < value.toNat → writeVarintSlow value.toNat = writeVarintUnrolled value.toNat) ∧
    writeVarintBranchFreeX86 4 value.toNat = writeVarintUnrolled value.toNat ∧
    writeVarintSve 4 value.toNat = writeVarintUnrolled value.toNat ∧
    (∀ c : Cursor, flatten (readVarintSlow 4 c) = .ok (value.toNat, []) →
      (writeVarintUnrolled value.toNat).length ≤ c.bytes.length) ∧
    (∀ (build : Build) (c : Cursor) (rest : Bytes),
      c.bytes = writeVarintUnrolled value.toNat ++ rest →
        flatten (Varint.readVarint build 4 c) = .ok (value.toNat, rest)) ∧
    zigzagToSignedInt (signedIntToZigzag value) = value :=
  varint_encoders_agree (.inr (.inr (.inl rfl))) _

/-- Called for a value of one digit, `writeVarintSlow` adds an empty one. -/
theorem writeVarintSlow_one_digit :
    writeVarintSlow 5 = [0x85, 0x00] ∧ writeVarintUnrolled 5 = [0x05] ∧
      writeVarintSlow 5 ≠ writeVarintUnrolled 5 := by
  decide +kernel

end

end FbThrift.Varint
