import Mathlib.Data.UInt
import Mathlib.Tactic.Linarith
import Mathlib.Tactic.IntervalCases
import FbThrift.Lib.PrefixCode

/-!
# Forms of UTF-8

A form is a number written with the bit patterns of UTF-8 in one to four bytes, be it the shortest
form of the number or not, and be the number a character or not.  Forms are a prefix code, and the
UTF-8 of characters are the shortest forms of the Unicode scalar values.
-/

namespace FbThrift.Utf8

/-- A number and the bytes it takes. -/
structure Form where
  length : Nat
  code : Nat
  deriving DecidableEq

/-- The first number that does not fit in as many bytes. -/
def limit : Nat → Nat
  | 1 => 0x80
  | 2 => 0x800
  | 3 => 0x10000
  | 4 => 0x200000
  | _ => 0

/-- The bytes of a number. -/
def encode : Nat → Nat → List Nat
  | 1, v => [v]
  | 2, v => [0xC0 + v / 64, 0x80 + v % 64]
  | 3, v => [0xE0 + v / 4096, 0x80 + v / 64 % 64, 0x80 + v % 64]
  | 4, v => [0xF0 + v / 262144, 0x80 + v / 4096 % 64, 0x80 + v / 64 % 64, 0x80 + v % 64]
  | _, _ => []

namespace Form

variable {f g : Form}

def bytes (f : Form) : Bytes := (encode f.length f.code).map UInt8.ofNat

def Valid (f : Form) : Prop := f.code < limit f.length

instance (f : Form) : Decidable f.Valid := inferInstanceAs (Decidable (_ < _))

/-- No shorter form holds the number. -/
def Shortest (f : Form) : Prop := limit (f.length - 1) ≤ f.code

instance (f : Form) : Decidable f.Shortest := inferInstanceAs (Decidable (_ ≤ _))

/-- The number is kept for the surrogates of UTF-16. -/
def Surrogate (f : Form) : Prop := 0xD800 ≤ f.code ∧ f.code < 0xE000

instance (f : Form) : Decidable f.Surrogate := inferInstanceAs (Decidable (_ ∧ _))

/-- The UTF-8 of a character. -/
structure IsChar (f : Form) : Prop where
  valid : f.Valid
  shortest : f.Shortest
  scalar : ¬ f.Surrogate
  unicode : f.code ≤ 0x10FFFF

theorem Valid.length_cases (valid : f.Valid) :
    f.length = 1 ∨ f.length = 2 ∨ f.length = 3 ∨ f.length = 4 := by
  unfold Valid limit at valid
  split at valid <;> omega

theorem Valid.bytes_ne_nil (valid : f.Valid) : f.bytes ≠ [] := by
  obtain ⟨n, v⟩ := f
  rcases valid.length_cases with rfl | rfl | rfl | rfl
  all_goals exact List.cons_ne_nil _ _

/-- The shortest form of a number is one. -/
theorem IsChar.eq_of_code (isChar : f.IsChar) (isChar' : g.IsChar) (same : f.code = g.code) :
    f = g := by
  obtain ⟨n, v⟩ := f
  obtain ⟨m, w⟩ := g
  obtain rfl : v = w := same
  have small : v < limit n := isChar.valid
  have small' : v < limit m := isChar'.valid
  have long : limit (n - 1) ≤ v := isChar.shortest
  have long' : limit (m - 1) ≤ v := isChar'.shortest
  rcases isChar.valid.length_cases with rfl | rfl | rfl | rfl <;>
    rcases isChar'.valid.length_cases with rfl | rfl | rfl | rfl
  all_goals
    simp only [limit, Nat.reduceSub] at small small' long long'
  all_goals first
    | rfl
    | omega

/-! ## Forms as a prefix code -/

theorem ofNat_inj {a b : Nat} (ha : a < 256) (hb : b < 256) (same : UInt8.ofNat a = UInt8.ofNat b) :
    a = b := by
  have equal := congrArg UInt8.toNat same
  rwa [UInt8.toNat_ofNat_of_lt' ha, UInt8.toNat_ofNat_of_lt' hb] at equal

/-- Two forms of which one starts with the other are equal. -/
theorem Valid.eq_of_append (valid : f.Valid) (valid' : g.Valid) {r s : Bytes}
    (same : f.bytes ++ r = g.bytes ++ s) : f = g := by
  obtain ⟨n, v⟩ := f
  obtain ⟨m, w⟩ := g
  have small : v < limit n := valid
  have small' : w < limit m := valid'
  rcases valid.length_cases with rfl | rfl | rfl | rfl <;>
    rcases valid'.length_cases with rfl | rfl | rfl | rfl
  all_goals
    simp only [bytes, encode, List.map_cons, List.map_nil, List.cons_append, List.nil_append,
      List.cons.injEq] at same
    simp only [limit] at small small'
  -- Forms of different lengths differ in the first byte already.
  all_goals
    have first := ofNat_inj (by omega) (by omega) same.1
  case inl.inl =>
    rw [first]
  case inr.inl.inr.inl =>
    have second := ofNat_inj (by omega) (by omega) same.2.1
    rw [show v = w by omega]
  case inr.inr.inl.inr.inr.inl =>
    have second := ofNat_inj (by omega) (by omega) same.2.1
    have third := ofNat_inj (by omega) (by omega) same.2.2.1
    rw [show v = w by omega]
  case inr.inr.inr.inr.inr.inr =>
    have second := ofNat_inj (by omega) (by omega) same.2.1
    have third := ofNat_inj (by omega) (by omega) same.2.2.1
    have fourth := ofNat_inj (by omega) (by omega) same.2.2.2.1
    rw [show v = w by omega]
  all_goals omega

end Form

/-! ## Texts -/

/-- The bytes of one form after the other. -/
def join (fs : List Form) : Bytes := fs.flatMap Form.bytes

@[simp] theorem join_nil : join [] = [] := rfl

@[simp] theorem join_cons (f : Form) (fs : List Form) : join (f :: fs) = f.bytes ++ join fs := rfl

/-- A text is cut into forms in one way. -/
theorem join_inj {fs gs : List Form} (valid : ∀ f ∈ fs, f.Valid) (valid' : ∀ g ∈ gs, g.Valid)
    (same : join fs = join gs) : fs = gs := by
  induction fs generalizing gs with
  | nil =>
    cases gs with
    | nil => rfl
    | cons g gs =>
      have empty := (List.append_eq_nil_iff.mp same.symm).1
      exact absurd empty (valid' g List.mem_cons_self).bytes_ne_nil
  | cons f fs ih =>
    cases gs with
    | nil =>
      have empty := (List.append_eq_nil_iff.mp same).1
      exact absurd empty (valid f List.mem_cons_self).bytes_ne_nil
    | cons g gs =>
      obtain ⟨head, tail⟩ := List.forall_mem_cons.mp valid
      obtain ⟨head', tail'⟩ := List.forall_mem_cons.mp valid'
      obtain rfl := head.eq_of_append head' same
      rw [ih tail tail' (List.append_cancel_left same)]

/-! ## Characters -/

/-- The form of a character. -/
def ofChar (c : Char) : Form := ⟨c.utf8Size, c.toNat⟩

/-- UTF-8 as RFC 3629 defines it: the bytes of a sequence of characters. -/
def WellFormed (s : Bytes) : Prop := ∃ cs : List Char, s = cs.flatMap String.utf8EncodeChar

theorem utf8Size_eq (c : Char) :
    c.utf8Size = if c.toNat < 0x80 then 1 else if c.toNat < 0x800 then 2
      else if c.toNat < 0x10000 then 3 else 4 := by
  unfold Char.utf8Size Char.toNat
  simp only [UInt32.le_iff_toNat_le, Nat.lt_succ_iff.symm]
  rfl

theorem Form.isChar_ofChar (c : Char) : (ofChar c).IsChar := by
  have scalar : c.toNat < 0xD800 ∨ 0xDFFF < c.toNat ∧ c.toNat < 0x110000 := c.valid
  refine ⟨?_, ?_, ?_, ?_⟩
  · unfold Valid ofChar
    rw [utf8Size_eq]
    split_ifs <;> simp only [limit] <;> omega
  · unfold Shortest ofChar
    rw [utf8Size_eq]
    split_ifs <;> simp only [limit, Nat.reduceSub] <;> omega
  · show ¬ (0xD800 ≤ c.toNat ∧ c.toNat < 0xE000)
    omega
  · show c.toNat ≤ 0x10FFFF
    omega

theorem bytes_ofChar (c : Char) : (ofChar c).bytes = String.utf8EncodeChar c := by
  have scalar : c.toNat < 0xD800 ∨ 0xDFFF < c.toNat ∧ c.toNat < 0x110000 := c.valid
  have value : c.val.toNat = c.toNat := rfl
  unfold Form.bytes ofChar String.utf8EncodeChar
  rw [utf8Size_eq]
  simp only [value]
  split_ifs
  all_goals first
    | omega
    | simp only [encode, List.map_cons, List.map_nil]
  · rw [Nat.mod_eq_of_lt (show c.toNat / 64 < 0x20 by omega)]
    simp only [Nat.add_comm]
  · rw [Nat.mod_eq_of_lt (show c.toNat / 4096 < 0x10 by omega)]
    simp only [Nat.add_comm]
  · rw [Nat.mod_eq_of_lt (show c.toNat / 262144 < 0x08 by omega)]
    simp only [Nat.add_comm]

theorem Form.IsChar.exists_char {f : Form} (isChar : f.IsChar) : ∃ c, ofChar c = f := by
  obtain ⟨n, v⟩ := f
  have small : v < limit n := isChar.valid
  have long : limit (n - 1) ≤ v := isChar.shortest
  have scalar : ¬ (0xD800 ≤ v ∧ v < 0xE000) := isChar.scalar
  have unicode : v ≤ 0x10FFFF := isChar.unicode
  have valid : v.isValidChar := by
    unfold Nat.isValidChar
    omega
  have code : (Char.ofNat v).toNat = v := by
    rw [Char.toNat_ofNat, if_pos valid]
  refine ⟨Char.ofNat v, ?_⟩
  unfold ofChar
  rw [utf8Size_eq, code]
  congr
  rcases isChar.valid.length_cases with rfl | rfl | rfl | rfl <;>
    simp only [limit, Nat.reduceSub] at small long <;> split_ifs <;> omega

theorem join_map_ofChar (cs : List Char) :
    join (cs.map ofChar) = cs.flatMap String.utf8EncodeChar := by
  simp only [join, List.flatMap_map, bytes_ofChar]

theorem wellFormed_iff {s : Bytes} :
    WellFormed s ↔ ∃ fs : List Form, (∀ f ∈ fs, f.IsChar) ∧ s = join fs := by
  constructor
  · rintro ⟨cs, rfl⟩
    refine ⟨cs.map ofChar, fun f member => ?_, (join_map_ofChar cs).symm⟩
    obtain ⟨c, -, rfl⟩ := List.mem_map.mp member
    exact Form.isChar_ofChar c
  · rintro ⟨fs, isChar, rfl⟩
    induction fs with
    | nil => exact ⟨[], rfl⟩
    | cons f fs ih =>
      obtain ⟨head, tail⟩ := List.forall_mem_cons.mp isChar
      obtain ⟨c, rfl⟩ := head.exists_char
      obtain ⟨cs, rest⟩ := ih tail
      refine ⟨c :: cs, ?_⟩
      rw [join_cons, bytes_ofChar, rest, List.flatMap_cons]

end FbThrift.Utf8
