import FbThrift.Dynamic.Records
import FbThrift.Lib.Utf8

/-!
# Validation of text

`ensureUTF8OrThrow` finds the length of a sequence from its first byte, and then looks for
continuation bytes.  What it accepts are the texts of arbitrary forms but surrogates: its test for
invalid sequences compares eight bits with more than eight and never succeeds, so neither a form
that is longer than it has to be nor a number above U+10FFFF is found.
-/

namespace FbThrift.Dynamic.SerializableRecord

open Utf8

/-! ## Bytes -/

theorem forall_uint8 {p : UInt8 → Prop} : (∀ c, p c) ↔ ∀ n < 256, p (UInt8.ofNat n) := by
  constructor
  · exact fun all n _ => all _
  · intro all c
    have here := all c.toNat (UInt8.toNat_lt c)
    rwa [UInt8.ofNat_toNat] at here

theorem sequenceLength_eq (c : UInt8) :
    sequenceLength c = if c.toNat < 0x80 then 1 else if c.toNat < 0xC0 then 0
      else if c.toNat < 0xE0 then 2 else if c.toNat < 0xF0 then 3
      else if c.toNat < 0xF8 then 4 else 0 := by
  revert c
  rw [forall_uint8]
  decide +kernel

theorem continuation_iff (d : UInt8) : d &&& 0xC0 = 0x80 ↔ 0x80 ≤ d.toNat ∧ d.toNat < 0xC0 := by
  revert d
  rw [forall_uint8]
  decide +kernel

theorem surrogate_iff {d : UInt8} (continuation : 0x80 ≤ d.toNat ∧ d.toNat < 0xC0) :
    d &&& 0xa0 = 0xa0 ↔ 0xA0 ≤ d.toNat := by
  revert d
  rw [forall_uint8]
  decide +kernel

/-- The mask of the test for invalid sequences has bits that no byte has. -/
theorem not_mask {n : Nat} (long : 1 < n) (short : n ≤ 4) (c : UInt8) :
    c.toNat &&& (0xFF <<< (8 - n)) ≠ 0xFF <<< (8 - n) := by
  have below : c.toNat &&& (0xFF <<< (8 - n)) ≤ c.toNat := Nat.and_le_left
  have byte := UInt8.toNat_lt c
  have high : 256 ≤ 0xFF <<< (8 - n) := by
    interval_cases n <;> decide
  omega

/-! ## One sequence -/

/-- The forms that are taken for characters. -/
def Taken (f : Form) : Prop := f.Valid ∧ ¬ (f.length = 3 ∧ f.Surrogate)

instance (f : Form) : Decidable (Taken f) := inferInstanceAs (Decidable (_ ∧ _))

theorem isUTF8_cons (rounds : Nat) (c : UInt8) (rest : Bytes) :
    isUTF8 (rounds + 1) (c :: rest) = true ↔ sequenceLength c ≠ 0 ∧
      ¬ (sequenceLength c = 3 ∧ c = 0xed ∧ rest.head?.any (fun d => d &&& 0xa0 = 0xa0)) ∧
      sequenceLength c - 1 ≤ rest.length ∧
      (∀ d ∈ rest.take (sequenceLength c - 1), 0x80 ≤ d.toNat ∧ d.toNat < 0xC0) ∧
      isUTF8 rounds (rest.drop (sequenceLength c - 1)) = true := by
  have noMask : ¬ (1 < sequenceLength c ∧
      c.toNat &&& (0xFF <<< (8 - sequenceLength c)) = 0xFF <<< (8 - sequenceLength c)) := by
    rintro ⟨long, equal⟩
    refine not_mask long ?_ c equal
    rw [sequenceLength_eq]
    split_ifs <;> omega
  have tested : (rest.take (sequenceLength c - 1)).any (fun d => d &&& 0xC0 ≠ 0x80) = false ↔
      ∀ d ∈ rest.take (sequenceLength c - 1), 0x80 ≤ d.toNat ∧ d.toNat < 0xC0 := by
    simp only [List.any_eq_false, not_not, continuation_iff, ne_eq, decide_not,
      Bool.not_eq_true', decide_eq_false_iff_not]
  simp only [isUTF8, if_neg noMask, ← tested]
  by_cases none : sequenceLength c = 0
  · simp [none]
  rw [if_neg none]
  by_cases surrogate : sequenceLength c = 3 ∧ c = 0xed ∧ rest.head?.any (fun d => d &&& 0xa0 = 0xa0)
  · rw [if_pos surrogate]
    exact ⟨nofun, fun ⟨_, other, _⟩ => absurd surrogate other⟩
  rw [if_neg surrogate]
  by_cases rejected : rest.length < sequenceLength c - 1 ∨
      (rest.take (sequenceLength c - 1)).any (fun d => d &&& 0xC0 ≠ 0x80) = true
  · rw [if_pos rejected]
    refine ⟨nofun, fun ⟨_, _, enough, continuations, _⟩ => ?_⟩
    rcases rejected with short | other
    · omega
    · rw [continuations] at other
      cases other
  · rw [if_neg rejected]
    rw [not_or, Bool.not_eq_true, not_lt] at rejected
    exact ⟨fun accepted => ⟨none, surrogate, rejected.1, rejected.2, accepted⟩,
      fun ⟨_, _, _, _, accepted⟩ => accepted⟩

theorem ofNat_byte {n : Nat} {c : UInt8} (same : n = c.toNat) : UInt8.ofNat n = c := by
  rw [same, UInt8.ofNat_toNat]

theorem toNat_byte {n : Nat} (small : n < 256) : (UInt8.ofNat n).toNat = n :=
  UInt8.toNat_ofNat_of_lt' small

theorem exists_taken {rounds : Nat} {c : UInt8} {rest : Bytes}
    (accepted : isUTF8 (rounds + 1) (c :: rest) = true) :
    ∃ f tail, Taken f ∧ c :: rest = f.bytes ++ tail ∧ isUTF8 rounds tail = true := by
  obtain ⟨lead, noSurrogate, enough, continuations, accepted⟩ := (isUTF8_cons _ _ _).mp accepted
  have byte := UInt8.toNat_lt c
  have lengths := sequenceLength_eq c
  split_ifs at lengths with one invalid two three four
  · rw [lengths] at accepted
    refine ⟨⟨1, c.toNat⟩, rest, ⟨one, by simp⟩, ?_, accepted⟩
    simp only [Form.bytes, encode, List.map_cons, List.map_nil, UInt8.ofNat_toNat,
      List.cons_append, List.nil_append]
  · exact absurd lengths lead
  · rw [lengths] at accepted enough continuations
    obtain _ | ⟨d, rest⟩ := rest
    · cases enough
    obtain ⟨low, high⟩ := continuations d (by simp)
    refine ⟨⟨2, (c.toNat - 0xC0) * 64 + (d.toNat - 0x80)⟩, rest, ⟨?_, by simp⟩, ?_, accepted⟩
    · show (c.toNat - 0xC0) * 64 + (d.toNat - 0x80) < 0x800
      omega
    · simp only [Form.bytes, encode, List.map_cons, List.map_nil, List.cons_append, List.nil_append]
      rw [ofNat_byte (c := c) (by omega), ofNat_byte (c := d) (by omega)]
  · rw [lengths] at accepted enough continuations
    obtain _ | ⟨d, _ | ⟨e, rest⟩⟩ := rest
    · cases enough
    · simp at enough
    obtain ⟨low, high⟩ := continuations d (by simp)
    obtain ⟨low', high'⟩ := continuations e (by simp)
    -- After `0xed` the second byte keeps the number below the surrogates.
    have scalar : c.toNat = 0xED → d.toNat < 0xA0 := by
      intro lead
      by_contra surrogate
      refine noSurrogate ⟨lengths, UInt8.toNat_inj.mp lead, ?_⟩
      have mask := (surrogate_iff ⟨low, high⟩).mpr (by omega)
      simpa using mask
    refine ⟨⟨3, (c.toNat - 0xE0) * 4096 + (d.toNat - 0x80) * 64 + (e.toNat - 0x80)⟩, rest,
      ⟨?_, ?_⟩, ?_, accepted⟩
    · show (c.toNat - 0xE0) * 4096 + (d.toNat - 0x80) * 64 + (e.toNat - 0x80) < 0x10000
      omega
    · rintro ⟨-, surrogate⟩
      unfold Form.Surrogate at surrogate
      dsimp only at surrogate
      omega
    · simp only [Form.bytes, encode, List.map_cons, List.map_nil, List.cons_append, List.nil_append]
      rw [ofNat_byte (c := c) (by omega), ofNat_byte (c := d) (by omega),
        ofNat_byte (c := e) (by omega)]
  · rw [lengths] at accepted enough continuations
    obtain _ | ⟨d, _ | ⟨e, _ | ⟨g, rest⟩⟩⟩ := rest
    · cases enough
    · simp at enough
    · simp at enough
    obtain ⟨low, high⟩ := continuations d (by simp)
    obtain ⟨low', high'⟩ := continuations e (by simp)
    obtain ⟨low'', high''⟩ := continuations g (by simp)
    refine ⟨⟨4, (c.toNat - 0xF0) * 262144 + (d.toNat - 0x80) * 4096 + (e.toNat - 0x80) * 64 +
      (g.toNat - 0x80)⟩, rest, ⟨?_, by simp⟩, ?_, accepted⟩
    · show (c.toNat - 0xF0) * 262144 + (d.toNat - 0x80) * 4096 + (e.toNat - 0x80) * 64 +
        (g.toNat - 0x80) < 0x200000
      omega
    · simp only [Form.bytes, encode, List.map_cons, List.map_nil, List.cons_append, List.nil_append]
      rw [ofNat_byte (c := c) (by omega), ofNat_byte (c := d) (by omega),
        ofNat_byte (c := e) (by omega), ofNat_byte (c := g) (by omega)]
  · exact absurd lengths lead

theorem continuation_byte (v : Nat) :
    0x80 ≤ (UInt8.ofNat (0x80 + v % 64)).toNat ∧ (UInt8.ofNat (0x80 + v % 64)).toNat < 0xC0 := by
  rw [toNat_byte (by omega)]
  omega

theorem isUTF8_append {f : Form} (taken : Taken f) (rounds : Nat) (tail : Bytes) :
    isUTF8 (rounds + 1) (f.bytes ++ tail) = true ↔ isUTF8 rounds tail = true := by
  obtain ⟨n, v⟩ := f
  obtain ⟨valid, scalar⟩ := taken
  have small : v < limit n := valid
  rcases valid.length_cases with rfl | rfl | rfl | rfl
  all_goals
    simp only [limit] at small
    simp only [Form.bytes, encode, List.map_cons, List.map_nil, List.cons_append, List.nil_append]
    rw [isUTF8_cons]
  · have lead : sequenceLength (UInt8.ofNat v) = 1 := by
      rw [sequenceLength_eq, toNat_byte (by omega), if_pos small]
    simp [lead]
  · have lead : sequenceLength (UInt8.ofNat (0xC0 + v / 64)) = 2 := by
      rw [sequenceLength_eq, toNat_byte (by omega), if_neg (by omega), if_neg (by omega),
        if_pos (by omega)]
    simp [lead, -UInt8.ofNat_add]
    omega
  · have lead : sequenceLength (UInt8.ofNat (0xE0 + v / 4096)) = 3 := by
      rw [sequenceLength_eq, toNat_byte (by omega), if_neg (by omega), if_neg (by omega),
        if_neg (by omega), if_pos (by omega)]
    have noSurrogate : ¬ (UInt8.ofNat (0xE0 + v / 4096) = 0xed ∧
        UInt8.ofNat (0x80 + v / 64 % 64) &&& 0xa0 = 0xa0) := by
      rintro ⟨first, second⟩
      have first := congrArg UInt8.toNat first
      rw [toNat_byte (by omega)] at first
      rw [surrogate_iff (continuation_byte _), toNat_byte (by omega)] at second
      have first : 0xE0 + v / 4096 = 0xED := first
      exact scalar ⟨rfl, show 0xD800 ≤ v by omega, show v < 0xE000 by omega⟩
    rw [lead]
    refine ⟨fun tests => tests.2.2.2.2, fun accepted => ⟨by decide, ?_, by simp, ?_, accepted⟩⟩
    · rintro ⟨-, first, second⟩
      exact noSurrogate ⟨first, by simpa using second⟩
    · intro d member
      rcases List.mem_pair.mp member with rfl | rfl
      · exact continuation_byte _
      · exact continuation_byte _
  · have lead : sequenceLength (UInt8.ofNat (0xF0 + v / 262144)) = 4 := by
      rw [sequenceLength_eq, toNat_byte (by omega), if_neg (by omega), if_neg (by omega),
        if_neg (by omega), if_neg (by omega), if_pos (by omega)]
    simp [lead, -UInt8.ofNat_add]
    omega

/-! ## Whole texts -/

theorem isUTF8_iff {rounds : Nat} {s : Bytes} (enough : s.length ≤ rounds) :
    isUTF8 rounds s = true ↔ ∃ fs, (∀ f ∈ fs, Taken f) ∧ s = join fs := by
  induction rounds generalizing s with
  | zero =>
    obtain rfl : s = [] := List.eq_nil_of_length_eq_zero (by omega)
    exact ⟨fun _ => ⟨[], by simp, rfl⟩, fun _ => rfl⟩
  | succ rounds ih =>
    obtain _ | ⟨c, rest⟩ := s
    · exact ⟨fun _ => ⟨[], by simp, rfl⟩, fun _ => rfl⟩
    constructor
    · intro accepted
      obtain ⟨f, tail, taken, cut, accepted⟩ := exists_taken accepted
      have shorter : tail.length ≤ rounds := by
        have lengths := congrArg List.length cut
        have positive := List.length_pos_of_ne_nil taken.1.bytes_ne_nil
        rw [List.length_append] at lengths
        omega
      obtain ⟨fs, taken', rfl⟩ := (ih shorter).mp accepted
      exact ⟨f :: fs, List.forall_mem_cons.mpr ⟨taken, taken'⟩, cut⟩
    · rintro ⟨fs, taken, cut⟩
      obtain _ | ⟨f, fs⟩ := fs
      · cases cut
      obtain ⟨head, tail⟩ := List.forall_mem_cons.mp taken
      rw [cut, join_cons, isUTF8_append head]
      refine (ih ?_).mpr ⟨fs, tail, rfl⟩
      have lengths := congrArg List.length cut
      have positive := List.length_pos_of_ne_nil head.1.bytes_ne_nil
      rw [join_cons, List.length_append] at lengths
      omega

/-- `ensureUTF8OrThrow` returns on the texts of arbitrary forms but surrogates. -/
theorem ensureUTF8OrThrow_ok (s : Bytes) :
    ensureUTF8OrThrow s = .ok () ↔ ∃ fs, (∀ f ∈ fs, Taken f) ∧ s = join fs := by
  rw [← isUTF8_iff (Nat.le_refl _), ensureUTF8OrThrow]
  cases isUTF8 s.length s with
  | true => exact ⟨fun _ => rfl, fun _ => rfl⟩
  | false => exact ⟨nofun, nofun⟩

/-- A text of the forms that are taken for characters, one of which is longer than it has to be
or too large for Unicode. -/
def Misread (s : Bytes) : Prop :=
  ∃ fs, (∀ f ∈ fs, Taken f) ∧ s = join fs ∧ ∃ f ∈ fs, ¬ f.Shortest ∨ 0x10FFFF < f.code

/-- The numbers of the characters that a text is taken for. -/
def Denotes (s : Bytes) (codes : List Nat) : Prop :=
  ∃ fs, (∀ f ∈ fs, Taken f) ∧ s = join fs ∧ fs.map Form.code = codes

theorem taken_of_isChar {f : Form} (isChar : f.IsChar) : Taken f :=
  ⟨isChar.valid, fun surrogate => isChar.scalar surrogate.2⟩

theorem isChar_of_taken {f : Form} (taken : Taken f) (shortest : f.Shortest)
    (unicode : f.code ≤ 0x10FFFF) : f.IsChar := by
  refine ⟨taken.1, shortest, fun surrogate => taken.2 ⟨?_, surrogate⟩, unicode⟩
  have small : f.code < limit f.length := taken.1
  have long : limit (f.length - 1) ≤ f.code := shortest
  obtain ⟨low, high⟩ := surrogate
  rcases taken.1.length_cases with one | two | three | four
  · rw [one] at small
    simp only [limit] at small
    omega
  · rw [two] at small
    simp only [limit] at small
    omega
  · exact three
  · rw [four] at long
    simp only [limit, Nat.reduceSub] at long
    omega

theorem isChar_of_not_misread {fs : List Form} (taken : ∀ f ∈ fs, Taken f)
    (clean : ¬ Misread (join fs)) : ∀ f ∈ fs, f.IsChar := by
  intro f member
  have other : ¬ (¬ f.Shortest ∨ 0x10FFFF < f.code) := fun bad =>
    clean ⟨fs, taken, rfl, f, member, bad⟩
  rw [not_or, not_not, not_lt] at other
  exact isChar_of_taken (taken f member) other.1 other.2

theorem wellFormed_not_misread {s : Bytes} (wellFormed : WellFormed s) : ¬ Misread s := by
  obtain ⟨gs, isChar, rfl⟩ := wellFormed_iff.mp wellFormed
  rintro ⟨fs, taken, same, f, member, bad⟩
  obtain rfl := join_inj (fun g listed => (isChar g listed).valid)
    (fun f listed => (taken f listed).1) same
  rcases bad with long | large
  · exact long (isChar f member).shortest
  · exact absurd (isChar f member).unicode (by omega)

theorem accepted_of_wellFormed {s : Bytes} (wellFormed : WellFormed s) :
    ensureUTF8OrThrow s = .ok () := by
  obtain ⟨gs, isChar, rfl⟩ := wellFormed_iff.mp wellFormed
  exact (ensureUTF8OrThrow_ok _).mpr ⟨gs, fun g listed => taken_of_isChar (isChar g listed), rfl⟩

theorem wellFormed_of_accepted {s : Bytes} (clean : ¬ Misread s)
    (accepted : ensureUTF8OrThrow s = .ok ()) : WellFormed s := by
  obtain ⟨fs, taken, rfl⟩ := (ensureUTF8OrThrow_ok s).mp accepted
  exact wellFormed_iff.mpr ⟨fs, isChar_of_not_misread taken clean, rfl⟩

/-- Texts that are not misread and denote the same characters are equal. -/
theorem eq_of_denotes {s s' : Bytes} {codes : List Nat} (clean : ¬ Misread s)
    (clean' : ¬ Misread s') (denotes : Denotes s codes) (denotes' : Denotes s' codes) : s = s' := by
  obtain ⟨fs, taken, rfl, rfl⟩ := denotes
  obtain ⟨gs, taken', rfl, same⟩ := denotes'
  have isChar := isChar_of_not_misread taken clean
  have isChar' := isChar_of_not_misread taken' clean'
  congr 1
  clear taken taken' clean clean'
  induction fs generalizing gs with
  | nil =>
    obtain rfl := List.map_eq_nil_iff.mp same
    rfl
  | cons f fs ih =>
    obtain ⟨g, gs, rfl, code, rest⟩ := List.map_eq_cons_iff.mp same
    obtain ⟨head, tail⟩ := List.forall_mem_cons.mp isChar
    obtain ⟨head', tail'⟩ := List.forall_mem_cons.mp isChar'
    rw [head.eq_of_code head' code.symm, ih gs rest tail tail']

/-- `ensureUTF8OrThrow` returns exactly on UTF-8 where nothing is misread, and then different texts
denote different characters. -/
theorem ensureUTF8OrThrow_exact_iff (s : Bytes) :
    ((ensureUTF8OrThrow s = .ok () ↔ WellFormed s) ↔ ¬ Misread s) ∧
      ∀ s' codes, ¬ Misread s → ¬ Misread s' → Denotes s codes → Denotes s' codes → s = s' := by
  refine ⟨⟨fun exact misread => ?_, fun clean => ?_⟩, fun s' codes => eq_of_denotes⟩
  · obtain ⟨fs, taken, same, -⟩ := id misread
    have accepted := (ensureUTF8OrThrow_ok s).mpr ⟨fs, taken, same⟩
    exact wellFormed_not_misread (exact.mp accepted) misread
  · exact ⟨wellFormed_of_accepted clean, accepted_of_wellFormed⟩

/-- `"é"` is written in one way. -/
theorem ensureUTF8OrThrow_exact_at :
    (ensureUTF8OrThrow [0xC3, 0xA9] = .ok () ↔ WellFormed [0xC3, 0xA9]) ∧
      ∀ s', ¬ Misread s' → Denotes s' [0xE9] → [0xC3, 0xA9] = s' := by
  have wellFormed : WellFormed [0xC3, 0xA9] := ⟨['é'], by decide⟩
  have clean := wellFormed_not_misread wellFormed
  refine ⟨(ensureUTF8OrThrow_exact_iff _).1.mpr clean, fun s' clean' denotes => ?_⟩
  refine (ensureUTF8OrThrow_exact_iff [0xC3, 0xA9]).2 s' [0xE9] clean clean' ?_ denotes
  exact ⟨[⟨2, 0xE9⟩], by decide, by decide, rfl⟩

/-- The two bytes `C1 81` are accepted and denote `A`, as the byte `41` does. -/
theorem not_ensureUTF8OrThrow_exact : (¬ ∀ s, ensureUTF8OrThrow s = .ok () ↔ WellFormed s) ∧
      ¬ ∀ s s' codes, ensureUTF8OrThrow s = .ok () → ensureUTF8OrThrow s' = .ok () →
        Denotes s codes → Denotes s' codes → s = s' := by
  constructor
  · intro exact
    have wellFormed := (exact [0xC1, 0x81]).mp (by decide)
    exact wellFormed_not_misread wellFormed
      ⟨[⟨2, 0x41⟩], by decide, by decide, ⟨2, 0x41⟩, by decide, Or.inl (by decide)⟩
  · intro distinct
    have same := distinct [0xC1, 0x81] [0x41] [0x41] (by decide) (by decide)
      ⟨[⟨2, 0x41⟩], by decide, by decide, rfl⟩ ⟨[⟨1, 0x41⟩], by decide, by decide, rfl⟩
    cases same

end FbThrift.Dynamic.SerializableRecord
