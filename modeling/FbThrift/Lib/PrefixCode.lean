import FbThrift.Lib.SortedMap

/-!
# Prefix-free codes

A code that can be split off the front of any longer word.  Codes of tuples and
of lists are built by concatenation, and a prefix-free code is injective, which
is what `Keyed` asks for.
-/

namespace FbThrift

/-- Bytes of a string, a binary value or a wire buffer. -/
abbrev Bytes := List UInt8

/-- The code of a value can be split off the front of a longer word. -/
def PrefixFree {α : Type} (code : α → List Nat) : Prop :=
  ∀ (a b : α) (s t : List Nat), code a ++ s = code b ++ t → a = b ∧ s = t

theorem PrefixFree.injective {α : Type} {code : α → List Nat} (free : PrefixFree code) :
    Function.Injective code := by
  intro a b same
  exact (free a b [] [] (by simpa using same)).1

theorem UInt8.map_toNat_injective : Function.Injective (List.map UInt8.toNat) :=
  List.map_injective_iff.mpr fun _ _ same => UInt8.toNat_inj.mp same

/-- A byte string behind its length. -/
def Bytes.code (s : Bytes) : List Nat := s.length :: s.map UInt8.toNat

theorem Bytes.code_prefixFree : PrefixFree Bytes.code := by
  intro a b s t same
  simp only [Bytes.code, List.cons_append, List.cons.injEq] at same
  obtain ⟨length, rest⟩ := same
  obtain ⟨head, tail⟩ := List.append_inj rest (by simpa using length)
  exact ⟨UInt8.map_toNat_injective head, tail⟩

instance : Keyed Bytes where
  code := Bytes.code
  code_injective := Bytes.code_prefixFree.injective

instance : Keyed Nat where
  code n := [n]
  code_injective := by
    intro a b same
    exact (List.cons.inj same).1

instance : Keyed UInt32 where
  code n := [n.toNat]
  code_injective := by
    intro a b same
    exact UInt32.toNat_inj.mp (List.cons.inj same).1

/-- Signed integers keep their numeric order. -/
instance : Keyed Int16 where
  code n := [(n.toInt + 32768).toNat]
  code_injective := by
    intro a b same
    have lower := a.minValue_le_toInt
    have lower' := b.minValue_le_toInt
    simp only [List.cons.injEq, and_true] at same
    exact Int16.toInt_inj.mp (by
      simp only [Int16.toInt_minValue] at lower lower'
      omega)

instance : Keyed Int64 where
  code n := [(n.toInt + 9223372036854775808).toNat]
  code_injective := by
    intro a b same
    have lower := a.minValue_le_toInt
    have lower' := b.minValue_le_toInt
    simp only [List.cons.injEq, and_true] at same
    exact Int64.toInt_inj.mp (by
      simp only [Int64.toInt_minValue] at lower lower'
      omega)

end FbThrift
