import FbThrift.Lib.PrefixCode
import FbThrift.Lib.SortedSet

/-!
# Schemaless values

`Value` is the union of `protocol.thrift` and an object is its map of members.  Sets
and maps are hash containers in the source: a well-formed value (`Wf`) holds them in
canonical order, so that equality of values is equality of terms, while the code that
iterates over a container is modelled on the list in whatever order it stands.

Floating point values are their bit patterns.  The type URI of an object is never
read or written by the modelled functions and is left out.
-/

namespace FbThrift

/-- The union `Value`; `empty` is its `__EMPTY__` state. -/
inductive Value where
  | empty
  | bool (value : Bool)
  | byte (value : Int8)
  | i16 (value : Int16)
  | i32 (value : Int32)
  | i64 (value : Int64)
  | float (bits : UInt32)
  | double (bits : UInt64)
  | string (value : Bytes)
  | binary (value : Bytes)
  | object (members : List (Int16 × Value))
  | list (elems : List Value)
  | set (elems : List Value)
  | map (entries : List (Value × Value))

/-- `Object`: its members by field id. -/
abbrev Object := List (Int16 × Value)

namespace Value

/-! ## The canonical order of values -/

/-- Eight bytes of a number, as one code word. -/
def codeInt (n : Int) : List Nat := [(n + 2 ^ 63).toNat]

mutual

def code : Value → List Nat
  | .empty => [0]
  | .bool b => [1, b.toNat]
  | .byte n => 2 :: codeInt n.toInt
  | .i16 n => 3 :: codeInt n.toInt
  | .i32 n => 4 :: codeInt n.toInt
  | .i64 n => 5 :: codeInt n.toInt
  | .float n => [6, n.toNat]
  | .double n => [7, n.toNat]
  | .string s => 8 :: Bytes.code s
  | .binary s => 9 :: Bytes.code s
  | .object ms => 10 :: codeMembers ms
  | .list vs => 11 :: codeElems vs
  | .set vs => 12 :: codeElems vs
  | .map es => 13 :: codeEntries es

def codeMembers : List (Int16 × Value) → List Nat
  | [] => [0]
  | (id, v) :: ms => 1 :: (codeInt id.toInt ++ (v.code ++ codeMembers ms))

def codeElems : List Value → List Nat
  | [] => [0]
  | v :: vs => 1 :: (v.code ++ codeElems vs)

def codeEntries : List (Value × Value) → List Nat
  | [] => [0]
  | (k, v) :: es => 1 :: (k.code ++ (v.code ++ codeEntries es))

end

theorem codeInt_splits {a b : Int} {s t : List Nat} (la : -2 ^ 63 ≤ a) (lb : -2 ^ 63 ≤ b)
    (same : codeInt a ++ s = codeInt b ++ t) : a = b ∧ s = t := by
  simp only [codeInt, List.cons_append, List.nil_append, List.cons.injEq] at same
  obtain ⟨head, tail⟩ := same
  exact ⟨by omega, tail⟩

theorem int8_ge (n : Int8) : -2 ^ 63 ≤ n.toInt := by
  have := n.minValue_le_toInt
  simp only [Int8.toInt_minValue] at this
  omega

theorem int16_ge (n : Int16) : -2 ^ 63 ≤ n.toInt := by
  have := n.minValue_le_toInt
  simp only [Int16.toInt_minValue] at this
  omega

theorem int32_ge (n : Int32) : -2 ^ 63 ≤ n.toInt := by
  have := n.minValue_le_toInt
  simp only [Int32.toInt_minValue] at this
  omega

theorem int64_ge (n : Int64) : -2 ^ 63 ≤ n.toInt := by
  have := n.minValue_le_toInt
  simp only [Int64.toInt_minValue] at this
  omega

mutual

theorem code_splits (a b : Value) (s t : List Nat) (same : a.code ++ s = b.code ++ t) :
    a = b ∧ s = t := by
  cases a with
  | empty =>
    cases b <;> simp [code] at same
    exact ⟨rfl, same⟩
  | bool x =>
    cases b <;> simp [code] at same
    rename_i y
    have value : x = y := by cases x <;> cases y <;> simp_all
    exact ⟨congrArg bool value, same.2⟩
  | byte x =>
    cases b <;> simp [code] at same
    obtain ⟨value, rest⟩ := codeInt_splits (int8_ge _) (int8_ge _) same
    exact ⟨congrArg byte (Int8.toInt_inj.mp value), rest⟩
  | i16 x =>
    cases b <;> simp [code] at same
    obtain ⟨value, rest⟩ := codeInt_splits (int16_ge _) (int16_ge _) same
    exact ⟨congrArg i16 (Int16.toInt_inj.mp value), rest⟩
  | i32 x =>
    cases b <;> simp [code] at same
    obtain ⟨value, rest⟩ := codeInt_splits (int32_ge _) (int32_ge _) same
    exact ⟨congrArg i32 (Int32.toInt_inj.mp value), rest⟩
  | i64 x =>
    cases b <;> simp [code] at same
    obtain ⟨value, rest⟩ := codeInt_splits (int64_ge _) (int64_ge _) same
    exact ⟨congrArg i64 (Int64.toInt_inj.mp value), rest⟩
  | float x =>
    cases b <;> simp [code] at same
    exact ⟨congrArg float (UInt32.toNat_inj.mp same.1), same.2⟩
  | double x =>
    cases b <;> simp [code] at same
    exact ⟨congrArg double (UInt64.toNat_inj.mp same.1), same.2⟩
  | string x =>
    cases b <;> simp [code] at same
    obtain ⟨value, rest⟩ := Bytes.code_prefixFree _ _ _ _ same
    exact ⟨congrArg string value, rest⟩
  | binary x =>
    cases b <;> simp [code] at same
    obtain ⟨value, rest⟩ := Bytes.code_prefixFree _ _ _ _ same
    exact ⟨congrArg binary value, rest⟩
  | object x =>
    cases b <;> simp [code] at same
    obtain ⟨value, rest⟩ := codeMembers_splits x _ s t same
    exact ⟨congrArg object value, rest⟩
  | list x =>
    cases b <;> simp [code] at same
    obtain ⟨value, rest⟩ := codeElems_splits x _ s t same
    exact ⟨congrArg list value, rest⟩
  | set x =>
    cases b <;> simp [code] at same
    obtain ⟨value, rest⟩ := codeElems_splits x _ s t same
    exact ⟨congrArg set value, rest⟩
  | map x =>
    cases b <;> simp [code] at same
    obtain ⟨value, rest⟩ := codeEntries_splits x _ s t same
    exact ⟨congrArg map value, rest⟩
termination_by structural a

theorem codeMembers_splits (a b : List (Int16 × Value)) (s t : List Nat)
    (same : codeMembers a ++ s = codeMembers b ++ t) : a = b ∧ s = t := by
  cases a with
  | nil =>
    cases b with
    | nil => exact ⟨rfl, by simpa [codeMembers] using same⟩
    | cons e es => simp [codeMembers] at same
  | cons e es =>
    obtain ⟨id, v⟩ := e
    cases b with
    | nil => simp [codeMembers] at same
    | cons e' es' =>
      obtain ⟨id', v'⟩ := e'
      simp only [codeMembers, List.cons_append, List.cons.injEq, true_and,
        List.append_assoc] at same
      obtain ⟨ids, rest⟩ := codeInt_splits (int16_ge _) (int16_ge _) same
      obtain ⟨rfl, tail⟩ := code_splits v v' _ _ rest
      obtain ⟨rfl, final⟩ := codeMembers_splits es es' s t tail
      exact ⟨by rw [Int16.toInt_inj.mp ids], final⟩
termination_by structural a

theorem codeElems_splits (a b : List Value) (s t : List Nat)
    (same : codeElems a ++ s = codeElems b ++ t) : a = b ∧ s = t := by
  cases a with
  | nil =>
    cases b with
    | nil => exact ⟨rfl, by simpa [codeElems] using same⟩
    | cons e es => simp [codeElems] at same
  | cons v vs =>
    cases b with
    | nil => simp [codeElems] at same
    | cons v' vs' =>
      simp only [codeElems, List.cons_append, List.cons.injEq, true_and, List.append_assoc] at same
      obtain ⟨rfl, rest⟩ := code_splits v v' _ _ same
      obtain ⟨rfl, final⟩ := codeElems_splits vs vs' s t rest
      exact ⟨rfl, final⟩
termination_by structural a

theorem codeEntries_splits (a b : List (Value × Value)) (s t : List Nat)
    (same : codeEntries a ++ s = codeEntries b ++ t) : a = b ∧ s = t := by
  cases a with
  | nil =>
    cases b with
    | nil => exact ⟨rfl, by simpa [codeEntries] using same⟩
    | cons e es => simp [codeEntries] at same
  | cons e es =>
    obtain ⟨k, v⟩ := e
    cases b with
    | nil => simp [codeEntries] at same
    | cons e' es' =>
      obtain ⟨k', v'⟩ := e'
      simp only [codeEntries, List.cons_append, List.cons.injEq, true_and,
        List.append_assoc] at same
      obtain ⟨rfl, rest⟩ := code_splits k k' _ _ same
      obtain ⟨rfl, tail⟩ := code_splits v v' _ _ rest
      obtain ⟨rfl, final⟩ := codeEntries_splits es es' s t tail
      exact ⟨rfl, final⟩
termination_by structural a

end

instance : Keyed Value where
  code := code
  code_injective := PrefixFree.injective code_splits

instance : LawfulBEq Value := inferInstance

/-! ## Well-formed values -/

mutual

/-- Every container is in canonical order: field ids, elements and keys are distinct. -/
def Wf : Value → Prop
  | .object ms => SortedMap.Sorted ms ∧ WfMembers ms
  | .list vs => WfElems vs
  | .set vs => SortedSet.Sorted vs ∧ WfElems vs
  | .map es => SortedMap.Sorted es ∧ WfEntries es
  | _ => True

def WfMembers : List (Int16 × Value) → Prop
  | [] => True
  | (_, v) :: ms => v.Wf ∧ WfMembers ms

def WfElems : List Value → Prop
  | [] => True
  | v :: vs => v.Wf ∧ WfElems vs

def WfEntries : List (Value × Value) → Prop
  | [] => True
  | (k, v) :: es => k.Wf ∧ v.Wf ∧ WfEntries es

end

end Value

end FbThrift
