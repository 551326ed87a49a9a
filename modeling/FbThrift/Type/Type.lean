import FbThrift.Lib.PrefixCode

/-!
# Runtime type names

`type::Type` wraps a `TypeStruct`: a `TypeName` with type parameters.  Named
types carry a `TypeUri`, which is either the full URI or one of the shortened
forms; only types with full URIs may key a type mask.
-/

namespace FbThrift

/-- The union `TypeUri`; `empty` is its `__EMPTY__` state. -/
inductive TypeUri where
  | empty
  | uri (name : Bytes)
  | typeHashPrefixSha2_256 (hash : Bytes)
  | scopedName (name : Bytes)
  | definitionKey (key : Bytes)
deriving DecidableEq, Repr

/-- The union `TypeName`; `empty` is its `__EMPTY__` state. -/
inductive TypeName where
  | empty
  | boolType
  | byteType
  | i16Type
  | i32Type
  | i64Type
  | floatType
  | doubleType
  | stringType
  | binaryType
  | enumType (uri : TypeUri)
  | typedefType (uri : TypeUri)
  | structType (uri : TypeUri)
  | unionType (uri : TypeUri)
  | exceptionType (uri : TypeUri)
  | listType
  | setType
  | mapType
deriving DecidableEq, Repr

/-- A type name applied to its parameters. -/
inductive TypeStruct where
  | mk (name : TypeName) (params : List TypeStruct)
deriving Repr

/-- `TypeUri` is full when it holds the complete URI. -/
def TypeUri.isFull : TypeUri → Bool
  | .uri _ => true
  | _ => false

/-- `Type::isFull(const TypeName&)`, with `validate_uri` off. -/
def TypeName.isFull : TypeName → Bool
  | .enumType uri => uri.isFull
  | .structType uri => uri.isFull
  | .unionType uri => uri.isFull
  | .exceptionType uri => uri.isFull
  | .empty => false
  | _ => true

mutual

/-- `Type::isFull(const TypeStruct&)`, with `ensure_params` and `validate_uri` off. -/
def TypeStruct.isFull : TypeStruct → Bool
  | .mk name params => TypeStruct.allFull params && name.isFull

def TypeStruct.allFull : List TypeStruct → Bool
  | [] => true
  | p :: ps => p.isFull && TypeStruct.allFull ps

end

/-- A type whose names are complete URIs, the only types that may key a type mask
(`validateTypeIsFull`). -/
def FullType : Type := { type : TypeStruct // type.isFull = true }

/-! ## The canonical order of types -/

def TypeUri.code : TypeUri → List Nat
  | .empty => [0]
  | .uri s => 1 :: Bytes.code s
  | .typeHashPrefixSha2_256 s => 2 :: Bytes.code s
  | .scopedName s => 3 :: Bytes.code s
  | .definitionKey s => 4 :: Bytes.code s

theorem TypeUri.code_prefixFree : PrefixFree TypeUri.code := by
  intro a b s t same
  cases a <;> cases b <;> simp [TypeUri.code] at same
  all_goals first
    | exact ⟨rfl, same⟩
    | (obtain ⟨bytes, rest⟩ := Bytes.code_prefixFree _ _ _ _ same
       exact ⟨by rw [bytes], rest⟩)

def TypeName.code : TypeName → List Nat
  | .empty => [0]
  | .boolType => [1]
  | .byteType => [2]
  | .i16Type => [3]
  | .i32Type => [4]
  | .i64Type => [5]
  | .floatType => [6]
  | .doubleType => [7]
  | .stringType => [8]
  | .binaryType => [9]
  | .enumType u => 10 :: u.code
  | .typedefType u => 17 :: u.code
  | .structType u => 11 :: u.code
  | .unionType u => 12 :: u.code
  | .exceptionType u => 13 :: u.code
  | .listType => [14]
  | .setType => [15]
  | .mapType => [16]

theorem TypeName.code_prefixFree : PrefixFree TypeName.code := by
  intro a b s t same
  cases a <;> cases b <;> simp [TypeName.code] at same
  all_goals first
    | exact ⟨rfl, same⟩
    | (obtain ⟨uri, rest⟩ := TypeUri.code_prefixFree _ _ _ _ same
       exact ⟨by rw [uri], rest⟩)

mutual

def TypeStruct.code : TypeStruct → List Nat
  | .mk name params => name.code ++ TypeStruct.codeParams params

def TypeStruct.codeParams : List TypeStruct → List Nat
  | [] => [0]
  | p :: ps => 1 :: (p.code ++ TypeStruct.codeParams ps)

end

mutual

theorem TypeStruct.code_splits (a b : TypeStruct) (s t : List Nat)
    (same : a.code ++ s = b.code ++ t) : a = b ∧ s = t := by
  obtain ⟨name, params⟩ := a
  obtain ⟨name', params'⟩ := b
  simp only [TypeStruct.code, List.append_assoc] at same
  obtain ⟨rfl, rest⟩ := TypeName.code_prefixFree _ _ _ _ same
  obtain ⟨rfl, tail⟩ := TypeStruct.codeParams_splits params params' s t rest
  exact ⟨rfl, tail⟩

theorem TypeStruct.codeParams_splits (a b : List TypeStruct) (s t : List Nat)
    (same : TypeStruct.codeParams a ++ s = TypeStruct.codeParams b ++ t) :
    a = b ∧ s = t := by
  cases a with
  | nil =>
    cases b with
    | nil => exact ⟨rfl, by simpa [TypeStruct.codeParams] using same⟩
    | cons q qs => simp [TypeStruct.codeParams] at same
  | cons p ps =>
    cases b with
    | nil => simp [TypeStruct.codeParams] at same
    | cons q qs =>
      simp only [TypeStruct.codeParams, List.cons_append, List.cons.injEq,
        true_and, List.append_assoc] at same
      obtain ⟨rfl, rest⟩ := TypeStruct.code_splits p q _ _ same
      obtain ⟨rfl, tail⟩ := TypeStruct.codeParams_splits ps qs s t rest
      exact ⟨rfl, tail⟩

end

instance : Keyed TypeStruct where
  code := TypeStruct.code
  code_injective := PrefixFree.injective TypeStruct.code_splits

instance : Keyed FullType where
  code type := type.val.code
  code_injective := fun _ _ same =>
    Subtype.ext (Keyed.code_injective (K := TypeStruct) same)

end FbThrift
