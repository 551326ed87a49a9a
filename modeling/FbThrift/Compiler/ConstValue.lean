import FbThrift.Lib.ComparedKeys
import FbThrift.Lib.PrefixCode

/-!
# Duplicate keys of constants

The constants of a program, their comparisons, and the search for duplicate keys in the literal of
a map or of a set.  A floating point constant is a member of a linear order: the numbers without
NaN, of which the two zeros are one.  The comparison is a strict total order whose equality is
equality of the spellings, so a search reports the keys that are spelled like an earlier key.
-/

namespace FbThrift

/-- What a constant was parsed as, in the order of the kinds. -/
inductive ConstValueKind where
  | bool
  | integer
  | double
  | string
  | map
  | list
  | identifier
  deriving DecidableEq

def ConstValueKind.index : ConstValueKind → Nat
  | .bool => 0
  | .integer => 1
  | .double => 2
  | .string => 3
  | .map => 4
  | .list => 5
  | .identifier => 6

/-- Something parsed that can be a map, a set, a list, a struct or whatever. -/
inductive ConstValue (D : Type) where
  | bool (value : Bool)
  | integer (value : Int)
  | double (value : D)
  | string (value : Bytes)
  | map (entries : List (ConstValue D × ConstValue D))
  | list (elements : List (ConstValue D))
  | identifier (name : Bytes)

namespace ConstValue

variable {D : Type}

def kind : ConstValue D → ConstValueKind
  | .bool _ => .bool
  | .integer _ => .integer
  | .double _ => .double
  | .string _ => .string
  | .map _ => .map
  | .list _ => .list
  | .identifier _ => .identifier

theorem inductNested {motive : ConstValue D → Prop}
    (bool : ∀ value, motive (.bool value)) (integer : ∀ value, motive (.integer value))
    (double : ∀ value, motive (.double value)) (string : ∀ value, motive (.string value))
    (map : ∀ entries, (∀ e ∈ entries, motive e.1 ∧ motive e.2) → motive (.map entries))
    (list : ∀ elements, (∀ e ∈ elements, motive e) → motive (.list elements))
    (identifier : ∀ name, motive (.identifier name)) (a : ConstValue D) : motive a :=
  @ConstValue.rec D motive (fun entries => ∀ e ∈ entries, motive e.1 ∧ motive e.2)
    (fun elements => ∀ e ∈ elements, motive e) (fun e => motive e.1 ∧ motive e.2)
    bool integer double string map list identifier
    (List.forall_mem_nil _) (fun _ _ first rest => List.forall_mem_cons.mpr ⟨first, rest⟩)
    (List.forall_mem_nil _) (fun _ _ first rest => List.forall_mem_cons.mpr ⟨first, rest⟩)
    (fun _ _ first second => ⟨first, second⟩) a

/-! ## Comparisons -/

/-- Strings are compared by their bytes. -/
def ltString (a b : Bytes) : Bool := a.map UInt8.toNat < b.map UInt8.toNat

section Comparisons

variable [LinearOrder D]

mutual

def equalValue : ConstValue D → ConstValue D → Bool
  | .bool a, .bool b => a == b
  | .integer a, .integer b => a == b
  | .double a, .double b => a == b
  | .string a, .string b => a == b
  | .map a, .map b => equalEntries a b
  | .list a, .list b => equalElements a b
  | .identifier a, .identifier b => a == b
  | _, _ => false
termination_by structural a => a

/-- Of two maps: as many entries, and the same entry at each place. -/
def equalEntries : List (ConstValue D × ConstValue D) → List (ConstValue D × ConstValue D) → Bool
  | [], [] => true
  | a :: as, b :: bs => (equalValue a.1 b.1 && equalValue a.2 b.2) && equalEntries as bs
  | _, _ => false
termination_by structural as => as

/-- Of two lists: as many elements, and the same element at each place. -/
def equalElements : List (ConstValue D) → List (ConstValue D) → Bool
  | [], [] => true
  | a :: as, b :: bs => equalValue a b && equalElements as bs
  | _, _ => false
termination_by structural as => as

end

mutual

def ltValue (a b : ConstValue D) : Bool :=
  if a.kind = b.kind then
    match a, b with
    | .bool a, .bool b => !a && b
    | .integer a, .integer b => a < b
    | .double a, .double b => a < b
    | .string a, .string b => ltString a b
    | .map a, .map b => if a.length ≠ b.length then a.length < b.length else ltEntries a b
    | .list a, .list b => if a.length ≠ b.length then a.length < b.length else ltElements a b
    | .identifier a, .identifier b => ltString a b
    | _, _ => false
  else a.kind.index < b.kind.index
termination_by structural a

/-- The entries that differ first decide, by their keys unless these are equal. -/
def ltEntries : List (ConstValue D × ConstValue D) → List (ConstValue D × ConstValue D) → Bool
  | a :: as, b :: bs =>
    if equalValue a.1 b.1 && equalValue a.2 b.2 then ltEntries as bs
    else if equalValue a.1 b.1 then ltValue a.2 b.2
    else ltValue a.1 b.1
  | _, _ => false
termination_by structural as => as

/-- The elements that differ first decide. -/
def ltElements : List (ConstValue D) → List (ConstValue D) → Bool
  | a :: as, b :: bs => if equalValue a b then ltElements as bs else ltValue a b
  | _, _ => false
termination_by structural as => as

end

variable {as bs : List (ConstValue D)} {a b : ConstValue D}

theorem equalElements_iff (equal : ∀ a ∈ as, ∀ {b}, equalValue a b = true ↔ a = b) :
    equalElements as bs = true ↔ as = bs := by
  induction as generalizing bs with
  | nil =>
    cases bs with
    | nil => exact iff_of_true rfl rfl
    | cons b bs => exact iff_of_false Bool.false_ne_true nofun
  | cons a as ih =>
    cases bs with
    | nil => exact iff_of_false Bool.false_ne_true nofun
    | cons b bs =>
      obtain ⟨first, rest⟩ := List.forall_mem_cons.mp equal
      exact Bool.and_eq_true_iff.trans ((and_congr first (ih rest)).trans List.cons_eq_cons.symm)

theorem equalEntries_iff {as : List (ConstValue D × ConstValue D)}
    (equal : ∀ a ∈ as, (∀ {b}, equalValue a.1 b = true ↔ a.1 = b) ∧
      ∀ {b}, equalValue a.2 b = true ↔ a.2 = b)
    {bs : List (ConstValue D × ConstValue D)} : equalEntries as bs = true ↔ as = bs := by
  induction as generalizing bs with
  | nil =>
    cases bs with
    | nil => exact iff_of_true rfl rfl
    | cons b bs => exact iff_of_false Bool.false_ne_true nofun
  | cons a as ih =>
    cases bs with
    | nil => exact iff_of_false Bool.false_ne_true nofun
    | cons b bs =>
      obtain ⟨first, rest⟩ := List.forall_mem_cons.mp equal
      have entry : (equalValue a.1 b.1 && equalValue a.2 b.2) = true ↔ a = b :=
        Bool.and_eq_true_iff.trans ((and_congr first.1 first.2).trans Prod.ext_iff.symm)
      exact Bool.and_eq_true_iff.trans ((and_congr entry (ih rest)).trans List.cons_eq_cons.symm)

/-- Equal constants are constants with one spelling. -/
theorem equalValue_iff : equalValue a b = true ↔ a = b := by
  induction a using inductNested generalizing b with
  | map as ih =>
    cases b with
    | map bs =>
      rw [map.injEq]
      exact equalEntries_iff fun a member => ⟨(ih a member).1, (ih a member).2⟩
    | _ => exact iff_of_false Bool.false_ne_true nofun
  | list as ih =>
    cases b with
    | list bs =>
      rw [list.injEq]
      exact equalElements_iff ih
    | _ => exact iff_of_false Bool.false_ne_true nofun
  | bool a =>
    cases b with
    | bool b => exact beq_iff_eq.trans (iff_of_eq (bool.injEq a b).symm)
    | _ => exact iff_of_false Bool.false_ne_true nofun
  | integer a =>
    cases b with
    | integer b => exact beq_iff_eq.trans (iff_of_eq (integer.injEq a b).symm)
    | _ => exact iff_of_false Bool.false_ne_true nofun
  | double a =>
    cases b with
    | double b => exact beq_iff_eq.trans (iff_of_eq (double.injEq a b).symm)
    | _ => exact iff_of_false Bool.false_ne_true nofun
  | string a =>
    cases b with
    | string b => exact beq_iff_eq.trans (iff_of_eq (string.injEq a b).symm)
    | _ => exact iff_of_false Bool.false_ne_true nofun
  | identifier a =>
    cases b with
    | identifier b => exact beq_iff_eq.trans (iff_of_eq (identifier.injEq a b).symm)
    | _ => exact iff_of_false Bool.false_ne_true nofun

instance : DecidableEq (ConstValue D) := fun _ _ => decidable_of_iff _ equalValue_iff

/-! ## The comparison is an order -/

theorem strictTotal_ltString : StrictTotal fun a b : Bytes => ltString a b = true := by
  have injective : Function.Injective (List.map UInt8.toNat) :=
    List.map_injective_iff.mpr fun _ _ same => UInt8.toNat_inj.mp same
  exact strictTotal_lt.of_injective injective fun a b => decide_eq_true_iff

abbrev Less (a b : ConstValue D) : Prop := ltValue a b = true

theorem ltElements_iff : ltElements as bs = true ↔ FirstDifference Less as bs := by
  induction as generalizing bs with
  | nil => exact iff_of_false Bool.false_ne_true id
  | cons a as ih =>
    cases bs with
    | nil => exact iff_of_false Bool.false_ne_true id
    | cons b bs =>
      have here : ltElements (a :: as) (b :: bs) =
          if equalValue a b then ltElements as bs else ltValue a b := rfl
      rw [here, FirstDifference]
      by_cases same : a = b
      · rw [if_pos (equalValue_iff.mpr same), ih]
        simp [same]
      · rw [if_neg fun equal => same (equalValue_iff.mp equal)]
        simp [same]

theorem ltEntries_iff {as bs : List (ConstValue D × ConstValue D)} :
    ltEntries as bs = true ↔ FirstDifference (Paired Less Less) as bs := by
  induction as generalizing bs with
  | nil => exact iff_of_false Bool.false_ne_true id
  | cons a as ih =>
    cases bs with
    | nil => exact iff_of_false Bool.false_ne_true id
    | cons b bs =>
      have here : ltEntries (a :: as) (b :: bs) =
          if equalValue a.1 b.1 && equalValue a.2 b.2 then ltEntries as bs
          else if equalValue a.1 b.1 then ltValue a.2 b.2 else ltValue a.1 b.1 := rfl
      rw [here, FirstDifference]
      simp only [Bool.and_eq_true, equalValue_iff, ← Prod.ext_iff]
      by_cases same : a = b
      · rw [if_pos same, ih]
        simp [same]
      · rw [if_neg same]
        by_cases key : a.1 = b.1 <;> simp [same, key, Paired]

theorem less_map_iff {as bs : List (ConstValue D × ConstValue D)} :
    Less (.map as) (.map bs) ↔ BySize (Paired Less Less) as bs := by
  have here : ltValue (.map as) (.map bs) =
      if as.length ≠ bs.length then decide (as.length < bs.length) else ltEntries as bs := rfl
  rw [Less, here, BySize, ← ltEntries_iff]
  by_cases size : as.length = bs.length <;> simp [size]

theorem less_list_iff : Less (.list as) (.list bs) ↔ BySize Less as bs := by
  have here : ltValue (.list as) (.list bs) =
      if as.length ≠ bs.length then decide (as.length < bs.length) else ltElements as bs := rfl
  rw [Less, here, BySize, ← ltElements_iff]
  by_cases size : as.length = bs.length <;> simp [size]

theorem ltValue_of_kind_ne (differ : a.kind ≠ b.kind) :
    ltValue a b = decide (a.kind.index < b.kind.index) := by
  rw [ltValue.eq_def, if_neg differ]

theorem less_of_index_lt (lower : a.kind.index < b.kind.index) : Less a b := by
  rw [Less, ltValue_of_kind_ne fun same => lower.ne (congrArg _ same)]
  exact decide_eq_true lower

theorem index_le_of_less (less : Less a b) : a.kind.index ≤ b.kind.index := by
  by_cases same : a.kind = b.kind
  · exact (congrArg _ same).le
  · rw [Less, ltValue_of_kind_ne same] at less
    exact (of_decide_eq_true less).le

/-- A constant is ordered when what it consists of is ordered among what constants of its kind
consist of. -/
theorem orderedAt_of_kind {β : Type} {lt : β → β → Prop} {f : β → ConstValue D} {x : β}
    (onto : ∀ b, (f x).kind.index = b.kind.index → ∃ y, f y = b)
    (same : ∀ y z, Less (f y) (f z) ↔ lt y z) (ordered : OrderedAt lt x) : OrderedAt Less (f x) :=
  OrderedAt.of_rank (fun _ _ => less_of_index_lt) (fun _ _ => index_le_of_less) onto same ordered

theorem strictTotal_ltValue : StrictTotal (Less : ConstValue D → ConstValue D → Prop) := by
  intro a
  induction a using inductNested with
  | map as ih =>
    refine orderedAt_of_kind (fun b level => ?_) (fun _ _ => less_map_iff)
      (.bySize fun e member => .paired (ih e member).1 (ih e member).2)
    cases b with
    | map bs => exact ⟨bs, rfl⟩
    | _ => cases level
  | list as ih =>
    refine orderedAt_of_kind (fun b level => ?_) (fun _ _ => less_list_iff) (.bySize ih)
    cases b with
    | list bs => exact ⟨bs, rfl⟩
    | _ => cases level
  | bool a =>
    refine orderedAt_of_kind (fun b level => ?_) (fun y z => ?_) (strictTotal_lt a)
    · cases b with
      | bool b => exact ⟨b, rfl⟩
      | _ => cases level
    · have here : ltValue (.bool y : ConstValue D) (.bool z) = (!y && z) := rfl
      rw [Less, here, Bool.lt_iff]
      simp
  | integer a =>
    refine orderedAt_of_kind (fun b level => ?_) (fun _ _ => decide_eq_true_iff) (strictTotal_lt a)
    cases b with
    | integer b => exact ⟨b, rfl⟩
    | _ => cases level
  | double a =>
    refine orderedAt_of_kind (fun b level => ?_) (fun _ _ => decide_eq_true_iff) (strictTotal_lt a)
    cases b with
    | double b => exact ⟨b, rfl⟩
    | _ => cases level
  | string a =>
    refine orderedAt_of_kind (fun b level => ?_) (fun _ _ => Iff.rfl) (strictTotal_ltString a)
    cases b with
    | string b => exact ⟨b, rfl⟩
    | _ => cases level
  | identifier a =>
    refine orderedAt_of_kind (fun b level => ?_) (fun _ _ => Iff.rfl) (strictTotal_ltString a)
    cases b with
    | identifier b => exact ⟨b, rfl⟩
    | _ => cases level

/-! ## The search for duplicate keys -/

inductive DiagnosticLevel where
  | error
  | warning
  deriving DecidableEq

/-- The level of a duplicate key whose values conflict. -/
def kMismatchLevel : DiagnosticLevel := .error

/-- The level of a duplicate key whose values are equal, and of a duplicate key of a set. -/
def kDuplicateLevel : DiagnosticLevel := .warning

section Search

open ComparedMap

variable {V : Type} (level : V → V → DiagnosticLevel)

/-- A key that was seen is reported by its position in the literal, at the level that its value
and the stored one give; another key is stored with its value. -/
def duplicates (keys : List (ConstValue D × V)) (position : Nat) :
    List (ConstValue D × V) → List (Nat × DiagnosticLevel)
  | [] => []
  | (k, v) :: rest =>
    match find ltValue k keys with
    | some stored => (position, level v stored) :: duplicates keys (position + 1) rest
    | none => duplicates (emplace ltValue k v keys) (position + 1) rest

end Search

def findDuplicateKeysInMap (mapKvs : List (ConstValue D × ConstValue D)) :
    List (Nat × DiagnosticLevel) :=
  duplicates (fun value stored => if equalValue value stored then kDuplicateLevel else kMismatchLevel)
    [] 0 mapKvs

def findDuplicateKeysInSet (setKeys : List (ConstValue D)) : List (Nat × DiagnosticLevel) :=
  duplicates (fun _ _ => kDuplicateLevel) [] 0 (setKeys.map fun k => (k, ()))

end Comparisons

end ConstValue

end FbThrift
