import Mathlib.Data.List.Forall2

/-!
# Streams in parcels

A stream is sent in parcels, some with a label.  Where a stream is cut does not matter to its
contents, and labels are known by the place where their parcel ends.  Tokens that are parked
with a parcel are released when the parcel is done: each of them has a bound, the place where
the parcel ends.
-/

namespace FbThrift

/-- Consecutive contents of a stream, with a label or without. -/
structure Parcel (α ι : Type) where
  contents : List α
  label : Option ι
  deriving DecidableEq, Repr

namespace Parcel

variable {α ι : Type} {parcels more : List (Parcel α ι)}

/-- The stream that the parcels make. -/
def joined (parcels : List (Parcel α ι)) : List α := parcels.flatMap contents

/-- The labels of a stream that starts at `start`, each with the place where its parcel ends. -/
def marks (start : Nat) : List (Parcel α ι) → List (ι × Nat)
  | [] => []
  | parcel :: parcels =>
    (parcel.label.map fun label => (label, start + parcel.contents.length)).toList ++
      marks (start + parcel.contents.length) parcels

/-- Marks counted from a place before them. -/
def shift (start : Nat) (marks : List (ι × Nat)) : List (ι × Nat) :=
  marks.map fun mark => (mark.1, start + mark.2)

@[simp] theorem joined_nil : joined ([] : List (Parcel α ι)) = [] := rfl

@[simp] theorem joined_cons (parcel : Parcel α ι) :
    joined (parcel :: parcels) = parcel.contents ++ joined parcels := by
  rw [joined, List.flatMap_cons]
  rfl

@[simp] theorem joined_append : joined (parcels ++ more) = joined parcels ++ joined more :=
  List.flatMap_append

@[simp] theorem marks_nil (start : Nat) : marks start ([] : List (Parcel α ι)) = [] := rfl

@[simp] theorem shift_nil (start : Nat) : shift start ([] : List (ι × Nat)) = [] := rfl

@[simp] theorem shift_append (start : Nat) (ms ns : List (ι × Nat)) :
    shift start (ms ++ ns) = shift start ms ++ shift start ns :=
  List.map_append

theorem marks_append (start : Nat) : marks start (parcels ++ more) =
      marks start parcels ++ marks (start + (joined parcels).length) more := by
  induction parcels generalizing start with
  | nil => rfl
  | cons parcel parcels ih =>
    rw [List.cons_append, marks, marks, ih, joined_cons, List.length_append, Nat.add_assoc,
      List.append_assoc]

theorem marks_add (start more : Nat) :
    marks (start + more) parcels = shift start (marks more parcels) := by
  induction parcels generalizing more with
  | nil => rfl
  | cons parcel parcels ih =>
    rw [marks, marks, shift_append, Nat.add_assoc, ih]
    cases parcel.label <;> rfl

/-! ## Tokens -/

/-- The bounds of the tokens that are parked with parcels. -/
def bounds (start : Nat) : List (Parcel α ι × Nat) → List Nat
  | [] => []
  | (parcel, tokens) :: slots =>
    List.replicate tokens (start + parcel.contents.length) ++
      bounds (start + parcel.contents.length) slots

variable {slots others : List (Parcel α ι × Nat)}

@[simp] theorem bounds_nil (start : Nat) : bounds start ([] : List (Parcel α ι × Nat)) = [] := rfl

theorem bounds_append (start : Nat) : bounds start (slots ++ others) =
      bounds start slots ++ bounds (start + (joined (slots.map Prod.fst)).length) others := by
  induction slots generalizing start with
  | nil => rfl
  | cons slot slots ih =>
    obtain ⟨parcel, tokens⟩ := slot
    rw [List.cons_append, bounds, bounds, ih, List.map_cons, joined_cons, List.length_append,
      Nat.add_assoc, List.append_assoc]

theorem bounds_last (start tokens : Nat) (parcel : Parcel α ι) (none : ∀ slot ∈ slots, slot.2 = 0) :
    bounds start (slots ++ [(parcel, tokens)]) = List.replicate tokens
        (start + (joined (slots.map Prod.fst) ++ parcel.contents).length) := by
  have empty (start : Nat) : bounds start slots = [] := by
    induction slots generalizing start with
    | nil => rfl
    | cons slot slots ih =>
      obtain ⟨first, count⟩ := slot
      have zero : count = 0 := none (first, count) List.mem_cons_self
      rw [bounds, zero, ih fun slot member => none slot (List.mem_cons_of_mem _ member)]
      rfl
  rw [bounds_append, empty, List.nil_append, bounds, bounds_nil, List.append_nil,
    List.length_append, Nat.add_assoc]

theorem bounds_concat_succ (start tokens : Nat) (parcel : Parcel α ι) :
    bounds start (slots ++ [(parcel, tokens + 1)]) = bounds start (slots ++ [(parcel, tokens)]) ++
        [start + (joined (slots.map Prod.fst) ++ parcel.contents).length] := by
  simp only [bounds_append, bounds, List.append_nil, List.replicate_succ', List.append_assoc,
    List.length_append, Nat.add_assoc]

theorem forall₂_replicate {places : List Nat} {tokens bound : Nat} :
    List.Forall₂ (· ≤ ·) places (List.replicate tokens bound) ↔
      places.length = tokens ∧ ∀ place ∈ places, place ≤ bound := by
  induction places generalizing tokens with
  | nil => cases tokens <;> simp [List.replicate_succ]
  | cons place places ih =>
    cases tokens with
    | zero => simp
    | succ tokens =>
      rw [List.replicate_succ, List.forall₂_cons, ih, List.forall_mem_cons, List.length_cons,
        Nat.add_right_cancel_iff]
      exact and_left_comm

/-- One more token, with a bound of its own. -/
theorem forall₂_concat {places bounds : List Nat} (parked : List.Forall₂ (· ≤ ·) places bounds)
    (place : Nat) : List.Forall₂ (· ≤ ·) (places ++ [place]) (bounds ++ [place]) :=
  List.rel_append parked (.cons (Nat.le_refl place) .nil)

/-- Tokens that are parked at the end stay below it when it moves on. -/
theorem forall₂_later {places first : List Nat} {tokens bound later : Nat}
    (parked : List.Forall₂ (· ≤ ·) places (first ++ List.replicate tokens bound))
    (le : bound ≤ later) :
    List.Forall₂ (· ≤ ·) places (first ++ List.replicate tokens later) := by
  have before := List.forall₂_take_append _ _ _ parked
  obtain ⟨length, below⟩ := forall₂_replicate.mp (List.forall₂_drop_append _ _ _ parked)
  have after := forall₂_replicate.mpr
    ⟨length, fun place member => Nat.le_trans (below place member) le⟩
  have all : List.Forall₂ (· ≤ ·) (places.take first.length ++ places.drop first.length)
      (first ++ List.replicate tokens later) := List.rel_append before after
  rwa [List.take_append_drop] at all

/-- The tokens of the first parcel are below its end, and the others are those of the rest. -/
theorem forall₂_bounds_cons {places : List Nat} {start tokens : Nat} {parcel : Parcel α ι}
    {more : List Nat}
    (parked : List.Forall₂ (· ≤ ·) places (bounds start ((parcel, tokens) :: slots) ++ more)) :
    tokens ≤ places.length ∧
      (∀ place ∈ places.take tokens, place ≤ start + parcel.contents.length) ∧
      List.Forall₂ (· ≤ ·) (places.drop tokens)
        (bounds (start + parcel.contents.length) slots ++ more) := by
  rw [bounds, List.append_assoc] at parked
  have first := List.forall₂_take_append _ _ _ parked
  have rest := List.forall₂_drop_append _ _ _ parked
  rw [List.length_replicate] at first rest
  obtain ⟨length, below⟩ := forall₂_replicate.mp first
  rw [List.length_take] at length
  exact ⟨by omega, below, rest⟩

end Parcel

end FbThrift
