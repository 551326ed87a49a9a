import Mathlib.Order.Nat

/-!
# Open addressing

Items stand in slots.  An item goes into the first free slot of its probe sequence, and is looked
up along the sequence of its key, up to the first free slot.  While slots are only filled, an item
stays where the lookup finds it.
-/

namespace FbThrift

namespace OpenAddressing

variable {α κ : Type} [DecidableEq κ] {key : α → κ} {slots slots' : Nat → Option α}
  {probes : Nat → Nat} {limit start : Nat} {item : α} {k : κ}

/-- The lookup of a key from a probe on. -/
def lookup (key : α → κ) (slots : Nat → Option α) (probes : Nat → Nat) (k : κ) :
    (start left : Nat) → Option α
  | _, 0 => none
  | start, left + 1 =>
    match slots (probes start) with
    | none => none
    | some item => if key item = k then some item else lookup key slots probes k (start + 1) left

/-- An item stands in a slot of a probe sequence before which no slot is free. -/
def Placed (slots : Nat → Option α) (probes : Nat → Nat) (limit : Nat) (item : α) : Prop :=
  ∃ position < limit, slots (probes position) = some item ∧
    ∀ before < position, slots (probes before) ≠ none

/-- Slots are filled and never changed. -/
def Extends (slots slots' : Nat → Option α) : Prop :=
  ∀ bucket item, slots bucket = some item → slots' bucket = some item

theorem Placed.extend (placed : Placed slots probes limit item)
    (filled : Extends slots slots') : Placed slots' probes limit item := by
  obtain ⟨position, less, here, before⟩ := placed
  refine ⟨position, less, filled _ _ here, fun earlier earlierLess free => ?_⟩
  obtain ⟨other, occupied⟩ := Option.ne_none_iff_exists'.mp (before earlier earlierLess)
  have kept := filled _ _ occupied
  rw [free] at kept
  cases kept

theorem key_of_lookup {left : Nat} (found : lookup key slots probes k start left = some item) :
    key item = k ∧ ∃ bucket, slots bucket = some item := by
  induction left generalizing start with
  | zero => cases found
  | succ left ih =>
    rw [lookup] at found
    split at found
    · cases found
    · rename_i occupied
      split at found
      · cases found
        exact ⟨‹_›, _, occupied⟩
      · exact ih found

theorem lookup_of_position {left distance : Nat}
    (here : slots (probes (start + distance)) = some item)
    (before : ∀ earlier < distance, slots (probes (start + earlier)) ≠ none)
    (unique : ∀ bucket other, slots bucket = some other → key other = key item → other = item)
    (near : distance < left) : lookup key slots probes (key item) start left = some item := by
  induction distance generalizing start left with
  | zero =>
    obtain ⟨left, rfl⟩ := Nat.exists_eq_add_of_lt near
    rw [Nat.zero_add, lookup, ← Nat.add_zero start, here]
    exact if_pos rfl
  | succ distance ih =>
    obtain ⟨left, rfl⟩ := Nat.exists_eq_succ_of_ne_zero (Nat.ne_zero_of_lt near)
    obtain ⟨other, occupied⟩ :=
      Option.ne_none_iff_exists'.mp (before 0 (Nat.succ_pos distance))
    rw [Nat.add_zero] at occupied
    rw [lookup, occupied]
    by_cases same : key other = key item
    · rw [unique _ _ occupied same]
      exact if_pos rfl
    · refine (if_neg same).trans (ih ?_ ?_ (Nat.lt_of_succ_lt_succ near))
      · rwa [Nat.add_assoc, Nat.add_comm 1 distance]
      · intro earlier less
        rw [Nat.add_assoc, Nat.add_comm 1 earlier]
        exact before (earlier + 1) (Nat.succ_lt_succ less)

theorem Placed.lookup_eq (placed : Placed slots probes limit item)
    (unique : ∀ bucket other, slots bucket = some other → key other = key item → other = item) :
    lookup key slots probes (key item) 0 limit = some item := by
  obtain ⟨position, less, here, before⟩ := placed
  refine lookup_of_position ?_ (fun earlier earlierLess => ?_) unique less
  · rwa [Nat.zero_add]
  · rw [Nat.zero_add]
    exact before earlier earlierLess

/-- A key that no item has is not found. -/
theorem lookup_eq_none {left : Nat}
    (absent : ∀ bucket other, slots bucket = some other → key other ≠ k) :
    lookup key slots probes k start left = none := by
  rw [Option.eq_none_iff_forall_ne_some]
  intro item found
  obtain ⟨same, bucket, occupied⟩ := key_of_lookup found
  exact absent bucket item occupied same

end OpenAddressing

end FbThrift
