import Mathlib.Data.List.Count
import Mathlib.Data.List.Nodup

/-!
# Batches in one queue

Batches of items stand in one queue, and a mark on the last item of each tells them apart.  An
item can be withdrawn; when it has a mark, a dummy with the mark takes its place.  Such a queue
is given by the batches and by the items that are still live.
-/

namespace FbThrift

/-- An entry of a queue of batches: an item or a dummy, at the end of a batch or not. -/
structure Marked (α : Type) where
  item : Option α
  last : Bool
  deriving DecidableEq, Repr

namespace Marked

variable {α : Type} {live other : α → Bool} {batch : List α} {batches : List (List α)} {a : α}
  {queue rest : List (Marked α)}

/-- The end of a batch whose last item was withdrawn. -/
def dummy : Marked α := ⟨none, true⟩

/-- The entries of a batch of which some items were withdrawn. -/
def entries (live : α → Bool) : List α → List (Marked α)
  | [] => []
  | [a] => if live a then [⟨some a, true⟩] else [dummy]
  | a :: b :: batch =>
    (if live a then [⟨some a, false⟩] else []) ++ entries live (b :: batch)

/-- The items of a queue. -/
def items (queue : List (Marked α)) : List α := queue.filterMap item

/-- How many batches end in a queue. -/
def ends (queue : List (Marked α)) : Nat := queue.countP last

/-- An item is withdrawn. -/
def withdraw [DecidableEq α] (a : α) : List (Marked α) → List (Marked α)
  | [] => []
  | entry :: queue =>
    if entry.item = some a then if entry.last then dummy :: queue else queue
    else entry :: withdraw a queue

@[simp] theorem entries_nil : entries live [] = [] := rfl

theorem entries_singleton : entries live [a] = if live a then [⟨some a, true⟩] else [dummy] := rfl

theorem entries_cons_cons {b : α} : entries live (a :: b :: batch) =
      (if live a then [⟨some a, false⟩] else []) ++ entries live (b :: batch) := rfl

/-! ## Items and ends -/

@[simp] theorem items_append : items (queue ++ rest) = items queue ++ items rest :=
  List.filterMap_append

@[simp] theorem items_entries (live : α → Bool) (batch : List α) :
    items (entries live batch) = batch.filter live := by
  induction batch with
  | nil => rfl
  | cons a batch ih =>
    cases batch with
    | nil => cases alive : live a <;> simp [entries_singleton, items, dummy, alive]
    | cons b batch =>
      rw [entries_cons_cons, items_append, ih]
      cases alive : live a <;> simp [items, List.filter_cons, alive]

theorem items_batches (live : α → Bool) (batches : List (List α)) :
    items (batches.flatMap (entries live)) = batches.flatten.filter live := by
  induction batches with
  | nil => rfl
  | cons batch batches ih =>
    rw [List.flatMap_cons, items_append, items_entries, ih, List.flatten_cons, List.filter_append]

@[simp] theorem ends_append : ends (queue ++ rest) = ends queue + ends rest :=
  List.countP_append

theorem ends_entries (live : α → Bool) (nonempty : batch ≠ []) : ends (entries live batch) = 1 := by
  induction batch with
  | nil => exact absurd rfl nonempty
  | cons a batch ih =>
    cases batch with
    | nil =>
      rw [entries_singleton]
      cases live a <;> rfl
    | cons b batch =>
      rw [entries_cons_cons, ends_append, ih (List.cons_ne_nil b batch)]
      cases live a <;> rfl

theorem ends_batches (live : α → Bool) (nonempty : ∀ batch ∈ batches, batch ≠ []) :
    ends (batches.flatMap (entries live)) = batches.length := by
  induction batches with
  | nil => rfl
  | cons batch batches ih =>
    obtain ⟨first, others⟩ := List.forall_mem_cons.mp nonempty
    rw [List.flatMap_cons, ends_append, ends_entries live first, ih others,
      List.length_cons, Nat.add_comm]

/-- A live item is in front of its batch, with the mark if it is the last. -/
theorem entries_cons (alive : live a = true) (batch : List α) :
    entries live (a :: batch) = ⟨some a, batch.isEmpty⟩ :: entries live batch := by
  cases batch with
  | nil => exact if_pos alive
  | cons b batch => rw [entries_cons_cons, if_pos alive]; rfl

/-! ## Changes -/

theorem entries_congr (same : ∀ a ∈ batch, live a = other a) :
    entries live batch = entries other batch := by
  induction batch with
  | nil => rfl
  | cons a batch ih =>
    obtain ⟨first, others⟩ := List.forall_mem_cons.mp same
    cases batch with
    | nil => rw [entries_singleton, entries_singleton, first]
    | cons b batch => rw [entries_cons_cons, entries_cons_cons, ih others, first]

theorem batches_congr (same : ∀ a ∈ batches.flatten, live a = other a) :
    batches.flatMap (entries live) = batches.flatMap (entries other) := by
  induction batches with
  | nil => rfl
  | cons batch batches ih =>
    rw [List.flatten_cons, List.forall_mem_append] at same
    rw [List.flatMap_cons, List.flatMap_cons, entries_congr same.1, ih same.2]

section Withdraw

variable [DecidableEq α]

theorem items_withdraw (a : α) (queue : List (Marked α)) :
    items (withdraw a queue) = (items queue).erase a := by
  induction queue with
  | nil => rfl
  | cons entry queue ih =>
    obtain ⟨item, last⟩ := entry
    unfold items at ih
    cases item with
    | none => simp [withdraw, items, ih]
    | some b =>
      by_cases this : b = a
      · cases last <;> simp [withdraw, items, dummy, this]
      · simp [withdraw, items, ih, this]

theorem withdraw_append_of_notMem (absent : a ∉ items queue) :
    withdraw a (queue ++ rest) = queue ++ withdraw a rest := by
  induction queue with
  | nil => rfl
  | cons entry queue ih =>
    obtain ⟨item, last⟩ := entry
    have apart : item ≠ some a := by
      rintro rfl
      exact absent List.mem_cons_self
    have later : a ∉ items queue := by
      intro member
      refine absent ?_
      cases item with
      | none => exact member
      | some b => exact List.mem_cons_of_mem b member
    rw [List.cons_append, withdraw, if_neg apart, ih later, List.cons_append]

theorem withdraw_append_of_mem (member : a ∈ items queue) :
    withdraw a (queue ++ rest) = withdraw a queue ++ rest := by
  induction queue with
  | nil => exact nomatch member
  | cons entry queue ih =>
    obtain ⟨item, last⟩ := entry
    rw [List.cons_append, withdraw, withdraw]
    by_cases this : item = some a
    · rw [if_pos this, if_pos this]
      cases last <;> rfl
    · have later : a ∈ items queue := by
        cases item with
        | none => exact member
        | some b => exact (List.mem_cons.mp member).resolve_left fun eq => this (eq ▸ rfl)
      rw [if_neg this, if_neg this, ih later, List.cons_append]

theorem withdraw_entries (nodup : batch.Nodup) (member : a ∈ batch) (alive : live a) :
    withdraw a (entries live batch) = entries (fun b => live b && b != a) batch := by
  induction batch with
  | nil => exact nomatch member
  | cons b batch ih =>
    cases batch with
    | nil =>
      obtain rfl := List.mem_singleton.mp member
      simp [withdraw, entries_singleton, alive]
    | cons c batch =>
      obtain ⟨fresh, nodup⟩ := List.nodup_cons.mp nodup
      rw [entries_cons_cons, entries_cons_cons]
      rcases List.mem_cons.mp member with rfl | later
      · have same : entries live (c :: batch) =
            entries (fun b => live b && b != a) (c :: batch) := by
          refine entries_congr fun b member => ?_
          have apart : b ≠ a := fun eq => fresh (eq ▸ member)
          simp [apart]
        rw [← same]
        simp [alive, withdraw]
      · have apart : b ≠ a := fun eq => fresh (eq ▸ later)
        have absent : a ∉ items (if live b then [⟨some b, false⟩] else []) := by
          cases live b <;> simp [items, apart.symm]
        rw [withdraw_append_of_notMem absent, ih nodup later]
        simp [apart]

theorem withdraw_batches (nodup : batches.flatten.Nodup) (member : a ∈ batches.flatten)
    (alive : live a) :
    withdraw a (batches.flatMap (entries live)) =
      batches.flatMap (entries fun b => live b && b != a) := by
  induction batches with
  | nil => exact nomatch member
  | cons batch batches ih =>
    rw [List.flatten_cons] at nodup member
    obtain ⟨first, others, disjoint⟩ := List.nodup_append'.mp nodup
    rw [List.flatMap_cons, List.flatMap_cons]
    rcases List.mem_append.mp member with here | later
    · have same : batches.flatMap (entries live) =
          batches.flatMap (entries fun b => live b && b != a) := by
        refine batches_congr fun b member => ?_
        have apart : b ≠ a := fun eq => disjoint here (eq ▸ member)
        simp [apart]
      have listed : a ∈ items (entries live batch) := by
        rw [items_entries]
        exact List.mem_filter.mpr ⟨here, alive⟩
      rw [withdraw_append_of_mem listed, withdraw_entries first here alive, ← same]
    · have absent : a ∉ items (entries live batch) := by
        rw [items_entries]
        exact fun member => disjoint (List.mem_of_mem_filter member) later
      have same : entries live batch = entries (fun b => live b && b != a) batch := by
        refine entries_congr fun b member => ?_
        have apart : b ≠ a := fun eq => disjoint (eq ▸ member) later
        simp [apart]
      rw [withdraw_append_of_notMem absent, ih others later, ← same]

end Withdraw

end Marked

end FbThrift
