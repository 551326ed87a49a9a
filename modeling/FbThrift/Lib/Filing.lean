import Mathlib.Data.List.Count

/-!
# Items in places

There is a list for each place, and an item that has a place is once in the list of its place
and in no other.
-/

namespace FbThrift

variable {α ρ : Type} [DecidableEq α] [DecidableEq ρ] {queue queue' : ρ → List α}
  {place place' : α → Option ρ} {a : α}

/-- An item is in the list that its place names, once, and in no other. -/
def Filed (queue : ρ → List α) (place : α → Option ρ) : Prop :=
  ∀ r a, (queue r).count a = if place a = some r then 1 else 0

namespace Filed

theorem mem_iff (filed : Filed queue place) (r : ρ) : a ∈ queue r ↔ place a = some r := by
  rw [← List.count_pos_iff, filed r a]
  split <;> simp [*]

/-- Only how often an item is in a list matters. -/
theorem congr (filed : Filed queue place)
    (counts : ∀ r a, (queue' r).count a = (queue r).count a) (places : ∀ a, place' a = place a) :
    Filed queue' place' := fun r a => by
  rw [counts, filed r a, places]

/-- An item leaves its place for another, or for none. -/
theorem move (filed : Filed queue place) {next : Option ρ}
    (moved : ∀ b, place' b = if b = a then next else place b)
    (queues : ∀ r, queue' r = (if place a = some r then (queue r).erase a else queue r) ++
        if next = some r then [a] else []) :
    Filed queue' place' := by
  intro r b
  have before := filed r b
  rw [queues, moved, List.count_append]
  by_cases this : b = a
  · subst this
    by_cases old : place b = some r <;> by_cases new : next = some r <;> simp_all
  · have left : (if place a = some r then (queue r).erase a else queue r).count b =
        (queue r).count b := by
      split
      · exact List.count_erase_of_ne this
      · rfl
    have joined : (if next = some r then [a] else []).count b = 0 := by
      split
      · exact List.count_eq_zero.mpr (by simpa using this)
      · rfl
    rw [left, joined, before, if_neg this]
    rfl

end Filed

end FbThrift
