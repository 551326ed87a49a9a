import Mathlib.Order.Nat
import Mathlib.Tactic.SplitIfs

/-!
# The order of a heap

The positions of a heap form a tree, in which the parent of a position comes before it.  A heap is
in order where no position has a lesser key than its parent.  Where the key at one position has
changed, the order comes back by swaps of that position with its parents, or with the least of
its children.
-/

namespace FbThrift

namespace HeapOrder

variable {β : Type} {parent : Nat → Nat} {n p c : Nat} {key : Nat → β}

/-- The keys after two positions are swapped. -/
def swapped (key : Nat → β) (a b i : Nat) : β :=
  if i = a then key b else if i = b then key a else key i

@[simp] theorem swapped_left (key : Nat → β) (a b : Nat) : swapped key a b a = key b := if_pos rfl

@[simp] theorem swapped_right (key : Nat → β) (a b : Nat) : swapped key a b b = key a := by
  unfold swapped
  split
  next same => rw [same]
  next => exact if_pos rfl

theorem swapped_of_ne {a b i : Nat} (left : i ≠ a) (right : i ≠ b) : swapped key a b i = key i :=
  (if_neg left).trans (if_neg right)

variable [Preorder β]

/-- No position before the `n`th has a lesser key than its parent. -/
def Ordered (parent : Nat → Nat) (n : Nat) (key : Nat → β) : Prop :=
  ∀ i < n, 0 < i → key (parent i) ≤ key i

/-- A heap is in order but for what one position is to its parent and its children. -/
structure Except (parent : Nat → Nat) (n : Nat) (key : Nat → β) (p : Nat) : Prop where
  edges : ∀ i < n, 0 < i → i ≠ p → parent i ≠ p → key (parent i) ≤ key i
  around : ∀ i < n, 0 < i → parent i = p → 0 < p → key (parent p) ≤ key i

/-- A heap is in order but for what one position is to its parent. -/
structure Rising (parent : Nat → Nat) (n : Nat) (key : Nat → β) (p : Nat) : Prop where
  edges : ∀ i < n, 0 < i → i ≠ p → key (parent i) ≤ key i
  around : ∀ i < n, 0 < i → parent i = p → 0 < p → key (parent p) ≤ key i

/-- A heap is in order but for what one position is to its children. -/
structure Sinking (parent : Nat → Nat) (n : Nat) (key : Nat → β) (p : Nat) : Prop where
  edges : ∀ i < n, 0 < i → parent i ≠ p → key (parent i) ≤ key i
  around : ∀ i < n, 0 < i → parent i = p → 0 < p → key (parent p) ≤ key i

theorem Ordered.root_le (ordered : Ordered parent n key) (before : ∀ i, 0 < i → parent i < i)
    {i : Nat} (inside : i < n) : key 0 ≤ key i := by
  induction i using Nat.strongRecOn with
  | ind i ih =>
    rcases Nat.eq_zero_or_pos i with rfl | positive
    · exact le_refl _
    · have up := before i positive
      exact (ih _ up (up.trans inside)).trans (ordered i inside positive)

/-- What holds of a heap in order when the key of one position changes. -/
theorem Ordered.except {key' : Nat → β} (ordered : Ordered parent n key)
    (before : ∀ i, 0 < i → parent i < i) (inside : p < n)
    (same : ∀ i < n, i ≠ p → key' i = key i) : Except parent n key' p where
  edges := by
    intro i insideI positive other otherParent
    rw [same i insideI other, same _ ((before i positive).trans insideI) otherParent]
    exact ordered i insideI positive
  around := by
    intro i insideI positive child root
    have up := before p root
    have down := before i positive
    rw [same i insideI (by rw [← child]; exact down.ne'), same _ (up.trans inside) up.ne]
    refine (ordered p inside root).trans ?_
    rw [← child]
    exact ordered i insideI positive

theorem Rising.ordered (rising : Rising parent n key p)
    (settled : 0 < p → key (parent p) ≤ key p) : Ordered parent n key := by
  intro i inside positive
  by_cases same : i = p
  · subst same
    exact settled positive
  · exact rising.edges i inside positive same

theorem Sinking.ordered (sinking : Sinking parent n key p)
    (settled : ∀ i < n, 0 < i → parent i = p → key p ≤ key i) : Ordered parent n key := by
  intro i inside positive
  by_cases same : parent i = p
  · rw [same]
    exact settled i inside positive same
  · exact sinking.edges i inside positive same

theorem Rising.except (rising : Rising parent n key p) : Except parent n key p where
  edges i inside positive other _ := rising.edges i inside positive other
  around := rising.around

theorem Except.sinking (except : Except parent n key p)
    (settled : 0 < p → key (parent p) ≤ key p) : Sinking parent n key p where
  edges := by
    intro i inside positive otherParent
    by_cases same : i = p
    · subst same
      exact settled positive
    · exact except.edges i inside positive same otherParent
  around := except.around

theorem Except.swap_parent (except : Except parent n key p) (before : ∀ i, 0 < i → parent i < i)
    (inside : p < n) (root : 0 < p) (less : key p < key (parent p)) :
    Rising parent n (swapped key p (parent p)) (parent p) := by
  have up := before p root
  constructor
  · intro i insideI positive other
    by_cases here : i = p
    · rw [here, swapped_left, swapped_right]
      exact less.le
    · rw [swapped_of_ne here other]
      by_cases sibling : parent i = parent p
      · rw [sibling, swapped_right]
        refine less.le.trans ?_
        rw [← sibling]
        exact except.edges i insideI positive here (by rw [sibling]; exact up.ne)
      · by_cases child : parent i = p
        · rw [child, swapped_left]
          exact except.around i insideI positive child root
        · rw [swapped_of_ne child sibling]
          exact except.edges i insideI positive here child
  · intro i insideI positive sibling top
    have upper := before (parent p) top
    have upperEdge : key (parent (parent p)) ≤ key (parent p) :=
      except.edges _ (up.trans inside) top up.ne (upper.trans up).ne
    rw [swapped_of_ne (upper.trans up).ne upper.ne]
    by_cases here : i = p
    · rw [here, swapped_left]
      exact upperEdge
    · have down := before i positive
      rw [sibling] at down
      rw [swapped_of_ne here down.ne']
      refine upperEdge.trans ?_
      rw [← sibling]
      exact except.edges i insideI positive here (by rw [sibling]; exact up.ne)

theorem Sinking.swap_child (sinking : Sinking parent n key p) (before : ∀ i, 0 < i → parent i < i)
    (inside : c < n) (positiveC : 0 < c) (child : parent c = p)
    (least : ∀ i < n, 0 < i → parent i = p → key c ≤ key i) (less : key c < key p) :
    Sinking parent n (swapped key p c) c := by
  have down := before c positiveC
  rw [child] at down
  constructor
  · intro i insideI positive other
    have downI := before i positive
    by_cases here : i = c
    · rw [here, child, swapped_left, swapped_right]
      exact less.le
    · by_cases top : i = p
      · subst top
        rw [swapped_left, swapped_of_ne downI.ne other]
        exact sinking.around c inside positiveC child positive
      · rw [swapped_of_ne top here]
        by_cases sibling : parent i = p
        · rw [sibling, swapped_left]
          exact least i insideI positive sibling
        · rw [swapped_of_ne sibling other]
          exact sinking.edges i insideI positive sibling
  · intro i insideI positive below root
    have downI := before i positive
    rw [below] at downI
    rw [child, swapped_left, swapped_of_ne (down.trans downI).ne' downI.ne', ← below]
    exact sinking.edges i insideI positive (by rw [below]; exact down.ne')

end HeapOrder

end FbThrift
