import FbThrift.Lib.HeapOrder
import FbThrift.FastThrift.SrptHeap

/-!
# The order of the heap of streams

Every operation leaves the heap with no entry that has a lesser key than its parent, so that the
first entry has the least key of all.
-/

namespace FbThrift.FastThrift

namespace SrptHeap

open HeapOrder

variable {α : Type} {key : α → Nat} {heap : SrptHeap α} {pos : Nat}

/-- The parent of a position. -/
def parentOf (i : Nat) : Nat := (i - 1) / kArity

theorem parentOf_lt (i : Nat) (positive : 0 < i) : parentOf i < i := by
  unfold parentOf kArity
  omega

theorem parentOf_eq_iff {i p : Nat} (positive : 0 < i) :
    parentOf i = p ↔ kArity * p + 1 ≤ i ∧ i < kArity * p + 1 + kArity := by
  unfold parentOf kArity
  omega

/-- No entry has a lesser key than its parent. -/
def InOrder (key : α → Nat) (heap : SrptHeap α) : Prop :=
  Ordered parentOf heap.size (priority key heap)

theorem getElem?_swapIfInBounds {i j : Nat} (insideI : i < heap.size) (insideJ : j < heap.size)
    (p : Nat) : (heap.swapIfInBounds i j)[p]? =
      if p = i then heap[j]? else if p = j then heap[i]? else heap[p]? := by
  rw [Array.swapIfInBounds_def, dif_pos insideI, dif_pos insideJ, Array.getElem?_swap,
    ← Array.getElem?_eq_getElem insideI, ← Array.getElem?_eq_getElem insideJ]
  by_cases right : j = p
  · subst right
    rw [if_pos rfl, if_pos rfl]
    split
    next same => rw [same]
    next => rfl
  · rw [if_neg right, if_neg (Ne.symm right)]
    by_cases left : i = p
    · rw [if_pos left, if_pos left.symm]
    · rw [if_neg left, if_neg (Ne.symm left)]

theorem priority_swap {i j : Nat} (insideI : i < heap.size) (insideJ : j < heap.size) :
    priority key (heap.swapIfInBounds i j) = swapped (priority key heap) i j := by
  funext p
  unfold swapped priority
  rw [getElem?_swapIfInBounds insideI insideJ]
  split_ifs <;> rfl

theorem siftUp_inOrder (rising : Rising parentOf heap.size (priority key heap) pos)
    (inside : pos < heap.size) : InOrder key (siftUp key heap pos).1 := by
  induction pos using Nat.strongRecOn generalizing heap with
  | ind pos ih =>
    rw [siftUp]
    split
    next positive =>
      dsimp only
      split
      next less =>
        have up := parentOf_lt pos positive
        have rises := rising.except.swap_parent parentOf_lt inside positive less
        rw [← priority_swap inside (up.trans inside)] at rises
        refine ih (parentOf pos) up ?_ ?_
        · rwa [Array.size_swapIfInBounds]
        · rw [Array.size_swapIfInBounds]
          exact up.trans inside
      next settled => exact rising.ordered fun _ => Nat.le_of_not_lt settled
    next root => exact rising.ordered fun positive => absurd positive root

theorem foldl_min {f : Nat → Nat} (cs : List Nat) (c : Nat) :
    (cs.foldl (fun min c => if f c < f min then c else min) c ∈ c :: cs) ∧
      ∀ d ∈ c :: cs, f (cs.foldl (fun min c => if f c < f min then c else min) c) ≤ f d := by
  induction cs generalizing c with
  | nil => simp
  | cons d cs ih =>
    rw [List.foldl_cons]
    split
    next less =>
      obtain ⟨member, least⟩ := ih d
      refine ⟨List.mem_cons_of_mem c member, fun e listed => ?_⟩
      rcases List.mem_cons.mp listed with rfl | listed
      · exact (least d List.mem_cons_self).trans less.le
      · exact least e listed
    next notLess =>
      obtain ⟨member, least⟩ := ih c
      constructor
      · rcases List.mem_cons.mp member with same | listed
        · rw [same]
          exact List.mem_cons_self
        · exact List.mem_cons_of_mem _ (List.mem_cons_of_mem _ listed)
      · intro e listed
        rcases List.mem_cons.mp listed with rfl | listed
        · exact least _ List.mem_cons_self
        · rcases List.mem_cons.mp listed with rfl | listed
          · exact (least c List.mem_cons_self).trans (Nat.le_of_not_lt notLess)
          · exact least e (List.mem_cons_of_mem c listed)

theorem minChild_least {first last : Nat} (some' : first < last) :
    (first ≤ minChild key heap first last ∧ minChild key heap first last < last) ∧
      ∀ c, first ≤ c → c < last →
        priority key heap (minChild key heap first last) ≤ priority key heap c := by
  have listed : ∀ c, c ∈ first :: List.range' (first + 1) (last - (first + 1)) ↔
      first ≤ c ∧ c < last := by
    intro c
    rw [List.mem_cons, List.mem_range'_1]
    omega
  obtain ⟨member, least⟩ := @foldl_min (priority key heap)
    (List.range' (first + 1) (last - (first + 1))) first
  exact ⟨(listed _).mp member, fun c above below => least c ((listed c).mpr ⟨above, below⟩)⟩

/-- An entry with a greater key than one of its children sinks until it has not. -/
theorem siftDown_inOrder (sinking : Sinking parentOf heap.size (priority key heap) pos)
    (inside : pos < heap.size) : InOrder key (siftDown key heap pos) := by
  generalize left : heap.size - pos = n
  induction n using Nat.strongRecOn generalizing heap pos with
  | ind n ih =>
    rw [siftDown]
    dsimp only
    split
    next more =>
      have children : ∀ i < heap.size, 0 < i → (parentOf i = pos ↔ kArity * pos + 1 ≤ i ∧
          i < min (kArity * pos + 1 + kArity) heap.size) := by
        intro i insideI positive
        rw [parentOf_eq_iff positive]
        omega
      obtain ⟨⟨first, last⟩, least⟩ := @minChild_least _ key heap (kArity * pos + 1)
        (min (kArity * pos + 1 + kArity) heap.size) (by unfold kArity at *; omega)
      have insideC := last.trans_le (Nat.min_le_right _ _)
      split
      next less =>
        have sinks := sinking.swap_child parentOf_lt insideC (by omega)
          ((children _ insideC (by omega)).mpr ⟨first, last⟩)
          (fun i insideI positive child =>
            have range := (children i insideI positive).mp child
            least i range.1 range.2) less
        rw [← priority_swap inside insideC] at sinks
        refine ih _ ?_ ?_ ?_ rfl
        · rw [Array.size_swapIfInBounds]
          unfold kArity at *
          omega
        · rwa [Array.size_swapIfInBounds]
        · rwa [Array.size_swapIfInBounds]
      next settled =>
        refine sinking.ordered fun i insideI positive child => ?_
        have range := (children i insideI positive).mp child
        exact (Nat.le_of_not_lt settled).trans (least i range.1 range.2)
    next none' =>
      refine sinking.ordered fun i insideI positive child => ?_
      have range := (parentOf_eq_iff positive).mp child
      omega

/-- An entry whose key has changed is moved to where it belongs. -/
theorem sift_inOrder (except : Except parentOf heap.size (priority key heap) pos)
    (inside : pos < heap.size) : InOrder key (sift key heap pos) := by
  unfold sift
  by_cases less : 0 < pos ∧ priority key heap pos < priority key heap (parentOf pos)
  · obtain ⟨positive, less⟩ := less
    have up := parentOf_lt pos positive
    have rises := except.swap_parent parentOf_lt inside positive less
    rw [← priority_swap inside (up.trans inside)] at rises
    have moved : siftUp key heap pos =
        ((siftUp key (heap.swapIfInBounds pos (parentOf pos)) (parentOf pos)).1, true) := by
      rw [siftUp, if_pos positive]
      exact if_pos less
    rw [moved]
    refine siftUp_inOrder ?_ ?_
    · rwa [Array.size_swapIfInBounds]
    · rw [Array.size_swapIfInBounds]
      exact up.trans inside
  · have stays : siftUp key heap pos = (heap, false) := by
      rw [siftUp]
      split
      next positive => exact if_neg fun lesser => less ⟨positive, lesser⟩
      next => rfl
    rw [stays]
    exact siftDown_inOrder
      (except.sinking fun positive => Nat.le_of_not_lt fun lesser => less ⟨positive, lesser⟩) inside

theorem insert_inOrder (ordered : InOrder key heap) (streamId : UInt32) (value : α) :
    InOrder key (insert key heap streamId value) := by
  have pushed : ∀ i < heap.size,
      priority key (heap.push ⟨streamId, value⟩) i = priority key heap i := by
    intro i inside
    unfold priority
    rw [Array.getElem?_push_lt inside, Array.getElem?_eq_getElem inside]
  refine siftUp_inOrder ?_ (by rw [Array.size_push]; exact Nat.lt_succ_self _)
  rw [Array.size_push]
  constructor
  · intro i inside positive other
    have insideI : i < heap.size := by omega
    rw [pushed i insideI, pushed _ ((parentOf_lt i positive).trans insideI)]
    exact ordered i insideI positive
  · intro i inside positive child
    have := parentOf_lt i positive
    omega

/-- The value at one position has changed. -/
theorem InOrder.update (ordered : InOrder key heap) {other : SrptHeap α}
    (size : other.size = heap.size) (inside : pos < heap.size)
    (same : ∀ i, i ≠ pos → other[i]? = heap[i]?) : InOrder key (sift key other pos) := by
  refine sift_inOrder ?_ (by rwa [size])
  rw [size]
  refine Ordered.except ordered parentOf_lt inside fun i insideI otherPos => ?_
  unfold priority
  rw [same i otherPos]

theorem removeAt_inOrder (ordered : InOrder key heap) (inside : pos < heap.size) :
    InOrder key (removeAt key heap pos) := by
  have popped : ∀ i < heap.size - 1, heap.pop[i]? = heap[i]? := by
    intro i insideI
    rw [Array.getElem?_pop, if_pos insideI]
  have shorter : InOrder key heap.pop := by
    intro i insideI positive
    rw [Array.size_pop] at insideI
    unfold priority
    rw [popped i insideI, popped _ ((parentOf_lt i positive).trans insideI)]
    exact ordered i (by omega) positive
  unfold removeAt
  split
  next => exact shorter
  next other =>
    refine shorter.update ?_ (by rw [Array.size_pop]; omega) fun i otherI => ?_
    · rw [Array.size_pop, Array.size_pop, Array.size_swapIfInBounds]
    · rw [Array.getElem?_pop, Array.getElem?_pop, Array.size_swapIfInBounds]
      split
      next insideI =>
        rw [getElem?_swapIfInBounds inside (by omega), if_neg otherI, if_neg (by omega)]
      next => rfl

theorem InOrder.peekMin_le (ordered : InOrder key heap) {e : Entry α}
    (first : heap.peekMin = some e) {other : Entry α} (member : other ∈ heap) : key e.value ≤ key other.value := by
  obtain ⟨i, inside, rfl⟩ := Array.mem_iff_getElem.mp member
  have least := ordered.root_le parentOf_lt inside
  unfold priority at least
  rw [show heap[0]? = some e from first, Array.getElem?_eq_getElem inside] at least
  exact least

end SrptHeap

end FbThrift.FastThrift
