import Mathlib.Order.Nat
import Mathlib.Tactic.Push
import Mathlib.Tactic.SplitIfs
import Mathlib.Logic.Function.Basic

/-!
# Linear probing

Items stand in a circle of slots.  Each has a home, and stands in a slot that one reaches from
its home over slots that are all filled, so that a walk from the home to the first free slot finds
it.  An item may be taken away when those behind it are then shifted back: a walk around the
circle looks for items that are cut off from their homes by the gap, moves each into the gap, and
goes on with the gap where it was.
-/

namespace FbThrift

namespace LinearProbing

variable {n a b c p q home gap cur stop : Nat} {homes : Nat → Option Nat}

/-- The slot behind another one. -/
def next (n p : Nat) : Nat := if p + 1 = n then 0 else p + 1

/-- How many slots one passes from one slot to another. -/
def distance (n a b : Nat) : Nat := if a ≤ b then b - a else b + n - a

theorem next_lt (inside : p < n) : next n p < n := by
  unfold next
  split <;> omega

@[simp] theorem distance_self (n a : Nat) : distance n a a = 0 := by
  unfold distance
  rw [if_pos (Nat.le_refl a), Nat.sub_self]

theorem distance_lt (insideA : a < n) (insideB : b < n) : distance n a b < n := by
  unfold distance
  split_ifs <;> omega

theorem distance_pos (insideA : a < n) (apart : a ≠ b) : 0 < distance n a b := by
  unfold distance
  split_ifs <;> omega

theorem distance_inj (insideA : a < n) (insideB : b < n) (insideC : c < n)
    (same : distance n a b = distance n a c) : b = c := by
  unfold distance at same
  split_ifs at same <;> omega

theorem distance_next (insideA : a < n) (apart : next n b ≠ a) :
    distance n a (next n b) = distance n a b + 1 := by
  unfold distance
  unfold next at *
  split_ifs at * <;> omega

/-- A slot on the way divides it. -/
theorem distance_add (insideA : a < n) (insideB : b < n) (insideC : c < n)
    (between : distance n a b ≤ distance n a c) :
    distance n a b + distance n b c = distance n a c := by
  unfold distance at *
  split_ifs at * <;> omega

theorem distance_triangle (insideA : a < n) (insideB : b < n) :
    distance n a c ≤ distance n a b + distance n b c := by
  unfold distance
  split_ifs <;> omega

/-- The circle ends where it began. -/
theorem eq_of_next_eq (insideA : a < n) (insideC : c < n)
    (closed : next n b = a) (further : distance n a b ≤ distance n a c) : c = b := by
  unfold distance at further
  unfold next at closed
  split_ifs at * <;> omega

theorem next_ne (two : 1 < n) : next n p ≠ p := by
  unfold next
  split <;> omega

theorem distance_to_next (two : 1 < n) (inside : p < n) : distance n p (next n p) = 1 := by
  rw [distance_next inside (next_ne two), distance_self]

/-- A walk comes first to the nearest of the slots at which it stops. -/
theorem exists_nearest (stops : Nat → Prop) (home : Nat) (inside : p < n) (stop : stops p) :
    ∃ q < n, stops q ∧ ∀ r < n, distance n home r < distance n home q → ¬ stops r := by
  induction far : distance n home p using Nat.strongRecOn generalizing p with
  | ind d ih =>
    by_cases nearest : ∀ r < n, distance n home r < distance n home p → ¬ stops r
    · exact ⟨p, inside, stop, nearest⟩
    · push Not at nearest
      obtain ⟨r, insideR, less, stopR⟩ := nearest
      rw [far] at less
      exact ih _ less insideR stopR rfl

/-! ## Items and their homes -/

/-- Every slot on the way from its home to an item is filled. -/
def Settled (n : Nat) (homes : Nat → Option Nat) : Prop :=
  ∀ p < n, ∀ home, homes p = some home → home < n ∧
    ∀ q < n, distance n home q < distance n home p → homes q ≠ none

/-- The gap is the only free slot on the way to an item, and the item is one that the walk has not
come to.  A free slot ahead stops the walk. -/
structure Gapped (n : Nat) (homes : Nat → Option Nat) (gap cur stop : Nat) : Prop where
  gap_lt : gap < n
  cur_lt : cur < n
  stop_lt : stop < n
  stop_free : homes stop = none
  apart : gap ≠ cur
  stop_apart : gap ≠ stop
  ahead : distance n gap cur ≤ distance n gap stop
  home_lt : ∀ p < n, ∀ home, homes p = some home → home < n
  filled : ∀ p < n, ∀ home, homes p = some home → ∀ q < n,
    distance n home q < distance n home p → homes q = none →
      q = gap ∧ distance n gap cur ≤ distance n gap p

/-- A walk from its home passes an item before it comes to a free slot. -/
theorem Settled.distance_le (settled : Settled n homes) (inside : p < n)
    (item : homes p = some home) (insideStop : stop < n) (free : homes stop = none) :
    distance n home p ≤ distance n home stop :=
  Nat.le_of_not_lt fun less => (settled p inside home item).2 stop insideStop less free

/-- An item may be put into the first free slot from its home on. -/
theorem Settled.insert (settled : Settled n homes) (insideHome : home < n)
    (before : ∀ q < n, distance n home q < distance n home p → homes q ≠ none) :
    Settled n (Function.update homes p (some home)) := by
  intro at' insideAt home' item
  have keep : ∀ q, homes q ≠ none → Function.update homes p (some home) q ≠ none := by
    intro q filled
    rw [Function.update_apply]
    split
    · exact Option.some_ne_none home
    · exact filled
  rw [Function.update_apply] at item
  split at item
  next here =>
    obtain rfl : home = home' := Option.some.inj item
    rw [here]
    exact ⟨insideHome, fun q insideQ less => keep q (before q insideQ less)⟩
  next =>
    obtain ⟨inside, way⟩ := settled at' insideAt home' item
    exact ⟨inside, fun q insideQ less => keep q (way q insideQ less)⟩

/-- An item that is taken away leaves a gap. -/
theorem Settled.remove (settled : Settled n homes) (inside : p < n) (filled : homes p ≠ none)
    (insideStop : stop < n) (free : homes stop = none) :
    Gapped n (Function.update homes p none) p (next n p) stop := by
  have apart : p ≠ stop := by
    rintro rfl
    exact filled free
  have two : 1 < n := by omega
  have kept : ∀ q home, Function.update homes p none q = some home → q ≠ p ∧
      homes q = some home := by
    intro q home item
    rw [Function.update_apply] at item
    split at item
    · cases item
    · exact ⟨‹_›, item⟩
  refine
    { gap_lt := inside
      cur_lt := next_lt inside
      stop_lt := insideStop
      stop_free := (Function.update_of_ne apart.symm none homes).trans free
      apart := (next_ne two).symm
      stop_apart := apart
      ahead := ?_
      home_lt := fun q insideQ home item => (settled q insideQ home (kept q home item).2).1
      filled := ?_ }
  · rw [distance_to_next two inside]
    exact distance_pos inside apart
  · intro at' insideAt home item q insideQ less freeQ
    obtain ⟨other, item⟩ := kept at' home item
    have way := (settled at' insideAt home item).2 q insideQ less
    rw [Function.update_apply] at freeQ
    split at freeQ
    next here =>
      rw [distance_to_next two inside]
      exact ⟨here, distance_pos inside other.symm⟩
    next => exact absurd freeQ way

namespace Gapped

variable (gapped : Gapped n homes gap cur stop)

include gapped

theorem cur_ne_stop (here : homes cur = some home) : cur ≠ stop := by
  rintro rfl
  rw [gapped.stop_free] at here
  cases here

theorem next_ne_gap (here : homes cur = some home) : next n cur ≠ gap := fun closed =>
  gapped.cur_ne_stop here (eq_of_next_eq gapped.gap_lt gapped.stop_lt closed gapped.ahead).symm

/-- A slot that is no nearer than one with an item that the walk has come to is further. -/
theorem distance_next_le (here : homes cur = some home) (inside : p < n) (other : cur ≠ p)
    (further : distance n gap cur ≤ distance n gap p) :
    distance n gap (next n cur) ≤ distance n gap p := by
  rw [distance_next gapped.gap_lt (gapped.next_ne_gap here)]
  exact lt_of_le_of_ne further fun same =>
    other (distance_inj gapped.gap_lt gapped.cur_lt inside same)

/-- Each turn takes the walk nearer to where it stops. -/
theorem distance_lt_of_next (here : homes cur = some home) :
    distance n (next n cur) stop < distance n cur stop := by
  have two : 1 < n := by
    have := gapped.gap_lt
    have := gapped.cur_lt
    have := gapped.apart
    omega
  have passed := distance_add gapped.cur_lt (next_lt gapped.cur_lt) gapped.stop_lt (by
      rw [distance_to_next two gapped.cur_lt]
      exact distance_pos gapped.cur_lt (gapped.cur_ne_stop here))
  rw [distance_to_next two gapped.cur_lt] at passed
  omega

/-- The walk passes an item that is not cut off from its home. -/
theorem skip (here : homes cur = some home) (near : distance n home cur ≤ distance n home gap) :
    Gapped n homes gap (next n cur) stop :=
  { gapped with
    cur_lt := next_lt gapped.cur_lt
    apart := (gapped.next_ne_gap here).symm
    ahead := gapped.distance_next_le here gapped.stop_lt (gapped.cur_ne_stop here) gapped.ahead
    filled := by
      intro p insideP home' item q insideQ less free
      obtain ⟨isGap, further⟩ := gapped.filled p insideP home' item q insideQ less free
      refine ⟨isGap, gapped.distance_next_le here insideP ?_ further⟩
      rintro rfl
      rw [here] at item
      obtain rfl := Option.some.inj item
      rw [isGap] at less
      omega }

/-- The walk moves an item that is cut off from its home into the gap. -/
theorem shift (here : homes cur = some home) (far : distance n home gap < distance n home cur) :
    Gapped n (Function.update (Function.update homes gap (some home)) cur none) cur (next n cur)
      stop := by
  have two : 1 < n := by
    have := gapped.gap_lt
    have := gapped.cur_lt
    have := gapped.apart
    omega
  have insideHome := gapped.home_lt cur gapped.cur_lt home here
  have cases' : ∀ p home',
      Function.update (Function.update homes gap (some home)) cur none p = some home' →
        p ≠ cur ∧ (p = gap ∧ home' = home ∨ p ≠ gap ∧ homes p = some home') := by
    intro p home' item
    rw [Function.update_apply, Function.update_apply] at item
    split_ifs at item with isCur isGap
    · exact ⟨isCur, .inl ⟨isGap, (Option.some.inj item).symm⟩⟩
    · exact ⟨isCur, .inr ⟨isGap, item⟩⟩
  refine
    { gap_lt := gapped.cur_lt
      cur_lt := next_lt gapped.cur_lt
      stop_lt := gapped.stop_lt
      stop_free := ?_
      apart := (next_ne two).symm
      stop_apart := gapped.cur_ne_stop here
      ahead := ?_
      home_lt := ?_
      filled := ?_ }
  · rw [Function.update_of_ne (gapped.cur_ne_stop here).symm,
      Function.update_of_ne gapped.stop_apart.symm]
    exact gapped.stop_free
  · rw [distance_to_next two gapped.cur_lt]
    exact distance_pos gapped.cur_lt (gapped.cur_ne_stop here)
  · intro p insideP home' item
    rcases (cases' p home' item).2 with ⟨-, rfl⟩ | ⟨-, item⟩
    · exact insideHome
    · exact gapped.home_lt p insideP home' item
  · intro p insideP home' item q insideQ less free
    obtain ⟨otherCur, placed⟩ := cases' p home' item
    rw [distance_to_next two gapped.cur_lt]
    refine ⟨?_, distance_pos gapped.cur_lt otherCur.symm⟩
    by_contra notCur
    rw [Function.update_of_ne notCur, Function.update_apply] at free
    split at free
    · cases free
    next notGap =>
      rcases placed with ⟨rfl, rfl⟩ | ⟨-, item⟩
      · exact notGap (gapped.filled cur gapped.cur_lt _ here q insideQ (less.trans far) free).1
      · exact notGap (gapped.filled p insideP home' item q insideQ less free).1

/-- Where the walk comes to a free slot, no item is cut off any more. -/
theorem settled (free : homes cur = none) : Settled n homes := by
  intro p insideP home item
  refine ⟨gapped.home_lt p insideP home item, fun q insideQ less freeQ => ?_⟩
  obtain ⟨rfl, further⟩ := gapped.filled p insideP home item q insideQ less freeQ
  have insideHome := gapped.home_lt p insideP home item
  have other : cur ≠ p := by
    rintro rfl
    rw [free] at item
    cases item
  have nearer : distance n q cur < distance n q p := lt_of_le_of_ne further fun same =>
    other (distance_inj gapped.gap_lt gapped.cur_lt insideP same)
  have whole := distance_add insideHome gapped.gap_lt insideP less.le
  have onTheWay : distance n home cur < distance n home p := by
    have := distance_triangle insideHome gapped.gap_lt (c := cur)
    omega
  exact gapped.apart (gapped.filled p insideP home item cur gapped.cur_lt onTheWay free).1.symm

end Gapped

end LinearProbing

end FbThrift
