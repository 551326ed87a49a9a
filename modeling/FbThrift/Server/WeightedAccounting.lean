import FbThrift.Server.WeightedRequestPileQueue
import Mathlib.Algebra.Order.Group.Multiset
import Mathlib.Tactic.Abel

/-!
# The accounts of the weighted request pile queue

A thread in `accept` or in `onDequeue` has charged the counters that it has exchanged or not yet
released.  As long as no counter wraps around, each counter is the sum of what the threads have
charged, of the weights of the elements that are held, and of those that were returned with a
capacity, which nothing releases.
-/

namespace FbThrift

namespace WeightedRequestPileQueue

variable {α : Type} {n : Nat} {k j : Fin (n + 1)} {e : Element α n} {t : Thread α n}
  {sh : Shared α n} {s : State α n} {fails : Bool}

/-! ## Weights -/

@[simp] theorem weigh_nil : weigh k ([] : List (Element α n)) = 0 := rfl

@[simp] theorem weigh_cons (es : List (Element α n)) :
    weigh k (e :: es) = (e.weight k).toNat + weigh k es := List.sum_cons

@[simp] theorem weigh_append (es fs : List (Element α n)) :
    weigh k (es ++ fs) = weigh k es + weigh k fs := by
  rw [weigh, List.map_append, List.sum_append, weigh, weigh]

theorem following_cases (k : Fin (n + 1)) :
    (following k = none ∧ k.val = n) ∨ ∃ k', following k = some k' ∧ k'.val = k.val + 1 := by
  rw [following]
  split
  · exact .inr ⟨_, rfl, rfl⟩
  · exact .inl ⟨rfl, by omega⟩

theorem preceding_cases (k : Fin (n + 1)) :
    (preceding k = none ∧ k.val = 0) ∨ ∃ k', preceding k = some k' ∧ k.val = k'.val + 1 := by
  rw [preceding]
  split
  · rename_i zero
    exact .inl ⟨rfl, zero⟩
  · rename_i positive
    exact .inr ⟨_, rfl, by dsimp only; omega⟩

/-! ## The order of the elements -/

/-- The thread does not dequeue, or with the function of this flavour. -/
def Thread.Of (flavour : Flavour) : Thread α n → Prop
  | .accept _ _ | .push _ => True
  | .tryDequeue | .onDequeue _ _ => flavour = .plain
  | .lock _ | .look _ | .pop _ | .unlock _ => flavour = .withCapacity

/-- Whether a thread holds the lock. -/
def Thread.locks : Thread α n → Int
  | .look _ | .pop _ | .unlock _ => 1
  | _ => 0

def Thread.Pops : Thread α n → Prop
  | .pop _ => True
  | _ => False

/-- The element that a thread puts into the queue has weights that are not zero. -/
def Thread.Weighs : Thread α n → Prop
  | .accept e _ | .push e => ∀ k, e.weight k ≠ 0
  | _ => True

theorem locks_nonneg (t : Thread α n) : 0 ≤ t.locks := by
  cases t <;> simp [Thread.locks]

/-- What holds of a state at all times. -/
structure Ordered (flavour : Flavour) (s : State α n) : Prop where
  flavoured : ∀ t ∈ s.threads, t.Of flavour
  plain : flavour = .plain → s.shared.firstElementHolder = none
  locked : s.total Thread.locks = if s.shared.dequeueLock then 1 else 0
  empty : ∀ t ∈ s.threads, t.Pops → s.shared.firstElementHolder = none
  ordered : s.shared.entered = s.shared.left ++ s.shared.held
  accounted : s.shared.accepted.Perm (s.shared.entered ++ s.threads.flatMap Thread.pushing)
  fits : ∀ e ∈ s.shared.returned, ∀ k, e.1.weight k ≤ e.2 k
  weighs : ∀ t ∈ s.threads, t.Weighs
  entered : ∀ e ∈ s.shared.entered, ∀ k, e.weight k ≠ 0
  returned : ∀ e ∈ s.shared.returned, e.1 ∈ s.shared.left

section

variable {flavour : Flavour}

theorem step_of (of : t.Of flavour) : ∀ u ∈ (t.step sh fails).2, u.Of flavour := by
  cases t with
  | accept e place => cases place <;> grind [Thread.step, Thread.Of]
  | _ => grind [Thread.step, Thread.Of]

theorem step_weighs (weighs : t.Weighs) : ∀ u ∈ (t.step sh fails).2, u.Weighs := by
  cases t with
  | accept e place => cases place <;> grind [Thread.step, Thread.Weighs]
  | _ => grind [Thread.step, Thread.Weighs]

/-- A thread that dequeues without a capacity leaves no element in the holder. -/
theorem step_plain (of : t.Of .plain) (none : sh.firstElementHolder = none) :
    (t.step sh fails).1.firstElementHolder = Option.none := by
  cases t with
  | accept e place => cases place <;> grind [Thread.step, Shared.setCounter]
  | _ => grind [Thread.step, Thread.Of, Shared.setCounter]

/-- The lock is taken by a thread that comes to hold it, and given back. -/
theorem step_locks (held : t.locks = 1 → sh.dequeueLock = true) :
    ((t.step sh fails).2.map Thread.locks).sum - t.locks =
      (if (t.step sh fails).1.dequeueLock then 1 else 0) - if sh.dequeueLock then 1 else 0 := by
  cases t with
  | accept e place =>
    cases place <;> grind [Thread.step, Thread.locks, Shared.setCounter]
  | _ => grind [Thread.step, Thread.locks, Shared.setCounter]

/-- A thread that is about to try the queue has found the holder empty. -/
theorem step_pops : ∀ u ∈ (t.step sh fails).2, u.Pops →
    (t.step sh fails).1.firstElementHolder = none := by
  cases t with
  | accept e place => cases place <;> grind [Thread.step, Thread.Pops]
  | _ => grind [Thread.step, Thread.Pops]

theorem step_empty (none : sh.firstElementHolder = none) (free : t.locks = 0) :
    (t.step sh fails).1.firstElementHolder = Option.none := by
  cases t with
  | accept e place => cases place <;> grind [Thread.step, Shared.setCounter]
  | _ => grind [Thread.step, Thread.locks, Shared.setCounter]

/-- An element is taken out only from the front. -/
theorem step_ordered (ordered : sh.entered = sh.left ++ sh.held)
    (empty : t.Pops ∨ t = .tryDequeue → sh.firstElementHolder = none) :
    (t.step sh fails).1.entered = (t.step sh fails).1.left ++ (t.step sh fails).1.held := by
  cases t with
  | accept e place =>
    cases place with
    | load j old => exact ordered
    | compare j old =>
      rw [Thread.step]
      split <;> exact ordered
    | exchange j old =>
      rw [Thread.step]
      split
      · dsimp only
        split <;> exact ordered
      · exact ordered
    | rollBack j => exact ordered
  | push e =>
    dsimp only [Thread.step, Shared.held]
    rw [ordered, Shared.held]
    simp only [List.append_assoc]
  | tryDequeue =>
    rw [Thread.step]
    split
    · exact ordered
    · rename_i e queue queued
      rw [Shared.held, empty (.inr rfl), queued] at ordered
      rw [ordered, Shared.held, empty (.inr rfl)]
      simp
  | onDequeue e j => exact ordered
  | lock capacity =>
    rw [Thread.step]
    split <;> exact ordered
  | look capacity =>
    rw [Thread.step]
    split
    · rename_i e holds
      split
      · exact ordered
      · rw [Shared.held, holds] at ordered
        rw [ordered, Shared.held]
        simp
    · exact ordered
  | pop capacity =>
    rw [Thread.step]
    split
    · exact ordered
    · rename_i e queue queued
      rw [Shared.held, empty (.inl trivial), queued] at ordered
      split
      · exact ordered
      · rw [ordered, Shared.held, empty (.inl trivial)]
        simp
  | unlock result => exact ordered

/-- An element that is accepted goes on to enter the queue. -/
theorem step_accounted : ((t.step sh fails).1.accepted ++ (sh.entered ++ t.pushing)).Perm
      (sh.accepted ++
        ((t.step sh fails).1.entered ++ (t.step sh fails).2.flatMap Thread.pushing)) := by
  cases t with
  | accept e place =>
    cases place with
    | exchange j old =>
      rw [Thread.step]
      split
      · dsimp only
        split
        · simp [Thread.pushing, Shared.setCounter]
        · simp only [Thread.pushing, Shared.setCounter, List.append_nil, List.flatMap_cons,
            List.flatMap_nil, List.append_assoc]
          exact List.Perm.append_left _ List.perm_append_comm
      · simp [Thread.pushing]
    | compare j old =>
      rw [Thread.step]
      split <;> simp [Thread.pushing]
    | _ => simp [Thread.step, Thread.pushing, Shared.setCounter]
  | push e => simp [Thread.step, Thread.pushing]
  | onDequeue e j =>
    rw [Thread.step]
    dsimp only
    split <;> simp [Thread.pushing, Shared.setCounter]
  | look capacity =>
    rw [Thread.step]
    split
    · split <;> simp [Thread.pushing]
    · simp [Thread.pushing]
  | pop capacity =>
    rw [Thread.step]
    split
    · simp [Thread.pushing]
    · split <;> simp [Thread.pushing]
  | unlock result => simp [Thread.step, Thread.pushing]
  | _ =>
    rw [Thread.step]
    split <;> simp [Thread.pushing]

/-- What has entered or was returned after a step did before, or is of the thread. -/
theorem step_entered (weighs : t.Weighs) (entered : ∀ e ∈ sh.entered, ∀ k, e.weight k ≠ 0) :
    ∀ e ∈ (t.step sh fails).1.entered, ∀ k, e.weight k ≠ 0 := by
  cases t with
  | accept e place => cases place <;> grind [Thread.step, Shared.setCounter]
  | _ => grind [Thread.step, Thread.Weighs, Shared.setCounter]

theorem step_returned (returned : ∀ e ∈ sh.returned, e.1 ∈ sh.left) :
    ∀ e ∈ (t.step sh fails).1.returned, e.1 ∈ (t.step sh fails).1.left := by
  cases t with
  | accept e place => cases place <;> grind [Thread.step, Shared.setCounter]
  | _ => grind [Thread.step, Shared.setCounter]

theorem le_of_not_lessThan {capacity weight : Weights n} (fits : ¬ lessThan capacity weight = true)
    (k : Fin (n + 1)) : weight k ≤ capacity k :=
  UInt64.not_lt.mp fun less => fits (decide_eq_true ⟨k, less⟩)

theorem step_returns : (t.step sh fails).1.returned = sh.returned ∨
    ∃ e capacity, lessThan capacity e.weight = false ∧
      (t.step sh fails).1.returned = sh.returned ++ [(e, capacity)] := by
  cases t with
  | accept e place => cases place <;> grind [Thread.step, Shared.setCounter]
  | _ => grind [Thread.step, Shared.setCounter]

theorem step_fits (fits : ∀ e ∈ sh.returned, ∀ k, e.1.weight k ≤ e.2 k) :
    ∀ e ∈ (t.step sh fails).1.returned, ∀ k, e.1.weight k ≤ e.2 k := by
  rcases @step_returns _ _ t sh fails with same | ⟨e, capacity, enough, more⟩
  · rw [same]
    exact fits
  · rw [more]
    intro e' member
    rcases List.mem_append.mp member with before | new
    · exact fits e' before
    · cases List.mem_singleton.mp new
      exact le_of_not_lessThan (Bool.eq_false_iff.mp enough)

/-- What was accepted is accounted for when what is accepted, what enters and what the threads
go on with change alike. -/
theorem perm_of_moves {β : Type} {accepted accepted' entered entered' all all' old new : List β}
    (step : (accepted' ++ (entered ++ old)).Perm (accepted ++ (entered' ++ new)))
    (accounted : accepted.Perm (entered ++ all)) (moved : (all' ++ old).Perm (all ++ new)) :
    accepted'.Perm (entered' ++ all') := by
  simp only [← Multiset.coe_eq_coe, ← Multiset.coe_add] at step accounted moved ⊢
  refine add_right_cancel (b := (entered : Multiset β) + old) ?_
  rw [step, accounted]
  calc (entered : Multiset β) + all + (entered' + new) = entered + entered' + (all + new) := by abel
    _ = entered + entered' + (all' + old) := by rw [moved]
    _ = entered' + all' + (entered + old) := by abel

namespace Ordered

theorem start (kept : Ordered flavour s) (of : t.Of flavour) (weighs : t.Weighs)
    (locks : t.locks = 0) (pushing : t.pushing = []) : Ordered flavour (s.start s.shared t) where
  flavoured := List.forall_mem_cons.mpr ⟨of, kept.flavoured⟩
  plain := kept.plain
  locked := by
    rw [ThreadPool.total_start, locks, Int.zero_add]
    exact kept.locked
  empty := List.forall_mem_cons.mpr
    ⟨fun pops => by cases t <;> simp_all [Thread.Pops, Thread.locks], kept.empty⟩
  ordered := kept.ordered
  accounted := by
    rw [ThreadPool.start, List.flatMap_cons, pushing]
    exact kept.accounted
  fits := kept.fits
  weighs := List.forall_mem_cons.mpr ⟨weighs, kept.weighs⟩
  entered := kept.entered
  returned := kept.returned

theorem dequeueLock (kept : Ordered flavour s) {i : Nat} (here : s.threads[i]? = some t)
    (locks : t.locks = 1) : s.shared.dequeueLock = true := by
  have all := ThreadPool.weight_le_total locks_nonneg here
  rw [kept.locked, locks] at all
  by_contra free
  rw [if_neg free] at all
  omega

theorem advance (kept : Ordered flavour s) {i : Nat} (here : s.threads[i]? = some t)
    (fails : Bool) :
    Ordered flavour (s.replace i (t.step s.shared fails).1 (t.step s.shared fails).2) := by
  have member : t ∈ s.threads := List.mem_of_getElem? here
  refine ⟨ThreadPool.forall_replace kept.flavoured (step_of (kept.flavoured t member)),
    fun plain => ?_, ?_, fun u among pops => ?_, ?_, ?_, step_fits kept.fits,
    ThreadPool.forall_replace kept.weighs (step_weighs (kept.weighs t member)),
    step_entered (kept.weighs t member) kept.entered, step_returned kept.returned⟩
  · exact step_plain (plain ▸ kept.flavoured t member) (kept.plain plain)
  · have moved := @step_locks _ _ _ s.shared fails (kept.dequeueLock here)
    rw [ThreadPool.total_replace here, kept.locked, ThreadPool.replace_shared]
    omega
  · rcases ThreadPool.mem_replace.mp among with other | new
    · have popping : u.locks = 1 := by cases u <;> simp_all [Thread.Pops, Thread.locks]
      have free : t.locks = 0 := by
        by_contra locks
        have one : t.locks = 1 := by cases t <;> simp_all [Thread.locks]
        have all : s.total Thread.locks ≤ t.locks := by
          rw [kept.locked, one]
          split <;> omega
        have none := ThreadPool.weight_eq_zero_of_total_le locks_nonneg here all u other
        omega
      exact step_empty (kept.empty u (ThreadPool.mem_of_mem_replace other) pops) free
    · exact step_pops u new pops
  · refine step_ordered kept.ordered fun dequeues => ?_
    rcases dequeues with pops | plain
    · exact kept.empty t member pops
    · subst plain
      exact kept.plain (kept.flavoured _ member)
  · have step := @step_accounted _ _ t s.shared fails
    exact perm_of_moves step kept.accounted (ThreadPool.perm_flatMap_replace _ here)

end Ordered

end

/-! ## Charges -/

/-- What a thread has charged to a counter. -/
def Thread.charge (k : Fin (n + 1)) : Thread α n → Int
  | .accept e (.exchange k' _) => if k.val < k'.val then (e.weight k).toNat else 0
  | .accept e (.rollBack k') => if k.val ≤ k'.val then (e.weight k).toNat else 0
  | .push e => (e.weight k).toNat
  | .onDequeue e k' => if k'.val ≤ k.val then (e.weight k).toNat else 0
  | _ => 0

/-- The weights of the elements that are held, or were returned with a capacity. -/
def Shared.charge (k : Fin (n + 1)) (sh : Shared α n) : Int :=
  weigh k sh.held + weigh k (sh.returned.map Prod.fst)

theorem charge_nonneg (t : Thread α n) : 0 ≤ t.charge k := by
  cases t with
  | accept e place =>
    cases place with
    | exchange k' old =>
      rw [Thread.charge]
      split <;> omega
    | rollBack k' =>
      rw [Thread.charge]
      split <;> omega
    | _ => exact Int.le_refl 0
  | push e => exact Int.natCast_nonneg _
  | onDequeue e k' =>
    rw [Thread.charge]
    split <;> omega
  | _ => exact Int.le_refl 0

theorem charge_again (e : Element α n) : (Thread.accept e (Accept.again j)).charge k =
      if k.val < j.val then ((e.weight k).toNat : Int) else 0 := by
  rw [Accept.again]
  rcases preceding_cases j with ⟨none, zero⟩ | ⟨j', some, next⟩
  · rw [none, if_neg (by omega)]
    rfl
  · rw [some, Thread.charge]
    exact if_congr (by omega) rfl rfl

@[simp] theorem setCounter_charge (value : UInt64) :
    (sh.setCounter j value).charge k = sh.charge k := rfl

theorem toNat_charged {old : UInt64} (same : sh.counters j = old)
    (fits : old.toNat + (e.weight j).toNat < 2 ^ 64) :
    (((sh.setCounter j (old + e.weight j)).counters k).toNat : Int) =
      (sh.counters k).toNat + if k.val = j.val then ((e.weight k).toNat : Int) else 0 := by
  dsimp only [Shared.setCounter]
  by_cases here : k = j
  · subst here
    rw [if_pos rfl, Function.update_self, UInt64.toNat_add, Nat.mod_eq_of_lt fits, same]
    exact Int.natCast_add ..
  · rw [if_neg fun val => here (Fin.ext val), Function.update_of_ne here, Int.add_zero]

theorem toNat_released (enough : (e.weight j).toNat ≤ (sh.counters j).toNat) :
    (((sh.setCounter j (sh.counters j - e.weight j)).counters k).toNat : Int) =
      (sh.counters k).toNat - if k.val = j.val then ((e.weight k).toNat : Int) else 0 := by
  dsimp only [Shared.setCounter]
  by_cases here : k = j
  · subst here
    rw [if_pos rfl, Function.update_self,
      UInt64.toNat_sub_of_le _ _ (UInt64.le_iff_toNat_le.mpr enough)]
    omega
  · rw [if_neg fun val => here (Fin.ext val), Function.update_of_ne here, Int.sub_zero]

/-! ### What a step charges -/

/-- A step of `accept` changes a counter by what it charges. -/
theorem accept_charge {place : Accept n} (unwrapped : ¬ (Thread.accept e place).Wraps sh fails)
    (enough : ∀ k, (Thread.accept e place).charge k ≤ (sh.counters k).toNat) :
    ((((Thread.accept e place).step sh fails).1.counters k).toNat : Int) -
        (((Thread.accept e place).step sh fails).2.map (Thread.charge k)).sum -
        ((Thread.accept e place).step sh fails).1.charge k =
      (sh.counters k).toNat - (Thread.accept e place).charge k - sh.charge k := by
  cases place with
  | load j old =>
    rw [Thread.step]
    rcases following_cases j with ⟨none, _⟩ | ⟨j', some, _⟩
    · simp [none, Thread.charge]
    · simp [some, Thread.charge]
  | compare j old =>
    rw [Thread.step]
    split
    · simp [Thread.charge]
    · rcases following_cases j with ⟨none, _⟩ | ⟨j', some, _⟩
      · simp [none, Thread.charge]
      · simp [some, Thread.charge]
  | exchange j old =>
    have before : (Thread.accept e (.exchange j old)).charge k =
        if k.val < j.val then ((e.weight k).toNat : Int) else 0 := rfl
    rw [Thread.step]
    split
    · rename_i succeeds
      obtain ⟨works, same⟩ := Bool.and_eq_true_iff.mp succeeds
      have same : sh.counters j = old j := beq_iff_eq.mp same
      have works : fails = false := by simpa using works
      have counter := toNat_charged (k := k) same
        (Nat.not_le.mp fun wraps => unwrapped ⟨works, same, wraps⟩)
      have below : k.val ≤ n := Nat.le_of_lt_succ k.isLt
      rcases following_cases j with ⟨none, last⟩ | ⟨j', some, next⟩
      · rw [none, before]
        change (((sh.setCounter j (old j + e.weight j)).counters k).toNat : Int) -
          (((e.weight k).toNat : Int) + 0) - sh.charge k = _
        rw [counter]
        split_ifs <;> omega
      · have after : (Thread.accept e (.exchange j' old)).charge k =
            if k.val < j'.val then ((e.weight k).toNat : Int) else 0 := rfl
        rw [some]
        dsimp only
        rw [List.map_singleton, List.sum_singleton, before, after, setCounter_charge, counter]
        split_ifs <;> omega
    · rw [before, List.map_singleton, List.sum_singleton, charge_again]
  | rollBack j =>
    have charged : (Thread.accept e (.rollBack j)).charge k =
        if k.val ≤ j.val then ((e.weight k).toNat : Int) else 0 := rfl
    have own : (Thread.accept e (.rollBack j)).charge j = ((e.weight j).toNat : Int) :=
      if_pos le_rfl
    have counter := toNat_released (k := k) (Int.ofNat_le.mp (own ▸ enough j))
    rw [Thread.step]
    dsimp only
    rw [List.map_singleton, List.sum_singleton, charge_again, charged, setCounter_charge, counter]
    split_ifs <;> omega

theorem step_charge (unwrapped : ¬ t.Wraps sh fails) (empty : t.Pops → sh.firstElementHolder = none)
    (enough : ∀ k, t.charge k ≤ (sh.counters k).toNat) :
    (((t.step sh fails).1.counters k).toNat : Int) -
        ((t.step sh fails).2.map (Thread.charge k)).sum - (t.step sh fails).1.charge k =
      (sh.counters k).toNat - t.charge k - sh.charge k := by
  cases t with
  | accept e place => exact accept_charge unwrapped enough
  | push e =>
    simp [Thread.step, Thread.charge, Shared.charge, Shared.held]
    omega
  | tryDequeue =>
    rw [Thread.step]
    split
    · simp [Thread.charge]
    · rename_i e queue queued
      simp [Thread.charge, Shared.charge, Shared.held, queued]
      omega
  | onDequeue e j =>
    have charged : (Thread.onDequeue e j).charge k =
        if j.val ≤ k.val then ((e.weight k).toNat : Int) else 0 := rfl
    have own : (Thread.onDequeue e j).charge j = ((e.weight j).toNat : Int) := if_pos le_rfl
    have counter := toNat_released (k := k) (Int.ofNat_le.mp (own ▸ enough j))
    have below : k.val ≤ n := Nat.le_of_lt_succ k.isLt
    rw [Thread.step]
    dsimp only
    rcases following_cases j with ⟨none, last⟩ | ⟨j', some, next⟩
    · rw [none, charged, setCounter_charge, counter]
      dsimp only
      rw [List.map_nil, List.sum_nil]
      split_ifs <;> omega
    · have after : (Thread.onDequeue e j').charge k =
          if j'.val ≤ k.val then ((e.weight k).toNat : Int) else 0 := rfl
      rw [some, charged, setCounter_charge, counter]
      dsimp only
      rw [List.map_singleton, List.sum_singleton, after]
      split_ifs <;> omega
  | lock capacity =>
    rw [Thread.step]
    split <;> simp [Thread.charge, Shared.charge, Shared.held]
  | look capacity =>
    rw [Thread.step]
    split
    · rename_i e holds
      split
      · simp [Thread.charge]
      · simp [Thread.charge, Shared.charge, Shared.held, holds]
        omega
    · simp [Thread.charge]
  | pop capacity =>
    rw [Thread.step]
    split
    · simp [Thread.charge]
    · rename_i e queue queued
      split
      · simp [Thread.charge, Shared.charge, Shared.held, queued, empty trivial]
      · simp [Thread.charge, Shared.charge, Shared.held, queued]
        omega
  | unlock result => simp [Thread.step, Thread.charge, Shared.charge, Shared.held]

/-! ### Limits -/

/-- The sums that a thread is about to set have been compared with the limits. -/
def Thread.Within (limits : Weights n) : Thread α n → Prop
  | .accept e (.compare k old) => ∀ j, j.val < k.val → old j + e.weight j ≤ limits j
  | .accept e (.exchange _ old) => ∀ j, old j + e.weight j ≤ limits j
  | _ => True

theorem step_limits : (t.step sh fails).1.limits = sh.limits := by
  cases t with
  | accept e place => cases place <;> grind [Thread.step, Shared.setCounter]
  | _ => grind [Thread.step, Shared.setCounter]

theorem within_again (limits : Weights n) (e : Element α n) :
    (Thread.accept e (Accept.again k)).Within limits := by
  rw [Accept.again]
  split <;> trivial

theorem step_within (within : t.Within sh.limits) :
    ∀ u ∈ (t.step sh fails).2, u.Within sh.limits := by
  cases t with
  | accept e place =>
    cases place with
    | load j old =>
      rw [Thread.step]
      refine List.forall_mem_singleton.mpr ?_
      split
      · trivial
      · exact fun k none => absurd none (Nat.not_lt_zero _)
    | compare j old =>
      rw [Thread.step]
      split
      · exact fun u member => absurd member List.not_mem_nil
      · rename_i fits
        refine List.forall_mem_singleton.mpr ?_
        have upTo (k : Fin (n + 1)) (le : k.val ≤ j.val) : old k + e.weight k ≤ sh.limits k := by
          rcases Nat.lt_or_eq_of_le le with before | here
          · exact within k before
          · cases Fin.ext here
            exact UInt64.not_lt.mp fits
        rcases following_cases j with ⟨none, last⟩ | ⟨j', some, next⟩
        · rw [none]
          exact fun k => upTo k (by omega)
        · rw [some]
          exact fun k before => upTo k (by omega)
    | exchange j old =>
      rw [Thread.step]
      split
      · dsimp only
        split
        · exact List.forall_mem_singleton.mpr within
        · exact List.forall_mem_singleton.mpr trivial
      · exact List.forall_mem_singleton.mpr (within_again _ e)
    | rollBack j => exact List.forall_mem_singleton.mpr (within_again _ e)
  | _ => grind [Thread.step, Thread.Within]

theorem released_le {limits : Weights n} (limited : ∀ k, sh.counters k ≤ limits k)
    (enough : (e.weight j).toNat ≤ (sh.counters j).toNat) :
    (sh.setCounter j (sh.counters j - e.weight j)).counters k ≤ limits k := by
  have counter := toNat_released (k := k) enough
  have before := UInt64.le_iff_toNat_le.mp (limited k)
  rw [UInt64.le_iff_toNat_le]
  split_ifs at counter <;> omega

theorem step_limited (within : t.Within sh.limits) (limited : ∀ k, sh.counters k ≤ sh.limits k)
    (enough : ∀ k, t.charge k ≤ (sh.counters k).toNat) :
    (t.step sh fails).1.counters k ≤ sh.limits k := by
  cases t with
  | accept e place =>
    cases place with
    | exchange j old =>
      have set : (sh.setCounter j (old j + e.weight j)).counters k ≤ sh.limits k := by
        dsimp only [Shared.setCounter]
        by_cases here : k = j
        · subst here
          rw [Function.update_self]
          exact within k
        · rw [Function.update_of_ne here]
          exact limited k
      rw [Thread.step]
      split
      · dsimp only
        split <;> exact set
      · exact limited k
    | rollBack j =>
      have own : (Thread.accept e (.rollBack j)).charge j = ((e.weight j).toNat : Int) :=
        if_pos le_rfl
      exact released_le limited (Int.ofNat_le.mp (own ▸ enough j))
    | _ => grind [Thread.step]
  | onDequeue e j =>
    have own : (Thread.onDequeue e j).charge j = ((e.weight j).toNat : Int) := if_pos le_rfl
    exact released_le limited (Int.ofNat_le.mp (own ▸ enough j))
  | _ => grind [Thread.step]

/-- What holds of a state as long as no counter wraps around. -/
structure Charged (s : State α n) : Prop where
  counters : ∀ k, ((s.shared.counters k).toNat : Int) =
    s.total (Thread.charge k) + s.shared.charge k
  limited : ∀ k, s.shared.counters k ≤ s.shared.limits k
  within : ∀ t ∈ s.threads, t.Within s.shared.limits

namespace Charged

theorem start (kept : Charged s) (none : ∀ k, t.charge k = 0) (within : t.Within s.shared.limits) :
    Charged (s.start s.shared t) where
  counters k := by
    rw [ThreadPool.total_start, none, Int.zero_add]
    exact kept.counters k
  limited := kept.limited
  within := List.forall_mem_cons.mpr ⟨within, kept.within⟩

theorem advance {flavour : Flavour} (kept : Charged s) (order : Ordered flavour s) {i : Nat}
    (here : s.threads[i]? = some t) (unwrapped : ¬ t.Wraps s.shared fails) :
    Charged (s.replace i (t.step s.shared fails).1 (t.step s.shared fails).2) := by
  have member : t ∈ s.threads := List.mem_of_getElem? here
  have enough (k : Fin (n + 1)) : t.charge k ≤ (s.shared.counters k).toNat := by
    have own := ThreadPool.weight_le_total (charge_nonneg (k := k)) here
    rw [kept.counters k, Shared.charge]
    omega
  refine ⟨fun k => ?_, fun k => ?_, ?_⟩
  · have step := step_charge (k := k) unwrapped (order.empty t member) enough
    rw [ThreadPool.total_replace here, ThreadPool.replace_shared]
    have before := kept.counters k
    omega
  · rw [ThreadPool.replace_shared, step_limits]
    exact step_limited (kept.within t member) kept.limited enough
  · rw [ThreadPool.replace_shared, step_limits]
    exact ThreadPool.forall_replace kept.within (step_within (kept.within t member))

end Charged

/-! ## Runs -/

section

variable {flavour : Flavour} {limits : Weights n} {es : List (Event α n)}

theorem ordered_initial : Ordered flavour (State.initial α limits) where
  flavoured _ member := absurd member List.not_mem_nil
  plain _ := rfl
  locked := rfl
  empty _ member := absurd member List.not_mem_nil
  ordered := rfl
  accounted := List.Perm.refl []
  fits _ member := absurd member List.not_mem_nil
  weighs _ member := absurd member List.not_mem_nil
  entered _ member := absurd member List.not_mem_nil
  returned _ member := absurd member List.not_mem_nil

theorem charged_initial : Charged (State.initial α limits) where
  counters _ := rfl
  limited _ := UInt64.le_iff_toNat_le.mpr (Nat.zero_le _)
  within _ member := absurd member List.not_mem_nil

theorem Ordered.step (kept : Ordered flavour s) {event : Event α n} (call : Allowed flavour event) :
    Ordered flavour (WeightedRequestPileQueue.step s event) := by
  cases event with
  | enqueue element weights => exact kept.start trivial call rfl rfl
  | tryDequeue => exact kept.start call trivial rfl rfl
  | tryDequeueWithCapacity capacity => exact kept.start call trivial rfl rfl
  | step i fails =>
    rw [WeightedRequestPileQueue.step]
    split
    · rename_i t here
      exact kept.advance here fails
    · exact kept

theorem Charged.step (kept : Charged s) (order : Ordered flavour s) {event : Event α n}
    (unwrapped : Unwrapped s event) : Charged (WeightedRequestPileQueue.step s event) := by
  cases event with
  | enqueue element weights => exact kept.start (fun _ => rfl) trivial
  | tryDequeue => exact kept.start (fun _ => rfl) trivial
  | tryDequeueWithCapacity capacity => exact kept.start (fun _ => rfl) trivial
  | step i fails =>
    rw [WeightedRequestPileQueue.step]
    split
    · rename_i t here
      exact kept.advance order here (unwrapped t here)
    · exact kept

/-- The elements that are about to enter the queue have been charged. -/
theorem weigh_pushing_le (threads : List (Thread α n)) :
    (weigh k (threads.flatMap Thread.pushing) : Int) ≤ (threads.map (Thread.charge k)).sum := by
  induction threads with
  | nil => exact le_rfl
  | cons t threads ih =>
    have own : (weigh k t.pushing : Int) ≤ t.charge k := by
      have nonneg := charge_nonneg (k := k) t
      cases t with
      | push e => simp [Thread.pushing, Thread.charge]
      | _ => exact nonneg
    rw [List.flatMap_cons, weigh_append, List.map_cons, List.sum_cons]
    omega

theorem eq_nil_of_weigh_eq_zero {elements : List (Element α n)}
    (nonzero : ∀ e ∈ elements, e.weight k ≠ 0) (none : weigh k elements = 0) : elements = [] := by
  cases elements with
  | nil => rfl
  | cons e elements =>
    rw [weigh_cons] at none
    have zero : (e.weight k).toNat = 0 := by omega
    exact absurd (UInt64.toNat_inj.mp zero) (nonzero e List.mem_cons_self)

/-- Where no counter wraps around, the promises are kept in every state of a run in which some
call is in progress or no element was returned with a capacity, and in no other. -/
theorem sound_iff_returned_eq_nil (limits : Weights n) (flavour : Flavour) (es : List (Event α n))
    (calls : Run step (fun _ => Allowed flavour) (.initial α limits) es)
    (unwrapped : Run step Unwrapped (.initial α limits) es) :
    Sound (es.foldl step (.initial α limits)) ↔ ((es.foldl step (.initial α limits)).threads = [] →
        (es.foldl step (.initial α limits)).shared.returned = []) := by
  have start : Ordered flavour (State.initial α limits) ∧ Charged (State.initial α limits) :=
    ⟨ordered_initial, charged_initial⟩
  have keeps (s : State α n) (e : Event α n) (kept : Ordered flavour s ∧ Charged s)
      (both : Allowed flavour e ∧ Unwrapped s e) :
      Ordered flavour (WeightedRequestPileQueue.step s e) ∧
        Charged (WeightedRequestPileQueue.step s e) :=
    ⟨kept.1.step both.1, kept.2.step kept.1 both.2⟩
  obtain ⟨order, kept⟩ := (calls.and unwrapped).invariant start keeps
  generalize es.foldl step (.initial α limits) = s at order kept
  have idle (none : s.threads = []) (k : Fin (n + 1)) : ((s.shared.counters k).toNat : Int) =
      weigh k s.shared.held + weigh k (s.shared.returned.map Prod.fst) := by
    rw [kept.counters k, ThreadPool.total_of_threads_nil none, Int.zero_add, Shared.charge]
  constructor
  · intro sound none
    have all := idle none 0
    rw [sound.counted none 0] at all
    have nothing : weigh 0 (s.shared.returned.map Prod.fst) = 0 := by omega
    refine List.map_eq_nil_iff.mp (eq_nil_of_weigh_eq_zero (fun e member => ?_) nothing)
    obtain ⟨taken, listed, rfl⟩ := List.mem_map.mp member
    refine order.entered taken.1 ?_ 0
    rw [order.ordered]
    exact List.mem_append_left _ (order.returned taken listed)
  · intro nothing
    refine ⟨order.ordered, order.accounted, fun none k => ?_, fun k => ?_, order.fits⟩
    · have all := idle none k
      rw [nothing none, List.map_nil, weigh_nil] at all
      omega
    · have counter := kept.counters k
      have limit := UInt64.le_iff_toNat_le.mp (kept.limited k)
      have pushing := weigh_pushing_le (k := k) s.threads
      rw [Shared.charge, ThreadPool.total] at counter
      omega

end

/-- An element of weight 1 enters a queue with one counter. -/
def oneEnqueue : List (Event Nat 0) :=
  [.enqueue 7 1, .step 0 false, .step 0 false, .step 0 false, .step 0 false]

theorem sound_oneEnqueue : Sound (oneEnqueue.foldl step (.initial Nat fun _ => 10)) ↔
    ((oneEnqueue.foldl step (.initial Nat fun _ => 10)).threads = [] →
      (oneEnqueue.foldl step (.initial Nat fun _ => 10)).shared.returned = []) :=
  sound_iff_returned_eq_nil (fun _ => 10) .plain oneEnqueue
    ⟨fun _ => show (1 : UInt64) ≠ 0 by decide, trivial, trivial, trivial, trivial, trivial⟩
    ⟨trivial, fun t here => by cases here; exact id, fun t here => by cases here; exact id,
      fun t here => by cases here; exact fun wraps => absurd wraps.2.2 (by decide),
      fun t here => by cases here; exact id, trivial⟩

/-- The element is returned with a capacity of 1. -/
def oneDequeue : List (Event Nat 0) :=
  oneEnqueue ++ [.tryDequeueWithCapacity 1, .step 0 false, .step 0 false, .step 0 false,
    .step 0 false]

/-- The counter still counts an element that was returned with a capacity. -/
theorem not_sound_oneDequeue : ¬ Sound (oneDequeue.foldl step (.initial Nat fun _ => 10)) :=
  fun sound => absurd (sound.counted rfl 0) (by decide)

end WeightedRequestPileQueue

end FbThrift
