import FbThrift.Server.RoundRobinRequestPile

/-!
# The levels of a round robin request pile

Each priority is told as a level: the queue of its one bucket, or the buckets and the order in
which they are to be visited.  A request comes to the end of a bucket, or a bucket is visited and
its first requests leave it; what holds of a level at all times is kept by both.  A bucket that
is visited goes behind all that have something.
-/

namespace FbThrift

open NotificationQueue (View drain)

variable {ρ : Type} {r : ρ} {maxRequest : UInt32}

/-! ## Queues of one bucket -/

namespace SingleBucketRequestPileQueue

variable {q : SingleBucketRequestPileQueue ρ}

/-- An element is refused at the limit, and nothing changes; else it goes to the end. -/
theorem enqueue_cases (r : ρ) (q : SingleBucketRequestPileQueue ρ) :
    (q.limit ≠ 0 ∧ q.limit ≤ q.count ∧ q.enqueue r = (false, q)) ∨
      ((q.limit ≠ 0 → q.count < q.limit) ∧ q.enqueue r = (true, { q with
          queue := q.queue ++ [r], count := if q.limit ≠ 0 then q.count + 1 else q.count })) := by
  rw [enqueue]
  by_cases limited : q.limit ≠ 0
  · rw [if_pos limited, if_pos limited]
    dsimp only
    by_cases full : q.limit ≤ q.count
    · rw [if_pos full]
      exact .inl ⟨limited, full, by simp⟩
    · rw [if_neg full]
      exact .inr ⟨fun _ => UInt64.not_le.mp full, rfl⟩
  · rw [if_neg limited, if_neg limited]
    exact .inr ⟨fun other => absurd other limited, rfl⟩

/-- What holds of the queue of a bucket at all times: a limit is counted, and is not passed. -/
def Kept (maxRequest : UInt32) (q : SingleBucketRequestPileQueue ρ) : Prop :=
  q.limit = maxRequest.toUInt64 ∧
    (maxRequest ≠ 0 → q.count.toNat = q.queue.length ∧ q.queue.length ≤ maxRequest.toNat)

theorem limit_ne_zero : maxRequest.toUInt64 ≠ 0 ↔ maxRequest ≠ 0 := by
  rw [not_iff_not, ← UInt64.toNat_inj, ← UInt32.toNat_inj, UInt32.toNat_toUInt64]
  rfl

theorem Kept.enqueue (kept : q.Kept maxRequest) : (q.enqueue r).2.Kept maxRequest := by
  rcases enqueue_cases r q with ⟨limited, full, refused⟩ | ⟨room, taken⟩
  · rw [refused]
    exact kept
  · rw [taken]
    refine ⟨kept.1, fun limited => ?_⟩
    have limit : q.limit ≠ 0 := kept.1 ▸ limit_ne_zero.mpr limited
    have fits : maxRequest.toNat < 2 ^ 32 := maxRequest.toNat_lt
    have below : q.count.toNat < maxRequest.toNat := by
      have below := UInt64.lt_iff_toNat_lt.mp (room limit)
      rwa [kept.1, UInt32.toNat_toUInt64] at below
    obtain ⟨count, length⟩ := kept.2 limited
    dsimp only
    rw [if_pos limit, List.length_append, UInt64.toNat_add, count]
    exact ⟨Nat.mod_eq_of_lt (show q.queue.length + 1 < 2 ^ 64 by omega), count ▸ below⟩

theorem Kept.tryDequeue (kept : q.Kept maxRequest) : q.tryDequeue.2.Kept maxRequest := by
  rw [SingleBucketRequestPileQueue.tryDequeue]
  split
  · exact kept
  · rename_i elem rest queued
    refine ⟨kept.1, fun limited => ?_⟩
    have limit : q.limit ≠ 0 := kept.1 ▸ limit_ne_zero.mpr limited
    obtain ⟨count, length⟩ := kept.2 limited
    rw [queued, List.length_cons] at count length
    have one : (1 : UInt64) ≤ q.count := by
      rw [UInt64.le_iff_toNat_le, count]
      exact Nat.le_add_left 1 _
    dsimp only
    rw [if_pos limit, UInt64.toNat_sub_of_le _ _ one, count]
    exact ⟨Nat.add_sub_cancel .., Nat.le_of_succ_le length⟩

end SingleBucketRequestPileQueue

namespace RoundRobinRequestPile

variable {b b' v : Nat} {c : Consumer ρ}
  {handle : Consumer ρ → ρ → Consumer ρ × TaskStatus}

/-! ## Levels -/

/-- What is told of a priority. -/
inductive Level (ρ : Type) where
  | single (queue : SingleBucketRequestPileQueue ρ)
  | several (index : List Nat) (buckets : Nat → View ρ)

namespace Level

variable {l l' : Level ρ}

/-- The requests in a bucket. -/
def held : Level ρ → Nat → List ρ
  | single q, b => if b = 0 then q.queue else []
  | several _ buckets, b => (buckets b).elems

def Single : Level ρ → Prop
  | single _ => True
  | several _ _ => False

/-- A request is put into a bucket, if the limit lets it in. -/
def enqueue (maxRequest : UInt32) (r : ρ) (b : Nat) : Level ρ → Bool × Level ρ
  | single q => ((q.enqueue r).1, single (q.enqueue r).2)
  | several index buckets =>
    if maxRequest ≠ 0 ∧ maxRequest.toNat ≤ (buckets b).elems.length then
      (false, several index buckets)
    else
      (true, several (if (buckets b).armed then index ++ [b] else index)
        (Function.update buckets b ((buckets b).push r)))

/-- The first bucket of the index queue is visited. -/
def take (handle : Consumer ρ → ρ → Consumer ρ × TaskStatus) :
    Level ρ → Option ((Nat × Consumer ρ) × Level ρ)
  | single q =>
    match q.tryDequeue with
    | (some r, q') => some ((0, ⟨some r, []⟩), single q')
    | (none, _) => none
  | several [] _ => none
  | several (b :: index) buckets =>
    let driven := drain handle {} (buckets b).elems
    some ((b, driven.1), several (if !driven.2.isEmpty then index ++ [b] else index)
        (Function.update buckets b { buckets b with elems := driven.2 }.arm))

/-- What holds of a bucket that stands a number of times in the index queue. -/
structure BucketKept (maxRequest : UInt32) (times : Nat) (bucket : View ρ) : Prop where
  armed : bucket.armed = bucket.elems.isEmpty
  readsOne : bucket.maxReadAtOnce = 1
  indexed : times = if bucket.elems.isEmpty then 0 else 1
  limited : maxRequest ≠ 0 → bucket.elems.length ≤ maxRequest.toNat

/-- What holds of a level at all times. -/
def Kept (maxRequest : UInt32) : Level ρ → Prop
  | single q => q.Kept maxRequest
  | several index buckets => ∀ b, BucketKept maxRequest (index.count b) (buckets b)

/-! ### A request comes in -/

theorem single_enqueue : (l.enqueue maxRequest r b).2.Single ↔ l.Single := by
  cases l with
  | single q => exact Iff.rfl
  | several index buckets =>
    rw [enqueue]
    split <;> exact Iff.rfl

/-- A request that is not let in changes nothing. -/
theorem enqueue_rejected (rejected : (l.enqueue maxRequest r b).1 = false) :
    (l.enqueue maxRequest r b).2 = l := by
  cases l with
  | single q =>
    rcases q.enqueue_cases r with ⟨_, _, refused⟩ | ⟨_, taken⟩
    · rw [enqueue, refused]
    · rw [enqueue, taken] at rejected
      cases rejected
  | several index buckets =>
    rw [enqueue] at rejected ⊢
    split at rejected
    · rename_i full
      rw [if_pos full]
    · cases rejected

/-- A request that is let in goes to the end of its bucket. -/
theorem held_enqueue (accepted : (l.enqueue maxRequest r b).1 = true) (inRange : l.Single → b = 0) :
    (l.enqueue maxRequest r b).2.held = Function.update l.held b (l.held b ++ [r]) := by
  funext b'
  cases l with
  | single q =>
    cases inRange trivial
    rcases q.enqueue_cases r with ⟨_, _, refused⟩ | ⟨_, taken⟩
    · rw [enqueue, refused] at accepted
      cases accepted
    · rw [enqueue, taken]
      by_cases first : b' = 0
      · subst first
        rw [Function.update_self]
        rfl
      · rw [Function.update_of_ne first, held, if_neg first, held, if_neg first]
  | several index buckets =>
    rw [enqueue] at accepted ⊢
    split at accepted
    · cases accepted
    · rename_i room
      rw [if_neg room]
      by_cases same : b' = b
      · subst same
        dsimp only [held]
        rw [Function.update_self, Function.update_self]
        rfl
      · dsimp only [held]
        rw [Function.update_of_ne same, Function.update_of_ne same, held]

theorem BucketKept.push {times : Nat} {bucket : View ρ} (kept : BucketKept maxRequest times bucket)
    (room : ¬ (maxRequest ≠ 0 ∧ maxRequest.toNat ≤ bucket.elems.length)) :
    BucketKept maxRequest (if bucket.armed then times + 1 else times) (bucket.push r) where
  armed := by
    simp [View.push]
  readsOne := kept.readsOne
  indexed := by
    rw [kept.armed, kept.indexed]
    cases bucket.elems <;> simp [View.push]
  limited limited := by
    have below : bucket.elems.length < maxRequest.toNat :=
      Nat.not_le.mp fun full => room ⟨limited, full⟩
    rw [View.push, List.length_append]
    exact below

theorem count_of_ne {index : List Nat} {also : Bool} (other : b' ≠ b) :
    (if also then index ++ [b] else index).count b' = index.count b' := by
  cases also with
  | false => rfl
  | true =>
    have none : [b].count b' = 0 := List.count_eq_zero_of_not_mem (by simpa using other)
    rw [if_pos rfl, List.count_append, none, Nat.add_zero]

theorem count_self {index : List Nat} (empty : Bool) (first : index.count b = 0) :
    (if !empty then index ++ [b] else index).count b = if empty then 0 else 1 := by
  cases empty with
  | true => exact first
  | false => exact List.count_append.trans (by rw [first, List.count_singleton_self]; rfl)

theorem Kept.enqueue (kept : l.Kept maxRequest) : (l.enqueue maxRequest r b).2.Kept maxRequest := by
  cases l with
  | single q => exact SingleBucketRequestPileQueue.Kept.enqueue kept
  | several index buckets =>
    rw [Level.enqueue]
    split
    · exact kept
    · rename_i room
      intro b'
      by_cases same : b' = b
      · subst same
        have pushed := (kept b').push (r := r) room
        rw [Function.update_self]
        split
        · rename_i armed
          rw [if_pos armed] at pushed
          rwa [List.count_append, List.count_singleton_self]
        · rename_i armed
          rwa [if_neg armed] at pushed
      · rw [Function.update_of_ne same, count_of_ne same]
        exact kept b'

/-- Without a limit every request is let in. -/
theorem enqueue_unlimited (kept : l.Kept 0) : (l.enqueue 0 r b).1 = true := by
  cases l with
  | single q =>
    rcases q.enqueue_cases r with ⟨limited, _, _⟩ | ⟨_, taken⟩
    · exact absurd kept.1 limited
    · rw [enqueue, taken]
  | several index buckets => rw [enqueue, if_neg fun both => both.1 rfl]

theorem Kept.length_held_le (kept : l.Kept maxRequest) (limited : maxRequest ≠ 0) (b : Nat) :
    (l.held b).length ≤ maxRequest.toNat := by
  cases l with
  | single q =>
    rw [held]
    split
    · exact (kept.2 limited).2
    · exact Nat.zero_le _
  | several index buckets => exact (kept b).limited limited

/-! ### A bucket is visited -/

/-- A drained bucket has handed over the requests that the consumer has seen. -/
theorem drain_handle (delegate : Bool) (expired : ρ → Bool) (none : c.carrier = none)
    (elems : List ρ) :
    let driven := drain (Consumer.handle delegate expired) c elems
    c.expired ++ elems = driven.1.expired ++ driven.1.carrier.toList ++ driven.2 := by
  induction elems generalizing c with
  | nil => simp [drain, none]
  | cons request elems ih =>
    rw [drain, Consumer.handle]
    cases delegate with
    | false => simp
    | true =>
      cases gone : expired request with
      | false => simp
      | true => simpa using ih (c := { c with expired := c.expired ++ [request] }) none

theorem single_take (taken : l.take handle = some ((v, c), l')) : l'.Single ↔ l.Single := by
  cases l with
  | single q =>
    rw [take] at taken
    split at taken
    · cases taken
      exact Iff.rfl
    · cases taken
  | several index buckets =>
    cases index with
    | nil => cases taken
    | cons b index =>
      cases taken
      exact Iff.rfl

/-- Where no bucket is visited, all are empty. -/
theorem held_of_take_none (kept : l.Kept maxRequest) (none : l.take handle = none) (b : Nat) :
    l.held b = [] := by
  cases l with
  | single q =>
    rw [take, SingleBucketRequestPileQueue.tryDequeue] at none
    split at none
    · cases none
    · rename_i empty
      split at empty
      · rename_i queue
        rw [held, queue, ite_self]
      · cases empty
  | several index buckets =>
    cases index with
    | nil =>
      have indexed := (kept b).indexed
      by_contra some
      rw [held] at some
      rw [List.isEmpty_eq_false_iff.mpr some] at indexed
      cases indexed
    | cons b index => cases none

/-- The requests that a visit takes are the first of the bucket. -/
theorem held_of_take {delegate : Bool} {expired : ρ → Bool}
    (taken : l.take (Consumer.handle delegate expired) = some ((v, c), l')) :
    l.held v = c.expired ++ c.carrier.toList ++ l'.held v ∧ ∀ b, b ≠ v → l'.held b = l.held b := by
  cases l with
  | single q =>
    rw [take, SingleBucketRequestPileQueue.tryDequeue] at taken
    split at taken
    · rename_i request q' dequeued
      split at dequeued
      · cases dequeued
      · rename_i elem rest queue
        cases dequeued
        cases taken
        refine ⟨?_, fun b other => ?_⟩
        · rw [held, if_pos rfl, queue]
          rfl
        · rw [held, if_neg other, held, if_neg other]
    · cases taken
  | several index buckets =>
    cases index with
    | nil => cases taken
    | cons b index =>
      cases taken
      refine ⟨?_, fun b' other => ?_⟩
      · have driven := drain_handle (c := {}) delegate expired rfl (buckets v).elems
        dsimp only [held]
        rw [Function.update_self]
        exact driven
      · dsimp only [held]
        rw [Function.update_of_ne other]

theorem length_drain_le {κ : Type} (consumer : κ → ρ → κ × TaskStatus) (k : κ) (elems : List ρ) :
    (drain consumer k elems).2.length ≤ elems.length := by
  induction elems generalizing k with
  | nil => exact Nat.le_refl _
  | cons r elems ih =>
    rw [drain]
    split
    · exact Nat.le_succ _
    · exact Nat.le_succ_of_le (ih _)

theorem Kept.take (kept : l.Kept maxRequest) (taken : l.take handle = some ((v, c), l')) :
    l'.Kept maxRequest := by
  cases l with
  | single q =>
    rw [Level.take] at taken
    split at taken
    · rename_i request q' dequeued
      cases taken
      have after := SingleBucketRequestPileQueue.Kept.tryDequeue kept
      rwa [dequeued] at after
    · cases taken
  | several index buckets =>
    cases index with
    | nil => cases taken
    | cons b index =>
      cases taken
      intro b'
      have before := kept b'
      by_cases same : b' = v
      · subst same
        rw [List.count_cons_self] at before
        have first : index.count b' = 0 := by
          have indexed := before.indexed
          split at indexed
          · cases indexed
          · exact Nat.succ.inj indexed
        have fewer := length_drain_le handle {} (buckets b').elems
        rw [Function.update_self]
        refine ⟨rfl, before.readsOne, ?_, fun limited => ?_⟩
        · exact count_self _ first
        · exact fewer.trans (before.limited limited)
      · rw [List.count_cons_of_ne (Ne.symm same)] at before
        rw [Function.update_of_ne same, count_of_ne same]
        exact before

/-! ### Turns -/

/-- One bucket is to be visited before another is. -/
def Ahead (b' b : Nat) : Level ρ → Prop
  | single _ => False
  | several index _ => ∃ before after, index = before ++ b' :: after ∧ b ∉ before

theorem Ahead.enqueue (ahead : l.Ahead b' b) (r : ρ) (v : Nat) :
    (l.enqueue maxRequest r v).2.Ahead b' b := by
  cases l with
  | single q => exact ahead
  | several index buckets =>
    obtain ⟨before, after, rfl, notBefore⟩ := ahead
    rw [Level.enqueue]
    split
    · exact ⟨before, after, rfl, notBefore⟩
    · dsimp only
      split
      · exact ⟨before, after ++ [v], by simp, notBefore⟩
      · exact ⟨before, after, rfl, notBefore⟩

/-- A bucket that is ahead of another is visited, or stays ahead and the other is not visited. -/
theorem Ahead.take (ahead : l.Ahead b' b) (taken : l.take handle = some ((v, c), l')) :
    v = b' ∨ v ≠ b ∧ l'.Ahead b' b := by
  cases l with
  | single q => exact ahead.elim
  | several index buckets =>
    obtain ⟨before, after, rfl, notBefore⟩ := ahead
    cases before with
    | nil =>
      cases taken
      exact .inl rfl
    | cons first before =>
      cases taken
      have different : b ≠ v := fun same => notBefore (same ▸ List.mem_cons_self)
      have notBefore : b ∉ before := fun mem => notBefore (List.mem_cons_of_mem _ mem)
      refine .inr ⟨Ne.symm different, ?_⟩
      dsimp only
      split
      · exact ⟨before, after ++ [v], by simp, notBefore⟩
      · exact ⟨before, after, rfl, notBefore⟩

/-- After a visit all other buckets that have something are ahead of the one that was visited. -/
theorem ahead_of_take (kept : l.Kept maxRequest) (taken : l.take handle = some ((b, c), l'))
    (other : b' ≠ b) (nonempty : l.held b' ≠ []) : l'.Ahead b' b := by
  cases l with
  | single q =>
    rw [Level.take] at taken
    split at taken
    · cases taken
      rw [held, if_neg other] at nonempty
      exact absurd rfl nonempty
    · cases taken
  | several index buckets =>
    cases index with
    | nil => cases taken
    | cons first index =>
      cases taken
      have this := (kept b).indexed
      have that := (kept b').indexed
      rw [List.count_cons_self] at this
      rw [held] at nonempty
      rw [List.isEmpty_eq_false_iff.mpr nonempty, List.count_cons_of_ne (Ne.symm other)] at that
      have gone : b ∉ index := by
        refine List.count_eq_zero.mp ?_
        split at this
        · cases this
        · exact Nat.succ.inj this
      have there : b' ∈ index := List.count_pos_iff.mp (that ▸ Nat.one_pos)
      obtain ⟨before, after, rfl⟩ := List.append_of_mem there
      have notBefore : b ∉ before := fun mem => gone (List.mem_append_left _ mem)
      dsimp only
      split
      · exact ⟨before, after ++ [b], by simp, notBefore⟩
      · exact ⟨before, after, rfl, notBefore⟩

end Level

end RoundRobinRequestPile

end FbThrift
