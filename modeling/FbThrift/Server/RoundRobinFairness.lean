import FbThrift.Server.RoundRobinLevel

/-!
# The round robin request pile is fair

`enqueue` and `dequeue` change one level each.  What holds of a level is kept by both, and the
requests that a bucket has accepted are those that have left it and those that it holds, in order.

The limits of the options have 64 bits, and the pile reads 32 of them.
-/

namespace FbThrift

open NotificationQueue (View drain)

namespace RoundRobinRequestPile

variable {ρ : Type} {b b' : Nat} {handle : Consumer ρ → ρ → Consumer ρ × TaskStatus}

/-! ## The pile and its levels -/

variable {queues : NotificationQueue ρ} {pile : RoundRobinRequestPile queues}
  {opts : RoundRobinRequestPileOptions ρ} {i : Nat}

def level (pile : RoundRobinRequestPile queues) (i : Nat) : Level ρ :=
  match pile.retrievalIndexQueues i with
  | none => .single (pile.singleBucketRequestQueues i)
  | some index => .several index fun b => queues.view (pile.requestQueues i b)

theorem level_none (none : pile.retrievalIndexQueues i = none) :
    pile.level i = .single (pile.singleBucketRequestQueues i) := by
  rw [level, none]

theorem level_some {index : List Nat} (some : pile.retrievalIndexQueues i = some index) :
    pile.level i = .several index fun b => queues.view (pile.requestQueues i b) := by
  rw [level, some]

/-- The requests in a bucket of a priority. -/
def held (pile : RoundRobinRequestPile queues) (place : Nat × Nat) : List ρ :=
  (pile.level place.1).held place.2

theorem level_setSingleBucketRequestQueue (none : pile.retrievalIndexQueues i = none)
    (q : SingleBucketRequestPileQueue ρ) :
    (pile.setSingleBucketRequestQueue i q).level = Function.update pile.level i (.single q) := by
  funext j
  rw [level, setSingleBucketRequestQueue]
  by_cases same : j = i
  · subst same
    dsimp only
    rw [none, Function.update_self, Function.update_self]
  · dsimp only
    rw [Function.update_of_ne same, Function.update_of_ne same, level]

theorem level_set {index index' : List Nat} (some : pile.retrievalIndexQueues i = some index)
    (q : queues.Queue) :
    ((pile.setRequestQueue i b q).setRetrievalIndexQueue i index').level =
      Function.update pile.level i (.several index'
        (Function.update (fun b => queues.view (pile.requestQueues i b)) b (queues.view q))) := by
  funext j
  rw [level, setRetrievalIndexQueue, setRequestQueue]
  by_cases same : j = i
  · subst same
    dsimp only
    rw [Function.update_self, Function.update_self, Function.update_self]
    refine congrArg (Level.several index') (funext fun b' => ?_)
    by_cases bucket : b' = b
    · rw [bucket, Function.update_self, Function.update_self]
    · rw [Function.update_of_ne bucket, Function.update_of_ne bucket]
  · dsimp only
    rw [Function.update_of_ne same, Function.update_of_ne same, Function.update_of_ne same, level]

theorem level_setRequestQueue {index : List Nat} (some : pile.retrievalIndexQueues i = some index)
    (q : queues.Queue) :
    (pile.setRequestQueue i b q).level = Function.update pile.level i (.several index
        (Function.update (fun b => queues.view (pile.requestQueues i b)) b (queues.view q))) := by
  have stays : pile.setRequestQueue i b q =
      (pile.setRequestQueue i b q).setRetrievalIndexQueue i index := by
    rw [setRetrievalIndexQueue, setRequestQueue]
    dsimp only
    rw [← some, Function.update_eq_self]
  rw [stays, level_set some]

theorem enqueue_level {request : ρ} (passes : pile.opts.filter request = none) :
    let pri := (pile.opts.select request).1
    let entered := (pile.level pri).enqueue (pile.opts.getNumMaxRequestsForPriority pri) request
      (pile.opts.select request).2
    (pile.enqueue request).1 = (if entered.1 then none else some reachedMaxLimit) ∧
      (pile.enqueue request).2.level = Function.update pile.level pri entered.2 := by
  dsimp only
  rw [enqueue, passes]
  dsimp only
  generalize (pile.opts.select request).1 = pri
  generalize (pile.opts.select request).2 = bucket
  generalize pile.opts.getNumMaxRequestsForPriority pri = maxRequest
  cases index : pile.retrievalIndexQueues pri with
  | none =>
    dsimp only
    rw [level_setSingleBucketRequestQueue index, level_none index, Level.enqueue]
    exact ⟨rfl, rfl⟩
  | some index' =>
    dsimp only
    rw [level_some index, Level.enqueue]
    have told := queues.tryPush_fst request maxRequest.toNat (pile.requestQueues pri bucket)
    have left := queues.view_tryPush request maxRequest.toNat (pile.requestQueues pri bucket)
    by_cases full : maxRequest ≠ 0 ∧
        maxRequest.toNat ≤ (queues.view (pile.requestQueues pri bucket)).elems.length
    · rw [View.tryPush, if_pos full.2] at told left
      rw [if_pos full.1, if_pos full, told]
      refine ⟨rfl, ?_⟩
      dsimp only
      rw [level_setRequestQueue index, left]
      exact congrArg _ (congrArg _ (Function.update_eq_self ..))
    · rw [if_neg full]
      by_cases limited : maxRequest ≠ 0
      · rw [View.tryPush, if_neg fun reached => full ⟨limited, reached⟩] at told left
        rw [if_pos limited, told]
        by_cases armed : (queues.view (pile.requestQueues pri bucket)).armed = true
        · rw [if_pos armed, if_pos armed]
          refine ⟨rfl, ?_⟩
          dsimp only
          rw [level_set index, left]
        · rw [if_neg armed, if_neg armed]
          refine ⟨rfl, ?_⟩
          dsimp only
          rw [level_setRequestQueue index, left]
      · rw [if_neg limited, queues.push_fst]
        refine ⟨rfl, ?_⟩
        dsimp only
        split
        · rw [level_set index, queues.view_push]
        · rw [level_setRequestQueue index, queues.view_push]

theorem opts_enqueue (request : ρ) : (pile.enqueue request).2.opts = pile.opts := by
  rw [enqueue]
  dsimp only
  split
  · rfl
  · split
    · rfl
    · split
      · split <;> rfl
      · split <;> rfl

/-- All buckets are read one request at a time. -/
def ReadsOne (pile : RoundRobinRequestPile queues) : Prop :=
  ∀ i index, pile.retrievalIndexQueues i = some index →
    ∀ b, (queues.view (pile.requestQueues i b)).maxReadAtOnce = 1

/-- The outcomes of the loop of `dequeue`: no priority has something, or the first that has is
visited. -/
inductive Outcome (pile : RoundRobinRequestPile queues)
    (handle : Consumer ρ → ρ → Consumer ρ × TaskStatus) (priorities : List Nat) :
    Dequeued ρ × RoundRobinRequestPile queues → Prop
  | nothing (idle : ∀ i ∈ priorities, (pile.level i).take handle = none) :
    Outcome pile handle priorities ({}, pile)
  | visit (before after : List Nat) (i bucket : Nat) (consumer : Consumer ρ) (l' : Level ρ)
    (pile' : RoundRobinRequestPile queues) (split : priorities = before ++ i :: after)
    (idle : ∀ j ∈ before, (pile.level j).take handle = none)
    (taken : (pile.level i).take handle = some ((bucket, consumer), l'))
    (changed : pile'.level = Function.update pile.level i l')
    (opts : pile'.opts = pile.opts) :
    Outcome pile handle priorities (⟨consumer.carrier, consumer.expired, some (i, bucket)⟩, pile')

theorem Outcome.skip {priorities : List Nat} {outcome : Dequeued ρ × RoundRobinRequestPile queues}
    (idle : (pile.level i).take handle = none) (rest : Outcome pile handle priorities outcome) :
    Outcome pile handle (i :: priorities) outcome := by
  cases rest with
  | nothing others => exact .nothing (List.forall_mem_cons.mpr ⟨idle, others⟩)
  | visit before after j bucket consumer l' pile' split others taken changed opts =>
    exact .visit (i :: before) after j bucket consumer l' pile' (congrArg (i :: ·) split)
      (List.forall_mem_cons.mpr ⟨idle, others⟩) taken changed opts

theorem dequeueFrom_outcome (readsOne : pile.ReadsOne) (expired : ρ → Bool)
    (priorities : List Nat) :
    Outcome pile (Consumer.handle pile.requestExpirationDelegate expired) priorities
      (pile.dequeueFrom expired priorities) := by
  induction priorities with
  | nil => exact .nothing fun i mem => absurd mem List.not_mem_nil
  | cons i priorities ih =>
    rw [dequeueFrom]
    cases index : pile.retrievalIndexQueues i with
    | none =>
      have level := level_none index
      dsimp only
      cases dequeued : (pile.singleBucketRequestQueues i).tryDequeue with
      | mk request queue =>
        cases request with
        | none =>
          refine Outcome.skip ?_ ih
          rw [level, Level.take, dequeued]
        | some request =>
          refine .visit [] priorities i 0 ⟨some request, []⟩ (.single queue) _ rfl
            (by simp) ?_ (level_setSingleBucketRequestQueue index queue) rfl
          rw [level, Level.take, dequeued]
    | some index' =>
      have level := level_some index
      cases index' with
      | nil =>
        refine Outcome.skip ?_ ih
        rw [level, Level.take]
      | cons bucket index' =>
        have reads := readsOne i _ index bucket
        dsimp only
        rw [dequeueImpl]
        rw [queues.drive_fst _ _ _ reads]
        refine .visit [] priorities i bucket _ _ _ rfl (by simp)
          (by rw [level, Level.take]) ?_ rfl
        rw [level_set index, queues.arm_fst, queues.view_arm, queues.view_drive _ _ _ reads]

/-! ## Runs -/

inductive Event (ρ : Type) where
  | enqueue (request : ρ)
  /-- `dequeue`, and the requests that are expired by then. -/
  | dequeue (expired : ρ → Bool)

/-- A pile, the requests that each bucket has accepted, and those that have left it. -/
structure Recorded (queues : NotificationQueue ρ) where
  pile : RoundRobinRequestPile queues
  accepted : Nat × Nat → List ρ
  left : Nat × Nat → List ρ

namespace Recorded

/-- The requests that a bucket has accepted or that have left it, and some more. -/
def add (lists : Nat × Nat → List ρ) (place : Nat × Nat) (requests : List ρ) : Nat × Nat → List ρ :=
  Function.update lists place (lists place ++ requests)

def step (s : Recorded queues) : Event ρ → Recorded queues
  | .enqueue request =>
    { s with
      pile := (s.pile.enqueue request).2
      accepted :=
        if (s.pile.enqueue request).1 = none then
          add s.accepted (s.pile.opts.select request) [request]
        else s.accepted }
  | .dequeue expired =>
    let dequeued := s.pile.dequeue expired
    { s with
      pile := dequeued.2
      left :=
        match dequeued.1.visited with
        | some place => add s.left place (dequeued.1.expired ++ dequeued.1.request.toList)
        | none => s.left }

def run (queues : NotificationQueue ρ) (opts : RoundRobinRequestPileOptions ρ)
    (requestExpirationDelegate : Bool) (es : List (Event ρ)) : Recorded queues :=
  es.foldl step ⟨make queues opts requestExpirationDelegate, fun _ => [], fun _ => []⟩

/-- The buckets that are visited, one after the other. -/
def visits (s : Recorded queues) : List (Event ρ) → List (Nat × Nat)
  | [] => []
  | .enqueue request :: es => visits (s.step (.enqueue request)) es
  | .dequeue expired :: es =>
    (s.pile.dequeue expired).1.visited.toList ++ visits (s.step (.dequeue expired)) es

/-- What holds of a pile at all times, whatever its limits. -/
structure Kept (opts : RoundRobinRequestPileOptions ρ) (s : Recorded queues) : Prop where
  options : s.pile.opts = opts
  levels : ∀ i, (s.pile.level i).Kept (opts.getNumMaxRequestsForPriority i)
  shape : ∀ i, (s.pile.level i).Single ↔ opts.numBuckets i = 1
  conserved : ∀ place, s.accepted place = s.left place ++ s.pile.held place

variable {s : Recorded queues}

theorem Kept.readsOne (kept : s.Kept opts) : s.pile.ReadsOne := by
  intro i index some b
  have level := kept.levels i
  rw [level_some some] at level
  exact (level b).readsOne

theorem kept_make (queues : NotificationQueue ρ) (opts : RoundRobinRequestPileOptions ρ)
    (delegate : Bool) :
    (⟨make queues opts delegate, fun _ => [], fun _ => []⟩ : Recorded queues).Kept opts := by
  have bucket :
      queues.view (queues.arm (queues.setMaxReadAtOnce 1 queues.new)).2 = ⟨[], true, 1⟩ := by
    rw [queues.view_arm, queues.view_setMaxReadAtOnce, View.arm, queues.elems_new]
    rfl
  have level (i : Nat) : (make queues opts delegate).level i = if opts.numBuckets i = 1 then
        .single ⟨[], (opts.getNumMaxRequestsForPriority i).toUInt64, 0⟩
      else .several [] fun _ => ⟨[], true, 1⟩ := by
    rw [RoundRobinRequestPile.level, make]
    dsimp only
    rw [bucket]
    split
    · rename_i none
      split at none
      · rename_i one
        rw [if_pos one]
      · cases none
    · rename_i index some
      split at some
      · cases some
      · rename_i several
        cases some
        rw [if_neg several]
  refine ⟨rfl, fun i => ?_, fun i => ?_, fun place => ?_⟩
  · dsimp only
    rw [level]
    split
    · exact ⟨rfl, fun _ => ⟨rfl, Nat.zero_le _⟩⟩
    · exact fun b => ⟨rfl, rfl, rfl, fun _ => Nat.zero_le _⟩
  · dsimp only
    rw [level]
    split
    · rename_i one
      exact ⟨fun _ => one, fun _ => trivial⟩
    · rename_i several
      exact ⟨False.elim, several⟩
  · dsimp only [held]
    rw [level]
    split
    · exact (ite_self _).symm
    · rfl

/-! ### A step -/

theorem held_eq_of_level {pile' : RoundRobinRequestPile queues}
    (same : pile'.level = pile.level) : pile'.held = pile.held := by
  funext place
  rw [held, same, held]

/-- A request is rejected, and no level changes, or it goes to the end of its bucket. -/
theorem Kept.enqueue_cases (kept : s.Kept opts) (valid : opts.Valid) (request : ρ) :
    ((s.pile.enqueue request).1 ≠ none ∧ (s.pile.enqueue request).2.level = s.pile.level) ∨
      ((s.pile.enqueue request).1 = none ∧
        (s.pile.enqueue request).2.held = add s.pile.held (opts.select request) [request]) := by
  cases passes : s.pile.opts.filter request with
  | some rejection =>
    refine .inl ?_
    rw [enqueue, passes]
    exact ⟨nofun, rfl⟩
  | none =>
    obtain ⟨rejection, level⟩ := enqueue_level passes
    rw [kept.options] at rejection level
    have inRange : (s.pile.level (opts.select request).1).Single → (opts.select request).2 = 0 := by
      intro single
      have below := (valid.selected request).2
      rw [(kept.shape _).mp single] at below
      exact Nat.lt_one_iff.mp below
    cases entered : ((s.pile.level (opts.select request).1).enqueue
        (opts.getNumMaxRequestsForPriority (opts.select request).1) request
        (opts.select request).2).1 with
    | false =>
      rw [entered] at rejection
      rw [Level.enqueue_rejected entered, Function.update_eq_self] at level
      exact .inl ⟨rejection ▸ nofun, level⟩
    | true =>
      rw [entered] at rejection
      refine .inr ⟨rejection, ?_⟩
      have after := Level.held_enqueue entered inRange
      funext ⟨i, b⟩
      rw [held, level]
      by_cases pri : i = (opts.select request).1
      · dsimp only
        rw [pri, Function.update_self, after]
        by_cases bucket : b = (opts.select request).2
        · rw [bucket, Function.update_self, add, Prod.mk.eta, Function.update_self]
          rfl
        · rw [Function.update_of_ne bucket, add, Function.update_of_ne]
          · rfl
          · exact fun same => bucket (congrArg Prod.snd same)
      · dsimp only
        rw [Function.update_of_ne pri, add, Function.update_of_ne]
        · rfl
        · exact fun same => pri (congrArg Prod.fst same)

theorem Kept.outcome (kept : s.Kept opts) (expired : ρ → Bool) :
    Outcome s.pile (Consumer.handle s.pile.requestExpirationDelegate expired)
      (List.range opts.numPriorities) (s.pile.dequeue expired) := by
  rw [dequeue, kept.options]
  exact dequeueFrom_outcome kept.readsOne expired _

theorem Kept.step (kept : s.Kept opts) (valid : opts.Valid) (e : Event ρ) :
    (s.step e).Kept opts := by
  cases e with
  | enqueue request =>
    have options : (s.step (.enqueue request)).pile.opts = opts :=
      (opts_enqueue request).trans kept.options
    have conserved : ∀ place, (s.step (.enqueue request)).accepted place =
        s.left place ++ (s.step (.enqueue request)).pile.held place := by
      intro place
      dsimp only [Recorded.step]
      rcases kept.enqueue_cases valid request with ⟨rejected, same⟩ | ⟨accepted, after⟩
      · rw [if_neg rejected, held_eq_of_level same]
        exact kept.conserved place
      · rw [if_pos accepted, after, kept.options, add, add]
        by_cases here : place = opts.select request
        · rw [here, Function.update_self, Function.update_self, kept.conserved, List.append_assoc]
        · rw [Function.update_of_ne here, Function.update_of_ne here, kept.conserved]
    cases passes : s.pile.opts.filter request with
    | some rejection =>
      have same : (s.step (.enqueue request)).pile.level = s.pile.level := by
        dsimp only [Recorded.step]
        rw [enqueue, passes]
      exact ⟨options, fun i => same ▸ kept.levels i, fun i => same ▸ kept.shape i, conserved⟩
    | none =>
      have level : (s.step (.enqueue request)).pile.level = _ := (enqueue_level passes).2
      rw [kept.options] at level
      refine ⟨options, ?_, ?_, conserved⟩
      · rw [level]
        exact (Function.forall_update_iff _ fun i (l : Level ρ) =>
          l.Kept (opts.getNumMaxRequestsForPriority i)).mpr
            ⟨(kept.levels _).enqueue, fun i _ => kept.levels i⟩
      · rw [level]
        exact (Function.forall_update_iff _ fun i (l : Level ρ) =>
          l.Single ↔ opts.numBuckets i = 1).mpr
            ⟨Level.single_enqueue.trans (kept.shape _), fun i _ => kept.shape i⟩
  | dequeue expired =>
    have outcome := kept.outcome expired
    dsimp only [Recorded.step]
    generalize s.pile.dequeue expired = dequeued at outcome ⊢
    cases outcome with
    | nothing idle => exact kept
    | visit before after i v c l' pile' split idle taken changed options =>
      refine ⟨options.trans kept.options, ?_, ?_, fun place => ?_⟩
      · dsimp only
        rw [changed]
        exact (Function.forall_update_iff _ fun i (l : Level ρ) =>
          l.Kept (opts.getNumMaxRequestsForPriority i)).mpr
            ⟨(kept.levels i).take taken, fun j _ => kept.levels j⟩
      · dsimp only
        rw [changed]
        exact (Function.forall_update_iff _ fun i (l : Level ρ) =>
          l.Single ↔ opts.numBuckets i = 1).mpr
            ⟨(Level.single_take taken).trans (kept.shape i), fun j _ => kept.shape j⟩
      · obtain ⟨first, others⟩ := Level.held_of_take taken
        dsimp only
        rw [kept.conserved, add, held, held, changed]
        obtain ⟨j, b⟩ := place
        by_cases here : j = i
        · subst here
          dsimp only
          rw [Function.update_self]
          by_cases bucket : b = v
          · rw [bucket, Function.update_self, first]
            simp only [List.append_assoc]
          · rw [others b bucket, Function.update_of_ne]
            exact fun same => bucket (congrArg Prod.snd same)
        · dsimp only
          rw [Function.update_of_ne here, Function.update_of_ne]
          exact fun same => here (congrArg Prod.fst same)

theorem Kept.foldl (kept : s.Kept opts) (valid : opts.Valid) (es : List (Event ρ)) :
    (es.foldl Recorded.step s).Kept opts := by
  induction es generalizing s with
  | nil => exact kept
  | cons e es ih => exact ih (kept.step valid e)

/-! ### Turns -/

theorem Kept.visited_before (kept : s.Kept opts) (valid : opts.Valid) {es : List (Event ρ)}
    {before after : List (Nat × Nat)} (ahead : (s.pile.level i).Ahead b' b) (other : b' ≠ b)
    (split : s.visits es = before ++ (i, b) :: after) : (i, b') ∈ before := by
  induction es generalizing s before with
  | nil => exact absurd split.symm (by simp [visits])
  | cons e es ih =>
    have next := kept.step valid e
    cases e with
    | enqueue request =>
      refine ih next ?_ split
      cases passes : s.pile.opts.filter request with
      | some rejection =>
        dsimp only [Recorded.step]
        rwa [enqueue, passes]
      | none =>
        dsimp only [Recorded.step]
        rw [(enqueue_level passes).2]
        by_cases here : i = (s.pile.opts.select request).1
        · subst here
          rw [Function.update_self]
          exact ahead.enqueue request _
        · rwa [Function.update_of_ne here]
    | dequeue expired =>
      have outcome := kept.outcome expired
      rw [visits] at split
      dsimp only [Recorded.step] at ih next split
      generalize s.pile.dequeue expired = dequeued at outcome ih next split
      cases outcome with
      | nothing idle => exact ih next ahead split
      | visit first rest j v c l' pile' at_j idle taken changed options =>
        cases before with
        | nil =>
          obtain ⟨visited, -⟩ := List.cons.inj split
          cases visited
          rcases ahead.take taken with same | ⟨different, -⟩
          · exact absurd same.symm other
          · exact absurd rfl different
        | cons place before =>
          obtain ⟨visited, later⟩ := List.cons.inj split
          subst visited
          by_cases here : j = i
          · subst here
            rcases ahead.take taken with same | ⟨-, stays⟩
            · exact same ▸ List.mem_cons_self
            · refine List.mem_cons_of_mem _ (ih next ?_ later)
              dsimp only
              rwa [changed, Function.update_self]
          · refine List.mem_cons_of_mem _ (ih next ?_ later)
            dsimp only
            rwa [changed, Function.update_of_ne (Ne.symm here)]

/-! ### The number of requests -/

theorem sum_ofNat (lengths : List Nat) :
    (lengths.map UInt64.ofNat).sum = UInt64.ofNat lengths.sum := by
  induction lengths with
  | nil => rfl
  | cons n lengths ih =>
    rw [List.map_cons, List.sum_cons, List.sum_cons, ih, UInt64.ofNat_add]

/-- The number of requests in the buckets of a priority. -/
def queuedAt (pile : RoundRobinRequestPile queues) (i : Nat) : Nat :=
  ((List.range (pile.opts.numBuckets i)).map fun b => (pile.held (i, b)).length).sum

/-- The number of requests in the buckets of all priorities. -/
def queued (pile : RoundRobinRequestPile queues) : Nat :=
  ((List.range pile.opts.numPriorities).map (queuedAt pile)).sum

theorem Kept.countOf_eq (kept : s.Kept opts) (i : Nat) :
    s.pile.countOf i = UInt64.ofNat (queuedAt s.pile i) := by
  rw [countOf, queuedAt]
  cases index : s.pile.retrievalIndexQueues i with
  | none =>
    have level := level_none index
    have one : opts.numBuckets i = 1 := (kept.shape i).mp (level ▸ trivial)
    rw [kept.options, one]
    dsimp only
    rw [List.range_one, List.map_singleton, List.sum_singleton, held, level]
    rfl
  | some index' =>
    have level := level_some index
    cases index' with
    | nil =>
      have empty (b : Nat) : (s.pile.held (i, b)).length = 0 := by
        have none : (s.pile.level i).take (Consumer.handle true fun _ : ρ => true) = none := by
          rw [level, Level.take]
        rw [held, Level.held_of_take_none (kept.levels i) none, List.length_nil]
      dsimp only
      rw [List.sum_eq_zero]
      · rfl
      · intro n mem
        obtain ⟨b, -, rfl⟩ := List.mem_map.mp mem
        exact empty b
    | cons bucket index' =>
      dsimp only
      rw [← sum_ofNat, List.map_map]
      refine congrArg List.sum (List.map_congr_left fun b _ => ?_)
      rw [Function.comp, held, level]
      rfl

theorem Kept.requestCount_eq (kept : s.Kept opts) :
    s.pile.requestCount = UInt64.ofNat (queued s.pile) := by
  rw [requestCount, queued, ← sum_ofNat, List.map_map]
  exact congrArg List.sum (List.map_congr_left fun i _ => kept.countOf_eq i)

/-! ### Priorities -/

theorem mem_before {n j : Nat} {before after : List Nat}
    (split : List.range n = before ++ i :: after) (less : j < i) : j ∈ before := by
  have sorted : (before ++ i :: after).Pairwise (· < ·) := split ▸ List.pairwise_lt_range
  have inRange : i < n := List.mem_range.mp (split ▸ List.mem_append_right _ List.mem_cons_self)
  have mem : j ∈ before ++ i :: after := split ▸ List.mem_range.mpr (less.trans inRange)
  rcases List.mem_append.mp mem with first | later
  · exact first
  · rcases List.mem_cons.mp later with same | later
    · exact absurd same less.ne
    · have above := List.rel_of_pairwise_cons (List.pairwise_append.mp sorted).2.1 later
      exact absurd above less.asymm

/-- A request that is returned was in the bucket that was visited, and no bucket of a higher
priority held one. -/
theorem Kept.prioritised (kept : s.Kept opts) {expired : ρ → Bool} {request : ρ}
    (returned : (s.pile.dequeue expired).1.request = some request) :
    ∃ place, (s.pile.dequeue expired).1.visited = some place ∧ request ∈ s.pile.held place ∧
      ∀ i < place.1, ∀ b, s.pile.held (i, b) = [] := by
  have outcome := kept.outcome expired
  generalize s.pile.dequeue expired = dequeued at outcome returned ⊢
  cases outcome with
  | nothing idle => cases returned
  | visit before after i v c l' pile' split idle taken changed options =>
    refine ⟨(i, v), rfl, ?_, fun j less b => ?_⟩
    · have first := (Level.held_of_take taken).1
      dsimp only at returned
      rw [held, first, returned]
      simp
    · exact Level.held_of_take_none (kept.levels j) (idle j (mem_before split less)) b

/-! ### Limits -/

theorem accepted_eq_nil (kept : s.Kept opts) (valid : opts.Valid)
    (closed : ∀ request, opts.filter request ≠ none) (none : s.accepted = fun _ => [])
    (es : List (Event ρ)) : (es.foldl step s).accepted = fun _ => [] := by
  induction es generalizing s with
  | nil => exact none
  | cons e es ih =>
    refine ih (kept.step valid e) ?_
    cases e with
    | enqueue request =>
      have rejected : (s.pile.enqueue request).1 ≠ Option.none := by
        obtain ⟨rejection, stopped⟩ := Option.ne_none_iff_exists'.mp (closed request)
        rw [enqueue, kept.options, stopped]
        exact nofun
      dsimp only [step]
      rw [if_neg rejected, none]
    | dequeue expired => exact none

theorem length_held_replicate (kept : s.Kept opts) (valid : opts.Valid) {request : ρ}
    (passes : opts.filter request = none)
    (unlimited : opts.getNumMaxRequestsForPriority (opts.select request).1 = 0) (n : Nat) :
    (((List.replicate n (.enqueue request)).foldl step s).pile.held
      (opts.select request)).length = (s.pile.held (opts.select request)).length + n := by
  induction n generalizing s with
  | zero => rfl
  | succ n ih =>
    have level := kept.levels (opts.select request).1
    rw [unlimited] at level
    have accepted : (s.pile.enqueue request).1 = none := by
      rw [(enqueue_level (kept.options ▸ passes)).1, kept.options, unlimited,
        Level.enqueue_unlimited level]
      rfl
    have after : (s.step (.enqueue request)).pile.held =
        add s.pile.held (opts.select request) [request] := by
      rcases kept.enqueue_cases valid request with ⟨rejected, _⟩ | ⟨_, after⟩
      · exact absurd accepted rejected
      · exact after
    rw [List.replicate_succ, List.foldl_cons, ih (kept.step valid _), after, add,
      Function.update_self, List.length_append, List.length_singleton]
    omega

end Recorded

end RoundRobinRequestPile

namespace RoundRobinRequestPileOptions

variable (opts : RoundRobinRequestPileOptions ρ)

/-- The limit that the options set for the buckets of a priority; 0 is none. -/
def limit (i : Nat) : Nat :=
  if opts.numMaxRequestsPerPriority = [] then opts.numMaxRequests.toNat
  else (opts.numMaxRequestsPerPriority.getD i 0).toNat

/-- The limit of all priorities, if it is the one that is used, is 0 or no multiple of `2 ^ 32`;
or no request passes the filter. -/
def LimitsFit : Prop :=
  opts.numMaxRequestsPerPriority = [] → opts.numMaxRequests ≠ 0 →
    opts.numMaxRequests.toNat % 2 ^ 32 = 0 → ∀ request, opts.filter request ≠ none

variable {opts}

theorem getNumMaxRequestsForPriority_le (i : Nat) :
    (opts.getNumMaxRequestsForPriority i).toNat ≤ opts.limit i := by
  rw [getNumMaxRequestsForPriority, limit]
  cases limits : opts.numMaxRequestsPerPriority with
  | nil =>
    rw [if_neg (by simp), if_pos rfl, UInt64.toNat_toUInt32]
    exact Nat.mod_le ..
  | cons first limits => rw [if_pos (by simp), if_neg nofun]

/-- The pile reads none where there is one only if the limit is a multiple of `2 ^ 32`. -/
theorem wraps_of_eq_zero {i : Nat} (read : opts.getNumMaxRequestsForPriority i = 0)
    (limited : opts.limit i ≠ 0) :
    opts.numMaxRequestsPerPriority = [] ∧ opts.numMaxRequests ≠ 0 ∧
      opts.numMaxRequests.toNat % 2 ^ 32 = 0 := by
  rw [getNumMaxRequestsForPriority] at read
  rw [limit] at limited
  cases limits : opts.numMaxRequestsPerPriority with
  | nil =>
    rw [limits, if_neg (by simp)] at read
    rw [limits, if_pos rfl] at limited
    refine ⟨rfl, fun zero => limited (zero ▸ rfl), ?_⟩
    rw [← UInt64.toNat_toUInt32, read]
    rfl
  | cons first others =>
    rw [limits, if_pos (by simp)] at read
    rw [limits, if_neg nofun, read] at limited
    exact absurd rfl limited

end RoundRobinRequestPileOptions

namespace RoundRobinRequestPile

variable {queues : NotificationQueue ρ} {opts : RoundRobinRequestPileOptions ρ}

/-! ## Soundness -/

/-- What a pile promises of a state. -/
structure Recorded.Sound (s : Recorded queues) : Prop where
  /-- A bucket stands in the index queue once if it has something, and else not. -/
  indexed : ∀ i index, s.pile.retrievalIndexQueues i = some index →
    ∀ b, index.count b = if (s.pile.held (i, b)).isEmpty then 0 else 1
  /-- The requests that a bucket accepted are those that have left it, then those in it. -/
  conserved : ∀ place, s.accepted place = s.left place ++ s.pile.held place
  /-- A request is returned only when no higher priority holds one. -/
  prioritised : ∀ expired request, (s.pile.dequeue expired).1.request = some request →
    ∃ place, (s.pile.dequeue expired).1.visited = some place ∧ request ∈ s.pile.held place ∧
      ∀ i < place.1, ∀ b, s.pile.held (i, b) = []
  /-- Before a bucket is visited again, all others of its priority are that had something. -/
  fair : ∀ expired i b, (s.pile.dequeue expired).1.visited = some (i, b) →
    ∀ es before after, (s.step (.dequeue expired)).visits es = before ++ (i, b) :: after →
      ∀ b', b' ≠ b → s.pile.held (i, b') ≠ [] → (i, b') ∈ before
  limited : ∀ i b, s.pile.opts.limit i ≠ 0 → (s.pile.held (i, b)).length ≤ s.pile.opts.limit i
  counted : s.pile.requestCount = UInt64.ofNat (Recorded.queued s.pile)

namespace Recorded

variable {s : Recorded queues}

theorem Kept.sound (kept : s.Kept opts) (valid : opts.Valid)
    (limited : ∀ i b, opts.limit i ≠ 0 → (s.pile.held (i, b)).length ≤ opts.limit i) :
    s.Sound where
  indexed i index some b := by
    have level := kept.levels i
    rw [level_some some] at level
    rw [held, level_some some]
    exact (level b).indexed
  conserved := kept.conserved
  prioritised _ _ returned := kept.prioritised returned
  fair expired i b visited es before after split b' other nonempty := by
    refine (kept.step valid (.dequeue expired)).visited_before valid ?_ other split
    have outcome := kept.outcome expired
    dsimp only [Recorded.step]
    generalize s.pile.dequeue expired = dequeued at outcome visited ⊢
    cases outcome with
    | nothing idle => cases visited
    | visit first rest j v c l' pile' split idle taken changed options =>
      cases visited
      rw [changed, Function.update_self]
      exact Level.ahead_of_take (kept.levels i) taken other nonempty
  limited i b := by
    rw [kept.options]
    exact limited i b
  counted := kept.requestCount_eq

theorem run_kept (queues : NotificationQueue ρ) (valid : opts.Valid) (delegate : Bool)
    (es : List (Event ρ)) : (run queues opts delegate es).Kept opts :=
  (kept_make queues opts delegate).foldl valid es

theorem run_limited (queues : NotificationQueue ρ) (valid : opts.Valid) (fit : opts.LimitsFit)
    (delegate : Bool) (es : List (Event ρ)) (i b : Nat) (limited : opts.limit i ≠ 0) :
    ((run queues opts delegate es).pile.held (i, b)).length ≤ opts.limit i := by
  have kept := run_kept queues valid delegate es
  by_cases read : opts.getNumMaxRequestsForPriority i = 0
  · obtain ⟨all, some, wraps⟩ := RoundRobinRequestPileOptions.wraps_of_eq_zero read limited
    have closed := fit all some wraps
    have nothing := kept.conserved (i, b)
    rw [run, accepted_eq_nil (kept_make queues opts delegate) valid closed rfl] at nothing
    have empty := (List.append_eq_nil_iff.mp nothing.symm).2
    rw [run, empty]
    exact Nat.zero_le _
  · exact ((kept.levels i).length_held_le read b).trans
      (RoundRobinRequestPileOptions.getNumMaxRequestsForPriority_le i)

/-- A request that passes the filter passes every limit that is a multiple of `2 ^ 32`. -/
theorem run_exceeds (queues : NotificationQueue ρ) (valid : opts.Valid) (delegate : Bool)
    (request : ρ) (all : opts.numMaxRequestsPerPriority = [])
    (wraps : opts.numMaxRequests.toNat % 2 ^ 32 = 0) (passes : opts.filter request = none)
    (n : Nat) :
    ((run queues opts delegate (List.replicate n (.enqueue request))).pile.held
      (opts.select request)).length = n := by
  have kept := kept_make queues opts delegate
  have unlimited : opts.getNumMaxRequestsForPriority (opts.select request).1 = 0 := by
    rw [RoundRobinRequestPileOptions.getNumMaxRequestsForPriority, all, if_neg (by simp),
      ← UInt32.toNat_inj, UInt64.toNat_toUInt32, wraps]
    rfl
  have empty := (List.append_eq_nil_iff.mp (kept.conserved (opts.select request)).symm).2
  rw [run, length_held_replicate kept valid passes unlimited, empty]
  exact Nat.zero_add n

end Recorded

/-- A pile keeps its promises in every run if and only if its limits fit. -/
theorem sound_iff_limitsFit (queues : NotificationQueue ρ) (opts : RoundRobinRequestPileOptions ρ)
    (valid : opts.Valid) (requestExpirationDelegate : Bool) :
    (∀ es, (Recorded.run queues opts requestExpirationDelegate es).Sound) ↔ opts.LimitsFit := by
  constructor
  · intro sound all limited wraps request passes
    have passed := Recorded.run_exceeds queues valid requestExpirationDelegate request all
      wraps passes (opts.numMaxRequests.toNat + 1)
    have kept := Recorded.run_kept queues valid requestExpirationDelegate
      (List.replicate (opts.numMaxRequests.toNat + 1) (.enqueue request))
    have limit : opts.limit (opts.select request).1 = opts.numMaxRequests.toNat := by
      rw [RoundRobinRequestPileOptions.limit, if_pos all]
    have below := (sound (List.replicate (opts.numMaxRequests.toNat + 1)
      (.enqueue request))).limited (opts.select request).1 (opts.select request).2
    rw [kept.options, limit, Prod.mk.eta, passed] at below
    exact absurd (below fun zero => limited (UInt64.toNat_inj.mp zero)) (Nat.not_succ_le_self _)
  · intro fit es
    exact (Recorded.run_kept queues valid requestExpirationDelegate es).sound valid
      (Recorded.run_limited queues valid fit requestExpirationDelegate es)

/-- Two buckets of at most five requests each. -/
def twoBuckets : RoundRobinRequestPileOptions Nat where
  numBucketsPerPriority := [2]
  numMaxRequests := 5
  pileSelectionFunction := some fun request => (0, if request % 2 = 0 then 0 else 1)

theorem valid_twoBuckets : twoBuckets.Valid where
  limits := .inl rfl
  buckets := by decide
  selected request := by
    rw [RoundRobinRequestPileOptions.select]
    dsimp only [twoBuckets]
    split <;> decide

theorem sound_iff_limitsFit_twoBuckets :
    (∀ es, (Recorded.run (.ofView Nat) twoBuckets true es).Sound) ↔ twoBuckets.LimitsFit :=
  sound_iff_limitsFit (.ofView Nat) twoBuckets valid_twoBuckets true

/-- Two buckets of at most `2 ^ 32` requests each. -/
def largeBuckets : RoundRobinRequestPileOptions Nat where
  numBucketsPerPriority := [2]
  numMaxRequests := 2 ^ 32

theorem valid_largeBuckets : largeBuckets.Valid where
  limits := .inl rfl
  buckets := by decide
  selected _ := show 0 < 1 ∧ 0 < 2 by decide

/-- A bucket with a limit of `2 ^ 32` takes one request more. -/
theorem not_sound_largeBuckets : ¬ (Recorded.run (.ofView Nat) largeBuckets false
      (List.replicate (2 ^ 32 + 1) (.enqueue 0))).Sound := by
  intro sound
  have passed := Recorded.run_exceeds (.ofView Nat) valid_largeBuckets false 0 rfl
    (by decide) rfl (2 ^ 32 + 1)
  have kept := Recorded.run_kept (.ofView Nat) valid_largeBuckets false
    (List.replicate (2 ^ 32 + 1) (.enqueue 0))
  have limit : largeBuckets.limit 0 = 2 ^ 32 := by decide
  have below := sound.limited 0 0
  rw [kept.options, limit] at below
  have taken := below (by decide)
  rw [show ((0 : Nat), (0 : Nat)) = largeBuckets.select 0 from rfl, passed] at taken
  exact absurd taken (Nat.not_succ_le_self _)

end RoundRobinRequestPile

end FbThrift
