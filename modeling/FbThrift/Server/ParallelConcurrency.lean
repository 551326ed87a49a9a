import FbThrift.Lib.Run
import FbThrift.Lib.ThreadPool
import FbThrift.Server.RequestPile

/-!
# ParallelConcurrencyController

Requests are put into a pile and then announced with `onEnqueued`.  The controller keeps two
counters in one atomic word, the requests in execution and the dequeue calls that are still to
be made, and schedules a task on the executor when both a request and an execution ticket are
there.  A thread takes one atomic step at a time: a load or a compare-exchange of the counters,
a load of the limit, or an operation on the pile.
-/

namespace FbThrift

/-! ## The controller -/

namespace ParallelConcurrencyController

open RequestPile

structure Counters where
  requestInExecution : UInt32
  pendingDequeCalls : UInt32
  deriving DecidableEq, Repr

/-- What the threads share, with the largest limit that was read. -/
structure Shared (ρ : Type) where
  counters : Counters
  executionLimit : UInt64
  pile : List ρ
  largestLimitRead : Nat
  deriving DecidableEq

/-- The next step of a thread.  A thread of `setExecutionLimitRequests` calls `trySchedule`
`again` while it returns true. -/
inductive Thread (ρ : Type) where
  /-- In `trySchedule`, about to load the counters. -/
  | trySchedule (onEnqueued again : Bool)
  /-- In `trySchedule`, about to load the limit. -/
  | loadLimit (onEnqueued again : Bool) (countersOld : Counters)
  /-- In `trySchedule`, about to exchange the counters or to return false. -/
  | exchange (onEnqueued again : Bool) (countersOld : Counters) (currentLimit : UInt64)
  /-- A task that is scheduled, or in `pile_.dequeue`. -/
  | task
  /-- In `processExpiredRequest`, called by `pile_.dequeue`, about to load the counters. -/
  | expire (request : ρ)
  /-- In `processExpiredRequest`, about to exchange the counters. -/
  | exchangeExpired (request : ρ) (countersOld : Counters)
  /-- A request is executed, or released because it has expired meanwhile. -/
  | execute (request : ρ)
  /-- In `onExecuteFinish`, about to load the counters. -/
  | finish (dequeueSuccess : Bool)
  /-- In `onExecuteFinish`, about to exchange the counters. -/
  | exchangeFinished (dequeueSuccess : Bool) (countersOld : Counters)
  deriving DecidableEq

variable {ρ : Type}

/-- `compare_exchange_weak`: it may fail though the counters are the expected ones. -/
def compareExchange (s : Shared ρ) (succeeds : Bool) (expected desired : Counters) :
    Option (Shared ρ) :=
  if s.counters = expected ∧ succeeds then some { s with counters := desired } else none

/-- The counters as `trySchedule` expects them, with the request that is announced. -/
def announced (onEnqueued : Bool) (countersOld : Counters) : Counters :=
  if onEnqueued then
    { countersOld with pendingDequeCalls := countersOld.pendingDequeCalls + 1 }
  else countersOld

/-- The step of `trySchedule` after both loads. -/
def exchange (s : Shared ρ) (succeeds onEnqueued again : Bool) (countersOld : Counters)
    (currentLimit : UInt64) : Shared ρ × List (Thread ρ) :=
  let counters := announced onEnqueued countersOld
  if counters.pendingDequeCalls ≠ 0 ∧ counters.requestInExecution.toNat < currentLimit.toNat then
    match compareExchange s succeeds countersOld
        ⟨counters.requestInExecution + 1, counters.pendingDequeCalls - 1⟩ with
    -- scheduleOnExecutor, and the loop of setExecutionLimitRequests goes on
    | some s => (s, .task :: if again then [.trySchedule false true] else [])
    | none => (s, [.trySchedule onEnqueued again])
  else if onEnqueued then
    match compareExchange s succeeds countersOld counters with
    | some s => (s, [])
    | none => (s, [.trySchedule onEnqueued again])
  else (s, [])

/-- The counters after `onExecuteFinish`; an empty dequeue gives its call back. -/
def afterExecution (dequeueSuccess : Bool) (countersOld : Counters) : Counters :=
  ⟨countersOld.requestInExecution - 1,
    countersOld.pendingDequeCalls + if dequeueSuccess then 0 else 1⟩

/-- The next step of a thread outside the pile. -/
def Thread.advance (s : Shared ρ) (succeeds : Bool) : Thread ρ → Shared ρ × List (Thread ρ)
  | .trySchedule onEnqueued again => (s, [.loadLimit onEnqueued again s.counters])
  | .loadLimit onEnqueued again countersOld =>
    ({ s with largestLimitRead := max s.largestLimitRead s.executionLimit.toNat },
      [.exchange onEnqueued again countersOld s.executionLimit])
  | .exchange onEnqueued again countersOld currentLimit =>
    ParallelConcurrencyController.exchange s succeeds onEnqueued again countersOld currentLimit
  | .task => (s, [.task])
  | .expire request => (s, [.exchangeExpired request s.counters])
  | .exchangeExpired request countersOld =>
    match compareExchange s succeeds countersOld
        { countersOld with pendingDequeCalls := countersOld.pendingDequeCalls - 1 } with
    | some s => (s, [.task])
    | none => (s, [.expire request])
  | .execute _ => (s, [.finish true])
  | .finish dequeueSuccess => (s, [.exchangeFinished dequeueSuccess s.counters])
  | .exchangeFinished dequeueSuccess countersOld =>
    match compareExchange s succeeds countersOld (afterExecution dequeueSuccess countersOld) with
    | some s => (s, [.trySchedule false false])
    | none => (s, [.finish dequeueSuccess])

/-- A step of `pile_.dequeue`. -/
def dequeue (s : Shared ρ) : Found → Shared ρ × List (Thread ρ)
  | .expired k => ({ s with pile := s.pile.eraseIdx k }, (s.pile[k]?.map .expire).toList)
  | .live k => ({ s with pile := s.pile.eraseIdx k }, (s.pile[k]?.map .execute).toList)
  | .nothing => (s, [.finish false])

abbrev State (ρ : Type) := ThreadPool (Shared ρ) (Thread ρ)

inductive Event (ρ : Type) where
  /-- `acceptAsync` has put a request into the pile. -/
  | accept (request : ρ)
  | setExecutionLimitRequests (limit : UInt64)
  | advance (i : Nat) (succeeds : Bool)
  | dequeue (i : Nat) (found : Found)
  deriving DecidableEq

namespace State

def initial (ρ : Type) : State ρ := ⟨⟨⟨0, 0⟩, UInt64.ofNat (2 ^ 64 - 1), [], 0⟩, []⟩

def step (s : State ρ) : Event ρ → State ρ
  | .accept request =>
    s.start { s.shared with pile := s.shared.pile ++ [request] } (.trySchedule true false)
  | .setExecutionLimitRequests limit =>
    s.start { s.shared with executionLimit := limit } (.trySchedule false true)
  | .advance i succeeds =>
    match s.threads[i]? with
    | some t => s.replace i (t.advance s.shared succeeds).1 (t.advance s.shared succeeds).2
    | none => s
  | .dequeue i found =>
    match s.threads[i]? with
    | some .task => s.replace i (dequeue s.shared found).1 (dequeue s.shared found).2
    | _ => s

/-- The events that can happen: limits are at least 1, and threads and requests are there. -/
def Allowed (s : State ρ) : Event ρ → Prop
  | .accept _ => True
  | .setExecutionLimitRequests limit => 1 ≤ limit
  | .advance i _ => i < s.threads.length
  | .dequeue i found => s.threads[i]? = some .task ∧ found.There s.shared.pile

instance (s : State ρ) : ∀ e, Decidable (s.Allowed e)
  | .accept _ => inferInstanceAs (Decidable True)
  | .setExecutionLimitRequests limit => inferInstanceAs (Decidable (1 ≤ limit))
  | .advance i _ => inferInstanceAs (Decidable (i < s.threads.length))
  | .dequeue i found =>
    have : Decidable (s.threads[i]? = some .task) :=
      match s.threads[i]? with
      | some .task => isTrue rfl
      | none => isFalse nofun
      | some (.trySchedule _ _) | some (.loadLimit _ _ _) | some (.exchange _ _ _ _)
      | some (.expire _) | some (.exchangeExpired _ _) | some (.execute _)
      | some (.finish _) | some (.exchangeFinished _ _) => isFalse nofun
    inferInstanceAs (Decidable (_ ∧ found.There s.shared.pile))

end State

/-! ## What the threads hold -/

namespace Thread

/-- An execution ticket. -/
@[simp] def executing : Thread ρ → Int
  | task | expire _ | exchangeExpired _ _ | execute _ | finish _ | exchangeFinished _ _ => 1
  | _ => 0

/-- A dequeue call that was taken from the counter and has not got its request. -/
@[simp] def dequeuing : Thread ρ → Int
  | task | expire _ | exchangeExpired _ _ | finish false | exchangeFinished false _ => 1
  | _ => 0

/-- A request that is enqueued and not yet announced. -/
@[simp] def announcing : Thread ρ → Int
  | trySchedule true _ | loadLimit true _ _ | exchange true _ _ _ => 1
  | _ => 0

/-- A request that was found expired and is still counted. -/
@[simp] def expiring : Thread ρ → Int
  | expire _ | exchangeExpired _ _ => 1
  | _ => 0

end Thread

namespace State

/-- The requests that are enqueued and not yet dequeued. -/
def queued (s : State ρ) : Int := s.shared.pile.length + s.total Thread.expiring

/-- The dequeue calls that are still to be made: the queued requests without those that are
not yet announced and without those that a scheduled task will dequeue. -/
def callsLeft (s : State ρ) : Int :=
  s.queued - s.total Thread.announcing - s.total Thread.dequeuing

end State

/-- An exchange of these counters takes the counter of dequeue calls below zero, for a request
that was found expired, or adds to the largest value that it can have. -/
def Thread.Wraps (counters : Counters) : Thread ρ → Prop
  | .exchangeExpired _ countersOld =>
    counters = countersOld ∧ countersOld.pendingDequeCalls = 0
  | .exchange true _ countersOld _ | .exchangeFinished false countersOld =>
    counters = countersOld ∧ countersOld.pendingDequeCalls = UInt32.ofNat (2 ^ 32 - 1)
  | _ => False

/-- The event is an exchange that succeeds and wraps. -/
def State.Wraps (s : State ρ) : Event ρ → Prop
  | .advance i true => ∃ t ∈ s.threads[i]?, t.Wraps s.shared.counters
  | _ => False

instance (counters : Counters) : ∀ t : Thread ρ, Decidable (t.Wraps counters)
  | .exchangeExpired _ countersOld =>
    inferInstanceAs (Decidable (counters = countersOld ∧ countersOld.pendingDequeCalls = 0))
  | .exchange true _ countersOld _ | .exchangeFinished false countersOld =>
    inferInstanceAs (Decidable (counters = countersOld ∧
      countersOld.pendingDequeCalls = UInt32.ofNat (2 ^ 32 - 1)))
  | .exchange false _ _ _ | .exchangeFinished true _ | .trySchedule _ _ | .loadLimit _ _ _
  | .task | .expire _ | .execute _ | .finish _ => inferInstanceAs (Decidable False)

instance (s : State ρ) : ∀ e, Decidable (s.Wraps e)
  | .advance i true =>
    inferInstanceAs (Decidable (∃ t ∈ s.threads[i]?, t.Wraps s.shared.counters))
  | .advance _ false | .accept _ | .setExecutionLimitRequests _ | .dequeue _ _ =>
    inferInstanceAs (Decidable False)

/-! ## Steps -/

/-- A step of one thread, where `succeeds` says that an exchange of the expected counters does
not fail. -/
inductive Moves (s : Shared ρ) : Bool → Thread ρ → Shared ρ → List (Thread ρ) → Prop where
  | loads {succeeds : Bool} (onEnqueued again : Bool) :
      Moves s succeeds (.trySchedule onEnqueued again) s [.loadLimit onEnqueued again s.counters]
  | readsLimit {succeeds : Bool} (onEnqueued again : Bool) (countersOld : Counters) :
      Moves s succeeds (.loadLimit onEnqueued again countersOld)
        { s with largestLimitRead := max s.largestLimitRead s.executionLimit.toNat }
        [.exchange onEnqueued again countersOld s.executionLimit]
  | schedules {onEnqueued again : Bool} {limit : UInt64}
      (some : (announced onEnqueued s.counters).pendingDequeCalls ≠ 0)
      (room : s.counters.requestInExecution.toNat < limit.toNat) :
      Moves s true (.exchange onEnqueued again s.counters limit)
        { s with counters := ⟨s.counters.requestInExecution + 1,
            (announced onEnqueued s.counters).pendingDequeCalls - 1⟩ }
        (.task :: if again then [.trySchedule false true] else [])
  | counts {again : Bool} {limit : UInt64}
      (full : s.counters.pendingDequeCalls + 1 = 0 ∨
        limit.toNat ≤ s.counters.requestInExecution.toNat) :
      Moves s true (.exchange true again s.counters limit)
        { s with counters := announced true s.counters } []
  | leaves {succeeds again : Bool} {countersOld : Counters} {limit : UInt64}
      (idle : countersOld.pendingDequeCalls = 0 ∨
        limit.toNat ≤ countersOld.requestInExecution.toNat) :
      Moves s succeeds (.exchange false again countersOld limit) s []
  | retries {succeeds onEnqueued again : Bool} {countersOld : Counters} {limit : UInt64} :
      Moves s succeeds (.exchange onEnqueued again countersOld limit) s
        [.trySchedule onEnqueued again]
  | waits {succeeds : Bool} : Moves s succeeds .task s [.task]
  | expires {succeeds : Bool} (request : ρ) :
      Moves s succeeds (.expire request) s [.exchangeExpired request s.counters]
  | expired (request : ρ) :
      Moves s true (.exchangeExpired request s.counters)
        { s with counters := { s.counters with
            pendingDequeCalls := s.counters.pendingDequeCalls - 1 } } [.task]
  | retriesExpired {succeeds : Bool} {request : ρ} {countersOld : Counters} :
      Moves s succeeds (.exchangeExpired request countersOld) s [.expire request]
  | executes {succeeds : Bool} (request : ρ) :
      Moves s succeeds (.execute request) s [.finish true]
  | finishes {succeeds : Bool} (dequeueSuccess : Bool) :
      Moves s succeeds (.finish dequeueSuccess) s [.exchangeFinished dequeueSuccess s.counters]
  | finished (dequeueSuccess : Bool) :
      Moves s true (.exchangeFinished dequeueSuccess s.counters)
        { s with counters := afterExecution dequeueSuccess s.counters } [.trySchedule false false]
  | retriesFinished {succeeds dequeueSuccess : Bool} {countersOld : Counters} :
      Moves s succeeds (.exchangeFinished dequeueSuccess countersOld) s [.finish dequeueSuccess]
  | discards {succeeds : Bool} {k : Nat} {request : ρ} (here : s.pile[k]? = some request) :
      Moves s succeeds .task { s with pile := s.pile.eraseIdx k } [.expire request]
  | takes {succeeds : Bool} {k : Nat} {request : ρ} (here : s.pile[k]? = some request) :
      Moves s succeeds .task { s with pile := s.pile.eraseIdx k } [.execute request]
  | findsNothing {succeeds : Bool} : Moves s succeeds .task s [.finish false]

theorem compareExchange_cases (s : Shared ρ) (succeeds : Bool) (expected desired : Counters) :
    compareExchange s succeeds expected desired = none ∨ (expected = s.counters ∧ succeeds = true ∧
        compareExchange s succeeds expected desired = some { s with counters := desired }) := by
  unfold compareExchange
  split
  next holds => exact .inr ⟨holds.1.symm, holds.2, rfl⟩
  next => exact .inl rfl

@[simp] theorem announced_requestInExecution (onEnqueued : Bool) (old : Counters) :
    (announced onEnqueued old).requestInExecution = old.requestInExecution := by
  cases onEnqueued <;> rfl

theorem exchange_moves (s : Shared ρ) (succeeds onEnqueued again : Bool) (old : Counters)
    (limit : UInt64) :
    Moves s succeeds (.exchange onEnqueued again old limit)
      (exchange s succeeds onEnqueued again old limit).1
      (exchange s succeeds onEnqueued again old limit).2 := by
  unfold exchange
  simp only [announced_requestInExecution]
  split
  next ready =>
    rcases compareExchange_cases s succeeds old ⟨old.requestInExecution + 1,
        (announced onEnqueued old).pendingDequeCalls - 1⟩ with failed | ⟨rfl, rfl, done⟩
    · rw [failed]
      exact .retries
    · rw [done]
      exact .schedules ready.1 ready.2
  next idle =>
    rw [not_and_or, not_not, Nat.not_lt] at idle
    split
    next enqueued =>
      subst enqueued
      rcases compareExchange_cases s succeeds old (announced true old) with
        failed | ⟨rfl, rfl, done⟩
      · rw [failed]
        exact .retries
      · rw [done]
        exact .counts idle
    next other =>
      obtain rfl : onEnqueued = false := Bool.eq_false_iff.mpr other
      exact .leaves idle

theorem advance_moves (s : Shared ρ) (succeeds : Bool) (t : Thread ρ) :
    Moves s succeeds t (t.advance s succeeds).1 (t.advance s succeeds).2 := by
  cases t with
  | trySchedule onEnqueued again => exact .loads onEnqueued again
  | loadLimit onEnqueued again old => exact .readsLimit onEnqueued again old
  | exchange onEnqueued again old limit =>
    exact exchange_moves s succeeds onEnqueued again old limit
  | task => exact .waits
  | expire request => exact .expires request
  | exchangeExpired request old =>
    simp only [Thread.advance]
    rcases compareExchange_cases s succeeds old
        { old with pendingDequeCalls := old.pendingDequeCalls - 1 } with
      failed | ⟨rfl, rfl, done⟩
    · rw [failed]
      exact .retriesExpired
    · rw [done]
      exact .expired request
  | execute request => exact .executes request
  | finish dequeueSuccess => exact .finishes dequeueSuccess
  | exchangeFinished dequeueSuccess old =>
    simp only [Thread.advance]
    rcases compareExchange_cases s succeeds old (afterExecution dequeueSuccess old) with
      failed | ⟨rfl, rfl, done⟩
    · rw [failed]
      exact .retriesFinished
    · rw [done]
      exact .finished dequeueSuccess

theorem dequeue_moves (s : Shared ρ) {found : Found} (there : found.There s.pile) :
    Moves s false .task (dequeue s found).1 (dequeue s found).2 := by
  cases found with
  | expired k =>
    obtain ⟨request, here⟩ : ∃ request, s.pile[k]? = some request :=
      ⟨_, List.getElem?_eq_getElem there⟩
    rw [dequeue, here]
    exact .discards here
  | live k =>
    obtain ⟨request, here⟩ : ∃ request, s.pile[k]? = some request :=
      ⟨_, List.getElem?_eq_getElem there⟩
    rw [dequeue, here]
    exact .takes here
  | nothing => exact .findsNothing

/-- What an event can do. -/
theorem State.step_cases {s : State ρ} {e : Event ρ} (allowed : s.Allowed e) :
    (∃ request, e = .accept request) ∨
    (∃ limit, e = .setExecutionLimitRequests limit ∧ 1 ≤ limit) ∨
    ∃ i t succeeds shared next, s.threads[i]? = some t ∧
      Moves s.shared succeeds t shared next ∧ s.step e = s.replace i shared next ∧
      (succeeds = true → e = .advance i true) := by
  cases e with
  | accept request => exact .inl ⟨request, rfl⟩
  | setExecutionLimitRequests limit => exact .inr (.inl ⟨limit, rfl, allowed⟩)
  | advance i succeeds =>
    have here := List.getElem?_eq_getElem allowed
    refine .inr (.inr ⟨i, _, succeeds, _, _, here, advance_moves s.shared succeeds _, ?_, ?_⟩)
    · simp only [State.step, here]
    · rintro rfl
      rfl
  | dequeue i found =>
    obtain ⟨here, there⟩ := allowed
    refine .inr (.inr ⟨i, _, false, _, _, here, dequeue_moves s.shared there, ?_, ?_⟩)
    · simp only [State.step, here]
    · intro impossible
      cases impossible

/-! ## What holds in every run -/

namespace Thread

/-- A call of `trySchedule` that will see pending calls and a free execution ticket, if
nothing changes before it does. -/
@[simp] def scheduling : Thread ρ → Int
  | trySchedule _ _ => 1
  | loadLimit onEnqueued _ old | exchange onEnqueued _ old _ =>
    if onEnqueued ∨ (old.pendingDequeCalls ≠ 0 ∧ old.requestInExecution = 0) then 1 else 0
  | _ => 0

/-- The limit that the thread has loaded is at least 1 and at most `largest`. -/
def LimitRead (largest : Nat) : Thread ρ → Prop
  | exchange _ _ _ limit => 1 ≤ limit ∧ limit.toNat ≤ largest
  | _ => True

end Thread

/-- The invariant of all runs.  The counters are what the threads hold, modulo 2^32. -/
structure Consistent (s : State ρ) : Prop where
  limit : 1 ≤ s.shared.executionLimit
  limitsRead : ∀ t ∈ s.threads, t.LimitRead s.shared.largestLimitRead
  inExecution : (s.shared.counters.requestInExecution.toNat - s.total Thread.executing) % 2 ^ 32 = 0
  fewExecuting : s.shared.largestLimitRead < 2 ^ 32 →
    s.total Thread.executing ≤ s.shared.largestLimitRead
  calls : (s.shared.counters.pendingDequeCalls.toNat - s.callsLeft) % 2 ^ 32 = 0
  awake : s.shared.counters.pendingDequeCalls ≠ 0 →
    0 < s.total Thread.executing ∨ 0 < s.total Thread.scheduling

theorem executing_nonneg (t : Thread ρ) : 0 ≤ t.executing := by
  cases t <;> simp [Thread.executing]

theorem scheduling_nonneg (t : Thread ρ) : 0 ≤ t.scheduling := by
  cases t <;> simp only [Thread.scheduling] <;> (try split) <;> simp

theorem scheduling_le_one (t : Thread ρ) : t.scheduling ≤ 1 := by
  cases t <;> simp only [Thread.scheduling] <;> (try split) <;> simp

theorem Consistent.initial : Consistent (State.initial ρ) where
  limit := by simp [State.initial]
  limitsRead := by simp [State.initial]
  inExecution := by simp [State.initial, ThreadPool.total]
  fewExecuting := by simp [State.initial, ThreadPool.total]
  calls := by simp [State.initial, ThreadPool.total, State.callsLeft, State.queued]
  awake := by simp [State.initial]

section

variable {s : State ρ} {i : Nat} {t : Thread ρ} {succeeds : Bool} {shared : Shared ρ}
variable {next : List (Thread ρ)}

theorem callsLeft_eq (s : State ρ) : s.callsLeft = s.shared.pile.length +
    s.total fun t => t.expiring - t.announcing - t.dequeuing := by
  rw [ThreadPool.total_sub (fun t : Thread ρ => t.expiring - t.announcing),
    ThreadPool.total_sub Thread.expiring, State.callsLeft, State.queued]
  omega

theorem Moves.calls (moves : Moves s.shared succeeds t shared next) :
    ((shared.counters.pendingDequeCalls.toNat - s.shared.counters.pendingDequeCalls.toNat : Int) -
      (shared.pile.length - s.shared.pile.length +
        (next.map fun t => t.expiring - t.announcing - t.dequeuing).sum -
        (t.expiring - t.announcing - t.dequeuing))) % 2 ^ 32 = 0 := by
  cases moves with
  | loads onEnqueued again => cases onEnqueued <;> simp
  | readsLimit onEnqueued again old => cases onEnqueued <;> simp
  | @schedules onEnqueued again _ some room =>
    have small := s.shared.counters.pendingDequeCalls.toNat_lt
    cases onEnqueued <;> cases again <;> 
      simp [announced, UInt32.toNat_sub] <;> omega
  | counts full =>
    simp [announced, UInt32.toNat_add]
    omega
  | leaves idle => simp
  | @retries _ onEnqueued => cases onEnqueued <;> simp
  | waits => simp
  | expires => simp
  | expired => 
      simp [UInt32.toNat_sub]
      omega
  | retriesExpired => simp
  | executes => simp
  | finishes dequeueSuccess => cases dequeueSuccess <;> simp
  | finished dequeueSuccess =>
    cases dequeueSuccess <;> simp [afterExecution, UInt32.toNat_add]
    omega
  | @retriesFinished _ dequeueSuccess => cases dequeueSuccess <;> simp
  | discards here =>
    have below := (List.getElem?_eq_some_iff.mp here).1
    simp [List.length_eraseIdx_of_lt below]
    omega
  | takes here =>
    have below := (List.getElem?_eq_some_iff.mp here).1
    simp [List.length_eraseIdx_of_lt below]
    omega
  | findsNothing => simp

theorem Moves.inExecution (moves : Moves s.shared succeeds t shared next) :
    ((shared.counters.requestInExecution.toNat - s.shared.counters.requestInExecution.toNat : Int) -
      ((next.map Thread.executing).sum - t.executing)) % 2 ^ 32 = 0 := by
  cases moves with
  | @schedules _ again some room =>
    cases again <;> simp [UInt32.toNat_add] <;> omega
  | finished dequeueSuccess =>
    cases dequeueSuccess <;> simp [afterExecution, UInt32.toNat_sub] <;> omega
  | _ => simp

theorem Moves.calls_bounds (moves : Moves s.shared succeeds t shared next)
    (noWrap : succeeds = true → ¬ t.Wraps s.shared.counters) :
    0 ≤ s.shared.counters.pendingDequeCalls.toNat + (shared.pile.length - s.shared.pile.length +
        (next.map fun t => t.expiring - t.announcing - t.dequeuing).sum -
        (t.expiring - t.announcing - t.dequeuing)) ∧
    s.shared.counters.pendingDequeCalls.toNat + (shared.pile.length - s.shared.pile.length +
        (next.map fun t => t.expiring - t.announcing - t.dequeuing).sum -
        (t.expiring - t.announcing - t.dequeuing)) < 2 ^ 32 := by
  have small := s.shared.counters.pendingDequeCalls.toNat_lt
  cases moves with
  | loads onEnqueued again => cases onEnqueued <;> simp <;> omega
  | readsLimit onEnqueued again old => cases onEnqueued <;> simp <;> omega
  | @schedules onEnqueued again _ pending =>
    cases onEnqueued with
    | false =>
      rw [ne_eq, ← UInt32.toNat_inj] at pending
      have pos : s.shared.counters.pendingDequeCalls.toNat ≠ 0 := pending
      cases again <;> simp <;> omega
    | true => cases again <;> simp <;> omega
  | counts =>
    have room : s.shared.counters.pendingDequeCalls ≠ UInt32.ofNat (2 ^ 32 - 1) :=
      fun full => noWrap rfl ⟨rfl, full⟩
    rw [ne_eq, ← UInt32.toNat_inj] at room
    simp at room ⊢
    omega
  | @retries _ onEnqueued => cases onEnqueued <;> simp <;> omega
  | expired =>
    have some : s.shared.counters.pendingDequeCalls ≠ 0 := fun none => noWrap rfl ⟨rfl, none⟩
    rw [ne_eq, ← UInt32.toNat_inj] at some
    simp at some ⊢
    omega
  | finishes dequeueSuccess => cases dequeueSuccess <;> simp <;> omega
  | finished dequeueSuccess =>
    cases dequeueSuccess with
    | true => simp; omega
    | false =>
      have room : s.shared.counters.pendingDequeCalls ≠ UInt32.ofNat (2 ^ 32 - 1) :=
        fun full => noWrap rfl ⟨rfl, full⟩
      rw [ne_eq, ← UInt32.toNat_inj] at room
      simp at room ⊢
      omega
  | @retriesFinished _ dequeueSuccess => cases dequeueSuccess <;> simp <;> omega
  | leaves => simp; omega
  | discards here | takes here =>
    have below := (List.getElem?_eq_some_iff.mp here).1
    simp [List.length_eraseIdx_of_lt below]
    omega
  | _ => simp; omega

theorem Moves.largestLimitRead (moves : Moves s.shared succeeds t shared next) :
    s.shared.largestLimitRead ≤ shared.largestLimitRead := by
  cases moves with
  | readsLimit => exact Nat.le_max_left _ _
  | _ => exact Nat.le_refl _

theorem Moves.executionLimit (moves : Moves s.shared succeeds t shared next) :
    shared.executionLimit = s.shared.executionLimit := by
  cases moves <;> rfl

theorem Moves.fewExecuting (consistent : Consistent s) (here : s.threads[i]? = some t)
    (moves : Moves s.shared succeeds t shared next)
    (few : shared.largestLimitRead < 2 ^ 32) :
    s.total Thread.executing + ((next.map Thread.executing).sum - t.executing) ≤
      shared.largestLimitRead := by
  have larger := moves.largestLimitRead
  have executing := consistent.fewExecuting (by omega)
  have inExecution := consistent.inExecution
  have limitsRead := consistent.limitsRead t (List.mem_of_getElem? here)
  have small := s.shared.counters.requestInExecution.toNat_lt
  have nonneg : 0 ≤ s.total Thread.executing := ThreadPool.total_nonneg executing_nonneg
  cases moves with
  | @schedules _ again _ some room =>
    have below := limitsRead.2
    cases again <;> simp at executing ⊢ <;> omega
  | _ => simp at executing ⊢; omega

theorem Moves.limitsRead (consistent : Consistent s)
    (moves : Moves s.shared succeeds t shared next) :
    ∀ u ∈ (s.replace i shared next).threads, u.LimitRead shared.largestLimitRead := by
  refine ThreadPool.forall_replace (fun u member => ?_) ?_
  · have before := consistent.limitsRead u member
    cases u with
    | exchange => exact ⟨before.1, Nat.le_trans before.2 moves.largestLimitRead⟩
    | _ => trivial
  · cases moves with
    | readsLimit =>
      intro u member
      obtain rfl := List.mem_singleton.mp member
      exact ⟨consistent.limit, Nat.le_max_right _ _⟩
    | @schedules _ again =>
      cases again <;> simp [Thread.LimitRead]
    | _ => simp [Thread.LimitRead]

/-- Where calls are pending, a request is executed or a call of `trySchedule` will see it. -/
theorem Moves.awake (consistent : Consistent s) (here : s.threads[i]? = some t)
    (moves : Moves s.shared succeeds t shared next)
    (some : shared.counters.pendingDequeCalls ≠ 0) :
    0 < s.total Thread.executing + ((next.map Thread.executing).sum - t.executing) ∨
      0 < s.total Thread.scheduling + ((next.map Thread.scheduling).sum - t.scheduling) := by
  have inExecution := consistent.inExecution
  have awake := consistent.awake
  have limitsRead := consistent.limitsRead t (List.mem_of_getElem? here)
  have small := s.shared.counters.requestInExecution.toNat_lt
  have executing := ThreadPool.weight_le_total executing_nonneg here
  have scheduling := ThreadPool.weight_le_total scheduling_nonneg here
  have nonneg : 0 ≤ s.total Thread.executing := ThreadPool.total_nonneg executing_nonneg
  cases moves with
  | loads onEnqueued again =>
    by_cases none : s.total Thread.executing = 0
    · have zero : s.shared.counters.requestInExecution = 0 := by
        rw [← UInt32.toNat_inj]
        rw [none] at inExecution
        simp
        omega
      right
      simp [some, zero] at scheduling ⊢
      omega
    · left
      simp
      omega
  | readsLimit =>
    simp only [List.map_cons, List.map_nil, List.sum_cons, List.sum_nil, Thread.executing,
      Thread.scheduling]
    rcases awake some with pos | pos
    · left; omega
    · right; omega
  | @schedules _ again =>
    left
    cases again <;> simp <;> omega
  | counts full =>
    left
    have limit := limitsRead.1
    rcases full with zero | full
    · exact absurd zero some
    · have pos : 0 < s.total Thread.executing := by
        rw [UInt64.le_iff_toNat_le] at limit
        simp at limit
        omega
      simpa using pos
  | @leaves _ again old limit idle =>
    have unseen : (Thread.exchange false again old limit : Thread ρ).scheduling = 0 := by
      have pos := limitsRead.1
      rw [UInt64.le_iff_toNat_le] at pos
      simp only [Thread.scheduling, Bool.false_eq_true, false_or, ite_eq_right_iff]
      rintro ⟨pending, zero⟩
      rcases idle with none | full
      · exact absurd none pending
      · simp [zero] at full pos
        omega
    rw [unseen]
    simpa using awake some
  | @retries _ onEnqueued again old limit =>
    right
    have most := scheduling_le_one (.exchange onEnqueued again old limit : Thread ρ)
    simp only [List.map_cons, List.map_nil, List.sum_cons, List.sum_nil]
    have new : (Thread.trySchedule onEnqueued again : Thread ρ).scheduling = 1 := rfl
    omega
  | finished =>
    right
    simp at scheduling ⊢
    omega
  | _ =>
    left
    simp at executing ⊢
    omega

theorem callsLeft_replace (here : s.threads[i]? = some t) :
    State.callsLeft (s.replace i shared next) =
      s.callsLeft + (shared.pile.length - s.shared.pile.length +
        (next.map fun t => t.expiring - t.announcing - t.dequeuing).sum -
        (t.expiring - t.announcing - t.dequeuing)) := by
  rw [callsLeft_eq, callsLeft_eq, ThreadPool.total_replace here, ThreadPool.replace_shared]
  omega

theorem Consistent.moved (consistent : Consistent s) (here : s.threads[i]? = some t)
    (moves : Moves s.shared succeeds t shared next) :
    Consistent (s.replace i shared next : State ρ) where
  limit := by
    rw [ThreadPool.replace_shared, moves.executionLimit]
    exact consistent.limit
  limitsRead := moves.limitsRead consistent
  inExecution := by
    have before := consistent.inExecution
    have change := moves.inExecution
    rw [ThreadPool.total_replace here, ThreadPool.replace_shared]
    omega
  fewExecuting few := by
    have most := moves.fewExecuting consistent here few
    rw [ThreadPool.total_replace here, ThreadPool.replace_shared]
    omega
  calls := by
    have before := consistent.calls
    have change := moves.calls
    rw [callsLeft_replace here, ThreadPool.replace_shared]
    omega
  awake pending := by
    have awake := moves.awake consistent here pending
    rw [ThreadPool.total_replace here, ThreadPool.total_replace here]
    omega

end

/-- A request that is put into the pile is still to be announced. -/
theorem callsLeft_accept (s : State ρ) (request : ρ) :
    (s.step (.accept request)).callsLeft = s.callsLeft := by
  simp [State.callsLeft, State.queued, State.step]
  omega

theorem callsLeft_setExecutionLimitRequests (s : State ρ) (limit : UInt64) :
    (s.step (.setExecutionLimitRequests limit)).callsLeft = s.callsLeft := by
  simp [State.callsLeft, State.queued, State.step]

theorem Consistent.accept {s : State ρ} (consistent : Consistent s) (request : ρ) :
    Consistent (s.step (.accept request)) where
  limit := consistent.limit
  limitsRead := by
    simpa [State.step, ThreadPool.start, Thread.LimitRead] using consistent.limitsRead
  inExecution := by simpa [State.step] using consistent.inExecution
  fewExecuting few := by simpa [State.step] using consistent.fewExecuting few
  calls := by
    rw [callsLeft_accept]
    exact consistent.calls
  awake pending := by
    have nonneg : 0 ≤ s.total Thread.scheduling := ThreadPool.total_nonneg scheduling_nonneg
    right
    simp [State.step]
    omega

theorem Consistent.setExecutionLimitRequests {s : State ρ} (consistent : Consistent s)
    {limit : UInt64} (pos : 1 ≤ limit) :
    Consistent (s.step (.setExecutionLimitRequests limit)) where
  limit := pos
  limitsRead := by
    simpa [State.step, ThreadPool.start, Thread.LimitRead] using consistent.limitsRead
  inExecution := by simpa [State.step] using consistent.inExecution
  fewExecuting few := by simpa [State.step] using consistent.fewExecuting few
  calls := by
    rw [callsLeft_setExecutionLimitRequests]
    exact consistent.calls
  awake pending := by
    have nonneg : 0 ≤ s.total Thread.scheduling := ThreadPool.total_nonneg scheduling_nonneg
    right
    simp [State.step]
    omega

theorem Consistent.step {s : State ρ} {e : Event ρ} (consistent : Consistent s)
    (allowed : s.Allowed e) : Consistent (s.step e) := by
  rcases State.step_cases allowed with
    ⟨request, rfl⟩ | ⟨limit, rfl, pos⟩ | ⟨i, t, succeeds, shared, next, here, moves, same, -⟩
  · exact consistent.accept request
  · exact consistent.setExecutionLimitRequests pos
  · rw [same]
    exact consistent.moved here moves

/-! ## Runs without a wrap -/

/-- The counter of dequeue calls is the number of calls that are left, which is then not below
zero. -/
def State.CountsCalls (s : State ρ) : Prop :=
  (s.shared.counters.pendingDequeCalls.toNat : Int) = s.callsLeft

instance (s : State ρ) : Decidable s.CountsCalls :=
  inferInstanceAs (Decidable ((s.shared.counters.pendingDequeCalls.toNat : Int) = s.callsLeft))

/-- No request and no ticket is lost. -/
structure State.LosesNothing (s : State ρ) : Prop where
  calls : (s.shared.counters.pendingDequeCalls.toNat - s.callsLeft) % 2 ^ 32 = 0
  fewExecuting : s.shared.counters.requestInExecution.toNat ≤ s.shared.largestLimitRead
  pileEmpty : s.threads = [] → s.shared.pile = []
  countsCalls : s.CountsCalls

theorem Consistent.losesNothing {s : State ρ} (consistent : Consistent s)
    (exact : s.CountsCalls) : s.LosesNothing where
  calls := consistent.calls
  fewExecuting := by
    have small := s.shared.counters.requestInExecution.toNat_lt
    have inExecution := consistent.inExecution
    have nonneg : 0 ≤ s.total Thread.executing := ThreadPool.total_nonneg executing_nonneg
    by_cases few : s.shared.largestLimitRead < 2 ^ 32
    · have most := consistent.fewExecuting few
      omega
    · omega
  pileEmpty idle := by
    have none (weight : Thread ρ → Int) : s.total weight = 0 :=
      ThreadPool.total_of_threads_nil idle
    have unpending : s.shared.counters.pendingDequeCalls = 0 := by
      by_contra pending
      have awake := consistent.awake pending
      rw [none, none] at awake
      omega
    have left := exact
    rw [State.CountsCalls, callsLeft_eq, none, unpending] at left
    exact List.length_eq_zero_iff.mp (by simpa using left.symm)
  countsCalls := exact

theorem Thread.Wraps.outside {s : Shared ρ} {t : Thread ρ} (wraps : t.Wraps s.counters) :
    (t.advance s true).1.pile = s.pile ∧ (s.counters.pendingDequeCalls.toNat +
          (((t.advance s true).2.map fun t => t.expiring - t.announcing - t.dequeuing).sum -
            (t.expiring - t.announcing - t.dequeuing)) < 0 ∨
        2 ^ 32 ≤ s.counters.pendingDequeCalls.toNat +
          (((t.advance s true).2.map fun t => t.expiring - t.announcing - t.dequeuing).sum -
            (t.expiring - t.announcing - t.dequeuing))) := by
  cases t with
  | exchange onEnqueued again old limit =>
    cases onEnqueued with
    | false => exact wraps.elim
    | true =>
      obtain ⟨rfl, full⟩ := wraps
      simp [Thread.advance, ParallelConcurrencyController.exchange, announced,
        compareExchange, full]
  | exchangeExpired request old =>
    obtain ⟨rfl, zero⟩ := wraps
    simp [Thread.advance, compareExchange, zero]
  | exchangeFinished dequeueSuccess old =>
    cases dequeueSuccess with
    | true => exact wraps.elim
    | false =>
      obtain ⟨rfl, full⟩ := wraps
      simp [Thread.advance, compareExchange, full]
  | _ => exact wraps.elim

theorem State.CountsCalls.step {s : State ρ} {e : Event ρ} (exact : s.CountsCalls)
    (allowed : s.Allowed e) (noWrap : ¬ s.Wraps e) : (s.step e).CountsCalls := by
  rcases State.step_cases allowed with
    ⟨request, rfl⟩ | ⟨limit, rfl, -⟩ | ⟨i, t, succeeds, shared, next, here, moves, same, event⟩
  · rw [State.CountsCalls, callsLeft_accept]
    exact exact
  · rw [State.CountsCalls, callsLeft_setExecutionLimitRequests]
    exact exact
  · have bounds := moves.calls_bounds fun succeeded wraps => by
      rw [event succeeded] at noWrap
      exact noWrap ⟨t, here, wraps⟩
    have change := moves.calls
    have before := exact
    have small := shared.counters.pendingDequeCalls.toNat_lt
    rw [State.CountsCalls] at before
    rw [same, State.CountsCalls, callsLeft_replace here, ThreadPool.replace_shared]
    omega

theorem State.CountsCalls.noWrap {s : State ρ} {e : Event ρ} (exact : s.CountsCalls)
    (after : (s.step e).CountsCalls) : ¬ s.Wraps e := by
  intro wraps
  match e, wraps with
  | .advance i true, ⟨t, here, wraps⟩ =>
    obtain ⟨samePile, outside⟩ := wraps.outside
    have here : s.threads[i]? = some t := here
    have small := (t.advance s.shared true).1.counters.pendingDequeCalls.toNat_lt
    simp only [State.step, here] at after
    rw [State.CountsCalls, callsLeft_replace here, ThreadPool.replace_shared, samePile] at after
    rw [State.CountsCalls] at exact
    omega

/-- In a run from the start no request and no ticket is ever lost if and only if no exchange
takes the counter of dequeue calls below zero, for a request that was found expired, or above
its largest value. -/
theorem losesNothing_iff {events : List (Event ρ)}
    (run : Run State.step State.Allowed (State.initial ρ) events) :
    (∀ n, ((events.take n).foldl State.step (State.initial ρ)).LosesNothing) ↔
      Run State.step (fun s e => ¬ s.Wraps e) (State.initial ρ) events :=
  run.clean_iff
    ⟨.initial, by simp [State.CountsCalls, callsLeft_eq, State.initial, ThreadPool.total]⟩
    (fun s (both : Consistent s ∧ s.CountsCalls) => both.1.losesNothing both.2)
    (fun _ _ both allowed noWrap => ⟨both.1.step allowed, both.2.step allowed noWrap⟩)
    (fun _ _ both _ after => both.2.noWrap after.countsCalls)

/-- One request is announced, dequeued and executed. -/
def oneRequest : List (Event Nat) :=
  [.accept 7, .advance 0 true, .advance 0 true, .advance 0 true, .dequeue 0 (.live 0),
    .advance 0 true]

theorem losesNothing_oneRequest :
    (oneRequest.foldl State.step (State.initial Nat)).LosesNothing := by
  have run : Run State.step State.Allowed (State.initial Nat) oneRequest := by decide +kernel
  have kept := (losesNothing_iff run).mpr (by decide +kernel) oneRequest.length
  rwa [List.take_length] at kept

/-- Two requests are announced and two tasks are scheduled.  The first task finds a request that
has expired, and the counter of calls, which is zero, is decremented. -/
def expiredAfterScheduling : List (Event Nat) :=
  [.accept 1, .advance 0 true, .advance 0 true, .advance 0 true, .accept 2, .advance 0 true,
    .advance 0 true, .advance 0 true, .dequeue 0 (.expired 0), .advance 0 true, .advance 0 true]

/-- The counter of calls goes below zero, and the next `trySchedule` schedules a third task
with one request in the pile. -/
theorem losesNothing_fails :
    Run State.step State.Allowed (State.initial Nat) expiredAfterScheduling ∧
      ¬ (expiredAfterScheduling.foldl State.step (State.initial Nat)).LosesNothing ∧
      let s := [.setExecutionLimitRequests 5, .advance 0 true, .advance 0 true,
        .advance 0 true].foldl State.step
          (expiredAfterScheduling.foldl State.step (State.initial Nat))
      s.threads = [.task, .trySchedule false true, .task, .task] ∧ s.shared.pile = [2] := by
  refine ⟨by decide +kernel, fun holds => ?_, by decide +kernel⟩
  exact absurd holds.countsCalls (by decide +kernel)

end ParallelConcurrencyController

end FbThrift
