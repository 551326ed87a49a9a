import FbThrift.Lib.Run
import FbThrift.Lib.ThreadPool
import FbThrift.Server.RequestPile

/-!
# TokenBucketConcurrencyController

A request that is put into the pile is counted in `pendingDequeueOps_` and, while the token
bucket gives tokens, a task is scheduled that dequeues one request for one token.  Once the
bucket refuses, slow mode is enabled: a loop waits for tokens and schedules the tasks until one
of them finds nothing to do and clears slow mode.  A thread takes one atomic step at a time, and
the bucket may grant or refuse each token.
-/

namespace FbThrift

/-! ## The controller -/

namespace TokenBucketConcurrencyController

open RequestPile

/-- What the threads share, with the tokens that were consumed so far, the requests that were
executed with the token of each, and the tokens that were returned.  A token is named by its
number; there is none where `blockingConsumeToken` was refused. -/
structure Shared (ρ : Type) where
  pendingDequeueOps : UInt64
  slowMode : UInt16
  pile : List ρ
  consumed : Nat
  spent : List (Option Nat × ρ)
  returned : List (Option Nat)
  deriving DecidableEq

/-- A task that dequeues: `dequeueAttempt` with the tries that are left, or a task of the slow
mode loop. -/
inductive Task where
  | attempt (maxTries : Nat)
  | slow
  deriving DecidableEq

/-- The next step of a thread. -/
inductive Thread (ρ : Type) where
  /-- In `onEnqueued`, about to add to `pendingDequeueOps_`. -/
  | onEnqueued
  | isSlowModeEnabled
  | consumeToken
  /-- About to add a `dequeueAttempt` to the executor. -/
  | addDequeueAttempt (token : Option Nat)
  /-- In `enableSlowModeOnce`, about to load `slowMode_`. -/
  | enableSlowModeOnce
  /-- In `enableSlowModeOnce`, about to exchange 0 for 1. -/
  | exchangeSlowMode
  /-- About to add the loop to the inner executor. -/
  | addSlowMode
  /-- A `dequeueAttempt` that is scheduled, or about to load `pendingDequeueOps_`. -/
  | dequeueAttempt (token : Option Nat) (maxTries : Nat)
  /-- A task in `pile_.dequeue`. -/
  | dequeue (token : Option Nat) (task : Task)
  /-- In `processExpiredRequest`, called by `pile_.dequeue`, about to subtract. -/
  | processExpiredRequest (token : Option Nat) (task : Task)
  /-- A task that has dequeued, about to subtract from `pendingDequeueOps_`. -/
  | subtract (token : Option Nat) (task : Task) (request : ρ)
  /-- About to ask whether the request has expired. -/
  | examine (token : Option Nat) (task : Task) (request : ρ)
  | returnToken (token : Option Nat) (task : Task)
  /-- The loop, about to load `slowMode_`. -/
  | slowMode
  | blockingConsumeToken
  /-- The loop, about to add a task to the executor. -/
  | addSlowTask (token : Option Nat)
  /-- A task of the loop that has returned its token, about to load `pendingDequeueOps_`. -/
  | loadPending
  | clearSlowMode
  deriving DecidableEq

variable {ρ : Type}

/-- The thread of a task that goes on after a request that has expired. -/
def Task.goesOn (token : Option Nat) : Task → Thread ρ
  | attempt maxTries => .dequeueAttempt token maxTries
  | slow => .dequeue token .slow

/-- The thread of a task that has dequeued nothing. -/
def Task.foundNothing (token : Option Nat) : Task → Thread ρ
  | attempt maxTries => .dequeueAttempt token maxTries
  | slow => .returnToken token .slow

/-- What a task does after `returnToken`. -/
def Task.afterReturn : Task → List (Thread ρ)
  | attempt _ => []
  | slow => [.loadPending]

/-- The next step of a thread outside the pile.  The choice says that the bucket grants the
token, that the weak exchange does not fail, or that the request has expired. -/
def Thread.advance (s : Shared ρ) (choice : Bool) : Thread ρ → Shared ρ × List (Thread ρ)
  | .onEnqueued =>
    ({ s with pendingDequeueOps := s.pendingDequeueOps + 1 }, [.isSlowModeEnabled])
  | .isSlowModeEnabled =>
    if s.slowMode = 1 then (s, [.enableSlowModeOnce]) else (s, [.consumeToken])
  | .consumeToken =>
    if choice then
      ({ s with consumed := s.consumed + 1 }, [.addDequeueAttempt (some s.consumed)])
    else (s, [.enableSlowModeOnce])
  | .addDequeueAttempt token => (s, [.dequeueAttempt token 256])
  | .enableSlowModeOnce =>
    if s.slowMode = 1 then (s, [])
    else if s.slowMode = 0 then (s, [.exchangeSlowMode])
    else (s, [.enableSlowModeOnce])
  | .exchangeSlowMode =>
    if s.slowMode = 0 ∧ choice then ({ s with slowMode := 1 }, [.addSlowMode])
    else (s, [.enableSlowModeOnce])
  | .addSlowMode => (s, [.slowMode])
  | .dequeueAttempt token maxTries =>
    if s.pendingDequeueOps > 0 then
      if maxTries - 1 = 0 then (s, [.addDequeueAttempt token])
      else (s, [.dequeue token (.attempt (maxTries - 1))])
    else (s, [.returnToken token (.attempt maxTries)])
  | .dequeue token task => (s, [.dequeue token task])
  | .processExpiredRequest token task =>
    ({ s with pendingDequeueOps := s.pendingDequeueOps - 1 }, [.dequeue token task])
  | .subtract token task request =>
    ({ s with pendingDequeueOps := s.pendingDequeueOps - 1 }, [.examine token task request])
  | .examine token task request =>
    if choice then (s, [task.goesOn token])
    else ({ s with spent := s.spent ++ [(token, request)] }, [])
  | .returnToken token task => ({ s with returned := s.returned ++ [token] }, task.afterReturn)
  | .slowMode => if s.slowMode = 1 then (s, [.blockingConsumeToken]) else (s, [])
  | .blockingConsumeToken =>
    if choice then ({ s with consumed := s.consumed + 1 }, [.addSlowTask (some s.consumed)])
    else (s, [.addSlowTask none])
  | .addSlowTask token => (s, [.slowMode, .dequeue token .slow])
  | .loadPending => if s.pendingDequeueOps = 0 then (s, [.clearSlowMode]) else (s, [])
  | .clearSlowMode => ({ s with slowMode := 0 }, [])

/-- The thread is in `pile_.dequeue`. -/
def Thread.inPile : Thread ρ → Bool
  | .dequeue _ _ => true
  | _ => false

/-- A step of `pile_.dequeue`. -/
def dequeue (s : Shared ρ) (token : Option Nat) (task : Task) : Found → Shared ρ × List (Thread ρ)
  | .expired k => ({ s with pile := s.pile.eraseIdx k }, [.processExpiredRequest token task])
  | .live k =>
    ({ s with pile := s.pile.eraseIdx k }, (s.pile[k]?.map (.subtract token task)).toList)
  | .nothing => (s, [task.foundNothing token])

abbrev State (ρ : Type) := ThreadPool (Shared ρ) (Thread ρ)

inductive Event (ρ : Type) where
  /-- A request has been put into the pile and `onEnqueued` is called. -/
  | accept (request : ρ)
  | advance (i : Nat) (choice : Bool)
  | dequeue (i : Nat) (found : Found)
  deriving DecidableEq

namespace State

def initial (ρ : Type) : State ρ := ⟨⟨0, 0, [], 0, [], []⟩, []⟩

def step (s : State ρ) : Event ρ → State ρ
  | .accept request => s.start { s.shared with pile := s.shared.pile ++ [request] } .onEnqueued
  | .advance i choice =>
    match s.threads[i]? with
    | some t => s.replace i (t.advance s.shared choice).1 (t.advance s.shared choice).2
    | none => s
  | .dequeue i found =>
    match s.threads[i]? with
    | some (.dequeue token task) =>
      s.replace i (TokenBucketConcurrencyController.dequeue s.shared token task found).1
        (TokenBucketConcurrencyController.dequeue s.shared token task found).2
    | _ => s

/-- The events that can happen: the thread and the request are there. -/
def Allowed (s : State ρ) : Event ρ → Prop
  | .accept _ => True
  | .advance i _ => i < s.threads.length
  | .dequeue i found => s.threads[i]?.any Thread.inPile ∧ found.There s.shared.pile

instance (s : State ρ) : ∀ e, Decidable (s.Allowed e)
  | .accept _ => inferInstanceAs (Decidable True)
  | .advance i _ => inferInstanceAs (Decidable (i < s.threads.length))
  | .dequeue i found => inferInstanceAs
      (Decidable (s.threads[i]?.any Thread.inPile ∧ found.There s.shared.pile))

end State

/-! ## What the threads hold -/

/-- The token has this number. -/
def isToken (k : Nat) (token : Option Nat) : Int := if token = some k then 1 else 0

@[simp] theorem isToken_none (k : Nat) : isToken k none = 0 := rfl

theorem isToken_some (k n : Nat) : isToken k (some n) = if n = k then 1 else 0 := by
  simp [isToken]

namespace Thread

/-- A request that is enqueued and not yet counted. -/
@[simp] def counting : Thread ρ → Int
  | onEnqueued => 1
  | _ => 0

/-- A request that was taken from the pile and is still counted. -/
@[simp] def subtracting : Thread ρ → Int
  | processExpiredRequest _ _ | subtract _ _ _ => 1
  | _ => 0

/-- A `dequeueAttempt` that will look into the pile, or a call of `onEnqueued` that has counted
its request and will look at the mode. -/
@[simp] def serving : Thread ρ → Int
  | isSlowModeEnabled | consumeToken | enableSlowModeOnce | exchangeSlowMode
  | addDequeueAttempt _ | dequeueAttempt _ _ | dequeue _ (.attempt _)
  | processExpiredRequest _ (.attempt _) => 1
  | _ => 0

/-- The slow mode loop. -/
@[simp] def looping : Thread ρ → Int
  | addSlowMode | slowMode | blockingConsumeToken | addSlowTask _ => 1
  | _ => 0

/-- The token that the thread holds. -/
@[simp] def token? : Thread ρ → Option Nat
  | addDequeueAttempt token | dequeueAttempt token _ | dequeue token _
  | processExpiredRequest token _ | subtract token _ _ | examine token _ _
  | returnToken token _ | addSlowTask token => token
  | _ => none

/-- The thread holds this token. -/
def holding (k : Nat) (t : Thread ρ) : Int := isToken k t.token?

end Thread

namespace State

/-- The requests of the pile that were counted. -/
def counted (s : State ρ) : Int := s.shared.pile.length - s.total Thread.counting

/-- The requests in the pile, and those taken from it and still counted. -/
def waiting (s : State ρ) : Int := s.shared.pile.length + s.total Thread.subtracting

/-- The event clears slow mode while the pile has more counted requests than there are attempts
and calls of `onEnqueued` to serve them, or it brings the requests that wait to 2^64. -/
def Strands (s : State ρ) : Event ρ → Prop
  | .accept _ => 2 ^ 64 ≤ s.waiting + 1
  | .advance i _ => s.threads[i]? = some .clearSlowMode ∧ s.total Thread.serving < s.counted
  | .dequeue _ _ => False

instance [DecidableEq ρ] (s : State ρ) : ∀ e, Decidable (s.Strands e)
  | .accept _ => inferInstanceAs (Decidable (2 ^ 64 ≤ s.waiting + 1))
  | .advance i _ => inferInstanceAs (Decidable
      (s.threads[i]? = some .clearSlowMode ∧ s.total Thread.serving < s.counted))
  | .dequeue _ _ => inferInstanceAs (Decidable False)

/-- How often a token was spent on a request or returned. -/
def used (k : Nat) (s : State ρ) : Nat :=
  s.shared.spent.countP (·.1 = some k) + s.shared.returned.countP (· = some k)

end State

/-! ## Steps -/

/-- A step of one thread. -/
inductive Moves (s : Shared ρ) : Thread ρ → Shared ρ → List (Thread ρ) → Prop where
  | counts : Moves s .onEnqueued { s with pendingDequeueOps := s.pendingDequeueOps + 1 }
      [.isSlowModeEnabled]
  | fast : Moves s .isSlowModeEnabled s [.consumeToken]
  | slow : Moves s .isSlowModeEnabled s [.enableSlowModeOnce]
  | consumes : Moves s .consumeToken { s with consumed := s.consumed + 1 }
      [.addDequeueAttempt (some s.consumed)]
  | refused : Moves s .consumeToken s [.enableSlowModeOnce]
  | schedules (token : Option Nat) :
      Moves s (.addDequeueAttempt token) s [.dequeueAttempt token 256]
  | enabled (on : s.slowMode = 1) : Moves s .enableSlowModeOnce s []
  | disabled : Moves s .enableSlowModeOnce s [.exchangeSlowMode]
  | undecided : Moves s .enableSlowModeOnce s [.enableSlowModeOnce]
  | enables : Moves s .exchangeSlowMode { s with slowMode := 1 } [.addSlowMode]
  | retries : Moves s .exchangeSlowMode s [.enableSlowModeOnce]
  | startsLoop : Moves s .addSlowMode s [.slowMode]
  | tries (token : Option Nat) (maxTries left : Nat) :
      Moves s (.dequeueAttempt token maxTries) s [.dequeue token (.attempt left)]
  | reschedules (token : Option Nat) (maxTries : Nat) :
      Moves s (.dequeueAttempt token maxTries) s [.addDequeueAttempt token]
  | idle (token : Option Nat) (maxTries : Nat) (none : s.pendingDequeueOps = 0) :
      Moves s (.dequeueAttempt token maxTries) s [.returnToken token (.attempt maxTries)]
  | waits (token : Option Nat) (task : Task) :
      Moves s (.dequeue token task) s [.dequeue token task]
  | discards (token : Option Nat) (task : Task) {k : Nat} (below : k < s.pile.length) :
      Moves s (.dequeue token task) { s with pile := s.pile.eraseIdx k }
        [.processExpiredRequest token task]
  | takes (token : Option Nat) (task : Task) {k : Nat} {request : ρ}
      (here : s.pile[k]? = some request) :
      Moves s (.dequeue token task) { s with pile := s.pile.eraseIdx k }
        [.subtract token task request]
  | findsNothing (token : Option Nat) (task : Task) :
      Moves s (.dequeue token task) s [task.foundNothing token]
  | expired (token : Option Nat) (task : Task) :
      Moves s (.processExpiredRequest token task)
        { s with pendingDequeueOps := s.pendingDequeueOps - 1 } [.dequeue token task]
  | subtracts (token : Option Nat) (task : Task) (request : ρ) :
      Moves s (.subtract token task request)
        { s with pendingDequeueOps := s.pendingDequeueOps - 1 } [.examine token task request]
  | releases (token : Option Nat) (task : Task) (request : ρ) :
      Moves s (.examine token task request) s [task.goesOn token]
  | executes (token : Option Nat) (task : Task) (request : ρ) :
      Moves s (.examine token task request)
        { s with spent := s.spent ++ [(token, request)] } []
  | returns (token : Option Nat) (task : Task) :
      Moves s (.returnToken token task) { s with returned := s.returned ++ [token] }
        task.afterReturn
  | loops : Moves s .slowMode s [.blockingConsumeToken]
  | leaves (off : s.slowMode ≠ 1) : Moves s .slowMode s []
  | borrows : Moves s .blockingConsumeToken { s with consumed := s.consumed + 1 }
      [.addSlowTask (some s.consumed)]
  | borrowsNothing : Moves s .blockingConsumeToken s [.addSlowTask none]
  | startsTask (token : Option Nat) :
      Moves s (.addSlowTask token) s [.slowMode, .dequeue token .slow]
  | ends : Moves s .loadPending s []
  | clearing : Moves s .loadPending s [.clearSlowMode]
  | clears : Moves s .clearSlowMode { s with slowMode := 0 } []

theorem advance_moves (s : Shared ρ) (choice : Bool) (t : Thread ρ) :
    Moves s t (t.advance s choice).1 (t.advance s choice).2 := by
  cases t with
  | onEnqueued => exact .counts
  | isSlowModeEnabled =>
    simp only [Thread.advance]
    split
    · exact .slow
    · exact .fast
  | consumeToken =>
    simp only [Thread.advance]
    split
    · exact .consumes
    · exact .refused
  | addDequeueAttempt token => exact .schedules token
  | enableSlowModeOnce =>
    simp only [Thread.advance]
    split
    next on => exact .enabled on
    next =>
      split
      · exact .disabled
      · exact .undecided
  | exchangeSlowMode =>
    simp only [Thread.advance]
    split
    · exact .enables
    · exact .retries
  | addSlowMode => exact .startsLoop
  | dequeueAttempt token maxTries =>
    simp only [Thread.advance]
    split
    next =>
      split
      · exact .reschedules token maxTries
      · exact .tries token maxTries _
    next none => exact .idle token maxTries (by simpa using none)
  | dequeue token task => exact .waits token task
  | processExpiredRequest token task => exact .expired token task
  | subtract token task request => exact .subtracts token task request
  | examine token task request =>
    simp only [Thread.advance]
    split
    · exact .releases token task request
    · exact .executes token task request
  | returnToken token task => exact .returns token task
  | slowMode =>
    simp only [Thread.advance]
    split
    next => exact .loops
    next off => exact .leaves off
  | blockingConsumeToken =>
    simp only [Thread.advance]
    split
    · exact .borrows
    · exact .borrowsNothing
  | addSlowTask token => exact .startsTask token
  | loadPending =>
    simp only [Thread.advance]
    split
    · exact .clearing
    · exact .ends
  | clearSlowMode => exact .clears

theorem dequeue_moves (s : Shared ρ) (token : Option Nat) (task : Task) {found : Found}
    (there : found.There s.pile) :
    Moves s (.dequeue token task) (dequeue s token task found).1
      (dequeue s token task found).2 := by
  cases found with
  | expired k => exact .discards token task there
  | live k =>
    obtain ⟨request, here⟩ : ∃ request, s.pile[k]? = some request :=
      ⟨_, List.getElem?_eq_getElem there⟩
    simp only [dequeue, here]
    exact .takes token task here
  | nothing => exact .findsNothing token task

theorem exists_of_inPile {s : State ρ} {i : Nat} (inPile : s.threads[i]?.any Thread.inPile) :
    ∃ token task, s.threads[i]? = some (.dequeue token task) := by
  cases here : s.threads[i]? with
  | none =>
    rw [here] at inPile
    cases inPile
  | some t =>
    rw [here] at inPile
    cases t with
    | dequeue token task => exact ⟨token, task, rfl⟩
    | _ => cases inPile

/-- What an event can do. -/
theorem State.step_cases {s : State ρ} {e : Event ρ} (allowed : s.Allowed e) :
    (∃ request, e = .accept request) ∨
    ∃ i t shared next, s.threads[i]? = some t ∧ Moves s.shared t shared next ∧
      s.step e = s.replace i shared next ∧
      (t = .clearSlowMode → ∃ choice, e = .advance i choice) := by
  cases e with
  | accept request => exact .inl ⟨request, rfl⟩
  | advance i choice =>
    have here := List.getElem?_eq_getElem allowed
    refine .inr ⟨i, _, _, _, here, advance_moves s.shared choice _, ?_, fun _ => ⟨choice, rfl⟩⟩
    simp only [State.step, here]
  | dequeue i found =>
    obtain ⟨inPile, there⟩ := allowed
    obtain ⟨token, task, here⟩ := exists_of_inPile inPile
    refine .inr ⟨i, _, _, _, here, dequeue_moves s.shared token task there, ?_, ?_⟩
    · simp only [State.step, here]
    · intro impossible
      cases impossible

/-! ## What holds in every run -/

/-- The invariant of all runs: the counter is what the pile and the threads hold, modulo 2^64,
slow mode has its loop, and each token that was consumed is in one place. -/
structure Consistent (s : State ρ) : Prop where
  pending : (s.shared.pendingDequeueOps.toNat - (s.counted + s.total Thread.subtracting)) %
    2 ^ 64 = 0
  loop : s.shared.slowMode = 1 → 0 < s.total Thread.looping
  tokens : ∀ k, s.total (Thread.holding k) + s.used k = if k < s.shared.consumed then 1 else 0

/-- The invariant of the runs that strand nothing. -/
structure Served (s : State ρ) : Prop where
  few : s.waiting < 2 ^ 64
  served : s.shared.slowMode = 1 ∨ s.counted ≤ s.total Thread.serving

theorem looping_nonneg (t : Thread ρ) : 0 ≤ t.looping := by
  cases t <;> simp

theorem serving_nonneg (t : Thread ρ) : 0 ≤ t.serving := by
  cases t with
  | dequeue token task | processExpiredRequest token task => cases task <;> simp
  | _ => simp

theorem subtracting_nonneg (t : Thread ρ) : 0 ≤ t.subtracting := by
  cases t <;> simp

theorem counting_nonneg (t : Thread ρ) : 0 ≤ t.counting := by
  cases t <;> simp

theorem Consistent.initial : Consistent (State.initial ρ) where
  pending := by simp [State.initial, State.counted, ThreadPool.total]
  loop := by simp [State.initial]
  tokens := by simp [State.initial, ThreadPool.total, State.used]

theorem Served.initial : Served (State.initial ρ) where
  few := by simp [State.initial, State.waiting, ThreadPool.total]
  served := by simp [State.initial, State.counted, ThreadPool.total]

section

variable {s : State ρ} {i : Nat} {t : Thread ρ} {shared : Shared ρ} {next : List (Thread ρ)}

theorem Moves.pending (moves : Moves s.shared t shared next) :
    ((shared.pendingDequeueOps.toNat - s.shared.pendingDequeueOps.toNat : Int) -
      (shared.pile.length - s.shared.pile.length - ((next.map Thread.counting).sum - t.counting) +
        ((next.map Thread.subtracting).sum - t.subtracting))) % 2 ^ 64 = 0 := by
  have small := s.shared.pendingDequeueOps.toNat_lt
  cases moves with
  | counts =>
    simp [UInt64.toNat_add]
    omega
  | expired | subtracts =>
    simp [UInt64.toNat_sub]
    omega
  | discards _ _ below =>
    simp [List.length_eraseIdx_of_lt below]
    omega
  | takes _ _ here =>
    have below := (List.getElem?_eq_some_iff.mp here).1
    simp [List.length_eraseIdx_of_lt below]
    omega
  | findsNothing _ task => cases task <;> simp [Task.foundNothing]
  | releases _ task => cases task <;> simp [Task.goesOn]
  | returns _ task => cases task <;> simp [Task.afterReturn]
  | _ => simp

theorem Moves.loop (consistent : Consistent s) (here : s.threads[i]? = some t)
    (moves : Moves s.shared t shared next) (on : shared.slowMode = 1) :
    0 < s.total Thread.looping + ((next.map Thread.looping).sum - t.looping) := by
  have looping := ThreadPool.weight_le_total looping_nonneg here
  have nonneg : 0 ≤ s.total Thread.looping := ThreadPool.total_nonneg looping_nonneg
  have loop := consistent.loop
  cases moves with
  | enables =>
    simp
    omega
  | leaves off => exact absurd on off
  | clears => simp at on
  | findsNothing _ task => cases task <;> simpa [Task.foundNothing] using loop on
  | releases _ task => cases task <;> simpa [Task.goesOn] using loop on
  | returns _ task => cases task <;> simpa [Task.afterReturn] using loop on
  | _ => simpa using loop on

theorem Moves.tokens (k : Nat) (moves : Moves s.shared t shared next) :
    ((next.map (Thread.holding k)).sum - t.holding k : Int) +
      ((shared.spent.countP (·.1 = some k) + shared.returned.countP (· = some k) : Nat) -
        (s.shared.spent.countP (·.1 = some k) + s.shared.returned.countP (· = some k) : Nat)) =
      (if k < shared.consumed then 1 else 0) - (if k < s.shared.consumed then 1 else 0) := by
  cases moves with
  | consumes | borrows =>
    simp only [List.map_cons, List.map_nil, List.sum_cons, List.sum_nil, Thread.holding,
      Thread.token?, isToken_none, isToken_some]
    split <;> split <;> split <;> omega
  | executes token =>
    by_cases mine : token = some k <;> simp [Thread.holding, isToken, List.countP_append, mine]
  | returns token task =>
    by_cases mine : token = some k <;> cases task <;>
      simp [Task.afterReturn, Thread.holding, isToken, List.countP_append, mine]
  | findsNothing _ task => cases task <;> simp [Task.foundNothing, Thread.holding]
  | releases _ task => cases task <;> simp [Task.goesOn, Thread.holding]
  | _ => simp [Thread.holding]

/-- No step brings more requests into the pile. -/
theorem Moves.waiting (moves : Moves s.shared t shared next) :
    (shared.pile.length - s.shared.pile.length : Int) +
      ((next.map Thread.subtracting).sum - t.subtracting) ≤ 0 := by
  cases moves with
  | discards _ _ below =>
    simp [List.length_eraseIdx_of_lt below]
    omega
  | takes _ _ here =>
    have below := (List.getElem?_eq_some_iff.mp here).1
    simp [List.length_eraseIdx_of_lt below]
    omega
  | findsNothing _ task => cases task <;> simp [Task.foundNothing]
  | releases _ task => cases task <;> simp [Task.goesOn]
  | returns _ task => cases task <;> simp [Task.afterReturn]
  | _ => simp

theorem Moves.served (consistent : Consistent s) (served : Served s)
    (here : s.threads[i]? = some t) (moves : Moves s.shared t shared next)
    (clear : t = .clearSlowMode → s.counted ≤ s.total Thread.serving) :
    shared.slowMode = 1 ∨ s.counted + (shared.pile.length - s.shared.pile.length -
        ((next.map Thread.counting).sum - t.counting)) ≤
      s.total Thread.serving + ((next.map Thread.serving).sum - t.serving) := by
  rcases served.served with on | few
  · cases moves with
    | clears =>
      right
      simpa using clear rfl
    | enables => exact .inl rfl
    | _ => exact .inl on
  · cases moves with
    | enabled on => exact .inl on
    | enables => exact .inl rfl
    | idle token maxTries none =>
      right
      have waiting := served.few
      have pending := consistent.pending
      have nonneg := ThreadPool.weight_le_total serving_nonneg here
      have uncounted : 0 ≤ s.total Thread.counting := ThreadPool.total_nonneg counting_nonneg
      have subtracting : 0 ≤ s.total Thread.subtracting :=
        ThreadPool.total_nonneg subtracting_nonneg
      simp only [none, State.counted, State.waiting] at pending waiting nonneg ⊢
      simp at pending nonneg ⊢
      omega
    | discards _ task below =>
      right
      simp only [List.length_eraseIdx_of_lt below]
      cases task <;> simp <;> omega
    | takes _ task found =>
      right
      have below := (List.getElem?_eq_some_iff.mp found).1
      simp only [List.length_eraseIdx_of_lt below]
      cases task <;> simp <;> omega
    | findsNothing _ task =>
      right
      cases task <;> simpa [Task.foundNothing] using few
    | releases _ task =>
      right
      cases task <;> simp [Task.goesOn] <;> omega
    | returns _ task =>
      right
      cases task <;> simpa [Task.afterReturn] using few
    | expired _ task =>
      right
      cases task <;> simpa using few
    | _ =>
      right
      simp
      omega

theorem counted_replace (here : s.threads[i]? = some t) : State.counted (s.replace i shared next) =
      s.counted + (shared.pile.length - s.shared.pile.length -
        ((next.map Thread.counting).sum - t.counting)) := by
  rw [State.counted, State.counted, ThreadPool.total_replace here, ThreadPool.replace_shared]
  omega

theorem Consistent.moved (consistent : Consistent s) (here : s.threads[i]? = some t)
    (moves : Moves s.shared t shared next) :
    Consistent (s.replace i shared next : State ρ) where
  pending := by
    have before := consistent.pending
    have change := moves.pending
    rw [counted_replace here, ThreadPool.total_replace here, ThreadPool.replace_shared]
    omega
  loop on := by
    have loop := moves.loop consistent here on
    rw [ThreadPool.total_replace here]
    omega
  tokens k := by
    have before := consistent.tokens k
    have change := moves.tokens k
    rw [State.used] at before ⊢
    rw [ThreadPool.total_replace here, ThreadPool.replace_shared]
    omega

theorem Served.moved (served : Served s) (consistent : Consistent s)
    (here : s.threads[i]? = some t) (moves : Moves s.shared t shared next)
    (clear : t = .clearSlowMode → s.counted ≤ s.total Thread.serving) :
    Served (s.replace i shared next : State ρ) where
  few := by
    have before := served.few
    have change := moves.waiting
    rw [State.waiting] at before ⊢
    rw [ThreadPool.total_replace here, ThreadPool.replace_shared]
    omega
  served := by
    rw [counted_replace here, ThreadPool.total_replace here, ThreadPool.replace_shared]
    refine (moves.served consistent served here clear).imp_right fun few => ?_
    omega

end

theorem Consistent.accept {s : State ρ} (consistent : Consistent s) (request : ρ) :
    Consistent (s.step (.accept request)) where
  pending := by
    have before := consistent.pending
    simp [State.step, State.counted] at before ⊢
    omega
  loop on := by simpa [State.step] using consistent.loop on
  tokens k := by
    have same : (s.step (.accept request)).total (Thread.holding k) =
        s.total (Thread.holding k) := by
      simp [State.step, Thread.holding]
    rw [same]
    exact consistent.tokens k

theorem Served.accept {s : State ρ} (served : Served s) {request : ρ}
    (few : ¬ 2 ^ 64 ≤ s.waiting + 1) : Served (s.step (.accept request)) where
  few := by
    simp [State.step, State.waiting] at few ⊢
    omega
  served := by
    refine served.served.imp_right fun few => ?_
    simp [State.step, State.counted] at few ⊢
    omega

theorem Consistent.step {s : State ρ} {e : Event ρ} (consistent : Consistent s)
    (allowed : s.Allowed e) : Consistent (s.step e) := by
  rcases State.step_cases allowed with
    ⟨request, rfl⟩ | ⟨i, t, shared, next, here, moves, same, -⟩
  · exact consistent.accept request
  · rw [same]
    exact consistent.moved here moves

theorem Served.step {s : State ρ} {e : Event ρ} (served : Served s) (consistent : Consistent s)
    (allowed : s.Allowed e) (clean : ¬ s.Strands e) : Served (s.step e) := by
  rcases State.step_cases allowed with
    ⟨request, rfl⟩ | ⟨i, t, shared, next, here, moves, same, event⟩
  · exact served.accept clean
  · rw [same]
    refine served.moved consistent here moves fun clear => ?_
    obtain ⟨choice, rfl⟩ := event clear
    subst clear
    exact Int.not_lt.mp fun more => clean ⟨here, more⟩

/-! ## Runs -/

/-- With no thread at work the pile is empty. -/
def State.StrandsNothing (s : State ρ) : Prop := s.threads = [] → s.shared.pile = []

/-- A token that was consumed is held by one thread, was spent on one executed request or was
returned once. -/
def State.AccountsForTokens (s : State ρ) : Prop :=
  ∀ k < s.shared.consumed, s.total (Thread.holding k) + s.used k = 1

theorem Served.strandsNothing {s : State ρ} (served : Served s) (consistent : Consistent s) :
    s.StrandsNothing := by
  intro idle
  have none (weight : Thread ρ → Int) : s.total weight = 0 :=
    ThreadPool.total_of_threads_nil idle
  rcases served.served with on | few
  · have loop := consistent.loop on
    rw [none] at loop
    exact absurd loop (by decide)
  · rw [State.counted, none, none] at few
    exact List.length_eq_zero_iff.mp (by omega)

theorem Consistent.accountsForTokens {s : State ρ} (consistent : Consistent s) :
    s.AccountsForTokens := fun k below => by
  rw [consistent.tokens k, if_pos below]

/-- In a run from the start every token is accounted for, and no request is stranded if slow
mode is never cleared while the pile has more counted requests than there are attempts and
calls of `onEnqueued` to serve them. -/
theorem strandsNothing_of_clean {events : List (Event ρ)}
    (run : Run State.step State.Allowed (State.initial ρ) events)
    (clean : Run State.step (fun s e => ¬ s.Strands e) (State.initial ρ) events) (n : Nat) :
    ((events.take n).foldl State.step (State.initial ρ)).StrandsNothing ∧
      ((events.take n).foldl State.step (State.initial ρ)).AccountsForTokens := by
  have both := ((run.and clean).take n).invariant ⟨.initial, .initial⟩
    fun s e (kept : Consistent s ∧ Served s) now =>
      ⟨kept.1.step now.1, kept.2.step kept.1 now.1 now.2⟩
  exact ⟨both.2.strandsNothing both.1, both.1.accountsForTokens⟩

/-- A run into slow mode: the bucket refuses, the loop schedules a task that executes the
request and a second one that finds nothing and is about to clear slow mode. -/
def throughSlowMode : List (Event Nat) :=
  [.accept 1, .advance 0 true, .advance 0 true, .advance 0 false, .advance 0 true,
    .advance 0 true, .advance 0 true, .advance 0 true, .advance 0 true, .advance 0 true,
    .dequeue 1 (.live 0), .advance 1 true, .advance 1 false, .advance 0 true, .advance 0 true,
    .advance 0 true, .dequeue 1 .nothing, .advance 1 true, .advance 1 true]

/-- Slow mode is cleared and the loop leaves. -/
def slowModeEnds : List (Event Nat) :=
  throughSlowMode ++ [.advance 1 true, .advance 0 true]

/-- A request arrives before slow mode is cleared. -/
def lateRequest : List (Event Nat) :=
  throughSlowMode ++ [.accept 2, .advance 0 true, .advance 0 true, .advance 0 true,
    .advance 1 true, .advance 0 true]

theorem strandsNothing_slowModeEnds :
    (slowModeEnds.foldl State.step (State.initial Nat)).StrandsNothing ∧
      (slowModeEnds.foldl State.step (State.initial Nat)).AccountsForTokens := by
  have run : Run State.step State.Allowed (State.initial Nat) slowModeEnds := by decide +kernel
  have kept := strandsNothing_of_clean run (by decide +kernel) slowModeEnds.length
  rwa [List.take_length] at kept

/-- The late request finds slow mode enabled, the task clears it, the loop leaves, and no thread
is left to dequeue the request. -/
theorem strandsNothing_fails : Run State.step State.Allowed (State.initial Nat) lateRequest ∧
      ¬ (lateRequest.foldl State.step (State.initial Nat)).StrandsNothing := by
  refine ⟨by decide +kernel, fun holds => ?_⟩
  exact absurd (holds (by decide +kernel)) (by decide +kernel)

end TokenBucketConcurrencyController

end FbThrift
