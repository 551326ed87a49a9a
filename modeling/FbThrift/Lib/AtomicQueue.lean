import Mathlib.Data.List.Basic

/-!
# Atomic queues

Some threads push messages and one consumer takes all of them at once.  When there are none it
can wait: the next push wakes it, once.  A consumer is woken to run a task on an event base or
to resume behind a baton.
-/

namespace FbThrift

variable {μ : Type}

/-- The messages that nobody has taken, a consumer that waits for the first, or closed. -/
inductive AtomicQueue (μ : Type) where
  | messages (queue : List μ)
  | consumer
  | closed
  deriving DecidableEq, Repr

namespace AtomicQueue

/-- What a consumer that wants to wait is told. -/
inductive Wait where
  | ready
  | scheduled
  | canceled
  deriving DecidableEq, Repr

/-- `push`, and whether it wakes the consumer. -/
def push (m : μ) : AtomicQueue μ → AtomicQueue μ × Bool
  | messages queue => (messages (queue ++ [m]), false)
  | consumer => (messages [m], true)
  | closed => (closed, false)

/-- `wait`, which only the consumer calls. -/
def wait : AtomicQueue μ → AtomicQueue μ × Wait
  | messages [] | consumer => (consumer, .scheduled)
  | messages (m :: queue) => (messages (m :: queue), .ready)
  | closed => (closed, .canceled)

/-- What `getMessages` takes. -/
def held : AtomicQueue μ → List μ
  | messages queue => queue
  | _ => []

/-- What `getMessages` leaves. -/
def emptied : AtomicQueue μ → AtomicQueue μ
  | messages _ => messages []
  | queue => queue

/-- `cancelCallback`, and whether it finds the consumer. -/
def cancelCallback : AtomicQueue μ → AtomicQueue μ × Bool
  | consumer => (messages [], true)
  | queue => (queue, false)

/-- `close` cancels the consumer. -/
def cancels : AtomicQueue μ → Bool
  | consumer => true
  | _ => false

theorem held_push {q : AtomicQueue μ} (isOpen : q ≠ closed) (m : μ) :
    (q.push m).1.held = q.held ++ [m] := by
  cases q with
  | messages queue => rfl
  | consumer => rfl
  | closed => exact absurd rfl isOpen

theorem held_emptied (q : AtomicQueue μ) : q.emptied.held = [] := by
  cases q <;> rfl

theorem emptied_eq_consumer {q : AtomicQueue μ} : q.emptied = consumer ↔ q = consumer := by
  cases q <;> simp [emptied]

theorem emptied_eq_closed {q : AtomicQueue μ} : q.emptied = closed ↔ q = closed := by
  cases q <;> simp [emptied]

end AtomicQueue

/-! ## Tasks -/

/-- What the event base does for the consumer. -/
inductive TaskPhase (μ : Type) where
  | idle
  /-- About to take the messages. -/
  | taking
  | handling (batch : List μ)
  deriving DecidableEq, Repr

/-- The messages that were taken and not yet handled. -/
def TaskPhase.batch : TaskPhase μ → List μ
  | handling batch => batch
  | _ => []

def TaskPhase.running : TaskPhase μ → Nat
  | idle => 0
  | _ => 1

/-- A queue whose consumer adds a task to an event base when it is woken. -/
structure TaskQueue (μ : Type) where
  queue : AtomicQueue μ
  tasks : Nat
  phase : TaskPhase μ
  deriving DecidableEq, Repr

namespace TaskQueue

/-- The consumer waits from the start. -/
def waiting (μ : Type) : TaskQueue μ := ⟨.consumer, 0, .idle⟩

def push (q : TaskQueue μ) (m : μ) : TaskQueue μ where
  queue := (q.queue.push m).1
  tasks := q.tasks + (q.queue.push m).2.toNat
  phase := q.phase

/-- What the event base does next. -/
inductive Turn (μ : Type) where
  | goesOn
  | handles (m : μ)
  /-- The consumer waits again. -/
  | sleeps
  deriving DecidableEq, Repr

/-- The next step of the event base.  A task of a consumer that does not listen ends at once. -/
def turn (q : TaskQueue μ) (listens : Bool) : TaskQueue μ × Turn μ :=
  match q.phase with
  | .idle =>
    if listens then ({ q with tasks := q.tasks - 1, phase := .taking }, .goesOn)
    else ({ q with tasks := q.tasks - 1 }, .goesOn)
  | .taking => ({ q with queue := q.queue.emptied, phase := .handling q.queue.held }, .goesOn)
  | .handling (m :: rest) => ({ q with phase := .handling rest }, .handles m)
  | .handling [] =>
    match q.queue.wait with
    | (queue, .ready) => ({ q with queue := queue, phase := .taking }, .goesOn)
    | (queue, _) => ({ q with queue := queue, phase := .idle }, .sleeps)

/-- The message that is handled. -/
def Turn.handled : Turn μ → List μ
  | handles m => [m]
  | _ => []

/-- The queue is closed by its consumer. -/
def close (q : TaskQueue μ) : TaskQueue μ := { q with queue := .closed, phase := .idle }

/-- What was pushed and not yet handled. -/
def underway (q : TaskQueue μ) : List μ := q.phase.batch ++ q.queue.held

/-- Nothing is left to do on the event base. -/
def Quiet (q : TaskQueue μ) : Prop := q.tasks = 0 ∧ q.phase = .idle

instance [DecidableEq μ] (q : TaskQueue μ) : Decidable q.Quiet :=
  inferInstanceAs (Decidable (_ ∧ _))

/-- While the queue is open, either its consumer waits or one task is on its way. -/
structure Awake (q : TaskQueue μ) : Prop where
  isOpen : q.queue ≠ .closed
  asleep : q.queue = .consumer → q.Quiet
  awake : q.queue ≠ .consumer → q.tasks + q.phase.running = 1

variable {q : TaskQueue μ} {m : μ} {rest : List μ}

theorem awake_waiting : (waiting μ).Awake where
  isOpen := nofun
  asleep _ := ⟨rfl, rfl⟩
  awake busy := absurd rfl busy

/-- A quiet event base has nothing before it. -/
theorem Awake.underway_eq_nil (awake : q.Awake) (quiet : q.Quiet) : q.underway = [] := by
  obtain ⟨tasks, phase⟩ := quiet
  have asleep : q.queue = .consumer := by
    by_contra busy
    have one := awake.awake busy
    rw [tasks, phase] at one
    cases one
  rw [underway, phase, asleep]
  rfl

theorem Awake.push (awake : q.Awake) (m : μ) : (q.push m).Awake := by
  obtain ⟨queue, tasks, phase⟩ := q
  cases queue with
  | messages queue =>
    exact ⟨nofun, nofun, fun _ => awake.awake nofun⟩
  | consumer =>
    obtain ⟨rfl, rfl⟩ := awake.asleep rfl
    exact ⟨nofun, nofun, fun _ => rfl⟩
  | closed => exact absurd rfl awake.isOpen

theorem underway_push (awake : q.Awake) (m : μ) : (q.push m).underway = q.underway ++ [m] := by
  change q.phase.batch ++ (q.queue.push m).1.held = _
  rw [AtomicQueue.held_push awake.isOpen, ← List.append_assoc]
  rfl

theorem push_closed (closed : q.queue = .closed) (m : μ) : q.push m = q := by
  obtain ⟨queue, tasks, phase⟩ := q
  cases closed
  rfl

theorem Awake.not_consumer (awake : q.Awake) (busy : 0 < q.tasks + q.phase.running) :
    q.queue ≠ .consumer := by
  intro asleep
  obtain ⟨tasks, phase⟩ := awake.asleep asleep
  rw [tasks, phase] at busy
  cases busy

theorem Awake.turn (awake : q.Awake) (task : 0 < q.tasks + q.phase.running) :
    (q.turn true).1.Awake ∧ q.underway = (q.turn true).2.handled ++ (q.turn true).1.underway := by
  have busy := awake.not_consumer task
  have one := awake.awake busy
  obtain ⟨queue, tasks, phase⟩ := q
  cases queue with
  | consumer => exact absurd rfl busy
  | closed => exact absurd rfl awake.isOpen
  | messages queue =>
    cases phase with
    | idle =>
      have first : tasks = 1 := one
      subst first
      exact ⟨⟨nofun, nofun, fun _ => rfl⟩, rfl⟩
    | taking => exact ⟨⟨nofun, nofun, fun _ => one⟩, (List.append_nil queue).symm⟩
    | handling batch =>
      have last : tasks = 0 := Nat.succ.inj one
      subst last
      cases batch with
      | cons m rest => exact ⟨⟨nofun, nofun, fun _ => rfl⟩, rfl⟩
      | nil =>
        cases queue with
        | nil => exact ⟨⟨nofun, fun _ => ⟨rfl, rfl⟩, fun busy => absurd rfl busy⟩, rfl⟩
        | cons m queue => exact ⟨⟨nofun, nofun, fun _ => rfl⟩, rfl⟩

/-- The consumer of a closed queue does not listen. -/
theorem turn_closed (idle : q.phase = .idle) :
    q.turn false = ({ q with tasks := q.tasks - 1 }, .goesOn) := by
  rw [turn, idle]
  rfl

theorem idle_of_turn {listens : Bool} (idle : (q.turn listens).1.phase = .idle) :
    (q.turn listens).2 = .sleeps ∨ q.phase = .idle ∧ (q.turn listens).2 = .goesOn := by
  obtain ⟨queue, tasks, phase⟩ := q
  cases phase with
  | idle =>
    cases listens with
    | true => cases idle
    | false => exact .inr ⟨rfl, rfl⟩
  | taking => cases idle
  | handling batch =>
    cases batch with
    | cons m rest => cases idle
    | nil =>
      cases queue with
      | consumer => exact .inl rfl
      | closed => exact .inl rfl
      | messages queue =>
        cases queue with
        | nil => exact .inl rfl
        | cons m queue => cases idle

end TaskQueue

/-! ## Batons -/

/-- A queue whose consumer is a coroutine that a baton resumes. -/
structure BatonQueue (μ : Type) where
  queue : AtomicQueue μ
  posted : Bool
  deriving DecidableEq, Repr

namespace BatonQueue

def empty (μ : Type) : BatonQueue μ := ⟨.messages [], false⟩

def push (q : BatonQueue μ) (m : μ) : BatonQueue μ where
  queue := (q.queue.push m).1
  posted := q.posted || (q.queue.push m).2

/-- `wait` with a new consumer, and whether it is to be waited for. -/
def wait (q : BatonQueue μ) : BatonQueue μ × Bool :=
  match q.queue.wait with
  | (queue, .ready) => (⟨queue, false⟩, false)
  | (queue, .scheduled) => (⟨queue, false⟩, true)
  | (queue, .canceled) => (⟨queue, true⟩, true)

def cancelCallback (q : BatonQueue μ) : BatonQueue μ where
  queue := q.queue.cancelCallback.1
  posted := q.posted || q.queue.cancelCallback.2

def close (q : BatonQueue μ) : BatonQueue μ where
  queue := .closed
  posted := q.posted || q.queue.cancels

def take (q : BatonQueue μ) : BatonQueue μ := { q with queue := q.queue.emptied }

/-- A consumer that was made to wait is registered until it is woken. -/
structure Waiting (q : BatonQueue μ) : Prop where
  asleep : q.queue = .consumer → q.posted = false
  awake : q.queue ≠ .consumer → q.posted = true

variable {q : BatonQueue μ}

theorem Waiting.wake {queue : AtomicQueue μ} {wakes : Bool} (waiting : q.Waiting)
    (up : queue ≠ .consumer) (woken : q.queue = .consumer → wakes = true) :
    (⟨queue, q.posted || wakes⟩ : BatonQueue μ).Waiting where
  asleep asleep := absurd asleep up
  awake _ := by
    by_cases asleep : q.queue = .consumer
    · rw [woken asleep]
      exact Bool.or_true _
    · rw [waiting.awake asleep]
      rfl

theorem Waiting.push (waiting : q.Waiting) (m : μ) : (q.push m).Waiting := by
  refine waiting.wake ?_ fun asleep => by rw [asleep]; rfl
  cases q.queue <;> exact nofun

theorem Waiting.cancelCallback (waiting : q.Waiting) : q.cancelCallback.Waiting := by
  refine waiting.wake ?_ fun asleep => by rw [asleep]; rfl
  cases q.queue <;> exact nofun

theorem Waiting.close (waiting : q.Waiting) : q.close.Waiting :=
  waiting.wake nofun fun asleep => by rw [asleep]; rfl

theorem up_push (up : q.queue ≠ .consumer) (m : μ) : (q.push m).queue ≠ .consumer := by
  obtain ⟨queue, posted⟩ := q
  cases queue with
  | messages queue => exact nofun
  | consumer => exact absurd rfl up
  | closed => exact nofun

theorem push_closed (closed : q.queue = .closed) (m : μ) : (q.push m).queue = .closed := by
  rw [BatonQueue.push, closed]
  rfl

theorem isOpen_push (isOpen : q.queue ≠ .closed) (m : μ) : (q.push m).queue ≠ .closed := by
  obtain ⟨queue, posted⟩ := q
  cases queue with
  | messages queue => exact nofun
  | consumer => exact nofun
  | closed => exact absurd rfl isOpen

/-- A wait leaves what was pushed, and ends at once only if there is something. -/
theorem wait_cases (q : BatonQueue μ) :
    (∃ m queue, q.queue = .messages (m :: queue) ∧ q.wait = (⟨q.queue, false⟩, false)) ∨
      (q.queue = .closed ∧ q.wait = (⟨.closed, true⟩, true)) ∨
      (q.queue.held = [] ∧ q.queue ≠ .closed ∧ q.wait = (⟨.consumer, false⟩, true)) := by
  obtain ⟨queue, posted⟩ := q
  cases queue with
  | messages queue =>
    cases queue with
    | nil => exact .inr (.inr ⟨rfl, nofun, rfl⟩)
    | cons m queue => exact .inl ⟨m, queue, rfl, rfl⟩
  | consumer => exact .inr (.inr ⟨rfl, nofun, rfl⟩)
  | closed => exact .inr (.inl ⟨rfl, rfl⟩)

theorem waiting_scheduled : (⟨.consumer, false⟩ : BatonQueue μ).Waiting :=
  ⟨fun _ => rfl, fun up => absurd rfl up⟩

theorem held_cancelCallback (q : BatonQueue μ) : q.cancelCallback.queue.held = q.queue.held := by
  obtain ⟨queue, posted⟩ := q
  cases queue <;> rfl

theorem isOpen_cancelCallback (isOpen : q.queue ≠ .closed) : q.cancelCallback.queue ≠ .closed := by
  obtain ⟨queue, posted⟩ := q
  cases queue with
  | messages queue => exact nofun
  | consumer => exact nofun
  | closed => exact absurd rfl isOpen

end BatonQueue

end FbThrift
