import Mathlib.Algebra.Order.BigOperators.Group.List
import FbThrift.Lib.Run

/-!
# Loops that grant credits

A producer sends messages, some of which cost a credit each, and sends no such message without one.
A consumer fetches what has arrived, takes one message after the other, keeps its own count of the
credits that are outstanding, and grants more.

A loop is lawful when the handling of each message keeps its count; then in every run the count is
what was granted less what was taken, it is positive wherever the consumer is to wait, and no
grant is empty.
-/

namespace FbThrift.CreditLoop

variable {σ μ : Type}

/-- The local variables of a loop, and what its body does with them. -/
structure Consumer (σ μ : Type) where
  /-- The messages that cost a credit. -/
  charged : μ → Bool
  /-- The messages that end the stream. -/
  last : μ → Bool
  /-- New messages are fetched also while there are fetched ones. -/
  eager : Bool
  outstanding : σ → Int
  /-- Fetched messages join the queue. -/
  append : List μ → σ → σ
  /-- A message that the loop goes on after, with the grants it makes. -/
  handle : μ → σ → σ × List Int

/-- A stream between its two ends. -/
structure Channel (σ μ : Type) where
  client : σ
  /-- The messages that the consumer has fetched. -/
  queue : List μ
  /-- The messages that have arrived and are not fetched. -/
  bridge : List μ
  granted : Int
  /-- The charged messages that were sent, and those that were taken. -/
  sent : Nat
  taken : Nat
  requests : List Int
  closed : Bool
  finished : Bool

inductive Event (μ : Type) where
  | send (m : μ)
  /-- An iteration of the loop; the consumer may leave at the message that it takes. -/
  | receive (stop : Bool)
  | cancel

namespace Consumer

variable (C : Consumer σ μ)

/-- The credits that messages cost. -/
def cost (ms : List μ) : Nat := ms.countP C.charged

def fetch (s : Channel σ μ) : Channel σ μ :=
  if C.eager || s.queue.isEmpty then
    { s with client := C.append s.bridge s.client, queue := s.queue ++ s.bridge, bridge := [] }
  else s

/-- The message at the front of the queue. -/
def process (stop : Bool) (s : Channel σ μ) : Channel σ μ :=
  match s.queue with
  | [] => s
  | m :: rest =>
    if C.last m || stop then
      { s with queue := rest, taken := s.taken + C.cost [m], finished := true }
    else
      { s with
        client := (C.handle m s.client).1
        queue := rest
        taken := s.taken + C.cost [m]
        granted := s.granted + (C.handle m s.client).2.sum
        requests := s.requests ++ (C.handle m s.client).2 }

def step (s : Channel σ μ) : Event μ → Channel σ μ
  | .send m =>
    { s with bridge := s.bridge ++ [m], sent := s.sent + C.cost [m], closed := C.last m }
  | .receive stop => C.process stop (C.fetch s)
  | .cancel => { s with finished := true }

/-- What may happen: the producer keeps to its credits and to the end of the stream, and the
consumer waits for messages. -/
def Allowed (s : Channel σ μ) : Event μ → Prop
  | .send m => s.closed = false ∧ (C.charged m = true → (s.sent : Int) < s.granted)
  | .receive _ => s.finished = false ∧ (s.queue ≠ [] ∨ s.bridge ≠ [])
  | .cancel => s.finished = false

/-- The messages that an iteration handles meet a condition. -/
def Handles (clean : σ → μ → Prop) (s : Channel σ μ) : Event μ → Prop
  | .receive false => ∀ m rest, (C.fetch s).queue = m :: rest → C.last m = false →
      clean (C.fetch s).client m
  | _ => True

/-- The account of the consumer at the head of its loop. -/
structure Exact (cap : Int) (s : Channel σ μ) : Prop where
  asked : ∀ n ∈ s.requests, 1 ≤ n
  balance : s.finished = false → C.outstanding s.client = s.granted - s.taken
  capped : s.finished = false → C.outstanding s.client ≤ cap
  /-- A consumer that waits for an open stream has credits outstanding. -/
  waits : s.finished = false → s.queue = [] → s.bridge = [] → s.closed = false →
    C.outstanding s.client ≠ 0

/-- What the handling of a message must do, with the messages behind it. -/
structure Handled (cap : Int) (own : σ → List μ → Prop) (m : μ) (rest : List μ) (c : σ) : Prop where
  balance : C.outstanding (C.handle m c).1 = C.outstanding c - C.cost [m] + (C.handle m c).2.sum
  positive : 1 ≤ C.outstanding (C.handle m c).1
  capped : C.outstanding (C.handle m c).1 ≤ cap
  asked : ∀ n ∈ (C.handle m c).2, 1 ≤ n
  own : own (C.handle m c).1 rest

/-- A loop that keeps its account on clean messages; `own` is what its other variables say about
the queue. -/
structure Lawful (cap : Int) (own : σ → List μ → Prop) (clean : σ → μ → Prop) : Prop where
  append : ∀ {c queue} ms, own c queue → own (C.append ms c) (queue ++ ms)
  outstanding_append : ∀ ms c, C.outstanding (C.append ms c) = C.outstanding c
  handle : ∀ {c m rest}, own c (m :: rest) → clean c m → C.outstanding c ≤ cap →
    1 ≤ C.outstanding c → (C.cost (m :: rest) : Int) ≤ C.outstanding c →
    C.Handled cap own m rest c

/-- What holds at every loop head. -/
structure Kept (cap : Int) (own : σ → List μ → Prop) (s : Channel σ μ) : Prop where
  asked : ∀ n ∈ s.requests, 1 ≤ n
  balance : s.finished = false → C.outstanding s.client = s.granted - s.taken
  positive : s.finished = false → 1 ≤ C.outstanding s.client
  capped : s.finished = false → C.outstanding s.client ≤ cap
  sent : s.sent = s.taken + C.cost s.queue + C.cost s.bridge
  afforded : (s.sent : Int) ≤ s.granted
  own : s.finished = false → own s.client s.queue

variable {C} {cap : Int} {own : σ → List μ → Prop} {clean : σ → μ → Prop} {s : Channel σ μ}

theorem Kept.exact (kept : C.Kept cap own s) : C.Exact cap s where
  asked := kept.asked
  balance := kept.balance
  capped := kept.capped
  waits running _ _ _ := by
    have positive := kept.positive running
    omega

theorem cost_append (ms ms' : List μ) : C.cost (ms ++ ms') = C.cost ms + C.cost ms' :=
  List.countP_append

theorem cost_cons (m : μ) (ms : List μ) : C.cost (m :: ms) = C.cost [m] + C.cost ms :=
  C.cost_append [m] ms

theorem kept_fetch (lawful : C.Lawful cap own clean) (kept : C.Kept cap own s) :
    C.Kept cap own (C.fetch s) := by
  unfold fetch
  split
  · have count := lawful.outstanding_append s.bridge s.client
    exact {
      asked := kept.asked
      balance := fun running => count.trans (kept.balance running)
      positive := fun running => count ▸ kept.positive running
      capped := fun running => count ▸ kept.capped running
      sent := by
        rw [kept.sent, cost_append, Nat.add_assoc]
        rfl
      afforded := kept.afforded
      own := fun running => lawful.append s.bridge (kept.own running) }
  · exact kept

theorem fetch_finished : (C.fetch s).finished = s.finished := by
  unfold fetch
  split <;> rfl

theorem kept_process (lawful : C.Lawful cap own clean) {stop : Bool} (kept : C.Kept cap own s)
    (running : s.finished = false)
    (handles : stop = false → ∀ m rest, s.queue = m :: rest → C.last m = false →
      clean s.client m) : C.Kept cap own (C.process stop s) := by
  unfold process
  split
  · exact kept
  · rename_i m rest queue
    have sent : s.sent = s.taken + C.cost [m] + C.cost rest + C.cost s.bridge := by
      rw [kept.sent, queue, cost_cons]
      omega
    split
    · exact {
        asked := kept.asked
        balance := nofun
        positive := nofun
        capped := nofun
        sent := sent
        afforded := kept.afforded
        own := nofun }
    · rename_i goes
      obtain ⟨inner, stays⟩ := Bool.or_eq_false_iff.mp (Bool.eq_false_iff.mpr goes)
      have balance := kept.balance running
      have afforded := kept.afforded
      have held : (C.cost (m :: rest) : Int) ≤ C.outstanding s.client := by
        rw [cost_cons]
        omega
      have handled := lawful.handle (queue ▸ kept.own running) (handles stays m rest queue inner)
        (kept.capped running) (kept.positive running) held
      have gained : 0 ≤ (C.handle m s.client).2.sum :=
        List.sum_nonneg fun n inside => (Int.zero_lt_one.le).trans (handled.asked n inside)
      exact {
        asked := by
          intro n inside
          rcases List.mem_append.mp inside with old | new
          · exact kept.asked n old
          · exact handled.asked n new
        balance := fun _ => by
          change C.outstanding (C.handle m s.client).1 = _
          rw [handled.balance, balance]
          push_cast
          omega
        positive := fun _ => handled.positive
        capped := fun _ => handled.capped
        sent := sent
        afforded := by
          change (s.sent : Int) ≤ s.granted + _
          omega
        own := fun _ => handled.own }

theorem kept_step (lawful : C.Lawful cap own clean) {e : Event μ} (kept : C.Kept cap own s)
    (allowed : C.Allowed s e) (handles : C.Handles clean s e) : C.Kept cap own (C.step s e) := by
  cases e with
  | send m =>
    obtain ⟨-, credit⟩ := allowed
    have price : C.cost [m] = if C.charged m then 1 else 0 := List.countP_singleton
    have total : (s.sent + C.cost [m] : Int) ≤ s.granted := by
      have afforded := kept.afforded
      rw [price]
      split
      · rename_i charged
        have room := credit charged
        push_cast
        omega
      · simpa using afforded
    exact {
      asked := kept.asked
      balance := kept.balance
      positive := kept.positive
      capped := kept.capped
      sent := by
        change s.sent + C.cost [m] = s.taken + C.cost s.queue + C.cost (s.bridge ++ [m])
        rw [kept.sent, cost_append]
        omega
      afforded := by exact_mod_cast total
      own := kept.own }
  | receive stop =>
    refine kept_process lawful (kept_fetch lawful kept) (fetch_finished.trans allowed.1) ?_
    rintro rfl m rest queue inner
    exact handles m rest queue inner
  | cancel =>
    exact {
      asked := kept.asked
      balance := nofun
      positive := nofun
      capped := nofun
      sent := kept.sent
      afforded := kept.afforded
      own := nofun }

/-- In a run that handles clean messages only, the account is exact at every loop head. -/
theorem kept_run (lawful : C.Lawful cap own clean) {es : List (Event μ)} (start : C.Kept cap own s)
    (run : Run C.step C.Allowed s es) (handles : Run C.step (C.Handles clean) s es) (n : Nat) :
    C.Kept cap own ((es.take n).foldl C.step s) :=
  ((run.and handles).take n).invariant start fun _ _ kept both =>
    kept_step lawful kept both.1 both.2

/-- Where every message that is not clean shows in the account, the account is exact at every loop
head if and only if the run handles clean messages only. -/
theorem exact_iff (lawful : C.Lawful cap own clean) (shows : ∀ {c m}, ¬ clean c m →
      C.outstanding (C.handle m c).1 ≠ C.outstanding c - C.cost [m] + (C.handle m c).2.sum ∨
        ∃ n ∈ (C.handle m c).2, n < 1)
    {es : List (Event μ)} (start : C.Kept cap own s) (run : Run C.step C.Allowed s es) :
    (∀ n, C.Exact cap ((es.take n).foldl C.step s)) ↔ Run C.step (C.Handles clean) s es := by
  refine run.clean_iff start (fun _ => Kept.exact)
    (fun _ _ kept allowed handles => kept_step lawful kept allowed handles) ?_
  intro s e kept allowed exact
  cases e with
  | send m => trivial
  | cancel => trivial
  | receive stop =>
    cases stop with
    | true => trivial
    | false =>
      intro m rest queue inner
      by_contra dirty
      have running : (C.fetch s).finished = false := fetch_finished.trans allowed.1
      have balance := (kept_fetch lawful kept).balance running
      have next : C.step s (.receive false) = C.process false (C.fetch s) := rfl
      rw [next, process, queue] at exact
      dsimp only at exact
      rw [inner, if_neg (by simp)] at exact
      rcases shows dirty with lost | ⟨n, inside, empty⟩
      · have account : C.outstanding (C.handle m (C.fetch s).client).1 = _ :=
          exact.balance running
        refine lost (account.trans ?_)
        rw [balance]
        push_cast
        omega
      · have asked := exact.asked n (List.mem_append.mpr (.inr inside))
        omega

end Consumer

end FbThrift.CreditLoop
