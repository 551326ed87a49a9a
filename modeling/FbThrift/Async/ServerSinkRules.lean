import FbThrift.Async.ServerSinkBridge
import FbThrift.Async.ClientSinkRules

/-!
# What the server's end of a sink keeps

The generator yields what arrives in its order and counts what was consumed.  The credits that
were given are with the event base or have left the bridge, which is closed once.
-/

namespace FbThrift

namespace Sink

variable {π ε : Type}

/-! ## The invariant -/

def GeneratorAt.counter : GeneratorAt π ε → Int32
  | wait counter | hook counter | parked counter | safePoint counter | collect counter
  | drain _ counter | refill _ counter => counter

/-- What was consumed and not given credit for, unless the generator is done. -/
def Generator.counter : Generator π ε → Option Int32
  | unstarted => some 0
  | running at_ => some at_.counter
  | yielded _ counter => some counter
  | failed | ended => none

def Generator.counted (generator : Generator π ε) : Int :=
  (generator.counter.map Int32.toInt).getD 0

/-- The messages that were taken and not yielded. -/
def Generator.held : Generator π ε → List (ClientMessage π ε)
  | running (.drain messages _) | running (.refill messages _) | yielded messages _ => messages
  | _ => []

/-- A payload is with the consumer. -/
def Generator.lent : Generator π ε → Nat
  | yielded _ _ => 1
  | _ => 0

/-- The consumer of the queue is registered or was woken. -/
def Generator.Parked : Generator π ε → Prop
  | running (.hook _) | running (.parked _) => True
  | _ => False

/-- The generator is done or about to see that it was cancelled. -/
def Generator.Stops (cancelled : Bool) : Generator π ε → Prop
  | running (.parked _) | running (.safePoint _) => cancelled
  | ended => True
  | _ => False

/-- More than half of a buffer is given back at once, and less is kept. -/
def Generator.Counts (bufferSize : Int) : Generator π ε → Prop
  | running (.refill _ counter) => 0 < counter.toInt ∧ counter.toInt ≤ bufferSize / 2 + 1
  | generator => ∀ counter, generator.counter = some counter →
      0 ≤ counter.toInt ∧ counter.toInt ≤ bufferSize / 2

theorem Generator.Counts.nonneg {bufferSize : Int} {generator : Generator π ε}
    (counts : generator.Counts bufferSize) : 0 ≤ generator.counted := by
  rcases generator with _ | (_ | _ | _ | _ | _ | _ | ⟨messages, counter⟩) | _ | _ | _
  case running.refill => exact counts.1.le
  case failed => exact Int.le_refl 0
  case ended => exact Int.le_refl 0
  all_goals exact (counts _ rfl).1

/-- What arrives is yielded in its order. -/
structure Yields (generator : Generator π ε) (queue : BatonQueue (ClientMessage π ε))
    (nextCancelled : Bool) (received : List (ServerCall π ε)) (yielded : List (Try π ε)) :
    Prop where
  waiting : generator.Parked → queue.Waiting
  up : ¬ generator.Parked → queue.queue ≠ .consumer
  stops : queue.queue = .closed → generator.Stops nextCancelled
  delivers : generator.counter.isSome → queue.queue ≠ .closed →
    yielded.map .payloadOrError ++ (generator.held ++ queue.queue.held) =
      received.map ServerCall.message
  inOrder : yielded.map .payloadOrError <+: received.map ServerCall.message

/-- Payloads count as consumed when the consumer comes back. -/
structure Consumes (generator : Generator π ε) (bufferSize : Int) (yielded : List (Try π ε))
    (consumed : Nat) : Prop where
  counts : generator.Counts bufferSize
  covered : consumed + generator.lent ≤ payloads (yielded.map .payloadOrError)
  settled : generator.counter.isSome →
    consumed + generator.lent = payloads (yielded.map .payloadOrError)

/-- The bridge is closed once, by an error or the response. -/
structure Responds (start : StartAt π ε) (queue : TaskQueue (ServerMessage π ε))
    (clientCallback clientException sinkComplete : Bool) (received : List (ServerCall π ε))
    (closes : Nat) : Prop where
  awake : clientCallback → queue.Awake
  unclosed : clientCallback → closes = 0
  closed : clientCallback = false → queue.queue = .closed ∧ queue.phase = .idle ∧ closes = 1
  unerring : clientCallback → ∀ call ∈ received, call.isError = false
  excepted : clientException → clientCallback = false
  closedBy : start ≠ .ended → clientCallback = false → ∃ call ∈ received, call.isError
  complete : sinkComplete = received.any ServerCall.isComplete
  positive : ∀ n, .requestN n ∈ queue.underway → 0 < n.toInt
  unfinished : start ≠ .ended → ∀ message ∈ queue.underway, message.isResponse = false
  finished : start = .ended → clientCallback → ∃ message ∈ queue.underway, message.isResponse

theorem Responds.closed_of_error {queue : TaskQueue (ServerMessage π ε)} {start : StartAt π ε}
    {clientCallback clientException sinkComplete : Bool} {received : List (ServerCall π ε)}
    {closes : Nat} (ok : Responds start queue clientCallback clientException sinkComplete received
      closes) {call : ServerCall π ε} (listed : call ∈ received) (error : call.isError) :
    clientCallback = false := by
  by_contra isOpen
  rw [ok.unerring (by simpa using isOpen) call listed] at error
  cases error

/-! ### Numbers -/

theorem toInt_half {size : Int32} (nonneg : 0 ≤ size.toInt) :
    (size / 2).toInt = size.toInt / 2 := by
  have two : (2 : Int32) ≠ -1 := by decide
  rw [Int32.toInt_div_of_ne_right size 2 two]
  exact Int.tdiv_eq_ediv_of_nonneg nonneg

theorem toInt_succ {counter : Int32} (small : counter.toInt < 2 ^ 31 - 1) :
    (counter + 1).toInt = counter.toInt + 1 := by
  have low := counter.le_toInt
  have one : (1 : Int32).toInt = 1 := rfl
  rw [Int32.toInt_add, one]
  apply Int.bmod_eq_of_le <;> omega

namespace ServerSinkBridge

structure Consistent (s : ServerSinkBridge π ε) : Prop where
  sized : 0 < s.bufferSize.toNat ∧ s.bufferSize.toNat < 2 ^ 31
  yields : Yields s.generator s.serverQueue s.nextCancelled s.received s.yielded
  consumes : Consumes s.generator s.bufferSize.toNat s.yielded s.consumed
  responds : Responds s.start s.clientQueue s.clientCallback s.clientException s.sinkComplete
    s.received s.closes

theorem Consistent.initial {bufferSize : UInt64} (positive : 0 < bufferSize.toNat)
    (small : bufferSize.toNat < 2 ^ 31) : (initial π ε bufferSize).Consistent where
  sized := ⟨positive, small⟩
  yields := ⟨nofun, fun _ => nofun, nofun, fun _ _ => rfl, List.prefix_rfl⟩
  consumes :=
    { counts := fun counter own => by
        cases own
        exact ⟨Int.le_refl 0, Int.ediv_nonneg (Int.natCast_nonneg _) (by decide)⟩
      covered := Nat.le_refl 0
      settled := fun _ => rfl }
  responds :=
    { awake := fun _ => TaskQueue.awake_waiting
      unclosed := fun _ => rfl
      closed := nofun
      unerring := fun _ => nofun
      excepted := nofun
      closedBy := fun _ => nofun
      complete := rfl
      positive := nofun
      unfinished := fun _ => nofun
      finished := nofun }

/-- The credits that were given, a buffer at the start and what was consumed, and are not in the
bridge. -/
def given (s : ServerSinkBridge π ε) : Int :=
  s.bufferSize.toNat * s.start.begun + s.consumed -
    (s.credits.toNat + credited s.clientQueue.underway)

/-- The credits that have left the bridge: what was consumed may wait to be given. -/
def passed (s : ServerSinkBridge π ε) : Int := s.given - s.generator.counted

/-- How many credits a step takes out of the bridge: as many as it calls for, if the bridge and
the generator go on, and never less. -/
structure Passes (s s' : ServerSinkBridge π ε) (called : Int) : Prop where
  grows : s.passed + called ≤ s'.passed
  exact : s'.clientCallback → s'.generator.counter.isSome → s'.sinkComplete = false →
    s'.passed = s.passed + called

variable {s s' : ServerSinkBridge π ε}

theorem Passes.of_eq (same : s'.passed = s.passed) : Passes s s' 0 where
  grows := by rw [same, Int.add_zero]
  exact _ _ _ := by rw [same, Int.add_zero]

namespace Consistent

/-- A step of the generator that gives no credit. -/
theorem goOn (ok : s.Consistent) (generator : Generator π ε)
    (counter : generator.counter = s.generator.counter) (lent : generator.lent = s.generator.lent)
    (counts : generator.Counts s.bufferSize.toNat) {queue : BatonQueue (ClientMessage π ε)}
    {nextCancelled : Bool}
    (yields : Yields generator queue nextCancelled s.received s.yielded) :
    Consistent { s with
      generator := generator, serverQueue := queue, nextCancelled := nextCancelled } ∧
    Passes s { s with
      generator := generator, serverQueue := queue, nextCancelled := nextCancelled } 0 := by
  refine ⟨⟨ok.sized, yields, ⟨counts, ?_, ?_⟩, ok.responds⟩, .of_eq ?_⟩
  · rw [lent]
    exact ok.consumes.covered
  · rw [lent, counter]
    exact ok.consumes.settled
  · change s.given - generator.counted = s.given - s.generator.counted
    rw [Generator.counted, counter, ← Generator.counted]

theorem stop (ok : s.Consistent) (parked : ¬ s.generator.Parked) (lent : s.generator.lent = 0)
    (counted : 0 ≤ s.generator.counted) :
    Consistent { s with generator := .ended } ∧ Passes s { s with generator := .ended } 0 := by
  refine ⟨⟨ok.sized, ⟨nofun, fun _ => ok.yields.up parked, fun _ => trivial, nofun,
    ok.yields.inOrder⟩, ⟨nofun, ?_, nofun⟩, ok.responds⟩, ?_, nofun⟩
  · have covered := ok.consumes.covered
    rwa [lent] at covered
  · change s.given - s.generator.counted + 0 ≤ s.given - 0
    omega

variable {counter : Int32} {messages : List (ClientMessage π ε)}

theorem resume_wait (ok : s.Consistent) (at_ : s.generator = .running (.wait counter)) :
    (s.resume (.wait counter)).Consistent ∧ Passes s (s.resume (.wait counter)) 0 := by
  have yields := ok.yields
  have counts := ok.consumes.counts
  rw [at_] at yields counts
  rcases BatonQueue.wait_cases s.serverQueue with
    ⟨m, queue, messages, found⟩ | ⟨closed, _⟩ | ⟨empty, isOpen, scheduled⟩
  · simp only [resume, found]
    refine ok.goOn (.running (.safePoint counter)) (by rw [at_]; rfl) (by rw [at_]; rfl) counts ?_
    exact
      { waiting := nofun
        up := fun _ => yields.up id
        stops := fun closed => absurd closed (by rw [messages]; nofun)
        delivers := yields.delivers
        inOrder := yields.inOrder }
  · exact (yields.stops closed).elim
  · simp only [resume, scheduled]
    have delivers := yields.delivers rfl isOpen
    rw [empty] at delivers
    refine ok.goOn (.running (.hook counter)) (by rw [at_]; rfl) (by rw [at_]; rfl) counts ?_
    exact
      { waiting := fun _ => BatonQueue.waiting_scheduled
        up := fun up => absurd trivial up
        stops := nofun
        delivers := fun _ _ => delivers
        inOrder := yields.inOrder }

theorem resume_hook (ok : s.Consistent) (at_ : s.generator = .running (.hook counter)) :
    (s.resume (.hook counter)).Consistent ∧ Passes s (s.resume (.hook counter)) 0 := by
  have yields := ok.yields
  have counts := ok.consumes.counts
  rw [at_] at yields counts
  refine ok.goOn (.running (.parked counter)) (by rw [at_]; rfl) (by rw [at_]; rfl) counts ?_
  cases cancelled : s.nextCancelled with
  | true =>
    rw [if_pos rfl]
    exact
      { waiting := fun _ => (yields.waiting trivial).close
        up := fun up => absurd trivial up
        stops := fun _ => rfl
        delivers := fun _ isOpen => absurd rfl isOpen
        inOrder := yields.inOrder }
  | false =>
    rw [if_neg Bool.false_ne_true]
    exact
      { waiting := fun _ => yields.waiting trivial
        up := fun up => absurd trivial up
        stops := fun closed => (yields.stops closed).elim
        delivers := yields.delivers
        inOrder := yields.inOrder }

theorem resume_parked (ok : s.Consistent) (at_ : s.generator = .running (.parked counter)) :
    (s.resume (.parked counter)).Consistent ∧ Passes s (s.resume (.parked counter)) 0 := by
  have yields := ok.yields
  have counts := ok.consumes.counts
  rw [at_] at yields counts
  simp only [resume]
  split
  next posted =>
    refine ok.goOn (.running (.safePoint counter)) (by rw [at_]; rfl) (by rw [at_]; rfl) counts ?_
    exact
      { waiting := nofun
        up := fun _ asleep => by
          rw [(yields.waiting trivial).asleep asleep] at posted
          cases posted
        stops := yields.stops
        delivers := yields.delivers
        inOrder := yields.inOrder }
  next => exact ⟨ok, .of_eq rfl⟩

theorem resume_safePoint (ok : s.Consistent) (at_ : s.generator = .running (.safePoint counter)) :
    (s.resume (.safePoint counter)).Consistent ∧ Passes s (s.resume (.safePoint counter)) 0 := by
  have yields := ok.yields
  have counts := ok.consumes.counts
  rw [at_] at yields counts
  simp only [resume]
  split
  next =>
    refine ok.stop (by rw [at_]; exact id) (by rw [at_]; rfl) ?_
    rw [at_]
    exact (counts counter rfl).1
  next going =>
    refine ok.goOn (.running (.collect counter)) (by rw [at_]; rfl) (by rw [at_]; rfl) counts ?_
    exact
      { waiting := nofun
        up := fun _ => yields.up id
        stops := fun closed => absurd (yields.stops closed) going
        delivers := yields.delivers
        inOrder := yields.inOrder }

theorem resume_collect (ok : s.Consistent) (at_ : s.generator = .running (.collect counter)) :
    (s.resume (.collect counter)).Consistent ∧ Passes s (s.resume (.collect counter)) 0 := by
  have yields := ok.yields
  have counts := ok.consumes.counts
  rw [at_] at yields counts
  refine ok.goOn (.running (.drain _ counter)) (by rw [at_]; rfl) (by rw [at_]; rfl) counts ?_
  exact
    { waiting := nofun
      up := fun _ asleep => yields.up id (AtomicQueue.emptied_eq_consumer.mp asleep)
      stops := fun closed => (yields.stops (AtomicQueue.emptied_eq_closed.mp closed)).elim
      delivers := fun _ isOpen => by
        have delivers := yields.delivers rfl fun closed =>
          isOpen (AtomicQueue.emptied_eq_closed.mpr closed)
        rw [BatonQueue.take, AtomicQueue.held_emptied, List.append_nil]
        exact delivers
      inOrder := yields.inOrder }

/-- The oldest message that was taken is the next that had arrived. -/
theorem next_of_drain (ok : s.Consistent) {message : ClientMessage π ε}
    (at_ : s.generator = .running (.drain (message :: messages) counter)) :
    s.serverQueue.queue ≠ .closed ∧ s.yielded.map .payloadOrError ++ message ::
      (messages ++ s.serverQueue.queue.held) = s.received.map ServerCall.message := by
  have yields := ok.yields
  rw [at_] at yields
  have isOpen : s.serverQueue.queue ≠ .closed := fun closed => (yields.stops closed).elim
  exact ⟨isOpen, yields.delivers rfl isOpen⟩

theorem resume_drain (ok : s.Consistent) (at_ : s.generator = .running (.drain messages counter)) :
    (s.drain counter messages).Consistent ∧ Passes s (s.drain counter messages) 0 := by
  have yields := ok.yields
  have counts := ok.consumes.counts
  have covered := ok.consumes.covered
  have settled := ok.consumes.settled
  rw [at_] at yields counts covered settled
  have up : s.serverQueue.queue ≠ .consumer := yields.up id
  have nonneg := (counts counter rfl).1
  cases messages with
  | nil =>
    refine ok.goOn (.running (.wait counter)) (by rw [at_]; rfl) (by rw [at_]; rfl) counts ?_
    exact
      { waiting := nofun
        up := fun _ => up
        stops := yields.stops
        delivers := yields.delivers
        inOrder := yields.inOrder }
  | cons message messages =>
    obtain ⟨isOpen, arrived⟩ := ok.next_of_drain at_
    have yielded : ∀ item : Try π ε, message = .payloadOrError item →
        (s.yielded ++ [item]).map .payloadOrError ++ (messages ++ s.serverQueue.queue.held) =
          s.received.map ServerCall.message := by
      intro item same
      rw [List.map_append, List.append_assoc, List.map_singleton, ← same]
      exact arrived
    have more : ∀ item : Try π ε, payloads ((s.yielded ++ [item]).map .payloadOrError) =
        payloads (s.yielded.map .payloadOrError) + payloads [.payloadOrError item] := by
      intro item
      rw [List.map_append, payloads_append]
      rfl
    have one := settled rfl
    cases message with
    | complete =>
      refine ok.stop (by rw [at_]; exact id) (by rw [at_]; rfl) ?_
      rw [at_]
      exact nonneg
    | payloadOrError item =>
      have inOrder : (s.yielded ++ [item]).map .payloadOrError <+:
          s.received.map ServerCall.message := ⟨_, yielded item rfl⟩
      have listed : .payloadOrError item ∈ s.received.map ServerCall.message := by
        rw [← arrived]
        simp
      obtain ⟨call, received, same⟩ := List.mem_map.mp listed
      cases item with
      | exception error =>
        have closed : s.clientCallback = false := by
          cases call <;> cases same
          exact Responds.closed_of_error ok.responds received rfl
        refine ⟨⟨ok.sized, ⟨nofun, fun _ => up, fun closed => absurd closed isOpen, nofun, inOrder⟩,
          ⟨nofun, ?_, nofun⟩, { ok.responds with excepted := fun _ => closed }⟩, ?_, nofun⟩
        · change s.consumed + 0 ≤
            payloads ((s.yielded ++ [Try.exception error]).map .payloadOrError)
          rw [more]
          exact covered
        · change s.given - s.generator.counted + 0 ≤ s.given - 0
          rw [at_]
          change s.given - counter.toInt + 0 ≤ s.given - 0
          omega
      | value payload =>
        refine ⟨⟨ok.sized, ⟨nofun, fun _ => up, fun closed => absurd closed isOpen,
            fun _ _ => yielded _ rfl, inOrder⟩,
          ⟨counts, ?_, fun _ => ?_⟩, ok.responds⟩, .of_eq ?_⟩
        · change s.consumed + 1 ≤ payloads ((s.yielded ++ [Try.value payload]).map .payloadOrError)
          rw [more]
          exact Nat.succ_le_succ covered
        · change s.consumed + 1 = payloads ((s.yielded ++ [Try.value payload]).map .payloadOrError)
          rw [more]
          exact congrArg Nat.succ one
        · change s.given - counter.toInt = s.given - s.generator.counted
          rw [at_]
          rfl
      | empty =>
        -- the transport does not push it
        cases call <;> cases same

/-- What is pushed to the event base stays until it is handled, unless the bridge is closed. -/
theorem credited_push (ok : s.Consistent) (message : ServerMessage π ε)
    (nonneg : 0 ≤ message.credits) :
    credited (s.clientQueue.push message).underway ≤
        credited s.clientQueue.underway + message.credits ∧
      (s.clientCallback → credited (s.clientQueue.push message).underway =
        credited s.clientQueue.underway + message.credits) := by
  cases isOpen : s.clientCallback with
  | true =>
    have same : credited (s.clientQueue.push message).underway =
        credited s.clientQueue.underway + message.credits := by
      rw [TaskQueue.underway_push (ok.responds.awake isOpen), credited_append]
      exact congrArg _ (Int.add_zero _)
    exact ⟨same.le, fun _ => same⟩
  | false =>
    rw [TaskQueue.push_closed (ok.responds.closed isOpen).1]
    exact ⟨by omega, nofun⟩

theorem pushCredits (ok : s.Consistent) {n : Int32} (positive : 0 < n.toInt)
    {start : StartAt π ε} (unfinished : start = .ended ↔ s.start = .ended) :
    Responds start (s.clientQueue.push (.requestN n)) s.clientCallback s.clientException
      s.sinkComplete s.received s.closes where
  awake isOpen := (ok.responds.awake isOpen).push _
  unclosed := ok.responds.unclosed
  closed isClosed := by
    obtain ⟨closed, idle, once⟩ := ok.responds.closed isClosed
    rw [TaskQueue.push_closed closed]
    exact ⟨closed, idle, once⟩
  unerring := ok.responds.unerring
  excepted := ok.responds.excepted
  closedBy notEnded := ok.responds.closedBy (mt unfinished.mpr notEnded)
  complete := ok.responds.complete
  positive m listed := by
    cases isOpen : s.clientCallback with
    | true =>
      rw [TaskQueue.underway_push (ok.responds.awake isOpen)] at listed
      rcases List.mem_append.mp listed with earlier | last
      · exact ok.responds.positive m earlier
      · cases List.mem_singleton.mp last
        exact positive
    | false =>
      rw [TaskQueue.push_closed (ok.responds.closed isOpen).1] at listed
      exact ok.responds.positive m listed
  unfinished notEnded m listed := by
    have notEnded := mt unfinished.mpr notEnded
    cases isOpen : s.clientCallback with
    | true =>
      rw [TaskQueue.underway_push (ok.responds.awake isOpen)] at listed
      rcases List.mem_append.mp listed with earlier | last
      · exact ok.responds.unfinished notEnded m earlier
      · cases List.mem_singleton.mp last
        rfl
    | false =>
      rw [TaskQueue.push_closed (ok.responds.closed isOpen).1] at listed
      exact ok.responds.unfinished notEnded m listed
  finished ended isOpen := by
    obtain ⟨m, listed, response⟩ := ok.responds.finished (unfinished.mp ended) isOpen
    rw [TaskQueue.underway_push (ok.responds.awake isOpen)]
    exact ⟨m, List.mem_append_left _ listed, response⟩

theorem resume_refill (ok : s.Consistent)
    (at_ : s.generator = .running (.refill messages counter)) :
    (s.resume (.refill messages counter)).Consistent ∧
      Passes s (s.resume (.refill messages counter)) 0 := by
  have yields := ok.yields
  have consumes := ok.consumes
  rw [at_] at yields consumes
  have half : (0 : Int) ≤ s.bufferSize.toNat / 2 :=
    Int.ediv_nonneg (Int.natCast_nonneg _) (by decide)
  have positive : 0 < counter.toInt := consumes.counts.1
  obtain ⟨grows, exact_⟩ := ok.credited_push (.requestN counter) positive.le
  have credits : (ServerMessage.requestN counter : ServerMessage π ε).credits = counter.toInt := rfl
  rw [credits] at grows exact_
  refine ⟨⟨ok.sized, ⟨nofun, fun _ => yields.up id, fun closed => (yields.stops closed).elim,
    yields.delivers, yields.inOrder⟩, ⟨?_, consumes.covered, consumes.settled⟩,
    ok.pushCredits positive Iff.rfl⟩, ?_, ?_⟩
  · intro zero own
    cases own
    exact ⟨Int.le_refl 0, half⟩
  · rw [passed, given, at_]
    change s.bufferSize.toNat * s.start.begun + s.consumed - _ - counter.toInt + 0 ≤
      s.bufferSize.toNat * s.start.begun + s.consumed - (s.credits.toNat +
        credited (s.clientQueue.push (.requestN counter)).underway) - 0
    omega
  · intro isOpen _ _
    have same := exact_ isOpen
    rw [passed, passed, given, given, at_]
    change s.bufferSize.toNat * s.start.begun + s.consumed - (s.credits.toNat +
        credited (s.clientQueue.push (.requestN counter)).underway) - 0 =
      s.bufferSize.toNat * s.start.begun + s.consumed - _ - counter.toInt + 0
    omega

theorem makeGenerator (ok : s.Consistent) :
    s.makeGenerator.Consistent ∧ Passes s s.makeGenerator 0 := by
  unfold ServerSinkBridge.makeGenerator
  split
  next at_ running =>
    cases at_ with
    | wait counter => exact ok.resume_wait running
    | hook counter => exact ok.resume_hook running
    | parked counter => exact ok.resume_parked running
    | safePoint counter => exact ok.resume_safePoint running
    | collect counter => exact ok.resume_collect running
    | drain messages counter => exact ok.resume_drain running
    | refill messages counter => exact ok.resume_refill running
  next => exact ⟨ok, .of_eq rfl⟩

theorem pushResponse (ok : s.Consistent) (response : Except ε π) :
    Responds .ended (s.clientQueue.push (.payloadOrError response)) s.clientCallback
      s.clientException s.sinkComplete s.received s.closes where
  awake isOpen := (ok.responds.awake isOpen).push _
  unclosed := ok.responds.unclosed
  closed isClosed := by
    obtain ⟨closed, idle, once⟩ := ok.responds.closed isClosed
    rw [TaskQueue.push_closed closed]
    exact ⟨closed, idle, once⟩
  unerring := ok.responds.unerring
  excepted := ok.responds.excepted
  closedBy notEnded := absurd rfl notEnded
  complete := ok.responds.complete
  positive m listed := by
    cases isOpen : s.clientCallback with
    | true =>
      rw [TaskQueue.underway_push (ok.responds.awake isOpen)] at listed
      rcases List.mem_append.mp listed with earlier | last
      · exact ok.responds.positive m earlier
      · cases List.mem_singleton.mp last
    | false =>
      rw [TaskQueue.push_closed (ok.responds.closed isOpen).1] at listed
      exact ok.responds.positive m listed
  unfinished notEnded := absurd rfl notEnded
  finished _ isOpen := by
    rw [TaskQueue.underway_push (ok.responds.awake isOpen)]
    exact ⟨_, List.mem_append_right _ (List.mem_singleton.mpr rfl), rfl⟩

/-- A step of `start`. -/
theorem advanceStart (ok : s.Consistent) :
    s.advanceStart.Consistent ∧ Passes s s.advanceStart 0 := by
  have size : s.bufferSize.toUInt32.toInt32.toInt = s.bufferSize.toNat :=
    Rocket.toInt_narrow s.bufferSize ok.sized.2
  unfold ServerSinkBridge.advanceStart
  cases at_ : s.start with
  | begin =>
    have positive : 0 < s.bufferSize.toUInt32.toInt32.toInt := by
      have sized := ok.sized.1
      omega
    obtain ⟨grows, exact_⟩ :=
      ok.credited_push (.requestN s.bufferSize.toUInt32.toInt32) positive.le
    have credits : (ServerMessage.requestN s.bufferSize.toUInt32.toInt32 :
        ServerMessage π ε).credits = s.bufferSize.toNat := size
    rw [credits] at grows exact_
    refine ⟨⟨ok.sized, ok.yields, ok.consumes,
      ok.pushCredits positive (by rw [at_]; exact ⟨nofun, nofun⟩)⟩, ?_, ?_⟩
    · rw [passed, given, at_]
      change s.bufferSize.toNat * 0 + s.consumed - _ - s.generator.counted + 0 ≤
        s.bufferSize.toNat * 1 + s.consumed - (s.credits.toNat +
          credited (s.clientQueue.push (.requestN s.bufferSize.toUInt32.toInt32)).underway) -
            s.generator.counted
      omega
    · intro isOpen _ _
      have same := exact_ isOpen
      rw [passed, passed, given, given, at_]
      change s.bufferSize.toNat * 1 + s.consumed - (s.credits.toNat +
          credited (s.clientQueue.push (.requestN s.bufferSize.toUInt32.toInt32)).underway) -
            s.generator.counted =
        s.bufferSize.toNat * 0 + s.consumed - _ - s.generator.counted + 0
      omega
  | consuming => exact ⟨ok, .of_eq rfl⟩
  | ended => exact ⟨ok, .of_eq rfl⟩
  | responded response =>
    dsimp only
    split
    next excepted =>
      have isClosed := ok.responds.excepted excepted
      refine ⟨⟨ok.sized, ok.yields, ok.consumes,
        { ok.responds with
          closedBy := fun ended => absurd rfl ended
          unfinished := fun ended => absurd rfl ended
          finished := ?_ }⟩,
        .of_eq ?_⟩
      · intro _ isOpen
        rw [isClosed] at isOpen
        cases isOpen
      · rw [passed, passed, given, given, at_]
        rfl
    next =>
      obtain ⟨grows, exact_⟩ := ok.credited_push (.payloadOrError response) (Int.le_refl 0)
      have credits : (ServerMessage.payloadOrError response).credits = 0 := rfl
      rw [credits] at grows exact_
      refine ⟨⟨ok.sized, ok.yields, ok.consumes, ok.pushResponse response⟩, ?_, ?_⟩
      · rw [passed, given, at_]
        change s.bufferSize.toNat * 1 + s.consumed - _ - s.generator.counted + 0 ≤
          s.bufferSize.toNat * 1 + s.consumed - (s.credits.toNat +
            credited (s.clientQueue.push (.payloadOrError response)).underway) - s.generator.counted
        omega
      · intro isOpen _ _
        have same := exact_ isOpen
        rw [passed, passed, given, given, at_]
        change s.bufferSize.toNat * 1 + s.consumed - (s.credits.toNat +
            credited (s.clientQueue.push (.payloadOrError response)).underway) -
              s.generator.counted =
          s.bufferSize.toNat * 1 + s.consumed - _ - s.generator.counted + 0
        omega

theorem respond (ok : s.Consistent) (consumes : s.start.Consumes) (response : Except ε π) :
    Consistent { s with start := .responded response } ∧
      Passes s { s with start := .responded response } 0 := by
  cases at_ : s.start with
  | begin => rw [at_] at consumes; exact consumes.elim
  | responded other => rw [at_] at consumes; exact consumes.elim
  | ended => rw [at_] at consumes; exact consumes.elim
  | consuming =>
    refine ⟨⟨ok.sized, ok.yields, ok.consumes,
      { ok.responds with
        closedBy := fun _ => ok.responds.closedBy (by rw [at_]; nofun)
        unfinished := fun _ => ok.responds.unfinished (by rw [at_]; nofun)
        finished := nofun }⟩, .of_eq ?_⟩
    rw [passed, passed, given, given, at_]
    rfl

/-- The consumer asks for the next item, and has consumed the last one. -/
theorem next (ok : s.Consistent) (suspended : ¬ s.generator.Running) :
    s.next.Consistent ∧ Passes s s.next 0 := by
  have yields := ok.yields
  have consumes := ok.consumes
  have size : s.bufferSize.toUInt32.toInt32.toInt = s.bufferSize.toNat :=
    Rocket.toInt_narrow s.bufferSize ok.sized.2
  have half : (s.bufferSize.toUInt32.toInt32 / 2).toInt = s.bufferSize.toNat / 2 := by
    rw [toInt_half (by rw [size]; exact Int.natCast_nonneg _), size]
  have small := ok.sized.2
  unfold ServerSinkBridge.next
  cases at_ : s.generator with
  | running at' =>
    rw [at_] at suspended
    exact absurd trivial suspended
  | unstarted =>
    rw [at_] at yields consumes
    refine ⟨⟨ok.sized, ⟨nofun, fun _ => yields.up id, fun closed => (yields.stops closed).elim,
      yields.delivers, yields.inOrder⟩,
      ⟨consumes.counts, consumes.covered, consumes.settled⟩, ok.responds⟩, .of_eq ?_⟩
    rw [passed, passed, given, given, at_]
    rfl
  | failed =>
    rw [at_] at yields consumes
    refine ⟨⟨ok.sized, ⟨nofun, fun _ => yields.up id, fun _ => trivial, nofun, yields.inOrder⟩,
      ⟨nofun, consumes.covered, nofun⟩, ok.responds⟩, .of_eq ?_⟩
    rw [passed, passed, given, given, at_]
    rfl
  | ended =>
    rw [at_] at yields consumes
    refine ⟨⟨ok.sized, ⟨nofun, fun _ => yields.up id, fun _ => trivial, nofun, yields.inOrder⟩,
      ⟨nofun, consumes.covered, nofun⟩, ok.responds⟩, .of_eq ?_⟩
    rw [passed, passed, given, given, at_]
  | yielded messages counter =>
    rw [at_] at yields consumes
    obtain ⟨nonneg, kept⟩ := consumes.counts counter rfl
    have counted : (counter + 1).toInt = counter.toInt + 1 := toInt_succ (by omega)
    have passes : ∀ generator : Generator π ε, generator.counted = counter.toInt + 1 →
        Passes s { s with
          nextCancelled := false, consumed := s.consumed + 1, generator := generator } 0 := by
      intro generator more
      refine .of_eq ?_
      rw [passed, passed, given, given, at_]
      change s.bufferSize.toNat * s.start.begun + (s.consumed + 1 : Nat) - _ -
        generator.counted = s.bufferSize.toNat * s.start.begun + s.consumed - _ - counter.toInt
      rw [more]
      push_cast
      omega
    dsimp only
    split
    next full =>
      have full := Int32.lt_iff_toInt_lt.mp full
      rw [half, counted] at full
      refine ⟨⟨ok.sized, ⟨nofun, fun _ => yields.up id, fun closed => (yields.stops closed).elim,
        yields.delivers, yields.inOrder⟩, ⟨?_, consumes.covered, consumes.settled⟩,
        ok.responds⟩, passes _ counted⟩
      change 0 < (counter + 1).toInt ∧ (counter + 1).toInt ≤ (s.bufferSize.toNat : Int) / 2 + 1
      omega
    next partly =>
      have partly := mt Int32.lt_iff_toInt_lt.mpr partly
      rw [half, counted] at partly
      refine ⟨⟨ok.sized, ⟨nofun, fun _ => yields.up id, fun closed => (yields.stops closed).elim,
        yields.delivers, yields.inOrder⟩, ⟨?_, consumes.covered, consumes.settled⟩,
        ok.responds⟩, passes _ counted⟩
      intro counter' own
      cases own
      change 0 ≤ (counter + 1).toInt ∧ (counter + 1).toInt ≤ (s.bufferSize.toNat : Int) / 2
      omega

theorem cancelNext (ok : s.Consistent) (running : s.generator.Running) :
    s.cancelNext.Consistent ∧ Passes s s.cancelNext 0 := by
  have yields := ok.yields
  unfold ServerSinkBridge.cancelNext
  split
  next counter at_ =>
    rw [at_] at yields
    refine ⟨⟨ok.sized, ?_, ok.consumes, ok.responds⟩, .of_eq rfl⟩
    rw [at_]
    exact ⟨fun _ => (yields.waiting trivial).close, fun up => absurd trivial up, fun _ => rfl,
      fun _ isOpen => absurd rfl isOpen, yields.inOrder⟩
  next =>
    refine ⟨⟨ok.sized, { yields with stops := fun closed => ?_ }, ok.consumes, ok.responds⟩,
      .of_eq rfl⟩
    have stops := yields.stops closed
    cases at_ : s.generator with
    | running at' =>
      rw [at_] at stops
      cases at' <;> first | rfl | exact stops.elim
    | _ =>
      rw [at_] at running
      exact running.elim

/-- What the bridge holds is dropped when it is closed. -/
theorem passes_close (ok : s.Consistent) (queue : BatonQueue (ClientMessage π ε))
    (received : List (ServerCall π ε)) :
    Passes s (close { s with serverQueue := queue, received := received }) 0 where
  grows := by
    have held := credited_nonneg ok.responds.positive
    rw [passed, passed, given, given]
    change s.bufferSize.toNat * s.start.begun + s.consumed - _ - s.generator.counted + 0 ≤
      s.bufferSize.toNat * s.start.begun + s.consumed - 0 - s.generator.counted
    omega
  exact := nofun

/-- A call of the transport on a bridge that is not closed. -/
theorem receive (ok : s.Consistent) (isOpen : s.clientCallback) (call : ServerCall π ε) :
    (s.receive call).Consistent ∧ Passes s (s.receive call) 0 := by
  have yields : Yields s.generator (s.serverQueue.push call.message) s.nextCancelled
      (s.received ++ [call]) s.yielded :=
    { waiting := fun parked => (ok.yields.waiting parked).push _
      up := fun up => BatonQueue.up_push (ok.yields.up up) _
      stops := fun closed => ok.yields.stops (by
        by_contra isOpen
        exact BatonQueue.isOpen_push isOpen _ closed)
      delivers := fun live isOpen => by
        have isOpen : s.serverQueue.queue ≠ .closed :=
          fun closed => isOpen (BatonQueue.push_closed closed _)
        have delivers := ok.yields.delivers live isOpen
        rw [BatonQueue.push, AtomicQueue.held_push isOpen, List.map_append, ← delivers,
          ← List.append_assoc s.generator.held, ← List.append_assoc]
        rfl
      inOrder := by
        rw [List.map_append]
        exact ok.yields.inOrder.trans (List.prefix_append _ _) }
  unfold ServerSinkBridge.receive
  dsimp only
  split
  next error =>
    exact ⟨⟨ok.sized, yields, ok.consumes,
      { awake := by rintro ⟨⟩
        unclosed := by rintro ⟨⟩
        closed := fun _ => ⟨rfl, rfl, congrArg Nat.succ (ok.responds.unclosed isOpen)⟩
        unerring := by rintro ⟨⟩
        excepted := fun _ => rfl
        closedBy := fun _ _ => ⟨call, List.mem_append_right _ (List.mem_singleton.mpr rfl), error⟩
        complete := by
          have notComplete : call.isComplete = false := by
            cases call <;> first | rfl | cases error
          change s.sinkComplete = (s.received ++ [call]).any ServerCall.isComplete
          rw [List.any_append, ← ok.responds.complete, List.any_cons, notComplete]
          simp
        positive := by rintro _ ⟨⟩
        unfinished := by rintro _ _ ⟨⟩
        finished := by rintro _ ⟨⟩ }⟩, ok.passes_close _ _⟩
  next noError =>
    exact ⟨⟨ok.sized, yields, ok.consumes,
      { ok.responds with
        unerring := fun _ other listed => by
          rcases List.mem_append.mp listed with earlier | last
          · exact ok.responds.unerring isOpen other earlier
          · cases List.mem_singleton.mp last
            exact Bool.eq_false_iff.mpr noError
        closedBy := fun _ isClosed => by
          change s.clientCallback = false at isClosed
          rw [isOpen] at isClosed
          cases isClosed
        complete := by
          rw [List.any_append, ← ok.responds.complete]
          simp }⟩, .of_eq rfl⟩

end Consistent

/-- What the steps of the coroutines leave as it is. -/
structure Frame (s s' : ServerSinkBridge π ε) : Prop where
  bufferSize : s'.bufferSize = s.bufferSize
  clientCallback : s'.clientCallback = s.clientCallback
  sinkComplete : s'.sinkComplete = s.sinkComplete
  received : s'.received = s.received
  live : s'.generator.counter.isSome → s.generator.counter.isSome
  credits : s'.credits = s.credits
  phase : s'.clientQueue.phase = s.clientQueue.phase

theorem frame_advanceStart (s : ServerSinkBridge π ε) : Frame s s.advanceStart := by
  unfold advanceStart
  cases s.start with
  | begin => exact ⟨rfl, rfl, rfl, rfl, id, rfl, rfl⟩
  | consuming => exact ⟨rfl, rfl, rfl, rfl, id, rfl, rfl⟩
  | responded response =>
    dsimp only
    split <;> exact ⟨rfl, rfl, rfl, rfl, id, rfl, rfl⟩
  | ended => exact ⟨rfl, rfl, rfl, rfl, id, rfl, rfl⟩

theorem frame_drain (live : s.generator.counter.isSome) (counter : Int32)
    (messages : List (ClientMessage π ε)) : Frame s (s.drain counter messages) := by
  rcases messages with _ | ⟨(payload | error | _) | _, messages⟩ <;>
    exact ⟨rfl, rfl, rfl, rfl, fun _ => live, rfl, rfl⟩

theorem frame_makeGenerator (s : ServerSinkBridge π ε) : Frame s s.makeGenerator := by
  unfold makeGenerator
  split
  next at' at_ =>
    have live : s.generator.counter.isSome := by
      rw [at_]
      rfl
    cases at' with
    | wait counter =>
      simp only [resume]
      split <;> exact ⟨rfl, rfl, rfl, rfl, fun _ => live, rfl, rfl⟩
    | hook counter => exact ⟨rfl, rfl, rfl, rfl, fun _ => live, rfl, rfl⟩
    | parked counter =>
      simp only [resume]
      split <;> exact ⟨rfl, rfl, rfl, rfl, fun _ => live, rfl, rfl⟩
    | safePoint counter =>
      simp only [resume]
      split <;> exact ⟨rfl, rfl, rfl, rfl, fun _ => live, rfl, rfl⟩
    | collect counter => exact ⟨rfl, rfl, rfl, rfl, fun _ => live, rfl, rfl⟩
    | drain messages counter => exact frame_drain live counter messages
    | refill messages counter => exact ⟨rfl, rfl, rfl, rfl, fun _ => live, rfl, rfl⟩
  next => exact ⟨rfl, rfl, rfl, rfl, id, rfl, rfl⟩

theorem frame_next (s : ServerSinkBridge π ε) : Frame s s.next := by
  unfold next
  dsimp only
  split
  next at_ => exact ⟨rfl, rfl, rfl, rfl, fun _ => by rw [at_]; rfl, rfl, rfl⟩
  next => exact ⟨rfl, rfl, rfl, rfl, id, rfl, rfl⟩
  next at_ =>
    split <;> exact ⟨rfl, rfl, rfl, rfl, fun _ => by rw [at_]; rfl, rfl, rfl⟩
  next => exact ⟨rfl, rfl, rfl, rfl, nofun, rfl, rfl⟩
  next => exact ⟨rfl, rfl, rfl, rfl, nofun, rfl, rfl⟩

theorem frame_cancelNext (s : ServerSinkBridge π ε) : Frame s s.cancelNext := by
  unfold cancelNext
  split <;> exact ⟨rfl, rfl, rfl, rfl, id, rfl, rfl⟩

theorem advanceStart_consumes (consumes : s.generator.Running → s.start.Consumes)
    (running : s.advanceStart.generator.Running) : s.advanceStart.start.Consumes := by
  unfold advanceStart at running ⊢
  cases at_ : s.start with
  | begin => trivial
  | consuming =>
    change s.start.Consumes
    rw [at_]
    trivial
  | responded response =>
    rw [at_] at running consumes
    dsimp only at running
    split at running <;> exact (consumes running).elim
  | ended =>
    rw [at_] at running consumes
    exact (consumes running).elim

theorem makeGenerator_start (s : ServerSinkBridge π ε) : s.makeGenerator.start = s.start := by
  unfold makeGenerator
  split
  next at' _ =>
    cases at' with
    | wait counter =>
      simp only [resume]
      split <;> rfl
    | hook counter => rfl
    | parked counter =>
      simp only [resume]
      split <;> rfl
    | safePoint counter =>
      simp only [resume]
      split <;> rfl
    | collect counter => rfl
    | drain messages counter =>
      rcases messages with _ | ⟨(payload | error | _) | _, messages⟩ <;> rfl
    | refill messages counter => rfl
  next => rfl

theorem next_start (s : ServerSinkBridge π ε) : s.next.start = s.start := by
  unfold next
  dsimp only
  split
  next => rfl
  next => rfl
  next => split <;> rfl
  next => rfl
  next => rfl

theorem cancelNext_start (s : ServerSinkBridge π ε) : s.cancelNext.start = s.start := by
  unfold cancelNext
  split <;> rfl

/-- The credits in a call. -/
def callCredits (call : Option (ClientCall π ε)) : Int :=
  credited (call.toList.map ClientCall.message)

/-- What a step of the event base does: it may call for the credits that it holds, or close the
bridge with the response. -/
structure Calls (s s' : ServerSinkBridge π ε) (call : Option (ClientCall π ε)) : Prop where
  consistent : s'.Consistent
  passes : Passes s s' (callCredits call)
  bufferSize : s'.bufferSize = s.bufferSize
  generator : s'.generator = s.generator
  sinkComplete : s'.sinkComplete = s.sinkComplete
  start : s'.start = s.start
  received : s'.received = s.received
  rested : (s.clientQueue.phase = .idle → s.credits = 0) → s'.clientQueue.phase = .idle →
    s'.credits = 0
  positive : ∀ n, call = some (.onSinkRequestN n) → 0 < n.toInt
  isOpen : ∀ call', call = some call' → s.clientCallback
  stays : s'.clientCallback = (s.clientCallback && !(call.any ClientCall.isFinal))

namespace Consistent

variable {queue : TaskQueue (ServerMessage π ε)}

/-- A step of the event base that handles nothing. -/
theorem requeue (ok : s.Consistent)
    (awake : s.clientCallback → queue.Awake) (underway : queue.underway = s.clientQueue.underway)
    (closed : s.clientCallback = false → queue.queue = .closed ∧ queue.phase = .idle)
    (idle : queue.phase = .idle → s.clientQueue.phase = .idle) :
    Calls s { s with clientQueue := queue } none where
  consistent := ⟨ok.sized, ok.yields, ok.consumes,
    { ok.responds with
      awake := awake
      closed := fun isClosed => by
        obtain ⟨ended, idle⟩ := closed isClosed
        exact ⟨ended, idle, (ok.responds.closed isClosed).2.2⟩
      positive := by
        rw [underway]
        exact ok.responds.positive
      unfinished := by
        rw [underway]
        exact ok.responds.unfinished
      finished := by
        rw [underway]
        exact ok.responds.finished }⟩
  passes := .of_eq (by
    rw [passed, passed, given, given, underway])
  bufferSize := rfl
  generator := rfl
  sinkComplete := rfl
  start := rfl
  received := rfl
  rested := fun rested asleep => rested (idle asleep)
  positive := nofun
  isOpen := nofun
  stays := (Bool.and_true _).symm

theorem turn (ok : s.Consistent) (task : 0 < s.clientQueue.tasks + s.clientQueue.phase.running)
    {turn : TaskQueue.Turn (ServerMessage π ε)}
    (turned : s.clientQueue.turn s.clientCallback = (queue, turn)) :
    (s.clientCallback → queue.Awake ∧ s.clientQueue.underway = turn.handled ++ queue.underway) ∧
      (s.clientCallback = false → turn = .goesOn ∧ queue.queue = .closed ∧ queue.phase = .idle ∧
        queue.underway = s.clientQueue.underway) := by
  constructor
  · intro isOpen
    have spec := (ok.responds.awake isOpen).turn task
    rw [isOpen] at turned
    rwa [turned] at spec
  · intro isClosed
    obtain ⟨closed, idle, once⟩ := ok.responds.closed isClosed
    rw [isClosed, TaskQueue.turn_closed idle] at turned
    cases turned
    exact ⟨rfl, closed, idle, rfl⟩

/-- The event base adds up the credits that it takes. -/
theorem addCredits (ok : s.Consistent) {n : Int32}
    (isOpen : s.clientCallback) (awake : queue.Awake) (busy : queue.phase ≠ .idle)
    (underway : s.clientQueue.underway = .requestN n :: queue.underway)
    (fits : s.credits.toNat + credited s.clientQueue.underway < 2 ^ 31) :
    Calls s { s with clientQueue := queue, credits := s.credits + n.toInt64.toUInt64 } none := by
  have later : ∀ m ∈ queue.underway, m ∈ s.clientQueue.underway := by
    rw [underway]
    exact fun m => List.mem_cons_of_mem _
  have positive := ok.responds.positive n (by rw [underway]; exact List.mem_cons_self)
  have rest := credited_nonneg fun m inside => ok.responds.positive m (later _ inside)
  have split : credited s.clientQueue.underway = n.toInt + credited queue.underway := by
    rw [underway]
    rfl
  have sum : ((s.credits + n.toInt64.toUInt64).toNat : Int) = s.credits.toNat + n.toInt :=
    Rocket.toNat_add_signExtend (by omega) (by omega)
  refine
    { consistent := ⟨ok.sized, ok.yields, ok.consumes,
        { ok.responds with
          awake := fun _ => awake
          closed := fun closed => by
            change s.clientCallback = false at closed
            rw [isOpen] at closed
            cases closed
          positive := fun m inside => ok.responds.positive m (later _ inside)
          unfinished := fun going m inside => ok.responds.unfinished going m (later m inside)
          finished := fun ended _ => ?_ }⟩
      passes := .of_eq ?_
      bufferSize := rfl
      generator := rfl
      sinkComplete := rfl
      start := rfl
      received := rfl
      rested := fun _ asleep => absurd asleep busy
      positive := nofun
      isOpen := nofun
      stays := (Bool.and_true _).symm }
  · obtain ⟨m, inside, response⟩ := ok.responds.finished ended isOpen
    rw [underway] at inside
    rcases List.mem_cons.mp inside with rfl | inside
    · cases response
    · exact ⟨m, inside, response⟩
  · rw [passed, passed, given, given, split]
    change s.bufferSize.toNat * s.start.begun + s.consumed - (((s.credits +
      n.toInt64.toUInt64).toNat : Int) + credited queue.underway) - s.generator.counted = _
    omega

theorem callResponse (ok : s.Consistent) (isOpen : s.clientCallback) {response : Except ε π}
    (listed : .payloadOrError response ∈ s.clientQueue.underway) :
    Calls s s.close (some (finalCall response)) where
  consistent := ⟨ok.sized, ok.yields, ok.consumes,
    { awake := nofun
      unclosed := nofun
      closed := fun _ => ⟨rfl, rfl, congrArg Nat.succ (ok.responds.unclosed isOpen)⟩
      unerring := nofun
      excepted := fun _ => rfl
      closedBy := fun notEnded => by cases ok.responds.unfinished notEnded _ listed
      complete := ok.responds.complete
      positive := nofun
      unfinished := fun _ => nofun
      finished := nofun }⟩
  passes := by
    have none : callCredits (some (finalCall response)) = 0 := by
      cases response <;> rfl
    rw [none]
    exact ok.passes_close s.serverQueue s.received
  bufferSize := rfl
  generator := rfl
  sinkComplete := rfl
  start := rfl
  received := rfl
  rested := fun _ _ => rfl
  positive n call := by cases response <;> cases call
  isOpen _ _ := isOpen
  stays := by
    rw [isOpen]
    cases response <;> rfl

/-- The event base calls for the credits that it has added up. -/
theorem callCredits (ok : s.Consistent) (isOpen : s.clientCallback) (awake : queue.Awake)
    (underway : s.clientQueue.underway = queue.underway)
    (fits : s.credits.toNat + credited s.clientQueue.underway < 2 ^ 31)
    {call : Option (ClientCall π ε)}
    (called : s.credits > 0 ∧ call = some (.onSinkRequestN s.credits.toUInt32.toInt32) ∨
      (s.credits = 0 ∨ s.sinkComplete) ∧ call = none) :
    Calls s { s with clientQueue := queue, credits := 0 } call := by
  have rest := credited_nonneg ok.responds.positive
  have small : s.credits.toNat < 2 ^ 31 := by omega
  have narrow : s.credits.toUInt32.toInt32.toInt = s.credits.toNat :=
    Rocket.toInt_narrow s.credits small
  have passed_eq : passed { s with clientQueue := queue, credits := 0 } =
      s.passed + s.credits.toNat := by
    rw [passed, passed, given, given, underway]
    change s.bufferSize.toNat * s.start.begun + s.consumed - (0 + credited queue.underway) -
      s.generator.counted = _
    omega
  have consistent : Consistent { s with clientQueue := queue, credits := 0 } :=
    ⟨ok.sized, ok.yields, ok.consumes,
      { ok.responds with
        awake := fun _ => awake
        closed := fun closed => by
          change s.clientCallback = false at closed
          rw [isOpen] at closed
          cases closed
        positive := by
          rw [← underway]
          exact ok.responds.positive
        unfinished := by
          rw [← underway]
          exact ok.responds.unfinished
        finished := by
          rw [← underway]
          exact ok.responds.finished }⟩
  rcases called with ⟨some, rfl⟩ | ⟨none, rfl⟩
  · have credits : ServerSinkBridge.callCredits (Option.some (.onSinkRequestN
        s.credits.toUInt32.toInt32) : Option (ClientCall π ε)) = s.credits.toNat :=
      (Int.add_zero _).trans narrow
    have positive : 0 < s.credits.toNat := UInt64.lt_iff_toNat_lt.mp some
    exact
      { consistent := consistent
        passes := by
          rw [credits]
          exact ⟨passed_eq.ge, fun _ _ _ => passed_eq⟩
        bufferSize := rfl
        generator := rfl
        sinkComplete := rfl
        start := rfl
        received := rfl
        rested := fun _ _ => rfl
        positive := fun n call => by
          cases call
          omega
        isOpen := fun _ _ => isOpen
        stays := (Bool.and_true _).symm }
  · exact
      { consistent := consistent
        passes :=
          { grows := by
              rw [passed_eq]
              change s.passed + 0 ≤ _
              omega
            exact := fun _ _ going => by
              rcases none with zero | complete
              · rw [passed_eq, zero]
                rfl
              · change s.sinkComplete = false at going
                rw [complete] at going
                cases going }
        bufferSize := rfl
        generator := rfl
        sinkComplete := rfl
        start := rfl
        received := rfl
        rested := fun _ _ => rfl
        positive := nofun
        isOpen := nofun
        stays := (Bool.and_true _).symm }

/-- A step of the event base. -/
theorem processClientMessages (ok : s.Consistent)
    (task : 0 < s.clientQueue.tasks + s.clientQueue.phase.running)
    (fits : s.credits.toNat + credited s.clientQueue.underway < 2 ^ 31) :
    Calls s s.processClientMessages.1 s.processClientMessages.2 := by
  unfold ServerSinkBridge.processClientMessages
  rcases turned : s.clientQueue.turn s.clientCallback with ⟨queue, _ | message | _⟩
  all_goals
    obtain ⟨opened, closed⟩ := ok.turn task turned
    have asleep := @TaskQueue.idle_of_turn _ s.clientQueue s.clientCallback
    rw [turned] at asleep
  · refine ok.requeue (fun isOpen => (opened isOpen).1) ?_ (fun isClosed => ?_) fun idle =>
      ((asleep idle).resolve_left nofun).1
    · rcases Bool.eq_false_or_eq_true s.clientCallback with isOpen | isClosed
      · exact (opened isOpen).2.symm
      · exact (closed isClosed).2.2.2
    · exact ⟨(closed isClosed).2.1, (closed isClosed).2.2.1⟩
  · have isOpen : s.clientCallback := by
      by_contra isClosed
      cases (closed (Bool.eq_false_iff.mpr isClosed)).1
    obtain ⟨awake, underway⟩ := opened isOpen
    cases message with
    | payloadOrError response =>
      refine ok.callResponse isOpen ?_
      rw [underway]
      exact List.mem_cons_self
    | requestN n =>
      have busy : queue.phase ≠ .idle := fun idle => by
        rcases asleep idle with sleeps | ⟨_, goesOn⟩
        · cases sleeps
        · cases goesOn
      exact ok.addCredits isOpen awake busy underway fits
  · have isOpen : s.clientCallback := by
      by_contra isClosed
      cases (closed (Bool.eq_false_iff.mpr isClosed)).1
    obtain ⟨awake, underway⟩ := opened isOpen
    dsimp only
    split
    next going => exact ok.callCredits isOpen awake underway fits (.inl ⟨going.2, rfl⟩)
    next stops =>
      refine ok.callCredits isOpen awake underway fits (.inr ⟨?_, rfl⟩)
      by_contra other
      obtain ⟨some, going⟩ := not_or.mp other
      exact stops ⟨by simpa using going, UInt64.pos_iff_ne_zero.mpr some⟩

end Consistent

end ServerSinkBridge

end Sink

end FbThrift
