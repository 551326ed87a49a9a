import FbThrift.Async.PublisherStream

/-!
# What a publisher stream delivers

Every message that is published is on its way: in `encodeOrQueue_`, with the thread that
establishes the stream, in `queue_` or in the credit buffer, in this order.  While the stream is
open and has credit, either the reader waits at an empty queue or one task is to come.
-/

namespace FbThrift

namespace ServerPublisherStream

open CallOnceFunction (Caller)

variable {τ π ε : Type} {encoder : StreamElementEncoder τ π ε} {s : State τ π ε}

/-! ## What the threads hold -/

/-- The message that the publisher has not put into a queue. -/
def Publisher.held (encoder : StreamElementEncoder τ π ε) : Publisher τ π ε → List (Sent π ε)
  | load message | exchange message _ => [encoder.encode message]
  | push sent _ => [sent]
  | _ => []

/-- The publisher is past `encodeOrQueue_`. -/
def Publisher.Pushes : Publisher τ π ε → Prop
  | push _ _ | consume _ => True
  | _ => False

/-- A call of `consume` that is to come. -/
def Publisher.wakes : Publisher τ π ε → Nat
  | consume _ => 1
  | _ => 0

/-- The messages that were taken from `encodeOrQueue_` and not yet pushed. -/
def Establisher.held : Establisher τ ε → List (Message τ ε)
  | push messages | consume messages => messages
  | _ => []

def Establisher.wakes : Establisher τ ε → Nat
  | consume _ => 1
  | _ => 0

namespace State

/-- The messages that are on their way to the client, the next one first. -/
def underway (encoder : StreamElementEncoder τ π ε) (s : State τ π ε) : List (Sent π ε) :=
  s.creditBuffer.getBuffer ++ s.queue ++
    (s.establisher.held ++ s.encodeOrQueue.getMessages).map encoder.encode ++
    s.publisher.held encoder

/-- The tasks of the event base, those that are about to be added included. -/
def wakeups (s : State τ π ε) : Nat := s.tasks + s.publisher.wakes + s.establisher.wakes

/-- No task is pending and the publisher is not within its calls of the queues. -/
def Quiet (s : State τ π ε) : Prop :=
  s.tasks = 0 ∧ (s.publisher = .idle ∨ s.publisher = .join)

/-- What the client callback is called with, and the calls of `onStreamCompleteOrCancel_`. -/
structure DeliversPublished (s : State τ π ε) : Prop where
  inOrder : s.delivered <+: s.published
  withinCredit : s.delivered.countP Sent.takesCredit ≤ s.granted
  lastTerminal : ∀ before sent after, s.delivered = before ++ sent :: after →
    sent.closes → after = []
  nothingLeft : s.Quiet → s.phase = .subscribed → s.creditBuffer.hasCredit →
    s.delivered = s.published
  calledOnce : s.onStreamCompleteOrCancel.shared.called ≤ 1
  finished : s.completed → s.onStreamCompleteOrCancel.shared.finished

end State

/-! ## The invariant -/

/-- What was published was delivered or, before the end, is on its way. -/
structure Carried (phase : Phase) (delivered published underway : List (Sent π ε)) : Prop where
  inOrder : delivered <+: published
  complete : phase = .unsubscribed ∨ phase = .subscribed → published = delivered ++ underway

/-- Messages go to `queue_` directly only when all of `encodeOrQueue_` are there. -/
structure Established (phase : Phase) (publisher : Publisher τ π ε)
    (encodeOrQueue : EncodeOrQueue (Message τ ε)) (establisher : Establisher τ ε) : Prop where
  pushes : publisher.Pushes → encodeOrQueue = .closed
  closed : encodeOrQueue = .closed ↔ establisher = .done
  done : phase ≠ .unsubscribed → phase ≠ .dropped → establisher = .done

/-- With credit, either the reader waits at an empty queue or one task is to come. -/
structure Woken (phase : Phase) (queue : List (Sent π ε)) (queueClosed waiting hasCredit : Bool)
    (wakeups : Nat) : Prop where
  queueOpen : queueClosed = true ↔ phase = .cancelled
  asleep : phase ≠ .subscribed → waiting = false
  idle : phase ≠ .subscribed → phase ≠ .cancelled → wakeups = 0
  awake : phase = .subscribed → wakeups + waiting.toNat = hasCredit.toNat
  empty : waiting = true → queue = []

/-- A terminal event is the last, and payloads are paid for. -/
structure Accounted (phase : Phase) (delivered : List (Sent π ε))
    (creditBuffer : CreditBuffer (Sent π ε)) (granted : Nat) : Prop where
  unread : phase = .unsubscribed → delivered = [] ∧ creditBuffer = .credits 0
  terminals : ∀ sent ∈ delivered.dropLast, sent.closes = false
  noTerminal : phase ≠ .ended → ∀ sent ∈ delivered, sent.closes = false
  withinCredit : delivered.countP Sent.takesCredit ≤ granted
  credits : phase = .subscribed →
    delivered.countP Sent.takesCredit + creditBuffer.getCredits ≤ granted
  small : creditBuffer.getCredits ≤ CreditBuffer.maxCreditVal

/-- The publisher alone joins, and finds the function finished. -/
structure Joined (publisher : Publisher τ π ε) (calls : CallOnceFunction.State)
    (completed : Bool) : Prop where
  consistent : CallOnceFunction.Consistent calls
  joins : publisher = .join → calls.total Caller.joining = 0 → calls.shared.joined = true
  alone : publisher ≠ .join → calls.total Caller.joining = 0
  finished : completed → calls.shared.finished

/-- The invariant of all runs. -/
structure Consistent (encoder : StreamElementEncoder τ π ε) (s : State τ π ε) : Prop where
  carried : Carried s.phase s.delivered s.published (s.underway encoder)
  established : Established s.phase s.publisher s.encodeOrQueue s.establisher
  woken : Woken s.phase s.queue s.queueClosed s.waiting s.creditBuffer.hasCredit s.wakeups
  accounted : Accounted s.phase s.delivered s.creditBuffer s.granted
  joined : Joined s.publisher s.onStreamCompleteOrCancel s.completed

theorem Consistent.initial : Consistent encoder (State.initial τ π ε) where
  carried :=
    { inOrder := List.prefix_rfl
      complete := fun _ => rfl }
  established :=
    { pushes := fun pushing => pushing.elim
      closed := by simp [State.initial]
      done := fun other => absurd rfl other }
  woken :=
    { queueOpen := by simp [State.initial]
      asleep := fun _ => rfl
      idle := fun _ _ => rfl
      awake := fun subscribed => by cases subscribed
      empty := fun waiting => by cases waiting }
  accounted :=
    { unread := fun _ => ⟨rfl, rfl⟩
      terminals := by simp [State.initial]
      noTerminal := by simp [State.initial]
      withinCredit := by simp [State.initial]
      credits := nofun
      small := by simp [State.initial, CreditBuffer.getCredits] }
  joined :=
    { consistent := .initial
      joins := fun join => by cases join
      alone := fun _ => rfl
      finished := fun completed => by cases completed }

theorem Consistent.delivers (consistent : Consistent encoder s) : s.DeliversPublished where
  inOrder := consistent.carried.inOrder
  withinCredit := consistent.accounted.withinCredit
  lastTerminal := by
    intro before sent after split closes
    by_contra more
    have early : sent ∈ s.delivered.dropLast := by
      rw [split, List.dropLast_append_of_ne_nil (by simp), List.dropLast_cons_of_ne_nil more]
      simp
    rw [consistent.accounted.terminals sent early] at closes
    cases closes
  nothingLeft := by
    intro quiet subscribed credit
    have done := consistent.established.done (by simp [subscribed]) (by simp [subscribed])
    have closed := consistent.established.closed.mpr done
    have complete := consistent.carried.complete (.inr subscribed)
    have awake := consistent.woken.awake subscribed
    have noPush : s.publisher.held encoder = [] ∧ s.publisher.wakes = 0 := by
      rcases quiet.2 with idle | join
      · simp [idle, Publisher.held, Publisher.wakes]
      · simp [join, Publisher.held, Publisher.wakes]
    have waiting : s.waiting = true := by
      simp only [State.wakeups, quiet.1, noPush.2, done, credit, Establisher.wakes] at awake
      by_contra other
      simp [other] at awake
    have noBuffer : s.creditBuffer.getBuffer = [] := by
      cases cb : s.creditBuffer with
      | credits val => rfl
      | buffer queue =>
        rw [cb] at credit
        cases credit
    rw [complete, State.underway, noBuffer, consistent.woken.empty waiting, done, closed, noPush.1]
    simp [Establisher.held, EncodeOrQueue.getMessages]
  calledOnce := consistent.joined.consistent.phase.called_le
  finished := consistent.joined.finished

/-! ## The publisher -/

theorem Carried.publish {phase : Phase} {delivered published underway : List (Sent π ε)}
    (carried : Carried phase delivered published underway) (sent : Sent π ε) :
    Carried phase delivered (published ++ [sent]) (underway ++ [sent]) where
  inOrder := carried.inOrder.trans (List.prefix_append _ _)
  complete early := by rw [carried.complete early, List.append_assoc]

theorem Joined.other {publisher : Publisher τ π ε} {calls : CallOnceFunction.State}
    {completed : Bool} (joined : Joined publisher calls completed) (out : publisher ≠ .join)
    (next : Publisher τ π ε) (stays : next ≠ .join) : Joined next calls completed where
  consistent := joined.consistent
  joins join := absurd join stays
  alone _ := joined.alone out
  finished := joined.finished

theorem Consistent.publish (consistent : Consistent encoder s) (message : Message τ ε)
    (idle : s.publisher = .idle) :
    Consistent encoder { s with
      publisher := .load message
      published := s.published ++ [encoder.encode message] } where
  carried := by
    have published := consistent.carried.publish (encoder.encode message)
    simpa [State.underway, idle, Publisher.held] using published
  established := ⟨fun pushing => pushing.elim, consistent.established.closed,
    consistent.established.done⟩
  woken := by simpa [State.wakeups, idle, Publisher.wakes] using consistent.woken
  accounted := consistent.accounted
  joined := consistent.joined.other (by simp [idle]) _ (by simp)

theorem Consistent.publishEncoded (consistent : Consistent encoder s) (sent : Sent π ε)
    (idle : s.publisher = .idle) (done : s.establisher = .done) :
    Consistent encoder { s with
      publisher := .push sent sent.closes
      published := s.published ++ [sent] } where
  carried := by
    have published := consistent.carried.publish sent
    simpa [State.underway, idle, Publisher.held] using published
  established := ⟨fun _ => consistent.established.closed.mpr done,
    consistent.established.closed, consistent.established.done⟩
  woken := by simpa [State.wakeups, idle, Publisher.wakes] using consistent.woken
  accounted := consistent.accounted
  joined := consistent.joined.other (by simp [idle]) _ (by simp)

/-- A call of `callOrJoin` starts when a message that closes the stream is in a queue. -/
theorem Consistent.afterPush (close : Bool)
    (consistent : Consistent encoder { s with publisher := .idle }) :
    Consistent encoder (s.afterPush close) := by
  unfold State.afterPush
  split
  · have alone := consistent.joined.alone (by simp)
    exact
      { carried := consistent.carried
        established := ⟨fun pushing => pushing.elim, consistent.established.closed,
          consistent.established.done⟩
        woken := consistent.woken
        accounted := consistent.accounted
        joined :=
          { consistent := consistent.joined.consistent.call fun _ => alone
            joins := by
              intro _ none
              simp [CallOnceFunction.State.call, Caller.joining] at none alone
              omega
            alone := fun other => absurd rfl other
            finished := consistent.joined.finished } }
  · exact consistent

/-- While a message is pushed, none is in `encodeOrQueue_` or on the way from it. -/
theorem Established.nothingHeld {phase : Phase} {publisher : Publisher τ π ε}
    {encodeOrQueue : EncodeOrQueue (Message τ ε)} {establisher : Establisher τ ε}
    (established : Established phase publisher encodeOrQueue establisher)
    (pushing : publisher.Pushes) : establisher.held ++ encodeOrQueue.getMessages = [] := by
  have closed := established.pushes pushing
  rw [closed, established.closed.mp closed]
  rfl

/-- A push keeps the message, and wakes the reader if it waits. -/
theorem Consistent.pushed (consistent : Consistent encoder s) {sent : Sent π ε} {close : Bool}
    (pushing : s.publisher = .push sent close) (succeeds : Bool) :
    Consistent encoder (s.advancePublisher encoder succeeds) := by
  have nothing := consistent.established.nothingHeld (by simp [pushing, Publisher.Pushes])
  obtain ⟨inOrder, complete⟩ := consistent.carried
  have woken := consistent.woken
  have out : s.publisher ≠ .join := by simp [pushing]
  simp only [State.underway, pushing, Publisher.held, nothing, List.map_nil,
    List.append_nil] at complete
  simp only [State.wakeups, pushing, Publisher.wakes, Nat.add_zero] at woken
  cases closed : s.queueClosed with
  | true =>
    have cancelled := woken.queueOpen.mp closed
    simp only [State.advancePublisher, pushing, State.push, closed, if_true,
      Bool.false_eq_true, if_false]
    refine Consistent.afterPush close ⟨⟨inOrder, by simp [cancelled]⟩,
      ⟨fun pushing => pushing.elim, consistent.established.closed,
        consistent.established.done⟩, ?_, consistent.accounted,
      consistent.joined.other out _ (by simp)⟩
    simpa [State.wakeups, Publisher.wakes] using woken
  | false =>
    cases waiting : s.waiting with
    | true =>
      have subscribed : s.phase = .subscribed := by
        by_contra other
        rw [woken.asleep other] at waiting
        cases waiting
      simp only [State.advancePublisher, pushing, State.push, closed, waiting, if_true,
        Bool.false_eq_true, if_false]
      refine ⟨⟨inOrder, fun early => ?_⟩, ⟨fun _ => ?_, consistent.established.closed,
        consistent.established.done⟩, ?_, consistent.accounted,
        consistent.joined.other out _ (by simp)⟩
      · simpa [State.underway, Publisher.held, nothing] using complete early
      · exact consistent.established.pushes (by simp [pushing, Publisher.Pushes])
      · have awake := woken.awake subscribed
        rw [waiting] at awake
        refine ⟨?_, fun _ => rfl, ?_, fun _ => ?_, by simp⟩
        · simp [subscribed]
        · exact fun other => absurd subscribed other
        · simp [State.wakeups, Publisher.wakes] at awake ⊢
          omega
    | false =>
      simp only [State.advancePublisher, pushing, State.push, closed, waiting,
        Bool.false_eq_true, if_false]
      refine Consistent.afterPush close ⟨⟨inOrder, fun early => ?_⟩,
        ⟨fun pushing => pushing.elim, consistent.established.closed,
          consistent.established.done⟩, ?_, consistent.accounted,
        consistent.joined.other out _ (by simp)⟩
      · simpa [State.underway, Publisher.held, nothing] using complete early
      · rw [closed, waiting] at woken
        refine ⟨?_, fun _ => rfl, ?_, ?_, by simp⟩
        · simpa [closed] using woken.queueOpen
        · simpa [State.wakeups, Publisher.wakes] using woken.idle
        · simpa [State.wakeups, Publisher.wakes] using woken.awake

theorem Consistent.holds (consistent : Consistent encoder s) {next : Publisher τ π ε}
    (same : next.held encoder = s.publisher.held encoder)
    (noWake : next.wakes = s.publisher.wakes) (out : s.publisher ≠ .join) (stays : next ≠ .join)
    (pushes : next.Pushes → s.encodeOrQueue = .closed) :
    Consistent encoder { s with publisher := next } where
  carried := by
    rw [State.underway, same]
    exact consistent.carried
  established := ⟨pushes, consistent.established.closed, consistent.established.done⟩
  woken := by
    rw [State.wakeups, noWake]
    exact consistent.woken
  accounted := consistent.accounted
  joined := consistent.joined.other out next stays

/-- A message that is put into `encodeOrQueue_` is behind those that are there. -/
theorem Consistent.queued (consistent : Consistent encoder s) {message : Message τ ε}
    {storage queue : List (Message τ ε)} (publisher : s.publisher = .exchange message storage)
    (opened : s.encodeOrQueue = .messages queue) :
    Consistent encoder { s with
      encodeOrQueue := .messages (queue ++ [message]), publisher := .idle } where
  carried := by
    have carried := consistent.carried
    simpa [State.underway, publisher, opened, Publisher.held, EncodeOrQueue.getMessages]
      using carried
  established := by
    have closed := consistent.established.closed
    rw [opened] at closed
    exact ⟨fun pushing => pushing.elim, by simpa using closed, consistent.established.done⟩
  woken := by simpa [State.wakeups, publisher, Publisher.wakes] using consistent.woken
  accounted := consistent.accounted
  joined := consistent.joined.other (by simp [publisher]) _ (by simp)

theorem Consistent.woke (consistent : Consistent encoder s) {close : Bool}
    (publisher : s.publisher = .consume close) :
    Consistent encoder { s.consume with publisher := .idle } where
  carried := by
    have carried := consistent.carried
    simpa [State.underway, State.consume, publisher, Publisher.held] using carried
  established := ⟨fun pushing => pushing.elim, consistent.established.closed,
    consistent.established.done⟩
  woken := by
    simpa [State.wakeups, State.consume, publisher, Publisher.wakes] using consistent.woken
  accounted := consistent.accounted
  joined := consistent.joined.other (by simp [publisher]) _ (by simp)

/-- `callOrJoin` has returned. -/
theorem Consistent.returned (consistent : Consistent encoder s) (publisher : s.publisher = .join)
    (left : s.onStreamCompleteOrCancel.total Caller.joining = 0) :
    Consistent encoder { s with publisher := .idle, completed := true } where
  carried := by
    have carried := consistent.carried
    simpa [State.underway, publisher, Publisher.held] using carried
  established := ⟨fun pushing => pushing.elim, consistent.established.closed,
    consistent.established.done⟩
  woken := by simpa [State.wakeups, publisher, Publisher.wakes] using consistent.woken
  accounted := consistent.accounted
  joined :=
    { consistent := consistent.joined.consistent
      joins := fun join => by cases join
      alone := fun _ => left
      finished := fun _ =>
        consistent.joined.consistent.joined (consistent.joined.joins publisher left) }

theorem Consistent.advancePublisher (consistent : Consistent encoder s) (succeeds : Bool) :
    Consistent encoder (s.advancePublisher encoder succeeds) := by
  cases publisher : s.publisher with
  | idle => simpa [State.advancePublisher, publisher] using consistent
  | load message =>
    have held : s.publisher.held encoder = [encoder.encode message] := by rw [publisher]; rfl
    have wakes : s.publisher.wakes = 0 := by rw [publisher]; rfl
    have out : s.publisher ≠ .join := by simp [publisher]
    simp only [State.advancePublisher, publisher]
    split
    next closed =>
      exact consistent.holds held.symm wakes.symm out (by simp) fun _ => closed
    next =>
      exact consistent.holds held.symm wakes.symm out (by simp) fun no => no.elim
  | exchange message storage =>
    have held : s.publisher.held encoder = [encoder.encode message] := by rw [publisher]; rfl
    have wakes : s.publisher.wakes = 0 := by rw [publisher]; rfl
    have out : s.publisher ≠ .join := by simp [publisher]
    simp only [State.advancePublisher, publisher]
    split
    next closed =>
      exact consistent.holds held.symm wakes.symm out (by simp) fun _ => closed
    next opened =>
      split
      · exact Consistent.afterPush _ (consistent.queued publisher opened)
      · exact consistent.holds held.symm wakes.symm out (by simp) fun no => no.elim
  | push sent close => exact consistent.pushed publisher succeeds
  | consume close =>
    simp only [State.advancePublisher, publisher]
    exact Consistent.afterPush close (consistent.woke publisher)
  | join =>
    simp only [State.advancePublisher, publisher]
    split
    next left => exact consistent.returned publisher left
    next => exact consistent

/-! ## The thread that establishes the stream -/

theorem Consistent.takes (consistent : Consistent encoder s) {next : Establisher τ ε}
    {queue : List (Message τ ε)} (opened : s.establisher ≠ .done) (going : next ≠ .done)
    (same : next.held ++ queue = s.establisher.held ++ s.encodeOrQueue.getMessages)
    (noWake : next.wakes = s.establisher.wakes) :
    Consistent encoder { s with encodeOrQueue := .messages queue, establisher := next } where
  carried := by
    rw [State.underway]
    simp only [EncodeOrQueue.getMessages, same]
    exact consistent.carried
  established :=
    { pushes := fun pushing =>
        absurd (consistent.established.closed.mp (consistent.established.pushes pushing)) opened
      closed := by simp [going]
      done := fun one other => absurd (consistent.established.done one other) opened }
  woken := by
    rw [State.wakeups, noWake]
    exact consistent.woken
  accounted := consistent.accounted
  joined := consistent.joined

theorem Consistent.notWaiting (consistent : Consistent encoder s)
    (running : s.establisher ≠ .done) : s.waiting = false ∧ s.queueClosed = false := by
  have phase : s.phase = .unsubscribed ∨ s.phase = .dropped := by
    by_contra other
    rw [not_or] at other
    exact running (consistent.established.done other.1 other.2)
  constructor
  · exact consistent.woken.asleep (by rcases phase with phase | phase <;> simp [phase])
  · have queueOpen := consistent.woken.queueOpen
    rcases phase with phase | phase <;> simpa [phase] using queueOpen

/-- A message that is pushed into `queue_` is behind those that are there and before those that
are still to be pushed. -/
theorem Consistent.transfers (consistent : Consistent encoder s) {message : Message τ ε}
    {messages : List (Message τ ε)} (establisher : s.establisher = .push (message :: messages)) :
    Consistent encoder { s with
      queue := s.queue ++ [encoder.encode message]
      waiting := false
      establisher := .push messages } where
  carried := by
    have carried := consistent.carried
    simpa [State.underway, establisher, Establisher.held] using carried
  established := by
    have closed := consistent.established.closed
    have done := consistent.established.done
    rw [establisher] at closed done
    exact ⟨consistent.established.pushes, by simpa using closed, by simpa using done⟩
  woken := by
    have notWaiting := (consistent.notWaiting (by simp [establisher])).1
    have woken := consistent.woken
    rw [notWaiting] at woken
    simp only [State.wakeups, establisher, Establisher.wakes] at woken ⊢
    exact ⟨woken.queueOpen, woken.asleep, woken.idle, woken.awake, by simp⟩
  accounted := consistent.accounted
  joined := consistent.joined

/-- `encodeOrQueue_` is closed when it is empty, and so is the thread's list. -/
theorem Consistent.closes (consistent : Consistent encoder s)
    (establisher : s.establisher = .close) (nothing : s.encodeOrQueue.getMessages = []) :
    Consistent encoder { s with encodeOrQueue := .closed, establisher := .done } where
  carried := by
    have carried := consistent.carried
    rw [State.underway, establisher, nothing] at carried
    exact carried
  established := ⟨fun _ => rfl, by simp, fun _ _ => rfl⟩
  woken := by simpa [State.wakeups, establisher, Establisher.wakes] using consistent.woken
  accounted := consistent.accounted
  joined := consistent.joined

theorem Consistent.establisherWoke (consistent : Consistent encoder s)
    {messages : List (Message τ ε)} (establisher : s.establisher = .consume messages) :
    Consistent encoder { s.consume with establisher := .push messages } where
  carried := by
    have carried := consistent.carried
    simpa [State.underway, State.consume, establisher, Establisher.held] using carried
  established := by
    have closed := consistent.established.closed
    have done := consistent.established.done
    rw [establisher] at closed done
    exact ⟨consistent.established.pushes, by simpa [State.consume] using closed,
      by simpa [State.consume] using done⟩
  woken := by
    have woken := consistent.woken
    simp only [State.wakeups, State.consume, establisher, Establisher.wakes] at woken ⊢
    rw [show s.tasks + 1 + s.publisher.wakes + 0 = s.tasks + s.publisher.wakes + 1 by omega]
    exact woken
  accounted := consistent.accounted
  joined := consistent.joined

theorem Consistent.advanceEstablisher (consistent : Consistent encoder s)
    (running : s.establisher ≠ .idle ∧ s.establisher ≠ .done) (succeeds : Bool) :
    Consistent encoder (s.advanceEstablisher encoder succeeds) := by
  obtain ⟨queue, opened⟩ : ∃ queue, s.encodeOrQueue = .messages queue := by
    cases storage : s.encodeOrQueue with
    | messages queue => exact ⟨queue, rfl⟩
    | closed => exact absurd (consistent.established.closed.mp storage) running.2
  have exchange : s.establisher.held = [] → s.establisher.wakes = 0 →
      Consistent encoder { s with establisher := .exchange } := by
    intro held wakes
    have same : (Establisher.exchange : Establisher τ ε).held ++ queue =
        s.establisher.held ++ s.encodeOrQueue.getMessages := by
      rw [held, opened]
      rfl
    have takes := consistent.takes running.2 (by simp) same wakes.symm
    rw [← opened] at takes
    exact takes
  cases establisher : s.establisher with
  | idle => exact absurd establisher running.1
  | done => exact absurd establisher running.2
  | exchange =>
    have held : s.establisher.held ++ s.encodeOrQueue.getMessages = queue := by
      rw [establisher, opened]
      rfl
    have wakes : s.establisher.wakes = 0 := by rw [establisher]; rfl
    simp only [State.advanceEstablisher, establisher, opened, EncodeOrQueue.getMessages]
    split
    next => exact consistent.takes running.2 (by simp) held.symm wakes.symm
    next =>
      refine consistent.takes running.2 (by simp) ?_ wakes.symm
      rw [held]
      exact List.append_nil _
  | close =>
    simp only [State.advanceEstablisher, establisher]
    split
    next empty => exact consistent.closes establisher empty.2
    next => exact exchange (by rw [establisher]; rfl) (by rw [establisher]; rfl)
  | push messages =>
    cases messages with
    | nil =>
      simp only [State.advanceEstablisher, establisher]
      exact exchange (by rw [establisher]; rfl) (by rw [establisher]; rfl)
    | cons message messages =>
      obtain ⟨notWaiting, notClosed⟩ := consistent.notWaiting running.2
      simpa [State.advanceEstablisher, establisher, State.push, notWaiting, notClosed]
        using consistent.transfers establisher
  | consume messages =>
    simp only [State.advanceEstablisher, establisher]
    exact consistent.establisherWoke establisher

/-! ## The tasks of the client -/

/-- The invariant within a task of the client that has taken `buffer`. -/
structure Reading (encoder : StreamElementEncoder τ π ε) (buffer : List (Sent π ε))
    (s : State τ π ε) : Prop where
  subscribed : s.phase = .subscribed
  complete : s.published = s.delivered ++ (buffer ++ s.queue ++ s.publisher.held encoder)
  credits : s.creditBuffer = .credits s.creditBuffer.getCredits
  established : Established s.phase s.publisher s.encodeOrQueue s.establisher
  noWakeups : s.wakeups = 0
  notWaiting : s.waiting = false
  queueOpen : s.queueClosed = false
  accounted : Accounted s.phase s.delivered s.creditBuffer s.granted
  joined : Joined s.publisher s.onStreamCompleteOrCancel s.completed

theorem Joined.call {publisher : Publisher τ π ε} {calls : CallOnceFunction.State}
    {completed : Bool} (joined : Joined publisher calls completed) :
    Joined publisher (calls.call false) completed where
  consistent := joined.consistent.call fun join => by cases join
  joins join none := by
    refine joined.joins join ?_
    simpa [CallOnceFunction.State.call, Caller.joining] using none
  alone out := by simpa [CallOnceFunction.State.call, Caller.joining] using joined.alone out
  finished := joined.finished

theorem consistent_cancel (inOrder : s.delivered <+: s.published)
    (established : Established s.phase s.publisher s.encodeOrQueue s.establisher)
    (subscribed : s.phase = .subscribed)
    (noTerminal : ∀ sent ∈ s.delivered, sent.closes = false)
    (withinCredit : s.delivered.countP Sent.takesCredit ≤ s.granted)
    (small : s.creditBuffer.getCredits ≤ CreditBuffer.maxCreditVal)
    (joined : Joined s.publisher s.onStreamCompleteOrCancel s.completed) :
    Consistent encoder s.cancel where
  carried := ⟨inOrder, fun early => by rcases early with early | early <;> cases early⟩
  established := ⟨established.pushes, established.closed,
    fun _ _ => established.done (by simp [subscribed]) (by simp [subscribed])⟩
  woken :=
    { queueOpen := ⟨fun _ => rfl, fun _ => rfl⟩
      asleep := fun _ => rfl
      idle := fun _ other => absurd rfl other
      awake := fun early => by cases early
      empty := fun waiting => by cases waiting }
  accounted := ⟨nofun, fun sent early => noTerminal sent (List.dropLast_subset _ early),
    fun _ => noTerminal, withinCredit, nofun, small⟩
  joined := joined.call

namespace Reading

variable {sent : Sent π ε} {buffer : List (Sent π ε)}

theorem noTerminal_deliver (reading : Reading encoder buffer s) (goesOn : sent.closes = false) :
    ∀ other ∈ s.delivered ++ [sent], other.closes = false := by
  intro other member
  rcases List.mem_append.mp member with before | last
  · exact reading.accounted.noTerminal (by simp [reading.subscribed]) other before
  · rw [List.mem_singleton.mp last]
    exact goesOn

theorem accounted_deliver (reading : Reading encoder buffer s) (goesOn : sent.closes = false)
    {left : CreditBuffer (Sent π ε)}
    (paid : left.getCredits + sent.takesCredit.toNat ≤ s.creditBuffer.getCredits) :
    Accounted s.phase (s.delivered ++ [sent]) left s.granted where
  unread early := by
    rw [reading.subscribed] at early
    cases early
  terminals := by
    rw [List.dropLast_concat]
    exact reading.accounted.noTerminal (by simp [reading.subscribed])
  noTerminal _ := reading.noTerminal_deliver goesOn
  withinCredit := by
    have credits := reading.accounted.credits reading.subscribed
    rw [List.countP_append, List.countP_singleton]
    cases takes : sent.takesCredit <;> simp [takes] at paid ⊢ <;> omega
  credits _ := by
    have credits := reading.accounted.credits reading.subscribed
    rw [List.countP_append, List.countP_singleton]
    cases takes : sent.takesCredit <;> simp [takes] at paid ⊢ <;> omega
  small := by
    have small := reading.accounted.small
    omega

/-- What is left after `processQueue` on messages that were taken from `queue`. -/
def Processed (encoder : StreamElementEncoder τ π ε) (queue : List (Sent π ε)) :
    State τ π ε × Option Nat × Option (List (Sent π ε)) → Prop
  | (s, _, none) => Consistent encoder s
  | (s, _, some rest) => Reading encoder rest s ∧
      (rest = [] ∨ s.creditBuffer.hasCredit = false) ∧ s.queue = queue

theorem paid (reading : Reading encoder (sent :: buffer) s) {p : π} {takesCredit : Bool}
    (payload : sent = .payload p takesCredit) (credit : s.creditBuffer.hasCredit = true) :
    Reading encoder buffer ((s.deliver sent).payCredit takesCredit) := by
  have small := reading.accounted.small
  have credits := reading.credits
  generalize s.creditBuffer.getCredits = v at small credits
  have some : v ≠ 0 := by
    rw [credits] at credit
    simpa [CreditBuffer.hasCredit] using credit
  have complete := reading.complete
  have goesOn : sent.closes = false := by rw [payload]; rfl
  have takes : sent.takesCredit = takesCredit := by rw [payload]; rfl
  cases takesCredit with
  | true =>
    have paid : s.creditBuffer.addCredits (-1) = .credits (v - 1) := by
      rw [credits, CreditBuffer.addCredits]
      unfold CreditBuffer.maxCreditVal at small ⊢
      congr 1
      omega
    rw [State.payCredit, if_pos rfl]
    refine
      { reading with
        complete := by simpa [State.deliver] using complete
        credits := by simp only [State.deliver, paid, CreditBuffer.getCredits]
        accounted := reading.accounted_deliver goesOn ?_ }
    simp only [State.deliver, paid]
    rw [credits, takes]
    simp only [CreditBuffer.getCredits, Bool.toNat_true]
    omega
  | false =>
    rw [State.payCredit, if_neg (by simp)]
    refine
      { reading with
        complete := by simpa [State.deliver] using complete
        accounted := reading.accounted_deliver goesOn ?_ }
    rw [takes]
    exact Nat.le_refl _

/-- A terminal event is delivered. -/
theorem ended (reading : Reading encoder (sent :: buffer) s) (closes : sent.closes = true) :
    Consistent encoder { s.deliver sent with phase := .ended } where
  carried := by
    refine ⟨⟨buffer ++ s.queue ++ s.publisher.held encoder, ?_⟩, by simp⟩
    simp [State.deliver, reading.complete]
  established := ⟨reading.established.pushes, reading.established.closed, fun _ _ =>
    reading.established.done (by simp [reading.subscribed]) (by simp [reading.subscribed])⟩
  woken := ⟨by simp [State.deliver, reading.queueOpen], fun _ => reading.notWaiting,
    fun _ _ => reading.noWakeups, nofun, by simp [State.deliver, reading.notWaiting]⟩
  accounted :=
    { unread := nofun
      terminals := by
        simp only [State.deliver, List.dropLast_concat]
        exact reading.accounted.noTerminal (by simp [reading.subscribed])
      noTerminal := fun other => absurd rfl other
      withinCredit := by
        have free : sent.takesCredit = false := by
          cases sent with
          | payload => cases closes
          | _ => rfl
        simpa [State.deliver, List.countP_append, free] using reading.accounted.withinCredit
      credits := nofun
      small := reading.accounted.small }
  joined := reading.joined

/-- The callback cancels when it is called with a payload. -/
theorem cancelled (reading : Reading encoder (sent :: buffer) s) (goesOn : sent.closes = false)
    (credit : s.creditBuffer.hasCredit = true) :
    Consistent encoder (s.deliver sent).cancel := by
  have some : 1 ≤ s.creditBuffer.getCredits := by
    rw [reading.credits] at credit
    simpa [CreditBuffer.hasCredit, Nat.one_le_iff_ne_zero] using credit
  refine consistent_cancel ⟨buffer ++ s.queue ++ s.publisher.held encoder, ?_⟩
    reading.established reading.subscribed (reading.noTerminal_deliver goesOn) ?_
    reading.accounted.small reading.joined
  · simp [State.deliver, reading.complete]
  · have credits := reading.accounted.credits reading.subscribed
    simp only [State.deliver, List.countP_append, List.countP_singleton]
    split <;> omega

theorem processQueue (reading : Reading encoder buffer s) (alive : Option Nat) :
    Processed encoder s.queue (s.processQueue alive buffer) := by
  induction buffer generalizing s alive with
  | nil => exact ⟨reading, .inl rfl, rfl⟩
  | cons sent buffer ih =>
    unfold State.processQueue
    split
    next credit =>
      cases sent with
      | payload p takesCredit =>
        dsimp only
        split
        next => exact reading.cancelled rfl credit
        next =>
          have rest := ih (reading.paid rfl credit) (alive.map (· - 1))
          have queue : ((s.deliver (.payload p takesCredit)).payCredit takesCredit).queue =
              s.queue := by
            cases takesCredit <;> rfl
          rw [queue] at rest
          exact rest
      | exception e => exact reading.ended rfl
      | complete => exact reading.ended rfl
    next noCredit => exact ⟨reading, .inr (Bool.eq_false_iff.mpr noCredit), rfl⟩

theorem ends (reading : Reading encoder buffer s) {waiting : Bool}
    {creditBuffer : CreditBuffer (Sent π ε)} (stored : creditBuffer.getBuffer = buffer)
    (credits : creditBuffer.getCredits ≤ s.creditBuffer.getCredits)
    (waits : waiting = creditBuffer.hasCredit) (empty : waiting = true → s.queue = []) :
    Consistent encoder { s with waiting := waiting, creditBuffer := creditBuffer } where
  carried := by
    have done := reading.established.done (by simp [reading.subscribed])
      (by simp [reading.subscribed])
    refine ⟨⟨buffer ++ s.queue ++ s.publisher.held encoder, reading.complete.symm⟩, fun _ => ?_⟩
    rw [reading.complete, State.underway]
    simp only [stored, done, reading.established.closed.mpr done]
    simp [Establisher.held, EncodeOrQueue.getMessages]
  established := reading.established
  woken :=
    { queueOpen := by simp [reading.subscribed, reading.queueOpen]
      asleep := fun other => absurd reading.subscribed other
      idle := fun other => absurd reading.subscribed other
      awake := fun _ => by
        have none : s.wakeups = 0 := reading.noWakeups
        simp only [State.wakeups] at none ⊢
        rw [none, waits, Nat.zero_add]
      empty := empty }
  accounted :=
    { unread := fun early => by
        rw [reading.subscribed] at early
        cases early
      terminals := reading.accounted.terminals
      noTerminal := reading.accounted.noTerminal
      withinCredit := reading.accounted.withinCredit
      credits := fun _ =>
        Nat.le_trans (Nat.add_le_add_left credits _) (reading.accounted.credits reading.subscribed)
      small := Nat.le_trans credits reading.accounted.small }
  joined := reading.joined

theorem waitOrStore (reading : Reading encoder buffer s)
    (finished : buffer = [] ∨ s.creditBuffer.hasCredit = false)
    (empty : s.creditBuffer.hasCredit = true → s.queue = []) :
    Consistent encoder (s.waitOrStore buffer) := by
  have noBuffer : s.creditBuffer.getBuffer = [] := by
    rw [reading.credits]
    rfl
  cases credit : s.creditBuffer.hasCredit with
  | true =>
    obtain rfl : buffer = [] := by simpa [credit] using finished
    simp only [State.waitOrStore, credit, if_true, ne_eq, not_true_eq_false, if_false]
    exact reading.ends noBuffer (Nat.le_refl _) credit.symm fun _ => empty credit
  | false =>
    have same : s.waitOrStore buffer =
        if buffer ≠ [] then { s with creditBuffer := .buffer buffer } else s := by
      simp only [State.waitOrStore, credit, Bool.false_eq_true, if_false]
    rw [same]
    split
    next =>
      have stored : Consistent encoder
          { s with waiting := false, creditBuffer := .buffer buffer } :=
        reading.ends rfl (Nat.zero_le _) rfl nofun
      rw [← reading.notWaiting] at stored
      exact stored
    next nothing =>
      rw [not_not] at nothing
      subst nothing
      have waits := reading.ends noBuffer (Nat.le_refl _) credit.symm nofun
      rw [← reading.notWaiting] at waits
      exact waits

theorem processPayloads (reading : Reading encoder buffer s) (alive : Option Nat) :
    Consistent encoder (s.processPayloads alive buffer) := by
  have processed := reading.processQueue alive
  unfold State.processPayloads
  cases first : s.processQueue alive buffer with
  | mk s' more =>
    obtain ⟨left, rest⟩ := more
    rw [first] at processed
    cases rest with
    | none => exact processed
    | some rest =>
      obtain ⟨reading', finished, -⟩ := processed
      dsimp only
      split
      next again =>
        obtain rfl : rest = [] := by simpa [again.1] using finished
        have taken : Reading encoder s'.queue { s' with queue := [] } :=
          { reading' with
            complete := by simpa using reading'.complete }
        have processed := taken.processQueue left
        cases second : State.processQueue { s' with queue := [] } left s'.queue with
        | mk s'' more =>
          obtain ⟨left, rest⟩ := more
          rw [second] at processed
          cases rest with
          | none => exact processed
          | some rest =>
            obtain ⟨reading'', finished, nothing⟩ := processed
            exact reading''.waitOrStore finished fun _ => nothing
      next stop =>
        refine reading'.waitOrStore finished fun credit => ?_
        by_contra more
        exact stop ⟨credit, more⟩

end Reading

theorem Consistent.reads (consistent : Consistent encoder s) (subscribed : s.phase = .subscribed)
    {tasks granted : Nat} {creditBuffer : CreditBuffer (Sent π ε)}
    (noWakeups : tasks + s.publisher.wakes + s.establisher.wakes = 0)
    (notWaiting : s.waiting = false) (isCredits : creditBuffer = .credits creditBuffer.getCredits)
    (paid : s.delivered.countP Sent.takesCredit + creditBuffer.getCredits ≤ granted)
    (small : creditBuffer.getCredits ≤ CreditBuffer.maxCreditVal) :
    Reading encoder s.creditBuffer.getBuffer
      { s with tasks := tasks, granted := granted, creditBuffer := creditBuffer } where
  subscribed := subscribed
  complete := by
    have done := consistent.established.done (by simp [subscribed]) (by simp [subscribed])
    have complete := consistent.carried.complete (.inr subscribed)
    rw [State.underway, done, consistent.established.closed.mpr done] at complete
    simpa [Establisher.held, EncodeOrQueue.getMessages] using complete
  credits := isCredits
  established := consistent.established
  noWakeups := noWakeups
  notWaiting := notWaiting
  queueOpen := by
    have queueOpen := consistent.woken.queueOpen
    simpa [subscribed] using queueOpen
  accounted :=
    { unread := fun early => by
        rw [subscribed] at early
        cases early
      terminals := consistent.accounted.terminals
      noTerminal := consistent.accounted.noTerminal
      withinCredit := Nat.le_trans (Nat.le_add_right _ _) paid
      credits := fun _ => paid
      small := small }
  joined := consistent.joined

theorem CreditBuffer.exists_credits {μ : Type} {creditBuffer : CreditBuffer μ}
    (credit : creditBuffer.hasCredit = true) : ∃ v, creditBuffer = .credits v ∧ v ≠ 0 := by
  cases creditBuffer with
  | credits val => exact ⟨val, rfl, by simpa [hasCredit] using credit⟩
  | buffer queue => cases credit

theorem Consistent.addCredits (consistent : Consistent encoder s)
    (subscribed : s.phase = .subscribed) {credits : Nat} (few : credits < 2 ^ 31)
    (credit : s.creditBuffer.hasCredit = true) :
    Consistent encoder { s with
      granted := s.granted + credits
      creditBuffer := s.creditBuffer.addCredits credits } := by
  obtain ⟨v, left, some⟩ := CreditBuffer.exists_credits credit
  have small := consistent.accounted.small
  have paid := consistent.accounted.credits subscribed
  have within := consistent.accounted.withinCredit
  rw [left, CreditBuffer.getCredits] at small paid
  obtain ⟨w, added, pos, le, small'⟩ : ∃ w, s.creditBuffer.addCredits credits = .credits w ∧
      w ≠ 0 ∧ w ≤ v + credits ∧ w ≤ CreditBuffer.maxCreditVal := by
    rw [left]
    refine ⟨_, rfl, ?_, ?_, Nat.min_le_left _ _⟩ <;> unfold CreditBuffer.maxCreditVal at * <;> omega
  have stillCredit : (CreditBuffer.credits w : CreditBuffer (Sent π ε)).hasCredit = true := by
    simpa [CreditBuffer.hasCredit] using pos
  rw [added]
  exact
    { carried := by
        have carried := consistent.carried
        rw [State.underway, left] at carried
        exact carried
      established := consistent.established
      woken := by
        have woken := consistent.woken
        rw [credit, ← stillCredit] at woken
        exact woken
      accounted :=
        { unread := fun early => by
            rw [subscribed] at early
            cases early
          terminals := consistent.accounted.terminals
          noTerminal := consistent.accounted.noTerminal
          withinCredit := Nat.le_trans within (Nat.le_add_right _ _)
          credits := fun _ => by
            simp only [CreditBuffer.getCredits]
            omega
          small := small' }
      joined := consistent.joined }

theorem Consistent.onStreamRequestN (consistent : Consistent encoder s)
    (subscribed : s.phase = .subscribed) {credits : Nat} (few : credits < 2 ^ 31)
    (alive : Option Nat) : Consistent encoder (s.onStreamRequestN credits alive) := by
  unfold State.onStreamRequestN
  dsimp only
  split
  next credit => exact consistent.addCredits subscribed few credit
  next noCredit =>
    have noCredit : s.creditBuffer.hasCredit = false := Bool.eq_false_iff.mpr noCredit
    have awake := consistent.woken.awake subscribed
    have within := consistent.accounted.withinCredit
    rw [noCredit, Bool.toNat_false, Nat.add_eq_zero_iff] at awake
    have notWaiting : s.waiting = false := by simpa using awake.2
    have reading : Reading encoder s.creditBuffer.getBuffer { s with
        granted := s.granted + credits, creditBuffer := .storeCredits credits } :=
      consistent.reads subscribed awake.1 notWaiting rfl
        (Nat.add_le_add within (Nat.min_le_right _ _)) (Nat.min_le_left _ _)
    exact reading.processPayloads alive

theorem Consistent.runTask (consistent : Consistent encoder s) (some : 0 < s.tasks)
    (alive : Option Nat) : Consistent encoder (s.runTask alive) := by
  have woken := consistent.woken
  unfold State.runTask
  dsimp only
  split
  next closed =>
    have cancelled := woken.queueOpen.mp closed
    exact
      { carried := consistent.carried
        established := consistent.established
        woken :=
          { queueOpen := woken.queueOpen
            asleep := woken.asleep
            idle := fun _ other => absurd cancelled other
            awake := fun early => by
              rw [cancelled] at early
              cases early
            empty := woken.empty }
        accounted := consistent.accounted
        joined := consistent.joined }
  next opened =>
    have subscribed : s.phase = .subscribed := by
      by_contra other
      have none := woken.idle other fun cancelled => opened (woken.queueOpen.mpr cancelled)
      rw [State.wakeups] at none
      omega
    have awake := woken.awake subscribed
    have credit : s.creditBuffer.hasCredit = true := by
      by_contra noCredit
      rw [Bool.eq_false_iff.mpr noCredit, Bool.toNat_false, State.wakeups] at awake
      omega
    rw [credit, State.wakeups, Bool.toNat_true] at awake
    have notWaiting : s.waiting = false := by
      by_contra waits
      rw [Bool.eq_true_of_not_eq_false waits, Bool.toNat_true] at awake
      omega
    obtain ⟨v, left, -⟩ := CreditBuffer.exists_credits credit
    have reading : Reading encoder s.creditBuffer.getBuffer { s with tasks := s.tasks - 1 } :=
      consistent.reads subscribed (by omega) notWaiting (by rw [left]; rfl)
        (consistent.accounted.credits subscribed) consistent.accounted.small
    have noBuffer : s.creditBuffer.getBuffer = [] := by rw [left]; rfl
    rw [noBuffer] at reading
    exact reading.processPayloads alive

theorem Consistent.subscribe (consistent : Consistent encoder s)
    (done : s.establisher = .done) (unsubscribed : s.phase = .unsubscribed) :
    Consistent encoder { s with phase := .subscribed } := by
  have woken := consistent.woken
  have accounted := consistent.accounted
  obtain ⟨nothing, noCredit⟩ := accounted.unread unsubscribed
  have noWakeups := woken.idle (by simp [unsubscribed]) (by simp [unsubscribed])
  have notWaiting := woken.asleep (by simp [unsubscribed])
  exact
    { carried := ⟨consistent.carried.inOrder,
        fun _ => consistent.carried.complete (.inl unsubscribed)⟩
      established := ⟨consistent.established.pushes, consistent.established.closed, fun _ _ => done⟩
      woken :=
        { queueOpen := by simpa [unsubscribed] using woken.queueOpen
          asleep := fun other => absurd rfl other
          idle := fun other => absurd rfl other
          awake := fun _ => by
            have none : State.wakeups { s with phase := .subscribed } = 0 := noWakeups
            rw [none, notWaiting, noCredit]
            rfl
          empty := woken.empty }
      accounted :=
        { unread := nofun
          terminals := accounted.terminals
          noTerminal := fun _ => accounted.noTerminal (by simp [unsubscribed])
          withinCredit := accounted.withinCredit
          credits := fun _ => by simp [nothing, noCredit, CreditBuffer.getCredits]
          small := accounted.small }
      joined := consistent.joined }

theorem Consistent.drop (consistent : Consistent encoder s)
    (unsubscribed : s.phase = .unsubscribed) : Consistent encoder s.drop := by
  have woken := consistent.woken
  have accounted := consistent.accounted
  exact
    { carried := ⟨consistent.carried.inOrder,
        fun early => by rcases early with early | early <;> cases early⟩
      established := ⟨consistent.established.pushes, consistent.established.closed,
        fun _ other => absurd rfl other⟩
      woken :=
        { queueOpen := by simpa [unsubscribed, State.drop] using woken.queueOpen
          asleep := fun _ => woken.asleep (by simp [unsubscribed])
          idle := fun _ _ => woken.idle (by simp [unsubscribed]) (by simp [unsubscribed])
          awake := nofun
          empty := woken.empty }
      accounted :=
        { unread := nofun
          terminals := accounted.terminals
          noTerminal := fun _ => accounted.noTerminal (by simp [unsubscribed])
          withinCredit := accounted.withinCredit
          credits := nofun
          small := accounted.small }
      joined := consistent.joined.call }

theorem Consistent.establishStream (consistent : Consistent encoder s)
    (idle : s.establisher = .idle) (unsubscribed : s.phase = .unsubscribed) :
    Consistent encoder { s with establisher := .exchange } where
  carried := by
    have carried := consistent.carried
    rw [State.underway, idle] at carried
    exact carried
  established := by
    have closed := consistent.established.closed
    rw [idle] at closed
    exact ⟨consistent.established.pushes, by simpa using closed,
      fun other => absurd unsubscribed other⟩
  woken := by
    have woken := consistent.woken
    rw [State.wakeups, idle] at woken
    exact woken
  accounted := consistent.accounted
  joined := consistent.joined

theorem Consistent.caller (consistent : Consistent encoder s) (i : Nat) (checked : Bool) :
    Consistent encoder { s with
      onStreamCompleteOrCancel := s.onStreamCompleteOrCancel.advance i checked } where
  carried := consistent.carried
  established := consistent.established
  woken := consistent.woken
  accounted := consistent.accounted
  joined := by
    obtain ⟨calls, joins, alone, finished⟩ := consistent.joined
    have nonneg := CallOnceFunction.joining_nonneg (s.onStreamCompleteOrCancel.advance i checked)
    refine ⟨calls.advance i checked, fun join none => ?_, fun out => ?_, fun completed =>
      CallOnceFunction.finished_advance _ i checked (finished completed)⟩
    · rcases CallOnceFunction.joining_cases s.onStreamCompleteOrCancel i checked with
        ⟨total, same⟩ | ⟨-, left⟩
      · rw [same]
        exact joins join (by rw [← total]; exact none)
      · exact left
    · have before := alone out
      show ThreadPool.total _ (s.onStreamCompleteOrCancel.advance i checked) = 0
      rcases CallOnceFunction.joining_cases s.onStreamCompleteOrCancel i checked with
        ⟨total, -⟩ | ⟨total, -⟩ <;> omega

/-! ## Runs -/

theorem Consistent.step (consistent : Consistent encoder s) {e : Event τ π ε}
    (allowed : s.Allowed e) : Consistent encoder (s.step encoder e) := by
  cases e with
  | publish message => exact consistent.publish message allowed
  | publishEncoded sent => exact consistent.publishEncoded sent allowed.1 allowed.2
  | publisher succeeds => exact consistent.advancePublisher succeeds
  | establishStream => exact consistent.establishStream allowed.1 allowed.2
  | establisher succeeds => exact consistent.advanceEstablisher allowed succeeds
  | subscribe => exact consistent.subscribe allowed.1 allowed.2
  | drop => exact consistent.drop allowed.2
  | onStreamRequestN credits alive =>
    exact consistent.onStreamRequestN allowed.2.2 allowed.2.1 alive
  | task alive => exact consistent.runTask allowed alive
  | onStreamCancel =>
    exact consistent_cancel consistent.carried.inOrder consistent.established allowed
      (consistent.accounted.noTerminal (by rw [allowed]; simp))
      consistent.accounted.withinCredit consistent.accounted.small consistent.joined
  | caller i checked => exact consistent.caller i checked

/-- One message is published before the stream is established and one after it, the second
waits for credit, and the stream is completed. -/
def publishTwo : List (Event Nat Nat Nat) :=
  [.publish (.value 1), .publisher true, .publisher true, .establishStream, .establisher true,
    .establisher true, .establisher true, .establisher true, .establisher true, .subscribe,
    .onStreamRequestN 1 none, .publish (.value 2), .publisher true, .publisher true,
    .onStreamRequestN 1 none, .publish .complete, .publisher true, .publisher true,
    .caller 0 true, .caller 0 true, .caller 0 true, .caller 0 true, .caller 0 true,
    .publisher true, .onStreamRequestN 1 none]

example : (publishTwo.foldl (State.step ⟨fun t => .payload t true, .exception⟩)
    (State.initial Nat Nat Nat)).delivered = [.payload 1 true, .payload 2 true, .complete] := by
  decide +kernel

end ServerPublisherStream

end FbThrift
