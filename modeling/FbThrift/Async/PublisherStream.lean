import FbThrift.Async.CallOnceFunction
import FbThrift.Lib.Run

/-!
# ServerPublisherStream

One thread publishes, another establishes the stream, and the client's event base asks for
messages or cancels.  Messages are put into `encodeOrQueue_` until the stream is established and
then, encoded, into `queue_`; what was taken from `queue_` and has no credit waits in the credit
buffer.  `queue_` is an atomic queue: a push wakes the reader that waits, which then schedules a
task on the event base.  The threads take one atomic access at a time, the event base one task.
-/

namespace FbThrift

namespace ServerPublisherStream

open CallOnceFunction (Caller)

/-- What is published: a `Try` of a value. -/
inductive Message (τ ε : Type) where
  | value (t : τ)
  | exception (e : ε)
  | complete
  deriving DecidableEq

/-- An encoded message: a `Try` of a `StreamPayload`, which takes a credit if it has data or is
an ordered header. -/
inductive Sent (π ε : Type) where
  | payload (p : π) (takesCredit : Bool)
  | exception (e : ε)
  | complete
  deriving DecidableEq

variable {τ π ε : Type}

/-- `!payload.hasValue()`. -/
def Message.closes : Message τ ε → Bool
  | value _ => false
  | _ => true

def Sent.closes : Sent π ε → Bool
  | payload _ _ => false
  | _ => true

def Sent.takesCredit : Sent π ε → Bool
  | payload _ takesCredit => takesCredit
  | _ => false

/-- `StreamElementEncoder`. -/
structure StreamElementEncoder (τ π ε : Type) where
  value : τ → Sent π ε
  exception : ε → Sent π ε

def StreamElementEncoder.encode (encoder : StreamElementEncoder τ π ε) : Message τ ε → Sent π ε
  | .value t => encoder.value t
  | .exception e => encoder.exception e
  | .complete => .complete

/-! ## The credit buffer -/

/-- A number of credits, or messages that wait for credit. -/
inductive CreditBuffer (μ : Type) where
  | credits (val : Nat)
  | buffer (queue : List μ)
  deriving DecidableEq

namespace CreditBuffer

variable {μ : Type}

def maxCreditVal : Nat := 2 ^ 63 - 1

/-- Must be called while there are credits. -/
def addCredits (delta : Int) : CreditBuffer μ → CreditBuffer μ
  | credits val => credits (min maxCreditVal ((val + delta) % 2 ^ 64).toNat)
  | buffer queue => buffer queue

def hasCredit : CreditBuffer μ → Bool
  | credits val => val ≠ 0
  | buffer _ => false

def storeCredits (val : Nat) : CreditBuffer μ := credits (min maxCreditVal val)

def getBuffer : CreditBuffer μ → List μ
  | credits _ => []
  | buffer queue => queue

def getCredits : CreditBuffer μ → Nat
  | credits val => val
  | buffer _ => 0

end CreditBuffer

/-! ## The stream -/

/-- `AtomicQueueOrPtr`. -/
inductive EncodeOrQueue (μ : Type) where
  | messages (queue : List μ)
  | closed
  deriving DecidableEq

def EncodeOrQueue.getMessages {μ : Type} : EncodeOrQueue μ → List μ
  | messages queue => queue
  | closed => []

/-- The next step of the publisher. -/
inductive Publisher (τ π ε : Type) where
  | idle
  /-- In `pushOrGetClosedPayload`, about to load. -/
  | load (message : Message τ ε)
  /-- In `pushOrGetClosedPayload`, about to exchange. -/
  | exchange (message : Message τ ε) (storage : List (Message τ ε))
  /-- About to push an encoded message. -/
  | push (sent : Sent π ε) (close : Bool)
  /-- Has woken the reader and is about to call `consume`. -/
  | consume (close : Bool)
  /-- In `callOrJoin`. -/
  | join
  deriving DecidableEq

/-- The next step of `establishStream`. -/
inductive Establisher (τ ε : Type) where
  | idle
  /-- In `closeOrGetMessages`, about to exchange for `EMPTY`. -/
  | exchange
  /-- In `closeOrGetMessages`, about to exchange `EMPTY` for `CLOSED`. -/
  | close
  | push (messages : List (Message τ ε))
  /-- Has woken the reader and is about to call `consume`. -/
  | consume (messages : List (Message τ ε))
  /-- The factory has been made. -/
  | done
  deriving DecidableEq

inductive Phase where
  | unsubscribed
  | subscribed
  /-- A terminal event was delivered. -/
  | ended
  | cancelled
  /-- The stream was destroyed without a subscriber. -/
  | dropped
  deriving DecidableEq

/-- The stream and its threads, with what was published, encoded, what the client callback was
called with, the credits that were granted, and whether a terminal publish has returned. -/
structure State (τ π ε : Type) where
  encodeOrQueue : EncodeOrQueue (Message τ ε)
  queue : List (Sent π ε)
  queueClosed : Bool
  /-- The reader is registered in `queue_`. -/
  waiting : Bool
  creditBuffer : CreditBuffer (Sent π ε)
  phase : Phase
  /-- The tasks of `consume` on the event base. -/
  tasks : Nat
  onStreamCompleteOrCancel : CallOnceFunction.State
  publisher : Publisher τ π ε
  establisher : Establisher τ ε
  published : List (Sent π ε)
  delivered : List (Sent π ε)
  granted : Nat
  completed : Bool
  deriving DecidableEq

namespace State

def initial (τ π ε : Type) : State τ π ε where
  encodeOrQueue := .messages []
  queue := []
  queueClosed := false
  waiting := false
  creditBuffer := .credits 0
  phase := .unsubscribed
  tasks := 0
  onStreamCompleteOrCancel := .initial
  publisher := .idle
  establisher := .idle
  published := []
  delivered := []
  granted := 0
  completed := false

/-- `queue_.push`, and whether it wakes the reader. -/
def push (s : State τ π ε) (sent : Sent π ε) : State τ π ε × Bool :=
  if s.queueClosed then (s, false)
  else ({ s with queue := s.queue ++ [sent], waiting := false }, s.waiting)

/-- `consume` adds a task. -/
def consume (s : State τ π ε) : State τ π ε := { s with tasks := s.tasks + 1 }

/-- The call of the client callback. -/
def deliver (s : State τ π ε) (sent : Sent π ε) : State τ π ε :=
  { s with delivered := s.delivered ++ [sent] }

/-- `onStreamCancel`: `call` runs on the server executor. -/
def cancel (s : State τ π ε) : State τ π ε :=
  { s with
    phase := .cancelled
    onStreamCompleteOrCancel := s.onStreamCompleteOrCancel.call false
    queueClosed := true
    queue := []
    waiting := false }

def payCredit (s : State τ π ε) (takesCredit : Bool) : State τ π ε :=
  if takesCredit then { s with creditBuffer := s.creditBuffer.addCredits (-1) } else s

/-- `processQueue`, with what it leaves in the buffer if the stream is alive.  The callback
accepts `alive` payloads, or any number, and cancels in the call of the next one. -/
def processQueue (s : State τ π ε) (alive : Option Nat) :
    List (Sent π ε) → State τ π ε × Option Nat × Option (List (Sent π ε))
  | [] => (s, alive, some [])
  | sent :: buffer =>
    if s.creditBuffer.hasCredit then
      match sent with
      | .payload p takesCredit =>
        if alive = some 0 then ((s.deliver (.payload p takesCredit)).cancel, alive, none)
        else
          processQueue ((s.deliver (.payload p takesCredit)).payCredit takesCredit)
            (alive.map (· - 1)) buffer
      | terminal => ({ s.deliver terminal with phase := .ended }, alive, none)
    else (s, alive, some (sent :: buffer))

/-- The end of `processPayloads` when `queue_` has no messages: the reader waits if there is
credit, and what is left in the buffer is stored. -/
def waitOrStore (s : State τ π ε) (buffer : List (Sent π ε)) : State τ π ε :=
  let s := if s.creditBuffer.hasCredit then { s with waiting := true } else s
  if buffer ≠ [] then { s with creditBuffer := .buffer buffer } else s

/-- `processPayloads`.  The loop takes the messages of `queue_` once: nothing is pushed while
the task runs. -/
def processPayloads (s : State τ π ε) (alive : Option Nat) (buffer : List (Sent π ε)) :
    State τ π ε :=
  match s.processQueue alive buffer with
  | (s, _, none) => s
  | (s, alive, some buffer) =>
    if s.creditBuffer.hasCredit ∧ s.queue ≠ [] then
      match processQueue { s with queue := [] } alive s.queue with
      | (s, _, none) => s
      | (s, _, some buffer) => s.waitOrStore buffer
    else s.waitOrStore buffer

def onStreamRequestN (s : State τ π ε) (credits : Nat) (alive : Option Nat) : State τ π ε :=
  let s := { s with granted := s.granted + credits }
  if s.creditBuffer.hasCredit then
    { s with creditBuffer := s.creditBuffer.addCredits credits }
  else
    processPayloads { s with creditBuffer := .storeCredits credits } alive s.creditBuffer.getBuffer

/-- A task of `consume`. -/
def runTask (s : State τ π ε) (alive : Option Nat) : State τ π ε :=
  let s := { s with tasks := s.tasks - 1 }
  if s.queueClosed then s else s.processPayloads alive []

/-- What `publish` does after the message is in a queue. -/
def afterPush (s : State τ π ε) (close : Bool) : State τ π ε :=
  if close then
    { s with
      publisher := .join
      onStreamCompleteOrCancel := s.onStreamCompleteOrCancel.call true }
  else { s with publisher := .idle }

/-- The next step of `publish`, where `succeeds` says that a weak exchange does not fail. -/
def advancePublisher (encoder : StreamElementEncoder τ π ε) (s : State τ π ε)
    (succeeds : Bool) : State τ π ε :=
  match s.publisher with
  | .idle => s
  | .load message =>
    match s.encodeOrQueue with
    | .closed => { s with publisher := .push (encoder.encode message) message.closes }
    | .messages storage => { s with publisher := .exchange message storage }
  | .exchange message storage =>
    match s.encodeOrQueue with
    | .closed => { s with publisher := .push (encoder.encode message) message.closes }
    | .messages queue =>
      -- only this thread pushes, so the tail is the one that was loaded if nothing was taken
      if succeeds ∧ queue.length = storage.length then
        afterPush { s with encodeOrQueue := .messages (queue ++ [message]) } message.closes
      else { s with publisher := .exchange message queue }
  | .push sent close =>
    let (s, wakes) := s.push sent
    if wakes then { s with publisher := .consume close } else s.afterPush close
  | .consume close => s.consume.afterPush close
  | .join =>
    if s.onStreamCompleteOrCancel.total Caller.joining = 0 then
      { s with publisher := .idle, completed := true }
    else s

/-- The next step of `establishStream`. -/
def advanceEstablisher (encoder : StreamElementEncoder τ π ε) (s : State τ π ε)
    (succeeds : Bool) : State τ π ε :=
  match s.establisher with
  | .idle | .done => s
  | .exchange =>
    match s.encodeOrQueue.getMessages with
    | [] => { s with encodeOrQueue := .messages [], establisher := .close }
    | messages => { s with encodeOrQueue := .messages [], establisher := .push messages }
  | .close =>
    if succeeds ∧ s.encodeOrQueue.getMessages = [] then
      { s with encodeOrQueue := .closed, establisher := .done }
    else { s with establisher := .exchange }
  | .push [] => { s with establisher := .exchange }
  | .push (message :: messages) =>
    let (s, wakes) := s.push (encoder.encode message)
    { s with establisher := if wakes then .consume messages else .push messages }
  | .consume messages => { s.consume with establisher := .push messages }

/-- `CancelDeleter`, on a stream that nobody subscribes to. -/
def drop (s : State τ π ε) : State τ π ε :=
  { s with
    phase := .dropped
    onStreamCompleteOrCancel := s.onStreamCompleteOrCancel.call false }

end State

inductive Event (τ π ε : Type) where
  | publish (message : Message τ ε)
  /-- `publish` of an encoded message, once the stream is established. -/
  | publishEncoded (sent : Sent π ε)
  | publisher (succeeds : Bool)
  | establishStream
  | establisher (succeeds : Bool)
  /-- The factory is called with a client callback. -/
  | subscribe
  | drop
  | onStreamRequestN (credits : Nat) (alive : Option Nat)
  | task (alive : Option Nat)
  | onStreamCancel
  /-- A step of a thread in `onStreamCompleteOrCancel_`. -/
  | caller (i : Nat) (checked : Bool)
  deriving DecidableEq

namespace State

def step (encoder : StreamElementEncoder τ π ε) (s : State τ π ε) : Event τ π ε → State τ π ε
  | .publish message =>
    { s with
      publisher := .load message
      published := s.published ++ [encoder.encode message] }
  | .publishEncoded sent =>
    { s with publisher := .push sent sent.closes, published := s.published ++ [sent] }
  | .publisher succeeds => s.advancePublisher encoder succeeds
  | .establishStream => { s with establisher := .exchange }
  | .establisher succeeds => s.advanceEstablisher encoder succeeds
  | .subscribe => { s with phase := .subscribed }
  | .drop => s.drop
  | .onStreamRequestN credits alive => s.onStreamRequestN credits alive
  | .task alive => s.runTask alive
  | .onStreamCancel => s.cancel
  | .caller i checked =>
    { s with onStreamCompleteOrCancel := s.onStreamCompleteOrCancel.advance i checked }

/-- The events that can happen.  There is one publisher thread, and the client calls the stream
between the subscription and the end. -/
def Allowed (s : State τ π ε) : Event τ π ε → Prop
  | .publish _ => s.publisher = .idle
  | .publishEncoded _ => s.publisher = .idle ∧ s.establisher = .done
  | .publisher _ => s.publisher ≠ .idle
  | .establishStream => s.establisher = .idle ∧ s.phase = .unsubscribed
  | .establisher _ => s.establisher ≠ .idle ∧ s.establisher ≠ .done
  | .subscribe => s.establisher = .done ∧ s.phase = .unsubscribed
  | .drop => (s.establisher = .idle ∨ s.establisher = .done) ∧ s.phase = .unsubscribed
  | .onStreamRequestN credits _ => 1 ≤ credits ∧ credits < 2 ^ 31 ∧ s.phase = .subscribed
  | .task _ => 0 < s.tasks
  | .onStreamCancel => s.phase = .subscribed
  | .caller i _ => i < s.onStreamCompleteOrCancel.threads.length

instance [DecidableEq τ] [DecidableEq π] [DecidableEq ε] (s : State τ π ε) :
    ∀ e, Decidable (s.Allowed e)
  | .publish _ => inferInstanceAs (Decidable (s.publisher = .idle))
  | .publishEncoded _ =>
    inferInstanceAs (Decidable (s.publisher = .idle ∧ s.establisher = .done))
  | .publisher _ => inferInstanceAs (Decidable (s.publisher ≠ .idle))
  | .establishStream =>
    inferInstanceAs (Decidable (s.establisher = .idle ∧ s.phase = .unsubscribed))
  | .establisher _ =>
    inferInstanceAs (Decidable (s.establisher ≠ .idle ∧ s.establisher ≠ .done))
  | .subscribe => inferInstanceAs (Decidable (s.establisher = .done ∧ s.phase = .unsubscribed))
  | .drop => inferInstanceAs (Decidable
      ((s.establisher = .idle ∨ s.establisher = .done) ∧ s.phase = .unsubscribed))
  | .onStreamRequestN credits _ => inferInstanceAs (Decidable
      (1 ≤ credits ∧ credits < 2 ^ 31 ∧ s.phase = .subscribed))
  | .task _ => inferInstanceAs (Decidable (0 < s.tasks))
  | .onStreamCancel => inferInstanceAs (Decidable (s.phase = .subscribed))
  | .caller i _ => inferInstanceAs (Decidable (i < s.onStreamCompleteOrCancel.threads.length))

end State

end ServerPublisherStream

end FbThrift
