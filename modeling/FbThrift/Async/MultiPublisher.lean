import Mathlib.Data.Finset.Basic
import Mathlib.Logic.Function.Basic
import FbThrift.Async.PublisherStream

/-!
# ServerStreamMultiPublisher

One publisher for many streams.  Its map has an entry for each encoder with the streams that were
established with it, and one for the streams that are pending, to which messages are published as
they are.  A lock guards the map: `next` holds it for reading while it publishes, `complete` takes
the map out and publishes without it, and `addStream`, `provideEncodeFn` and `removeStream` write.

A step is a section under the lock or one access of a queue of a stream.  The order in which the map
is gone over is not specified, so `next` and `complete` come with one.  An entry without streams is
as good as none, so the map is a function.
-/

namespace FbThrift.ServerStreamMultiPublisher

open ServerPublisherStream (Message Sent StreamElementEncoder EncodeOrQueue)

variable {E τ π ε : Type}

/-! ## Streams -/

/-- The next step of `establishStream`, and then of `provideEncodeFn`. -/
inductive Establisher (τ ε : Type) where
  | idle
  /-- In `closeOrGetMessages`, about to exchange for `EMPTY`. -/
  | exchange
  /-- In `closeOrGetMessages`, about to exchange `EMPTY` for `CLOSED`. -/
  | close
  | push (messages : List (Message τ ε))
  /-- The factory has been made. -/
  | made
  /-- The encoder has been provided. -/
  | provided

def Establisher.held : Establisher τ ε → List (Message τ ε)
  | push messages => messages
  | _ => []

/-- A stream of the publisher. -/
structure PublisherStream (τ π ε : Type) where
  encodeOrQueue : EncodeOrQueue (Message τ ε)
  /-- What was pushed to `queue_`, the first push first. -/
  queue : List (Sent π ε)
  establisher : Establisher τ ε
  removed : Bool
  /-- What was published after the stream was added and before it was removed. -/
  published : List (Message τ ε)

namespace PublisherStream

def new (τ π ε : Type) : PublisherStream τ π ε := ⟨.messages [], [], .idle, false, []⟩

def push (stream : PublisherStream τ π ε) (sent : Sent π ε) : PublisherStream τ π ε :=
  { stream with queue := stream.queue ++ [sent] }

/-- The next access of `establishStream`. -/
def establish (encode : Message τ ε → Sent π ε) (stream : PublisherStream τ π ε) :
    PublisherStream τ π ε :=
  match stream.establisher with
  | .exchange =>
    match stream.encodeOrQueue.getMessages with
    | [] => { stream with encodeOrQueue := .messages [], establisher := .close }
    | messages => { stream with encodeOrQueue := .messages [], establisher := .push messages }
  | .close =>
    if stream.encodeOrQueue.getMessages = [] then
      { stream with encodeOrQueue := .closed, establisher := .made }
    else { stream with establisher := .exchange }
  | .push [] => { stream with establisher := .exchange }
  | .push (message :: messages) =>
    { stream.push (encode message) with establisher := .push messages }
  | _ => stream

end PublisherStream

/-! ## The publisher -/

/-- The streams of each encoder, and those that are pending. -/
abbrev EncodeToStreams (E : Type) := Option E → Finset Nat

/-- `kPendingStreamsKey`. -/
def kPendingStreamsKey : Option E := none

/-- The next step of `next` or `complete`, with the streams that are still to be published to. -/
inductive Publishing (E τ π ε : Type) where
  | idle
  | publishAll (message : Message τ ε) (streams : List (Option E × Nat)) (locked : Bool)
  /-- In `publish`, about to push what it has encoded itself. -/
  | push (sent : Sent π ε) (stream : Nat) (message : Message τ ε)
      (streams : List (Option E × Nat)) (locked : Bool)

def Publishing.locked : Publishing E τ π ε → Bool
  | idle => false
  | publishAll _ _ locked => locked
  | push _ _ _ _ locked => locked

structure State (E τ π ε : Type) where
  encodeToStreams : EncodeToStreams E
  streams : Nat → PublisherStream τ π ε
  /-- The counter of stream indices. -/
  counter : Nat
  publishing : Publishing E τ π ε
  /-- `complete` has been called. -/
  completed : Bool

/-- What encoders are, and which one a stream is established with. -/
structure Encoders (E τ π ε : Type) where
  encoder : E → StreamElementEncoder τ π ε
  ofStream : Nat → E

/-- The encoding of a stream. -/
def Encoders.encode (c : Encoders E τ π ε) (i : Nat) (message : Message τ ε) : Sent π ε :=
  (c.encoder (c.ofStream i)).encode message

namespace State

def initial (E τ π ε : Type) : State E τ π ε :=
  ⟨fun _ => ∅, fun _ => .new τ π ε, 0, .idle, false⟩

/-- The stream was added and is not removed. -/
def Live (s : State E τ π ε) (i : Nat) : Prop := i < s.counter ∧ (s.streams i).removed = false

instance (s : State E τ π ε) (i : Nat) : Decidable (s.Live i) :=
  inferInstanceAs (Decidable (_ ∧ _))

def setStream (s : State E τ π ε) (i : Nat) (stream : PublisherStream τ π ε) : State E τ π ε :=
  { s with streams := Function.update s.streams i stream }

/-- The message counts as published to each live stream. -/
def record (s : State E τ π ε) (message : Message τ ε) : State E τ π ε :=
  { s with
    streams := fun i =>
      if s.Live i then { s.streams i with published := (s.streams i).published ++ [message] }
      else s.streams i }

variable [DecidableEq E]

/-- `addStream`. -/
def addStream (s : State E τ π ε) : State E τ π ε :=
  { s with
    encodeToStreams := Function.update s.encodeToStreams kPendingStreamsKey
      (insert s.counter (s.encodeToStreams kPendingStreamsKey))
    counter := s.counter + 1 }

/-- `removeStream`, which finds the stream in an entry of the map or in none. -/
def removeStream (s : State E τ π ε) (i : Nat) (found : Option (Option E)) : State E τ π ε :=
  let removed := s.setStream i { s.streams i with removed := true }
  match found with
  | none => removed
  | some key =>
    { removed with
      encodeToStreams := Function.update s.encodeToStreams key ((s.encodeToStreams key).erase i) }

/-- `provideEncodeFn`. -/
def provideEncodeFn (s : State E τ π ε) (i : Nat) (encodeFn : E) : State E τ π ε :=
  let provided := s.setStream i { s.streams i with establisher := .provided }
  if i ∈ s.encodeToStreams kPendingStreamsKey then
    let pending := Function.update s.encodeToStreams kPendingStreamsKey
      ((s.encodeToStreams kPendingStreamsKey).erase i)
    { provided with
      encodeToStreams := Function.update pending (some encodeFn)
        (insert i (pending (some encodeFn))) }
  else provided

/-- The next access of a queue by `next` or `complete`. -/
def publish (c : Encoders E τ π ε) (s : State E τ π ε) : State E τ π ε :=
  match s.publishing with
  | .idle => s
  | .publishAll _ [] _ => { s with publishing := .idle }
  | .publishAll message ((none, i) :: streams) locked =>
    match (s.streams i).encodeOrQueue with
    | .messages queue =>
      { s.setStream i { s.streams i with encodeOrQueue := .messages (queue ++ [message]) } with
        publishing := .publishAll message streams locked }
    -- `pushOrGetClosedPayload` returns the encoder of the stream
    | .closed => { s with publishing := .push (c.encode i message) i message streams locked }
  | .publishAll message ((some encode, i) :: streams) locked =>
    { s.setStream i ((s.streams i).push ((c.encoder encode).encode message)) with
      publishing := .publishAll message streams locked }
  | .push sent i message streams locked =>
    { s.setStream i ((s.streams i).push sent) with
      publishing := .publishAll message streams locked }

end State

/-! ## Steps -/

inductive Event (E τ ε : Type) where
  | addStream
  | next (value : τ) (order : List (Option E × Nat))
  | complete (terminal : Message τ ε) (order : List (Option E × Nat))
  /-- The publishing thread goes on. -/
  | publish
  /-- `establishStream` is called. -/
  | establishStream (i : Nat)
  /-- `establishStream` goes on. -/
  | establish (i : Nat)
  | provideEncodeFn (i : Nat)
  | removeStream (i : Nat) (found : Option (Option E))

variable [DecidableEq E]

def step (c : Encoders E τ π ε) (s : State E τ π ε) : Event E τ ε → State E τ π ε
  | .addStream => s.addStream
  | .next value order =>
    { s.record (.value value) with publishing := .publishAll (.value value) order true }
  | .complete terminal order =>
    { s.record terminal with
      encodeToStreams := fun _ => ∅
      publishing := .publishAll terminal order false
      completed := true }
  | .publish => s.publish c
  | .establishStream i => s.setStream i { s.streams i with establisher := .exchange }
  | .establish i => s.setStream i ((s.streams i).establish (c.encode i))
  | .provideEncodeFn i => s.provideEncodeFn i (c.ofStream i)
  | .removeStream i found => s.removeStream i found

/-- The streams of the map, in some order. -/
def Iterates (order : List (Option E × Nat)) (map : EncodeToStreams E) : Prop :=
  (order.map Prod.snd).Nodup ∧ ∀ key i, (key, i) ∈ order ↔ i ∈ map key

/-- What may happen: the thread that publishes does one thing after the other, a stream is
established once, and the lock keeps writers out while `next` publishes. -/
def Allowed (s : State E τ π ε) : Event E τ ε → Prop
  | .addStream => s.publishing = .idle ∧ s.completed = false
  | .next _ order =>
    s.publishing = .idle ∧ s.completed = false ∧ Iterates order s.encodeToStreams
  | .complete terminal order =>
    s.publishing = .idle ∧ s.completed = false ∧ terminal.closes = true ∧
      Iterates order s.encodeToStreams
  | .publish => True
  | .establishStream i => i < s.counter ∧ (s.streams i).establisher = .idle
  | .establish _ => True
  | .provideEncodeFn i =>
    (s.streams i).establisher = .made ∧ s.publishing.locked = false
  | .removeStream i found =>
    s.Live i ∧ s.publishing.locked = false ∧ match found with
      | none => ∀ key, i ∉ s.encodeToStreams key
      | some key => i ∈ s.encodeToStreams key

end FbThrift.ServerStreamMultiPublisher
