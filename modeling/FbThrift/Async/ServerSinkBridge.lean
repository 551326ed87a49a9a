import FbThrift.Async.ClientSinkBridge

/-!
# The server's end of a sink

`ServerSinkBridge` joins the consumer, a coroutine on the server's executor, and the callbacks
of the transport, on an event base.  The generator of the consumer yields the payloads and
returns credits for those that were consumed, more than half of a buffer at a time.
-/

namespace FbThrift

namespace Sink

variable {π ε : Type}

/-- The next step of the generator, with the messages that it took and the payloads that it
has given no credit for. -/
inductive GeneratorAt (π ε : Type) where
  /-- `serverWait`. -/
  | wait (counter : Int32)
  /-- The consumer is registered, the cancellation callback is not. -/
  | hook (counter : Int32)
  /-- Behind the baton. -/
  | parked (counter : Int32)
  /-- `co_safe_point`. -/
  | safePoint (counter : Int32)
  /-- `serverGetMessages`. -/
  | collect (counter : Int32)
  | drain (messages : List (ClientMessage π ε)) (counter : Int32)
  /-- About to give credit. -/
  | refill (messages : List (ClientMessage π ε)) (counter : Int32)
  deriving DecidableEq, Repr

inductive Generator (π ε : Type) where
  | unstarted
  | running (at_ : GeneratorAt π ε)
  /-- Has yielded a payload. -/
  | yielded (messages : List (ClientMessage π ε)) (counter : Int32)
  /-- Has yielded the client's exception. -/
  | failed
  | ended
  deriving DecidableEq, Repr

/-- The consumer waits for the generator. -/
def Generator.Running : Generator π ε → Prop
  | running _ => True
  | _ => False

instance : ∀ generator : Generator π ε, Decidable generator.Running
  | .running _ => isTrue trivial
  | .unstarted | .yielded .. | .failed | .ended => isFalse id

/-- The next step of `start`. -/
inductive StartAt (π ε : Type) where
  /-- About to give the first credits. -/
  | begin
  /-- Waits for the consumer. -/
  | consuming
  | responded (response : Except ε π)
  | ended
  deriving DecidableEq

/-- The first credits were given. -/
def StartAt.begun : StartAt π ε → Int
  | begin => 0
  | _ => 1

def StartAt.Consumes : StartAt π ε → Prop
  | consuming => True
  | _ => False

instance : ∀ start : StartAt π ε, Decidable start.Consumes
  | .consuming => isTrue trivial
  | .begin | .responded _ | .ended => isFalse id

/-- The bridge and its coroutines, with what the transport called, what the generator has
yielded, the number of payloads that were consumed, and how often the bridge was closed. -/
structure ServerSinkBridge (π ε : Type) where
  bufferSize : UInt64
  clientQueue : TaskQueue (ServerMessage π ε)
  serverQueue : BatonQueue (ClientMessage π ε)
  /-- The variable of `processClientMessages`, zero between tasks. -/
  credits : UInt64
  /-- `clientCallback_` is set. -/
  clientCallback : Bool
  clientException : Bool
  sinkComplete : Bool
  /-- The consumer has cancelled its call of the generator. -/
  nextCancelled : Bool
  start : StartAt π ε
  generator : Generator π ε
  received : List (ServerCall π ε)
  yielded : List (Try π ε)
  consumed : Nat
  closes : Nat

/-- What the callbacks push for a call. -/
def ServerCall.message : ServerCall π ε → ClientMessage π ε
  | onSinkNext payload => .payloadOrError (.value payload)
  | onSinkError error => .payloadOrError (.exception error)
  | onSinkComplete => .complete

def ServerCall.isComplete : ServerCall π ε → Bool
  | onSinkComplete => true
  | _ => false

/-- What `processClientMessages` calls for a response. -/
def finalCall : Except ε π → ClientCall π ε
  | .ok payload => .onFinalResponse payload
  | .error error => .onFinalResponseError error

namespace ServerSinkBridge

/-- Behind the first response. -/
def initial (π ε : Type) (bufferSize : UInt64) : ServerSinkBridge π ε where
  bufferSize := bufferSize
  clientQueue := .waiting _
  serverQueue := .empty _
  credits := 0
  clientCallback := true
  clientException := false
  sinkComplete := false
  nextCancelled := false
  start := .begin
  generator := .unstarted
  received := []
  yielded := []
  consumed := 0
  closes := 0

def serverPush (s : ServerSinkBridge π ε) (message : ServerMessage π ε) : ServerSinkBridge π ε :=
  { s with clientQueue := s.clientQueue.push message }

/-- The next step of `start`. -/
def advanceStart (s : ServerSinkBridge π ε) : ServerSinkBridge π ε :=
  match s.start with
  | .begin =>
    { s.serverPush (.requestN s.bufferSize.toUInt32.toInt32) with start := .consuming }
  | .consuming => s
  | .responded response =>
    if s.clientException then { s with start := .ended }
    else { s.serverPush (.payloadOrError response) with start := .ended }
  | .ended => s

/-- The loop of the generator over the messages that it took. -/
def drain (s : ServerSinkBridge π ε) (counter : Int32) :
    List (ClientMessage π ε) → ServerSinkBridge π ε
  | [] => { s with generator := .running (.wait counter) }
  | .complete :: _ => { s with generator := .ended }
  | .payloadOrError (.exception error) :: _ =>
    { s with
      clientException := true
      yielded := s.yielded ++ [.exception error]
      generator := .failed }
  | .payloadOrError item :: messages =>
    { s with yielded := s.yielded ++ [item], generator := .yielded messages counter }

/-- The next step of the generator, which is at `at_`. -/
def resume (s : ServerSinkBridge π ε) : GeneratorAt π ε → ServerSinkBridge π ε
  | .wait counter =>
    match s.serverQueue.wait with
    | (queue, true) => { s with serverQueue := queue, generator := .running (.hook counter) }
    | (queue, false) =>
      { s with serverQueue := queue, generator := .running (.safePoint counter) }
  | .hook counter =>
    { s with
      serverQueue := if s.nextCancelled then s.serverQueue.close else s.serverQueue
      generator := .running (.parked counter) }
  | .parked counter =>
    if s.serverQueue.posted then { s with generator := .running (.safePoint counter) } else s
  | .safePoint counter =>
    if s.nextCancelled then { s with generator := .ended }
    else { s with generator := .running (.collect counter) }
  | .collect counter =>
    { s with
      serverQueue := s.serverQueue.take
      generator := .running (.drain s.serverQueue.queue.held counter) }
  | .drain messages counter => s.drain counter messages
  | .refill messages counter =>
    { s.serverPush (.requestN counter) with generator := .running (.drain messages 0) }

/-- The next step of the generator. -/
def makeGenerator (s : ServerSinkBridge π ε) : ServerSinkBridge π ε :=
  match s.generator with
  | .running at_ => s.resume at_
  | _ => s

/-- The consumer asks the generator for the next item. -/
def next (s : ServerSinkBridge π ε) : ServerSinkBridge π ε :=
  let s := { s with nextCancelled := false }
  match s.generator with
  | .unstarted => { s with generator := .running (.wait 0) }
  | .running _ => s
  | .yielded messages counter =>
    let s := { s with consumed := s.consumed + 1 }
    if counter + 1 > s.bufferSize.toUInt32.toInt32 / 2 then
      { s with generator := .running (.refill messages (counter + 1)) }
    else { s with generator := .running (.drain messages (counter + 1)) }
  | .failed | .ended => { s with generator := .ended }

/-- The consumer cancels its call of the generator. -/
def cancelNext (s : ServerSinkBridge π ε) : ServerSinkBridge π ε :=
  match s.generator with
  | .running (.parked _) =>
    { s with nextCancelled := true, serverQueue := s.serverQueue.close }
  | _ => { s with nextCancelled := true }

def close (s : ServerSinkBridge π ε) : ServerSinkBridge π ε :=
  { s with
    clientQueue := s.clientQueue.close
    credits := 0
    clientCallback := false
    closes := s.closes + 1 }

/-- The calls of the transport. -/
def receive (s : ServerSinkBridge π ε) (call : ServerCall π ε) : ServerSinkBridge π ε :=
  let s := { s with
    serverQueue := s.serverQueue.push call.message, received := s.received ++ [call] }
  if call.isError then s.close
  else { s with sinkComplete := s.sinkComplete || call.isComplete }

/-- The next step of the event base in `processClientMessages`, or its start, and what it calls
on the client callback. -/
def processClientMessages (s : ServerSinkBridge π ε) :
    ServerSinkBridge π ε × Option (ClientCall π ε) :=
  match s.clientQueue.turn s.clientCallback with
  | (_, .handles (.payloadOrError response)) => (s.close, some (finalCall response))
  | (queue, .handles (.requestN n)) =>
    ({ s with clientQueue := queue, credits := s.credits + n.toInt64.toUInt64 }, none)
  | (queue, .goesOn) => ({ s with clientQueue := queue }, none)
  | (queue, .sleeps) =>
    let s' := { s with clientQueue := queue, credits := 0 }
    if !s.sinkComplete ∧ s.credits > 0 then
      (s', some (.onSinkRequestN s.credits.toUInt32.toInt32))
    else (s', none)

end ServerSinkBridge

end Sink

end FbThrift
