import FbThrift.Lib.AtomicQueue

/-!
# The client's end of a sink

`ClientSinkBridge` joins the coroutine `sink`, on a thread of the user, and the callbacks of the
transport, on an event base.  The coroutine pushes what its generator yields as long as it has
credits; the event base passes this on and pushes credits and the final response the other way.
Each thread takes one access to what they share at a time, but for the transport, whose calls are
taken whole.
-/

namespace FbThrift

namespace Sink

/-! ## Messages -/

/-- A `folly::Try` of a payload. -/
inductive Try (π ε : Type) where
  | value (payload : π)
  | exception (error : ε)
  | empty
  deriving DecidableEq, Repr

/-- `ClientSinkMessageClientToServer`. -/
inductive ClientMessage (π ε : Type) where
  | payloadOrError (item : Try π ε)
  | complete
  deriving DecidableEq, Repr

/-- `ClientSinkMessageServerToClient`.  A consumer responds with a value or an exception. -/
inductive ServerMessage (π ε : Type) where
  | payloadOrError (response : Except ε π)
  | requestN (n : Int32)
  deriving DecidableEq

/-- The calls of a `SinkServerCallback`, which the transport takes to the server. -/
inductive ServerCall (π ε : Type) where
  | onSinkNext (payload : π)
  | onSinkError (error : ε)
  | onSinkComplete
  deriving DecidableEq, Repr

/-- The calls of a `SinkClientCallback`, which the transport takes to the client. -/
inductive ClientCall (π ε : Type) where
  | onFinalResponse (payload : π)
  | onFinalResponseError (error : ε)
  | onSinkRequestN (n : Int32)
  deriving DecidableEq, Repr

variable {π ε : Type}

/-- What `processServerMessages` calls for a message. -/
def ClientMessage.call : ClientMessage π ε → ServerCall π ε
  | payloadOrError (.value payload) => .onSinkNext payload
  | payloadOrError (.exception error) => .onSinkError error
  | payloadOrError .empty | complete => .onSinkComplete

def ClientMessage.payload? : ClientMessage π ε → Option π
  | payloadOrError (.value payload) => some payload
  | _ => none

def ServerMessage.isResponse : ServerMessage π ε → Bool
  | payloadOrError _ => true
  | requestN _ => false

/-- What the callbacks push for a call. -/
def ClientCall.message : ClientCall π ε → ServerMessage π ε
  | onFinalResponse payload => .payloadOrError (.ok payload)
  | onFinalResponseError error => .payloadOrError (.error error)
  | onSinkRequestN n => .requestN n

/-- A call that ends the stream. -/
def ClientCall.isFinal : ClientCall π ε → Bool
  | onSinkRequestN _ => false
  | _ => true

def ServerCall.isError : ServerCall π ε → Bool
  | onSinkError _ => true
  | _ => false

/-! ## The bridge -/

/-- What `sink` waits for. -/
inductive Waits where
  | credits
  | finalResponse
  deriving DecidableEq, Repr

/-- The next step of `sink`. -/
inductive SinkAt (π ε : Type) where
  /-- The condition of the loop. -/
  | loop (credits : UInt64)
  /-- `clientWait`. -/
  | wait (waits : Waits)
  /-- The consumer is registered, the cancellation callback is not. -/
  | hook (waits : Waits)
  /-- Behind the baton. -/
  | parked (waits : Waits)
  /-- `clientGetMessages`. -/
  | collect (waits : Waits)
  /-- Checks `clientCancelToken` before it asks the generator. -/
  | ask (credits : UInt64)
  /-- Waits for the generator. -/
  | next (credits : UInt64)
  /-- Checks `serverCancelSource_` behind the generator. -/
  | item (credits : UInt64) (item : Option (Try π ε))
  /-- Checks `clientCancelToken` behind the generator. -/
  | unresponded (credits : UInt64) (item : Option (Try π ε))
  | push (credits : UInt64) (item : Option (Try π ε))
  /-- About to push the error `CANCELED`. -/
  | pushCanceled
  /-- `co_safe_point`. -/
  | safePoint
  | ended
  deriving DecidableEq, Repr

/-- The bridge and its coroutine, with what the coroutine has pushed, what the transport called,
and how often the bridge was closed. -/
structure ClientSinkBridge (π ε : Type) where
  clientQueue : BatonQueue (ServerMessage π ε)
  serverQueue : TaskQueue (ClientMessage π ε)
  /-- `serverCallback_` is set. -/
  serverCallback : Bool
  /-- `serverCancelSource_`. -/
  serverCancelled : Bool
  /-- `clientCancelToken`. -/
  clientCancelled : Bool
  sink : SinkAt π ε
  pushed : List (ClientMessage π ε)
  received : List (ClientCall π ε)
  closes : Nat

/-- The coroutine waits for its generator. -/
def SinkAt.Asks : SinkAt π ε → Prop
  | next _ => True
  | _ => False

instance : ∀ sink : SinkAt π ε, Decidable sink.Asks
  | .next _ => isTrue trivial
  | .loop _ | .wait _ | .hook _ | .parked _ | .collect _ | .ask _ | .item .. | .unresponded ..
  | .push .. | .pushCanceled | .safePoint | .ended => isFalse nofun

namespace ClientSinkBridge

/-- Behind the first response. -/
def initial (π ε : Type) : ClientSinkBridge π ε where
  clientQueue := .empty _
  serverQueue := .waiting _
  serverCallback := true
  serverCancelled := false
  clientCancelled := false
  sink := .loop 0
  pushed := []
  received := []
  closes := 0

def clientPush (c : ClientSinkBridge π ε) (message : ClientMessage π ε) : ClientSinkBridge π ε :=
  { c with serverQueue := c.serverQueue.push message, pushed := c.pushed ++ [message] }

/-- The messages behind a wait for credits: the credits, unless there is a response. -/
def addCredits (credits : UInt64) : List (ServerMessage π ε) → Option UInt64
  | [] => some credits
  | .requestN n :: messages => addCredits (credits + n.toInt64.toUInt64) messages
  | .payloadOrError _ :: _ => none

/-- The messages that were taken behind a wait. -/
def collected (messages : List (ServerMessage π ε)) : Waits → SinkAt π ε
  | .credits =>
    match addCredits 0 messages with
    | some credits => .ask credits
    | none => .ended
  | .finalResponse => if messages.any ServerMessage.isResponse then .ended else .safePoint

/-- `clientPush` of what the generator yielded. -/
def pushItem (c : ClientSinkBridge π ε) (credits : UInt64) : Option (Try π ε) → ClientSinkBridge π ε
  | some (.value payload) =>
    { c.clientPush (.payloadOrError (.value payload)) with sink := .loop (credits - 1) }
  | some item => { c.clientPush (.payloadOrError item) with sink := .ended }
  | none => { c.clientPush .complete with sink := .wait .finalResponse }

/-- The next step of `sink`. -/
def advance (canceled : ε) (c : ClientSinkBridge π ε) : ClientSinkBridge π ε :=
  match c.sink with
  | .loop credits =>
    if c.serverCancelled then { c with sink := .wait .finalResponse }
    else if credits = 0 then { c with sink := .wait .credits }
    else { c with sink := .next credits }
  | .wait waits =>
    match c.clientQueue.wait with
    | (queue, true) => { c with clientQueue := queue, sink := .hook waits }
    | (queue, false) => { c with clientQueue := queue, sink := .collect waits }
  | .hook waits =>
    if c.clientCancelled then
      { c with clientQueue := c.clientQueue.cancelCallback, sink := .parked waits }
    else { c with sink := .parked waits }
  | .parked waits => if c.clientQueue.posted then { c with sink := .collect waits } else c
  | .collect waits =>
    { c with
      clientQueue := c.clientQueue.take
      sink := collected c.clientQueue.queue.held waits }
  | .ask credits =>
    if c.clientCancelled then { c with sink := .pushCanceled }
    else { c with sink := .next credits }
  | .next _ => c
  | .item credits item =>
    if c.serverCancelled then { c with sink := .wait .finalResponse }
    else { c with sink := .unresponded credits item }
  | .unresponded credits item =>
    if c.clientCancelled then { c with sink := .pushCanceled }
    else { c with sink := .push credits item }
  | .push credits item => c.pushItem credits item
  | .pushCanceled => { c.clientPush (.payloadOrError (.exception canceled)) with sink := .ended }
  | .safePoint =>
    if c.clientCancelled then { c with sink := .ended }
    else { c with sink := .wait .finalResponse }
  | .ended => c

/-- The generator yields an item or is done. -/
def yield (c : ClientSinkBridge π ε) (item : Option (Try π ε)) : ClientSinkBridge π ε :=
  match c.sink with
  | .next credits => { c with sink := .item credits item }
  | _ => c

/-- The client is cancelled, and the cancellation callback called if it is registered. -/
def cancel (c : ClientSinkBridge π ε) : ClientSinkBridge π ε :=
  match c.sink with
  | .parked _ => { c with clientCancelled := true, clientQueue := c.clientQueue.cancelCallback }
  | _ => { c with clientCancelled := true }

def close (c : ClientSinkBridge π ε) : ClientSinkBridge π ε :=
  { c with serverQueue := c.serverQueue.close, serverCallback := false, closes := c.closes + 1 }

/-- The calls of the transport. -/
def receive (c : ClientSinkBridge π ε) (call : ClientCall π ε) : ClientSinkBridge π ε :=
  let c := { c with
    clientQueue := c.clientQueue.push call.message, received := c.received ++ [call] }
  if call.isFinal then close { c with serverCancelled := true } else c

/-- The next step of the event base in `processServerMessages`, or its start, and what it calls
on the server callback. -/
def processServerMessages (c : ClientSinkBridge π ε) :
    ClientSinkBridge π ε × Option (ServerCall π ε) :=
  match c.serverQueue.turn c.serverCallback with
  | (queue, .handles message) =>
    let c := { c with serverQueue := queue }
    (if message.call.isError then c.close else c, some message.call)
  | (queue, _) => ({ c with serverQueue := queue }, none)

end ClientSinkBridge

end Sink

end FbThrift
