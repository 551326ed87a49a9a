import Mathlib

/-!
# The server's end of a bidirectional stream

`RocketBiDiClientCallback` stands between the frames of a stream and its server callback.  A
client and a server share the states of `BidirectionalStreamState`.

A server callback may call back while it runs.  Where the handler goes on behind it, the model
stops with the callback running, lets the server act and resumes on its return; elsewhere
nothing is left to do when it returns.
-/

namespace FbThrift.Rocket

/-! ## The state of the two directions -/

/-- `BidirectionalStreamState`.  A transition that does not fit the state leaves it as it is. -/
inductive BidirectionalStreamState where
  | awaitingFirstResponse
  | cancelledEarly
  | streamAndSinkOpen
  | onlyStreamOpen
  | onlySinkOpen
  | closed
  deriving DecidableEq, Repr

namespace BidirectionalStreamState

def isTerminal : BidirectionalStreamState → Bool
  | cancelledEarly | closed => true
  | _ => false

def isAlive (state : BidirectionalStreamState) : Bool := !state.isTerminal

def isSinkOpen : BidirectionalStreamState → Bool
  | awaitingFirstResponse | streamAndSinkOpen | onlySinkOpen => true
  | _ => false

def isStreamOpen : BidirectionalStreamState → Bool
  | awaitingFirstResponse | streamAndSinkOpen | onlyStreamOpen => true
  | _ => false

def onFirstResponseSent : BidirectionalStreamState → BidirectionalStreamState
  | awaitingFirstResponse => streamAndSinkOpen
  | state => state

def onFirstResponseError : BidirectionalStreamState → BidirectionalStreamState
  | awaitingFirstResponse => closed
  | state => state

def closeStream : BidirectionalStreamState → BidirectionalStreamState
  | streamAndSinkOpen => onlySinkOpen
  | onlyStreamOpen => closed
  | state => state

def closeSink : BidirectionalStreamState → BidirectionalStreamState
  | streamAndSinkOpen => onlyStreamOpen
  | onlySinkOpen => closed
  | state => state

def onStreamComplete := closeStream

def onStreamError := closeStream

def onStreamCancel := closeStream

def onSinkComplete := closeSink

def onSinkError := closeSink

def onSinkCancel := closeSink

def onCancelEarly (_ : BidirectionalStreamState) : BidirectionalStreamState := cancelledEarly

end BidirectionalStreamState

/-! ## Frames -/

/-- What a payload unpacks to, if it does. -/
inductive BiDiContent where
  | value
  | exceptionMetadata
  | malformed
  deriving DecidableEq, Repr

/-- The frames of a bidirectional stream, with their fragments put together.  An error has the
code `CANCELED` or another. -/
inductive BiDiFrame where
  | payload (next complete : Bool) (content : BiDiContent)
  | error (canceled : Bool)
  | requestN (n : Int32)
  | cancel
  | ext (ignore : Bool)
  deriving DecidableEq, Repr

/-- How an exception is sent. -/
inductive BiDiEncoding where
  | error (canceled : Bool)
  | payload
  deriving DecidableEq, Repr

def BiDiEncoding.frame : BiDiEncoding → BiDiFrame
  | error canceled => .error canceled
  | payload => .payload true true .exceptionMetadata

/-! ## The callback -/

structure SinkTimeoutCallback where
  credits : UInt64
  scheduled : Bool
  deriving DecidableEq, Repr

namespace SinkTimeoutCallback

def incCredits (timeout : SinkTimeoutCallback) (n : UInt64) : SinkTimeoutCallback where
  credits := timeout.credits + n
  scheduled := timeout.scheduled || timeout.credits = 0

def decCredits (timeout : SinkTimeoutCallback) : SinkTimeoutCallback where
  credits := timeout.credits - 1
  scheduled := timeout.credits - 1 ≠ 0

def cancelTimeout (timeout : SinkTimeoutCallback) : SinkTimeoutCallback :=
  { timeout with scheduled := false }

end SinkTimeoutCallback

/-- The server callback behind which a handler goes on, and whether everything that it has
called has returned true. -/
inductive ServerCallbackRunning where
  | none
  | onSinkNext (alive : Bool)
  | earlyStreamCancel (alive : Bool)
  deriving DecidableEq, Repr

structure RocketBiDiClientCallback where
  /-- Whether `serverCallback_` is set. -/
  serverCallback : Bool
  state : BidirectionalStreamState
  initialTokens : Int32
  streamTokens : UInt64
  /-- Whether `timeoutCallback_` is there. -/
  timeoutCallback : Bool
  sinkTimeout : Option SinkTimeoutCallback
  running : ServerCallbackRunning
  deriving DecidableEq, Repr

/-- What it calls: the server callback, and its connection behind that. -/
inductive BiDiServerCall where
  | onStreamRequestN (n : Int32)
  | onStreamCancel
  | onSinkNext
  | onSinkError
  | onSinkComplete
  | send (frame : BiDiFrame)
  | freeStream
  | close
  deriving DecidableEq, Repr

/-- What the server calls. -/
inductive BiDiServerOp where
  | onFirstResponse
  | onFirstResponseError (encoding : BiDiEncoding)
  | onSinkCancel
  | onSinkRequestN (n : Int32)
  | onStreamNext
  | onStreamError (encoding : BiDiEncoding)
  | onStreamComplete
  deriving DecidableEq, Repr

inductive BiDiServerEvent where
  | op (op : BiDiServerOp)
  | handleFrame (frame : BiDiFrame)
  | callbackReturns
  | timeoutExpired
  | sinkChunkTimeoutExpired
  | connectionClose
  deriving DecidableEq, Repr

namespace RocketBiDiClientCallback

variable (callback : RocketBiDiClientCallback)

/-- The tokens are those of the request frame, and there may be a chunk timeout. -/
def new (initialTokens : Int32) (chunkTimeout : Bool) : RocketBiDiClientCallback where
  serverCallback := false
  state := .awaitingFirstResponse
  initialTokens := initialTokens
  streamTokens := 0
  timeoutCallback := false
  sinkTimeout := if chunkTimeout then some ⟨0, false⟩ else none
  running := .none

def cancelSinkTimeout : RocketBiDiClientCallback :=
  { callback with sinkTimeout := callback.sinkTimeout.map SinkTimeoutCallback.cancelTimeout }

/-- `state_.isAlive() ? true : freeStreamAndReturn(false)` behind some calls. -/
def aliveOrFree (calls : List BiDiServerCall) :
    RocketBiDiClientCallback × List BiDiServerCall × Bool :=
  if callback.state.isAlive then (callback, calls, true)
  else (callback, calls ++ [.freeStream], false)

/-! ### What the server calls -/

/-- `onStreamRequestN`: the number is sign-extended. -/
def onStreamRequestN (n : Int32) : RocketBiDiClientCallback × List BiDiServerCall :=
  if n ≤ 0 then (callback, [.onStreamRequestN n])
  else
    ({ callback with
        timeoutCallback := false
        streamTokens := callback.streamTokens + n.toInt64.toUInt64 },
      [.onStreamRequestN n])

def onFirstResponse : RocketBiDiClientCallback × List BiDiServerCall × Bool :=
  if callback.state = .cancelledEarly then
    ({ callback with running := .earlyStreamCancel true }, [.onStreamCancel], false)
  else
    let callback :=
      { callback with
        serverCallback := true
        state := callback.state.onFirstResponseSent }
    let first := BiDiServerCall.send (.payload true false .value)
    if 0 < callback.initialTokens then
      let (callback, calls) := callback.onStreamRequestN callback.initialTokens
      (callback, first :: calls, true)
    else (callback, [first], true)

def onFirstResponseError (encoding : BiDiEncoding) :
    RocketBiDiClientCallback × List BiDiServerCall × Bool :=
  ({ callback with state := callback.state.onFirstResponseError },
    [.send encoding.frame, .freeStream], false)

def onSinkCancel : RocketBiDiClientCallback × List BiDiServerCall × Bool :=
  if !callback.state.isSinkOpen then (callback, [], callback.state.isAlive)
  else
    aliveOrFree { callback.cancelSinkTimeout with state := callback.state.onSinkCancel }
      [.send .cancel]

def onSinkRequestN (n : Int32) : RocketBiDiClientCallback × List BiDiServerCall × Bool :=
  aliveOrFree
    { callback with
      sinkTimeout := callback.sinkTimeout.map fun timeout =>
        timeout.incCredits n.toInt64.toUInt64 }
    [.send (.requestN n)]

/-- `!--streamTokens_` schedules the timeout. -/
def onStreamNext : RocketBiDiClientCallback × List BiDiServerCall × Bool :=
  let streamTokens := callback.streamTokens - 1
  aliveOrFree
    { callback with
      streamTokens := streamTokens
      timeoutCallback := callback.timeoutCallback || streamTokens = 0 }
    [.send (.payload true false .value)]

def onStreamError (encoding : BiDiEncoding) :
    RocketBiDiClientCallback × List BiDiServerCall × Bool :=
  aliveOrFree
    { callback with
      timeoutCallback := false
      state := callback.state.onStreamError }
    [.send encoding.frame]

def onStreamComplete : RocketBiDiClientCallback × List BiDiServerCall × Bool :=
  aliveOrFree
    { callback with
      timeoutCallback := false
      state := callback.state.onStreamComplete }
    [.send (.payload false true .value)]

def serve : BiDiServerOp → RocketBiDiClientCallback × List BiDiServerCall × Bool
  | .onFirstResponse => callback.onFirstResponse
  | .onFirstResponseError encoding => callback.onFirstResponseError encoding
  | .onSinkCancel => callback.onSinkCancel
  | .onSinkRequestN n => callback.onSinkRequestN n
  | .onStreamNext => callback.onStreamNext
  | .onStreamError encoding => callback.onStreamError encoding
  | .onStreamComplete => callback.onStreamComplete

/-! ### Frames of the client -/

/-- A callback that ends a direction, behind which the stream is freed when `wasTerminal`. -/
def terminate (call : BiDiServerCall) : RocketBiDiClientCallback × List BiDiServerCall :=
  if callback.state.isTerminal then
    ({ callback with serverCallback := false }, [call, .freeStream])
  else (callback, [call])

def onStreamCancel : RocketBiDiClientCallback × List BiDiServerCall :=
  terminate
    { callback with
      timeoutCallback := false
      state := callback.state.onStreamCancel }
    .onStreamCancel

def onSinkError : RocketBiDiClientCallback × List BiDiServerCall :=
  terminate { callback.cancelSinkTimeout with state := callback.state.onSinkError } .onSinkError

def onSinkComplete : RocketBiDiClientCallback × List BiDiServerCall :=
  terminate { callback.cancelSinkTimeout with state := callback.state.onSinkComplete }
    .onSinkComplete

def onSinkNext : RocketBiDiClientCallback × List BiDiServerCall :=
  ({ callback with sinkTimeout := callback.sinkTimeout.map SinkTimeoutCallback.decCredits },
    [.onSinkNext])

def handlePayload (next complete : Bool) (content : BiDiContent) :
    RocketBiDiClientCallback × List BiDiServerCall :=
  if !callback.serverCallback then (callback, [.close])
  else if !callback.state.isSinkOpen then (callback, [])
  else if next then
    if content ≠ .value then callback.onSinkError
    else
      let (callback, calls) := callback.onSinkNext
      ({ callback with running := if complete then .onSinkNext true else .none }, calls)
  else if complete then callback.onSinkComplete
  else (callback, [])

def handleError (canceled : Bool) : RocketBiDiClientCallback × List BiDiServerCall :=
  if !callback.serverCallback then
    if canceled then ({ callback with state := callback.state.onCancelEarly }, [])
    else (callback, [.close])
  else if callback.state.isSinkOpen then callback.onSinkError
  else (callback, [])

def handleFrame : BiDiFrame → RocketBiDiClientCallback × List BiDiServerCall
  | .payload next complete content => callback.handlePayload next complete content
  | .error canceled => callback.handleError canceled
  | .requestN n =>
    if !callback.serverCallback then (callback, [.close])
    else if callback.state.isStreamOpen then callback.onStreamRequestN n
    else (callback, [])
  | .cancel =>
    if !callback.serverCallback then (callback, [.close])
    else if callback.state.isStreamOpen then callback.onStreamCancel
    else (callback, [])
  | .ext ignore =>
    if !callback.serverCallback then (callback, [.close])
    else (callback, if ignore then [] else [.close])

/-! ### Returns, timeouts and the end of the connection -/

/-- What the server calls while a callback runs may turn out to be the end of the stream. -/
def noteReturned (returned : Bool) : RocketBiDiClientCallback :=
  match callback.running with
  | .none => callback
  | .onSinkNext alive => { callback with running := .onSinkNext (alive && returned) }
  | .earlyStreamCancel alive =>
    { callback with running := .earlyStreamCancel (alive && returned) }

/-- The rest of a handler behind the callback that was running. -/
def callbackReturns : RocketBiDiClientCallback × List BiDiServerCall :=
  let callback' := { callback with running := .none }
  match callback.running with
  | .none => (callback', [])
  | .onSinkNext alive =>
    if alive && callback'.state.isSinkOpen then callback'.onSinkComplete else (callback', [])
  | .earlyStreamCancel alive =>
    (callback', (if alive then [.onSinkComplete] else []) ++ [.freeStream])

/-- `timeoutExpired` and `sinkChunkTimeoutExpired` end both directions. -/
def expire : RocketBiDiClientCallback × List BiDiServerCall :=
  if !callback.serverCallback then (callback.cancelSinkTimeout, [])
  else
    let state := if callback.state.isSinkOpen then callback.state.onSinkCancel else callback.state
    let state := if state.isStreamOpen then state.onStreamCancel else state
    ({ callback.cancelSinkTimeout with serverCallback := false, state := state },
      (if callback.state.isSinkOpen then [.onSinkError] else []) ++
        (if callback.state.isStreamOpen then [.onStreamCancel] else []) ++
        (if callback.state.isSinkOpen then [.send .cancel] else []) ++
        [.send (.error true), .freeStream])

def handleConnectionClose : RocketBiDiClientCallback × List BiDiServerCall :=
  let callback' :=
    { callback.cancelSinkTimeout with serverCallback := false, timeoutCallback := false }
  if !callback.serverCallback then (callback', [])
  else
    (callback', (if callback.state.isSinkOpen then [.onSinkError] else []) ++
        (if callback.state.isStreamOpen then [.onStreamCancel] else []))

def step : BiDiServerEvent → RocketBiDiClientCallback × List BiDiServerCall
  | .op op =>
    let (callback', calls, returned) := callback.serve op
    (if callback.running = .none then callback' else callback'.noteReturned returned, calls)
  | .handleFrame frame => callback.handleFrame frame
  | .callbackReturns => callback.callbackReturns
  | .timeoutExpired => callback.expire
  | .sinkChunkTimeoutExpired => callback.expire
  | .connectionClose => callback.handleConnectionClose

end RocketBiDiClientCallback

end FbThrift.Rocket
