import FbThrift.Rocket.BiDiClientCallback

/-!
# The client's end of a bidirectional stream

`RocketBiDiServerCallback` stands between the client callback of a stream and the `RocketClient`,
which handles the frames of the stream while it has the callback in `streams_`.

As on the server, where a handler goes on behind a client callback the model stops with the
callback running.  The connection stays up, so that what is sent is sent.
-/

namespace FbThrift.Rocket

/-- The client callback behind which a handler goes on, and whether everything that it has
called has returned true. -/
inductive ClientCallbackRunning where
  | none
  | onFirstResponse (alive : Bool)
  | onStreamNext (needsFree alive : Bool)
  deriving DecidableEq, Repr

structure RocketBiDiServerCallback where
  state : BidirectionalStreamState
  /-- Whether `streams_` has the callback. -/
  streamExists : Bool
  /-- Whether `firstResponseTimeouts_` has the stream. -/
  isFirstResponse : Bool
  running : ClientCallbackRunning
  deriving DecidableEq, Repr

/-- What it calls: the client callback, and its client behind that. -/
inductive BiDiClientCall where
  | onFirstResponse
  | onFirstResponseError
  | onStreamNext
  | onStreamError
  | onStreamComplete
  | onSinkRequestN (n : Int32)
  | onSinkCancel
  | send (frame : BiDiFrame)
  | freeStream
  | close
  deriving DecidableEq, Repr

/-- What the client callback calls. -/
inductive BiDiClientOp where
  | onSinkNext
  | onSinkError (encoding : BiDiEncoding)
  | onSinkComplete
  | onStreamRequestN (n : Int32)
  | onStreamCancel
  deriving DecidableEq, Repr

inductive BiDiClientEvent where
  | op (op : BiDiClientOp)
  | handleFrame (frame : BiDiFrame)
  | callbackReturns
  | firstResponseTimeout
  deriving DecidableEq, Repr

namespace RocketBiDiServerCallback

/-- The stream of a request that is sent. -/
def new : RocketBiDiServerCallback where
  state := .awaitingFirstResponse
  streamExists := true
  isFirstResponse := true
  running := .none

variable (callback : RocketBiDiServerCallback)

/-- `freeStream`, behind some calls.  There is nothing to erase of a stream that is gone. -/
def freeStream (calls : List BiDiClientCall) : RocketBiDiServerCallback × List BiDiClientCall :=
  ({ callback with streamExists := false, isFirstResponse := false },
    if callback.streamExists then calls ++ [.freeStream] else calls)

def freeStreamIf (needsFree : Bool) (calls : List BiDiClientCall) :
    RocketBiDiServerCallback × List BiDiClientCall :=
  if needsFree then callback.freeStream calls else (callback, calls)

/-! ## What the client callback calls -/

/-- A stream that is not alive is freed before its last frame is sent. -/
def sendAndReturn (alive : Bool) (frame : BiDiFrame) :
    RocketBiDiServerCallback × List BiDiClientCall × Bool :=
  let (callback, calls) := callback.freeStreamIf (!alive) []
  (callback, calls ++ [.send frame], alive)

def onSinkNext : RocketBiDiServerCallback × List BiDiClientCall × Bool :=
  (callback, [.send (.payload true false .value)], true)

def onSinkError (encoding : BiDiEncoding) : RocketBiDiServerCallback × List BiDiClientCall × Bool :=
  let callback := { callback with state := callback.state.onSinkError }
  callback.sendAndReturn callback.state.isStreamOpen encoding.frame

def onSinkComplete : RocketBiDiServerCallback × List BiDiClientCall × Bool :=
  let callback := { callback with state := callback.state.onSinkComplete }
  callback.sendAndReturn callback.state.isStreamOpen (.payload false true .value)

def onStreamRequestN (n : Int32) : RocketBiDiServerCallback × List BiDiClientCall × Bool :=
  if n ≤ 0 then (callback, [], true) else (callback, [.send (.requestN n)], true)

def onStreamCancel : RocketBiDiServerCallback × List BiDiClientCall × Bool :=
  let callback := { callback with state := callback.state.onStreamCancel }
  callback.sendAndReturn callback.state.isSinkOpen .cancel

def serve : BiDiClientOp → RocketBiDiServerCallback × List BiDiClientCall × Bool
  | .onSinkNext => callback.onSinkNext
  | .onSinkError encoding => callback.onSinkError encoding
  | .onSinkComplete => callback.onSinkComplete
  | .onStreamRequestN n => callback.onStreamRequestN n
  | .onStreamCancel => callback.onStreamCancel

/-! ## The first response -/

/-- `onInitialError` tells the server, with which the stream is freed. -/
def onInitialError : RocketBiDiServerCallback × List BiDiClientCall :=
  let callback := { callback with state := callback.state.onFirstResponseError }
  let (callback, calls) := callback.freeStream [.onFirstResponseError]
  (callback, calls ++ [.send (.error true)])

/-- `onInitialError`, `freeStream` and `contractViolation`. -/
def refuseFirstResponse : RocketBiDiServerCallback × List BiDiClientCall :=
  let (callback, calls) := callback.onInitialError
  let (callback, calls) := callback.freeStream calls
  (callback, calls ++ [.close])

def handleFirstResponse (next complete : Bool) (content : BiDiContent) :
    RocketBiDiServerCallback × List BiDiClientCall :=
  let callback := { callback with isFirstResponse := false }
  if !next then callback.refuseFirstResponse
  else if content = .malformed then
    let (callback, calls) := callback.onInitialError
    callback.freeStream calls
  else
    ({ callback with
        state := callback.state.onFirstResponseSent
        running := if complete then .onFirstResponse true else .none },
      [.onFirstResponse])

/-! ## Later frames -/

/-- `needsFree` is read before the callback that ends the stream direction. -/
def endStream (call : BiDiClientCall) : RocketBiDiServerCallback × List BiDiClientCall :=
  let needsFree := !callback.state.isSinkOpen
  freeStreamIf { callback with state := callback.state.onStreamComplete } needsFree [call]

def onStreamPayload : RocketBiDiServerCallback × List BiDiClientCall :=
  if !callback.state.isStreamOpen then (callback, []) else (callback, [.onStreamNext])

def onStreamFinalPayload : RocketBiDiServerCallback × List BiDiClientCall :=
  ({ callback with running := .onStreamNext (!callback.state.isSinkOpen) true }, [.onStreamNext])

/-- A payload with neither flag is a contract violation whatever is open. -/
def handleBiDiResponse (next complete : Bool) (content : BiDiContent) :
    RocketBiDiServerCallback × List BiDiClientCall :=
  if next then
    if content ≠ .value then callback.endStream .onStreamError
    else if complete then callback.onStreamFinalPayload
    else callback.onStreamPayload
  else if complete then callback.endStream .onStreamComplete
  else
    let (callback, calls) :=
      freeStream { callback with state := callback.state.onStreamError } [.onStreamError]
    (callback, calls ++ [.close])

def handlePayloadFrame (next complete : Bool) (content : BiDiContent) :
    RocketBiDiServerCallback × List BiDiClientCall :=
  if callback.isFirstResponse then callback.handleFirstResponse next complete content
  else callback.handleBiDiResponse next complete content

def handleErrorFrame : RocketBiDiServerCallback × List BiDiClientCall :=
  if callback.isFirstResponse then
    let (callback, calls) := onInitialError { callback with isFirstResponse := false }
    callback.freeStream calls
  else callback.endStream .onStreamError

def handleRequestNFrame (n : Int32) : RocketBiDiServerCallback × List BiDiClientCall :=
  if callback.isFirstResponse then callback.refuseFirstResponse
  else (callback, if callback.state.isSinkOpen then [.onSinkRequestN n] else [])

def handleCancelFrame : RocketBiDiServerCallback × List BiDiClientCall :=
  if callback.isFirstResponse then callback.refuseFirstResponse
  else if !callback.state.isSinkOpen then (callback, [])
  else
    let needsFree := !callback.state.isStreamOpen
    freeStreamIf { callback with state := callback.state.onSinkCancel } needsFree [.onSinkCancel]

def handleExtFrame (ignore : Bool) : RocketBiDiServerCallback × List BiDiClientCall :=
  if callback.isFirstResponse then callback.refuseFirstResponse
  else (callback, if ignore then [] else [.close])

/-- `handleStreamChannelFrame`. -/
def handleFrame (frame : BiDiFrame) : RocketBiDiServerCallback × List BiDiClientCall :=
  if !callback.streamExists then (callback, [])
  else
    match frame with
    | .payload next complete content => callback.handlePayloadFrame next complete content
    | .error _ => callback.handleErrorFrame
    | .requestN n => callback.handleRequestNFrame n
    | .cancel => callback.handleCancelFrame
    | .ext ignore => callback.handleExtFrame ignore

/-! ## Returns -/

/-- What the client callback calls may turn out to be the end of the stream. -/
def noteReturned (returned : Bool) : RocketBiDiServerCallback :=
  match callback.running with
  | .none => callback
  | .onFirstResponse alive => { callback with running := .onFirstResponse (alive && returned) }
  | .onStreamNext needsFree alive =>
    { callback with running := .onStreamNext needsFree (alive && returned) }

/-- The rest of a handler behind the callback that was running. -/
def callbackReturns : RocketBiDiServerCallback × List BiDiClientCall :=
  let callback' := { callback with running := .none }
  match callback.running with
  | .none => (callback', [])
  | .onFirstResponse alive =>
    if alive then callback'.endStream .onStreamComplete else (callback', [])
  | .onStreamNext needsFree alive =>
    freeStreamIf { callback' with state := callback'.state.onStreamComplete } needsFree
      (if alive then [.onStreamComplete] else [])

def step : BiDiClientEvent → RocketBiDiServerCallback × List BiDiClientCall
  | .op op =>
    let (callback', calls, returned) := callback.serve op
    (callback'.noteReturned returned, calls)
  | .handleFrame frame => callback.handleFrame frame
  | .callbackReturns => callback.callbackReturns
  | .firstResponseTimeout => callback.onInitialError

end RocketBiDiServerCallback

end FbThrift.Rocket
