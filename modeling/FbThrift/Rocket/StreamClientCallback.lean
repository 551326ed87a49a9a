import Mathlib

/-!
# The server's end of a stream

`RocketStreamClientCallback` stands between the frames of a stream and its server callback.
Its tokens are the payloads that the client still asks for: `onFirstResponse` and each
`onStreamNext` take one, and each `REQUEST_N` frame brings some.
-/

namespace FbThrift.Rocket

/-- `serverCallbackOrCancelled_`. -/
inductive ServerCallbackOrCancelled where
  | null
  | cancelled
  | callback
  deriving DecidableEq, Repr

structure RocketStreamClientCallback where
  serverCallbackOrCancelled : ServerCallbackOrCancelled
  tokens : UInt64
  /-- Whether `timeoutCallback_` is there. -/
  timeoutCallback : Bool
  deriving DecidableEq, Repr

/-- What it calls: the server callback, and its connection behind that. -/
inductive StreamCall where
  | onStreamRequestN (n : Int32)
  | onStreamCancel
  | onSinkHeaders
  | pauseStream
  | resumeStream
  | sendFirstResponse
  | sendStreamPayload
  | sendCompletePayload
  | sendErrorPayload
  | sendError
  | sendErrorAfterDrain
  | sendMetadataPush
  | freeStream (complete : Bool)
  | close
  deriving DecidableEq, Repr

/-- How `onStreamError` and `onFirstResponseError` send the exception. -/
inductive Encoding where
  | error
  | payload
  deriving DecidableEq, Repr

/-- What it is called with: by the server, and then with frames and on events of the
connection.  The connection may have paused its streams, and a response may fail to
serialize. -/
inductive StreamEvent where
  | onFirstResponse (streamsPaused serializes : Bool)
  | onFirstResponseError (encoding : Encoding)
  | onStreamNext
  | onStreamComplete
  | onStreamError (encoding : Encoding)
  | onStreamHeaders
  | resetServerCallback (streamsPaused : Bool)
  | requestN (n : Int32)
  | cancel
  | ext (ignore : Bool)
  | payload
  | error
  | streamHeadersPush
  | connectionClose
  | pausedByConnection
  | resumedByConnection
  | timeoutExpired
  deriving DecidableEq, Repr

namespace RocketStreamClientCallback

variable (callback : RocketStreamClientCallback)

def new (initialRequestN : UInt32) : RocketStreamClientCallback where
  serverCallbackOrCancelled := .null
  tokens := initialRequestN.toUInt64
  timeoutCallback := false

def serverCallbackReady : Bool := callback.serverCallbackOrCancelled = .callback

/-- `!--tokens_` schedules the timeout. -/
def takeToken : RocketStreamClientCallback :=
  let tokens := callback.tokens - 1
  { callback with
    tokens := tokens
    timeoutCallback := callback.timeoutCallback || tokens = 0 }

def sendEncoded : Encoding → StreamCall
  | .error => .sendError
  | .payload => .sendErrorPayload

def handlePausedByConnection : List StreamCall :=
  if callback.serverCallbackReady then [.pauseStream] else []

def onFirstResponse (streamsPaused serializes : Bool) :
    RocketStreamClientCallback × List StreamCall :=
  if callback.serverCallbackOrCancelled = .cancelled then
    (callback, [.onStreamCancel, .freeStream true])
  else
    let callback := { callback with serverCallbackOrCancelled := .callback }
    let pause := if streamsPaused then callback.handlePausedByConnection else []
    let callback := callback.takeToken
    if !serializes then (callback, pause ++ [.sendError])
    else if callback.tokens ≠ 0 then
      (callback, pause ++ [.sendFirstResponse, .onStreamRequestN callback.tokens.toUInt32.toInt32])
    else (callback, pause ++ [.sendFirstResponse])

/-- `handle(RequestNFrame)`: the number is sign-extended. -/
def handleRequestN (n : Int32) : RocketStreamClientCallback × List StreamCall :=
  if n = 0 then (callback, [])
  else
    ({ callback with
        tokens := callback.tokens + n.toInt64.toUInt64
        timeoutCallback := false },
      [.onStreamRequestN n])

def handleCancel : RocketStreamClientCallback × List StreamCall :=
  if !callback.serverCallbackReady then
    ({ callback with serverCallbackOrCancelled := .cancelled }, [])
  else (callback, [.onStreamCancel, .freeStream true])

def step : StreamEvent → RocketStreamClientCallback × List StreamCall
  | .onFirstResponse streamsPaused serializes =>
    callback.onFirstResponse streamsPaused serializes
  | .onFirstResponseError encoding => (callback, [sendEncoded encoding, .freeStream false])
  | .onStreamNext => (callback.takeToken, [.sendStreamPayload])
  | .onStreamComplete => (callback, [.sendCompletePayload, .freeStream true])
  | .onStreamError encoding => (callback, [sendEncoded encoding, .freeStream true])
  | .onStreamHeaders => (callback, [.sendMetadataPush])
  | .resetServerCallback streamsPaused =>
    let callback := { callback with serverCallbackOrCancelled := .callback }
    (callback, if streamsPaused then callback.handlePausedByConnection else [])
  | .requestN n =>
    if !callback.serverCallbackReady then (callback, [.close]) else callback.handleRequestN n
  | .cancel => callback.handleCancel
  | .ext ignore =>
    if !callback.serverCallbackReady then (callback, [.close])
    else (callback, if ignore then [] else [.close])
  | .payload => (callback, [.close])
  | .error => (callback, [.close])
  | .streamHeadersPush =>
    (callback, if callback.serverCallbackReady then [.onSinkHeaders] else [])
  | .connectionClose =>
    (callback, .sendErrorAfterDrain ::
      if callback.serverCallbackReady then [.onStreamCancel] else [])
  | .pausedByConnection => (callback, callback.handlePausedByConnection)
  | .resumedByConnection =>
    (callback, if callback.serverCallbackReady then [.resumeStream] else [])
  | .timeoutExpired => (callback, [.onStreamCancel, .sendError, .freeStream true])

end RocketStreamClientCallback

end FbThrift.Rocket
