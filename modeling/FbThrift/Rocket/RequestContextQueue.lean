import FbThrift.Lib.MarkedQueue
import FbThrift.Rocket.Header

/-!
# The requests of a client

A request waits in one of four queues until it is complete: in the write buffer while the
version of the server is not known, in the queue of scheduled writes, in that of the writes
that the socket has, and in that of the writes that it has finished.  A request has a context,
which the queues name by its position.
-/

namespace FbThrift.Rocket

/-! ## Request contexts -/

inductive TTransportExceptionType where
  | unknown
  | notOpen
  | alreadyOpen
  | timedOut
  | endOfFile
  | interrupted
  | badArgs
  | corruptedData
  | internalError
  | notSupported
  | invalidState
  | invalidFrameSize
  | sslError
  | couldNotBind
  | networkError
  | earlyDataRejected
  | streamingContractViolation
  | invalidSetup
  | securityPolicyMissing
  | securityPolicyViolation
  deriving DecidableEq, Repr

/-- With what requests fail: an exception of the transport or an error frame, without texts. -/
inductive RequestException where
  | transport (type : TTransportExceptionType)
  | rocket (errorCode : UInt32)
  deriving DecidableEq, Repr

/-- A `folly::Try<Payload>`, which is empty at first. -/
inductive ResponsePayload where
  | empty
  | value (payload : Bytes)
  | exception (ex : RequestException)
  deriving DecidableEq, Repr

/-- The states of a request.  While it is `writeSending` the socket has its write, and from
`writeSent` on the socket has finished it, possibly with an error. -/
inductive RequestState where
  | deferredInit
  | writeNotScheduled
  | writeScheduled
  | writeSending
  | writeSent
  | complete
  deriving DecidableEq, Repr

structure RequestContext where
  streamId : Nat
  frameType : FrameType
  /-- The length of the serialized frame. -/
  length : Nat
  /-- There are file descriptors to send. -/
  fds : Bool
  /-- The length and the type of the frame that is made when the version of the server is
  known. -/
  deferredInit : Option (Nat × FrameType)
  requestTimeout : Nat
  state : RequestState
  endOffsetInBatch : Nat
  responsePayload : ResponsePayload
  timeoutScheduled : Bool
  /-- How often the write success callback was called. -/
  writeSuccesses : Nat
  /-- How often the request became complete. -/
  completions : Nat
  deriving DecidableEq, Repr

namespace RequestContext

/-- A request whose frame is serialized at once. -/
def ofFrame (streamId : Nat) (frameType : FrameType) (length : Nat) (fds : Bool)
    (requestTimeout : Nat) : RequestContext where
  streamId := streamId
  frameType := frameType
  length := length
  fds := fds
  deferredInit := none
  requestTimeout := requestTimeout
  state := .writeNotScheduled
  endOffsetInBatch := 0
  responsePayload := .empty
  timeoutScheduled := false
  writeSuccesses := 0
  completions := 0

/-- A request whose frame is made when the version of the server is known.  Until then its type
is what happens to be in the memory. -/
def deferred (streamId : Nat) (frameType : FrameType) (length : Nat) (initialized : FrameType)
    (requestTimeout : Nat) : RequestContext :=
  { ofFrame streamId frameType 0 false requestTimeout with
    deferredInit := some (length, initialized)
    state := .deferredInit }

def isRequestResponse (ctx : RequestContext) : Bool := ctx.frameType == .requestResponse

def hasPartialPayload (ctx : RequestContext) : Bool :=
  match ctx.responsePayload with
  | .value _ => true
  | _ => false

def initWithVersion (ctx : RequestContext) : RequestContext :=
  match ctx.deferredInit with
  | none => ctx
  | some (length, frameType) =>
    { ctx with length := length, frameType := frameType, state := .writeNotScheduled }

def schedule (ctx : RequestContext) : RequestContext := { ctx with state := .writeScheduled }

/-- The write starts, and with it the time that the response may take. -/
def startSending (endOffset : Nat) (ctx : RequestContext) : RequestContext :=
  { ctx with
    state := .writeSending
    endOffsetInBatch := endOffset
    timeoutScheduled :=
      ctx.timeoutScheduled || (ctx.isRequestResponse && ctx.requestTimeout != 0) }

def sent (ctx : RequestContext) : RequestContext := { ctx with state := .writeSent }

def onWriteSuccess (ctx : RequestContext) : RequestContext :=
  { ctx with writeSuccesses := ctx.writeSuccesses + 1 }

/-- What has arrived of a response. -/
def receive (payload : Bytes) (ctx : RequestContext) : RequestContext :=
  match ctx.responsePayload with
  | .value partialPayload => { ctx with responsePayload := .value (partialPayload ++ payload) }
  | _ => { ctx with responsePayload := .value payload }

def fail (ex : RequestException) (ctx : RequestContext) : RequestContext :=
  { ctx with responsePayload := .exception ex }

def complete (ctx : RequestContext) : RequestContext :=
  { ctx with state := .complete, completions := ctx.completions + 1 }

end RequestContext

/-! ## The queues -/

structure RequestContextQueue where
  contexts : List RequestContext
  /-- The tracked request-responses, at most one for a stream id. -/
  requestResponseContexts : List Nat
  /-- The requests that wait for the version of the server, while requests are buffered. -/
  writeBufferQueue : Option (List Nat)
  writeScheduledQueue : List Nat
  /-- The mark of an entry is its `lastInWriteBatch_`. -/
  writeSendingQueue : List (Marked Nat)
  writeSentQueue : List Nat
  /-- A check that ends the process has failed. -/
  checkFailed : Bool
  deriving DecidableEq, Repr

namespace RequestContextQueue

def init : RequestContextQueue := ⟨[], [], none, [], [], [], false⟩

def context (q : RequestContextQueue) (id : Nat) : Option RequestContext := q.contexts[id]?

def state (q : RequestContextQueue) (id : Nat) : Option RequestState :=
  (q.context id).map RequestContext.state

def streamId (q : RequestContextQueue) (id : Nat) : Option Nat :=
  (q.context id).map RequestContext.streamId

def isRequestResponse (q : RequestContextQueue) (id : Nat) : Bool :=
  (q.context id).any RequestContext.isRequestResponse

/-- The request that is tracked for a stream id. -/
def getRequestResponseContext (q : RequestContextQueue) (streamId : Nat) : Option Nat :=
  q.requestResponseContexts.find? fun id => q.streamId id == some streamId

def update (q : RequestContextQueue) (id : Nat) (f : RequestContext → RequestContext) :
    RequestContextQueue :=
  { q with contexts := q.contexts.modify id f }

/-- Nothing is inserted where a request with the stream id is tracked. -/
def trackIfRequestResponse (q : RequestContextQueue) (id : Nat) : RequestContextQueue :=
  if q.isRequestResponse id && q.requestResponseContexts.all (q.streamId · != q.streamId id) then
    { q with requestResponseContexts := id :: q.requestResponseContexts }
  else q

/-- What is tracked is erased by its stream id. -/
def untrackIfRequestResponse (q : RequestContextQueue) (id : Nat) : RequestContextQueue :=
  if q.isRequestResponse id then
    { q with
      requestResponseContexts :=
        q.requestResponseContexts.filter (q.streamId · != q.streamId id) }
  else q

def enqueueScheduledWrite (q : RequestContextQueue) (id : Nat) : RequestContextQueue :=
  match q.writeBufferQueue with
  | some buffer => { q with writeBufferQueue := some (buffer ++ [id]) }
  | none =>
    trackIfRequestResponse
      (update { q with writeScheduledQueue := q.writeScheduledQueue ++ [id] } id
        RequestContext.schedule) id

def startBufferingRequests (q : RequestContextQueue) : RequestContextQueue :=
  match q.writeBufferQueue with
  | some _ => q
  | none => { q with writeBufferQueue := some [] }

/-- A buffered request is initialized and scheduled. -/
def resolve (q : RequestContextQueue) (id : Nat) : RequestContextQueue :=
  (q.update id RequestContext.initWithVersion).enqueueScheduledWrite id

def resolveWriteBuffer (q : RequestContextQueue) : RequestContextQueue :=
  match q.writeBufferQueue with
  | none => q
  | some buffer => buffer.foldl resolve { q with writeBufferQueue := none }

/-- A round of the write loop: the first of the scheduled requests is sent.  Its entry is marked
where no other is scheduled, and where the request has file descriptors. -/
def sendNext (q : RequestContextQueue) (ctx : RequestContext) (endOffset : Nat) (id : Nat)
    (scheduled : List Nat) : RequestContextQueue :=
  update
    { q with
      writeScheduledQueue := scheduled
      writeSendingQueue :=
        q.writeSendingQueue ++ [⟨some id, scheduled.isEmpty || ctx.fds⟩] } id
    (RequestContext.startSending (endOffset + ctx.length))

/-- The write loop up to its next write to the socket: the requests of the write, the offset
that was reached, and the queues. -/
def prepareNextScheduledWritesBatch (endOffset : Nat) :
    List Nat → RequestContextQueue → List Nat × Nat × RequestContextQueue
  | [], q => ([], endOffset, q)
  | id :: scheduled, q =>
    match q.context id with
    | none => ([], endOffset, q)
    | some ctx =>
      if ctx.fds then ([id], endOffset + ctx.length, q.sendNext ctx endOffset id scheduled)
      else
        let later := prepareNextScheduledWritesBatch (endOffset + ctx.length) scheduled
          (q.sendNext ctx endOffset id scheduled)
        (id :: later.1, later.2)

/-- The first entry of the sending queue is moved to the sent queue. -/
def moveToSent (q : RequestContextQueue) (id : Nat) (sending : List (Marked Nat)) :
    RequestContextQueue :=
  update { q with writeSendingQueue := sending, writeSentQueue := q.writeSentQueue ++ [id] } id
    RequestContext.sent

/-- The requests up to the end of the batch are sent, and something is done with each. -/
def markNextSendingBatchAsSent (foreachRequest : RequestContextQueue → Nat → RequestContextQueue) :
    List (Marked Nat) → RequestContextQueue → RequestContextQueue
  | [], q => { q with checkFailed := true }
  | entry :: sending, q =>
    match entry.item with
    | none => { q with writeSendingQueue := sending }
    | some id =>
      if entry.last then foreachRequest (q.moveToSent id sending) id
      else
        markNextSendingBatchAsSent foreachRequest sending
          (foreachRequest (q.moveToSent id sending) id)

def removeFromWriteSendingQueue (q : RequestContextQueue) (id : Nat) : RequestContextQueue :=
  { q with writeSendingQueue := Marked.withdraw id q.writeSendingQueue }

def timeOutSendingRequest (q : RequestContextQueue) (id : Nat) : RequestContextQueue :=
  update (removeFromWriteSendingQueue
      (untrackIfRequestResponse (q.update id (RequestContext.fail (.transport .timedOut))) id) id)
    id RequestContext.complete

/-- A request that is responded to leaves the queue that it is in.  Where the response arrived
before the write was finished, the write was a success. -/
def leaveQueue (q : RequestContextQueue) (id : Nat) : RequestContextQueue :=
  if q.state id = some .writeSent then
    { q with writeSentQueue := q.writeSentQueue.erase id }
  else (q.removeFromWriteSendingQueue id).update id RequestContext.onWriteSuccess

def markAsResponded (q : RequestContextQueue) (id : Nat) : RequestContextQueue :=
  ((q.untrackIfRequestResponse id).leaveQueue id).update id RequestContext.complete

def abortSentRequest (ex : RequestException) (q : RequestContextQueue) (id : Nat) :
    RequestContextQueue :=
  if q.state id = some .complete then q
  else (q.update id (RequestContext.fail ex)).markAsResponded id

/-- The request is not in a queue any more. -/
def failRequest (ex : RequestException) (q : RequestContextQueue) (id : Nat) :
    RequestContextQueue :=
  ((q.update id (RequestContext.fail ex)).untrackIfRequestResponse id).update id
    RequestContext.complete

def failQueue (queue : List Nat) (ex : RequestException) (q : RequestContextQueue) :
    RequestContextQueue :=
  queue.foldl (failRequest ex) q

def failWriteBuffer (ex : RequestException) (q : RequestContextQueue) : RequestContextQueue :=
  match q.writeBufferQueue with
  | none => q
  | some buffer => failQueue buffer ex { q with writeBufferQueue := some [] }

def failAllScheduledWrites (q : RequestContextQueue) : RequestContextQueue :=
  failWriteBuffer (.transport .notOpen)
    (failQueue q.writeScheduledQueue (.transport .notOpen) { q with writeScheduledQueue := [] })

def failAllSentWrites (ex : RequestException) (q : RequestContextQueue) : RequestContextQueue :=
  failQueue q.writeSentQueue ex { q with writeSentQueue := [] }

/-! ## Requests that see the network -/

/-- What `getResponse` does when the time for the response is over. -/
def getResponse (q : RequestContextQueue) (id : Nat) : RequestContextQueue :=
  match q.state id with
  | some .writeSending => q.timeOutSendingRequest id
  | some .writeSent => q.abortSentRequest (.transport .timedOut) id
  | some .complete => q
  | _ => { q with checkFailed := true }

def onPayloadFrame (q : RequestContextQueue) (id : Nat) (payload : Bytes) (hasFollows : Bool) :
    RequestContextQueue :=
  if hasFollows then q.update id (RequestContext.receive payload)
  else (q.update id (RequestContext.receive payload)).markAsResponded id

def onErrorFrame (q : RequestContextQueue) (id : Nat) (errorCode : UInt32) : RequestContextQueue :=
  (q.update id (RequestContext.fail (.rocket errorCode))).markAsResponded id

/-- What `writeSuccess` does with each request of the batch. -/
def onWriteSuccess (q : RequestContextQueue) (id : Nat) : RequestContextQueue :=
  if q.isRequestResponse id then q.update id RequestContext.onWriteSuccess
  else (q.update id RequestContext.onWriteSuccess).markAsResponded id

/-- What `writeErr` does with each request of the batch. -/
def onWriteErr (bytesWritten : Nat) (q : RequestContextQueue) (id : Nat) : RequestContextQueue :=
  if (q.context id).any (bytesWritten < ·.endOffsetInBatch) then
    q.abortSentRequest (.transport .notOpen) id
  else q

end RequestContextQueue

end FbThrift.Rocket
