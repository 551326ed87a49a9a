import FbThrift.Lib.Run
import FbThrift.Rocket.RequestTransitions

/-!
# The writes of a client connection

A client gives the scheduled requests to its socket, one write for all of them or one up to each
request with file descriptors.  The socket finishes its writes in their order, while responses
arrive, time runs out, and the connection is closed.  What happens is handled one after the
other; a callback of the application acts when what called it is done.
-/

namespace FbThrift.Rocket

inductive ConnectionState where
  | connected
  | closing
  | closed
  | error
  deriving DecidableEq, Repr

structure ClientWrites where
  connState : ConnectionState
  /-- With what the connection was closed. -/
  error : RequestException
  /-- The version of the server, once it is known. -/
  serverVersion : Option Int
  queue : RequestContextQueue
  /-- The offset that a running write loop has reached. -/
  endOffset : Nat
  /-- The requests of each write that the socket has not finished. -/
  pending : List (List Nat)
  deriving DecidableEq, Repr

inductive ClientEvent where
  /-- A request is made from a frame. -/
  | sendFrame (streamId : Nat) (frameType : FrameType) (length : Nat) (fds : Bool)
      (requestTimeout : Nat)
  /-- A request whose frame depends on the version of the server. -/
  | sendVersionDependentFrame (streamId : Nat) (frameType : FrameType) (length : Nat)
      (initialized : FrameType) (requestTimeout : Nat)
  | setServerVersion (serverVersion : Int)
  | runLoopCallback
  /-- The running write loop goes on after a write with file descriptors. -/
  | writeLoopNext
  | writeSuccess
  | writeErr (bytesWritten : Nat)
  | payloadFrame (streamId : Nat) (payload : Bytes) (hasFollows hasNext hasComplete : Bool)
  | errorFrame (streamId : Nat) (errorCode : UInt32)
  | timeoutExpired (id : Nat)
  /-- The server closes the connection for new requests. -/
  | connectionClose
  | close (ex : RequestException)
  | closeNow
  deriving DecidableEq, Repr

namespace ClientWrites

def init : ClientWrites := ⟨.connected, .transport .unknown, none, .init, 0, []⟩

/-- A request is refused unless the connection is open. -/
def scheduleWrite (c : ClientWrites) (ctx : RequestContext) : ClientWrites :=
  if c.connState = .connected then
    { c with
      queue := RequestContextQueue.enqueueScheduledWrite
        { c.queue with contexts := c.queue.contexts ++ [ctx] } c.queue.contexts.length }
  else c

/-- Requests are buffered from the first one that depends on the version of the server. -/
def sendVersionDependentFrame (c : ClientWrites) (streamId : Nat) (frameType : FrameType)
    (length : Nat) (initialized : FrameType) (requestTimeout : Nat) : ClientWrites :=
  match c.serverVersion with
  | some _ => c.scheduleWrite (.ofFrame streamId initialized length false requestTimeout)
  | none =>
    scheduleWrite { c with queue := c.queue.startBufferingRequests }
      (.deferred streamId frameType length initialized requestTimeout)

def setServerVersion (c : ClientWrites) (serverVersion : Int) : ClientWrites :=
  { c with serverVersion := some serverVersion, queue := c.queue.resolveWriteBuffer }

/-- The next requests go to the socket in one write. -/
def writeNext (c : ClientWrites) (endOffset : Nat) : ClientWrites :=
  match c.queue.prepareNextScheduledWritesBatch endOffset c.queue.writeScheduledQueue with
  | ([], _, _) => c
  | (write, endOffset, queue) =>
    { c with queue := queue, endOffset := endOffset, pending := c.pending ++ [write] }

def writeScheduledRequestsToSocket (c : ClientWrites) : ClientWrites :=
  if c.connState = .connected then c.writeNext 0 else c

def close (c : ClientWrites) (ex : RequestException) : ClientWrites :=
  if c.connState = .connected ∨ c.connState = .closing then
    { c with
      connState := .error
      error := ex
      queue := c.queue.failAllScheduledWrites }
  else c

/-- The socket has finished its first write. -/
def finishWrite (c : ClientWrites)
    (foreachRequest : RequestContextQueue → Nat → RequestContextQueue) : ClientWrites :=
  { c with
    queue := c.queue.markNextSendingBatchAsSent foreachRequest c.queue.writeSendingQueue
    pending := c.pending.tail }

def writeSuccess (c : ClientWrites) : ClientWrites :=
  c.finishWrite RequestContextQueue.onWriteSuccess

def writeErr (c : ClientWrites) (bytesWritten : Nat) : ClientWrites :=
  (c.finishWrite (RequestContextQueue.onWriteErr bytesWritten)).close (.transport .unknown)

/-- A frame whose stream id is that of no tracked request is for a stream. -/
def handlePayloadFrame (c : ClientWrites) (streamId : Nat) (payload : Bytes)
    (hasFollows hasNext hasComplete : Bool) : ClientWrites :=
  match c.queue.getRequestResponseContext streamId with
  | none => c
  | some id =>
    if !hasNext && !hasComplete then c.close (.transport .streamingContractViolation)
    else { c with queue := c.queue.onPayloadFrame id payload hasFollows }

def handleErrorFrame (c : ClientWrites) (streamId : Nat) (errorCode : UInt32) : ClientWrites :=
  match c.queue.getRequestResponseContext streamId with
  | none => c
  | some id =>
    if (c.queue.context id).any RequestContext.hasPartialPayload then
      c.close (.transport .streamingContractViolation)
    else { c with queue := c.queue.onErrorFrame id errorCode }

def handleConnectionClose (c : ClientWrites) : ClientWrites :=
  if c.connState = .connected then
    { c with connState := .closing, queue := c.queue.failAllScheduledWrites }
  else c

/-- The socket has reported an error for each of its writes when it is closed. -/
def closeNowImpl (c : ClientWrites) : ClientWrites :=
  { c with connState := .closed, queue := c.queue.failAllSentWrites c.error }

def step (c : ClientWrites) : ClientEvent → ClientWrites
  | .sendFrame streamId frameType length fds requestTimeout =>
    c.scheduleWrite (.ofFrame streamId frameType length fds requestTimeout)
  | .sendVersionDependentFrame streamId frameType length initialized requestTimeout =>
    c.sendVersionDependentFrame streamId frameType length initialized requestTimeout
  | .setServerVersion serverVersion => c.setServerVersion serverVersion
  | .runLoopCallback => c.writeScheduledRequestsToSocket
  | .writeLoopNext => c.writeNext c.endOffset
  | .writeSuccess => c.writeSuccess
  | .writeErr bytesWritten => c.writeErr bytesWritten
  | .payloadFrame streamId payload hasFollows hasNext hasComplete =>
    c.handlePayloadFrame streamId payload hasFollows hasNext hasComplete
  | .errorFrame streamId errorCode => c.handleErrorFrame streamId errorCode
  | .timeoutExpired id => { c with queue := c.queue.getResponse id }
  | .connectionClose => c.handleConnectionClose
  | .close ex => c.close ex
  | .closeNow => c.closeNowImpl

/-- The server responds to what has been written. -/
def Responds (c : ClientWrites) (streamId : Nat) : Prop :=
  ∀ id ∈ c.queue.getRequestResponseContext streamId,
    c.queue.state id = some .writeSending ∨ c.queue.state id = some .writeSent

/-- The socket finishes writes that it has, responses are to requests that it was given, a timer
runs before it expires, and the connection is closed after an error, when the socket has reported
on all its writes. -/
def Allowed (c : ClientWrites) : ClientEvent → Prop
  | .writeSuccess => c.pending ≠ []
  | .writeErr _ => c.pending ≠ []
  | .payloadFrame streamId _ _ _ _ => c.Responds streamId
  | .errorFrame streamId _ => c.Responds streamId
  | .timeoutExpired id => (c.queue.context id).any RequestContext.timeoutScheduled = true
  | .closeNow => c.connState = .error ∧ c.pending = []
  | _ => True

instance (c : ClientWrites) (event : ClientEvent) : Decidable (c.Allowed event) := by
  cases event <;> unfold Allowed <;> try unfold Responds
  all_goals infer_instance

/-! ## What is to be kept -/

/-- Each request is once in the queue that its state names and in no other, there is a mark for
each pending write, and no request completes twice or is left when the connection is closed. -/
structure Consistent (c : ClientWrites) : Prop where
  queued : ∀ id ctx, c.queue.context id = some ctx → ∀ place,
    (c.queue.queue place).count id = if ctx.state.place = some place then 1 else 0
  marks : Marked.ends c.queue.writeSendingQueue = c.pending.length
  once : ∀ id ctx, c.queue.context id = some ctx →
    ctx.completions = if ctx.state = .complete then 1 else 0
  tracked : ∀ id ∈ c.queue.requestResponseContexts, ∃ ctx, c.queue.context id = some ctx ∧
    ctx.isRequestResponse = true ∧ ctx.state ≠ .complete
  checked : c.queue.checkFailed = false
  closed : c.connState = .closed → ∀ id ctx, c.queue.context id = some ctx → ctx.state = .complete

/-- What becomes of a request when the socket has finished its write. -/
def processed (event : ClientEvent) (ctx : RequestContext) : RequestContext :=
  match event with
  | .writeErr bytesWritten =>
    if bytesWritten < ctx.endOffsetInBatch then
      (ctx.sent.fail (.transport .notOpen)).complete
    else ctx.sent
  | _ =>
    if ctx.isRequestResponse then ctx.sent.onWriteSuccess
    else ctx.sent.onWriteSuccess.complete

/-- Of the requests that the socket was given, a finished write processes those that are its own
and not complete yet. -/
def Processes (c : ClientWrites) (event : ClientEvent) : Prop :=
  ∀ write pending, c.pending = write :: pending → (c.step event).pending = pending ∧
    ∀ id ctx, c.queue.context id = some ctx → (ctx.state = .writeSending ∨
        ctx.state = .writeSent ∨ ctx.state = .complete) →
      (c.step event).queue.context id =
        some (if id ∈ write ∧ ctx.state = .writeSending then processed event ctx else ctx)

/-! ## The invariant -/

open RequestContextQueue (nothing)

/-- The sending queue consists of the pending writes, and when the connection is not open nothing
waits to be written. -/
structure Kept (c : ClientWrites) : Prop where
  sound : c.queue.Sound nothing c.pending
  nonempty : ∀ write ∈ c.pending, write ≠ []
  idle : c.connState ≠ .connected →
    c.queue.writeScheduledQueue = [] ∧ c.queue.queue .writeBuffer = []
  closed : c.connState = .closed → c.pending = [] ∧ c.queue.writeSentQueue = []

variable {c : ClientWrites}

theorem kept_init : init.Kept where
  sound := RequestContextQueue.sound_init
  nonempty _ member := nomatch member
  idle disconnected := absurd rfl disconnected
  closed closed := nomatch closed

theorem Kept.complete (kept : c.Kept) (closed : c.connState = .closed) (id : Nat)
    (ctx : RequestContext) (known : c.queue.context id = some ctx) : ctx.state = .complete := by
  obtain ⟨scheduled, buffer⟩ := kept.idle (by rw [closed]; exact nofun)
  obtain ⟨pending, sent⟩ := kept.closed closed
  have sending : c.queue.writeSendingQueue = [] := by
    rw [kept.sound.batched.sending, pending]
    rfl
  have nowhere (r : RequestPlace) : ctx.state.place ≠ some r := by
    rw [← RequestContextQueue.place_eq known, ne_eq, ← kept.sound.kept.mem_queue r]
    cases r with
    | writeBuffer => rw [buffer]; exact List.not_mem_nil
    | writeScheduled => rw [RequestContextQueue.queue, scheduled]; exact List.not_mem_nil
    | writeSending => rw [RequestContextQueue.queue, sending]; exact List.not_mem_nil
    | writeSent => rw [RequestContextQueue.queue, sent]; exact List.not_mem_nil
  cases state : ctx.state <;> rw [state] at nowhere <;> first | rfl | exact absurd rfl (nowhere _)

theorem Kept.consistent (kept : c.Kept) : c.Consistent where
  queued id ctx known place := by
    rw [← RequestContextQueue.place_eq known]
    exact kept.sound.kept.filed place id
  marks := by
    rw [kept.sound.batched.sending]
    exact Marked.ends_batches _ kept.nonempty
  once id ctx known := (kept.sound.kept.contexts id ctx known).once
  tracked id member := by
    obtain ⟨ctx, known, rr, live, -⟩ := kept.sound.kept.tracked id member
    refine ⟨ctx, known, rr, ?_⟩
    intro complete
    rw [complete] at live
    exact live rfl
  checked := kept.sound.kept.checked
  closed := kept.complete

/-! ## Steps -/

/-- A change of the requests that the socket was given. -/
theorem Kept.undisturbed (kept : c.Kept) {q : RequestContextQueue}
    (sound : q.Sound nothing c.pending) (same : c.queue.Undisturbed q)
    (open_ : c.connState ≠ .closed) : ({ c with queue := q } : ClientWrites).Kept where
  sound := sound
  nonempty := kept.nonempty
  idle disconnected := by
    obtain ⟨scheduled, buffer⟩ := kept.idle disconnected
    refine ⟨same.1.trans scheduled, ?_⟩
    rw [RequestContextQueue.queue] at buffer ⊢
    rw [same.2, buffer]
  closed closed := absurd closed open_

theorem Kept.scheduleWrite (kept : c.Kept) {ctx : RequestContext} (wf : ctx.Wf)
    (place : ctx.state.place = some .writeBuffer) : (c.scheduleWrite ctx).Kept := by
  rw [ClientWrites.scheduleWrite]
  split
  · rename_i connected
    have sound := (kept.sound.add wf place).enqueueScheduledWrite
    rw [RequestContextQueue.only_nil] at sound
    exact ⟨sound, kept.nonempty, fun other => absurd connected other,
      fun closed => nomatch connected.symm.trans closed⟩
  · exact kept

theorem wf_ofFrame (streamId : Nat) (frameType : FrameType) (length : Nat) (fds : Bool)
    (requestTimeout : Nat) :
    (RequestContext.ofFrame streamId frameType length fds requestTimeout).Wf :=
  ⟨rfl, nofun⟩

theorem Kept.startBufferingRequests (kept : c.Kept) :
    ({ c with queue := c.queue.startBufferingRequests } : ClientWrites).Kept := by
  refine ⟨kept.sound.startBufferingRequests, kept.nonempty, fun disconnected => ?_, ?_⟩
  · obtain ⟨scheduled, buffer⟩ := kept.idle disconnected
    rw [RequestContextQueue.startBufferingRequests]
    split
    · exact ⟨scheduled, buffer⟩
    · exact ⟨scheduled, rfl⟩
  · intro closed
    obtain ⟨pending, sent⟩ := kept.closed closed
    rw [RequestContextQueue.startBufferingRequests]
    split <;> exact ⟨pending, sent⟩

theorem Kept.sendVersionDependentFrame (kept : c.Kept) (streamId : Nat) (frameType : FrameType)
    (length : Nat) (initialized : FrameType) (requestTimeout : Nat) :
    (c.sendVersionDependentFrame streamId frameType length initialized requestTimeout).Kept := by
  rw [ClientWrites.sendVersionDependentFrame]
  split
  · exact kept.scheduleWrite (wf_ofFrame _ _ _ _ _) rfl
  · exact kept.startBufferingRequests.scheduleWrite ⟨rfl, nofun⟩ rfl

theorem Kept.setServerVersion (kept : c.Kept) (serverVersion : Int) :
    (c.setServerVersion serverVersion).Kept := by
  have nothingBuffered (disconnected : c.connState ≠ .connected) :
      c.queue.resolveWriteBuffer.writeScheduledQueue = [] ∧
        c.queue.resolveWriteBuffer.queue .writeBuffer = [] ∧
        c.queue.resolveWriteBuffer.writeSentQueue = c.queue.writeSentQueue := by
    obtain ⟨scheduled, buffer⟩ := kept.idle disconnected
    rw [RequestContextQueue.resolveWriteBuffer]
    cases buffered : c.queue.writeBufferQueue with
    | none => exact ⟨scheduled, buffer, rfl⟩
    | some ids =>
      rw [RequestContextQueue.queue, buffered] at buffer
      obtain rfl : ids = [] := buffer
      exact ⟨scheduled, rfl, rfl⟩
  refine ⟨kept.sound.resolveWriteBuffer, kept.nonempty, fun disconnected => ?_, fun closed => ?_⟩
  · exact ⟨(nothingBuffered disconnected).1, (nothingBuffered disconnected).2.1⟩
  · have disconnected : c.connState ≠ .connected := by
      intro connected
      cases connected.symm.trans closed
    obtain ⟨pending, sent⟩ := kept.closed closed
    exact ⟨pending, (nothingBuffered disconnected).2.2.trans sent⟩

theorem Kept.writeNext (kept : c.Kept) (endOffset : Nat) : (c.writeNext endOffset).Kept := by
  have sends := kept.sound.kept.prepareNextScheduledWritesBatch rfl endOffset
  rw [ClientWrites.writeNext]
  split
  · exact kept
  · rename_i write offset queue nonempty run
    rw [run] at sends
    have connected : c.connState = .connected := by
      refine Classical.not_not.mp fun disconnected => ?_
      have none := sends.scheduled
      rw [(kept.idle disconnected).1] at none
      exact nonempty (List.append_eq_nil_iff.mp none.symm).1
    refine ⟨sends.sound kept.sound, ?_, fun other => absurd connected other,
      fun closed => nomatch connected.symm.trans closed⟩
    intro batch member
    rcases List.mem_append.mp member with old | new
    · exact kept.nonempty batch old
    · rw [List.mem_singleton.mp new]
      exact nonempty

theorem Kept.close (kept : c.Kept) (ex : RequestException) : (c.close ex).Kept := by
  rw [ClientWrites.close]
  split
  · obtain ⟨buffer, scheduled, -⟩ :=
      RequestContextQueue.failAllScheduledWrites_queues c.queue
    exact ⟨kept.sound.failAllScheduledWrites, kept.nonempty, fun _ => ⟨scheduled, buffer⟩, nofun⟩
  · exact kept

theorem Kept.handleConnectionClose (kept : c.Kept) : c.handleConnectionClose.Kept := by
  rw [ClientWrites.handleConnectionClose]
  split
  · obtain ⟨buffer, scheduled, -⟩ :=
      RequestContextQueue.failAllScheduledWrites_queues c.queue
    exact ⟨kept.sound.failAllScheduledWrites, kept.nonempty, fun _ => ⟨scheduled, buffer⟩, nofun⟩
  · exact kept

theorem Kept.finishes (kept : c.Kept) {write : List Nat} {pending : List (List Nat)}
    (writes : c.pending = write :: pending)
    {foreachRequest : RequestContextQueue → Nat → RequestContextQueue}
    {process : RequestContext → RequestContext}
    (each : ∀ (q : RequestContextQueue) (a : Nat) (ctx : RequestContext),
      q.context a = some ctx.sent → ctx.state = .writeSending →
        q.Treats (foreachRequest q a) a (process ctx)) :
    c.queue.Finishes (c.finishWrite foreachRequest).queue write pending process := by
  have sound := kept.sound
  rw [writes] at sound
  exact sound.markNextSendingBatchAsSent each (kept.nonempty write (writes ▸ List.mem_cons_self))

theorem Kept.finishWrite (kept : c.Kept) (some : c.pending ≠ [])
    {foreachRequest : RequestContextQueue → Nat → RequestContextQueue}
    {process : RequestContext → RequestContext}
    (each : ∀ (q : RequestContextQueue) (a : Nat) (ctx : RequestContext),
      q.context a = .some ctx.sent → ctx.state = .writeSending →
        q.Treats (foreachRequest q a) a (process ctx)) :
    (c.finishWrite foreachRequest).Kept := by
  obtain ⟨write, pending, writes⟩ := List.exists_cons_of_ne_nil some
  have finishes := kept.finishes writes each
  have tail : (c.finishWrite foreachRequest).pending = pending := by
    rw [ClientWrites.finishWrite, writes]
    rfl
  refine ⟨tail ▸ finishes.sound, ?_, fun disconnected => ?_, fun closed => ?_⟩
  · intro batch member
    exact kept.nonempty batch (List.mem_of_mem_tail member)
  · obtain ⟨scheduled, buffer⟩ := kept.idle disconnected
    refine ⟨finishes.scheduled.trans scheduled, ?_⟩
    rw [RequestContextQueue.queue] at buffer ⊢
    rw [finishes.buffer, buffer]
  · exact absurd (kept.closed closed).1 some

theorem treats_writeSuccess (q : RequestContextQueue) (a : Nat) (ctx : RequestContext)
    (known : q.context a = some ctx.sent) :
    q.Treats (q.onWriteSuccess a) a (processed .writeSuccess ctx) :=
  RequestContextQueue.treats_onWriteSuccess known rfl

theorem treats_writeErr (bytesWritten : Nat) (q : RequestContextQueue) (a : Nat)
    (ctx : RequestContext) (known : q.context a = some ctx.sent) :
    q.Treats (q.onWriteErr bytesWritten a) a (processed (.writeErr bytesWritten) ctx) :=
  RequestContextQueue.treats_onWriteErr bytesWritten known rfl

theorem Kept.responding (kept : c.Kept) {streamId id : Nat} (responds : c.Responds streamId)
    (found : c.queue.getRequestResponseContext streamId = some id) :
    c.connState ≠ .closed ∧ ∃ ctx, c.queue.context id = some ctx ∧
      (ctx.state = .writeSending ∨ ctx.state = .writeSent) := by
  have member := List.mem_of_find?_eq_some found
  obtain ⟨ctx, known, -, live, -⟩ := kept.sound.kept.tracked id member
  refine ⟨?_, ctx, known, ?_⟩
  · intro closed
    rw [kept.complete closed id ctx known] at live
    exact live rfl
  · have state := responds id found
    rw [RequestContextQueue.state_eq known] at state
    exact state.imp Option.some.inj Option.some.inj

theorem Kept.handlePayloadFrame (kept : c.Kept) {streamId : Nat} (responds : c.Responds streamId)
    (payload : Bytes) (hasFollows hasNext hasComplete : Bool) :
    (c.handlePayloadFrame streamId payload hasFollows hasNext hasComplete).Kept := by
  rw [ClientWrites.handlePayloadFrame]
  split
  · exact kept
  · rename_i id found
    obtain ⟨open_, ctx, known, written⟩ := kept.responding responds found
    split
    · exact kept.close _
    · exact kept.undisturbed (kept.sound.onPayloadFrame known written payload hasFollows)
        (RequestContextQueue.undisturbed_onPayloadFrame _ _ _ _) open_

theorem Kept.handleErrorFrame (kept : c.Kept) {streamId : Nat} (responds : c.Responds streamId)
    (errorCode : UInt32) : (c.handleErrorFrame streamId errorCode).Kept := by
  rw [ClientWrites.handleErrorFrame]
  split
  · exact kept
  · rename_i id found
    obtain ⟨open_, ctx, known, written⟩ := kept.responding responds found
    split
    · exact kept.close _
    · exact kept.undisturbed (kept.sound.onErrorFrame known written errorCode)
        (RequestContextQueue.undisturbed_onErrorFrame _ _ _) open_

theorem Kept.timeoutExpired (kept : c.Kept) {id : Nat}
    (timed : (c.queue.context id).any RequestContext.timeoutScheduled = true) :
    ({ c with queue := c.queue.getResponse id } : ClientWrites).Kept := by
  obtain ⟨ctx, known, timeout⟩ : ∃ ctx, c.queue.context id = some ctx ∧
      ctx.timeoutScheduled = true := (Option.any_eq_true _ _).mp timed
  by_cases closed : c.connState = .closed
  · have same : c.queue.getResponse id = c.queue := by
      rw [RequestContextQueue.getResponse, RequestContextQueue.state_eq known,
        kept.complete closed id ctx known]
    rw [same]
    exact kept
  · exact kept.undisturbed (kept.sound.getResponse known timeout)
      (RequestContextQueue.undisturbed_getResponse _ _) closed

theorem Kept.closeNowImpl (kept : c.Kept) (closed : c.connState = .error ∧ c.pending = []) :
    c.closeNowImpl.Kept := by
  obtain ⟨sound, sent⟩ := kept.sound.failAllSentWrites c.error
  obtain ⟨scheduled, buffer⟩ := kept.idle (by rw [closed.1]; exact nofun)
  obtain ⟨buffer_eq, scheduled_eq, -⟩ := RequestContextQueue.failQueue_queues
    c.queue.writeSentQueue c.error { c.queue with writeSentQueue := [] }
  refine ⟨sound, kept.nonempty, fun _ => ⟨scheduled_eq.trans scheduled, ?_⟩,
    fun _ => ⟨closed.2, sent⟩⟩
  rw [RequestContextQueue.queue] at buffer ⊢
  exact (congrArg (fun queue => Option.getD queue []) buffer_eq).trans buffer

theorem Kept.step (kept : c.Kept) (event : ClientEvent) (allowed : c.Allowed event) :
    (c.step event).Kept := by
  cases event with
  | sendFrame => exact kept.scheduleWrite (wf_ofFrame _ _ _ _ _) rfl
  | sendVersionDependentFrame => exact kept.sendVersionDependentFrame _ _ _ _ _
  | setServerVersion serverVersion => exact kept.setServerVersion serverVersion
  | runLoopCallback =>
    rw [ClientWrites.step, writeScheduledRequestsToSocket]
    split
    · exact kept.writeNext 0
    · exact kept
  | writeLoopNext => exact kept.writeNext c.endOffset
  | writeSuccess => exact kept.finishWrite allowed fun q a ctx known _ =>
    treats_writeSuccess q a ctx known
  | writeErr bytesWritten =>
    have finished := kept.finishWrite allowed fun q a ctx known _ =>
      treats_writeErr bytesWritten q a ctx known
    exact finished.close _
  | payloadFrame => exact kept.handlePayloadFrame allowed _ _ _ _
  | errorFrame => exact kept.handleErrorFrame allowed _
  | timeoutExpired => exact kept.timeoutExpired allowed
  | connectionClose => exact kept.handleConnectionClose
  | close ex => exact kept.close ex
  | closeNow => exact kept.closeNowImpl allowed

/-- Closing does not change a request that the socket was given. -/
theorem Kept.context_close (kept : c.Kept) (ex : RequestException) {id : Nat}
    {ctx : RequestContext} (known : c.queue.context id = some ctx)
    (given : ctx.state = .writeSending ∨ ctx.state = .writeSent ∨ ctx.state = .complete) :
    (c.close ex).queue.context id = some ctx := by
  rw [ClientWrites.close]
  split
  · refine (RequestContextQueue.context_failAllScheduledWrites kept.sound ?_ ?_).trans known
    all_goals
      rw [RequestContextQueue.place_eq known]
      rcases given with state | state | state <;> rw [state] <;> exact nofun
  · exact known

theorem state_processed (event : ClientEvent) (ctx : RequestContext) :
    (processed event ctx).state = .writeSent ∨ (processed event ctx).state = .complete := by
  unfold processed
  split <;> split
  · exact .inr rfl
  · exact .inl rfl
  · exact .inl rfl
  · exact .inr rfl

theorem Kept.processes (kept : c.Kept) (event : ClientEvent)
    (finished : event = .writeSuccess ∨ ∃ bytesWritten, event = .writeErr bytesWritten) :
    c.Processes event := by
  intro write pending writes
  have some : c.pending ≠ [] := by
    rw [writes]
    exact List.cons_ne_nil write pending
  rcases finished with rfl | ⟨bytesWritten, rfl⟩
  · have finishes := kept.finishes writes fun q a ctx known _ => treats_writeSuccess q a ctx known
    refine ⟨congrArg List.tail writes, fun id ctx known given => ?_⟩
    refine (finishes.context id).trans ?_
    rw [RequestContextQueue.state_eq known, known]
    simp only [Option.some.injEq, Option.map_some]
    split <;> rfl
  · have finishes := kept.finishes writes fun q a ctx known _ =>
      treats_writeErr bytesWritten q a ctx known
    have next := kept.finishWrite some fun q a ctx known _ =>
      treats_writeErr bytesWritten q a ctx known
    refine ⟨?_, fun id ctx known given => ?_⟩
    · rw [ClientWrites.step, ClientWrites.writeErr, ClientWrites.close]
      split <;> exact congrArg List.tail writes
    · refine next.context_close _ ((finishes.context id).trans ?_) ?_
      · rw [RequestContextQueue.state_eq known, known]
        simp only [Option.some.injEq, Option.map_some]
        split <;> rfl
      · split
        · exact .inr (state_processed _ ctx)
        · exact given

/-- Whatever happens in whatever order, the requests are in the queues that their states name,
the marks are those of the pending writes, each request completes once, and a finished write
processes its own requests. -/
theorem writes_consistent (events : List ClientEvent)
    (run : Run ClientWrites.step Allowed init events) :
    (events.foldl ClientWrites.step init).Consistent ∧
      ∀ event, event = .writeSuccess ∨ (∃ bytesWritten, event = .writeErr bytesWritten) →
        (events.foldl ClientWrites.step init).Processes event := by
  have kept := run.invariant kept_init fun c event kept allowed => kept.step event allowed
  exact ⟨kept.consistent, fun event finished => kept.processes event finished⟩

/-- The second of three requests has file descriptors; before the socket finishes the first
write, the time of the first request is over and the second has its response. -/
def splitEvents : List ClientEvent :=
  [.sendFrame 1 .requestResponse 10 false 1000, .sendFrame 3 .requestResponse 20 true 1000,
    .sendFrame 5 .requestFnf 5 false 1000, .runLoopCallback, .writeLoopNext, .timeoutExpired 0,
    .payloadFrame 3 [1] false true true, .writeSuccess, .writeErr 0, .closeNow]

theorem writes_consistent_split : (splitEvents.foldl ClientWrites.step init).Consistent ∧
      ∀ event, event = .writeSuccess ∨ (∃ bytesWritten, event = .writeErr bytesWritten) →
        (splitEvents.foldl ClientWrites.step init).Processes event :=
  writes_consistent splitEvents (by decide +kernel)

end ClientWrites

end FbThrift.Rocket
