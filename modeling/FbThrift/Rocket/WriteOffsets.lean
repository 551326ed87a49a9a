import FbThrift.Rocket.ClientWrites

/-!
# Which requests a failed write aborts

While the write loop runs it counts the bytes that it gives to the socket, and keeps with each
request where its bytes end.  A write that fails aborts the requests that end behind the bytes
that were written.  The loop does not count from the start again after a write with file
descriptors, so that the bytes of the writes before are counted too.
-/

namespace FbThrift.Rocket

namespace RequestContextQueue

variable {q q' : RequestContextQueue} {a id : Nat} {f : RequestContext → RequestContext}
  {ids : List Nat}

/-! ## What changes the length and the offset of a request -/

/-- The length of a request and where its bytes end. -/
def extent (q : RequestContextQueue) (id : Nat) : Option (Nat × Nat) :=
  (q.context id).map fun ctx => (ctx.length, ctx.endOffsetInBatch)

/-- A change of a request is not one of its extent. -/
def Sizeless (f : RequestContext → RequestContext) : Prop :=
  ∀ ctx, (f ctx).length = ctx.length ∧ (f ctx).endOffsetInBatch = ctx.endOffsetInBatch

theorem extent_of_modify (contexts : q'.contexts = q.contexts.modify a f) (sizeless : Sizeless f)
    (id : Nat) : q'.extent id = q.extent id := by
  rw [extent, extent, context_of_modify contexts]
  split
  next same =>
    rw [same, Option.map_map]
    refine congrArg (Option.map · (q.context a)) (funext fun ctx => ?_)
    exact Prod.ext (sizeless ctx).1 (sizeless ctx).2
  next => rfl

theorem extent_of_contexts (contexts : q'.contexts = q.contexts) (id : Nat) :
    q'.extent id = q.extent id := by
  rw [extent, extent, context, context, contexts]

theorem extent_update (sizeless : Sizeless f) (q : RequestContextQueue) (a id : Nat) :
    (q.update a f).extent id = q.extent id := extent_of_modify rfl sizeless id

theorem sizeless_fail (ex : RequestException) : Sizeless (RequestContext.fail ex) :=
  fun _ => ⟨rfl, rfl⟩

theorem sizeless_receive (payload : Bytes) : Sizeless (RequestContext.receive payload) := by
  intro ctx
  unfold RequestContext.receive
  split <;> exact ⟨rfl, rfl⟩

theorem sizeless_complete : Sizeless RequestContext.complete := fun _ => ⟨rfl, rfl⟩

theorem sizeless_schedule : Sizeless RequestContext.schedule := fun _ => ⟨rfl, rfl⟩

theorem sizeless_sent : Sizeless RequestContext.sent := fun _ => ⟨rfl, rfl⟩

theorem sizeless_onWriteSuccess : Sizeless RequestContext.onWriteSuccess :=
  fun _ => ⟨rfl, rfl⟩

theorem extent_markAsResponded (q : RequestContextQueue) (a id : Nat) :
    (q.markAsResponded a).extent id = q.extent id := by
  rw [markAsResponded, extent_update sizeless_complete, leaveQueue]
  split
  · exact extent_of_contexts (contexts_untrack q a) id
  · rw [extent_update sizeless_onWriteSuccess]
    exact extent_of_contexts (contexts_untrack q a) id

theorem extent_abortSentRequest (ex : RequestException) (q : RequestContextQueue) (a id : Nat) :
    (q.abortSentRequest ex a).extent id = q.extent id := by
  rw [abortSentRequest]
  split
  · rfl
  · rw [extent_markAsResponded, extent_update (sizeless_fail ex)]

theorem extent_getResponse (q : RequestContextQueue) (a id : Nat) :
    (q.getResponse a).extent id = q.extent id := by
  rw [getResponse]
  split
  · rw [timeOutSendingRequest_eq, finishSending, ← extent_update (sizeless_fail _) q a id]
    exact extent_of_modify rfl sizeless_complete id
  · exact extent_abortSentRequest _ q a id
  · rfl
  · rfl

theorem extent_onPayloadFrame (q : RequestContextQueue) (a : Nat) (payload : Bytes)
    (hasFollows : Bool) (id : Nat) :
    (q.onPayloadFrame a payload hasFollows).extent id = q.extent id := by
  rw [onPayloadFrame]
  split
  · exact extent_update (sizeless_receive payload) q a id
  · rw [extent_markAsResponded, extent_update (sizeless_receive payload)]

theorem extent_onErrorFrame (q : RequestContextQueue) (a : Nat) (errorCode : UInt32) (id : Nat) :
    (q.onErrorFrame a errorCode).extent id = q.extent id := by
  rw [onErrorFrame, extent_markAsResponded, extent_update (sizeless_fail _)]

theorem extent_onWriteSuccess (q : RequestContextQueue) (a id : Nat) :
    (q.onWriteSuccess a).extent id = q.extent id := by
  rw [onWriteSuccess]
  split
  · exact extent_update sizeless_onWriteSuccess q a id
  · rw [extent_markAsResponded, extent_update sizeless_onWriteSuccess]

theorem extent_onWriteErr (bytesWritten : Nat) (q : RequestContextQueue) (a id : Nat) :
    (q.onWriteErr bytesWritten a).extent id = q.extent id := by
  rw [onWriteErr]
  split
  · exact extent_abortSentRequest _ q a id
  · rfl

theorem extent_markNextSendingBatchAsSent
    {foreachRequest : RequestContextQueue → Nat → RequestContextQueue}
    (each : ∀ q a id, (foreachRequest q a).extent id = q.extent id)
    (sending : List (Marked Nat)) (q : RequestContextQueue) (id : Nat) :
    (markNextSendingBatchAsSent foreachRequest sending q).extent id = q.extent id := by
  induction sending generalizing q with
  | nil => rfl
  | cons entry sending ih =>
    rw [markNextSendingBatchAsSent]
    have moved : ∀ a, (q.moveToSent a sending).extent id = q.extent id := fun a =>
      extent_of_modify rfl sizeless_sent id
    split
    · rfl
    · split
      · rw [each, moved]
      · rw [ih, each, moved]

theorem extent_failQueue (ids : List Nat) (ex : RequestException) (q : RequestContextQueue)
    (id : Nat) : (failQueue ids ex q).extent id = q.extent id := by
  unfold failQueue
  induction ids generalizing q with
  | nil => rfl
  | cons a ids ih =>
    rw [List.foldl_cons, ih, failRequest, extent_update sizeless_complete,
      extent_of_contexts (contexts_untrack _ a), extent_update (sizeless_fail ex)]

theorem extent_failAllScheduledWrites (q : RequestContextQueue) (id : Nat) :
    q.failAllScheduledWrites.extent id = q.extent id := by
  rw [failAllScheduledWrites, failWriteBuffer]
  split
  · exact extent_failQueue _ _ _ id
  · rw [extent_failQueue]
    exact extent_failQueue _ _ _ id

theorem extent_failAllSentWrites (q : RequestContextQueue) (ex : RequestException) (id : Nat) :
    (q.failAllSentWrites ex).extent id = q.extent id := extent_failQueue _ _ _ id

theorem extent_enqueueScheduledWrite (q : RequestContextQueue) (a id : Nat) :
    (q.enqueueScheduledWrite a).extent id = q.extent id := by
  rw [enqueueScheduledWrite]
  split
  · rfl
  · rw [trackIfRequestResponse]
    split
    · exact extent_update sizeless_schedule _ a id
    · exact extent_update sizeless_schedule _ a id

/-- Requests that are not buffered stay as long as they are. -/
theorem extent_resolveWriteBuffer (buffered : id ∉ q.queue .writeBuffer) :
    q.resolveWriteBuffer.extent id = q.extent id := by
  rw [resolveWriteBuffer]
  split
  · rfl
  next buffer known =>
    rw [queue, known] at buffered
    have all : ∀ (buffer : List Nat) (q : RequestContextQueue), id ∉ buffer →
        (buffer.foldl resolve q).extent id = q.extent id := by
      intro buffer
      induction buffer with
      | nil => exact fun _ _ => rfl
      | cons a buffer ih =>
        intro q apart
        obtain ⟨other, apart⟩ := List.ne_and_not_mem_of_not_mem_cons apart
        rw [List.foldl_cons, ih _ apart, resolve, extent_enqueueScheduledWrite, extent,
          context_update, if_neg other]
        rfl
    exact all buffer _ buffered

/-! ## Where the requests of a write end -/

/-- The requests of a write end one behind the other, counted from an offset. -/
def Laid (q : RequestContextQueue) : (offset : Nat) → (write : List Nat) → Prop
  | _, [] => True
  | offset, id :: write => ∃ length, q.extent id = some (length, offset + length) ∧
      Laid q (offset + length) write

/-- The bytes of some requests. -/
def bytesOf (q : RequestContextQueue) (ids : List Nat) : Nat :=
  (ids.map fun id => ((q.context id).map RequestContext.length).getD 0).sum

theorem Laid.congr {offset : Nat} {write : List Nat} (laid : q.Laid offset write)
    (same : ∀ id ∈ write, q'.extent id = q.extent id) : q'.Laid offset write := by
  induction write generalizing offset with
  | nil => trivial
  | cons id write ih =>
    obtain ⟨length, known, later⟩ := laid
    refine ⟨length, (same id List.mem_cons_self).trans known, ih later fun b member => ?_⟩
    exact same b (List.mem_cons_of_mem id member)

theorem length_of_extent {length offset : Nat} (known : q.extent id = some (length, offset)) :
    ∃ ctx, q.context id = some ctx ∧ ctx.length = length ∧ ctx.endOffsetInBatch = offset := by
  obtain ⟨ctx, found, same⟩ := Option.map_eq_some_iff.mp known
  exact ⟨ctx, found, congrArg Prod.fst same, congrArg Prod.snd same⟩

theorem bytesOf_cons {length offset : Nat} (known : q.extent id = some (length, offset))
    (ids : List Nat) : q.bytesOf (id :: ids) = length + q.bytesOf ids := by
  obtain ⟨ctx, found, rfl, -⟩ := length_of_extent known
  rw [bytesOf, bytesOf, List.map_cons, List.sum_cons, found, Option.map_some, Option.getD_some]

theorem Laid.endOffset_eq {offset : Nat} {before after : List Nat}
    (laid : q.Laid offset (before ++ id :: after)) {ctx : RequestContext}
    (known : q.context id = some ctx) :
    ctx.endOffsetInBatch = offset + (q.bytesOf before + ctx.length) := by
  induction before generalizing offset with
  | nil =>
    obtain ⟨length, extent, -⟩ := laid
    obtain ⟨ctx', found, rfl, ends⟩ := length_of_extent extent
    rw [known] at found
    cases found
    rw [ends, bytesOf, List.map_nil, List.sum_nil, Nat.zero_add]
  | cons first before ih =>
    obtain ⟨length, extent, later⟩ := laid
    rw [ih later, bytesOf_cons extent]
    omega

/-! ## The write loop -/

theorem extent_sendNext {ctx : RequestContext} (known : q.context a = some ctx)
    (endOffset : Nat) (scheduled : List Nat) (id : Nat) :
    (q.sendNext ctx endOffset a scheduled).extent id =
      if id = a then some (ctx.length, endOffset + ctx.length) else q.extent id := by
  rw [extent, sendNext, context_update]
  split
  next same =>
    change ((q.context a).map _).map _ = _
    rw [known]
    rfl
  next => rfl

/-- The requests of a write end one behind the other from the offset that the loop had reached,
and the loop reaches the end of the last. -/
structure Lays (q q' : RequestContextQueue) (offset : Nat) (scheduled write : List Nat)
    (reached : Nat) : Prop where
  laid : q'.Laid offset write
  reached : reached = offset + q'.bytesOf write
  apart : ∀ id ∉ scheduled, q'.extent id = q.extent id

theorem lays_prepareNextScheduledWritesBatch {scheduled : List Nat} (nodup : scheduled.Nodup)
    (offset : Nat) (q : RequestContextQueue) :
    q.Lays (prepareNextScheduledWritesBatch offset scheduled q).2.2 offset scheduled
      (prepareNextScheduledWritesBatch offset scheduled q).1
      (prepareNextScheduledWritesBatch offset scheduled q).2.1 := by
  induction scheduled generalizing offset q with
  | nil => exact ⟨trivial, rfl, fun _ _ => rfl⟩
  | cons a scheduled ih =>
    rw [prepareNextScheduledWritesBatch]
    obtain ⟨fresh, nodup⟩ := List.nodup_cons.mp nodup
    split
    · exact ⟨trivial, rfl, fun _ _ => rfl⟩
    next ctx known =>
      have sent := extent_sendNext known offset scheduled
      have own := (sent a).trans (if_pos rfl)
      have others : ∀ id ∉ a :: scheduled,
          (q.sendNext ctx offset a scheduled).extent id = q.extent id := fun id apart =>
        (sent id).trans (if_neg (List.ne_of_not_mem_cons apart))
      split
      · refine ⟨⟨ctx.length, own, trivial⟩, ?_, others⟩
        rw [bytesOf_cons own]
        rfl
      · have later := ih nodup (offset + ctx.length) (q.sendNext ctx offset a scheduled)
        have own := (later.apart a fresh).trans own
        refine ⟨⟨ctx.length, own, later.laid⟩, ?_, fun id apart => ?_⟩
        · rw [bytesOf_cons own, ← Nat.add_assoc]
          exact later.reached
        · rw [later.apart id (List.not_mem_of_not_mem_cons apart), others id apart]

end RequestContextQueue

namespace ClientWrites

open RequestContextQueue (nothing)

variable {c : ClientWrites} {id : Nat}

/-! ## Steps of a client -/

theorem Kept.known_of_pending (kept : c.Kept) (member : id ∈ c.pending.flatten) :
    ∃ ctx, c.queue.context id = some ctx ∧ (ctx.state = .writeSending ∨ ctx.state = .complete) := by
  have state := kept.sound.batched.written id member
  rw [RequestContextQueue.state] at state
  cases known : c.queue.context id with
  | none =>
    rw [known] at state
    rcases state with state | state <;> cases state
  | some ctx =>
    rw [known] at state
    exact ⟨ctx, rfl, state.imp Option.some.inj Option.some.inj⟩

theorem Kept.notMem_queue (kept : c.Kept) (member : id ∈ c.pending.flatten) {r : RequestPlace}
    (other : r ≠ .writeSending) : id ∉ c.queue.queue r := by
  obtain ⟨ctx, known, given⟩ := kept.known_of_pending member
  rw [kept.sound.kept.mem_queue r, RequestContextQueue.place_eq known]
  rcases given with state | state
  · rw [state]
    exact fun same => other (Option.some.inj same).symm
  · rw [state]
    exact nofun

theorem Kept.extent_scheduleWrite (kept : c.Kept) (member : id ∈ c.pending.flatten)
    (ctx : RequestContext) : (c.scheduleWrite ctx).queue.extent id = c.queue.extent id := by
  obtain ⟨old, known, -⟩ := kept.known_of_pending member
  rw [ClientWrites.scheduleWrite]
  split
  · rw [RequestContextQueue.extent_enqueueScheduledWrite, RequestContextQueue.extent,
      RequestContextQueue.context, List.getElem?_append_left]
    · rfl
    · exact (List.getElem?_eq_some_iff.mp known).1
  · rfl

theorem extent_close (c : ClientWrites) (ex : RequestException) (id : Nat) :
    (c.close ex).queue.extent id = c.queue.extent id := by
  rw [close]
  split
  · exact RequestContextQueue.extent_failAllScheduledWrites c.queue id
  · rfl

/-- What a turn of the write loop does: nothing, or the socket gets a write. -/
theorem Kept.writeNext_lays (kept : c.Kept) (endOffset : Nat) :
    (∀ id ∈ c.pending.flatten, (c.writeNext endOffset).queue.extent id = c.queue.extent id) ∧
      (c.writeNext endOffset = c ∨ ∃ write, (c.writeNext endOffset).pending = c.pending ++ [write] ∧
        (c.writeNext endOffset).queue.Laid endOffset write ∧
        (c.writeNext endOffset).endOffset =
          endOffset + (c.writeNext endOffset).queue.bytesOf write) := by
  have lays := RequestContextQueue.lays_prepareNextScheduledWritesBatch
    (kept.sound.kept.nodup_queue .writeScheduled) endOffset c.queue
  rw [RequestContextQueue.queue] at lays
  rw [ClientWrites.writeNext]
  split
  · exact ⟨fun _ _ => rfl, .inl rfl⟩
  next write offset queue _ run =>
    rw [run] at lays
    refine ⟨fun id member => lays.apart id ?_, .inr ⟨write, rfl, lays.laid, lays.reached⟩⟩
    exact kept.notMem_queue (r := .writeScheduled) member (by rintro ⟨⟩)

/-- The requests of the pending writes stay where they are. -/
theorem Kept.extent_step (kept : c.Kept) (event : ClientEvent) (member : id ∈ c.pending.flatten) :
    (c.step event).queue.extent id = c.queue.extent id := by
  cases event with
  | sendFrame => exact kept.extent_scheduleWrite member _
  | sendVersionDependentFrame =>
    rw [ClientWrites.step, ClientWrites.sendVersionDependentFrame]
    split
    · exact kept.extent_scheduleWrite member _
    · refine (kept.startBufferingRequests.extent_scheduleWrite member _).trans ?_
      refine RequestContextQueue.extent_of_contexts ?_ id
      rw [RequestContextQueue.startBufferingRequests]
      split <;> rfl
  | setServerVersion =>
    exact RequestContextQueue.extent_resolveWriteBuffer (kept.notMem_queue member (by rintro ⟨⟩))
  | runLoopCallback =>
    rw [ClientWrites.step, writeScheduledRequestsToSocket]
    split
    · exact (kept.writeNext_lays 0).1 id member
    · rfl
  | writeLoopNext => exact (kept.writeNext_lays c.endOffset).1 id member
  | writeSuccess =>
    exact RequestContextQueue.extent_markNextSendingBatchAsSent
      RequestContextQueue.extent_onWriteSuccess _ _ id
  | writeErr bytesWritten =>
    rw [ClientWrites.step, ClientWrites.writeErr, extent_close]
    exact RequestContextQueue.extent_markNextSendingBatchAsSent
      (RequestContextQueue.extent_onWriteErr bytesWritten) _ _ id
  | payloadFrame =>
    rw [ClientWrites.step, ClientWrites.handlePayloadFrame]
    split
    · rfl
    · split
      · exact c.extent_close _ id
      · exact RequestContextQueue.extent_onPayloadFrame _ _ _ _ id
  | errorFrame =>
    rw [ClientWrites.step, ClientWrites.handleErrorFrame]
    split
    · rfl
    · split
      · exact c.extent_close _ id
      · exact RequestContextQueue.extent_onErrorFrame _ _ _ id
  | timeoutExpired a => exact RequestContextQueue.extent_getResponse c.queue a id
  | connectionClose =>
    rw [ClientWrites.step, ClientWrites.handleConnectionClose]
    split
    · exact RequestContextQueue.extent_failAllScheduledWrites c.queue id
    · rfl
  | close ex => exact c.extent_close ex id
  | closeNow => exact RequestContextQueue.extent_failAllSentWrites c.queue c.error id

theorem pending_close (c : ClientWrites) (ex : RequestException) :
    (c.close ex).pending = c.pending ∧ (c.close ex).endOffset = c.endOffset := by
  rw [close]
  split <;> exact ⟨rfl, rfl⟩

theorem pending_scheduleWrite (c : ClientWrites) (ctx : RequestContext) :
    (c.scheduleWrite ctx).pending = c.pending ∧ (c.scheduleWrite ctx).endOffset = c.endOffset := by
  rw [scheduleWrite]
  split <;> exact ⟨rfl, rfl⟩

/-- Whether an event is a turn of the write loop, or the socket has finished a write. -/
def ofWrites : ClientEvent → Bool
  | .runLoopCallback | .writeLoopNext | .writeSuccess | .writeErr _ => true
  | _ => false

theorem pending_step (c : ClientWrites) {event : ClientEvent} (other : ofWrites event = false) :
    (c.step event).pending = c.pending ∧ (c.step event).endOffset = c.endOffset := by
  cases event with
  | sendFrame => exact c.pending_scheduleWrite _
  | sendVersionDependentFrame =>
    rw [step, sendVersionDependentFrame]
    split
    · exact c.pending_scheduleWrite _
    · exact pending_scheduleWrite _ _
  | setServerVersion => exact ⟨rfl, rfl⟩
  | runLoopCallback | writeLoopNext | writeSuccess | writeErr => cases other
  | payloadFrame =>
    rw [step, handlePayloadFrame]
    split
    · exact ⟨rfl, rfl⟩
    · split
      · exact c.pending_close _
      · exact ⟨rfl, rfl⟩
  | errorFrame =>
    rw [step, handleErrorFrame]
    split
    · exact ⟨rfl, rfl⟩
    · split
      · exact c.pending_close _
      · exact ⟨rfl, rfl⟩
  | timeoutExpired => exact ⟨rfl, rfl⟩
  | connectionClose =>
    rw [step, handleConnectionClose]
    split <;> exact ⟨rfl, rfl⟩
  | close ex => exact c.pending_close ex
  | closeNow => exact ⟨rfl, rfl⟩

end ClientWrites

/-! ## What a run of the write loop has given -/

/-- A client, the bytes that the last run of its write loop has given to the socket, and for each
pending write the bytes that its run had given before it. -/
structure MeasuredWrites where
  client : ClientWrites
  given : Nat
  before : List Nat
  deriving DecidableEq, Repr

namespace MeasuredWrites

def init : MeasuredWrites := ⟨.init, 0, []⟩

/-- A turn of the write loop, of a run that has given some bytes. -/
def measure (m : MeasuredWrites) (next : ClientWrites) (given : Nat) : MeasuredWrites where
  client := next
  given :=
    match next.pending.drop m.client.pending.length with
    | [] => m.given
    | write :: _ => given + next.queue.bytesOf write
  before := m.before ++ (next.pending.drop m.client.pending.length).map fun _ => given

def step (m : MeasuredWrites) (event : ClientEvent) : MeasuredWrites :=
  match event with
  | .runLoopCallback => m.measure (m.client.step event) 0
  | .writeLoopNext => m.measure (m.client.step event) m.given
  | .writeSuccess => { m with client := m.client.step event, before := m.before.tail }
  | .writeErr _ => { m with client := m.client.step event, before := m.before.tail }
  | _ => { m with client := m.client.step event }

def Allowed (m : MeasuredWrites) (event : ClientEvent) : Prop := m.client.Allowed event

instance (m : MeasuredWrites) (event : ClientEvent) : Decidable (m.Allowed event) :=
  inferInstanceAs (Decidable (m.client.Allowed event))

theorem client_step (m : MeasuredWrites) (event : ClientEvent) :
    (m.step event).client = m.client.step event := by
  cases event <;> rfl

/-- The offsets of the pending writes are counted from what their runs had given before. -/
structure Kept (m : MeasuredWrites) : Prop where
  client : m.client.Kept
  laid : List.Forall₂ (fun write before => m.client.queue.Laid before write) m.client.pending
    m.before
  given : m.client.endOffset = m.given

variable {m : MeasuredWrites}

theorem kept_init : init.Kept := ⟨ClientWrites.kept_init, .nil, rfl⟩

/-- The pending writes stay where they are. -/
theorem Kept.laid_of_extent (kept : m.Kept) {q : RequestContextQueue}
    (same : ∀ id ∈ m.client.pending.flatten, q.extent id = m.client.queue.extent id) :
    List.Forall₂ (fun write before => q.Laid before write) m.client.pending m.before := by
  have own : ∀ write ∈ m.client.pending, ∀ id ∈ write,
      q.extent id = m.client.queue.extent id := fun write member id own =>
    same id (List.mem_flatten_of_mem member own)
  refine List.Forall₂.imp ?_ ((List.forall₂_and_left m.client.pending m.before).mpr
    ⟨own, kept.laid⟩)
  exact fun write before both => both.2.congr both.1

/-- A turn of the write loop goes on from the offset that its run has reached. -/
theorem Kept.measure (kept : m.Kept) (endOffset : Nat) :
    (m.measure (m.client.writeNext endOffset) endOffset).Kept := by
  obtain ⟨same, idle | ⟨write, issued, laid, reached⟩⟩ := kept.client.writeNext_lays endOffset
  · rw [idle, MeasuredWrites.measure, List.drop_length, List.map_nil, List.append_nil]
    exact kept
  · have next := kept.laid_of_extent same
    have new : (m.client.writeNext endOffset).pending.drop m.client.pending.length = [write] := by
      rw [issued, List.drop_left]
    refine ⟨kept.client.writeNext endOffset, ?_, ?_⟩
    · rw [MeasuredWrites.measure, new]
      refine (congrArg (List.Forall₂ _ · _) issued).mpr ?_
      exact List.rel_append next (.cons laid .nil)
    · rw [MeasuredWrites.measure, new]
      exact reached

/-- What a finished write leaves. -/
theorem Kept.finish (kept : m.Kept) {event : ClientEvent} (allowed : m.client.Allowed event)
    (finished : (m.client.step event).pending = m.client.pending.tail ∧
      (m.client.step event).endOffset = m.client.endOffset) :
    MeasuredWrites.Kept { m with client := m.client.step event, before := m.before.tail } := by
  have next := kept.laid_of_extent fun id member => kept.client.extent_step event member
  refine ⟨kept.client.step event allowed, ?_, finished.2.trans kept.given⟩
  refine (congrArg (List.Forall₂ _ · _) finished.1).mpr ?_
  have rest := List.forall₂_drop 1 next
  rwa [List.drop_one, List.drop_one] at rest

theorem Kept.other (kept : m.Kept) {event : ClientEvent} (allowed : m.client.Allowed event)
    (other : ClientWrites.ofWrites event = false) :
    MeasuredWrites.Kept { m with client := m.client.step event } := by
  obtain ⟨pending, endOffset⟩ := m.client.pending_step other
  refine ⟨kept.client.step event allowed, ?_, endOffset.trans kept.given⟩
  refine (congrArg (List.Forall₂ _ · _) pending).mpr ?_
  exact kept.laid_of_extent fun id member => kept.client.extent_step event member

theorem Kept.step (kept : m.Kept) (event : ClientEvent) (allowed : m.Allowed event) :
    (m.step event).Kept := by
  cases event with
  | runLoopCallback =>
    rw [MeasuredWrites.step, ClientWrites.step, ClientWrites.writeScheduledRequestsToSocket]
    split
    · exact kept.measure 0
    · rw [MeasuredWrites.measure, List.drop_length, List.map_nil, List.append_nil]
      exact kept
  | writeLoopNext =>
    rw [MeasuredWrites.step, ClientWrites.step, ← kept.given]
    exact kept.measure m.client.endOffset
  | writeSuccess => exact kept.finish allowed ⟨rfl, rfl⟩
  | writeErr bytesWritten =>
    obtain ⟨pending, endOffset⟩ := ClientWrites.pending_close
      (m.client.finishWrite (RequestContextQueue.onWriteErr bytesWritten)) (.transport .unknown)
    exact kept.finish allowed ⟨pending, endOffset⟩
  | sendFrame | sendVersionDependentFrame | setServerVersion | payloadFrame | errorFrame
  | timeoutExpired | connectionClose | close | closeNow => exact kept.other allowed rfl

/-! ## The requests of a write that fails -/

/-- The request is complete, with the exception of a request that was not sent. -/
def Aborted (c : ClientWrites) (id : Nat) : Prop :=
  ∃ ctx, c.queue.context id = some ctx ∧ ctx.state = .complete ∧
    ctx.responsePayload = .exception (.transport .notOpen)

/-- A write that fails aborts, of its requests that are not complete yet, those whose bytes do
not lie within the bytes of the write that were written. -/
def AbortsUnwritten (m : MeasuredWrites) : ClientEvent → Prop
  | .writeErr bytesWritten => ∀ write pending, m.client.pending = write :: pending →
      ∀ before id after, write = before ++ id :: after →
      ∀ ctx, m.client.queue.context id = some ctx → ctx.state = .writeSending →
        (Aborted (m.step (.writeErr bytesWritten)).client id ↔
          bytesWritten < m.client.queue.bytesOf before + ctx.length)
  | _ => True

/-- Each request of a failed write that lies within the bytes that were written ends as many
bytes before their end as the run of the loop had given to other writes before. -/
def Unshifted (m : MeasuredWrites) : ClientEvent → Prop
  | .writeErr bytesWritten => ∀ write pending, m.client.pending = write :: pending →
      ∀ given rest, m.before = given :: rest →
      ∀ before id after, write = before ++ id :: after →
      ∀ ctx, m.client.queue.context id = some ctx → ctx.state = .writeSending →
        m.client.queue.bytesOf before + ctx.length ≤ bytesWritten →
          given + (m.client.queue.bytesOf before + ctx.length) ≤ bytesWritten
  | _ => True

theorem Kept.aborted_iff (kept : m.Kept) {bytesWritten given : Nat} {write rest : List Nat}
    {pending : List (List Nat)} (writes : m.client.pending = write :: pending)
    (counts : m.before = given :: rest) {before after : List Nat} {id : Nat}
    (split : write = before ++ id :: after) {ctx : RequestContext}
    (known : m.client.queue.context id = some ctx) (sending : ctx.state = .writeSending) :
    Aborted (m.step (.writeErr bytesWritten)).client id ↔
      bytesWritten < given + (m.client.queue.bytesOf before + ctx.length) := by
  have laid := kept.laid
  rw [writes, counts, List.forall₂_cons, split] at laid
  rw [← laid.1.endOffset_eq known, client_step]
  have member : id ∈ write := split ▸ List.mem_append_right before List.mem_cons_self
  have context := (kept.client.processes (.writeErr bytesWritten) (.inr ⟨bytesWritten, rfl⟩) write
    pending writes).2 id ctx known (.inl sending)
  rw [if_pos ⟨member, sending⟩, ClientWrites.processed] at context
  constructor
  · intro ⟨ctx', found, complete, _⟩
    by_contra sent
    rw [if_neg sent, found] at context
    cases context
    cases complete
  · intro short
    rw [if_pos short] at context
    exact ⟨_, context, rfl, rfl⟩

theorem Kept.abortsUnwritten_iff (kept : m.Kept) (event : ClientEvent) :
    m.AbortsUnwritten event ↔ m.Unshifted event := by
  cases event with
  | writeErr bytesWritten =>
    constructor
    · intro aborts write pending writes given rest counts before id after split ctx known
        sending within
      have exactly := aborts write pending writes before id after split ctx known sending
      rw [kept.aborted_iff writes counts split known sending] at exactly
      omega
    · intro unshifted write pending writes before id after split ctx known sending
      obtain ⟨given, rest, counts⟩ : ∃ given rest, m.before = given :: rest := by
        have same := kept.laid.length_eq
        rw [writes] at same
        exact List.exists_cons_of_length_eq_add_one same.symm
      rw [kept.aborted_iff writes counts split known sending]
      have within := unshifted write pending writes given rest counts before id after split ctx
        known sending
      omega
  | _ => exact Iff.rfl

/-- In any run of the client, the failed writes abort exactly what was not written if and only
if none of them has a request that the bytes of earlier writes of the loop shift. -/
theorem abortsUnwritten_iff_unshifted (events : List ClientEvent)
    (run : Run step Allowed init events) :
    Run step AbortsUnwritten init events ↔ Run step Unshifted init events :=
  run.congr kept_init (fun _ event kept allowed => kept.step event allowed)
    fun _ event kept _ => kept.abortsUnwritten_iff event

/-- The first of three requests has file descriptors and is written; of the write of the others
the socket has written the second when it fails. -/
def shiftedEvents : List ClientEvent :=
  [.sendFrame 1 .requestResponse 10 true 0, .sendFrame 3 .requestResponse 5 false 0,
    .sendFrame 5 .requestResponse 100 false 0, .runLoopCallback, .writeLoopNext, .writeSuccess,
    .writeErr 12]

theorem abortsUnwritten_iff_unshifted_shifted :
    Run step AbortsUnwritten init shiftedEvents ↔ Run step Unshifted init shiftedEvents :=
  abortsUnwritten_iff_unshifted shiftedEvents (by decide +kernel)

theorem not_abortsUnwritten_shifted :
    Run step Allowed init shiftedEvents ∧ ¬Run step AbortsUnwritten init shiftedEvents := by
  refine ⟨by decide +kernel, fun run => ?_⟩
  -- The write has the bytes 0 to 5 of the second request, whose end offset is 15.
  have failed := run.2.2.2.2.2.2.1 [1, 2] [] rfl [] 1 [2] rfl _ rfl rfl
  have aborted := failed.mp ⟨_, rfl, rfl, rfl⟩
  exact absurd aborted (by decide +kernel)

end MeasuredWrites

end FbThrift.Rocket
