import FbThrift.Rocket.RequestPlaces

/-!
# The operations keep the requests where they belong
-/

namespace FbThrift.Rocket.RequestContextQueue

variable {q q' : RequestContextQueue} {loose loose' : RequestPlace → List Nat}
  {batches : List (List Nat)} {ids : List Nat} {a id : Nat} {ctx : RequestContext}
  {f : RequestContext → RequestContext}

/-- No request is taken out of its queue. -/
def nothing (_ : RequestPlace) : List Nat := []

/-! ## Completion -/

theorem Kept.complete (kept : q.Kept loose) (known : q.context a = some ctx)
    (live : ctx.state ≠ .complete) (contexts : q'.contexts = q.contexts.modify a f)
    (state : (f ctx).state = .complete) (once : (f ctx).completions = ctx.completions + 1)
    (queues : ∀ r, loose' r ++ q'.queue r =
      if ctx.state.place = some r then (loose r ++ q.queue r).erase a
      else loose r ++ q.queue r)
    (tracked : q'.requestResponseContexts = (q.untrackIfRequestResponse a).requestResponseContexts)
    (checked : q'.checkFailed = q.checkFailed) : q'.Kept loose' := by
  have before : ctx.completions = 0 := by
    rw [(kept.contexts a ctx known).once, if_neg live]
  refine kept.move known contexts ⟨?_, fun _ => .inr (.inr state)⟩ ?_ ?_ checked
  · rw [state, if_pos rfl, once, before]
  · intro r
    rw [queues, state]
    exact (List.append_nil _).symm
  · intro b member
    rw [tracked] at member
    refine ⟨untrack_subset q a b member, ?_⟩
    rintro rfl
    exact absurd member (kept.notMem_untrack b)

/-- The requests are where they belong, and those that the socket has are in batches. -/
structure Sound (q : RequestContextQueue) (loose : RequestPlace → List Nat)
    (batches : List (List Nat)) : Prop where
  kept : q.Kept loose
  batched : q.Batched batches

theorem Sound.update (sound : q.Sound loose batches) (state : ∀ ctx, (f ctx).state = ctx.state)
    (frameType : ∀ ctx, (f ctx).frameType = ctx.frameType)
    (completions : ∀ ctx, (f ctx).completions = ctx.completions)
    (timeouts : ∀ ctx, (f ctx).timeoutScheduled = ctx.timeoutScheduled) :
    (q.update a f).Sound loose batches where
  kept := by
    refine sound.kept.adjust (fun ctx _ => by rw [state]) ?_ fun ctx _ => .inl (frameType ctx)
    intro ctx _ wf
    exact ⟨by rw [completions, state]; exact wf.once, by rw [timeouts, state]; exact wf.timeout⟩
  batched := by
    refine sound.batched.of_state rfl (funext fun id => ?_)
    rw [RequestContextQueue.state, RequestContextQueue.state, context_update]
    split
    · rename_i this
      subst this
      cases q.context id with
      | none => rfl
      | some ctx => exact congrArg some (state ctx)
    · rfl

theorem sound_init : init.Sound nothing [] := by
  have unknown (id : Nat) : init.context id = none := List.getElem?_nil
  refine ⟨⟨fun r id => ?_, fun id ctx known => ?_, ?_, rfl⟩, ⟨rfl, List.nodup_nil, ?_⟩⟩
  · rw [place, unknown]
    cases r <;> rfl
  · rw [unknown] at known
    cases known
  · rintro id ⟨⟩
  · rintro id ⟨⟩

theorem Sound.fail (sound : q.Sound loose batches) (ex : RequestException) (a : Nat) :
    (q.update a (RequestContext.fail ex)).Sound loose batches :=
  sound.update (fun _ => rfl) (fun _ => rfl) (fun _ => rfl) fun _ => rfl

theorem Sound.written (sound : q.Sound loose batches) (a : Nat) :
    (q.update a RequestContext.onWriteSuccess).Sound loose batches :=
  sound.update (fun _ => rfl) (fun _ => rfl) (fun _ => rfl) fun _ => rfl

theorem Sound.receive (sound : q.Sound loose batches) (payload : Bytes) (a : Nat) :
    (q.update a (RequestContext.receive payload)).Sound loose batches := by
  refine sound.update ?_ ?_ ?_ ?_ <;>
    · intro ctx
      unfold RequestContext.receive
      split <;> rfl

/-- A request is complete, and leaves the sent queue. -/
def finishSent (q : RequestContextQueue) (a : Nat) : RequestContextQueue :=
  { q with
    contexts := q.contexts.modify a RequestContext.complete
    requestResponseContexts := (q.untrackIfRequestResponse a).requestResponseContexts
    writeSentQueue := q.writeSentQueue.erase a }

/-- A request is complete, and is withdrawn from the sending queue. -/
def finishSending (q : RequestContextQueue) (a : Nat) : RequestContextQueue :=
  { q with
    contexts := q.contexts.modify a RequestContext.complete
    requestResponseContexts := (q.untrackIfRequestResponse a).requestResponseContexts
    writeSendingQueue := Marked.withdraw a q.writeSendingQueue }

/-- Other requests stay in their states, whatever becomes of one. -/
theorem state_of_modify_ne (contexts : q'.contexts = q.contexts.modify a f) (apart : id ≠ a) :
    q'.state id = q.state id := by
  rw [state, state, context_of_modify contexts, if_neg apart]

theorem state_of_modify (contexts : q'.contexts = q.contexts.modify a f)
    (known : q.context a = some ctx) : q'.state a = some (f ctx).state := by
  rw [state, context_of_modify contexts, if_pos rfl, known]
  rfl

theorem state_eq (known : q.context a = some ctx) : q.state a = some ctx.state := by
  rw [state, known]
  rfl

theorem Sound.finishSent (sound : q.Sound nothing batches) (known : q.context a = some ctx)
    (sent : ctx.state = .writeSent) : (q.finishSent a).Sound nothing batches where
  kept := by
    refine sound.kept.complete known (by simp [sent]) rfl rfl rfl ?_ rfl rfl
    intro r
    cases r <;> simp [queue, RequestContextQueue.finishSent, nothing, sent, RequestState.place]
  batched := by
    have before : q.state a = some .writeSent := by rw [state_eq known, sent]
    have after : (q.finishSent a).state a = some .complete :=
      state_of_modify (f := RequestContext.complete) rfl known
    refine sound.batched.other rfl (fun id => state_of_modify_ne rfl) ?_ ?_ fun _ => after
    · simp [before]
    · simp [after]

theorem Sound.finishSending (sound : q.Sound nothing batches) (known : q.context a = some ctx)
    (sending : ctx.state = .writeSending) : (q.finishSending a).Sound nothing batches where
  kept := by
    refine sound.kept.complete known (by simp [sending]) rfl rfl rfl ?_ rfl rfl
    intro r
    cases r <;>
      simp [queue, RequestContextQueue.finishSending, nothing, sending, RequestState.place,
        Marked.items_withdraw]
  batched := by
    have before : q.place a = some .writeSending := by rw [place_eq known, sending]; rfl
    have listed : a ∈ Marked.items q.writeSendingQueue :=
      (sound.kept.filed.mem_iff .writeSending).mpr before
    exact sound.batched.withdraw rfl (fun id => state_of_modify_ne rfl) listed
      (state_of_modify (f := RequestContext.complete) rfl known)

theorem state_untrack (known : q.context a = some ctx) :
    (q.untrackIfRequestResponse a).state a = some ctx.state := by
  rw [state, context, contexts_untrack, ← context, known, Option.map_some]

theorem markAsResponded_of_sent (known : q.context a = some ctx) (sent : ctx.state = .writeSent) :
    q.markAsResponded a = q.finishSent a := by
  have state := state_untrack known
  rw [sent] at state
  rw [markAsResponded, leaveQueue, if_pos state, untrack_eq]
  rfl

/-- Whether a request is tracked depends on what does not change. -/
theorem untrack_update (q : RequestContextQueue) (a b : Nat)
    (streamId : ∀ ctx, (f ctx).streamId = ctx.streamId)
    (frameType : ∀ ctx, (f ctx).frameType = ctx.frameType) :
    (q.update a f).untrackIfRequestResponse b = (q.untrackIfRequestResponse b).update a f := by
  have rr : (q.update a f).isRequestResponse b = q.isRequestResponse b := by
    rw [isRequestResponse, isRequestResponse, context_update]
    split
    · rename_i this
      subst this
      cases q.context b with
      | none => rfl
      | some ctx => simp [RequestContext.isRequestResponse, frameType]
    · rfl
  have ids : (q.update a f).streamId = q.streamId := by
    funext id
    rw [RequestContextQueue.streamId, RequestContextQueue.streamId, context_update]
    split
    · rename_i this
      subst this
      cases q.context id with
      | none => rfl
      | some ctx => exact congrArg some (streamId ctx)
    · rfl
  rw [untrackIfRequestResponse, untrackIfRequestResponse, rr, ids]
  split <;> rfl

theorem markAsResponded_of_sending (known : q.context a = some ctx)
    (sending : ctx.state = .writeSending) :
    q.markAsResponded a = (q.update a RequestContext.onWriteSuccess).finishSending a := by
  have state : (q.untrackIfRequestResponse a).state a ≠ some .writeSent := by
    rw [state_untrack known, sending]
    simp
  have tracked : (q.update a RequestContext.onWriteSuccess).untrackIfRequestResponse a =
      (q.untrackIfRequestResponse a).update a RequestContext.onWriteSuccess :=
    untrack_update q a a (fun _ => rfl) fun _ => rfl
  rw [markAsResponded, leaveQueue, if_neg state, finishSending, tracked, untrack_eq]
  rfl

theorem timeOutSendingRequest_eq (q : RequestContextQueue) (a : Nat) : q.timeOutSendingRequest a =
      (q.update a (RequestContext.fail (.transport .timedOut))).finishSending a := by
  rw [timeOutSendingRequest, untrack_eq]
  rfl

theorem Sound.markAsResponded (sound : q.Sound nothing batches) (known : q.context a = some ctx)
    (written : ctx.state = .writeSending ∨ ctx.state = .writeSent) :
    (q.markAsResponded a).Sound nothing batches := by
  rcases written with sending | sent
  · rw [markAsResponded_of_sending known sending]
    exact (sound.written a).finishSending (context_update_self known _) sending
  · rw [markAsResponded_of_sent known sent]
    exact sound.finishSent known sent

theorem Sound.abortSentRequest (sound : q.Sound nothing batches)
    (known : q.context a = some ctx) (ex : RequestException)
    (sent : ctx.state = .writeSent ∨ ctx.state = .complete) :
    (q.abortSentRequest ex a).Sound nothing batches := by
  rw [RequestContextQueue.abortSentRequest]
  split
  · exact sound
  · rename_i live
    have sent : ctx.state = .writeSent := by
      refine sent.resolve_right fun complete => live ?_
      rw [state, known, Option.map_some, complete]
    exact (sound.fail ex a).markAsResponded (context_update_self known _) (.inr sent)

/-- The time for a response is over, which does not happen before the request is sent. -/
theorem Sound.getResponse (sound : q.Sound nothing batches) (known : q.context a = some ctx)
    (timeout : ctx.timeoutScheduled = true) : (q.getResponse a).Sound nothing batches := by
  have state : q.state a = some ctx.state := by rw [RequestContextQueue.state, known]; rfl
  rcases (sound.kept.contexts a ctx known).timeout timeout with sending | sent | complete
  · rw [RequestContextQueue.getResponse, state, sending, timeOutSendingRequest_eq]
    exact (sound.fail _ a).finishSending (context_update_self known _) sending
  · rw [RequestContextQueue.getResponse, state, sent]
    exact sound.abortSentRequest known _ (.inl sent)
  · rw [RequestContextQueue.getResponse, state, complete]
    exact sound

theorem Sound.onPayloadFrame (sound : q.Sound nothing batches) (known : q.context a = some ctx)
    (written : ctx.state = .writeSending ∨ ctx.state = .writeSent) (payload : Bytes)
    (hasFollows : Bool) : (q.onPayloadFrame a payload hasFollows).Sound nothing batches := by
  rw [RequestContextQueue.onPayloadFrame]
  split
  · exact sound.receive payload a
  · refine (sound.receive payload a).markAsResponded (context_update_self known _) ?_
    have same : (ctx.receive payload).state = ctx.state := by
      unfold RequestContext.receive
      split <;> rfl
    rwa [same]

theorem Sound.onErrorFrame (sound : q.Sound nothing batches) (known : q.context a = some ctx)
    (written : ctx.state = .writeSending ∨ ctx.state = .writeSent) (errorCode : UInt32) :
    (q.onErrorFrame a errorCode).Sound nothing batches :=
  (sound.fail _ a).markAsResponded (context_update_self known _) written

/-- Requests that the socket was not given stay where they are. -/
def Undisturbed (q q' : RequestContextQueue) : Prop :=
  q'.writeScheduledQueue = q.writeScheduledQueue ∧ q'.writeBufferQueue = q.writeBufferQueue

theorem undisturbed_markAsResponded (q : RequestContextQueue) (a : Nat) :
    q.Undisturbed (q.markAsResponded a) := by
  rw [RequestContextQueue.markAsResponded, untrack_eq, leaveQueue]
  split <;> exact ⟨rfl, rfl⟩

theorem undisturbed_abortSentRequest (ex : RequestException) (q : RequestContextQueue) (a : Nat) :
    q.Undisturbed (q.abortSentRequest ex a) := by
  rw [RequestContextQueue.abortSentRequest]
  split
  · exact ⟨rfl, rfl⟩
  · exact undisturbed_markAsResponded (q.update a (RequestContext.fail ex)) a

theorem undisturbed_getResponse (q : RequestContextQueue) (a : Nat) :
    q.Undisturbed (q.getResponse a) := by
  rw [RequestContextQueue.getResponse]
  split
  · rw [timeOutSendingRequest_eq]
    exact ⟨rfl, rfl⟩
  · exact undisturbed_abortSentRequest _ q a
  · exact ⟨rfl, rfl⟩
  · exact ⟨rfl, rfl⟩

theorem undisturbed_onPayloadFrame (q : RequestContextQueue) (a : Nat) (payload : Bytes)
    (hasFollows : Bool) : q.Undisturbed (q.onPayloadFrame a payload hasFollows) := by
  rw [RequestContextQueue.onPayloadFrame]
  split
  · exact ⟨rfl, rfl⟩
  · exact undisturbed_markAsResponded (q.update a (RequestContext.receive payload)) a

theorem undisturbed_onErrorFrame (q : RequestContextQueue) (a : Nat) (errorCode : UInt32) :
    q.Undisturbed (q.onErrorFrame a errorCode) :=
  undisturbed_markAsResponded (q.update a (RequestContext.fail (.rocket errorCode))) a

/-! ## Failing whole queues -/

theorem only_nil (r : RequestPlace) : only r [] = nothing := by
  funext s
  unfold only nothing
  split <;> rfl

theorem Kept.known_of_place {r : RequestPlace} (place : q.place a = some r) :
    ∃ ctx, q.context a = some ctx ∧ ctx.state.place = some r := by
  rw [RequestContextQueue.place, Option.bind_eq_some_iff] at place
  exact place

theorem Sound.loosen {r : RequestPlace} (sound : q.Sound nothing batches)
    (queues : ∀ s, q'.queue s = if s = r then [] else q.queue s)
    (contexts : q'.contexts = q.contexts)
    (tracked : q'.requestResponseContexts = q.requestResponseContexts)
    (sending : q'.writeSendingQueue = q.writeSendingQueue)
    (checked : q'.checkFailed = q.checkFailed) :
    q'.Sound (only r (q.queue r)) batches where
  kept :=
    { filed := by
        refine sound.kept.filed.congr (fun s b => ?_) fun b =>
          congrFun (place_of_contexts contexts) b
        rw [queues]
        by_cases this : s = r
        · subst this
          simp [nothing]
        · simp [only_of_ne _ this, this, nothing]
      contexts := by
        unfold context
        rw [contexts]
        exact sound.kept.contexts
      tracked := by
        unfold context
        rw [contexts, tracked]
        exact sound.kept.tracked
      checked := checked.trans sound.kept.checked }
  batched := by
    refine sound.batched.of_state sending (funext fun id => ?_)
    rw [state, state, context, context, contexts]

theorem failRequest_eq (ex : RequestException) (q : RequestContextQueue) (a : Nat) :
    q.failRequest ex a =
      { q.update a (RequestContext.fail ex) with
        contexts := (q.update a (RequestContext.fail ex)).contexts.modify a RequestContext.complete
        requestResponseContexts :=
          ((q.update a (RequestContext.fail ex)).untrackIfRequestResponse
            a).requestResponseContexts } := by
  rw [failRequest, untrack_eq]
  rfl

theorem Sound.failRequest {r : RequestPlace} {ids : List Nat}
    (sound : q.Sound (only r (a :: ids)) batches) (ex : RequestException)
    (apart : r ≠ .writeSending) : (q.failRequest ex a).Sound (only r ids) batches := by
  have failed := sound.fail ex a
  have place : (q.update a (RequestContext.fail ex)).place a = some r := by
    refine (failed.kept.filed.mem_iff r).mp ?_
    rw [only_self]
    exact List.mem_cons_self
  obtain ⟨ctx, known, state⟩ := Kept.known_of_place place
  have live : ctx.state ≠ .complete := by
    intro complete
    rw [complete] at state
    cases state
  have before := state_eq known
  have after : (q.failRequest ex a).state a = some .complete := by
    rw [failRequest_eq, state_of_modify rfl known]
    rfl
  refine ⟨?_, ?_⟩
  · rw [failRequest_eq]
    refine failed.kept.complete known live rfl rfl rfl ?_ rfl rfl
    intro s
    by_cases this : s = r
    · subst this
      rw [if_pos state, only_self, only_self, List.cons_append, List.erase_cons_head]
      rfl
    · have other : ¬ctx.state.place = some s := by
        rw [state]
        exact fun eq => this (Option.some.inj eq).symm
      rw [if_neg other, only_of_ne _ this, only_of_ne _ this]
      rfl
  · refine failed.batched.other ?_ (fun id apart => ?_) ?_ ?_ fun _ => after
    · rw [failRequest_eq]
    · rw [failRequest_eq]
      exact state_of_modify_ne rfl apart
    · rw [before]
      intro sending
      rw [Option.some.inj sending] at state
      exact apart (Option.some.inj state).symm
    · rw [after]
      exact nofun

theorem Sound.failQueue {r : RequestPlace} {ids : List Nat}
    (sound : q.Sound (only r ids) batches) (ex : RequestException)
    (apart : r ≠ .writeSending) : (failQueue ids ex q).Sound nothing batches := by
  rw [RequestContextQueue.failQueue]
  induction ids generalizing q with
  | nil => rwa [only_nil] at sound
  | cons a ids ih => exact ih (sound.failRequest ex apart)

theorem failQueue_queues (ids : List Nat) (ex : RequestException) (q : RequestContextQueue) :
    (failQueue ids ex q).writeBufferQueue = q.writeBufferQueue ∧
      (failQueue ids ex q).writeScheduledQueue = q.writeScheduledQueue ∧
      (failQueue ids ex q).writeSendingQueue = q.writeSendingQueue ∧
      (failQueue ids ex q).writeSentQueue = q.writeSentQueue := by
  unfold failQueue
  induction ids generalizing q with
  | nil => exact ⟨rfl, rfl, rfl, rfl⟩
  | cons a ids ih =>
    rw [List.foldl_cons]
    obtain ⟨buffer, scheduled, sending, sent⟩ := ih (q.failRequest ex a)
    rw [failRequest_eq] at buffer scheduled sending sent ⊢
    exact ⟨buffer, scheduled, sending, sent⟩

theorem context_failQueue (ids : List Nat) (ex : RequestException) (q : RequestContextQueue)
    (apart : id ∉ ids) : (failQueue ids ex q).context id = q.context id := by
  unfold failQueue
  induction ids generalizing q with
  | nil => rfl
  | cons a ids ih =>
    obtain ⟨ne, later⟩ := List.ne_and_not_mem_of_not_mem_cons apart
    rw [List.foldl_cons, ih (q.failRequest ex a) later, failRequest_eq]
    rw [context_of_modify rfl, if_neg ne, context_update, if_neg ne]

theorem Sound.failAllSentWrites (sound : q.Sound nothing batches) (ex : RequestException) :
    (q.failAllSentWrites ex).Sound nothing batches ∧
      (q.failAllSentWrites ex).writeSentQueue = [] := by
  refine ⟨?_, (failQueue_queues _ ex _).2.2.2⟩
  have taken : ({ q with writeSentQueue := [] } : RequestContextQueue).Sound
      (only .writeSent (q.queue .writeSent)) batches :=
    sound.loosen (fun s => by cases s <;> rfl) rfl rfl rfl rfl
  exact taken.failQueue ex (by simp)

theorem Sound.failWriteBuffer (sound : q.Sound nothing batches) (ex : RequestException) :
    (q.failWriteBuffer ex).Sound nothing batches := by
  rw [RequestContextQueue.failWriteBuffer]
  cases buffered : q.writeBufferQueue with
  | none => exact sound
  | some buffer =>
    have all : q.queue .writeBuffer = buffer := by rw [queue, buffered]; rfl
    refine Sound.failQueue (r := .writeBuffer) ?_ ex (by simp)
    rw [← all]
    refine sound.loosen ?_ rfl rfl rfl rfl
    intro s
    cases s <;> rfl

theorem failWriteBuffer_queues (q : RequestContextQueue) (ex : RequestException) :
    (q.failWriteBuffer ex).queue .writeBuffer = [] ∧
      (q.failWriteBuffer ex).writeScheduledQueue = q.writeScheduledQueue ∧
      (q.failWriteBuffer ex).writeSendingQueue = q.writeSendingQueue ∧
      (q.failWriteBuffer ex).writeSentQueue = q.writeSentQueue := by
  rw [failWriteBuffer]
  cases buffered : q.writeBufferQueue with
  | none => exact ⟨by rw [queue, buffered]; rfl, rfl, rfl, rfl⟩
  | some buffer =>
    obtain ⟨empty, others⟩ := failQueue_queues buffer ex { q with writeBufferQueue := some [] }
    exact ⟨by simp only [queue, empty]; rfl, others⟩

theorem Sound.failAllScheduledWrites (sound : q.Sound nothing batches) :
    q.failAllScheduledWrites.Sound nothing batches := by
  have taken : ({ q with writeScheduledQueue := [] } : RequestContextQueue).Sound
      (only .writeScheduled (q.queue .writeScheduled)) batches :=
    sound.loosen (fun s => by cases s <;> rfl) rfl rfl rfl rfl
  exact (taken.failQueue _ (by simp)).failWriteBuffer _

theorem failAllScheduledWrites_queues (q : RequestContextQueue) :
    q.failAllScheduledWrites.queue .writeBuffer = [] ∧
      q.failAllScheduledWrites.writeScheduledQueue = [] ∧
      q.failAllScheduledWrites.writeSendingQueue = q.writeSendingQueue ∧
      q.failAllScheduledWrites.writeSentQueue = q.writeSentQueue := by
  obtain ⟨-, empty, sending, sent⟩ := failQueue_queues q.writeScheduledQueue
    (.transport .notOpen) { q with writeScheduledQueue := [] }
  obtain ⟨buffer, scheduled, others⟩ := failWriteBuffer_queues
    (failQueue q.writeScheduledQueue (.transport .notOpen) { q with writeScheduledQueue := [] })
    (.transport .notOpen)
  rw [failAllScheduledWrites]
  refine ⟨buffer, scheduled.trans empty, ?_, ?_⟩
  · exact others.1.trans sending
  · exact others.2.trans sent

theorem context_failAllScheduledWrites (sound : q.Sound nothing batches)
    (scheduled : q.place id ≠ some .writeScheduled) (buffered : q.place id ≠ some .writeBuffer) :
    q.failAllScheduledWrites.context id = q.context id := by
  have notScheduled : id ∉ q.writeScheduledQueue := fun member =>
    scheduled ((sound.kept.filed.mem_iff .writeScheduled).mp member)
  rw [failAllScheduledWrites, failWriteBuffer]
  split
  · exact context_failQueue _ _ _ notScheduled
  · rename_i buffer some
    have buffer_eq : q.writeBufferQueue = .some buffer := by
      rw [← some]
      exact (failQueue_queues q.writeScheduledQueue (.transport .notOpen)
        { q with writeScheduledQueue := [] }).1.symm
    have notBuffered : id ∉ buffer := by
      intro member
      refine buffered ((sound.kept.filed.mem_iff .writeBuffer).mp ?_)
      rw [queue, buffer_eq]
      exact member
    rw [context_failQueue _ _ _ notBuffered]
    exact context_failQueue _ _ _ notScheduled

/-! ## Scheduling -/

theorem ne_complete_of_place {state : RequestState} {r : RequestPlace}
    (place : state.place = some r) : state ≠ .complete := by
  rintro rfl
  cases place

theorem Sound.startBufferingRequests (sound : q.Sound nothing batches) :
    q.startBufferingRequests.Sound nothing batches := by
  rw [RequestContextQueue.startBufferingRequests]
  cases buffered : q.writeBufferQueue with
  | some buffer => exact sound
  | none =>
    refine ⟨⟨?_, sound.kept.contexts, sound.kept.tracked, sound.kept.checked⟩,
      sound.batched.of_state rfl rfl⟩
    refine sound.kept.filed.congr (fun r b => ?_) fun b => rfl
    cases r <;> simp [queue, buffered]

/-- A new request is not in a queue yet. -/
theorem Sound.add (sound : q.Sound nothing batches) (wf : ctx.Wf)
    (place : ctx.state.place = some .writeBuffer) :
    ({ q with contexts := q.contexts ++ [ctx] } : RequestContextQueue).Sound
      (only .writeBuffer [q.contexts.length]) batches := by
  have context (id : Nat) :
      ({ q with contexts := q.contexts ++ [ctx] } : RequestContextQueue).context id =
        if id = q.contexts.length then some ctx else q.context id := by
    rw [RequestContextQueue.context, RequestContextQueue.context]
    split
    · rename_i this
      rw [this]
      exact List.getElem?_concat_length
    · rename_i this
      rcases Nat.lt_or_gt_of_ne this with before | after
      · exact List.getElem?_append_left before
      · rw [List.getElem?_eq_none (Nat.le_of_lt after), List.getElem?_eq_none]
        rw [List.length_append, List.length_singleton]
        exact after
  have unknown : q.context q.contexts.length = none :=
    List.getElem?_eq_none (Nat.le_refl _)
  have before : q.place q.contexts.length = none := by
    rw [RequestContextQueue.place, unknown]
    rfl
  have old {id : Nat} {other : RequestContext} (known : q.context id = some other) :
      id ≠ q.contexts.length := by
    rintro rfl
    rw [unknown] at known
    cases known
  refine ⟨⟨?_, ?_, ?_, sound.kept.checked⟩, ?_⟩
  · have places (id : Nat) :
        ({ q with contexts := q.contexts ++ [ctx] } : RequestContextQueue).place id =
          if id = q.contexts.length then some .writeBuffer else q.place id := by
      rw [RequestContextQueue.place, RequestContextQueue.place, context]
      split
      · exact place
      · rfl
    have filed := sound.kept.filed.move places fun r => by rw [if_neg (by rw [before]; rintro ⟨⟩)]
    refine filed.congr (fun r b => ?_) fun b => rfl
    cases r <;> simp [only, nothing, queue, List.count_cons, Nat.add_comm]
  · intro id other found
    rw [context] at found
    split at found
    · cases found
      exact wf
    · exact sound.kept.contexts id other found
  · intro id member
    obtain ⟨other, found, live⟩ := sound.kept.tracked id member
    exact ⟨other, by rw [context, if_neg (old found)]; exact found, live⟩
  · have state (id : Nat) (apart : id ≠ q.contexts.length) :
        ({ q with contexts := q.contexts ++ [ctx] } : RequestContextQueue).state id =
          q.state id := by
      rw [RequestContextQueue.state, RequestContextQueue.state, context, if_neg apart]
    have waiting : ({ q with contexts := q.contexts ++ [ctx] } : RequestContextQueue).state
        q.contexts.length ≠ some .writeSending := by
      rw [RequestContextQueue.state, context, if_pos rfl, Option.map_some]
      intro sending
      rw [Option.some.inj sending] at place
      cases place
    have none : q.state q.contexts.length = none := by
      rw [RequestContextQueue.state, unknown]
      rfl
    refine sound.batched.other rfl state ?_ waiting ?_
    · rw [none]
      rintro ⟨⟩
    · rw [none]
      rintro ⟨⟩

theorem Sound.track (sound : q.Sound loose batches) (known : q.context a = some ctx)
    (live : ctx.state.place ≠ none ∧ ctx.state.place ≠ some .writeBuffer) :
    (q.trackIfRequestResponse a).Sound loose batches := by
  rw [trackIfRequestResponse]
  split
  · rename_i tracked
    refine ⟨⟨sound.kept.filed, sound.kept.contexts, ?_, sound.kept.checked⟩,
      sound.batched.of_state rfl rfl⟩
    intro id member
    rcases List.mem_cons.mp member with rfl | old
    · have rr := (Bool.and_eq_true_iff.mp tracked).1
      rw [isRequestResponse, known] at rr
      exact ⟨ctx, known, rr, live⟩
    · exact sound.kept.tracked id old
  · exact sound

theorem Kept.buffered (kept : q.Kept (only .writeBuffer (a :: ids))) :
    ∃ ctx, q.context a = some ctx ∧ ctx.state.place = some .writeBuffer := by
  refine Kept.known_of_place ((kept.filed.mem_iff .writeBuffer).mp ?_)
  rw [only_self]
  exact List.mem_cons_self

theorem Sound.enqueueScheduledWrite (sound : q.Sound (only .writeBuffer (a :: ids)) batches) :
    (q.enqueueScheduledWrite a).Sound (only .writeBuffer ids) batches := by
  obtain ⟨ctx, known, place⟩ := sound.kept.buffered
  rw [RequestContextQueue.enqueueScheduledWrite]
  cases buffered : q.writeBufferQueue with
  | some buffer =>
    refine ⟨⟨?_, sound.kept.contexts, sound.kept.tracked, sound.kept.checked⟩,
      sound.batched.of_state rfl rfl⟩
    refine sound.kept.filed.congr (fun r b => ?_) fun b => rfl
    cases r <;> simp [only, queue, buffered, List.count_cons, Nat.add_assoc]
  | none =>
    have before := sound.kept.contexts a ctx known
    have live : ctx.state ≠ .complete := ne_complete_of_place place
    have untimed : ctx.timeoutScheduled = false := by
      rw [← Bool.not_eq_true]
      intro timed
      rcases before.timeout timed with state | state | state <;>
        · rw [state] at place
          cases place
    have scheduled : ctx.schedule.Wf := by
      refine ⟨?_, fun timed => ?_⟩
      · have zero := before.once
        rw [if_neg live] at zero
        exact zero
      · exact absurd (untimed.symm.trans timed) nofun
    have after : (q.update a RequestContext.schedule).context a = some ctx.schedule :=
      context_update_self known _
    refine Sound.track ⟨?_, ?_⟩ after ⟨nofun, nofun⟩
    · refine sound.kept.move known rfl scheduled ?_ ?_ rfl
      · intro r
        rw [place]
        cases r <;>
          simp [only, queue, RequestContextQueue.update, RequestContext.schedule,
            RequestState.place, buffered]
      · intro id member
        refine ⟨member, ?_⟩
        rintro rfl
        obtain ⟨other, found, -, -, apart⟩ := sound.kept.tracked id member
        obtain rfl := Option.some.inj (found.symm.trans known)
        exact absurd place apart
    · refine sound.batched.other rfl (fun id => state_of_modify_ne rfl) ?_ ?_ ?_
      · rw [state_eq known]
        intro sending
        rw [Option.some.inj sending] at place
        cases place
      · rw [state_of_modify (f := RequestContext.schedule) rfl known]
        exact nofun
      · rw [state_eq known]
        exact fun complete => absurd (Option.some.inj complete) live

theorem Sound.resolve (sound : q.Sound (only .writeBuffer (a :: ids)) batches) :
    (q.resolve a).Sound (only .writeBuffer ids) batches := by
  obtain ⟨ctx, known, place⟩ := sound.kept.buffered
  have init : ctx.initWithVersion.state = ctx.state ∨
      ctx.initWithVersion.state = .writeNotScheduled := by
    unfold RequestContext.initWithVersion
    split
    · exact .inl rfl
    · exact .inr rfl
  have unsent : ∀ state : RequestState, state.place = some .writeBuffer →
      state ≠ .writeSending ∧ state ≠ .complete := by
    rintro state place
    refine ⟨?_, ?_⟩ <;>
      · rintro rfl
        cases place
  have later : ctx.initWithVersion.state.place = some .writeBuffer := by
    rcases init with same | fresh
    · rw [same, place]
    · rw [fresh]
      rfl
  refine Sound.enqueueScheduledWrite ⟨?_, ?_⟩
  · refine sound.kept.adjust ?_ ?_ ?_
    · intro other found
      obtain rfl := Option.some.inj (found.symm.trans known)
      rw [place, later]
    · intro other found wf
      obtain rfl := Option.some.inj (found.symm.trans known)
      have once := wf.once
      rw [if_neg (unsent _ place).2] at once
      refine ⟨?_, ?_⟩
      · rw [if_neg (unsent _ later).2, ← once]
        unfold RequestContext.initWithVersion
        split <;> rfl
      · intro timed
        have timed : other.timeoutScheduled = true := by
          rw [← timed]
          unfold RequestContext.initWithVersion
          split <;> rfl
        rcases wf.timeout timed with state | state | state <;>
          · rw [state] at place
            cases place
    · intro other found
      obtain rfl := Option.some.inj (found.symm.trans known)
      exact .inr place
  · refine sound.batched.other rfl (fun id => state_of_modify_ne rfl) ?_ ?_ ?_
    · rw [state_eq known]
      exact fun sending => (unsent _ place).1 (Option.some.inj sending)
    · rw [state_of_modify (f := RequestContext.initWithVersion) rfl known]
      exact fun sending => (unsent _ later).1 (Option.some.inj sending)
    · rw [state_eq known]
      exact fun complete => absurd (Option.some.inj complete) (unsent _ place).2

theorem Sound.resolveWriteBuffer (sound : q.Sound nothing batches) :
    q.resolveWriteBuffer.Sound nothing batches := by
  rw [RequestContextQueue.resolveWriteBuffer]
  cases buffered : q.writeBufferQueue with
  | none => exact sound
  | some buffer =>
    have all : q.queue .writeBuffer = buffer := by rw [queue, buffered]; rfl
    have taken : ({ q with writeBufferQueue := none } : RequestContextQueue).Sound
        (only .writeBuffer (q.queue .writeBuffer)) batches :=
      sound.loosen (fun s => by cases s <;> rfl) rfl rfl rfl rfl
    rw [all] at taken
    clear all buffered sound
    dsimp only
    generalize ({ q with writeBufferQueue := none } : RequestContextQueue) = emptied at taken ⊢
    induction buffer generalizing emptied with
    | nil => rwa [only_nil] at taken
    | cons a buffer ih => exact ih _ taken.resolve

/-! ## The write loop -/

theorem Kept.mem_queue (kept : q.Kept nothing) (r : RequestPlace) :
    a ∈ q.queue r ↔ q.place a = some r :=
  kept.filed.mem_iff r

theorem Kept.nodup_queue (kept : q.Kept nothing) (r : RequestPlace) : (q.queue r).Nodup := by
  rw [List.nodup_iff_count_le_one]
  intro id
  have count : (q.queue r).count id = if q.place id = some r then 1 else 0 := kept.filed r id
  rw [count]
  split <;> simp

theorem Kept.sendNext {scheduled : List Nat} (kept : q.Kept nothing)
    (known : q.context a = some ctx) (first : q.writeScheduledQueue = a :: scheduled)
    (endOffset : Nat) : (q.sendNext ctx endOffset a scheduled).Kept nothing := by
  have place : ctx.state.place = some .writeScheduled := by
    rw [← place_eq known, ← kept.mem_queue .writeScheduled, queue, first]
    exact List.mem_cons_self
  refine kept.move known rfl ⟨?_, fun _ => .inl rfl⟩ ?_ ?_ rfl
  · have once := (kept.contexts a ctx known).once
    rw [if_neg (ne_complete_of_place place)] at once
    exact once
  · intro r
    rw [place]
    cases r <;>
      simp [nothing, queue, RequestContextQueue.sendNext, RequestContextQueue.update, first,
        RequestContext.startSending, RequestState.place, Marked.items]
  · exact fun id member => ⟨member, fun _ => ⟨rfl, by rintro ⟨⟩, by rintro ⟨⟩⟩⟩

/-- What a write takes from the queues: the first of the scheduled requests, in their order, as
a batch of the sending queue. -/
structure Sends (q q' : RequestContextQueue) (write : List Nat) : Prop where
  kept : q'.Kept nothing
  scheduled : q.writeScheduledQueue = write ++ q'.writeScheduledQueue
  sending : q'.writeSendingQueue = q.writeSendingQueue ++ Marked.entries (fun _ => true) write
  state : ∀ id, q'.state id = if id ∈ write then some .writeSending else q.state id
  buffer : q'.writeBufferQueue = q.writeBufferQueue
  sent : q'.writeSentQueue = q.writeSentQueue
  nonempty : write = [] → q.writeScheduledQueue = []

theorem Kept.prepareNextScheduledWritesBatch {scheduled : List Nat} (kept : q.Kept nothing)
    (all : q.writeScheduledQueue = scheduled) (endOffset : Nat) :
    q.Sends (prepareNextScheduledWritesBatch endOffset scheduled q).2.2
      (prepareNextScheduledWritesBatch endOffset scheduled q).1 := by
  induction scheduled generalizing q endOffset with
  | nil => exact ⟨kept, rfl, (List.append_nil _).symm, fun id => rfl, rfl, rfl, fun _ => all⟩
  | cons a scheduled ih =>
    have place : q.place a = some .writeScheduled := by
      rw [← kept.mem_queue .writeScheduled, queue, all]
      exact List.mem_cons_self
    obtain ⟨ctx, known, -⟩ := Kept.known_of_place place
    have next := kept.sendNext known all endOffset
    have state (id : Nat) : (q.sendNext ctx endOffset a scheduled).state id =
        if id = a then some .writeSending else q.state id := by
      split
      · rename_i this
        rw [this]
        exact state_of_modify (f := RequestContext.startSending (endOffset + ctx.length)) rfl known
      · rename_i apart
        exact state_of_modify_ne rfl apart
    simp only [RequestContextQueue.prepareNextScheduledWritesBatch, known]
    cases fds : ctx.fds with
    | true =>
      rw [if_pos rfl]
      refine ⟨next, all, ?_, fun id => ?_, rfl, rfl, nofun⟩
      · dsimp only [RequestContextQueue.sendNext, RequestContextQueue.update]
        rw [fds, Bool.or_true, Marked.entries_cons rfl]
        rfl
      · rw [state]
        simp only [List.mem_singleton]
    | false =>
      rw [if_neg Bool.false_ne_true]
      have later := ih next rfl (endOffset + ctx.length)
      refine ⟨later.kept, ?_, ?_, fun id => ?_, later.buffer, later.sent, nofun⟩
      · rw [all, List.cons_append]
        exact congrArg (a :: ·) later.scheduled
      · have same : scheduled.isEmpty =
            (RequestContextQueue.prepareNextScheduledWritesBatch (endOffset + ctx.length)
              scheduled (q.sendNext ctx endOffset a scheduled)).1.isEmpty := by
          cases scheduled with
          | nil => rfl
          | cons b scheduled =>
            symm
            rw [List.isEmpty_cons, List.isEmpty_eq_false_iff]
            exact fun empty => nomatch later.nonempty empty
        rw [later.sending, Marked.entries_cons rfl, ← same]
        dsimp only [RequestContextQueue.sendNext, RequestContextQueue.update]
        rw [fds, Bool.or_false, List.append_assoc]
        rfl
      · rw [later.state, state]
        simp only [List.mem_cons]
        by_cases this : id = a <;> simp [this]

theorem Sends.sound {write : List Nat} (sends : q.Sends q' write)
    (sound : q.Sound nothing batches) : q'.Sound nothing (batches ++ [write]) := by
  have scheduled (id : Nat) (member : id ∈ write) : q.place id = some .writeScheduled := by
    rw [← sound.kept.mem_queue .writeScheduled, queue, sends.scheduled]
    exact List.mem_append_left _ member
  refine ⟨sends.kept, sound.batched.concat sends.sending ?_ ?_ sends.state⟩
  · intro id member
    obtain ⟨ctx, known, place⟩ := Kept.known_of_place (scheduled id member)
    rw [state_eq known]
    cases state : ctx.state <;> rw [state] at place <;> first | rfl | cases place
  · have nodup := sound.kept.nodup_queue .writeScheduled
    rw [queue, sends.scheduled] at nodup
    exact (List.nodup_append'.mp nodup).1

/-! ## Finished writes -/

/-- One request changes, and queues of requests that the socket does not have stay as they
are. -/
structure Treats (q q' : RequestContextQueue) (a : Nat) (ctx : RequestContext) : Prop where
  sound : ∀ batches, q.Sound nothing batches → q'.Sound nothing batches
  context : ∀ id, q'.context id = if id = a then some ctx else q.context id
  sending : q'.writeSendingQueue = q.writeSendingQueue
  scheduled : q'.writeScheduledQueue = q.writeScheduledQueue
  buffer : q'.writeBufferQueue = q.writeBufferQueue

theorem context_of_known (contexts : q'.contexts = q.contexts.modify a f)
    (known : q.context a = some ctx) (id : Nat) :
    q'.context id = if id = a then some (f ctx) else q.context id := by
  rw [context_of_modify contexts, known]
  rfl

theorem treats_onWriteSuccess (known : q.context a = some ctx) (sent : ctx.state = .writeSent) :
    q.Treats (q.onWriteSuccess a)
      a (if ctx.isRequestResponse then ctx.onWriteSuccess else ctx.onWriteSuccess.complete) := by
  have rr : q.isRequestResponse a = ctx.isRequestResponse := by
    rw [isRequestResponse, known]
    rfl
  have updated (id : Nat) : (q.update a RequestContext.onWriteSuccess).context id =
      if id = a then some ctx.onWriteSuccess else q.context id := context_of_known rfl known id
  rw [RequestContextQueue.onWriteSuccess, rr]
  split
  · exact ⟨fun batches sound => sound.written a, updated, rfl, rfl, rfl⟩
  · have found := updated a
    rw [if_pos rfl] at found
    rw [markAsResponded_of_sent found sent]
    refine ⟨fun batches sound => (sound.written a).finishSent found sent, ?_, rfl, rfl, rfl⟩
    intro id
    rw [context_of_known (f := RequestContext.complete) rfl found, updated]
    by_cases this : id = a <;> simp [this]

theorem treats_onWriteErr (bytesWritten : Nat) (known : q.context a = some ctx)
    (sent : ctx.state = .writeSent) :
    q.Treats (q.onWriteErr bytesWritten a) a
      (if bytesWritten < ctx.endOffsetInBatch then (ctx.fail (.transport .notOpen)).complete
        else ctx) := by
  have late : (q.context a).any (bytesWritten < ·.endOffsetInBatch) =
      decide (bytesWritten < ctx.endOffsetInBatch) := by
    rw [known]
    rfl
  rw [onWriteErr, late]
  by_cases this : bytesWritten < ctx.endOffsetInBatch
  · have live : q.state a ≠ some .complete := by
      rw [state_eq known, sent]
      exact nofun
    have updated (id : Nat) : (q.update a (RequestContext.fail (.transport .notOpen))).context id =
          if id = a then some (ctx.fail (.transport .notOpen)) else q.context id :=
      context_of_known rfl known id
    have found := updated a
    rw [if_pos rfl] at found
    rw [if_pos (decide_eq_true this), if_pos this, abortSentRequest, if_neg live,
      markAsResponded_of_sent found sent]
    refine ⟨fun batches sound => (sound.fail _ a).finishSent found sent, ?_, rfl, rfl, rfl⟩
    intro id
    rw [context_of_known (f := RequestContext.complete) rfl found, updated]
    by_cases same : id = a <;> simp [same]
  · rw [if_neg (by simpa using this), if_neg this]
    refine ⟨fun batches sound => sound, fun id => ?_, rfl, rfl, rfl⟩
    split
    · rename_i same
      rw [same, known]
    · rfl

theorem Sound.moveToSent {batch : List Nat} (sound : q.Sound nothing ((a :: batch) :: batches))
    (known : q.context a = some ctx) (sending : ctx.state = .writeSending) :
    (q.moveToSent a q.writeSendingQueue.tail).Sound nothing (batch :: batches) where
  kept := by
    have alive : q.isSending a = true := by
      rw [isSending, state_eq known, sending]
      rfl
    have first : q.writeSendingQueue = ⟨some a, batch.isEmpty⟩ :: q.writeSendingQueue.tail := by
      rw [sound.batched.sending, List.flatMap_cons, Marked.entries_cons alive]
      rfl
    refine sound.kept.move known rfl ⟨?_, fun _ => .inr (.inl rfl)⟩ ?_ ?_ rfl
    · have once := (sound.kept.contexts a ctx known).once
      rw [sending] at once
      exact once
    · intro r
      rw [sending]
      cases r with
      | writeSending =>
        have items : Marked.items q.writeSendingQueue =
            a :: Marked.items q.writeSendingQueue.tail := by
          rw [first]
          rfl
        simp [nothing, queue, RequestContextQueue.moveToSent, RequestContextQueue.update,
          RequestContext.sent, RequestState.place, items]
      | _ =>
        simp [nothing, queue, RequestContextQueue.moveToSent, RequestContextQueue.update,
          RequestContext.sent, RequestState.place]
    · exact fun id member => ⟨member, fun _ => ⟨rfl, by rintro ⟨⟩, by rintro ⟨⟩⟩⟩
  batched :=
    sound.batched.sent ((state_eq known).trans (congrArg some sending)) rfl
      fun id => state_of_modify_ne rfl

/-- A finished write is that of the first batch: what is done is done with each of its requests
that is not complete, and with no other. -/
structure Finishes (q q' : RequestContextQueue) (write : List Nat)
    (batches : List (List Nat)) (process : RequestContext → RequestContext) : Prop where
  sound : q'.Sound nothing batches
  context : ∀ id, q'.context id =
    if id ∈ write ∧ q.state id = some .writeSending then (q.context id).map process
    else q.context id
  scheduled : q'.writeScheduledQueue = q.writeScheduledQueue
  buffer : q'.writeBufferQueue = q.writeBufferQueue

theorem Sound.markNextSendingBatchAsSent {write : List Nat}
    {foreachRequest : RequestContextQueue → Nat → RequestContextQueue}
    {process : RequestContext → RequestContext}
    (each : ∀ (q : RequestContextQueue) (a : Nat) (ctx : RequestContext), q.context a = some ctx.sent → ctx.state = .writeSending →
      q.Treats (foreachRequest q a) a (process ctx))
    (sound : q.Sound nothing (write :: batches)) (nonempty : write ≠ []) :
    q.Finishes (markNextSendingBatchAsSent foreachRequest q.writeSendingQueue q) write batches
      process := by
  induction write generalizing q with
  | nil => exact absurd rfl nonempty
  | cons a batch ih =>
    by_cases live : q.state a = some .writeSending
    · obtain ⟨ctx, known, sending⟩ := Option.map_eq_some_iff.mp live
      have alive : q.isSending a = true := by
        rw [isSending, live]
        rfl
      obtain ⟨rest, queue⟩ : ∃ rest, q.writeSendingQueue = ⟨some a, batch.isEmpty⟩ :: rest := by
        rw [sound.batched.sending, List.flatMap_cons, Marked.entries_cons alive]
        exact ⟨_, rfl⟩
      have moved := sound.moveToSent known sending
      rw [queue, List.tail_cons] at moved
      have context (id : Nat) : (q.moveToSent a rest).context id =
          if id = a then some ctx.sent else q.context id := context_of_known rfl known id
      have treats := each (q.moveToSent a rest) a ctx (by rw [context, if_pos rfl]) sending
      have treated (id : Nat) (apart : id ≠ a) :
          (foreachRequest (q.moveToSent a rest) a).context id = q.context id := by
        rw [treats.context, if_neg apart, context, if_neg apart]
      have done : (foreachRequest (q.moveToSent a rest) a).context a = some (process ctx) := by
        rw [treats.context, if_pos rfl]
      have now := treats.sound _ moved
      rw [queue, RequestContextQueue.markNextSendingBatchAsSent]
      cases batch with
      | nil =>
        refine ⟨⟨now.kept, now.batched.sending, now.batched.nodup, now.batched.written⟩,
          fun id => ?_, treats.scheduled, treats.buffer⟩
        by_cases this : id = a
        · rw [this, if_pos ⟨List.mem_singleton_self a, live⟩, known]
          exact done
        · rw [if_neg fun both => this (List.mem_singleton.mp both.1)]
          exact treated id this
      | cons b batch =>
        have later := ih now (List.cons_ne_nil b batch)
        rw [treats.sending] at later
        refine ⟨later.sound, fun id => ?_, later.scheduled.trans treats.scheduled,
          later.buffer.trans treats.buffer⟩
        have fresh : a ∉ b :: batch := fun member =>
          (List.nodup_cons.mp sound.batched.nodup).1 (List.mem_append_left _ member)
        refine (later.context id).trans ?_
        by_cases this : id = a
        · rw [this, if_neg fun both => fresh both.1, if_pos ⟨List.mem_cons_self, live⟩, known]
          exact done
        · have members : id ∈ a :: b :: batch ↔ id ∈ b :: batch :=
            List.mem_cons.trans (or_iff_right this)
          rw [state, treated id this, ← state]
          simp only [members]
    · have gone : ¬q.isSending a = true := by simpa [isSending] using live
      have untouched (others : List Nat) (id : Nat) :
          (id ∈ a :: others ∧ q.state id = some .writeSending) ↔
            (id ∈ others ∧ q.state id = some .writeSending) := by
        rw [List.mem_cons]
        refine and_congr_left fun sending => or_iff_right ?_
        rintro rfl
        exact live sending
      cases batch with
      | nil =>
        have queue : q.writeSendingQueue =
            Marked.dummy :: batches.flatMap (Marked.entries q.isSending) := by
          rw [sound.batched.sending, List.flatMap_cons, Marked.entries, if_neg gone]
          rfl
        rw [queue, RequestContextQueue.markNextSendingBatchAsSent]
        refine ⟨⟨⟨?_, sound.kept.contexts, sound.kept.tracked, sound.kept.checked⟩, ?_⟩,
          fun id => ?_, rfl, rfl⟩
        · refine sound.kept.filed.congr (fun r id => ?_) fun id => rfl
          cases r <;> simp [RequestContextQueue.queue, queue, Marked.items, Marked.dummy]
        · refine sound.batched.dummy ?_ rfl live
          rw [queue]
          rfl
        · rw [if_neg fun both => absurd ((untouched [] id).mp both).1 List.not_mem_nil]
          rfl
      | cons b batch =>
        have later := ih ⟨sound.kept, sound.batched.skip live⟩ (List.cons_ne_nil b batch)
        refine ⟨later.sound, fun id => ?_, later.scheduled, later.buffer⟩
        rw [later.context]
        simp only [untouched]

end FbThrift.Rocket.RequestContextQueue
