import FbThrift.Lib.Filing
import FbThrift.Rocket.RequestContextQueue

/-!
# Where requests are

A request is in the queue that its state names, and the requests that the socket has are those
of its pending writes, in the same batches.  Each operation of the queues keeps both.
-/

namespace FbThrift.Rocket

/-- The queues in which a request waits. -/
inductive RequestPlace where
  | writeBuffer
  | writeScheduled
  | writeSending
  | writeSent
  deriving DecidableEq, Repr

/-- The queue that a state names. -/
def RequestState.place : RequestState → Option RequestPlace
  | .deferredInit => some .writeBuffer
  | .writeNotScheduled => some .writeBuffer
  | .writeScheduled => some .writeScheduled
  | .writeSending => some .writeSending
  | .writeSent => some .writeSent
  | .complete => none

/-- A request became complete once if it is complete, and its time runs from when it is sent. -/
structure RequestContext.Wf (ctx : RequestContext) : Prop where
  once : ctx.completions = if ctx.state = .complete then 1 else 0
  timeout : ctx.timeoutScheduled = true →
    ctx.state = .writeSending ∨ ctx.state = .writeSent ∨ ctx.state = .complete

namespace RequestContextQueue

/-- The requests in a queue, without the dummies. -/
def queue (q : RequestContextQueue) : RequestPlace → List Nat
  | .writeBuffer => q.writeBufferQueue.getD []
  | .writeScheduled => q.writeScheduledQueue
  | .writeSending => Marked.items q.writeSendingQueue
  | .writeSent => q.writeSentQueue

def place (q : RequestContextQueue) (id : Nat) : Option RequestPlace :=
  (q.context id).bind fun ctx => ctx.state.place

def isSending (q : RequestContextQueue) (id : Nat) : Bool := q.state id == some .writeSending

/-- The requests of one queue that were taken out together. -/
def only (r : RequestPlace) (ids : List Nat) (s : RequestPlace) : List Nat :=
  if s = r then ids else []

/-- Each request is in the queue that its state names, where requests that were taken out of
queues and are still to be treated count as in them, and the tracked ones are
request-responses that are not complete. -/
structure Kept (q : RequestContextQueue) (loose : RequestPlace → List Nat) : Prop where
  filed : Filed (fun r => loose r ++ q.queue r) q.place
  contexts : ∀ id ctx, q.context id = some ctx → ctx.Wf
  tracked : ∀ id ∈ q.requestResponseContexts,
    ∃ ctx, q.context id = some ctx ∧ ctx.isRequestResponse = true ∧
      ctx.state.place ≠ none ∧ ctx.state.place ≠ some .writeBuffer
  checked : q.checkFailed = false

/-- The sending queue consists of batches, from which requests were withdrawn that are complete
now. -/
structure Batched (q : RequestContextQueue) (batches : List (List Nat)) : Prop where
  sending : q.writeSendingQueue = batches.flatMap (Marked.entries q.isSending)
  nodup : batches.flatten.Nodup
  written : ∀ id ∈ batches.flatten, q.state id = some .writeSending ∨ q.state id = some .complete

variable {q q' : RequestContextQueue} {loose loose' : RequestPlace → List Nat}
  {batches : List (List Nat)} {a id : Nat} {ctx : RequestContext}
  {f : RequestContext → RequestContext}

/-! ## Changes of one request -/

@[simp] theorem only_self (r : RequestPlace) (ids : List Nat) : only r ids r = ids := if_pos rfl

theorem only_of_ne {r s : RequestPlace} (ids : List Nat) (ne : s ≠ r) : only r ids s = [] :=
  if_neg ne

theorem context_of_modify (contexts : q'.contexts = q.contexts.modify a f) (id : Nat) :
    q'.context id = if id = a then (q.context a).map f else q.context id := by
  unfold context
  rw [contexts, List.getElem?_modify]
  by_cases this : id = a
  · subst this
    simp
  · simp [this, Ne.symm this]

@[simp] theorem context_update (q : RequestContextQueue) (a : Nat)
    (f : RequestContext → RequestContext) (id : Nat) :
    (q.update a f).context id = if id = a then (q.context a).map f else q.context id :=
  context_of_modify rfl id

theorem context_update_self (known : q.context a = some ctx)
    (f : RequestContext → RequestContext) : (q.update a f).context a = some (f ctx) := by
  rw [context_update, if_pos rfl, known]
  rfl

theorem place_of_modify (contexts : q'.contexts = q.contexts.modify a f)
    (known : q.context a = some ctx) (id : Nat) :
    q'.place id = if id = a then (f ctx).state.place else q.place id := by
  unfold place
  rw [context_of_modify contexts]
  split
  · rw [known]
    rfl
  · rfl

theorem place_of_contexts (contexts : q'.contexts = q.contexts) : q'.place = q.place := by
  funext id
  unfold place context
  rw [contexts]

theorem place_eq (known : q.context a = some ctx) : q.place a = ctx.state.place := by
  rw [place, known]
  rfl

theorem Kept.move (kept : q.Kept loose) (known : q.context a = some ctx)
    (contexts : q'.contexts = q.contexts.modify a f) (wf : (f ctx).Wf)
    (queues : ∀ r, loose' r ++ q'.queue r =
      (if ctx.state.place = some r then (loose r ++ q.queue r).erase a else loose r ++ q.queue r) ++
        if (f ctx).state.place = some r then [a] else [])
    (tracked : ∀ id ∈ q'.requestResponseContexts, id ∈ q.requestResponseContexts ∧
      (id = a → (f ctx).frameType = ctx.frameType ∧ (f ctx).state.place ≠ none ∧
        (f ctx).state.place ≠ some .writeBuffer))
    (checked : q'.checkFailed = q.checkFailed) : q'.Kept loose' where
  filed := by
    refine kept.filed.move (fun b => place_of_modify contexts known b) fun r => ?_
    rw [queues, place_eq known]
  contexts b other found := by
    rw [context_of_modify contexts, known] at found
    split at found
    · cases found
      exact wf
    · exact kept.contexts b other found
  tracked b member := by
    obtain ⟨member, same⟩ := tracked b member
    obtain ⟨other, found, rr, live⟩ := kept.tracked b member
    rw [context_of_modify contexts]
    by_cases this : b = a
    · subst this
      obtain rfl := Option.some.inj (found.symm.trans known)
      obtain ⟨frameType, live⟩ := same rfl
      refine ⟨f other, by rw [if_pos rfl, known]; rfl, ?_, live⟩
      rw [RequestContext.isRequestResponse, frameType]
      exact rr
    · exact ⟨other, by rw [if_neg this]; exact found, rr, live⟩
  checked := checked.trans kept.checked

/-- A request stays where it is, and its type changes only while it is buffered. -/
theorem Kept.adjust (kept : q.Kept loose)
    (place : ∀ ctx, q.context a = some ctx → (f ctx).state.place = ctx.state.place)
    (wf : ∀ ctx, q.context a = some ctx → ctx.Wf → (f ctx).Wf)
    (frameType : ∀ ctx, q.context a = some ctx →
      (f ctx).frameType = ctx.frameType ∨ ctx.state.place = some .writeBuffer) :
    (q.update a f).Kept loose where
  filed := by
    refine kept.filed.congr (fun _ _ => rfl) fun b => ?_
    rw [RequestContextQueue.place, context_update]
    split
    · rename_i this
      subst this
      rw [RequestContextQueue.place]
      cases known : q.context b with
      | none => rfl
      | some ctx => exact place ctx known
    · rfl
  contexts b other found := by
    rw [context_update] at found
    split at found
    · obtain ⟨ctx, known, rfl⟩ := Option.map_eq_some_iff.mp found
      exact wf ctx known (kept.contexts a ctx known)
    · exact kept.contexts b other found
  tracked b member := by
    obtain ⟨ctx, found, rr, live⟩ := kept.tracked b member
    rw [context_update]
    split
    · rename_i this
      subst this
      refine ⟨f ctx, by rw [found]; rfl, ?_, by rw [place ctx found]; exact live⟩
      rw [RequestContext.isRequestResponse, (frameType ctx found).resolve_right live.2]
      exact rr
    · exact ⟨ctx, found, rr, live⟩
  checked := kept.checked

/-! ## Tracking -/

theorem contexts_untrack (q : RequestContextQueue) (id : Nat) :
    (q.untrackIfRequestResponse id).contexts = q.contexts := by
  unfold untrackIfRequestResponse
  split <;> rfl

/-- Nothing but what is tracked changes. -/
theorem untrack_eq (q : RequestContextQueue) (id : Nat) : q.untrackIfRequestResponse id =
      { q with
        requestResponseContexts := (q.untrackIfRequestResponse id).requestResponseContexts } := by
  unfold untrackIfRequestResponse
  split <;> rfl

theorem untrack_subset (q : RequestContextQueue) (a : Nat) :
    ∀ id ∈ (q.untrackIfRequestResponse a).requestResponseContexts,
      id ∈ q.requestResponseContexts := by
  unfold untrackIfRequestResponse
  split
  · exact fun id member => List.mem_of_mem_filter member
  · exact fun id member => member

theorem Kept.notMem_untrack (kept : q.Kept loose) (a : Nat) :
    a ∉ (q.untrackIfRequestResponse a).requestResponseContexts := by
  intro member
  obtain ⟨ctx, found, rr, -⟩ := kept.tracked a (untrack_subset q a a member)
  have tracked : q.isRequestResponse a = true := by
    rw [isRequestResponse, found]
    exact rr
  rw [untrackIfRequestResponse, if_pos tracked] at member
  have apart := (List.mem_filter.mp member).2
  simp at apart

/-! ## Batches -/

theorem isSending_of_state (same : ∀ id, id ≠ a → q'.state id = q.state id)
    (before : q.state a ≠ some .writeSending) (after : q'.state a ≠ some .writeSending) :
    q'.isSending = q.isSending := by
  funext id
  unfold isSending
  by_cases this : id = a
  · subst this
    simp [before, after]
  · rw [same id this]

/-- A request that the socket does not have changes its state. -/
theorem Batched.other (batched : q.Batched batches)
    (sending : q'.writeSendingQueue = q.writeSendingQueue)
    (same : ∀ id, id ≠ a → q'.state id = q.state id)
    (before : q.state a ≠ some .writeSending)
    (after : q'.state a ≠ some .writeSending)
    (gone : q.state a = some .complete → q'.state a = some .complete) : q'.Batched batches where
  sending := by
    rw [sending, isSending_of_state same before after]
    exact batched.sending
  nodup := batched.nodup
  written id member := by
    by_cases this : id = a
    · subst this
      exact .inr (gone ((batched.written id member).resolve_left before))
    · rw [same id this]
      exact batched.written id member

theorem Batched.of_state (batched : q.Batched batches)
    (sending : q'.writeSendingQueue = q.writeSendingQueue) (same : q'.state = q.state) :
    q'.Batched batches where
  sending := by
    rw [sending, show q'.isSending = q.isSending by funext id; rw [isSending, isSending, same]]
    exact batched.sending
  nodup := batched.nodup
  written id member := by
    rw [same]
    exact batched.written id member

/-- A request that the socket has is withdrawn. -/
theorem Batched.withdraw (batched : q.Batched batches)
    (sending : q'.writeSendingQueue = Marked.withdraw a q.writeSendingQueue)
    (same : ∀ id, id ≠ a → q'.state id = q.state id)
    (listed : a ∈ Marked.items q.writeSendingQueue) (after : q'.state a = some .complete) :
    q'.Batched batches where
  sending := by
    rw [batched.sending, Marked.items_batches] at listed
    obtain ⟨member, alive⟩ := List.mem_filter.mp listed
    have live : q'.isSending = fun b => q.isSending b && b != a := by
      funext b
      by_cases this : b = a
      · subst this
        simp [isSending, after]
      · simp [isSending, same b this, this]
    rw [sending, batched.sending, Marked.withdraw_batches batched.nodup member alive, live]
  nodup := batched.nodup
  written id member := by
    by_cases this : id = a
    · exact .inr (this ▸ after)
    · rw [same id this]
      exact batched.written id member

theorem Batched.sent {batch : List Nat}
    (batched : q.Batched ((a :: batch) :: batches)) (before : q.state a = some .writeSending)
    (sending : q'.writeSendingQueue = q.writeSendingQueue.tail)
    (same : ∀ id, id ≠ a → q'.state id = q.state id) : q'.Batched (batch :: batches) where
  sending := by
    have alive : q.isSending a = true := by simp [isSending, before]
    have fresh : a ∉ (batch :: batches).flatten := (List.nodup_cons.mp batched.nodup).1
    have live (id : Nat) (member : id ∈ (batch :: batches).flatten) :
        q.isSending id = q'.isSending id := by
      have apart : id ≠ a := fun eq => fresh (eq ▸ member)
      rw [isSending, isSending, same id apart]
    rw [sending, batched.sending, ← Marked.batches_congr live]
    cases batch <;> simp [Marked.entries, alive]
  nodup := (List.nodup_cons.mp batched.nodup).2
  written id member := by
    have fresh : a ∉ (batch :: batches).flatten := (List.nodup_cons.mp batched.nodup).1
    rw [same id fun eq => fresh (eq ▸ member)]
    exact batched.written id (List.mem_cons_of_mem a member)

/-- The first request of a batch was withdrawn, and others are to come. -/
theorem Batched.skip {batch : List Nat} {b : Nat}
    (batched : q.Batched ((a :: b :: batch) :: batches))
    (gone : q.state a ≠ some .writeSending) : q.Batched ((b :: batch) :: batches) where
  sending := by
    have dead : q.isSending a = false := by simp [isSending, gone]
    rw [batched.sending]
    simp [Marked.entries, dead]
  nodup := (List.nodup_cons.mp batched.nodup).2
  written id member := batched.written id (List.mem_cons_of_mem a member)

/-- The last request of a batch was withdrawn. -/
theorem Batched.dummy (batched : q.Batched ([a] :: batches))
    (sending : q'.writeSendingQueue = q.writeSendingQueue.tail) (same : q'.state = q.state)
    (gone : q.state a ≠ some .writeSending) : q'.Batched batches where
  sending := by
    have dead : q.isSending a = false := by simp [isSending, gone]
    rw [sending, batched.sending, show q'.isSending = q.isSending by
      funext id; rw [isSending, isSending, same]]
    simp [Marked.entries, dead]
  nodup := (List.nodup_cons.mp batched.nodup).2
  written id member := by
    rw [same]
    exact batched.written id (List.mem_cons_of_mem a member)

theorem Batched.concat {write : List Nat} (batched : q.Batched batches)
    (sending : q'.writeSendingQueue = q.writeSendingQueue ++ Marked.entries (fun _ => true) write)
    (scheduled : ∀ id ∈ write, q.state id = some .writeScheduled) (nodup : write.Nodup)
    (state : ∀ id, q'.state id = if id ∈ write then some .writeSending else q.state id) :
    q'.Batched (batches ++ [write]) where
  sending := by
    have old (id : Nat) (member : id ∈ batches.flatten) : q.isSending id = q'.isSending id := by
      have apart : id ∉ write := by
        intro other
        rcases batched.written id member with before | before <;>
          · rw [scheduled id other] at before
            cases before
      rw [isSending, isSending, state, if_neg apart]
    have new (id : Nat) (member : id ∈ write) : true = q'.isSending id := by
      rw [isSending, state, if_pos member]
      rfl
    rw [sending, batched.sending, List.flatMap_append, Marked.batches_congr old,
      Marked.entries_congr new, List.flatMap_singleton]
  nodup := by
    rw [List.flatten_append, List.nodup_append']
    refine ⟨batched.nodup, by simpa using nodup, ?_⟩
    intro id member other
    rw [List.flatten_singleton] at other
    rcases batched.written id member with before | before <;>
      · rw [scheduled id other] at before
        cases before
  written id member := by
    rw [state]
    split
    · exact .inl rfl
    · rename_i apart
      rw [List.flatten_append, List.flatten_singleton, List.mem_append] at member
      exact batched.written id (member.resolve_right apart)

end RequestContextQueue

end FbThrift.Rocket
