import FbThrift.Lib.Run
import FbThrift.Rocket.WriteBatcher

/-!
# Accounting for the writes of a server connection

A connection has an entry in a queue for every write that the socket has not finished.  A
request that is complete is reported to the handler when the writes before it are done: the
report waits in the batch, in the last entry of the queue, or not at all.
-/

namespace FbThrift.Rocket

/-- A buffer as it is sent. -/
structure Message where
  data : Bytes
  cb : Option Nat
  fds : SocketFds
  deriving DecidableEq, Repr

/-- The bytes of a message, with its file descriptors if it has some. -/
def Message.parcel (message : Message) : SocketWrite :=
  ⟨message.data, if message.fds = [] then none else some message.fds⟩

/-- What the application, the socket and the handler have seen of a connection. -/
structure WriteHistory where
  sent : List Message
  /-- For each call of `requestComplete`, how many bytes were sent before. -/
  requestCompletes : List Nat
  /-- How many of them the handler has been told. -/
  forwarded : Nat
  finished : List SocketWrite
  /-- The send callbacks that have fired, with `messageSent` or with an error. -/
  fired : List (Nat × Bool)
  deriving DecidableEq, Repr

structure ServerWrites where
  writeBatcher : WriteBatcher
  /-- The writes of a running flush that the socket does not have yet. -/
  flushing : List (SocketWrite × WriteBatchContext)
  inflightWritesQueue : List WriteBatchContext
  /-- The writes that the socket has not finished. -/
  pending : List SocketWrite
  history : WriteHistory
  deriving DecidableEq, Repr

inductive WriteEvent where
  | send (message : Message) (hasObservers : Bool)
  | requestComplete
  | runLoopCallback
  | timeoutExpired
  | drain
  /-- A running flush goes on with its next write. -/
  | writeNext
  | writeSuccess
  | writeErr
  deriving DecidableEq, Repr

namespace ServerWrites

def init : ServerWrites := ⟨.init, [], [], [], ⟨[], [], 0, [], []⟩⟩

/-- Each write to the socket is preceded by its entry in the queue. -/
def writeChain (c : ServerWrites) : ServerWrites :=
  match c.flushing with
  | [] => c
  | (write, context) :: flushing =>
    { c with
      flushing := flushing
      inflightWritesQueue := c.inflightWritesQueue ++ [context]
      pending := c.pending ++ [write] }

def flushPendingWrites (c : ServerWrites) : ServerWrites :=
  writeChain
    { c with
      writeBatcher := c.writeBatcher.flushed
      flushing := c.writeBatcher.flushPendingWrites ++ c.flushing }

def drain (c : ServerWrites) : ServerWrites :=
  if c.writeBatcher.isEmpty then c else c.flushPendingWrites

def send (config : WriteBatcherConfig) (c : ServerWrites) (message : Message)
    (hasObservers : Bool) : ServerWrites :=
  { c with
    writeBatcher :=
      c.writeBatcher.enqueueWrite config message.data message.cb message.fds hasObservers
    history := { c.history with sent := c.history.sent ++ [message] } }

def sentParcels (c : ServerWrites) : List SocketWrite := c.history.sent.map Message.parcel

/-- How many bytes were sent. -/
def sentBytes (c : ServerWrites) : Nat :=
  (Parcel.joined c.sentParcels).length

/-- One more request is complete in the last entry. -/
def completeInLast : List WriteBatchContext → List WriteBatchContext
  | [] => []
  | [last] => [{ last with requestCompleteCount := last.requestCompleteCount + 1 }]
  | first :: second :: rest => first :: completeInLast (second :: rest)

def requestComplete (c : ServerWrites) : ServerWrites :=
  let history :=
    { c.history with requestCompletes := c.history.requestCompletes ++ [c.sentBytes] }
  if !c.writeBatcher.isEmpty then
    { c with writeBatcher := c.writeBatcher.enqueueRequestComplete, history := history }
  else if !c.inflightWritesQueue.isEmpty then
    { c with
      inflightWritesQueue := completeInLast c.inflightWritesQueue
      history := history }
  else { c with history := { history with forwarded := history.forwarded + 1 } }

/-- The first entry is that of the write which the socket has finished: the handler is told of
its requests, and its callbacks fire. -/
def writeDone (c : ServerWrites) (success : Bool) : ServerWrites :=
  match c.pending, c.inflightWritesQueue with
  | write :: pending, context :: inflightWritesQueue =>
    { c with
      pending := pending
      inflightWritesQueue := inflightWritesQueue
      history :=
        { c.history with
          forwarded := c.history.forwarded + context.requestCompleteCount
          finished := c.history.finished ++ [write]
          fired := c.history.fired ++ context.sendCallbacks.map fun cb => (cb, success) } }
  | _, _ => c

def step (config : WriteBatcherConfig) (c : ServerWrites) : WriteEvent → ServerWrites
  | .send message hasObservers => c.send config message hasObservers
  | .requestComplete => c.requestComplete
  | .runLoopCallback => c.flushPendingWrites
  | .timeoutExpired => c.flushPendingWrites
  | .drain => c.drain
  | .writeNext => c.writeChain
  | .writeSuccess => c.writeDone true
  | .writeErr => c.writeDone false

/-- File descriptors are not sent with empty data, the event base calls back what is scheduled,
and the socket answers for writes that it has. -/
def Allowed (c : ServerWrites) : WriteEvent → Prop
  | .send message _ => message.fds ≠ [] → message.data ≠ []
  | .requestComplete => True
  | .runLoopCallback => c.writeBatcher.scheduled = .loop
  | .timeoutExpired => c.writeBatcher.scheduled = .timeout
  | .drain => True
  | .writeNext => c.flushing ≠ []
  | .writeSuccess => c.pending ≠ []
  | .writeErr => c.pending ≠ []

instance (c : ServerWrites) (event : WriteEvent) : Decidable (c.Allowed event) := by
  cases event <;> unfold Allowed <;> infer_instance

/-! ## What is to be accounted for -/

/-- The writes given to the socket, finished or not. -/
def written (c : ServerWrites) : List SocketWrite := c.history.finished ++ c.pending

/-- The bytes given to the socket are those that were sent, and each set of file descriptors is
with the write that ends where its message ends.  There is an entry for every pending write,
each callback fires at most once, and the handler is told of a request after all the bytes that
were sent before are done.  When nothing is left to write, nothing is left to tell. -/
structure Accounted (c : ServerWrites) : Prop where
  bytes : Parcel.joined c.written <+: Parcel.joined c.sentParcels
  fds : Parcel.marks 0 c.written <+: Parcel.marks 0 c.sentParcels
  entries : c.inflightWritesQueue.length = c.pending.length
  callbacks : c.history.fired.map Prod.fst <+: c.history.sent.filterMap Message.cb
  forwarded : c.history.forwarded ≤ c.history.requestCompletes.length
  notBefore : ∀ sentBefore ∈ c.history.requestCompletes.take c.history.forwarded,
    sentBefore ≤ (Parcel.joined c.history.finished).length
  scheduled : c.writeBatcher.isEmpty = false → c.writeBatcher.scheduled ≠ .none
  all : c.writeBatcher.isEmpty = true → c.flushing = [] → c.pending = [] →
    Parcel.joined c.written = Parcel.joined c.sentParcels ∧
      Parcel.marks 0 c.written = Parcel.marks 0 c.sentParcels ∧
      c.history.fired.map Prod.fst = c.history.sent.filterMap Message.cb ∧
      c.history.forwarded = c.history.requestCompletes.length

/-- While the socket does not have all the writes of a flush, no other flush begins, and no
request is complete unless there is a new batch. -/
def Clean (c : ServerWrites) : WriteEvent → Prop
  | .requestComplete => c.flushing = [] ∨ c.writeBatcher.isEmpty = false
  | .runLoopCallback => c.flushing = []
  | .timeoutExpired => c.flushing = []
  | .drain => c.flushing = [] ∨ c.writeBatcher.isEmpty = true
  | _ => True

instance (c : ServerWrites) (event : WriteEvent) : Decidable (c.Clean event) := by
  cases event <;> unfold Clean <;> infer_instance

/-! ## The invariant -/

/-- The writes that are not finished, each with its entry. -/
def outstanding (c : ServerWrites) : List (SocketWrite × WriteBatchContext) :=
  c.pending.zip c.inflightWritesQueue ++ c.flushing

/-- The requests that wait in the entries of writes. -/
def tokens (slots : List (SocketWrite × WriteBatchContext)) : List (SocketWrite × Nat) :=
  slots.map fun slot => (slot.1, slot.2.requestCompleteCount)

/-- Everything that was sent is finished, outstanding or in the batch, and every request that is
complete was told or waits with a write that ends no earlier than what was sent before it. -/
structure Kept (c : ServerWrites) : Prop where
  wf : c.writeBatcher.Wf
  entries : c.inflightWritesQueue.length = c.pending.length
  bytes : Parcel.joined (c.history.finished ++ c.outstanding.map Prod.fst) ++
    c.writeBatcher.buffered = Parcel.joined c.sentParcels
  fds : Parcel.marks 0 (c.history.finished ++ c.outstanding.map Prod.fst) ++
    Parcel.shift (Parcel.joined (c.history.finished ++ c.outstanding.map Prod.fst)).length
      c.writeBatcher.fdsAndOffsets = Parcel.marks 0 c.sentParcels
  callbacks : c.history.fired.map Prod.fst ++
    (c.outstanding.flatMap (fun slot => slot.2.sendCallbacks) ++
      c.writeBatcher.bufferedWritesContext.sendCallbacks) = c.history.sent.filterMap Message.cb
  forwarded : c.history.forwarded ≤ c.history.requestCompletes.length
  notBefore : ∀ sentBefore ∈ c.history.requestCompletes.take c.history.forwarded,
    sentBefore ≤ (Parcel.joined c.history.finished).length
  parked : List.Forall₂ (· ≤ ·) (c.history.requestCompletes.drop c.history.forwarded)
    (Parcel.bounds (Parcel.joined c.history.finished).length (tokens c.outstanding) ++
      List.replicate c.writeBatcher.bufferedWritesContext.requestCompleteCount c.sentBytes)

variable {c : ServerWrites}

@[simp] theorem map_fst_tokens (slots : List (SocketWrite × WriteBatchContext)) :
    (tokens slots).map Prod.fst = slots.map Prod.fst := by
  simp [tokens]

theorem kept_init : init.Kept where
  wf := WriteBatcher.wf_init
  entries := rfl
  bytes := rfl
  fds := rfl
  callbacks := rfl
  forwarded := Nat.le_refl 0
  notBefore _ member := nomatch member
  parked := .nil

/-- The pending writes come first among those that are outstanding. -/
theorem Kept.outstanding_eq (kept : c.Kept) :
    c.outstanding.map Prod.fst = c.pending ++ c.flushing.map Prod.fst := by
  rw [outstanding, List.map_append, List.map_fst_zip (Nat.le_of_eq kept.entries.symm)]

theorem Kept.accounted (kept : c.Kept) : c.Accounted := by
  have split : c.history.finished ++ c.outstanding.map Prod.fst =
      c.written ++ c.flushing.map Prod.fst := by
    rw [kept.outstanding_eq, written, List.append_assoc]
  have bytes := kept.bytes
  have fds := kept.fds
  rw [split, Parcel.joined_append, List.append_assoc] at bytes
  rw [split, Parcel.marks_append, List.append_assoc] at fds
  refine ⟨⟨_, bytes⟩, ⟨_, fds⟩, kept.entries, ⟨_, kept.callbacks⟩, kept.forwarded,
    kept.notBefore, ?_, ?_⟩
  · intro waiting
    exact kept.wf.scheduled (WriteBatcher.isEmpty_eq_false.mp waiting)
  · intro empty idle nothing
    have batch := kept.wf.eq_init empty
    have none : c.outstanding = [] := by simp [outstanding, idle, nothing]
    have callbacks := kept.callbacks
    have parked := kept.parked
    rw [batch, idle] at bytes fds
    rw [batch, none] at callbacks parked
    refine ⟨by simpa using bytes, by simpa using fds,
      by simpa [WriteBatchContext.empty] using callbacks, ?_⟩
    have short := List.drop_eq_nil_iff.mp (List.forall₂_nil_right_iff.mp parked)
    exact Nat.le_antisymm kept.forwarded short

/-! ## Steps -/

theorem parcel_marks (start : Nat) (message : Message) : Parcel.marks start [message.parcel] =
      if message.fds = [] then [] else [(message.fds, start + message.data.length)] := by
  simp only [Message.parcel, Parcel.marks]
  split <;> rfl

/-- What was sent stands at the end of the batch. -/
theorem Kept.send (kept : c.Kept) (config : WriteBatcherConfig) (message : Message)
    (hasObservers : Bool) (whole : message.fds ≠ [] → message.data ≠ []) :
    (c.send config message hasObservers).Kept := by
  have parcels : (c.send config message hasObservers).sentParcels =
      c.sentParcels ++ [message.parcel] := by
    simp [sentParcels, ServerWrites.send]
  have more : Parcel.joined (c.sentParcels ++ [message.parcel]) =
      Parcel.joined c.sentParcels ++ message.data := by
    simp [Message.parcel]
  have length := congrArg List.length kept.bytes
  rw [List.length_append] at length
  have marks : Parcel.marks 0 (c.sentParcels ++ [message.parcel]) = Parcel.marks 0 c.sentParcels ++
        Parcel.marks (0 + (Parcel.joined c.sentParcels).length) [message.parcel] :=
    Parcel.marks_append 0
  refine ⟨kept.wf.enqueueWrite config _ _ _ _ whole, kept.entries, ?_, ?_, ?_, kept.forwarded,
    kept.notBefore, ?_⟩
  · rw [parcels, more, ← kept.bytes, List.append_assoc]
    exact congrArg _ (WriteBatcher.buffered_enqueueWrite config _ _ _ _ _)
  · rw [parcels, marks, ← kept.fds, parcel_marks, Nat.zero_add, ← length]
    simp only [ServerWrites.send, WriteBatcher.fdsAndOffsets_enqueueWrite, Parcel.shift_append,
      List.append_assoc, List.length_append, Nat.add_assoc]
    split <;> rfl
  · have sent : (c.history.sent ++ [message]).filterMap Message.cb =
        c.history.sent.filterMap Message.cb ++ message.cb.toList := by
      cases cb : message.cb <;> simp [cb]
    simp only [ServerWrites.send, WriteBatcher.bufferedWritesContext_enqueueWrite, sent,
      ← kept.callbacks, List.append_assoc]
    rfl
  · have grown : c.sentBytes ≤ (c.send config message hasObservers).sentBytes := by
      rw [sentBytes, sentBytes, parcels, more, List.length_append]
      exact Nat.le_add_right _ _
    have parked := Parcel.forall₂_later kept.parked grown
    simp only [ServerWrites.send, WriteBatcher.bufferedWritesContext_enqueueWrite] at parked ⊢
    exact parked

/-- The outstanding writes are the same when the socket gets one more of them. -/
theorem outstanding_writeChain (entries : c.inflightWritesQueue.length = c.pending.length) :
    c.writeChain.outstanding = c.outstanding := by
  rw [ServerWrites.writeChain]
  split
  next => rfl
  next write context flushing more =>
    simp [outstanding, List.zip_append entries.symm, more]

theorem Kept.writeChain (kept : c.Kept) : c.writeChain.Kept := by
  have same := outstanding_writeChain kept.entries
  have history : c.writeChain.history = c.history := by
    rw [ServerWrites.writeChain]
    split <;> rfl
  have batch : c.writeChain.writeBatcher = c.writeBatcher := by
    rw [ServerWrites.writeChain]
    split <;> rfl
  have parcels : c.writeChain.sentParcels = c.sentParcels := by
    rw [sentParcels, sentParcels, history]
  have bytes : c.writeChain.sentBytes = c.sentBytes := by
    rw [sentBytes, sentBytes, parcels]
  refine ⟨?_, ?_, ?_, ?_, ?_, ?_, ?_, ?_⟩
  · rw [batch]; exact kept.wf
  · rw [ServerWrites.writeChain]
    split
    next => exact kept.entries
    next => simp [kept.entries]
  · rw [history, same, batch, parcels]; exact kept.bytes
  · rw [history, same, batch, parcels]; exact kept.fds
  · rw [history, same, batch]; exact kept.callbacks
  · rw [history]; exact kept.forwarded
  · rw [history]; exact kept.notBefore
  · rw [history, same, batch, bytes]; exact kept.parked

theorem callbacks_flushPendingWrites (b : WriteBatcher) :
    b.flushPendingWrites.flatMap (fun slot => slot.2.sendCallbacks) =
      b.bufferedWritesContext.sendCallbacks := by
  obtain ⟨front, write, split, dummies⟩ := b.flushPendingWrites_last
  have none : front.flatMap (fun slot => slot.2.sendCallbacks) = [] := by
    rw [List.flatMap_eq_nil_iff]
    intro slot member
    rw [dummies slot member]
    rfl
  rw [split, List.flatMap_append, none, List.nil_append, List.flatMap_singleton]

theorem bounds_flushPendingWrites {b : WriteBatcher} (wf : b.Wf) (start : Nat) :
    Parcel.bounds start (tokens b.flushPendingWrites) =
      List.replicate b.bufferedWritesContext.requestCompleteCount (start + b.buffered.length) := by
  have joined := WriteBatcher.joined_flushPendingWrites wf
  obtain ⟨front, write, split, dummies⟩ := b.flushPendingWrites_last
  have none : ∀ slot ∈ tokens front, slot.2 = 0 := by
    intro slot member
    obtain ⟨old, inFront, rfl⟩ := List.mem_map.mp member
    rw [dummies old inFront]
    rfl
  have last := Parcel.bounds_last start b.bufferedWritesContext.requestCompleteCount write none
  rw [split] at joined ⊢
  rw [← joined, List.map_append, Parcel.joined_append, List.map_singleton, Parcel.joined_cons,
    Parcel.joined_nil, List.append_nil, ← map_fst_tokens front, ← last, tokens, tokens,
    List.map_append]
  rfl

/-- The writes of the batch come behind the outstanding ones. -/
theorem Kept.flushPendingWrites (kept : c.Kept) (idle : c.flushing = []) :
    c.flushPendingWrites.Kept := by
  apply Kept.writeChain
  have same : outstanding { c with
        writeBatcher := c.writeBatcher.flushed
        flushing := c.writeBatcher.flushPendingWrites ++ c.flushing } =
      c.outstanding ++ c.writeBatcher.flushPendingWrites := by
    simp [outstanding, idle]
  have joined := WriteBatcher.joined_flushPendingWrites kept.wf
  refine ⟨WriteBatcher.wf_init, kept.entries, ?_, ?_, ?_, kept.forwarded, kept.notBefore, ?_⟩
  · rw [same, List.map_append, ← List.append_assoc, Parcel.joined_append, joined]
    exact (List.append_nil _).trans kept.bytes
  · have split : Parcel.marks 0 (c.history.finished ++ c.outstanding.map Prod.fst ++
          c.writeBatcher.flushPendingWrites.map Prod.fst) =
        Parcel.marks 0 (c.history.finished ++ c.outstanding.map Prod.fst) ++
          Parcel.marks (0 + (Parcel.joined
              (c.history.finished ++ c.outstanding.map Prod.fst)).length)
            (c.writeBatcher.flushPendingWrites.map Prod.fst) :=
      Parcel.marks_append 0
    rw [same, List.map_append, ← List.append_assoc, split, Nat.zero_add, ← Nat.add_zero
      (Parcel.joined (c.history.finished ++ c.outstanding.map Prod.fst)).length,
      Parcel.marks_add, WriteBatcher.marks_flushPendingWrites kept.wf]
    exact (List.append_nil _).trans kept.fds
  · rw [same, List.flatMap_append, callbacks_flushPendingWrites]
    exact (congrArg _ (List.append_nil _)).trans kept.callbacks
  · have length := congrArg List.length kept.bytes
    rw [List.length_append, Parcel.joined_append, List.length_append] at length
    have bounds : Parcel.bounds (Parcel.joined c.history.finished).length
          (tokens (c.outstanding ++ c.writeBatcher.flushPendingWrites)) =
        Parcel.bounds (Parcel.joined c.history.finished).length (tokens c.outstanding) ++
          List.replicate c.writeBatcher.bufferedWritesContext.requestCompleteCount c.sentBytes := by
      rw [tokens, List.map_append, Parcel.bounds_append]
      exact congrArg _ ((bounds_flushPendingWrites kept.wf _).trans
        (by rw [← tokens, map_fst_tokens, length]; rfl))
    rw [same, bounds]
    exact (List.append_nil _).symm ▸ kept.parked

theorem completeInLast_concat (front : List WriteBatchContext) (last : WriteBatchContext) :
    ServerWrites.completeInLast (front ++ [last]) =
      front ++ [{ last with requestCompleteCount := last.requestCompleteCount + 1 }] := by
  induction front with
  | nil => rfl
  | cons first front ih =>
    cases front with
    | nil => rfl
    | cons second front => exact congrArg (List.cons first) ih

theorem Kept.completeInLast (kept : c.Kept) (idle : c.flushing = [])
    (batch : c.writeBatcher = .init) (waiting : c.inflightWritesQueue ≠ []) :
    Kept { c with
      inflightWritesQueue := ServerWrites.completeInLast c.inflightWritesQueue
      history :=
        { c.history with requestCompletes := c.history.requestCompletes ++ [c.sentBytes] } } := by
  obtain ⟨front, last, inflight⟩ := (List.eq_nil_or_concat' _).resolve_left waiting
  obtain ⟨before, write, pending⟩ := (List.eq_nil_or_concat' c.pending).resolve_left (by
    intro none
    exact waiting (List.length_eq_zero_iff.mp (by rw [kept.entries, none]; rfl)))
  have lengths : before.length = front.length := by
    have entries := kept.entries
    rw [inflight, pending, List.length_append, List.length_append] at entries
    simpa using entries.symm
  have old : c.outstanding = before.zip front ++ [(write, last)] := by
    rw [outstanding, inflight, pending, idle, List.append_nil, List.zip_append lengths]
    rfl
  have new : c.pending.zip (ServerWrites.completeInLast c.inflightWritesQueue) ++ c.flushing =
      before.zip front ++
        [(write, { last with requestCompleteCount := last.requestCompleteCount + 1 })] := by
    rw [inflight, completeInLast_concat, pending, idle, List.append_nil, List.zip_append lengths]
    rfl
  have bytes := kept.bytes
  have fds := kept.fds
  have callbacks := kept.callbacks
  have parked := kept.parked
  rw [old] at bytes fds callbacks parked
  refine ⟨kept.wf, ?_, ?_, ?_, ?_, ?_, ?_, ?_⟩
  · rw [← kept.entries, inflight, completeInLast_concat]
    simp
  · rw [outstanding, new]
    simpa [sentParcels] using bytes
  · rw [outstanding, new]
    simpa [sentParcels] using fds
  · rw [outstanding, new]
    simpa using callbacks
  · rw [List.length_append]
    exact Nat.le_trans kept.forwarded (Nat.le_add_right _ _)
  · exact (List.take_append_of_le_length kept.forwarded).symm ▸ kept.notBefore
  · have sent : c.sentBytes = (Parcel.joined c.history.finished).length +
        (Parcel.joined ((tokens (before.zip front)).map Prod.fst) ++ write.contents).length := by
      rw [sentBytes, ← bytes, batch, map_fst_tokens, ← List.length_append]
      simp
    have split (context : WriteBatchContext) : tokens (before.zip front ++ [(write, context)]) =
        tokens (before.zip front) ++ [(write, context.requestCompleteCount)] :=
      List.map_append
    rw [split, batch, WriteBatcher.bufferedWritesContext_init] at parked
    have more := Parcel.forall₂_concat ((List.append_nil _) ▸ parked) c.sentBytes
    rw [sent, ← Parcel.bounds_concat_succ, ← sent,
      ← List.drop_append_of_le_length kept.forwarded] at more
    have parked : List.Forall₂ (· ≤ ·)
        ((c.history.requestCompletes ++ [c.sentBytes]).drop c.history.forwarded)
        (Parcel.bounds (Parcel.joined c.history.finished).length
          (tokens (c.pending.zip (ServerWrites.completeInLast c.inflightWritesQueue) ++
            c.flushing)) ++
          List.replicate c.writeBatcher.bufferedWritesContext.requestCompleteCount
            c.sentBytes) := by
      rw [new, split, batch]
      exact (List.append_nil _).symm ▸ more
    exact parked

/-- A request waits with all that was sent before it. -/
theorem Kept.requestComplete (kept : c.Kept)
    (clean : c.flushing = [] ∨ c.writeBatcher.isEmpty = false) : c.requestComplete.Kept := by
  have more : (c.history.requestCompletes ++ [c.sentBytes]).drop c.history.forwarded =
      c.history.requestCompletes.drop c.history.forwarded ++ [c.sentBytes] :=
    List.drop_append_of_le_length kept.forwarded
  have before : (c.history.requestCompletes ++ [c.sentBytes]).take c.history.forwarded =
      c.history.requestCompletes.take c.history.forwarded :=
    List.take_append_of_le_length kept.forwarded
  have longer : c.history.forwarded ≤ (c.history.requestCompletes ++ [c.sentBytes]).length := by
    rw [List.length_append]
    exact Nat.le_trans kept.forwarded (Nat.le_add_right _ _)
  simp only [ServerWrites.requestComplete]
  split
  next waiting =>
    have waiting : c.writeBatcher.isEmpty = false := by simpa using waiting
    refine ⟨kept.wf.enqueueRequestComplete waiting, kept.entries, kept.bytes, kept.fds,
      kept.callbacks, longer, before.symm ▸ kept.notBefore, ?_⟩
    have parked := Parcel.forall₂_concat kept.parked c.sentBytes
    rw [← more, List.append_assoc, ← List.replicate_succ'] at parked
    exact parked
  next empty =>
    have empty : c.writeBatcher.isEmpty = true := by simpa using empty
    have idle : c.flushing = [] := clean.resolve_right (by rw [empty]; simp)
    have batch := kept.wf.eq_init empty
    have bytes := kept.bytes
    have parked := kept.parked
    rw [batch, WriteBatcher.buffered_init, List.append_nil] at bytes
    rw [batch, WriteBatcher.bufferedWritesContext_init] at parked
    split
    next waiting => exact kept.completeInLast idle batch (by simpa using waiting)
    next nothing =>
      have none : c.inflightWritesQueue = [] := by simpa using nothing
      have finished : c.outstanding = [] := by simp [outstanding, none, idle]
      rw [finished, List.map_nil, List.append_nil] at bytes
      rw [finished] at parked
      have all : c.history.forwarded = c.history.requestCompletes.length :=
        Nat.le_antisymm kept.forwarded
          (List.drop_eq_nil_iff.mp (List.forall₂_nil_right_iff.mp parked))
      refine ⟨kept.wf, kept.entries, kept.bytes, kept.fds, kept.callbacks, ?_, ?_, ?_⟩
      · simp [all]
      · intro sentBefore member
        rcases List.mem_append.mp (List.mem_of_mem_take member) with old | new
        · exact kept.notBefore sentBefore (by rwa [all, List.take_length])
        · rw [List.mem_singleton.mp new, sentBytes, ← bytes]
      · have none : (c.history.requestCompletes ++ [c.sentBytes]).drop
            (c.history.forwarded + 1) = [] := by
          simp [all]
        have parked : List.Forall₂ (· ≤ ·)
            ((c.history.requestCompletes ++ [c.sentBytes]).drop (c.history.forwarded + 1))
            (Parcel.bounds (Parcel.joined c.history.finished).length (tokens c.outstanding) ++
              List.replicate c.writeBatcher.bufferedWritesContext.requestCompleteCount
                c.sentBytes) := by
          rw [none, finished, batch]
          exact .nil
        exact parked

/-- The requests of the first entry have waited long enough. -/
theorem Kept.writeDone (kept : c.Kept) (success : Bool) : (c.writeDone success).Kept := by
  rw [ServerWrites.writeDone]
  split
  next write pending context inflightWritesQueue firstPending firstEntry =>
    have entries := kept.entries
    rw [firstPending, firstEntry, List.length_cons, List.length_cons,
      Nat.add_right_cancel_iff] at entries
    have first : c.outstanding =
        (write, context) :: (pending.zip inflightWritesQueue ++ c.flushing) := by
      rw [outstanding, firstPending, firstEntry]
      rfl
    have bytes := kept.bytes
    have fds := kept.fds
    have callbacks := kept.callbacks
    have parked := kept.parked
    rw [first] at bytes fds callbacks parked
    obtain ⟨enough, below, rest⟩ := Parcel.forall₂_bounds_cons parked
    refine ⟨kept.wf, entries, ?_, ?_, ?_, ?_, ?_, ?_⟩
    · simpa [outstanding, sentParcels] using bytes
    · simpa [outstanding, sentParcels] using fds
    · simpa [outstanding, Function.comp_def] using callbacks
    · have told := kept.forwarded
      rw [List.length_drop] at enough
      exact Nat.add_comm _ _ ▸ Nat.add_le_of_le_sub told enough
    · intro sentBefore member
      rw [Parcel.joined_append, Parcel.joined_cons, Parcel.joined_nil, List.append_nil,
        List.length_append]
      rw [List.take_add, List.mem_append] at member
      rcases member with old | new
      · exact Nat.le_trans (kept.notBefore sentBefore old) (Nat.le_add_right _ _)
      · exact below sentBefore new
    · rw [List.drop_drop] at rest
      simpa [outstanding, tokens, sentBytes, sentParcels] using rest
  next => exact kept

theorem Kept.step (kept : c.Kept) (config : WriteBatcherConfig) (event : WriteEvent)
    (allowed : c.Allowed event) (clean : c.Clean event) : (c.step config event).Kept := by
  cases event with
  | send message hasObservers => exact kept.send config message hasObservers allowed
  | requestComplete => exact kept.requestComplete clean
  | runLoopCallback => exact kept.flushPendingWrites clean
  | timeoutExpired => exact kept.flushPendingWrites clean
  | drain =>
    rw [ServerWrites.step, drain]
    split
    next => exact kept
    next waiting => exact kept.flushPendingWrites (clean.resolve_right waiting)
  | writeNext => exact kept.writeChain
  | writeSuccess => exact kept.writeDone true
  | writeErr => exact kept.writeDone false

end ServerWrites

/-! ## Whole runs -/

/-- In a run in which no flush and no request comes between the writes of a flush, everything is
accounted for in every state. -/
theorem write_accounting (config : WriteBatcherConfig) (events : List WriteEvent)
    (allowed : Run (ServerWrites.step config) ServerWrites.Allowed .init events)
    (clean : Run (ServerWrites.step config) ServerWrites.Clean .init events) (n : Nat) :
    ((events.take n).foldl (ServerWrites.step config) .init).Accounted := by
  refine ServerWrites.Kept.accounted ?_
  refine ((allowed.and clean).take n).invariant ServerWrites.kept_init ?_
  intro c event kept both
  exact kept.step config event both.1 both.2

/-- A batch of two messages, the first with file descriptors, and two requests: one completes
with the batch and one behind the flush. -/
theorem write_accounting_fds : let events : List WriteEvent :=
      [.send ⟨[1], some 0, [7]⟩ false, .send ⟨[2], some 1, []⟩ false, .requestComplete,
        .runLoopCallback, .writeSuccess, .writeNext, .requestComplete, .writeSuccess]
    (events.foldl (ServerWrites.step ⟨0, 0, 0⟩) .init).Accounted := by
  intro events
  have allowed : Run (ServerWrites.step ⟨0, 0, 0⟩) ServerWrites.Allowed .init events := by
    decide +kernel
  have clean : Run (ServerWrites.step ⟨0, 0, 0⟩) ServerWrites.Clean .init events := by
    decide +kernel
  exact write_accounting ⟨0, 0, 0⟩ events allowed clean 8

/-- The socket fails the first of two writes while the flush goes on: nothing is in flight then,
and a request that completes is told before the second write is done. -/
theorem complete_between_writes : let events : List WriteEvent :=
      [.send ⟨[1], some 0, [7]⟩ false, .send ⟨[2], some 1, []⟩ false, .runLoopCallback,
        .writeErr, .requestComplete]
    Run (ServerWrites.step ⟨0, 0, 0⟩) ServerWrites.Allowed .init events ∧
      ¬ (events.foldl (ServerWrites.step ⟨0, 0, 0⟩) .init).Accounted := by
  intro events
  have told : (events.foldl (ServerWrites.step ⟨0, 0, 0⟩) .init).history.requestCompletes.take
      (events.foldl (ServerWrites.step ⟨0, 0, 0⟩) .init).history.forwarded = [2] := by
    decide +kernel
  have finished : (Parcel.joined
      (events.foldl (ServerWrites.step ⟨0, 0, 0⟩) .init).history.finished).length = 1 := by
    decide +kernel
  refine ⟨by decide +kernel, fun accounted => ?_⟩
  have done := accounted.notBefore 2 (by rw [told]; exact List.mem_cons_self)
  rw [finished] at done
  omega

end FbThrift.Rocket
