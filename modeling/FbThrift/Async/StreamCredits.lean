import FbThrift.Async.ClientBufferedStream

/-!
# The credits of client streams

What each loop's count of outstanding credits is worth.  `toAsyncGeneratorImpl` keeps it exact.
`subscribeInline` takes a credit off for every header frame, also for those that no credit was used
for.  `toAsyncGeneratorWithSizeTarget` keeps it exact, but where the free space holds so many
payloads that their number does not fit into an int32, it asks for no credits or for fewer.
-/

namespace FbThrift.ClientBufferedStream

open CreditLoop CreditLoop.Consumer StreamMessage

/-! ## Chunks -/

variable {chunkSize cap : Int} {m : StreamMessage} {rest : List StreamMessage} {σ : Type}
  {c : SizeTarget}

theorem chunkOf_pos (nonneg : 0 ≤ chunkSize) : 1 ≤ ChunkCredits.chunkOf chunkSize := by
  unfold ChunkCredits.chunkOf
  split <;> omega

/-- An update takes one credit and may fill the chunk up again. -/
theorem updateCredits_chunk (c : ChunkCredits) :
    (c.updateCredits = ({ c with outstanding := c.outstanding - 1 }, []) ∧
        ¬ c.outstanding - 1 ≤ c.chunkBufferSize / 2) ∨
      c.updateCredits = ({ c with outstanding := c.chunkBufferSize, payloadDataSize := 0 },
          [c.chunkBufferSize - (c.outstanding - 1)]) := by
  unfold ChunkCredits.updateCredits
  dsimp only
  split
  · exact .inr rfl
  · rename_i enough
    exact .inl ⟨rfl, fun few => enough (.inl few)⟩

/-- The chunk size of the loop stays as it is. -/
def ofChunk (cap : Int) (c : ChunkCredits) (_ : List StreamMessage) : Prop :=
  c.chunkBufferSize = cap

theorem handled_chunk {C : Consumer ChunkCredits StreamMessage} {c d : ChunkCredits}
    (out : C.outstanding = ChunkCredits.outstanding)
    (pays : C.charged m = true) (handle : C.handle m c = d.updateCredits)
    (same : d.outstanding = c.outstanding) (chunk : d.chunkBufferSize = cap) (positive : 1 ≤ cap)
    (capped : c.outstanding ≤ cap) : C.Handled cap (ofChunk cap) m rest c := by
  have price : C.cost [m] = 1 := by
    rw [cost, List.countP_singleton, pays]
    rfl
  rcases updateCredits_chunk d with ⟨update, enough⟩ | update
  · exact {
      balance := by
        rw [handle, update, out, price, List.sum_nil]
        change d.outstanding - 1 = c.outstanding - 1 + 0
        omega
      positive := by
        rw [handle, update, out]
        change 1 ≤ d.outstanding - 1
        omega
      capped := by
        rw [handle, update, out]
        change d.outstanding - 1 ≤ cap
        omega
      asked := by
        rw [handle, update]
        exact nofun
      own := by
        rw [handle, update]
        exact chunk }
  · exact {
      balance := by
        rw [handle, update, out, price, List.sum_singleton]
        change d.chunkBufferSize = _
        omega
      positive := by
        rw [handle, update, out]
        exact chunk.symm ▸ positive
      capped := by
        rw [handle, update, out]
        exact chunk.le
      asked := by
        rw [handle, update]
        intro n inside
        rw [List.mem_singleton.mp inside]
        omega
      own := by
        rw [handle, update]
        exact chunk }

/-- A message that costs nothing and changes nothing. -/
theorem handled_free {C : Consumer σ StreamMessage}
    {own : σ → List StreamMessage → Prop} {c : σ}
    (free : C.charged m = false) (handle : C.handle m c = (c, [])) (kept : own c rest)
    (positive : 1 ≤ C.outstanding c) (capped : C.outstanding c ≤ cap) :
    C.Handled cap own m rest c where
  balance := by
    have price : C.cost [m] = 0 := by
      rw [cost, List.countP_singleton, free]
      rfl
    rw [handle, price, List.sum_nil]
    change C.outstanding c = C.outstanding c - 0 + 0
    omega
  positive := by rwa [handle]
  capped := by rwa [handle]
  asked := by
    rw [handle]
    exact nofun
  own := by rwa [handle]

/-- The messages that `subscribeInline` counts as they were charged. -/
def NotUnordered (_ : ChunkCredits) (m : StreamMessage) : Prop := m ≠ .header false

theorem lawful_subscribeInline (positive : 1 ≤ cap) :
    subscribeInline.Lawful cap (ofChunk cap) NotUnordered where
  append _ own := own
  outstanding_append _ _ := rfl
  handle := by
    intro c m rest own clean capped some _
    cases m with
    | payload size nonempty =>
      exact handled_chunk (d := c.receive size) rfl rfl rfl rfl own positive capped
    | header ordered =>
      cases ordered with
      | true => exact handled_chunk (d := c) rfl rfl rfl rfl own positive capped
      | false => exact absurd rfl clean
    | error => exact handled_free rfl rfl own some capped
    | complete => exact handled_free rfl rfl own some capped

theorem lawful_toAsyncGeneratorImpl (positive : 1 ≤ cap) :
    toAsyncGeneratorImpl.Lawful cap (ofChunk cap) fun _ _ => True where
  append _ own := own
  outstanding_append _ _ := rfl
  handle := by
    intro c m rest own _ capped some _
    cases m with
    | payload size nonempty =>
      exact handled_chunk (d := c.receive size) rfl rfl rfl rfl own positive capped
    | header ordered =>
      cases ordered with
      | true => exact handled_chunk (d := c) rfl rfl rfl rfl own positive capped
      | false => exact handled_free rfl rfl own some capped
    | error => exact handled_free rfl rfl own some capped
    | complete => exact handled_free rfl rfl own some capped

/-- An unordered header frame costs no credit, and `subscribeInline` takes one off. -/
theorem unordered_shows {c : ChunkCredits} (dirty : ¬ NotUnordered c m) :
    subscribeInline.outstanding (subscribeInline.handle m c).1 ≠
        subscribeInline.outstanding c - subscribeInline.cost [m] +
          (subscribeInline.handle m c).2.sum ∨
      ∃ n ∈ (subscribeInline.handle m c).2, n < 1 := by
  obtain rfl : m = .header false := not_not.mp dirty
  have handle : subscribeInline.handle (.header false) c = c.updateCredits := rfl
  have price : subscribeInline.cost [.header false] = 0 := rfl
  left
  rw [handle, price]
  rcases updateCredits_chunk c with ⟨update, -⟩ | update
  · rw [update, List.sum_nil]
    change c.outstanding - 1 ≠ c.outstanding - 0 + 0
    omega
  · rw [update, List.sum_singleton]
    change c.chunkBufferSize ≠ c.outstanding - 0 + (c.chunkBufferSize - (c.outstanding - 1))
    omega

theorem kept_begin {C : Consumer σ StreamMessage}
    {own : σ → List StreamMessage → Prop} {client : σ}
    (nonneg : 0 ≤ chunkSize) (out : C.outstanding client = ChunkCredits.chunkOf chunkSize)
    (capped : ChunkCredits.chunkOf chunkSize ≤ cap) (start : own client []) :
    C.Kept cap own (begin client chunkSize) where
  asked := by
    intro n inside
    change n ∈ (if chunkSize = 0 then [1] else []) at inside
    split at inside
    · rw [List.mem_singleton.mp inside]
    · cases inside
  balance _ := by
    change C.outstanding client = ChunkCredits.chunkOf chunkSize - 0
    omega
  positive _ := by
    change 1 ≤ C.outstanding client
    rw [out]
    exact chunkOf_pos nonneg
  capped _ := by
    change C.outstanding client ≤ cap
    rwa [out]
  sent := rfl
  afforded := by
    have positive := chunkOf_pos nonneg
    change (0 : Int) ≤ ChunkCredits.chunkOf chunkSize
    omega
  own _ := start

/-! ## The size target -/

theorem payloadBytes_append (ms ms' : List StreamMessage) :
    payloadBytes (ms ++ ms') = payloadBytes ms + payloadBytes ms' := by
  induction ms with
  | nil => exact (zero_add _).symm
  | cons m ms ih => exact (congrArg (m.size + ·) ih).trans (add_assoc _ _ _).symm

theorem payloadBytes_of_free {ms : List StreamMessage}
    (free : toAsyncGeneratorWithSizeTarget.cost ms = 0) : payloadBytes ms = 0 := by
  induction ms with
  | nil => rfl
  | cons m ms ih =>
    rw [cost_cons, Nat.add_eq_zero_iff] at free
    obtain ⟨first, rest⟩ := free
    have size : m.size = 0 := by
      cases m with
      | payload size nonempty => cases first
      | _ => rfl
    change m.size + payloadBytes ms = 0
    rw [size, ih rest, add_zero]

/-- `bufferMemSize` is the payload bytes of the queue; the configuration stays as it is. -/
structure OfTarget (target : UInt64) (cap : Int) (c : SizeTarget) (queue : List StreamMessage) :
    Prop where
  bufferMemSize : c.bufferMemSize = payloadBytes queue
  memBufferTarget : c.memBufferTarget = target
  maxChunkBufferSize : c.maxChunkBufferSize = cap

/-- The message, taken from the queue, before credits are updated. -/
def SizeTarget.take (c : SizeTarget) : StreamMessage → SizeTarget
  | .payload size _ => c.receive size
  | _ => c

/-- Where the message uses a credit and there is enough space to ask for more, the space in
payloads is positive as an int32. -/
def Fits (c : SizeTarget) (m : StreamMessage) : Prop :=
  m.charged = true → (c.take m).spend.issues = true →
    1 ≤ (c.take m).spend.spaceInPayloads.toUInt32.toInt32.toInt

theorem ofTarget_take {target : UInt64} (own : OfTarget target cap c (m :: rest)) :
    OfTarget target cap (c.take m) rest := by
  have bytes : c.bufferMemSize = m.size + payloadBytes rest := own.bufferMemSize
  cases m with
  | payload size nonempty =>
    refine ⟨?_, own.memBufferTarget, own.maxChunkBufferSize⟩
    change c.bufferMemSize - size = payloadBytes rest
    rw [bytes]
    exact add_sub_cancel_left size (payloadBytes rest)
  | _ => exact ⟨bytes.trans (zero_add _), own.memBufferTarget, own.maxChunkBufferSize⟩

@[simp] theorem outstanding_take (c : SizeTarget) (m : StreamMessage) :
    (c.take m).outstanding = c.outstanding := by
  cases m <;> rfl

theorem handle_charged (charged : m.charged = true) (c : SizeTarget) :
    toAsyncGeneratorWithSizeTarget.handle m c = (c.take m).updateCredits := by
  cases m with
  | payload size nonempty => rfl
  | header ordered =>
    obtain rfl : ordered = true := charged
    rfl
  | error => cases charged
  | complete => cases charged

theorem not_negative {size : UInt64} (signed : size < 9223372036854775808) :
    ¬ size.toInt64 < 0 := by
  have small : size.toNat < 9223372036854775808 := UInt64.lt_iff_toNat_lt.mp signed
  have value : size.toInt64.toInt = size.toNat := by
    rw [← Int64.toInt_toBitVec]
    exact BitVec.toInt_eq_toNat_of_lt (show 2 * size.toNat < 2 ^ 64 by omega)
  rw [Int64.lt_iff_toInt_lt, value]
  simp

theorem issues_of_empty (none : c.outstanding = 0) (empty : c.bufferMemSize = 0)
    (signed : c.memBufferTarget < 9223372036854775808) : c.issues = true := by
  have used : c.bufferMemSize + UInt64.ofInt c.outstanding * c.estPayloadSize = 0 := by
    rw [none, empty, show UInt64.ofInt 0 = 0 from rfl, zero_mul, add_zero]
  have space : c.spaceAvailable = c.memBufferTarget := by
    unfold SizeTarget.spaceAvailable
    dsimp only
    rw [used, sub_zero, if_neg (not_negative signed), UInt64.toUInt64_toInt64]
  have half : c.memBufferTarget / 2 ≤ c.memBufferTarget := by
    rw [UInt64.le_iff_toNat_le, UInt64.toNat_div]
    exact Nat.div_le_self _ _
  unfold SizeTarget.issues
  rw [space, decide_eq_true half, Bool.or_true]

theorem lawful_sizeTarget {target : UInt64} (signed : target < 9223372036854775808) :
    toAsyncGeneratorWithSizeTarget.Lawful cap (OfTarget target cap) Fits where
  append {c queue} ms own :=
    { bufferMemSize := by
        change c.bufferMemSize + payloadBytes ms = _
        rw [own.bufferMemSize, payloadBytes_append]
      memBufferTarget := own.memBufferTarget
      maxChunkBufferSize := own.maxChunkBufferSize }
  outstanding_append _ _ := rfl
  handle := by
    intro c m rest own fits capped some held
    cases charged : m.charged with
    | false =>
      have handle : toAsyncGeneratorWithSizeTarget.handle m c = (c, []) := by
        cases m with
        | payload size nonempty => cases charged
        | header ordered =>
          obtain rfl : ordered = false := charged
          rfl
        | error => rfl
        | complete => rfl
      have same : c.take m = c := by
        cases m with
        | payload size nonempty => cases charged
        | _ => rfl
      exact handled_free charged handle (same ▸ ofTarget_take own) some capped
    | true =>
      have taken := ofTarget_take own
      have price : toAsyncGeneratorWithSizeTarget.cost [m] = 1 := by
        rw [cost, List.countP_singleton]
        exact if_pos charged
      have before : (c.take m).outstanding = c.outstanding := outstanding_take c m
      have spent : (c.take m).spend.outstanding = c.outstanding - 1 :=
        congrArg (· - 1) before
      change 1 ≤ c.outstanding at some
      change c.outstanding ≤ cap at capped
      cases issues : (c.take m).spend.issues with
      | false =>
        have update : (c.take m).updateCredits = ((c.take m).spend, []) :=
          if_neg (by rw [issues]; exact Bool.false_ne_true)
        have left : 1 ≤ c.outstanding - 1 := by
          -- The last credit is used when nothing with a payload is behind the message.
          by_contra few
          have last : c.outstanding = 1 := by omega
          change (toAsyncGeneratorWithSizeTarget.cost (m :: rest) : Int) ≤ c.outstanding at held
          rw [cost_cons, price] at held
          have free : toAsyncGeneratorWithSizeTarget.cost rest = 0 := by omega
          have empty : (c.take m).spend.bufferMemSize = 0 :=
            taken.bufferMemSize.trans (payloadBytes_of_free free)
          have whole := issues_of_empty (c := (c.take m).spend) (by omega) empty
            (taken.memBufferTarget.symm ▸ signed)
          rw [whole] at issues
          cases issues
        rw [← handle_charged charged] at update
        exact {
          balance := by
            rw [update, price, List.sum_nil]
            change (c.take m).spend.outstanding = c.outstanding - 1 + 0
            omega
          positive := by
            rw [update]
            change 1 ≤ (c.take m).spend.outstanding
            omega
          capped := by
            rw [update]
            change (c.take m).spend.outstanding ≤ cap
            omega
          asked := by
            rw [update]
            exact nofun
          own := by
            rw [update]
            exact ⟨taken.bufferMemSize, taken.memBufferTarget, taken.maxChunkBufferSize⟩ }
      | true =>
        have update : (c.take m).updateCredits = _ := if_pos issues
        rw [← handle_charged charged] at update
        have positive := fits charged issues
        have limit : (c.take m).spend.maxChunkBufferSize = cap := taken.maxChunkBufferSize
        have asked : 1 ≤ (c.take m).spend.request := by
          unfold SizeTarget.request
          rw [limit, spent]
          omega
        have within : (c.take m).spend.request ≤ cap - (c.take m).spend.outstanding := by
          unfold SizeTarget.request
          rw [limit]
          omega
        exact {
          balance := by
            rw [update, price, List.sum_singleton]
            change (c.take m).spend.outstanding + (c.take m).spend.request = _
            rw [spent]
            rfl
          positive := by
            rw [update]
            change 1 ≤ (c.take m).spend.outstanding + (c.take m).spend.request
            omega
          capped := by
            rw [update]
            change (c.take m).spend.outstanding + (c.take m).spend.request ≤ cap
            omega
          asked := by
            rw [update]
            intro n inside
            rw [List.mem_singleton.mp inside]
            exact asked
          own := by
            rw [update]
            exact ⟨taken.bufferMemSize, taken.memBufferTarget, taken.maxChunkBufferSize⟩ }

/-- A request that is cut to a number that is not positive asks for no credit. -/
theorem cut_shows (dirty : ¬ Fits c m) :
    ∃ n ∈ (toAsyncGeneratorWithSizeTarget.handle m c).2, n < 1 := by
  unfold Fits at dirty
  push Not at dirty
  obtain ⟨charged, issues, cut⟩ := dirty
  have update : (c.take m).updateCredits = _ := if_pos issues
  rw [handle_charged charged, update]
  refine ⟨_, List.mem_singleton_self _, ?_⟩
  unfold SizeTarget.request
  omega

/-! ## Runs -/

/-- The account at a loop head of `toAsyncGeneratorWithSizeTarget`. -/
def SizeExact (cap : Int) (s : Channel SizeTarget StreamMessage) : Prop :=
  toAsyncGeneratorWithSizeTarget.Exact cap s ∧
    (s.finished = false → s.client.bufferMemSize = payloadBytes s.queue)

/-- A subscription to a stream. -/
def subscribed (chunkSize : Int) : Channel ChunkCredits StreamMessage :=
  begin (ChunkCredits.start chunkSize) chunkSize

/-- A stream with a buffer of a given size. -/
def targeted (target : UInt64) (maxChunkSize chunkSize : Int) : Channel SizeTarget StreamMessage :=
  begin (SizeTarget.start target maxChunkSize chunkSize) chunkSize

/-- One message, and the iteration that takes it. -/
def oneMessage (m : StreamMessage) : List (Event StreamMessage) := [.send m, .receive false]

theorem run_oneMessage {C : Consumer σ StreamMessage} {client : σ}
    (m : StreamMessage) (nonneg : 0 ≤ chunkSize) :
    Run C.step C.Allowed (begin client chunkSize) (oneMessage m) := by
  have positive := chunkOf_pos nonneg
  refine ⟨⟨rfl, fun _ => ?_⟩, ⟨rfl, .inr (List.cons_ne_nil m [])⟩, trivial⟩
  change (0 : Int) < ChunkCredits.chunkOf chunkSize
  omega

end FbThrift.ClientBufferedStream
