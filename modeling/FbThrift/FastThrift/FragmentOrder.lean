import Mathlib.Algebra.Order.BigOperators.Group.List
import FbThrift.FastThrift.Fragmentation

/-!
# The order of fragments

The handler keeps one payload for each stream, and drains its queue before its heap.  As long
as no frame overtakes the bytes of its own stream that are still held, or takes their place,
each stream sends its frames in order.
-/

namespace FbThrift.FastThrift

namespace FrameFragmentationHandler

/-! ## Runs -/

/-- What happens to the handler. -/
inductive Event where
  | write (frame : OutboundFrame)
  | loop
  | writeReady

def step : FrameFragmentationHandler × Pipeline → Event → FrameFragmentationHandler × Pipeline
  | (handler, ctx), event =>
    let next := match event with
      | .write frame => handler.onWrite ctx frame
      | .loop => handler.runLoopCallback ctx
      | .writeReady => handler.onWriteReady ctx
    (next.1, next.2.1)

/-- A run of a new handler, with the answers of the next one. -/
def run (config : FragmentationHandlerConfig) (results : Nat → Result) (events : List Event) :
    FrameFragmentationHandler × Pipeline :=
  events.foldl step (new config, ⟨[], results⟩)

/-- The frames written to a stream. -/
def written (s : UInt32) (events : List Event) : List OutboundFrame :=
  events.filterMap fun
    | .write frame => if frame.streamId = s then some frame else none
    | _ => none

end FrameFragmentationHandler

/-! ## What a frame is sent as -/

/-- The fragments that a state has left. -/
def PerStreamState.fragments (maxSize : Nat) (state : PerStreamState) : List OutboundFrame :=
  if state.hasMore ∧ 0 < maxSize then
    state.fragmentFrame maxSize :: fragments maxSize (state.split maxSize)
  else []
termination_by state.remaining
decreasing_by
  rename_i more
  have some : state.payloadQueue.length ≠ 0 := by simpa [hasMore] using more.1
  rw [remaining, remaining, split, List.length_drop]
  omega

/-- The state of a stream whose queue holds the frame alone. -/
def OutboundFrame.state (frame : OutboundFrame) : PerStreamState :=
  ⟨frame.streamId, frame.payload, frame.frameType, frame.flags⟩

/-- A frame as it is, or its fragments. -/
def FragmentationHandlerConfig.pieces (config : FragmentationHandlerConfig)
    (frame : OutboundFrame) : List OutboundFrame :=
  if frame.payloadSize ≤ config.minSizeToFragment ∨ frame.payloadSize ≤ config.maxFragmentSize then
    [frame]
  else frame.state.fragments config.maxFragmentSize

/-- The frames with bytes of a stream. -/
def carrying (s : UInt32) (frames : List OutboundFrame) : List OutboundFrame :=
  frames.filter fun frame => frame.streamId = s ∧ frame.payload ≠ []

def payloads (frames : List OutboundFrame) : Bytes := frames.flatMap OutboundFrame.payload

namespace PerStreamState

variable {maxSize : Nat} {state : PerStreamState}

theorem fragments_of_hasMore (pos : 0 < maxSize) (more : state.hasMore = true) :
    state.fragments maxSize =
      state.fragmentFrame maxSize :: (state.split maxSize).fragments maxSize := by
  rw [fragments, if_pos ⟨more, pos⟩]

theorem fragments_of_not_hasMore (done : state.hasMore = false) : state.fragments maxSize = [] := by
  rw [fragments, if_neg (by simp [done])]

/-- The states that a state goes through while its fragments are sent. -/
@[elab_as_elim]
theorem fragment_induction {motive : PerStreamState → Prop} (pos : 0 < maxSize)
    (done : ∀ state, state.hasMore = false → motive state)
    (next : ∀ state, state.hasMore = true → motive (state.split maxSize) → motive state)
    (state : PerStreamState) : motive state := by
  generalize size : state.remaining = n
  induction n using Nat.strongRecOn generalizing state with
  | ind n ih =>
    cases more : state.hasMore with
    | false => exact done state more
    | true =>
      have some : state.payloadQueue.length ≠ 0 := by simpa [hasMore] using more
      refine next state more (ih _ ?_ _ rfl)
      rw [← size, remaining, remaining, split, List.length_drop]
      omega

theorem payloads_fragments (pos : 0 < maxSize) (state : PerStreamState) :
    payloads (state.fragments maxSize) = state.payloadQueue := by
  induction state using fragment_induction pos with
  | done state done =>
    rw [fragments_of_not_hasMore done]
    simpa [hasMore, payloads] using done.symm
  | next state more ih =>
    rw [fragments_of_hasMore pos more, payloads, List.flatMap_cons, ← payloads, ih]
    exact List.take_append_drop maxSize state.payloadQueue

theorem fragments_le (pos : 0 < maxSize) (state : PerStreamState) :
    ∀ frame ∈ state.fragments maxSize, frame.payloadSize ≤ maxSize := by
  induction state using fragment_induction pos with
  | done state done => simp [fragments_of_not_hasMore done]
  | next state more ih =>
    rw [fragments_of_hasMore pos more]
    intro frame member
    rcases List.mem_cons.mp member with rfl | later
    · exact List.length_take_le maxSize state.payloadQueue
    · exact ih frame later

theorem fragments_ne_nil (pos : 0 < maxSize) (more : state.hasMore = true) :
    state.fragments maxSize ≠ [] := by
  rw [fragments_of_hasMore pos more]
  exact List.cons_ne_nil _ _

theorem follows_fragments (pos : 0 < maxSize) (state : PerStreamState) :
    (state.fragments maxSize).map (fun frame => frame.flags.has .follows) =
      List.replicate ((state.fragments maxSize).length - 1) true ++
        if state.hasMore then [false] else [] := by
  induction state using fragment_induction pos with
  | done state done => simp [fragments_of_not_hasMore done, done]
  | next state more ih =>
    have follows : (state.fragmentFrame maxSize).flags.has .follows =
        (state.split maxSize).hasMore := by
      simp [fragmentFrame]
    rw [fragments_of_hasMore pos more, List.map_cons, ih, follows, more, if_pos rfl,
      List.length_cons, Nat.add_sub_cancel]
    cases last : (state.split maxSize).hasMore with
    | false => simp [fragments_of_not_hasMore last]
    | true =>
      have some := List.length_pos_iff.mpr (fragments_ne_nil pos last)
      obtain ⟨n, length⟩ := Nat.exists_eq_add_of_lt some
      rw [length]
      simp [List.replicate_succ]

theorem carrying_fragments (pos : 0 < maxSize) (s : UInt32) (state : PerStreamState) :
    carrying s (state.fragments maxSize) =
      if state.streamId = s then state.fragments maxSize else [] := by
  induction state using fragment_induction pos with
  | done state done => simp [fragments_of_not_hasMore done, carrying]
  | next state more ih =>
    have some : (state.fragmentFrame maxSize).payload ≠ [] := by
      have bytes : state.payloadQueue ≠ [] := by simpa [hasMore] using more
      simp [fragmentFrame, bytes, Nat.ne_of_gt pos]
    have id : (state.split maxSize).streamId = state.streamId := rfl
    have id' : (state.fragmentFrame maxSize).streamId = state.streamId := rfl
    rw [fragments_of_hasMore pos more, carrying, List.filter_cons, ← carrying, ih, id, id']
    by_cases same : state.streamId = s <;> simp [same, some]

end PerStreamState

/-! ## What the handler holds -/

/-- The fragments that the heap has for a stream. -/
def sending (maxSize : Nat) (streams : SrptHeap PerStreamState) (s : UInt32) : List OutboundFrame :=
  (streams.values s).flatMap (PerStreamState.fragments maxSize)

/-- One state for each stream, which knows its stream. -/
structure StreamsWf (streams : SrptHeap PerStreamState) : Prop where
  distinct : streams.Distinct
  streamId : ∀ {s : UInt32} {state : PerStreamState}, state ∈ streams.values s → state.streamId = s

section

variable {maxSize : Nat} {streams : SrptHeap PerStreamState} {s : UInt32}

theorem carrying_append (s : UInt32) (frames others : List OutboundFrame) :
    carrying s (frames ++ others) = carrying s frames ++ carrying s others :=
  List.filter_append ..

theorem carrying_of_ne {frame : OutboundFrame} (other : frame.streamId ≠ s) :
    carrying s [frame] = [] := by
  simp [carrying, other]

theorem carrying_of_nil {frame : OutboundFrame} (empty : frame.payload = []) :
    carrying s [frame] = [] := by
  simp [carrying, empty]

theorem carrying_self {frame : OutboundFrame} (same : frame.streamId = s)
    (some : frame.payload ≠ []) : carrying s [frame] = [frame] := by
  simp [carrying, same, some]

theorem StreamsWf.min (wf : StreamsWf streams) {id : UInt32} {state : PerStreamState}
    (first : streams.peekMin = some ⟨id, state⟩) :
    streams.values id = [state] ∧ state.streamId = id := by
  have single := wf.distinct.values_of_mem (SrptHeap.mem_of_peekMin first)
  exact ⟨single, wf.streamId (by rw [single]; exact List.mem_singleton_self state)⟩

theorem StreamsWf.replace (wf : StreamsWf streams) (maxSize : Nat)
    {other : SrptHeap PerStreamState} {id : UInt32} {states : List PerStreamState}
    (changed : other.Distinct ∧ ∀ s, other.values s = if s = id then states else streams.values s)
    (ids : ∀ state ∈ states, state.streamId = id) :
    StreamsWf other ∧ ∀ s, sending maxSize other s =
      if s = id then states.flatMap (PerStreamState.fragments maxSize)
      else sending maxSize streams s := by
  refine ⟨⟨changed.1, ?_⟩, ?_⟩
  · intro s state member
    rw [changed.2 s] at member
    split at member
    next same =>
      rw [same]
      exact ids state member
    next => exact wf.streamId member
  · intro s
    rw [sending, changed.2 s]
    split <;> rfl

end

namespace FrameFragmentationHandler

variable {maxSize : Nat} {streams : SrptHeap PerStreamState} {s : UInt32} {ctx : Pipeline}

theorem drainQueue_spec {queue rest : List OutboundFrame} {ctx ctx' : Pipeline}
    {result : Option Result} (run : drainQueue queue ctx = (rest, ctx', result)) :
    (∃ done, queue = done ++ rest ∧ ctx'.fired = ctx.fired ++ done) ∧
      ctx'.results = ctx.results ∧ (result = none → rest = []) ∧ result ≠ some .success := by
  induction queue generalizing ctx with
  | nil =>
    cases run
    exact ⟨⟨[], rfl, by simp⟩, rfl, fun _ => rfl, by simp⟩
  | cons frame queue ih =>
    rw [drainQueue] at run
    dsimp only [Pipeline.fireWrite] at run
    split at run
    next stopped =>
      cases run
      exact ⟨⟨[frame], rfl, rfl⟩, rfl, by simp, by simp [stopped]⟩
    next =>
      obtain ⟨⟨done, split, fired⟩, results, last⟩ := ih run
      refine ⟨⟨frame :: done, by rw [split]; rfl, ?_⟩, results, last⟩
      rw [fired, List.append_assoc]
      rfl

theorem sending_split (pos : 0 < maxSize) (wf : StreamsWf streams) {id : UInt32}
    {state : PerStreamState} (first : streams.peekMin = some ⟨id, state⟩)
    (more : state.hasMore = true) :
    let next := (streams.modify id (PerStreamState.split maxSize)).update key id
    StreamsWf next ∧ next.values id = [state.split maxSize] ∧
      ∀ s, carrying s [state.fragmentFrame maxSize] ++ sending maxSize next s =
        sending maxSize streams s := by
  obtain ⟨single, streamId⟩ := wf.min first
  have modified := wf.distinct.modify id (PerStreamState.split maxSize)
  have updated := modified.1.update key id
  have changed : ∀ s, ((streams.modify id (PerStreamState.split maxSize)).update key id).values s =
      if s = id then [state.split maxSize] else streams.values s := by
    intro s
    rw [updated.2, modified.2]
    split
    next same => rw [same, single, List.map_singleton]
    next => rfl
  obtain ⟨wf', sent⟩ := wf.replace maxSize ⟨updated.1, changed⟩ (by
    intro state' member
    rw [List.mem_singleton.mp member]
    exact streamId)
  refine ⟨wf', by rw [changed, if_pos rfl], fun s => ?_⟩
  rw [sent]
  split
  next same =>
    subst same
    have some : (state.fragmentFrame maxSize).payload ≠ [] := by
      have bytes : state.payloadQueue ≠ [] := by simpa [PerStreamState.hasMore] using more
      simp [PerStreamState.fragmentFrame, bytes, Nat.ne_of_gt pos]
    rw [carrying_self streamId some, sending, single, List.flatMap_singleton,
      List.flatMap_singleton, PerStreamState.fragments_of_hasMore pos more]
    rfl
  next other =>
    have differs : (state.fragmentFrame maxSize).streamId ≠ s := by
      intro same
      exact other (same.symm.trans streamId)
    rw [carrying_of_ne differs, List.nil_append]

/-- A stream whose last fragment was sent leaves the heap. -/
theorem sending_erase (maxSize : Nat) (wf : StreamsWf streams) {id : UInt32}
    {state : PerStreamState} (single : streams.values id = [state]) :
    let next := if state.hasMore then streams else streams.erase key id
    StreamsWf next ∧ ∀ s, sending maxSize next s = sending maxSize streams s := by
  cases more : state.hasMore with
  | true => exact ⟨wf, fun s => rfl⟩
  | false =>
    obtain ⟨wf', sent⟩ := wf.replace maxSize (wf.distinct.erase key id) (by simp)
    refine ⟨wf', fun s => (sent s).trans ?_⟩
    split
    next same =>
      rw [same, sending, single, List.flatMap_singleton,
        PerStreamState.fragments_of_not_hasMore more]
      rfl
    next => rfl

theorem drainStreams_spec (pos : 0 < maxSize) {turns : Nat} (wf : StreamsWf streams)
    {streams' : SrptHeap PerStreamState} {ctx ctx' : Pipeline} {result : Option Result}
    (run : drainStreams maxSize turns streams ctx = (streams', ctx', result)) :
    StreamsWf streams' ∧ ctx'.results = ctx.results ∧
      (∀ s, carrying s ctx'.fired ++ sending maxSize streams' s =
        carrying s ctx.fired ++ sending maxSize streams s) ∧
      (result = some .success → ∀ s, sending maxSize streams' s = []) := by
  induction turns generalizing streams ctx with
  | zero =>
    cases run
    exact ⟨wf, rfl, fun s => rfl, by simp⟩
  | succ turns ih =>
    rw [drainStreams] at run
    split at run
    next empty =>
      have none : streams.toList = [] := by
        have := Array.getElem?_eq_none_iff.mp empty
        exact List.eq_nil_of_length_eq_zero (by rw [Array.length_toList]; omega)
      cases run
      refine ⟨wf, rfl, fun s => rfl, fun _ s => ?_⟩
      simp [sending, SrptHeap.values, none]
    next id state first =>
      obtain ⟨single, streamId⟩ := wf.min first
      split at run
      next more =>
        dsimp only [Pipeline.fireWrite] at run
        obtain ⟨wf', last, sent⟩ := sending_split pos wf first more
        split at run
        next =>
          cases run
          refine ⟨wf', rfl, fun s => ?_, by simp_all⟩
          rw [carrying_append, List.append_assoc, sent s]
        next =>
          have next := sending_erase maxSize wf' last
          obtain ⟨wf'', results, kept, all⟩ := ih next.1 run
          refine ⟨wf'', results, fun s => ?_, all⟩
          rw [kept s, next.2, carrying_append, List.append_assoc, sent s]
      next done =>
        have removed := wf.replace maxSize (wf.distinct.removeAt key first) (by simp)
        obtain ⟨wf', results, kept, all⟩ := ih removed.1 run
        refine ⟨wf', results, fun s => ?_, all⟩
        rw [kept s, removed.2 s]
        split
        next same =>
          rw [same, sending, single, List.flatMap_singleton,
            PerStreamState.fragments_of_not_hasMore (by simpa using done)]
          rfl
        next => rfl

/-! ## Flushes return -/

theorem load_of_perm {other : SrptHeap PerStreamState}
    (perm : other.toList.Perm streams.toList) : load other = load streams :=
  (perm.map _).sum_eq

theorem load_removeAt {pos : Nat} {e : Entry PerStreamState} (here : streams[pos]? = some e) :
    load (streams.removeAt key pos) < load streams := by
  have sum := ((SrptHeap.removeAt_perm key here).map fun e => e.value.remaining + 1).sum_eq
  rw [List.map_cons, List.sum_cons] at sum
  unfold load
  omega

theorem load_erase_le (streams : SrptHeap PerStreamState) (id : UInt32) :
    load (streams.erase key id) ≤ load streams := by
  unfold SrptHeap.erase
  split
  next pos found =>
    obtain ⟨e, here, -⟩ := SrptHeap.index_eq_some found
    exact Nat.le_of_lt (load_removeAt here)
  next => exact Nat.le_refl _

theorem load_split (pos : 0 < maxSize) {id : UInt32} {state : PerStreamState}
    (first : streams.peekMin = some ⟨id, state⟩) (more : state.hasMore = true) :
    load ((streams.modify id (PerStreamState.split maxSize)).update key id) < load streams := by
  rw [load_of_perm (SrptHeap.update_perm key _ id), load, load, SrptHeap.modify,
    Array.toList_map, List.map_map]
  apply List.sum_lt_sum
  · intro e _
    dsimp only [Function.comp]
    split
    · simp [PerStreamState.remaining, PerStreamState.split]
    · exact Nat.le_refl _
  · have some : state.payloadQueue.length ≠ 0 := by simpa [PerStreamState.hasMore] using more
    refine ⟨⟨id, state⟩, SrptHeap.mem_of_peekMin first, ?_⟩
    simp only [Function.comp, if_true, PerStreamState.remaining, PerStreamState.split,
      List.length_drop]
    omega

theorem drainStreams_returns (pos : 0 < maxSize) {turns : Nat} (enough : load streams < turns)
    (ctx : Pipeline) : (drainStreams maxSize turns streams ctx).2.2 ≠ none := by
  induction turns generalizing streams ctx with
  | zero => omega
  | succ turns ih =>
    rw [drainStreams]
    split
    next => simp
    next id state first =>
      split
      next more =>
        have less := load_split pos first more
        dsimp only [Pipeline.fireWrite]
        split
        · simp
        · apply ih
          split
          · omega
          · have := load_erase_le
              ((streams.modify id (PerStreamState.split maxSize)).update key id) id
            omega
      next =>
        have less := load_removeAt first
        exact ih (by omega) _

theorem drainQueue_ready (queue : List OutboundFrame) (ready : ∀ n, ctx.results n ≠ .backpressure) :
    (drainQueue queue ctx).2.2 = none := by
  induction queue generalizing ctx with
  | nil => rfl
  | cons frame queue ih =>
    rw [drainQueue]
    dsimp only [Pipeline.fireWrite]
    rw [if_neg (ready _)]
    exact ih ready

theorem drainStreams_ready {turns : Nat} (ready : ∀ n, ctx.results n ≠ .backpressure) :
    (drainStreams maxSize turns streams ctx).2.2 = none ∨
      (drainStreams maxSize turns streams ctx).2.2 = some .success := by
  induction turns generalizing streams ctx with
  | zero => exact .inl rfl
  | succ turns ih =>
    rw [drainStreams]
    split
    next => exact .inr rfl
    next =>
      split
      · dsimp only [Pipeline.fireWrite]
        rw [if_neg (ready _)]
        exact ih ready
      · exact ih ready

/-! ## Operations of the handler -/

section

variable {handler handler' : FrameFragmentationHandler} {ctx' : Pipeline} {result : Option Result}
  {frame : OutboundFrame}

/-- What the handler has still to send for a stream, in the order in which it does. -/
def held (handler : FrameFragmentationHandler) (s : UInt32) : List OutboundFrame :=
  carrying s handler.immediateQueue ++ sending handler.config.maxFragmentSize handler.streams s

/-- What a frame is put before, or what it takes the place of, of its own stream. -/
def overtaken (handler : FrameFragmentationHandler) (frame : OutboundFrame) : List OutboundFrame :=
  if handler.passes frame then handler.held frame.streamId
  else sending handler.config.maxFragmentSize handler.streams frame.streamId

theorem doFlush_spec (pos : 0 < handler.config.maxFragmentSize) (wf : StreamsWf handler.streams)
    (run : handler.doFlush ctx = (handler', ctx', result)) :
    StreamsWf handler'.streams ∧ handler'.config = handler.config ∧ ctx'.results = ctx.results ∧
      (∀ s, carrying s ctx'.fired ++ handler'.held s = carrying s ctx.fired ++ handler.held s) ∧
      (result = some .success → ∀ s, handler'.held s = []) := by
  rw [doFlush] at run
  rcases drained : drainQueue handler.immediateQueue ctx with ⟨queue, ctx₁, stopped⟩
  obtain ⟨⟨done, split, fired⟩, results, last, stops⟩ := drainQueue_spec drained
  have sent : ∀ s, carrying s ctx₁.fired ++ carrying s queue =
      carrying s ctx.fired ++ carrying s handler.immediateQueue := by
    intro s
    rw [fired, split, carrying_append, carrying_append, List.append_assoc]
  rw [drained] at run
  cases stopped with
  | some stop =>
    cases run
    refine ⟨wf, rfl, results, fun s => ?_, fun success => absurd success stops⟩
    unfold held
    dsimp only
    rw [← List.append_assoc, sent s, List.append_assoc]
  | none =>
    obtain rfl := last rfl
    dsimp only at run
    rcases flushed : drainStreams handler.config.maxFragmentSize (load handler.streams + 1)
      handler.streams ctx₁ with ⟨streams, ctx₂, result₂⟩
    obtain ⟨wf', results', kept, all⟩ := drainStreams_spec pos wf flushed
    have total : ∀ s, carrying s ctx₂.fired ++
        (carrying s [] ++ sending handler.config.maxFragmentSize streams s) =
          carrying s ctx.fired ++ handler.held s := by
      intro s
      have queue := sent s
      rw [show carrying s [] = [] from rfl, List.append_nil] at queue
      rw [show carrying s [] = [] from rfl, List.nil_append, kept s, queue, List.append_assoc]
      rfl
    rw [flushed] at run
    have empty : result₂ = some .success → ∀ s, carrying s [] ++
        sending handler.config.maxFragmentSize streams s = [] := all
    rcases result₂ with _ | ⟨_ | _ | _⟩
    all_goals
      cases run
      exact ⟨wf', rfl, results'.trans results, total, empty⟩

/-- A flush that is not told to stop sends all that the handler holds. -/
theorem doFlush_all (handler : FrameFragmentationHandler)
    (pos : 0 < handler.config.maxFragmentSize) (wf : StreamsWf handler.streams)
    (ready : ∀ n, ctx.results n ≠ .backpressure) (s : UInt32) :
    carrying s (handler.doFlush ctx).2.1.fired = carrying s ctx.fired ++ handler.held s := by
  have returned : (handler.doFlush ctx).2.2 = some .success := by
    rw [doFlush]
    rcases drained : drainQueue handler.immediateQueue ctx with ⟨queue, ctx₁, stopped⟩
    obtain ⟨-, results, -, -⟩ := drainQueue_spec drained
    have queued : stopped = none := by
      have none := drainQueue_ready handler.immediateQueue ready
      rwa [drained] at none
    subst queued
    dsimp only
    have ready₁ : ∀ n, ctx₁.results n ≠ .backpressure := by
      rw [results]
      exact ready
    have some := drainStreams_returns pos (Nat.lt_succ_self (load handler.streams)) ctx₁
    rcases (drainStreams_ready ready₁).resolve_left some with flushed
    rcases sent : drainStreams handler.config.maxFragmentSize (load handler.streams + 1)
      handler.streams ctx₁ with ⟨streams, ctx₂, result⟩
    rw [sent] at flushed
    obtain rfl : result = Option.some .success := flushed
    rfl
  rcases run : handler.doFlush ctx with ⟨handler', ctx', result⟩
  rw [run] at returned
  obtain ⟨-, -, -, kept, all⟩ := doFlush_spec pos wf run
  rw [← kept s, all returned s, List.append_nil]

theorem carrying_pieces (pos : 0 < handler.config.maxFragmentSize) (other : frame.streamId ≠ s) :
    carrying s (handler.config.pieces frame) = [] := by
  unfold FragmentationHandlerConfig.pieces
  split
  · exact carrying_of_ne other
  · rw [PerStreamState.carrying_fragments pos, if_neg]
    exact other

theorem pieces_of_passes (passes : handler.passes frame = true) :
    handler.config.pieces frame = [frame] := by
  rw [FragmentationHandlerConfig.pieces, if_pos]
  simp only [FrameFragmentationHandler.passes, decide_eq_true_eq] at passes
  exact passes.imp_right And.left

theorem addToStreamQueue_spec (wf : StreamsWf handler.streams) (frame : OutboundFrame) :
    StreamsWf (handler.addToStreamQueue frame).streams ∧
      ∀ s, sending handler.config.maxFragmentSize (handler.addToStreamQueue frame).streams s =
        if s = frame.streamId then frame.state.fragments handler.config.maxFragmentSize
        else sending handler.config.maxFragmentSize handler.streams s := by
  have changed : (handler.addToStreamQueue frame).streams.Distinct ∧
      ∀ s, (handler.addToStreamQueue frame).streams.values s =
        if s = frame.streamId then [frame.state] else handler.streams.values s := by
    unfold addToStreamQueue
    rw [SrptHeap.find_eq]
    rcases values : handler.streams.values frame.streamId with _ | ⟨existing, others⟩
    · exact wf.distinct.insert key values frame.state
    · have member : existing ∈ handler.streams.values frame.streamId := by
        rw [values]
        exact List.mem_cons_self
      have single := wf.distinct.values_eq_singleton member
      have modified := wf.distinct.modify frame.streamId fun existing =>
        { frame.state with streamId := existing.streamId }
      have updated := modified.1.update key frame.streamId
      refine ⟨updated.1, fun s => ?_⟩
      refine (updated.2 s).trans ((modified.2 s).trans ?_)
      split
      next same =>
        rw [same, single, List.map_singleton, wf.streamId member]
        rfl
      next => rfl
  obtain ⟨wf', sent⟩ := wf.replace handler.config.maxFragmentSize changed (by
    intro state member
    rw [List.mem_singleton.mp member]
    rfl)
  exact ⟨wf', by simpa using sent⟩

/-- A frame that is kept comes behind what is held, if it takes the place of nothing. -/
theorem enqueue_spec (pos : 0 < handler.config.maxFragmentSize) (wf : StreamsWf handler.streams)
    (kept : handler.passes frame = false)
    (free : frame.streamId = s →
      sending handler.config.maxFragmentSize handler.streams frame.streamId = []) :
    StreamsWf (handler.enqueue frame).streams ∧ (handler.enqueue frame).held s =
        handler.held s ++ carrying s (handler.config.pieces frame) := by
  have beyond : ¬ (frame.payloadSize ≤ handler.config.minSizeToFragment ∨
      frame.payloadSize ≤ handler.config.maxFragmentSize ∧ handler.streams.isEmpty = true) := by
    simpa [passes] using kept
  unfold enqueue
  split
  next fits =>
    refine ⟨wf, ?_⟩
    have piece : handler.config.pieces frame = [frame] := by
      rw [FragmentationHandlerConfig.pieces, if_pos (.inr fits)]
    rw [piece]
    unfold held
    dsimp only
    rw [carrying_append, List.append_assoc, List.append_assoc]
    by_cases same : frame.streamId = s
    · rw [← same, free same, List.append_nil, List.nil_append]
    · rw [carrying_of_ne same, List.nil_append, List.append_nil]
  next large =>
    obtain ⟨wf', sent⟩ := addToStreamQueue_spec wf frame
    have pieces : handler.config.pieces frame =
        frame.state.fragments handler.config.maxFragmentSize := by
      rw [FragmentationHandlerConfig.pieces, if_neg]
      rintro (small | fits)
      · exact beyond (.inl small)
      · exact large fits
    have same : (handler.addToStreamQueue frame).immediateQueue = handler.immediateQueue ∧
        (handler.addToStreamQueue frame).config = handler.config := by
      unfold addToStreamQueue
      split <;> exact ⟨rfl, rfl⟩
    refine ⟨wf', ?_⟩
    unfold held
    dsimp only
    have id : frame.state.streamId = frame.streamId := rfl
    rw [same.1, same.2, sent, pieces, PerStreamState.carrying_fragments pos, id, List.append_assoc]
    by_cases here : frame.streamId = s
    · rw [if_pos here.symm, if_pos here, ← here, free here, List.nil_append]
    · rw [if_neg (Ne.symm here), if_neg here, List.append_nil]

/-- A write of another stream, or one that overtakes nothing of its own. -/
def InOrder (s : UInt32) (handler : FrameFragmentationHandler) (frame : OutboundFrame) : Prop :=
  frame.streamId = s →
    frame.frameType.isTerminal = false ∧ (frame.payload ≠ [] → handler.overtaken frame = [])

theorem cancelStream_spec (wf : StreamsWf handler.streams) {id : UInt32} (other : id ≠ s) :
    StreamsWf (handler.cancelStream id).streams ∧
      (handler.cancelStream id).config = handler.config ∧
      (handler.cancelStream id).held s = handler.held s := by
  unfold cancelStream
  split
  next =>
    obtain ⟨wf', sent⟩ := wf.replace handler.config.maxFragmentSize (wf.distinct.erase key id)
      (by simp)
    refine ⟨wf', rfl, ?_⟩
    unfold held
    rw [sent s, if_neg (Ne.symm other)]
  next => exact ⟨wf, rfl, rfl⟩

theorem onWrite_spec (pos : 0 < handler.config.maxFragmentSize) (wf : StreamsWf handler.streams)
    (inOrder : InOrder s handler frame)
    (run : handler.onWrite ctx frame = (handler', ctx', result)) :
    StreamsWf handler'.streams ∧ handler'.config = handler.config ∧
      carrying s ctx'.fired ++ handler'.held s =
        carrying s ctx.fired ++ handler.held s ++ carrying s (handler.config.pieces frame) := by
  rw [onWrite] at run
  dsimp only [Pipeline.fireWrite] at run
  split at run
  next terminal =>
    have other : frame.streamId ≠ s := by
      intro same
      rw [(inOrder same).1] at terminal
      cases terminal
    obtain ⟨wf', config, kept⟩ := cancelStream_spec wf other
    cases run
    refine ⟨wf', config, ?_⟩
    rw [kept, carrying_append, carrying_of_ne other, carrying_pieces pos other]
    simp
  next =>
    split at run
    next passes =>
      cases run
      refine ⟨wf, rfl, ?_⟩
      rw [pieces_of_passes passes, carrying_append, List.append_assoc, List.append_assoc]
      by_cases same : frame.streamId = s
      · by_cases some : frame.payload = []
        · simp [carrying_of_nil some]
        · have free := (inOrder same).2 some
          rw [overtaken, if_pos passes, same] at free
          rw [free, List.append_nil, List.nil_append]
      · rw [carrying_of_ne same, List.nil_append, List.append_nil]
    next kept =>
      have kept : handler.passes frame = false := by simpa using kept
      have free : frame.streamId = s →
          sending handler.config.maxFragmentSize handler.streams frame.streamId = [] := by
        intro same
        have some : frame.payload ≠ [] := by
          intro empty
          simp [passes, OutboundFrame.payloadSize, empty] at kept
        have free := (inOrder same).2 some
        rwa [overtaken, if_neg (by simp [kept])] at free
      obtain ⟨wf', queued⟩ := enqueue_spec pos wf kept free
      have config : (handler.enqueue frame).config = handler.config := by
        unfold enqueue addToStreamQueue
        split
        · rfl
        · split <;> rfl
      split at run
      next =>
        have pos' : 0 <
            (handler.enqueue frame).cancelLoopCallbackIfScheduled.config.maxFragmentSize := by
          change 0 < (handler.enqueue frame).config.maxFragmentSize
          rwa [config]
        obtain ⟨wf'', config', -, sent, -⟩ := doFlush_spec pos' wf' run
        refine ⟨wf'', config'.trans config, ?_⟩
        rw [sent, List.append_assoc, ← queued]
        rfl
      next =>
        cases run
        refine ⟨wf', config, ?_⟩
        rw [List.append_assoc, ← queued]
        rfl

/-- What was fired and what is held for a stream is what was written to it. -/
structure Sends (s : UInt32) (config : FragmentationHandlerConfig) (frames : List OutboundFrame)
    (state : FrameFragmentationHandler × Pipeline) : Prop where
  wf : StreamsWf state.1.streams
  sameConfig : state.1.config = config
  sent : carrying s state.2.fired ++ state.1.held s = carrying s (frames.flatMap config.pieces)

variable {config : FragmentationHandlerConfig} {frames : List OutboundFrame}
  {state : FrameFragmentationHandler × Pipeline}

theorem Sends.doFlush (pos : 0 < config.maxFragmentSize)
    (sends : Sends s config frames (handler, ctx)) :
    Sends s config frames ((handler.doFlush ctx).1, (handler.doFlush ctx).2.1) := by
  have pos' : 0 < handler.config.maxFragmentSize := by
    rw [sends.sameConfig]
    exact pos
  rcases run : handler.doFlush ctx with ⟨handler', ctx', result⟩
  obtain ⟨wf, config', -, kept, -⟩ := doFlush_spec pos' sends.wf run
  exact ⟨wf, config'.trans sends.sameConfig, (kept s).trans sends.sent⟩

theorem Sends.onWrite (pos : 0 < config.maxFragmentSize)
    (sends : Sends s config frames (handler, ctx)) (inOrder : InOrder s handler frame) :
    Sends s config (frames ++ if frame.streamId = s then [frame] else [])
      ((handler.onWrite ctx frame).1, (handler.onWrite ctx frame).2.1) := by
  have pos' : 0 < handler.config.maxFragmentSize := by
    rw [sends.sameConfig]
    exact pos
  rcases run : handler.onWrite ctx frame with ⟨handler', ctx', result⟩
  obtain ⟨wf, config', kept⟩ := onWrite_spec pos' sends.wf inOrder run
  refine ⟨wf, config'.trans sends.sameConfig, kept.trans ?_⟩
  have sent : carrying s ctx.fired ++ handler.held s = carrying s (frames.flatMap config.pieces) :=
    sends.sent
  rw [sent, List.flatMap_append, carrying_append]
  split
  next => rw [List.flatMap_singleton, ← sends.sameConfig]
  next other => rw [carrying_pieces pos' other]; rfl

theorem Sends.step (pos : 0 < config.maxFragmentSize) (sends : Sends s config frames state)
    (event : Event) (inOrder : ∀ frame, event = .write frame → InOrder s state.1 frame) :
    Sends s config (frames ++ written s [event]) (step state event) := by
  obtain ⟨handler, ctx⟩ := state
  cases event with
  | write frame =>
    have one : written s [.write frame] = if frame.streamId = s then [frame] else [] := by
      unfold written
      split <;> simp_all
    rw [one]
    exact sends.onWrite pos (inOrder frame rfl)
  | loop =>
    rw [show written s [.loop] = [] from rfl, List.append_nil]
    have ready : Sends s config frames ({ handler with isScheduled := false }, ctx) :=
      ⟨sends.wf, sends.sameConfig, sends.sent⟩
    exact ready.doFlush pos
  | writeReady =>
    rw [show written s [.writeReady] = [] from rfl, List.append_nil]
    have ready : Sends s config frames ({ handler with backpressured := false }, ctx) :=
      ⟨sends.wf, sends.sameConfig, sends.sent⟩
    exact ready.doFlush pos

/-- A run that ends no stream early and in which the stream's frames overtake nothing. -/
def Orderly (s : UInt32) (config : FragmentationHandlerConfig) (results : Nat → Result)
    (events : List Event) : Prop :=
  ∀ before frame after, events = before ++ .write frame :: after →
    InOrder s (run config results before).1 frame

theorem run_sends (pos : 0 < config.maxFragmentSize) {results : Nat → Result}
    {events : List Event} (orderly : Orderly s config results events) :
    Sends s config (written s events) (run config results events) := by
  induction events using List.reverseRecOn with
  | nil =>
    refine ⟨⟨by simp [run, new, SrptHeap.Distinct], ?_⟩, rfl, rfl⟩
    intro s state member
    cases member
  | append_singleton events event ih =>
    have sends := ih fun before frame after split =>
      orderly before frame (after ++ [event]) (by rw [split]; simp)
    have next := sends.step pos event fun frame same =>
      orderly events frame [] (by rw [same])
    rw [run, List.foldl_append, written, List.filterMap_append]
    exact next

theorem payloads_pieces (pos : 0 < config.maxFragmentSize) (frame : OutboundFrame) :
    payloads (config.pieces frame) = frame.payload := by
  unfold FragmentationHandlerConfig.pieces
  split
  · simp [payloads]
  · exact PerStreamState.payloads_fragments pos frame.state

theorem pieces_le (pos : 0 < config.maxFragmentSize) (frame : OutboundFrame) :
    config.pieces frame = [frame] ∨
      ∀ piece ∈ config.pieces frame, piece.payloadSize ≤ config.maxFragmentSize := by
  unfold FragmentationHandlerConfig.pieces
  split
  · exact .inl rfl
  · exact .inr (PerStreamState.fragments_le pos frame.state)

theorem follows_pieces (pos : 0 < config.maxFragmentSize)
    (whole : frame.flags.has .follows = false) :
    (config.pieces frame).map (fun piece => piece.flags.has .follows) =
      List.replicate ((config.pieces frame).length - 1) true ++ [false] := by
  unfold FragmentationHandlerConfig.pieces
  split
  · simp [whole]
  next large =>
    have more : frame.state.hasMore = true := by
      have some : frame.payload ≠ [] := by
        intro empty
        simp [OutboundFrame.payloadSize, empty] at large
      exact decide_eq_true some
    rw [PerStreamState.follows_fragments pos, more, if_pos rfl]

theorem payloads_carrying_pieces (pos : 0 < config.maxFragmentSize)
    (same : frame.streamId = s) : payloads (carrying s (config.pieces frame)) = frame.payload := by
  unfold FragmentationHandlerConfig.pieces
  split
  · by_cases empty : frame.payload = []
    · rw [carrying_of_nil empty, empty]
      rfl
    · rw [carrying_self same empty]
      exact List.flatMap_singleton ..
  · have id : frame.state.streamId = s := same
    rw [PerStreamState.carrying_fragments pos, if_pos id]
    exact PerStreamState.payloads_fragments pos frame.state

theorem payloads_append (frames others : List OutboundFrame) :
    payloads (frames ++ others) = payloads frames ++ payloads others :=
  List.flatMap_append

theorem payloads_carrying (pos : 0 < config.maxFragmentSize)
    (own : ∀ frame ∈ frames, frame.streamId = s) :
    payloads (carrying s (frames.flatMap config.pieces)) = payloads frames := by
  induction frames with
  | nil => rfl
  | cons frame frames ih =>
    rw [List.flatMap_cons, carrying_append, payloads_append,
      payloads_carrying_pieces pos (own frame List.mem_cons_self),
      ih fun frame member => own frame (List.mem_cons_of_mem _ member)]
    rfl

theorem streamId_of_written (s : UInt32) (events : List Event) :
    ∀ frame ∈ written s events, frame.streamId = s := by
  intro frame member
  obtain ⟨event, -, kept⟩ := List.mem_filterMap.mp member
  cases event with
  | write frame' =>
    dsimp only at kept
    split at kept
    next same =>
      cases kept
      exact same
    next => cases kept
  | loop => cases kept
  | writeReady => cases kept

/-- A stream's frames are sent in the order in which they were written, none of them lost. -/
structure SentInOrder (s : UInt32) (config : FragmentationHandlerConfig) (results : Nat → Result)
    (events : List Event) : Prop where
  /-- What was fired and what is held are the bytes that were written. -/
  bytes : payloads (carrying s (run config results events).2.fired) ++
    payloads ((run config results events).1.held s) = payloads (written s events)
  /-- So are the frames, piece by piece. -/
  frames : carrying s (run config results events).2.fired ++ (run config results events).1.held s =
    carrying s ((written s events).flatMap config.pieces)
  /-- A flush that is not stopped fires what is held. -/
  flushed : ∀ later : Pipeline, later.fired = (run config results events).2.fired →
    (∀ n, later.results n ≠ .backpressure) →
      payloads (carrying s ((run config results events).1.runLoopCallback later).2.1.fired) =
        payloads (written s events)
  /-- Pieces make up their frame, within the limit, and all but the last say that one follows. -/
  pieces : ∀ frame ∈ written s events, frame.flags.has .follows = false →
    payloads (config.pieces frame) = frame.payload ∧
    (config.pieces frame = [frame] ∨
      ∀ piece ∈ config.pieces frame, piece.payloadSize ≤ config.maxFragmentSize) ∧
    (config.pieces frame).map (fun piece => piece.flags.has .follows) =
      List.replicate ((config.pieces frame).length - 1) true ++ [false]

/-- A stream is sent in order if none of its frames overtakes what is held of it or takes its
place. -/
theorem fragments_in_order (pos : 0 < config.maxFragmentSize) {results : Nat → Result}
    {events : List Event} (orderly : Orderly s config results events) :
    SentInOrder s config results events := by
  have sends := run_sends pos orderly
  have pos' : 0 < (run config results events).1.config.maxFragmentSize := by
    rw [sends.sameConfig]
    exact pos
  have bytes := payloads_carrying pos (streamId_of_written s events)
  refine ⟨?_, sends.sent, fun later same ready => ?_, fun frame _ whole =>
    ⟨payloads_pieces pos frame, pieces_le pos frame, follows_pieces pos whole⟩⟩
  · rw [← payloads_append, sends.sent, bytes]
  · have all : carrying s ((run config results events).1.runLoopCallback later).2.1.fired =
        carrying s later.fired ++ (run config results events).1.held s :=
      doFlush_all { (run config results events).1 with isScheduled := false } pos' sends.wf ready s
    rw [all, same, sends.sent, bytes]

end

/-- Fragments of two bytes. -/
def smallFragments : FragmentationHandlerConfig := ⟨2, 100, 10, 1⟩

def frameOf (payload : Bytes) : OutboundFrame := ⟨1, .payload, ⟨0⟩, payload⟩

/-- A frame that is written when the one before it is sent. -/
theorem fragments_in_order_flushed : SentInOrder 1 smallFragments (fun _ => .success)
      [.write (frameOf [1, 2, 3, 4, 5]), .loop, .write (frameOf [6, 7, 8])] := by
  apply fragments_in_order (by decide)
  intro before frame after split
  rcases before with _ | ⟨e₁, _ | ⟨e₂, _ | ⟨e₃, before⟩⟩⟩
  · cases split
    intro _
    exact ⟨rfl, by decide +kernel⟩
  · cases split
  · cases split
    intro _
    exact ⟨rfl, by decide +kernel⟩
  · simp at split

/-- The second of two large frames takes the place of the first, of which nothing is sent. -/
theorem second_frame_replaces_first : ¬ SentInOrder 1 smallFragments (fun _ => .success)
      [.write (frameOf [1, 2, 3, 4, 5]), .write (frameOf [6, 7, 8]), .loop] := by
  intro sent
  have bytes := sent.bytes
  revert bytes
  decide +kernel

end FrameFragmentationHandler

end FbThrift.FastThrift
