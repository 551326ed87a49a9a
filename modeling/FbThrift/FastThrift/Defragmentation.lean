import FbThrift.FastThrift.FrameParser
import FbThrift.Lib.Interleaving

/-!
# Reassembling fragments

`FrameDefragmentationHandler` keeps the fragments of each stream until the frame without the
follows bit arrives, up to a limit on the bytes of all streams.  A fragment over the limit is
answered with backpressure and forgotten, and the parser upstream goes on with the next frame.
-/

namespace FbThrift.FastThrift

open Rocket (Flags)
open SortedMap

structure FragmentState where
  originalType : FrameType
  originalFlags : Flags
  streamId : UInt32
  metadataSize : UInt16
  payload : Bytes
  accumulatedBytes : Nat

/-- The bytes are in memory, so that their number does not wrap around. -/
structure FrameDefragmentationHandler where
  pending : List (UInt32 × FragmentState)
  maxPendingBytes : Nat
  totalPendingBytes : Nat

/-- How `onRead` returns: with what `fireRead` returns for a frame, or with a result. -/
inductive Answer where
  | fireRead (frame : ParsedFrame)
  | result (result : Result)
  deriving DecidableEq

def Answer.fired : Answer → List ParsedFrame
  | fireRead frame => [frame]
  | result _ => []

namespace FrameDefragmentationHandler

def new (maxPendingBytes : Nat) : FrameDefragmentationHandler where
  pending := []
  maxPendingBytes := maxPendingBytes
  totalPendingBytes := 0

/-- The state that `initPendingFragment` puts into the map. -/
def initialState (frame : ParsedFrame) : FragmentState where
  originalType := frame.frameType
  originalFlags := frame.metadata.flags
  streamId := frame.streamId
  metadataSize := frame.metadata.metadataSize
  payload := if 0 < frame.metadata.payloadSize then frame.payload else []
  accumulatedBytes :=
    if 0 < frame.metadata.payloadSize then frame.metadata.payloadSize.toNat else 0

def initPendingFragment (handler : FrameDefragmentationHandler) (frame : ParsedFrame) :
    FrameDefragmentationHandler :=
  { handler with
    pending := emplace frame.streamId (initialState frame) handler.pending
    totalPendingBytes := handler.totalPendingBytes + (initialState frame).accumulatedBytes }

/-- The entry behind `appendToPending`. -/
def appendToPending (state : FragmentState) (frame : ParsedFrame) : FragmentState :=
  if 0 < frame.metadata.dataSize then
    { state with
      payload := state.payload ++ frame.data
      accumulatedBytes := state.accumulatedBytes + frame.metadata.dataSize.toNat }
  else state

/-- The number of bytes is cast to `uint32_t`. -/
def assembleFrame (state : FragmentState) : ParsedFrame where
  metadata :=
    { frameType := state.originalType
      streamId := state.streamId
      flags := state.originalFlags.set .follows false
      metadataSize := state.metadataSize
      payloadOffset := 0
      payloadSize := UInt32.ofNat state.accumulatedBytes }
  buffer := state.payload

def handleFragment (handler : FrameDefragmentationHandler) (frame : ParsedFrame) :
    FrameDefragmentationHandler × Answer :=
  match find frame.streamId handler.pending with
  | none =>
    if !frame.hasFollows then (handler, .fireRead frame)
    else if handler.maxPendingBytes <
        handler.totalPendingBytes + frame.metadata.payloadSize.toNat then
      (handler, .result .backpressure)
    else (handler.initPendingFragment frame, .result .success)
  | some state =>
    if handler.maxPendingBytes < handler.totalPendingBytes + frame.metadata.dataSize.toNat then
      (handler, .result .backpressure)
    else
      let state := appendToPending state frame
      let total := handler.totalPendingBytes + frame.metadata.dataSize.toNat
      if !frame.hasFollows then
        ({ handler with
            pending := erase frame.streamId handler.pending
            totalPendingBytes := total - state.accumulatedBytes },
          .fireRead (assembleFrame state))
      else
        ({ handler with
            pending := insertOrAssign frame.streamId state handler.pending
            totalPendingBytes := total },
          .result .success)

/-- What a terminal frame does to the pending fragments of its stream. -/
def clearPending (handler : FrameDefragmentationHandler) (streamId : UInt32) :
    FrameDefragmentationHandler :=
  match find streamId handler.pending with
  | none => handler
  | some state =>
    { handler with
      pending := erase streamId handler.pending
      totalPendingBytes := handler.totalPendingBytes - state.accumulatedBytes }

def onRead (handler : FrameDefragmentationHandler) (frame : ParsedFrame) :
    FrameDefragmentationHandler × Answer :=
  if !frame.hasFollows ∧ handler.pending = [] then (handler, .fireRead frame)
  else if frame.frameType.isTerminal then
    (handler.clearPending frame.streamId, .fireRead frame)
  else handler.handleFragment frame

/-- One frame of the parser, which does not offer it again. -/
def step (handler : FrameDefragmentationHandler) (frame : ParsedFrame) :
    FrameDefragmentationHandler × List ParsedFrame :=
  ((handler.onRead frame).1, (handler.onRead frame).2.fired)

/-- The handler behind the frames, and what it has fired. -/
def run (maxPendingBytes : Nat) (frames : List ParsedFrame) :
    FrameDefragmentationHandler × List ParsedFrame :=
  transduce step (new maxPendingBytes) frames

/-! ## Reading one frame -/

/-- A frame behind which more fragments follow. -/
def Continues (frame : ParsedFrame) : Prop :=
  frame.hasFollows = true ∧ frame.frameType.isTerminal = false

instance (frame : ParsedFrame) : Decidable (Continues frame) :=
  inferInstanceAs (Decidable (_ ∧ _))

/-- The fragment would exceed the limit. -/
def Exceeds (handler : FrameDefragmentationHandler) (frame : ParsedFrame) : Prop :=
  frame.frameType.isTerminal = false ∧ match find frame.streamId handler.pending with
    | none => frame.hasFollows = true ∧ handler.maxPendingBytes <
        handler.totalPendingBytes + frame.metadata.payloadSize.toNat
    | some _ => handler.maxPendingBytes <
        handler.totalPendingBytes + frame.metadata.dataSize.toNat

instance (handler : FrameDefragmentationHandler) (frame : ParsedFrame) :
    Decidable (handler.Exceeds frame) := by
  unfold Exceeds
  cases find frame.streamId handler.pending <;> infer_instance

/-- The fast path is no special case. -/
theorem onRead_eq (handler : FrameDefragmentationHandler) (frame : ParsedFrame) :
    handler.onRead frame = if frame.frameType.isTerminal then
        (handler.clearPending frame.streamId, .fireRead frame)
      else handler.handleFragment frame := by
  unfold onRead
  split
  next fast =>
    obtain ⟨whole, idle⟩ := fast
    simp [clearPending, handleFragment, idle, whole]
  next => rfl

theorem onRead_exceeds {handler : FrameDefragmentationHandler} {frame : ParsedFrame}
    (exceeds : handler.Exceeds frame) :
    handler.onRead frame = (handler, .result .backpressure) := by
  obtain ⟨nonterminal, tooMuch⟩ := exceeds
  rw [onRead_eq, nonterminal, handleFragment]
  cases present : find frame.streamId handler.pending with
  | none =>
    rw [present] at tooMuch
    simp [tooMuch.1, tooMuch.2]
  | some state =>
    rw [present] at tooMuch
    simp [show handler.maxPendingBytes <
      handler.totalPendingBytes + frame.metadata.dataSize.toNat from tooMuch]

theorem onRead_backpressure_iff {handler : FrameDefragmentationHandler} {frame : ParsedFrame} :
    (handler.onRead frame).2 = .result .backpressure ↔ handler.Exceeds frame := by
  constructor
  · intro answer
    rw [onRead_eq] at answer
    unfold Exceeds
    unfold handleFragment at answer
    grind
  · intro exceeds
    rw [onRead_exceeds exceeds]

/-! ## The bytes that are pending -/

/-- The counters tell the bytes in the buffers. -/
structure Accounted (handler : FrameDefragmentationHandler) : Prop where
  sorted : Sorted handler.pending
  keyed : ∀ e ∈ handler.pending, e.2.streamId = e.1
  each : ∀ e ∈ handler.pending, e.2.accumulatedBytes = e.2.payload.length
  sum : handler.totalPendingBytes = total (fun state => state.accumulatedBytes) handler.pending

theorem accounted_new (maxPendingBytes : Nat) : (new maxPendingBytes).Accounted :=
  ⟨sorted_nil, by simp [new], by simp [new], rfl⟩

theorem accumulatedBytes_initialState {frame : ParsedFrame} (sized : frame.Sized) :
    (initialState frame).accumulatedBytes = (initialState frame).payload.length := by
  unfold initialState
  dsimp only
  split
  · exact sized.length_payload.symm
  · rfl

theorem accumulatedBytes_appendToPending {state : FragmentState} {frame : ParsedFrame}
    (sized : frame.Sized) (each : state.accumulatedBytes = state.payload.length) :
    (appendToPending state frame).accumulatedBytes =
      (appendToPending state frame).payload.length := by
  unfold appendToPending
  split
  · rw [List.length_append, sized.length_data, each]
  · exact each

theorem accumulatedBytes_append (state : FragmentState) (frame : ParsedFrame) :
    (appendToPending state frame).accumulatedBytes =
      state.accumulatedBytes + frame.metadata.dataSize.toNat := by
  unfold appendToPending
  split
  next => rfl
  next none =>
    rw [UInt32.lt_iff_toNat_lt, UInt32.toNat_zero] at none
    omega

theorem streamId_appendToPending (state : FragmentState) (frame : ParsedFrame) :
    (appendToPending state frame).streamId = state.streamId := by
  unfold appendToPending
  split <;> rfl

namespace Accounted

variable {handler : FrameDefragmentationHandler} {frame : ParsedFrame}

theorem erase (accounted : handler.Accounted) {streamId : UInt32} {state : FragmentState}
    (present : find streamId handler.pending = some state) :
    Accounted
      { handler with
        pending := SortedMap.erase streamId handler.pending
        totalPendingBytes := handler.totalPendingBytes - state.accumulatedBytes } := by
  refine ⟨accounted.sorted.erase streamId, ?_, ?_, ?_⟩
  · intro e member
    exact accounted.keyed e ((erase_sublist streamId _).subset member)
  · intro e member
    exact accounted.each e ((erase_sublist streamId _).subset member)
  · have removed := accounted.sorted.total_erase (fun s => s.accumulatedBytes) streamId
    rw [present, Option.elim_some] at removed
    have sum := accounted.sum
    dsimp only
    omega

theorem clearPending (accounted : handler.Accounted) (streamId : UInt32) :
    (handler.clearPending streamId).Accounted := by
  unfold FrameDefragmentationHandler.clearPending
  split
  next => exact accounted
  next present => exact accounted.erase present

theorem initPendingFragment (accounted : handler.Accounted) (sized : frame.Sized)
    (absent : find frame.streamId handler.pending = none) :
    (handler.initPendingFragment frame).Accounted := by
  have free : contains frame.streamId handler.pending = false := contains_eq_false.mpr absent
  refine ⟨accounted.sorted.emplace _ _, ?_, ?_, ?_⟩
  · intro e member
    simp only [FrameDefragmentationHandler.initPendingFragment, emplace, free,
      Bool.false_eq_true, if_false] at member
    rcases mem_insertOrAssign member with rfl | old
    · rfl
    · exact accounted.keyed e old
  · intro e member
    simp only [FrameDefragmentationHandler.initPendingFragment, emplace, free,
      Bool.false_eq_true, if_false] at member
    rcases mem_insertOrAssign member with rfl | old
    · exact accumulatedBytes_initialState sized
    · exact accounted.each e old
  · have added := accounted.sorted.total_insertOrAssign (fun s => s.accumulatedBytes)
      frame.streamId (initialState frame)
    rw [absent, Option.elim_none] at added
    have sum := accounted.sum
    simp only [FrameDefragmentationHandler.initPendingFragment, emplace, free,
      Bool.false_eq_true, if_false]
    omega

theorem append (accounted : handler.Accounted) (sized : frame.Sized) {state : FragmentState}
    (present : find frame.streamId handler.pending = some state) :
    Accounted
      { handler with
        pending := insertOrAssign frame.streamId (appendToPending state frame) handler.pending
        totalPendingBytes := handler.totalPendingBytes + frame.metadata.dataSize.toNat } := by
  have each : state.accumulatedBytes = state.payload.length :=
    accounted.each _ (mem_of_find present)
  refine ⟨accounted.sorted.insertOrAssign _ _, ?_, ?_, ?_⟩
  · intro e member
    rcases mem_insertOrAssign member with rfl | old
    · exact (streamId_appendToPending state frame).trans (accounted.keyed _ (mem_of_find present))
    · exact accounted.keyed e old
  · intro e member
    rcases mem_insertOrAssign member with rfl | old
    · exact accumulatedBytes_appendToPending sized each
    · exact accounted.each e old
  · have added := accounted.sorted.total_insertOrAssign (fun s => s.accumulatedBytes)
      frame.streamId (appendToPending state frame)
    rw [present, Option.elim_some, accumulatedBytes_append] at added
    have sum := accounted.sum
    dsimp only
    omega

theorem onRead (accounted : handler.Accounted) (sized : frame.Sized) :
    (handler.onRead frame).1.Accounted := by
  rw [onRead_eq]
  split
  next => exact accounted.clearPending frame.streamId
  next =>
    unfold handleFragment
    cases present : find frame.streamId handler.pending with
    | none =>
      dsimp only
      split
      · exact accounted
      · split
        · exact accounted
        · exact accounted.initPendingFragment sized present
    | some state =>
      dsimp only
      split
      · exact accounted
      · split
        · -- what the last fragment adds leaves with the others
          have left := accounted.erase present
          rw [accumulatedBytes_append, Nat.add_sub_add_right]
          exact left
        · exact accounted.append sized present

theorem fired_streamId (accounted : handler.Accounted) (frame : ParsedFrame) :
    ∀ fired ∈ (handler.onRead frame).2.fired, fired.streamId = frame.streamId := by
  rw [onRead_eq]
  split
  next => simp [Answer.fired]
  next =>
    unfold handleFragment
    cases present : find frame.streamId handler.pending with
    | none =>
      dsimp only
      split
      · simp [Answer.fired]
      · split <;> simp [Answer.fired]
    | some state =>
      have own : state.streamId = frame.streamId := accounted.keyed _ (mem_of_find present)
      dsimp only
      split
      · simp [Answer.fired]
      · split
        · simp [Answer.fired, assembleFrame, ParsedFrame.streamId, streamId_appendToPending, own]
        · simp [Answer.fired]

end Accounted

/-- The counter tells the bytes that are buffered, whatever has been read. -/
theorem totalPendingBytes_run (maxPendingBytes : Nat) {frames : List ParsedFrame}
    (sized : ∀ frame ∈ frames, frame.Sized) :
    (run maxPendingBytes frames).1.totalPendingBytes =
      total (fun state => state.payload.length) (run maxPendingBytes frames).1.pending := by
  have accounted : (run maxPendingBytes frames).1.Accounted :=
    transduce_keeps (fun _ frame member accounted => accounted.onRead (sized frame member))
      (accounted_new maxPendingBytes)
  rw [accounted.sum, total, total]
  exact congrArg List.sum (List.map_congr_left fun e member => accounted.each e member)

/-! ## One stream by itself -/

/-- The state of a stream whose fragments are those. -/
def stateOf : List ParsedFrame → Option FragmentState
  | [] => none
  | first :: rest =>
    some
      { originalType := first.frameType
        originalFlags := first.metadata.flags
        streamId := first.streamId
        metadataSize := first.metadata.metadataSize
        payload := first.payload ++ rest.flatMap ParsedFrame.data
        accumulatedBytes := (first.payload ++ rest.flatMap ParsedFrame.data).length }

theorem initialState_eq {frame : ParsedFrame} (sized : frame.Sized) :
    some (initialState frame) = stateOf [frame] := by
  have length := sized.length_payload
  unfold initialState stateOf
  split
  next => simp [length]
  next none =>
    rw [UInt32.lt_iff_toNat_lt, UInt32.toNat_zero] at none
    have empty : frame.payload = [] := List.length_eq_zero_iff.mp (by omega)
    simp [empty]

theorem appendToPending_eq {first frame : ParsedFrame} {rest : List ParsedFrame}
    {state : FragmentState} (sized : frame.Sized) (held : stateOf (first :: rest) = some state) :
    some (appendToPending state frame) = stateOf (first :: (rest ++ [frame])) := by
  have length := sized.length_data
  cases held
  unfold appendToPending stateOf
  split
  next => simp [length, Nat.add_assoc]
  next none =>
    rw [UInt32.lt_iff_toNat_lt, UInt32.toNat_zero] at none
    have empty : frame.data = [] := List.length_eq_zero_iff.mp (by omega)
    simp [empty]

/-- What a stream makes of its next frame when there is no limit: the fragments that it holds
then, and what it fires. -/
def collect (held : List ParsedFrame) (frame : ParsedFrame) : List ParsedFrame × List ParsedFrame :=
  if frame.frameType.isTerminal then ([], [frame])
  else if frame.hasFollows then (held ++ [frame], [])
  else
    match stateOf (held ++ [frame]) with
    | some state => ([], [if held = [] then frame else assembleFrame state])
    | none => ([], [])

theorem find_clearPending (handler : FrameDefragmentationHandler) (streamId k : UInt32) :
    find k (handler.clearPending streamId).pending =
      if k = streamId then none else find k handler.pending := by
  unfold clearPending
  split
  next absent =>
    split
    next same => rw [same, absent]
    next => rfl
  next => simp [find_erase]

/-- Frames of other streams do not matter. -/
theorem onRead_others (handler : FrameDefragmentationHandler) {frame : ParsedFrame} {k : UInt32}
    (other : k ≠ frame.streamId) :
    find k (handler.onRead frame).1.pending = find k handler.pending := by
  rw [onRead_eq]
  split
  next => rw [find_clearPending, if_neg other]
  next =>
    unfold handleFragment initPendingFragment
    split
    · split
      · rfl
      · split
        · rfl
        · rw [find_emplace, if_neg other]
    · dsimp only
      split
      · rfl
      · split
        · rw [find_erase, if_neg other]
        · rw [find_insertOrAssign, if_neg other]

theorem onRead_terminal (handler : FrameDefragmentationHandler) {frame : ParsedFrame}
    (terminal : frame.frameType.isTerminal = true) (held : List ParsedFrame) :
    find frame.streamId (handler.onRead frame).1.pending = stateOf (collect held frame).1 ∧
      (handler.onRead frame).2.fired = (collect held frame).2 := by
  rw [onRead_eq, if_pos terminal, collect, if_pos terminal, find_clearPending, if_pos rfl]
  exact ⟨rfl, rfl⟩

/-- A fragment within the limit does to its stream what it does without a limit. -/
theorem onRead_own {handler : FrameDefragmentationHandler} {frame : ParsedFrame}
    {held : List ParsedFrame} (sized : frame.Sized) (fits : ¬ handler.Exceeds frame)
    (state : find frame.streamId handler.pending = stateOf held) :
    find frame.streamId (handler.onRead frame).1.pending = stateOf (collect held frame).1 ∧
      (handler.onRead frame).2.fired = (collect held frame).2 := by
  cases terminal : frame.frameType.isTerminal with
  | true => exact onRead_terminal handler terminal held
  | false =>
    simp only [Exceeds, terminal, true_and, state] at fits
    rw [onRead_eq, terminal, collect, terminal]
    simp only [Bool.false_eq_true, if_false]
    cases held with
    | nil =>
      unfold handleFragment
      rw [state]
      cases follows : frame.hasFollows with
      | false => simp [stateOf, state, Answer.fired]
      | true =>
        have within : ¬ handler.maxPendingBytes <
            handler.totalPendingBytes + frame.metadata.payloadSize.toNat := by
          simpa [stateOf, follows] using fits
        have started := initialState_eq sized
        simp only [stateOf, List.flatMap_nil, List.append_nil, Option.some.injEq] at started
        simp [stateOf, within, Answer.fired, initPendingFragment, find_emplace, state, started]
    | cons first rest =>
      obtain ⟨held, known⟩ : ∃ held, stateOf (first :: rest) = some held := ⟨_, rfl⟩
      have appended := appendToPending_eq sized known
      have within : ¬ handler.maxPendingBytes <
          handler.totalPendingBytes + frame.metadata.dataSize.toNat := by
        simpa [known] using fits
      unfold handleFragment
      rw [state, known, List.cons_append, ← appended]
      cases follows : frame.hasFollows with
      | false => simp [within, Answer.fired, find_erase, stateOf]
      | true => simp [within, Answer.fired, ← appended]

end FrameDefragmentationHandler

end FbThrift.FastThrift
