import FbThrift.Lib.Interleaving
import FbThrift.Rocket.Fragment

/-!
# Reassembly of fragmented messages

A server keeps the request frames whose fragments have not all arrived, by stream id, and
appends the payloads of payload frames to them.  A client does so with the payloads of
responses: in the context of a request-response and, for streams, in a map by stream id.
-/

namespace FbThrift.Rocket

open SortedMap

/-! ## The server -/

/-- The part of a `RocketServerConnection` that reassembles requests. -/
structure ServerFragments where
  partialRequestFrames : List (UInt32 × RequestFrame) := []

namespace ServerFragments

/-- The frames for which `onFullFrame` is called, with the stream id of its context. -/
abbrev Delivered := UInt32 × RequestFrame

def handleRequestFrame (s : ServerFragments) (frame : RequestFrame) :
    ServerFragments × List Delivered :=
  if frame.hasFollows then
    (⟨emplace frame.streamId frame s.partialRequestFrames⟩, [])
  else (s, [(frame.streamId, frame)])

/-- A payload frame of a stream that has no handler. -/
def handleUntrackedFrame (s : ServerFragments) (payloadFrame : PayloadFrame) :
    ServerFragments × List Delivered :=
  match find payloadFrame.streamId s.partialRequestFrames with
  | none => (s, [])
  | some requestFrame =>
    let requestFrame :=
      { requestFrame with payload := requestFrame.payload.append payloadFrame.payload }
    if payloadFrame.hasFollows then
      (⟨insertOrAssign payloadFrame.streamId requestFrame s.partialRequestFrames⟩, [])
    else
      (⟨erase payloadFrame.streamId s.partialRequestFrames⟩,
        [(payloadFrame.streamId, requestFrame)])

/-- Other frames do not touch the partial frames. -/
def handleFrame (s : ServerFragments) : Frame → ServerFragments × List Delivered
  | .request frame => s.handleRequestFrame frame
  | .payload frame => s.handleUntrackedFrame frame
  | .other _ _ => (s, [])

end ServerFragments

/-! ## The client -/

/-- A payload that was handed on, with the flags of the frame that completed it. -/
structure Delivery where
  streamId : UInt32
  payload : Payload
  next : Bool
  complete : Bool
  deriving DecidableEq, Repr

/-- The part of a `RocketClient` that reassembles responses. -/
structure ClientFragments where
  /-- The request-responses that the queue tracks, with what they got so far. -/
  requestResponseContexts : List (UInt32 × Option Payload) := []
  bufferedFragments : List (UInt32 × Payload) := []

namespace ClientFragments

def bufferOrGetFullPayload (c : ClientFragments) (payloadFrame : PayloadFrame) :
    ClientFragments × Option Payload :=
  let buffered := find payloadFrame.streamId c.bufferedFragments
  if payloadFrame.hasFollows then
    match buffered with
    | some firstFragments =>
      ({ c with
        bufferedFragments := insertOrAssign payloadFrame.streamId
          (firstFragments.append payloadFrame.payload) c.bufferedFragments }, none)
    | none =>
      ({ c with
        bufferedFragments := emplace payloadFrame.streamId payloadFrame.payload
          c.bufferedFragments }, none)
  else
    match buffered with
    | some firstFragments =>
      ({ c with bufferedFragments := erase payloadFrame.streamId c.bufferedFragments },
        some (firstFragments.append payloadFrame.payload))
    | none => (c, some payloadFrame.payload)

/-- The flags of a fragmented message are those of its last fragment. -/
def handlePayloadFrame (c : ClientFragments) (payloadFrame : PayloadFrame) :
    ClientFragments × List Delivery :=
  let (c, fullPayload) := c.bufferOrGetFullPayload payloadFrame
  (c, fullPayload.toList.map fun payload =>
    ⟨payloadFrame.streamId, payload, payloadFrame.hasNext, payloadFrame.hasComplete⟩)

/-- `RequestContext::onPayloadFrame`; a context is not tracked once it is responded to. -/
def onPayloadFrame (c : ClientFragments) (responsePayload : Option Payload)
    (payloadFrame : PayloadFrame) : ClientFragments × List Delivery :=
  let payload := match responsePayload with
    | none => payloadFrame.payload
    | some responsePayload => responsePayload.append payloadFrame.payload
  if payloadFrame.hasFollows then
    ({ c with
      requestResponseContexts := insertOrAssign payloadFrame.streamId (some payload)
        c.requestResponseContexts }, [])
  else
    ({ c with
      requestResponseContexts := erase payloadFrame.streamId c.requestResponseContexts },
      [⟨payloadFrame.streamId, payload, payloadFrame.hasNext, payloadFrame.hasComplete⟩])

/-- Other frames do not touch the payloads that are kept. -/
def handleFrame (c : ClientFragments) : Frame → ClientFragments × List Delivery
  | .payload frame =>
    match find frame.streamId c.requestResponseContexts with
    | some responsePayload => c.onPayloadFrame responsePayload frame
    | none => c.handlePayloadFrame frame
  | .request _ | .other _ _ => (c, [])

end ClientFragments

/-! ## Messages -/

/-- The kind of a request, with all that it says beside its payload. -/
inductive RequestKind where
  | response
  | fnf
  | stream (initialRequestN : Int32)
  | channel (initialRequestN : Int32) (complete : Bool)
  deriving DecidableEq, Repr

structure Request where
  kind : RequestKind
  streamId : UInt32
  metadata : Bytes
  data : Bytes
  deriving DecidableEq, Repr

/-- The frame of a request, as its constructor and `setHasComplete` make it. -/
def Request.frame (r : Request) : RequestFrame :=
  let payload := Payload.makeFromMetadataAndData r.metadata r.data
  match r.kind with
  | .response => ⟨.response, r.streamId, ⟨0⟩, payload⟩
  | .fnf => ⟨.fnf, r.streamId, ⟨0⟩, payload⟩
  | .stream initialRequestN => ⟨.stream initialRequestN, r.streamId, ⟨0⟩, payload⟩
  | .channel initialRequestN complete =>
    ⟨.channel initialRequestN, r.streamId, (⟨0⟩ : Flags).set .complete complete, payload⟩

/-- What a handler gets to see of a request frame. -/
def RequestFrame.request (f : RequestFrame) : Request where
  kind := match f.type with
    | .response => .response
    | .fnf => .fnf
    | .stream initialRequestN => .stream initialRequestN
    | .channel initialRequestN => .channel initialRequestN f.hasComplete
  streamId := f.streamId
  metadata := f.payload.metadata
  data := f.payload.data

structure Response where
  streamId : UInt32
  metadata : Bytes
  data : Bytes
  next : Bool
  complete : Bool
  deriving DecidableEq, Repr

def Response.frame (r : Response) : PayloadFrame :=
  ⟨r.streamId, ((⟨0⟩ : Flags).set .next r.next).set .complete r.complete,
    .makeFromMetadataAndData r.metadata r.data⟩

def Delivery.response (d : Delivery) : Response :=
  ⟨d.streamId, d.payload.metadata, d.payload.data, d.next, d.complete⟩

/-- The frames that a connection reads from the bytes of its transport. -/
def readFrames (bytes : Bytes) : Except String (List Frame) :=
  (frames.split bytes).1.mapM fun body => Prod.fst <$> readFrame body

/-! ## Frames of messages -/

namespace Request

variable (r : Request)

@[simp] theorem streamId_frame : r.frame.streamId = r.streamId := by
  obtain ⟨kind, _, _, _⟩ := r
  cases kind <;> rfl

@[simp] theorem payload_frame : r.frame.payload = .makeFromMetadataAndData r.metadata r.data := by
  obtain ⟨kind, _, _, _⟩ := r
  cases kind <;> rfl

theorem plain : r.frame.Plain where
  hasFollows := by
    obtain ⟨kind, _, _, _⟩ := r
    cases kind <;> simp [frame, RequestFrame.hasFollows]
  flags := by
    have valid : r.frame.flags.Valid := by
      obtain ⟨kind, _, _, _⟩ := r
      cases kind with
      | channel _ _ => exact Flags.Valid.none.set _ _
      | _ => exact Flags.Valid.none
    apply Flags.Valid.ext (valid.set _ _) r.frame.valid_writtenFlags
    intro bit
    obtain ⟨kind, _, _, _⟩ := r
    cases kind <;> cases bit <;>
      simp [frame, RequestFrame.writtenFlags, RequestFrame.hasFollows, RequestFrame.hasComplete,
        RequestType.isChannel]
  metadata_le := by simp [Payload.makeFromMetadataAndData]

theorem request_of {f : RequestFrame} (type : f.type = r.frame.type)
    (streamId : f.streamId = r.frame.streamId) (complete : f.hasComplete = r.frame.hasComplete)
    (payload : f.payload = r.frame.payload) : f.request = r := by
  rw [RequestFrame.request, type, streamId, complete, payload]
  obtain ⟨kind, _, _, _⟩ := r
  cases kind <;>
    simp [frame, RequestFrame.hasComplete, RequestType.isChannel, Payload.metadata, Payload.data,
      Payload.makeFromMetadataAndData]

end Request

/-! ## A message by itself -/

section

variable {τ ω : Type} {metadataSize : Nat} {buffer : Bytes}

theorem append_chunk (q : Payload) (metadataSize : Nat) (buffer : Bytes) :
    (q.append ⟨buffer.take kMaxFragmentedPayloadSize,
      min metadataSize kMaxFragmentedPayloadSize⟩).append ⟨buffer.drop kMaxFragmentedPayloadSize,
          metadataSize - min metadataSize kMaxFragmentedPayloadSize⟩ =
      q.append ⟨buffer, metadataSize⟩ := by
  simp only [Payload.append, List.append_assoc, List.take_append_drop]
  congr 1
  omega

theorem chunk_append (metadataSize : Nat) (buffer : Bytes) :
    Payload.append ⟨buffer.take kMaxFragmentedPayloadSize,
      min metadataSize kMaxFragmentedPayloadSize⟩ ⟨buffer.drop kMaxFragmentedPayloadSize,
          metadataSize - min metadataSize kMaxFragmentedPayloadSize⟩ =
      ⟨buffer, metadataSize⟩ := by
  simp [Payload.append]

/-- A receiver that appends while frames follow gives out the whole payload with the last
frame. -/
theorem transduce_fragments {step : τ → Frame → τ × List ω} {held : Payload → τ} {idle : τ}
    {deliver : Payload → ω} {emit : Bool → Payload → Bool → Frame}
    (goesOn : ∀ q p, step (held q) (emit false p true) = (held (q.append p), []))
    (ends : ∀ q p, step (held q) (emit false p false) = (idle, [deliver (q.append p)]))
    (metadata : metadataSize ≤ buffer.length) (q : Payload) :
    transduce step (held q) (fragmentLoop emit false metadataSize buffer) =
      (idle, [deliver (q.append ⟨buffer, metadataSize⟩)]) := by
  induction metadataSize, buffer using fragment_induction generalizing q with
  | last metadataSize buffer last =>
    have small : Payload.Small ⟨buffer, metadataSize⟩ :=
      ⟨metadata, List.drop_eq_nil_iff.mp last⟩
    have whole := Payload.take_eq small
    rw [fragmentLoop_last last]
    simp only at whole
    simp only [transduce, ends, whole, List.append_nil]
  | more metadataSize buffer more ih =>
    rw [fragmentLoop_more more, transduce, goesOn]
    simp only [ih (left_metadata_le metadata), append_chunk, List.nil_append]

/-- The same from the first frame on. -/
theorem transduce_message {step : τ → Frame → τ × List ω} {start idle : τ}
    {emit : Bool → Payload → Bool → Frame} (held : Payload → τ) (deliver : Payload → ω)
    (metadata : metadataSize ≤ buffer.length)
    (large : buffer.drop kMaxFragmentedPayloadSize ≠ [])
    (begins : step start (emit true ⟨buffer.take kMaxFragmentedPayloadSize,
        min metadataSize kMaxFragmentedPayloadSize⟩ true) =
      (held ⟨buffer.take kMaxFragmentedPayloadSize,
        min metadataSize kMaxFragmentedPayloadSize⟩, []))
    (goesOn : ∀ q p, step (held q) (emit false p true) = (held (q.append p), []))
    (ends : ∀ q p, step (held q) (emit false p false) = (idle, [deliver (q.append p)])) :
    transduce step start (fragmentLoop emit true metadataSize buffer) =
      (idle, [deliver ⟨buffer, metadataSize⟩]) := by
  rw [fragmentLoop_more large, transduce, begins]
  simp only [transduce_fragments goesOn ends (left_metadata_le metadata), chunk_append,
    List.nil_append]

end

/-! ## The server, one stream at a time -/

namespace ServerFragments

/-- What a frame does to the partial frame of its own stream. -/
def assemble (held : Option RequestFrame) : Frame → Option RequestFrame × List Delivered
  | .request frame =>
    if frame.hasFollows then (some (held.getD frame), [])
    else (held, [(frame.streamId, frame)])
  | .payload payloadFrame =>
    match held with
    | none => (none, [])
    | some requestFrame =>
      let requestFrame :=
        { requestFrame with payload := requestFrame.payload.append payloadFrame.payload }
      if payloadFrame.hasFollows then (some requestFrame, [])
      else (none, [(payloadFrame.streamId, requestFrame)])
  | .other _ _ => (held, [])

theorem handleFrame_own (s : ServerFragments) (frame : Frame) :
    (find frame.streamId (s.handleFrame frame).1.partialRequestFrames, (s.handleFrame frame).2) =
      assemble (find frame.streamId s.partialRequestFrames) frame := by
  cases frame with
  | request frame =>
    simp only [handleFrame, handleRequestFrame, assemble, Frame.streamId]
    split
    next => simp only [find_emplace, if_true]
    next => rfl
  | payload frame =>
    simp only [handleFrame, handleUntrackedFrame, assemble, Frame.streamId]
    cases held : find frame.streamId s.partialRequestFrames with
    | none => simp only [held]
    | some requestFrame =>
      simp only
      split
      next => simp only [find_insertOrAssign_self]
      next => simp only [find_erase, if_true]
  | other _ _ => rfl

theorem handleFrame_others (s : ServerFragments) (frame : Frame) (k : UInt32)
    (other : k ≠ frame.streamId) :
    find k (s.handleFrame frame).1.partialRequestFrames = find k s.partialRequestFrames := by
  cases frame with
  | request frame =>
    simp only [handleFrame, handleRequestFrame, Frame.streamId] at other ⊢
    split
    next => rw [find_emplace, if_neg other]
    next => rfl
  | payload frame =>
    simp only [handleFrame, handleUntrackedFrame, Frame.streamId] at other ⊢
    split
    next => rfl
    next =>
      split
      next => rw [find_insertOrAssign, if_neg other]
      next => rw [find_erase, if_neg other]
  | other _ _ => rfl

theorem handleFrame_tagged (s : ServerFragments) (frame : Frame) :
    ∀ delivered ∈ (s.handleFrame frame).2, delivered.1 = frame.streamId := by
  cases frame with
  | request frame =>
    simp only [handleFrame, handleRequestFrame, Frame.streamId]
    split <;> simp
  | payload frame =>
    simp only [handleFrame, handleUntrackedFrame, Frame.streamId]
    split
    next => simp
    next => split <;> simp
  | other _ _ => simp [handleFrame]

/-- A stream that carries one request delivers it, whatever the size of its payload. -/
theorem assemble_arrivals (r : Request) :
    ∃ frame, transduce assemble none r.frame.arrivals = (none, [(r.streamId, frame)]) ∧
      frame.request = r := by
  have plain := r.plain
  by_cases last : r.frame.payload.buffer.drop kMaxFragmentedPayloadSize = []
  · refine ⟨r.frame.received, ?_, ?_⟩
    · rw [plain.arrivals_single (Nat.not_lt.mpr (List.drop_eq_nil_iff.mp last))]
      simp only [transduce, assemble, RequestFrame.hasFollows_received, plain.hasFollows]
      simp only [RequestFrame.received, Request.streamId_frame]
      rfl
    · exact r.request_of rfl rfl (RequestFrame.hasComplete_received _) rfl
  · -- the partial frame is the first one, whatever its payload has become
    let first := (RequestFrame.setHasFollows
      { r.frame with
        payload := ⟨r.frame.payload.buffer.take kMaxFragmentedPayloadSize,
          min r.frame.payload.metadataSize kMaxFragmentedPayloadSize⟩ } true).received
    refine ⟨{ first with payload := r.frame.payload }, ?_, ?_⟩
    · refine transduce_message (fun p => some { first with payload := p })
        (fun p => (r.streamId, { first with payload := p })) plain.metadata_le last ?_ ?_ ?_
      · simp [assemble, first]
        rfl
      · intro q p
        simp [assemble]
      · intro q p
        simp [assemble]
    · have complete : first.hasComplete = r.frame.hasComplete := by
        simp only [first, RequestFrame.hasComplete_received, RequestFrame.hasComplete_setHasFollows]
        rfl
      exact r.request_of rfl rfl complete rfl

end ServerFragments

/-! ## The client, one stream at a time -/

namespace Response

variable (r : Response)

theorem plain : r.frame.Plain where
  hasFollows := by simp [frame, PayloadFrame.hasFollows]
  flags := by
    apply Flags.Valid.ext (((Flags.Valid.none.set _ _).set _ _).set _ _) r.frame.valid_writtenFlags
    intro bit
    cases bit <;>
      simp [frame, PayloadFrame.writtenFlags, PayloadFrame.hasFollows, PayloadFrame.hasComplete,
        PayloadFrame.hasNext]
  metadata_le := by simp [frame, Payload.makeFromMetadataAndData]

@[simp] theorem streamId_frame : r.frame.streamId = r.streamId := rfl

@[simp] theorem hasNext_frame : r.frame.hasNext = r.next := by
  simp [frame, PayloadFrame.hasNext]

@[simp] theorem hasComplete_frame : r.frame.hasComplete = r.complete := by
  simp [frame, PayloadFrame.hasComplete]

/-- The delivery that tells the response. -/
def delivery : Delivery := ⟨r.streamId, r.frame.payload, r.next, r.complete⟩

theorem response_delivery : r.delivery.response = r := by
  simp [delivery, Delivery.response, frame, Payload.metadata, Payload.data,
    Payload.makeFromMetadataAndData]

end Response

namespace ClientFragments

/-- What is kept for a stream: the payload of its context, if it has one, and its buffered
fragments. -/
def kept (k : UInt32) (c : ClientFragments) : Option (Option Payload) × Option Payload :=
  (find k c.requestResponseContexts, find k c.bufferedFragments)

/-- What a frame does to what is kept for its own stream. -/
def assemble (held : Option (Option Payload) × Option Payload) :
    Frame → (Option (Option Payload) × Option Payload) × List Delivery
  | .payload f =>
    match held with
    | (some responsePayload, buffered) =>
      let payload := (responsePayload.map fun q => q.append f.payload).getD f.payload
      if f.hasFollows then ((some (some payload), buffered), [])
      else ((none, buffered), [⟨f.streamId, payload, f.hasNext, f.hasComplete⟩])
    | (none, buffered) =>
      let payload := (buffered.map fun q => q.append f.payload).getD f.payload
      if f.hasFollows then ((none, some payload), [])
      else ((none, none), [⟨f.streamId, payload, f.hasNext, f.hasComplete⟩])
  | .request _ | .other _ _ => (held, [])

theorem onPayloadFrame_own (c : ClientFragments) (responsePayload : Option Payload)
    (f : PayloadFrame) :
    (kept f.streamId (c.onPayloadFrame responsePayload f).1,
        (c.onPayloadFrame responsePayload f).2) =
      assemble (some responsePayload, find f.streamId c.bufferedFragments) (.payload f) := by
  simp only [onPayloadFrame, assemble, kept]
  cases f.hasFollows with
  | false => cases responsePayload <;> simp [find_erase]
  | true => cases responsePayload <;> simp

theorem handlePayloadFrame_own (c : ClientFragments) (f : PayloadFrame)
    (untracked : find f.streamId c.requestResponseContexts = none) :
    (kept f.streamId (c.handlePayloadFrame f).1, (c.handlePayloadFrame f).2) =
      assemble (none, find f.streamId c.bufferedFragments) (.payload f) := by
  simp only [handlePayloadFrame, bufferOrGetFullPayload, assemble, kept]
  cases f.hasFollows with
  | false =>
    cases buffered : find f.streamId c.bufferedFragments <;>
      simp [untracked, buffered, find_erase]
  | true =>
    cases buffered : find f.streamId c.bufferedFragments <;>
      simp [untracked, buffered, find_emplace]

theorem handleFrame_own (c : ClientFragments) (frame : Frame) :
    (kept frame.streamId (c.handleFrame frame).1, (c.handleFrame frame).2) =
      assemble (kept frame.streamId c) frame := by
  cases frame with
  | payload f =>
    have both : kept f.streamId c =
        (find f.streamId c.requestResponseContexts, find f.streamId c.bufferedFragments) := rfl
    simp only [handleFrame, Frame.streamId, both]
    cases tracked : find f.streamId c.requestResponseContexts with
    | none => exact handlePayloadFrame_own c f tracked
    | some responsePayload => exact onPayloadFrame_own c responsePayload f
  | request _ => rfl
  | other _ _ => rfl

theorem handleFrame_others (c : ClientFragments) (frame : Frame) (k : UInt32)
    (other : k ≠ frame.streamId) : kept k (c.handleFrame frame).1 = kept k c := by
  cases frame with
  | payload f =>
    simp only [handleFrame, Frame.streamId] at other ⊢
    split
    next =>
      simp only [onPayloadFrame]
      split <;> simp [kept, find_insertOrAssign, find_erase, other]
    next =>
      simp only [handlePayloadFrame, bufferOrGetFullPayload]
      split <;> split <;> simp [kept, find_insertOrAssign, find_emplace, find_erase, other]
  | request _ => rfl
  | other _ _ => rfl

theorem handleFrame_tagged (c : ClientFragments) (frame : Frame) :
    ∀ delivery ∈ (c.handleFrame frame).2, delivery.streamId = frame.streamId := by
  cases frame with
  | payload f =>
    simp only [handleFrame, Frame.streamId]
    split
    next =>
      simp only [onPayloadFrame]
      split <;> simp
    next =>
      simp only [handlePayloadFrame, List.mem_map]
      rintro _ ⟨_, _, rfl⟩
      rfl
  | request _ => simp [handleFrame]
  | other _ _ => simp [handleFrame]

/-- A stream on which nothing has arrived, that of a request-response or another one. -/
def Fresh (k : UInt32) (c : ClientFragments) : Prop :=
  kept k c = (none, none) ∨ kept k c = (some none, none)

theorem assemble_arrivals (r : Response) {held : Option (Option Payload) × Option Payload}
    (fresh : held = (none, none) ∨ held = (some none, none)) :
    transduce assemble held r.frame.arrivals = ((none, none), [r.delivery]) := by
  have plain := r.plain
  by_cases last : r.frame.payload.buffer.drop kMaxFragmentedPayloadSize = []
  · rw [plain.arrivals_single (Nat.not_lt.mpr (List.drop_eq_nil_iff.mp last))]
    rcases fresh with rfl | rfl <;> simp [transduce, assemble, plain.hasFollows, Response.delivery]
  · let deliver (p : Payload) : Delivery := ⟨r.streamId, p, r.next, r.complete⟩
    rcases fresh with rfl | rfl
    · refine transduce_message (fun p => (none, some p)) deliver plain.metadata_le last ?_ ?_ ?_
      · simp [assemble]
      · intro q p
        simp [assemble]
      · intro q p
        simp [assemble, deliver]
    · refine transduce_message (fun p => (some (some p), none)) deliver plain.metadata_le last
        ?_ ?_ ?_
      · simp [assemble]
      · intro q p
        simp [assemble]
      · intro q p
        simp [assemble, deliver]

end ClientFragments

/-! ## All streams at once -/

/-- The frame that bytes carry. -/
def frameOf (bytes : Bytes) : Frame :=
  match readFrame (bytes.drop kBytesForFrameOrMetadataLength) with
  | .ok (frame, _) => frame
  | .error _ => .other 0 .reserved

theorem Carries.read {bytes : Bytes} {frame : Frame} (carries : Carries bytes frame) :
    readFrame (bytes.drop kBytesForFrameOrMetadataLength) = .ok (frame, []) := by
  obtain ⟨body, rfl, -, read⟩ := carries
  have behind : (encodeFrame body).drop kBytesForFrameOrMetadataLength = body :=
    List.drop_left' (length_writeFrameOrMetadataSize _)
  rw [behind, read]

theorem Carries.frameOf_eq {bytes : Bytes} {frame : Frame} (carries : Carries bytes frame) :
    frameOf bytes = frame := by
  rw [frameOf, carries.read]

theorem map_frameOf {wire : List Bytes} {arrivals : List Frame}
    (carries : List.Forall₂ Carries wire arrivals) : wire.map frameOf = arrivals := by
  induction carries with
  | nil => rfl
  | cons first _ ih => rw [List.map_cons, first.frameOf_eq, ih]

theorem exists_carries {wire : List Bytes} {arrivals : List Frame}
    (carries : List.Forall₂ Carries wire arrivals) :
    ∀ bytes ∈ wire, ∃ frame, Carries bytes frame := by
  induction carries with
  | nil => simp
  | cons first _ ih =>
    intro bytes member
    rcases List.mem_cons.mp member with rfl | later
    · exact ⟨_, first⟩
    · exact ih bytes later

theorem mapM_read {wire : List Bytes} (carries : ∀ bytes ∈ wire, ∃ frame, Carries bytes frame) :
    (wire.map (List.drop kBytesForFrameOrMetadataLength)).mapM
      (fun body => Prod.fst <$> readFrame body) = .ok (wire.map frameOf) := by
  induction wire with
  | nil => rfl
  | cons bytes wire ih =>
    obtain ⟨frame, first⟩ := carries bytes (by simp)
    have rest := ih fun bytes member => carries bytes (by simp [member])
    rw [List.map_cons, List.mapM_cons, first.read, rest, List.map_cons, first.frameOf_eq]
    rfl

theorem readFrames_flatten {wire : List Bytes}
    (carries : ∀ bytes ∈ wire, ∃ frame, Carries bytes frame) :
    readFrames wire.flatten = .ok (wire.map frameOf) := by
  have framed : frames.encodeAll (wire.map (List.drop kBytesForFrameOrMetadataLength)) =
      wire.flatten := by
    have each : ∀ bytes ∈ wire,
        encodeFrame (bytes.drop kBytesForFrameOrMetadataLength) = bytes := by
      intro bytes listed
      obtain ⟨_, body, rfl, -, -⟩ := carries bytes listed
      exact congrArg encodeFrame (List.drop_left' (length_writeFrameOrMetadataSize _))
    rw [Framing.encodeAll, List.map_map]
    exact congrArg List.flatten ((List.map_congr_left each).trans (List.map_id' wire))
  have valid : ∀ body ∈ wire.map (List.drop kBytesForFrameOrMetadataLength), frames.Valid body := by
    intro body member
    obtain ⟨bytes, listed, rfl⟩ := List.mem_map.mp member
    obtain ⟨_, body, rfl, fits, -⟩ := carries bytes listed
    rw [encodeFrame, List.drop_left' (length_writeFrameOrMetadataSize _)]
    exact fits
  have split : frames.split
      (frames.encodeAll (wire.map (List.drop kBytesForFrameOrMetadataLength)) ++ []) =
        (wire.map (List.drop kBytesForFrameOrMetadataLength), []) :=
    frames.split_encodeAll valid rfl
  rw [List.append_nil, framed] at split
  rw [readFrames, split]
  exact mapM_read carries

theorem interleaving_carried {μ : Type} {messages : List μ} {sequence : μ → List Bytes}
    {arrivals : μ → List Frame} {wire : List Bytes}
    (sent : Interleaving (messages.map sequence) wire)
    (each : ∀ m, List.Forall₂ Carries (sequence m) (arrivals m)) :
    (∀ bytes ∈ wire, ∃ frame, Carries bytes frame) ∧
      Interleaving (messages.map arrivals) (wire.map frameOf) := by
  constructor
  · intro bytes listed
    obtain ⟨_, among, inside⟩ := sent.mem_iff.mp listed
    obtain ⟨m, -, rfl⟩ := List.mem_map.mp among
    exact exists_carries (each m) bytes inside
  · have arriving := sent.map frameOf
    simp only [List.map_map, Function.comp_def, map_frameOf (each _)] at arriving
    exact arriving

theorem requests_delivered {requests : List Request} {received : List Frame}
    {server : ServerFragments} (distinct : (requests.map Request.streamId).Nodup)
    (idle : ∀ r ∈ requests, find r.streamId server.partialRequestFrames = none)
    (arriving : Interleaving (requests.map fun r => r.frame.arrivals) received) :
    ((transduce ServerFragments.handleFrame server received).2.map fun delivered =>
      (delivered.1, delivered.2.request)).Perm (requests.map fun r => (r.streamId, r)) := by
  refine transduce_interleaving (fun k (s : ServerFragments) => find k s.partialRequestFrames)
    (fun _ => ServerFragments.assemble) Prod.fst arriving distinct ?_
    ServerFragments.handleFrame_own ServerFragments.handleFrame_others
    ServerFragments.handleFrame_tagged ?_ (fun _ => rfl) (fun _ => rfl)
  · intro r _ frame listed
    rw [r.frame.streamId_arrivals frame listed, r.streamId_frame]
  · intro r member
    obtain ⟨frame, assembled, told⟩ := ServerFragments.assemble_arrivals r
    rw [idle r member, assembled]
    simp [told]

theorem responses_delivered {responses : List Response} {received : List Frame}
    {client : ClientFragments} (distinct : (responses.map Response.streamId).Nodup)
    (fresh : ∀ r ∈ responses, ClientFragments.Fresh r.streamId client)
    (arriving : Interleaving (responses.map fun r => r.frame.arrivals) received) :
    ((transduce ClientFragments.handleFrame client received).2.map Delivery.response).Perm
      responses := by
  rw [← List.map_id responses]
  refine transduce_interleaving ClientFragments.kept (fun _ => ClientFragments.assemble)
    Response.streamId arriving distinct (fun r _ => r.frame.streamId_arrivals)
    ClientFragments.handleFrame_own ClientFragments.handleFrame_others
    ClientFragments.handleFrame_tagged ?_ (fun _ => rfl) (fun _ => rfl)
  intro r member
  rw [ClientFragments.assemble_arrivals r (fresh r member)]
  simp [r.response_delivery]

end FbThrift.Rocket
