import FbThrift.Rocket.Header

/-!
# Frames with a payload and their fragments

A request or a payload frame is written behind its length, with the metadata in front of the
data and the length of the metadata in front of both.  A payload that is too large for one
frame is cut into chunks of `kMaxFragmentedPayloadSize` bytes wherever they end: the first
chunk goes into the frame itself and the others into payload frames, all but the last with
the follows flag.
-/

namespace FbThrift.Rocket

open Decoder

/-! ## Payloads -/

/-- Metadata and data in one buffer, the metadata first. -/
structure Payload where
  buffer : Bytes
  metadataSize : Nat
  deriving DecidableEq, Repr

namespace Payload

def makeFromMetadataAndData (metadata data : Bytes) : Payload :=
  ⟨metadata ++ data, metadata.length⟩

def metadata (p : Payload) : Bytes := p.buffer.take p.metadataSize

def data (p : Payload) : Bytes := p.buffer.drop p.metadataSize

def metadataAndDataSize (p : Payload) : Nat := p.buffer.length

def hasNonemptyMetadata (p : Payload) : Bool := p.metadataSize != 0

def serializedSize (p : Payload) : Nat :=
  p.metadataAndDataSize + if p.hasNonemptyMetadata then kBytesForFrameOrMetadataLength else 0

def append (p other : Payload) : Payload :=
  ⟨p.buffer ++ other.buffer, p.metadataSize + other.metadataSize⟩

end Payload

/-- `Serializer::writePayload`. -/
def writePayload (p : Payload) : Bytes :=
  (if p.hasNonemptyMetadata then writeFrameOrMetadataSize p.metadataSize else []) ++ p.buffer

/-- The length of the metadata where the flag announces it; the buffer is all that is left
behind the cursor. -/
def readPayload (expectingMetadata : Bool) : Decoder Payload := fun cursor =>
  if expectingMetadata then
    match readFrameOrMetadataSize cursor with
    | some metadataSize => .ok (⟨cursor.drop 3, metadataSize⟩, [])
    | none => .error "underflow"
  else .ok (⟨cursor, 0⟩, [])

/-- The largest payload of one frame. -/
@[irreducible] def kMaxFragmentedPayloadSize : Nat := 0xffffff - 512

/-! ## Payload frames -/

structure PayloadFrame where
  streamId : UInt32
  flags : Flags
  payload : Payload
  deriving DecidableEq, Repr

/-- What the single-frame writers of all frames with a payload do. -/
def writeFrame (frameHeaderSize : Nat) (streamId : UInt32) (frameType : FrameType)
    (flags : Flags) (initialRequestN : Bytes) (payload : Payload) : Bytes :=
  writeFrameOrMetadataSize (frameHeaderSize + payload.serializedSize) ++
    (writeStreamId streamId ++ (writeFrameTypeAndFlags frameType flags ++
      (initialRequestN ++ writePayload payload)))

/-- What is written into the headroom of the payload's buffer, in front of a buffer that has
metadata. -/
def writeHeadroom (frameHeaderSize : Nat) (streamId : UInt32) (frameType : FrameType)
    (flags : Flags) (initialRequestN : Bytes) (payload : Payload) : Bytes :=
  writeFrameOrMetadataSize (frameHeaderSize + payload.data.length + payload.metadataSize +
      kBytesForFrameOrMetadataLength) ++
    (writeStreamId streamId ++ (writeFrameTypeAndFlags frameType flags ++
      (initialRequestN ++ (writeFrameOrMetadataSize payload.metadataSize ++ payload.buffer))))

/-- The loop of `serializeInFragmentsSlowCommon`: a chunk of the buffer at a time, with as
much of the metadata as a chunk can hold. -/
def fragmentLoop {α : Type} (emit : Bool → Payload → Bool → α) (isFirstFrame : Bool)
    (metadataSize : Nat) (buffer : Bytes) : List α :=
  let metadataChunk := min metadataSize kMaxFragmentedPayloadSize
  let chunk := buffer.take kMaxFragmentedPayloadSize
  let rest := buffer.drop kMaxFragmentedPayloadSize
  if rest = [] then [emit isFirstFrame ⟨chunk, metadataChunk⟩ false]
  else
    emit isFirstFrame ⟨chunk, metadataChunk⟩ true ::
      fragmentLoop emit false (metadataSize - metadataChunk) rest
termination_by buffer.length
decreasing_by
  have left : buffer.drop kMaxFragmentedPayloadSize ≠ [] := by assumption
  have := List.length_pos_of_ne_nil left
  simp only [List.length_drop, kMaxFragmentedPayloadSize] at this ⊢
  omega

namespace PayloadFrame

def hasFollows (f : PayloadFrame) : Bool := f.flags.has .follows

def hasComplete (f : PayloadFrame) : Bool := f.flags.has .complete

def hasNext (f : PayloadFrame) : Bool := f.flags.has .next

def setHasFollows (f : PayloadFrame) (hasFollows : Bool) : PayloadFrame :=
  let flags := f.flags.set .follows hasFollows
  { f with flags := flags.set .complete (!hasFollows && flags.has .complete) }

/-- All flags are computed again. -/
def writtenFlags (f : PayloadFrame) : Flags :=
  ((((⟨0⟩ : Flags).set .metadata f.payload.hasNonemptyMetadata).set .follows f.hasFollows).set
    .complete f.hasComplete).set .next f.hasNext

def frameHeaderSize : Nat := 6

def serializeIntoSingleFrame (f : PayloadFrame) : Bytes :=
  writeFrame frameHeaderSize f.streamId .payload f.writtenFlags [] f.payload

def serializeIntoHeadroom (f : PayloadFrame) : Bytes :=
  writeHeadroom frameHeaderSize f.streamId .payload
    (f.flags.set .metadata f.payload.hasNonemptyMetadata) [] f.payload

/-- A fragment of a message behind its first frame. -/
def fragment (streamId : UInt32) (flags : Flags) (complete : Bool) (p : Payload)
    (follows : Bool) : PayloadFrame :=
  ⟨streamId, (flags.set .follows follows).set .complete (!follows && complete), p⟩

/-- The fragments are small enough for `serialize` to write each into a single frame. -/
def serializeInFragmentsSlow (f : PayloadFrame) : List Bytes :=
  let flags := ((⟨0⟩ : Flags).set .complete f.hasComplete).set .next f.hasNext
  let emit (isFirstFrame : Bool) (p : Payload) (follows : Bool) : Bytes :=
    if isFirstFrame then
      serializeIntoSingleFrame (setHasFollows { f with payload := p } follows)
    else serializeIntoSingleFrame (fragment f.streamId flags f.hasComplete p follows)
  fragmentLoop emit true f.payload.metadataSize f.payload.buffer

/-- The frames that `serialize` writes one behind the other.  The buffer of the payload is
`roomy` when it is not shared and has the headroom for the header. -/
def serialize (f : PayloadFrame) (roomy : Bool) : List Bytes :=
  if kMaxFragmentedPayloadSize < f.payload.metadataAndDataSize then f.serializeInFragmentsSlow
  else if roomy && f.payload.hasNonemptyMetadata then [f.serializeIntoHeadroom]
  else [f.serializeIntoSingleFrame]

end PayloadFrame

/-! ## Request frames -/

/-- The four request frames, with what only some of them have. -/
inductive RequestType where
  | response
  | fnf
  | stream (initialRequestN : Int32)
  | channel (initialRequestN : Int32)
  deriving DecidableEq, Repr

namespace RequestType

def frameType : RequestType → FrameType
  | response => .requestResponse
  | fnf => .requestFnf
  | stream _ => .requestStream
  | channel _ => .requestChannel

def frameHeaderSize : RequestType → Nat
  | response => 6
  | fnf => 6
  | stream _ => 10
  | channel _ => 10

def serializeInitialNIfPresent : RequestType → Bytes
  | response => []
  | fnf => []
  | stream initialRequestN => writeBE 4 initialRequestN.toUInt32.toNat
  | channel initialRequestN => writeBE 4 initialRequestN.toUInt32.toNat

def isChannel : RequestType → Bool
  | channel _ => true
  | _ => false

end RequestType

structure RequestFrame where
  type : RequestType
  streamId : UInt32
  flags : Flags
  payload : Payload
  deriving DecidableEq, Repr

namespace RequestFrame

def hasFollows (f : RequestFrame) : Bool := f.flags.has .follows

/-- Only channel frames say that they are complete. -/
def hasComplete (f : RequestFrame) : Bool := f.type.isChannel && f.flags.has .complete

/-- The complete flag of a channel frame stays as it is. -/
def setHasFollows (f : RequestFrame) (hasFollows : Bool) : RequestFrame :=
  { f with flags := f.flags.set .follows hasFollows }

def writtenFlags (f : RequestFrame) : Flags :=
  (((⟨0⟩ : Flags).set .metadata f.payload.hasNonemptyMetadata).set .follows f.hasFollows).set
    .complete f.hasComplete

def serializeIntoSingleFrame (f : RequestFrame) : Bytes :=
  writeFrame f.type.frameHeaderSize f.streamId f.type.frameType f.writtenFlags
    f.type.serializeInitialNIfPresent f.payload

def serializeIntoHeadroom (f : RequestFrame) : Bytes :=
  writeHeadroom f.type.frameHeaderSize f.streamId f.type.frameType
    (f.flags.set .metadata f.payload.hasNonemptyMetadata) f.type.serializeInitialNIfPresent
    f.payload

def serializeInFragmentsSlow (f : RequestFrame) : List Bytes :=
  let flags := ((⟨0⟩ : Flags).set .next true).set .complete f.hasComplete
  let emit (isFirstFrame : Bool) (p : Payload) (follows : Bool) : Bytes :=
    if isFirstFrame then
      serializeIntoSingleFrame (setHasFollows { f with payload := p } follows)
    else
      (PayloadFrame.fragment f.streamId flags f.hasComplete p follows).serializeIntoSingleFrame
  fragmentLoop emit true f.payload.metadataSize f.payload.buffer

def serialize (f : RequestFrame) (roomy : Bool) : List Bytes :=
  if kMaxFragmentedPayloadSize < f.payload.metadataAndDataSize then f.serializeInFragmentsSlow
  else if roomy && f.payload.hasNonemptyMetadata then [f.serializeIntoHeadroom]
  else [f.serializeIntoSingleFrame]

end RequestFrame

/-! ## Reading -/

/-- A frame as the dispatch of a connection sees it. -/
inductive Frame where
  | request (f : RequestFrame)
  | payload (f : PayloadFrame)
  /-- No other frame has fragments. -/
  | other (streamId : UInt32) (frameType : FrameType)
  deriving DecidableEq, Repr

def Frame.streamId : Frame → UInt32
  | request f => f.streamId
  | payload f => f.streamId
  | other streamId _ => streamId

/-- `cursor.readBE<int32_t>()`. -/
def readInitialRequestN : Decoder Int32 := (fun n => (UInt32.ofNat n).toInt32) <$> readBE 4

def RequestFrame.read (streamId : UInt32) (flags : Flags) (type : Decoder RequestType) :
    Decoder Frame := do
  let type ← type
  let payload ← readPayload flags.metadata
  pure (.request ⟨type, streamId, flags, payload⟩)

def PayloadFrame.read (streamId : UInt32) (flags : Flags) : Decoder Frame := do
  let payload ← readPayload flags.metadata
  pure (.payload ⟨streamId, flags, payload⟩)

/-- The constructors of the frame classes, chosen by the type in the header. -/
def readByType (streamId : UInt32) (flags : Flags) : FrameType → Decoder Frame
  | .requestResponse => RequestFrame.read streamId flags (pure .response)
  | .requestFnf => RequestFrame.read streamId flags (pure .fnf)
  | .requestStream => RequestFrame.read streamId flags (.stream <$> readInitialRequestN)
  | .requestChannel => RequestFrame.read streamId flags (.channel <$> readInitialRequestN)
  | .payload => PayloadFrame.read streamId flags
  | frameType => pure (.other streamId frameType)

/-- What `handleFrame` of a connection makes of the bytes of a frame. -/
def readFrame : Decoder Frame := do
  let streamId ← readStreamId
  let (frameType, flags) ← readFrameTypeAndFlags
  readByType streamId flags frameType

/-! ## A frame is read as it was written -/

section

variable {p : Payload} {streamId : UInt32} {frameType : FrameType} {flags : Flags}
variable {initialRequestN : Bytes} {bytes : Bytes}

/-- The buffer holds the metadata, and one frame holds the buffer. -/
structure Payload.Small (p : Payload) : Prop where
  metadata_le : p.metadataSize ≤ p.buffer.length
  length_le : p.buffer.length ≤ kMaxFragmentedPayloadSize

theorem length_writePayload (p : Payload) : (writePayload p).length = p.serializedSize := by
  unfold writePayload Payload.serializedSize Payload.metadataAndDataSize
  cases p.hasNonemptyMetadata <;> simp [Nat.add_comm]

theorem Payload.Small.serializedSize_le (small : p.Small) :
    p.serializedSize ≤ 0xffffff - 512 + 3 := by
  have := small.length_le
  unfold Payload.serializedSize Payload.metadataAndDataSize kMaxFragmentedPayloadSize at *
  cases p.hasNonemptyMetadata with
  | false => simpa using by omega
  | true => exact Nat.add_le_add_right this 3

/-- A frame behind its length field. -/
def frameBody (streamId : UInt32) (frameType : FrameType) (flags : Flags)
    (initialRequestN : Bytes) (payload : Payload) : Bytes :=
  writeStreamId streamId ++ (writeFrameTypeAndFlags frameType flags ++
    (initialRequestN ++ writePayload payload))

theorem length_frameBody (streamId : UInt32) (frameType : FrameType) (flags : Flags)
    (initialRequestN : Bytes) (p : Payload) :
    (frameBody streamId frameType flags initialRequestN p).length =
      6 + initialRequestN.length + p.serializedSize := by
  simp only [frameBody, List.length_append, length_writePayload, writeStreamId,
    writeFrameTypeAndFlags, length_writeBE]
  omega

theorem writeFrame_eq {frameHeaderSize : Nat}
    (header : frameHeaderSize = 6 + initialRequestN.length) :
    writeFrame frameHeaderSize streamId frameType flags initialRequestN p =
      encodeFrame (frameBody streamId frameType flags initialRequestN p) := by
  rw [writeFrame, encodeFrame, length_frameBody, header]
  rfl

/-- The headroom is filled with what the serializer writes. -/
theorem writeHeadroom_eq {frameHeaderSize : Nat} (metadata : p.hasNonemptyMetadata = true)
    (small : p.Small) :
    writeHeadroom frameHeaderSize streamId frameType flags initialRequestN p =
      writeFrame frameHeaderSize streamId frameType flags initialRequestN p := by
  have size : frameHeaderSize + p.data.length + p.metadataSize +
      kBytesForFrameOrMetadataLength = frameHeaderSize + p.serializedSize := by
    have := small.metadata_le
    rw [Payload.serializedSize, if_pos metadata, Payload.data, List.length_drop,
      Payload.metadataAndDataSize]
    omega
  rw [writeHeadroom, writeFrame, size, writePayload, if_pos metadata]

theorem readPayload_write (small : p.Small) :
    readPayload p.hasNonemptyMetadata (writePayload p) = .ok (p, []) := by
  unfold readPayload writePayload
  cases metadata : p.hasNonemptyMetadata with
  | false =>
    have none : p.metadataSize = 0 := by
      simpa [Payload.hasNonemptyMetadata] using metadata
    rw [if_neg (by simp), if_neg (by simp), List.nil_append, ← none]
  | true =>
    have fits : p.metadataSize < 2 ^ 24 := by
      have := small.metadata_le
      have := small.length_le
      unfold kMaxFragmentedPayloadSize at this
      omega
    rw [if_pos rfl, if_pos rfl, readFrameOrMetadataSize_write fits,
      List.drop_left' (length_writeFrameOrMetadataSize _)]

theorem readFrame_frameBody (used : frameType ≠ .reserved) (valid : flags.Valid) :
    readFrame (frameBody streamId frameType flags initialRequestN p) =
      readByType streamId flags frameType (initialRequestN ++ writePayload p) := by
  rw [readFrame, frameBody, Run.bind_of_ok (decodes_readStreamId streamId _),
    Run.bind_of_ok (decodes_readFrameTypeAndFlags used valid _)]

theorem decodes_readInitialRequestN (n : Int32) :
    Decodes readInitialRequestN (writeBE 4 n.toUInt32.toNat) n := by
  intro rest
  have word := decodes_readBE (k := 4) (n := n.toUInt32.toNat)
    (by simpa using n.toUInt32.toNat_lt) rest
  rw [readInitialRequestN, Run.map_of_ok word, UInt32.ofNat_toNat, Int32.toInt32_toUInt32]

theorem RequestFrame.read_eq {type : Decoder RequestType} {requestType : RequestType}
    (decodes : Decodes type initialRequestN requestType) (small : p.Small)
    (announced : flags.metadata = p.hasNonemptyMetadata) :
    RequestFrame.read streamId flags type (initialRequestN ++ writePayload p) =
      .ok (.request ⟨requestType, streamId, flags, p⟩, []) := by
  rw [RequestFrame.read, Run.bind_of_ok (decodes _), announced,
    Run.bind_of_ok (readPayload_write small)]
  rfl

theorem PayloadFrame.read_eq (small : p.Small)
    (announced : flags.metadata = p.hasNonemptyMetadata) :
    PayloadFrame.read streamId flags (writePayload p) =
      .ok (.payload ⟨streamId, flags, p⟩, []) := by
  rw [PayloadFrame.read, announced, Run.bind_of_ok (readPayload_write small)]
  rfl

/-- The bytes are a frame of a length that fits the length field, and a connection reads it
as the given one. -/
def Carries (bytes : Bytes) (frame : Frame) : Prop :=
  ∃ body, bytes = encodeFrame body ∧ body.length < 2 ^ 24 ∧ readFrame body = .ok (frame, [])

end

/-! ## Single frames -/

namespace PayloadFrame

/-- A frame as it arrives: with the flags that were written. -/
def received (f : PayloadFrame) : PayloadFrame := { f with flags := f.writtenFlags }

section

variable (f : PayloadFrame) (follows : Bool)

@[simp] theorem streamId_received : f.received.streamId = f.streamId := rfl

@[simp] theorem payload_received : f.received.payload = f.payload := rfl

@[simp] theorem hasFollows_received : f.received.hasFollows = f.hasFollows := by
  simp [received, hasFollows, writtenFlags]

@[simp] theorem hasComplete_received : f.received.hasComplete = f.hasComplete := by
  simp [received, hasComplete, writtenFlags]

@[simp] theorem hasNext_received : f.received.hasNext = f.hasNext := by
  simp [received, hasNext, writtenFlags]

@[simp] theorem streamId_setHasFollows : (f.setHasFollows follows).streamId = f.streamId := rfl

@[simp] theorem payload_setHasFollows : (f.setHasFollows follows).payload = f.payload := rfl

@[simp] theorem hasFollows_setHasFollows : (f.setHasFollows follows).hasFollows = follows := by
  simp [setHasFollows, hasFollows]

@[simp] theorem hasComplete_setHasFollows :
    (f.setHasFollows follows).hasComplete = (!follows && f.hasComplete) := by
  simp [setHasFollows, hasComplete]

@[simp] theorem hasNext_setHasFollows : (f.setHasFollows follows).hasNext = f.hasNext := by
  simp [setHasFollows, hasNext]

end

section

variable (streamId : UInt32) (flags : Flags) (complete : Bool) (p : Payload) (follows : Bool)

@[simp] theorem streamId_fragment :
    (fragment streamId flags complete p follows).streamId = streamId := rfl

@[simp] theorem payload_fragment : (fragment streamId flags complete p follows).payload = p := rfl

@[simp] theorem hasFollows_fragment :
    (fragment streamId flags complete p follows).hasFollows = follows := by
  simp [fragment, hasFollows]

@[simp] theorem hasComplete_fragment :
    (fragment streamId flags complete p follows).hasComplete = (!follows && complete) := by
  simp [fragment, hasComplete]

@[simp] theorem hasNext_fragment :
    (fragment streamId flags complete p follows).hasNext = flags.has .next := by
  simp [fragment, hasNext]

end

theorem valid_writtenFlags (f : PayloadFrame) : f.writtenFlags.Valid :=
  (((Flags.Valid.none.set _ _).set _ _).set _ _).set _ _

theorem carries_serializeIntoSingleFrame {f : PayloadFrame} (small : f.payload.Small) :
    Carries f.serializeIntoSingleFrame (.payload f.received) := by
  refine ⟨_, writeFrame_eq rfl, ?_, ?_⟩
  · rw [length_frameBody]
    have := small.serializedSize_le
    simp only [List.length_nil]
    omega
  · rw [readFrame_frameBody (by simp) f.valid_writtenFlags]
    exact PayloadFrame.read_eq small (by simp [Flags.metadata_eq_has, writtenFlags])

end PayloadFrame

namespace RequestFrame

def received (f : RequestFrame) : RequestFrame := { f with flags := f.writtenFlags }

section

variable (f : RequestFrame) (follows : Bool)

@[simp] theorem hasFollows_received : f.received.hasFollows = f.hasFollows := by
  simp [received, hasFollows, writtenFlags]

@[simp] theorem hasComplete_received : f.received.hasComplete = f.hasComplete := by
  simp [received, hasComplete, writtenFlags]

@[simp] theorem hasFollows_setHasFollows : (f.setHasFollows follows).hasFollows = follows := by
  simp [setHasFollows, hasFollows]

@[simp] theorem hasComplete_setHasFollows :
    (f.setHasFollows follows).hasComplete = f.hasComplete := by
  simp [setHasFollows, hasComplete]

end

theorem valid_writtenFlags (f : RequestFrame) : f.writtenFlags.Valid :=
  ((Flags.Valid.none.set _ _).set _ _).set _ _

theorem frameHeaderSize_eq (type : RequestType) :
    type.frameHeaderSize = 6 + type.serializeInitialNIfPresent.length := by
  cases type <;> simp [RequestType.frameHeaderSize, RequestType.serializeInitialNIfPresent]

theorem carries_serializeIntoSingleFrame {f : RequestFrame} (small : f.payload.Small) :
    Carries f.serializeIntoSingleFrame (.request f.received) := by
  refine ⟨_, writeFrame_eq (frameHeaderSize_eq f.type), ?_, ?_⟩
  · rw [length_frameBody]
    have := small.serializedSize_le
    have : f.type.serializeInitialNIfPresent.length ≤ 4 := by
      cases f.type <;> simp [RequestType.serializeInitialNIfPresent]
    omega
  · have announced : f.writtenFlags.metadata = f.payload.hasNonemptyMetadata := by
      simp [Flags.metadata_eq_has, writtenFlags]
    obtain ⟨type, streamId, flags, p⟩ := f
    cases type with
    | response =>
      rw [readFrame_frameBody (by simp [RequestType.frameType]) (valid_writtenFlags _)]
      exact read_eq (Decodes.pure _) small announced
    | fnf =>
      rw [readFrame_frameBody (by simp [RequestType.frameType]) (valid_writtenFlags _)]
      exact read_eq (Decodes.pure _) small announced
    | stream n =>
      rw [readFrame_frameBody (by simp [RequestType.frameType]) (valid_writtenFlags _)]
      exact read_eq (fun rest => Run.map_of_ok (decodes_readInitialRequestN n rest) _) small
        announced
    | channel n =>
      rw [readFrame_frameBody (by simp [RequestType.frameType]) (valid_writtenFlags _)]
      exact read_eq (fun rest => Run.map_of_ok (decodes_readInitialRequestN n rest) _) small
        announced

end RequestFrame

/-! ## Fragments -/

section

variable {α β : Type} {metadataSize : Nat} {buffer : Bytes}

variable {emit : Bool → Payload → Bool → α} {isFirstFrame : Bool}

theorem fragmentLoop_last (last : buffer.drop kMaxFragmentedPayloadSize = []) :
    fragmentLoop emit isFirstFrame metadataSize buffer =
      [emit isFirstFrame ⟨buffer.take kMaxFragmentedPayloadSize,
        min metadataSize kMaxFragmentedPayloadSize⟩ false] := by
  rw [fragmentLoop, if_pos last]

theorem fragmentLoop_more (more : buffer.drop kMaxFragmentedPayloadSize ≠ []) :
    fragmentLoop emit isFirstFrame metadataSize buffer =
      emit isFirstFrame ⟨buffer.take kMaxFragmentedPayloadSize,
          min metadataSize kMaxFragmentedPayloadSize⟩ true ::
        fragmentLoop emit false (metadataSize - min metadataSize kMaxFragmentedPayloadSize)
          (buffer.drop kMaxFragmentedPayloadSize) := by
  rw [fragmentLoop, if_neg more]

theorem small_chunk (metadata : metadataSize ≤ buffer.length) :
    Payload.Small ⟨buffer.take kMaxFragmentedPayloadSize,
      min metadataSize kMaxFragmentedPayloadSize⟩ := by
  constructor <;> simp only [List.length_take] <;> omega

theorem left_metadata_le (metadata : metadataSize ≤ buffer.length) :
    metadataSize - min metadataSize kMaxFragmentedPayloadSize ≤
      (buffer.drop kMaxFragmentedPayloadSize).length := by
  rw [List.length_drop]
  omega

@[elab_as_elim]
theorem fragment_induction {motive : Nat → Bytes → Prop}
    (last : ∀ metadataSize buffer, buffer.drop kMaxFragmentedPayloadSize = [] →
      motive metadataSize buffer)
    (more : ∀ metadataSize buffer, buffer.drop kMaxFragmentedPayloadSize ≠ [] →
      motive (metadataSize - min metadataSize kMaxFragmentedPayloadSize)
        (buffer.drop kMaxFragmentedPayloadSize) → motive metadataSize buffer)
    (metadataSize : Nat) (buffer : Bytes) : motive metadataSize buffer := by
  induction true, metadataSize, buffer using fragmentLoop.induct with
  | case1 _ metadataSize buffer _ done => exact last metadataSize buffer done
  | case2 _ metadataSize buffer _ _ left ih => exact more metadataSize buffer left ih

theorem mem_fragmentLoop {x : α} (member : x ∈ fragmentLoop emit isFirstFrame metadataSize buffer) :
    ∃ isFirstFrame p follows, x = emit isFirstFrame p follows := by
  induction metadataSize, buffer using fragment_induction generalizing isFirstFrame with
  | last metadataSize buffer last =>
    rw [fragmentLoop_last last, List.mem_singleton] at member
    exact ⟨_, _, _, member⟩
  | more metadataSize buffer more ih =>
    rw [fragmentLoop_more more, List.mem_cons] at member
    rcases member with first | later
    · exact ⟨_, _, _, first⟩
    · exact ih later

theorem fragmentLoop_forall₂ {related : α → β → Prop}
    {emit' : Bool → Payload → Bool → β}
    (each : ∀ isFirstFrame p follows, p.Small →
      related (emit isFirstFrame p follows) (emit' isFirstFrame p follows))
    (isFirstFrame : Bool) (metadata : metadataSize ≤ buffer.length) :
    List.Forall₂ related (fragmentLoop emit isFirstFrame metadataSize buffer)
      (fragmentLoop emit' isFirstFrame metadataSize buffer) := by
  induction metadataSize, buffer using fragment_induction generalizing isFirstFrame with
  | last metadataSize buffer last =>
    rw [fragmentLoop_last last, fragmentLoop_last last]
    exact .cons (each _ _ _ (small_chunk metadata)) .nil
  | more metadataSize buffer more ih =>
    rw [fragmentLoop_more more, fragmentLoop_more more]
    exact .cons (each _ _ _ (small_chunk metadata)) (ih _ (left_metadata_le metadata))

end

/-! ## What arrives of a message -/

namespace Payload

theorem take_eq {p : Payload} (small : p.Small) : (⟨p.buffer.take kMaxFragmentedPayloadSize,
      min p.metadataSize kMaxFragmentedPayloadSize⟩ : Payload) = p := by
  have := small.metadata_le
  have := small.length_le
  rw [List.take_of_length_le small.length_le, Nat.min_eq_left (by omega)]

end Payload

namespace PayloadFrame

/-- The frames that a connection reads when a message is sent. -/
def arrivals (f : PayloadFrame) : List Frame :=
  let flags := ((⟨0⟩ : Flags).set .complete f.hasComplete).set .next f.hasNext
  let emit (isFirstFrame : Bool) (p : Payload) (follows : Bool) : Frame :=
    if isFirstFrame then .payload (setHasFollows { f with payload := p } follows).received
    else .payload (fragment f.streamId flags f.hasComplete p follows).received
  fragmentLoop emit true f.payload.metadataSize f.payload.buffer

/-- All fragments of a message are on its stream. -/
theorem streamId_arrivals (f : PayloadFrame) :
    ∀ frame ∈ f.arrivals, frame.streamId = f.streamId := by
  intro frame member
  obtain ⟨isFirstFrame, p, follows, rfl⟩ := mem_fragmentLoop member
  cases isFirstFrame <;> rfl

/-- Nothing but the next and complete flags is set. -/
structure Plain (f : PayloadFrame) : Prop where
  hasFollows : f.hasFollows = false
  flags : f.flags.set .metadata f.payload.hasNonemptyMetadata = f.writtenFlags
  metadata_le : f.payload.metadataSize ≤ f.payload.buffer.length

variable {f : PayloadFrame}

theorem Plain.small (plain : f.Plain)
    (single : ¬ kMaxFragmentedPayloadSize < f.payload.metadataAndDataSize) : f.payload.Small :=
  ⟨plain.metadata_le, Nat.le_of_not_lt single⟩

theorem Plain.arrivals_single (plain : f.Plain)
    (single : ¬ kMaxFragmentedPayloadSize < f.payload.metadataAndDataSize) :
    f.arrivals = [.payload f.received] := by
  have last : f.payload.buffer.drop kMaxFragmentedPayloadSize = [] :=
    List.drop_of_length_le (Nat.le_of_not_lt single)
  rw [arrivals, fragmentLoop_last last, Payload.take_eq (plain.small single), if_pos rfl]
  simp only [received, writtenFlags, hasFollows_setHasFollows, hasComplete_setHasFollows,
    hasNext_setHasFollows, plain.hasFollows, Bool.not_false, Bool.true_and]
  rfl

theorem Plain.carries_serialize (plain : f.Plain) (roomy : Bool) :
    List.Forall₂ Carries (f.serialize roomy) f.arrivals := by
  unfold serialize
  split
  next =>
    apply fragmentLoop_forall₂ _ true plain.metadata_le
    intro isFirstFrame p follows small
    cases isFirstFrame with
    | false => exact carries_serializeIntoSingleFrame small
    | true => exact carries_serializeIntoSingleFrame small
  next single =>
    have small := plain.small single
    rw [plain.arrivals_single single]
    split
    next headroom =>
      rw [Bool.and_eq_true] at headroom
      have same : f.serializeIntoHeadroom = f.serializeIntoSingleFrame := by
        rw [serializeIntoHeadroom, writeHeadroom_eq headroom.2 small, plain.flags]
        rfl
      rw [same]
      exact .cons (carries_serializeIntoSingleFrame small) .nil
    next => exact .cons (carries_serializeIntoSingleFrame small) .nil

end PayloadFrame

namespace RequestFrame

def arrivals (f : RequestFrame) : List Frame :=
  let flags := ((⟨0⟩ : Flags).set .next true).set .complete f.hasComplete
  let emit (isFirstFrame : Bool) (p : Payload) (follows : Bool) : Frame :=
    if isFirstFrame then .request (setHasFollows { f with payload := p } follows).received
    else .payload (PayloadFrame.fragment f.streamId flags f.hasComplete p follows).received
  fragmentLoop emit true f.payload.metadataSize f.payload.buffer

theorem streamId_arrivals (f : RequestFrame) :
    ∀ frame ∈ f.arrivals, frame.streamId = f.streamId := by
  intro frame member
  obtain ⟨isFirstFrame, p, follows, rfl⟩ := mem_fragmentLoop member
  cases isFirstFrame <;> rfl

/-- Nothing but the complete flag of a channel is set. -/
structure Plain (f : RequestFrame) : Prop where
  hasFollows : f.hasFollows = false
  flags : f.flags.set .metadata f.payload.hasNonemptyMetadata = f.writtenFlags
  metadata_le : f.payload.metadataSize ≤ f.payload.buffer.length

variable {f : RequestFrame}

theorem Plain.small (plain : f.Plain)
    (single : ¬ kMaxFragmentedPayloadSize < f.payload.metadataAndDataSize) : f.payload.Small :=
  ⟨plain.metadata_le, Nat.le_of_not_lt single⟩

theorem Plain.arrivals_single (plain : f.Plain)
    (single : ¬ kMaxFragmentedPayloadSize < f.payload.metadataAndDataSize) :
    f.arrivals = [.request f.received] := by
  have last : f.payload.buffer.drop kMaxFragmentedPayloadSize = [] :=
    List.drop_of_length_le (Nat.le_of_not_lt single)
  rw [arrivals, fragmentLoop_last last, Payload.take_eq (plain.small single), if_pos rfl]
  simp only [received, writtenFlags, hasFollows_setHasFollows, hasComplete_setHasFollows,
    plain.hasFollows]
  rfl

theorem Plain.carries_serialize (plain : f.Plain) (roomy : Bool) :
    List.Forall₂ Carries (f.serialize roomy) f.arrivals := by
  unfold serialize
  split
  next =>
    apply fragmentLoop_forall₂ _ true plain.metadata_le
    intro isFirstFrame p follows small
    cases isFirstFrame with
    | false => exact PayloadFrame.carries_serializeIntoSingleFrame small
    | true => exact carries_serializeIntoSingleFrame small
  next single =>
    have small := plain.small single
    rw [plain.arrivals_single single]
    split
    next headroom =>
      rw [Bool.and_eq_true] at headroom
      have same : f.serializeIntoHeadroom = f.serializeIntoSingleFrame := by
        rw [serializeIntoHeadroom, writeHeadroom_eq headroom.2 small, plain.flags]
        rfl
      rw [same]
      exact .cons (carries_serializeIntoSingleFrame small) .nil
    next => exact .cons (carries_serializeIntoSingleFrame small) .nil

end RequestFrame

end FbThrift.Rocket
