import FbThrift.FastThrift.FrameParser
import FbThrift.FastThrift.FrameWriter
import FbThrift.Rocket.ControlFrames

/-!
# Fast thrift and Rocket on one connection

Fast thrift and the framing layer of Rocket have writers and readers of their own for the same
frames.  A frame that one of them writes is read by the other one, up to the fields that Rocket
has no use for: the last received position of a KEEPALIVE frame and the type of an EXT frame.
-/

namespace FbThrift.FastThrift

open Decoder
open Rocket (Flags Payload frameBody writePayload writeStreamId encodeFrame readStreamId
  decodes_readStreamId length_frameBody length_writePayload readFrameOrMetadataSize_write
  kMaxFragmentedPayloadSize kBytesForFrameOrMetadataLength)

/-! ## Fast thrift parses the bytes of a frame -/

section

variable {streamId : UInt32} {type : Rocket.FrameType} {flags : Flags} {extra : Bytes}
variable {p : Payload}

theorem decodes_readFrameTypeAndFlags (valid : flags.Valid) :
    Decodes readFrameTypeAndFlags (Rocket.writeFrameTypeAndFlags type flags)
      (.ofRocket type, flags) := by
  intro rest
  have behind : (Rocket.writeFrameTypeAndFlags type flags ++ rest).drop 2 = rest :=
    List.drop_left' (length_writeBE 2 _)
  have bits := Rocket.readFrameTypeAndFlagBits_write type.code_lt valid.lt rest
  rw [readFrameTypeAndFlags, behind, Rocket.writeFrameTypeAndFlags, bits]
  simp only [← FrameType.code_ofRocket, FrameType.ofCode_code]

theorem decodes_skipExtraHeaderBytes {frameType : FrameType}
    (header : frameType.headerSize = kBaseHeaderSize + extra.length) :
    Decodes (skipExtraHeaderBytes frameType) extra () := by
  intro rest
  have extraBytes : frameType.headerSize - kBaseHeaderSize = extra.length := by omega
  have long : ¬ frameType.headerSize < kBaseHeaderSize := by omega
  rw [skipExtraHeaderBytes, if_neg long, extraBytes]
  exact Run.bind_of_ok (decodes_take extra rest)

theorem readMetadataSize_writePayload (announced : flags.metadata = p.hasNonemptyMetadata)
    (short : p.metadataSize < 2 ^ 24) :
    readMetadataSize flags (writePayload p) = .ok (UInt16.ofNat p.metadataSize, p.buffer) := by
  rw [readMetadataSize, ← Flags.metadata_eq_has, announced, writePayload]
  cases metadata : p.hasNonemptyMetadata with
  | false =>
    have none : p.metadataSize = 0 := by
      simpa [Payload.hasNonemptyMetadata] using metadata
    simp [none]
  | true =>
    have behind : (Rocket.writeFrameOrMetadataSize p.metadataSize ++ p.buffer).drop 3 = p.buffer :=
      List.drop_left' (Rocket.length_writeFrameOrMetadataSize _)
    simp only [if_true, readFrameOrMetadataSize_write short p.buffer, behind]

theorem readHeader_frameBody (valid : flags.Valid)
    (header : (FrameType.ofRocket type).headerSize = kBaseHeaderSize + extra.length)
    (announced : flags.metadata = p.hasNonemptyMetadata) (short : p.metadataSize < 2 ^ 24) :
    readHeader (frameBody streamId type flags extra p) =
      .ok ((streamId, .ofRocket type, flags, UInt16.ofNat p.metadataSize), p.buffer) := by
  rw [readHeader, frameBody, Run.bind_of_ok (decodes_readStreamId streamId _),
    Run.bind_of_ok (decodes_readFrameTypeAndFlags valid _)]
  dsimp only
  rw [Run.bind_of_ok (decodes_skipExtraHeaderBytes header _),
    Run.bind_of_ok (readMetadataSize_writePayload announced short)]
  rfl

/-- A parsed frame has the fields of the header, the low 16 bits of the length of the metadata, and
the payload behind it. -/
theorem parseFrame_frameBody (valid : flags.Valid)
    (header : (FrameType.ofRocket type).headerSize = kBaseHeaderSize + extra.length)
    (announced : flags.metadata = p.hasNonemptyMetadata) (short : p.metadataSize < 2 ^ 24)
    (small : (frameBody streamId type flags extra p).length < 2 ^ 32) :
    ∃ frame, parseFrame (frameBody streamId type flags extra p) = .ok frame ∧
      frame.frameType = .ofRocket type ∧ frame.streamId = streamId ∧
      frame.metadata.flags = flags ∧ frame.buffer = frameBody streamId type flags extra p ∧
      frame.metadata.metadataSize = UInt16.ofNat p.metadataSize ∧ frame.payload = p.buffer := by
  have read : readHeader (frameBody streamId type flags extra p) =
      .ok ((streamId, .ofRocket type, flags, UInt16.ofNat p.metadataSize), p.buffer) :=
    readHeader_frameBody valid header announced short
  obtain ⟨pre, split⟩ : ∃ pre, frameBody streamId type flags extra p = pre ++ p.buffer := by
    rw [frameBody, writePayload]
    simp only [← List.append_assoc]
    exact ⟨_, rfl⟩
  have offset : (UInt32.ofNat ((frameBody streamId type flags extra p).length -
      p.buffer.length)).toNat = pre.length := by
    rw [UInt32.toNat_ofNat_of_lt' (Nat.lt_of_le_of_lt (Nat.sub_le _ _) small), split,
      List.length_append, Nat.add_sub_cancel]
  simp only [parseFrame, read, bind, Except.bind, pure, Except.pure]
  refine ⟨_, rfl, rfl, rfl, rfl, rfl, rfl, ?_⟩
  rw [ParsedFrame.payload, offset, split]
  exact List.drop_left

end

/-! ## What a frame says -/

/-- The number is the initial or the requested number of payloads, the last received position
or the type of an extension. -/
structure FrameValues where
  frameType : FrameType
  streamId : UInt32
  flags : Flags
  number : Option Int
  metadata : Bytes
  data : Bytes
  deriving DecidableEq, Repr

/-- A frame that both sides know, with what the overloads of `serialize` take. -/
inductive Frame where
  | requestResponse (header : RequestResponseHeader) (metadata data : Bytes)
  | requestFnf (header : RequestFnfHeader) (metadata data : Bytes)
  | requestStream (header : RequestStreamHeader) (metadata data : Bytes)
  | requestChannel (header : RequestChannelHeader) (metadata data : Bytes)
  | requestN (header : RequestNHeader)
  | cancel (header : CancelHeader)
  | payload (header : PayloadHeader) (metadata data : Bytes)
  | keepAlive (header : KeepAliveHeader) (data : Bytes)
  | ext (header : ExtHeader) (metadata data : Bytes)
  deriving DecidableEq, Repr

namespace Frame

def serialize (roomy : Bool) : Frame → Bytes
  | requestResponse header metadata data => header.serialize roomy metadata data
  | requestFnf header metadata data => header.serialize roomy metadata data
  | requestStream header metadata data => header.serialize roomy metadata data
  | requestChannel header metadata data => header.serialize roomy metadata data
  | requestN header => header.serialize
  | cancel header => header.serialize
  | payload header metadata data => header.serialize roomy metadata data
  | keepAlive header data => header.serialize data
  | ext header metadata data => header.serialize roomy metadata data

def type : Frame → Rocket.FrameType
  | requestResponse .. => .requestResponse
  | requestFnf .. => .requestFnf
  | requestStream .. => .requestStream
  | requestChannel .. => .requestChannel
  | requestN .. => .requestN
  | cancel .. => .cancel
  | payload .. => .payload
  | keepAlive .. => .keepalive
  | ext .. => .ext

/-- KEEPALIVE frames are on the stream of the connection. -/
def streamId : Frame → UInt32
  | requestResponse header .. => header.streamId
  | requestFnf header .. => header.streamId
  | requestStream header .. => header.streamId
  | requestChannel header .. => header.streamId
  | requestN header => header.streamId
  | cancel header => header.streamId
  | payload header .. => header.streamId
  | keepAlive .. => 0
  | ext header .. => header.streamId

def metadata : Frame → Bytes
  | requestResponse _ metadata _ => metadata
  | requestFnf _ metadata _ => metadata
  | requestStream _ metadata _ => metadata
  | requestChannel _ metadata _ => metadata
  | payload _ metadata _ => metadata
  | ext _ metadata _ => metadata
  | _ => []

def data : Frame → Bytes
  | requestResponse _ _ data => data
  | requestFnf _ _ data => data
  | requestStream _ _ data => data
  | requestChannel _ _ data => data
  | payload _ _ data => data
  | keepAlive _ data => data
  | ext _ _ data => data
  | _ => []

/-- The flags that a frame has: those of its header, and that it has metadata. -/
def has : Frame → Flags.Bit → Bool
  | f, .metadata => !f.metadata.isEmpty
  | requestResponse header .., .follows => header.follows
  | requestFnf header .., .follows => header.follows
  | requestStream header .., .follows => header.follows
  | requestChannel header .., .follows => header.follows
  | requestChannel header .., .complete => header.complete
  | payload header .., .follows => header.follows
  | payload header .., .complete => header.complete
  | payload header .., .next => header.next
  | keepAlive header _, .follows => header.respond
  | ext header .., .ignore => header.ignore
  | _, _ => false

def flags (f : Frame) : Flags :=
  (((((⟨0⟩ : Flags).set .next (f.has .next)).set .complete (f.has .complete)).set .follows
    (f.has .follows)).set .metadata (f.has .metadata)).set .ignore (f.has .ignore)

def number : Frame → Option Int
  | requestStream header .. => some header.initialRequestN.toNat
  | requestChannel header .. => some header.initialRequestN.toNat
  | requestN header => some header.requestN.toNat
  | keepAlive header _ => some header.lastReceivedPosition.toNat
  | ext header .. => some header.extendedType.toNat
  | _ => none

/-- What the header of a frame and its payload say. -/
def values (f : Frame) : FrameValues :=
  ⟨.ofRocket f.type, f.streamId, f.flags, f.number, f.metadata, f.data⟩

/-- Both lengths fit their fields, and Rocket needs one frame only. -/
structure Fits (f : Frame) : Prop where
  metadata_lt : f.metadata.length < 2 ^ 16
  length_lt : f.metadata.length + f.data.length < kMaxFragmentedPayloadSize

/-! ## The bytes of a frame -/

/-- The field behind the flags. -/
def extra : Frame → Bytes
  | requestStream header .. => writeBE 4 header.initialRequestN.toNat
  | requestChannel header .. => writeBE 4 header.initialRequestN.toNat
  | requestN header => writeBE 4 header.requestN.toNat
  | keepAlive header _ => writeBE 8 header.lastReceivedPosition.toNat
  | ext header .. => writeBE 4 header.extendedType.toNat
  | _ => []

def joined (f : Frame) : Payload := .makeFromMetadataAndData f.metadata f.data

/-- A frame without its length field. -/
def body (f : Frame) : Bytes := frameBody f.streamId f.type f.flags f.extra f.joined

@[simp] theorem has_flags (f : Frame) (bit : Flags.Bit) : f.flags.has bit = f.has bit := by
  cases bit <;> simp [flags]

theorem valid_flags (f : Frame) : f.flags.Valid :=
  ((((Flags.Valid.none.set _ _).set _ _).set _ _).set _ _).set _ _

theorem hasNonemptyMetadata_joined (f : Frame) :
    f.joined.hasNonemptyMetadata = !f.metadata.isEmpty := by
  rw [joined]
  cases f.metadata <;> rfl

theorem announced (f : Frame) : f.flags.metadata = f.joined.hasNonemptyMetadata := by
  rw [Flags.metadata_eq_has, has_flags, hasNonemptyMetadata_joined]
  cases f <;> rfl

theorem eq_flags {f : Frame} {flags : Flags} (valid : flags.Valid)
    (same : ∀ bit, flags.has bit = f.has bit) : flags = f.flags :=
  valid.ext f.valid_flags fun bit => (same bit).trans (f.has_flags bit).symm

/-- The flags that `serialize` computes from a header. -/
def headerFlags : Frame → Flags
  | requestResponse header .. => orIf header.follows .follows ⟨0⟩
  | requestFnf header .. => orIf header.follows .follows ⟨0⟩
  | requestStream header .. => orIf header.follows .follows ⟨0⟩
  | requestChannel header .. => orIf header.complete .complete (orIf header.follows .follows ⟨0⟩)
  | requestN _ => ⟨0⟩
  | cancel _ => ⟨0⟩
  | payload header .. =>
    orIf header.next .next (orIf header.complete .complete (orIf header.follows .follows ⟨0⟩))
  | keepAlive header _ => orIf header.respond .follows ⟨0⟩
  | ext header .. => orIf header.ignore .ignore ⟨0⟩

theorem valid_headerFlags (f : Frame) : f.headerFlags.Valid := by
  have none := Flags.Valid.none
  cases f with
  | requestN header => exact none
  | cancel header => exact none
  | requestChannel header metadata data => exact valid_orIf (valid_orIf none _ _) _ _
  | payload header metadata data => exact valid_orIf (valid_orIf (valid_orIf none _ _) _ _) _ _
  | _ => exact valid_orIf none _ _

theorem has_headerFlags (f : Frame) (bit : Flags.Bit) :
    (orIf (!f.metadata.isEmpty) .metadata f.headerFlags).has bit = f.has bit := by
  cases f <;> cases bit <;> simp [headerFlags, has, metadata]

/-- Fast thrift writes the bytes of the frame. -/
theorem serialize_eq (f : Frame) (roomy : Bool) : f.serialize roomy = f.body := by
  obtain ⟨room, written⟩ : ∃ room, f.serialize roomy = serializeFrame room (.ofRocket f.type)
      f.streamId f.headerFlags f.extra f.metadata f.data := by
    cases f with
    | requestN _ | cancel _ | keepAlive _ _ => exact ⟨false, rfl⟩
    | _ => exact ⟨roomy, rfl⟩
  have flags := eq_flags (valid_orIf f.valid_headerFlags _ _) f.has_headerFlags
  rw [written, serializeFrame_eq f.valid_headerFlags, flags]
  rfl

/-! ## What fast thrift reads -/

theorem length_body_le (f : Frame) : f.body.length ≤ 17 + (f.metadata.length + f.data.length) := by
  have extra : f.extra.length ≤ 8 := by
    cases f <;> simp [Frame.extra]
  rw [body, length_frameBody, Payload.serializedSize, Payload.metadataAndDataSize, joined,
    Payload.makeFromMetadataAndData, List.length_append]
  simp only [kBytesForFrameOrMetadataLength]
  split <;> omega

theorem length_body_lt {f : Frame} (fits : f.Fits) : f.body.length < 2 ^ 24 := by
  have le := length_body_le f
  have small := fits.length_lt
  unfold kMaxFragmentedPayloadSize at small
  omega

end Frame

/-- The field that the view of the type reads. -/
def ParsedFrame.number (frame : ParsedFrame) : Except String (Option Int) :=
  match frame.frameType with
  | .requestStream => (fun n : Nat => some (n : Int)) <$> RequestStreamView.initialRequestN frame
  | .requestChannel => (fun n : Nat => some (n : Int)) <$> RequestStreamView.initialRequestN frame
  | .requestN => (fun n : Nat => some (n : Int)) <$> RequestNView.requestN frame
  | .keepalive => (fun n : Nat => some (n : Int)) <$> KeepAliveView.lastReceivedPosition frame
  | .ext => (fun n : Nat => some (n : Int)) <$> ExtView.extendedType frame
  | _ => .ok none

def ParsedFrame.values (frame : ParsedFrame) : Except String FrameValues := do
  let number ← frame.number
  pure ⟨frame.frameType, frame.streamId, frame.metadata.flags, number, frame.metadataBytes,
    frame.data⟩

/-- The frame that the bytes start with, parsed. -/
def receive (bytes : Bytes) : Except String FrameValues :=
  match Rocket.nextFrame bytes with
  | some (frame, _) => do (← parseFrame frame).values
  | none => .error "incomplete frame"

theorem frameSpecific_eq {streamId : UInt32} {type : Rocket.FrameType} {flags : Flags} {k n : Nat}
    {p : Payload} {frame : ParsedFrame} (fits : n < 256 ^ k)
    (buffer : frame.buffer = frameBody streamId type flags (writeBE k n) p) :
    frameSpecific k frame = .ok n := by
  have split : frame.buffer = (writeStreamId streamId ++
      Rocket.writeFrameTypeAndFlags type flags) ++ (writeBE k n ++ writePayload p) := by
    rw [buffer, frameBody, List.append_assoc]
  have skipped := decodes_take (writeStreamId streamId ++
    Rocket.writeFrameTypeAndFlags type flags) (writeBE k n ++ writePayload p)
  have length : (writeStreamId streamId ++
      Rocket.writeFrameTypeAndFlags type flags).length = kFrameSpecificOffset := by
    rw [List.length_append, writeStreamId, Rocket.writeFrameTypeAndFlags, length_writeBE,
      length_writeBE]
    rfl
  rw [length] at skipped
  rw [frameSpecific, split, Run.bind_of_ok skipped, decodes_readBE fits]
  rfl

namespace Frame

theorem headerSize_eq (f : Frame) :
    (FrameType.ofRocket f.type).headerSize = kBaseHeaderSize + f.extra.length := by
  cases f <;> simp [type, FrameType.ofRocket, FrameType.headerSize, extra]

variable {f : Frame}

theorem number_of_body {frame : ParsedFrame} (buffer : frame.buffer = f.body)
    (type : frame.frameType = .ofRocket f.type) : frame.number = .ok f.number := by
  cases f with
  | requestStream header metadata data =>
    have read := frameSpecific_eq (by simpa using header.initialRequestN.toNat_lt) buffer
    simp only [ParsedFrame.number, type, Frame.type, FrameType.ofRocket]
    rw [RequestStreamView.initialRequestN, read]
    rfl
  | requestChannel header metadata data =>
    have read := frameSpecific_eq (by simpa using header.initialRequestN.toNat_lt) buffer
    simp only [ParsedFrame.number, type, Frame.type, FrameType.ofRocket]
    rw [RequestStreamView.initialRequestN, read]
    rfl
  | requestN header =>
    have read := frameSpecific_eq (by simpa using header.requestN.toNat_lt) buffer
    simp only [ParsedFrame.number, type, Frame.type, FrameType.ofRocket]
    rw [RequestNView.requestN, read]
    rfl
  | keepAlive header data =>
    have read := frameSpecific_eq (by simpa using header.lastReceivedPosition.toNat_lt) buffer
    simp only [ParsedFrame.number, type, Frame.type, FrameType.ofRocket]
    rw [KeepAliveView.lastReceivedPosition, read]
    rfl
  | ext header metadata data =>
    have read := frameSpecific_eq (by simpa using header.extendedType.toNat_lt) buffer
    simp only [ParsedFrame.number, type, Frame.type, FrameType.ofRocket]
    rw [ExtView.extendedType, read]
    rfl
  | _ => simp only [ParsedFrame.number, type, Frame.type, FrameType.ofRocket]; rfl

theorem next_encodeFrame (fits : f.Fits) :
    Rocket.nextFrame (encodeFrame f.body) = some (f.body, []) := by
  have split := Rocket.frames.next_encode [] (length_body_lt fits)
  rwa [List.append_nil] at split

/-- Fast thrift parses the bytes of a frame to what the frame says. -/
theorem receive_body (fits : f.Fits) : receive (encodeFrame f.body) = .ok f.values := by
  have next := next_encodeFrame fits
  obtain ⟨frame, parsed, type, streamId, flags, buffer, metadataSize, payload⟩ :=
    parseFrame_frameBody f.valid_flags f.headerSize_eq f.announced
      (Nat.lt_trans fits.metadata_lt (by decide)) (Nat.lt_trans (length_body_lt fits) (by decide))
  have size : frame.metadata.metadataSize.toNat = f.metadata.length := by
    rw [metadataSize]
    exact UInt16.toNat_ofNat_of_lt' fits.metadata_lt
  have read : frame.values = .ok f.values := by
    have metadata : frame.metadataBytes = f.metadata := by
      rw [ParsedFrame.metadataBytes, payload, size]
      exact List.take_left
    have data : frame.data = f.data := by
      rw [ParsedFrame.data, payload, size]
      exact List.drop_left
    rw [ParsedFrame.values, number_of_body buffer type, type, streamId, flags, metadata, data]
    rfl
  rw [receive, next]
  simp only [body, parsed]
  exact read

end Frame

/-! ## What Rocket reads -/

/-- The value of a word that is read as `int32_t`. -/
def asInt32 (n : UInt32) : Int :=
  if n.toNat < 2 ^ 31 then n.toNat else n.toNat - 2 ^ 32

theorem toInt_toInt32 (n : UInt32) : n.toInt32.toInt = asInt32 n := by
  change n.toBitVec.toInt = _
  have value : n.toBitVec.toNat = n.toNat := rfl
  rw [BitVec.toInt, value, asInt32]
  split <;> split <;> omega

def requestNumber : Rocket.RequestType → Option Int
  | .stream initialRequestN => some initialRequestN.toInt
  | .channel initialRequestN => some initialRequestN.toInt
  | _ => none

/-- What the accessors of an object return; a KEEPALIVE frame has none for its position, and
REQUEST_N and CANCEL frames have no flags. -/
def rocketValues : Rocket.AnyFrame → FrameValues
  | .request f => ⟨.ofRocket f.type.frameType, f.streamId, f.flags, requestNumber f.type,
      f.payload.metadata, f.payload.data⟩
  | .payload f => ⟨.payload, f.streamId, f.flags, none, f.payload.metadata, f.payload.data⟩
  | .requestN f => ⟨.requestN, f.streamId, ⟨0⟩, some f.requestN.toInt, [], []⟩
  | .cancel f => ⟨.cancel, f.streamId, ⟨0⟩, none, [], []⟩
  | .keepAlive f => ⟨.keepalive, f.streamId, f.flags, none, [], f.data⟩
  | .ext f => ⟨.ext, f.streamId, f.flags, some f.extFrameType.toNat, f.payload.metadata,
      f.payload.data⟩

/-- The frame that the bytes start with, read by the class of a type. -/
def receiveRocket (type : Rocket.FrameType) (bytes : Bytes) : Except String FrameValues :=
  match Rocket.nextFrame bytes with
  | some (frame, _) => (fun read => rocketValues read.1) <$> Rocket.AnyFrame.read type frame
  | none => .error "incomplete frame"

namespace Frame

/-- The number that Rocket has for a frame. -/
def rocketNumber : Frame → Option Int
  | requestStream header .. => some (asInt32 header.initialRequestN)
  | requestChannel header .. => some (asInt32 header.initialRequestN)
  | requestN header => some (asInt32 header.requestN)
  | ext .. => some 0
  | _ => none

variable {f : Frame}

theorem small_joined (fits : f.Fits) : f.joined.Small := by
  constructor
  · simp [joined, Payload.makeFromMetadataAndData]
  · rw [joined, Payload.makeFromMetadataAndData, List.length_append]
    exact Nat.le_of_lt fits.length_lt

theorem metadata_joined (f : Frame) : f.joined.metadata = f.metadata := List.take_left

theorem data_joined (f : Frame) : f.joined.data = f.data := List.drop_left

theorem decodes_readInitialRequestN (n : UInt32) :
    Decodes Rocket.readInitialRequestN (writeBE 4 n.toNat) n.toInt32 := by
  have decodes := Rocket.decodes_readInitialRequestN n.toInt32
  rwa [UInt32.toUInt32_toInt32] at decodes

theorem readFrame_request (fits : f.Fits) {type : Decoder Rocket.RequestType}
    {requestType : Rocket.RequestType} (decodes : Decodes type f.extra requestType)
    (dispatch : Rocket.readByType f.streamId f.flags f.type =
      Rocket.RequestFrame.read f.streamId f.flags type) :
    Rocket.readFrame f.body = .ok (.request ⟨requestType, f.streamId, f.flags, f.joined⟩, []) := by
  have used : f.type ≠ .reserved := by
    cases f <;> simp [Frame.type]
  rw [body, Rocket.readFrame_frameBody used f.valid_flags, dispatch]
  exact Rocket.RequestFrame.read_eq decodes (small_joined fits) f.announced

theorem flags_eq_none (none : ∀ bit, f.has bit = false) : f.flags = ⟨0⟩ :=
  (eq_flags .none fun bit => (Flags.has_none bit).trans (none bit).symm).symm

theorem flags_requestN (header : RequestNHeader) : (requestN header).flags = ⟨0⟩ :=
  flags_eq_none fun bit => by cases bit <;> rfl

theorem flags_cancel (header : CancelHeader) : (cancel header).flags = ⟨0⟩ :=
  flags_eq_none fun bit => by cases bit <;> rfl

theorem read_body (fits : f.Fits) : ∃ g, Rocket.AnyFrame.read f.type f.body = .ok (g, []) ∧
      rocketValues g = { f.values with number := f.rocketNumber } := by
  have number (n : UInt32) := toInt_toInt32 n
  cases f with
  | requestResponse header metadata data =>
    have read := readFrame_request fits (.pure .response) rfl
    refine ⟨_, Run.bind_of_ok read, ?_⟩
    simp only [rocketValues, metadata_joined, data_joined]
    rfl
  | requestFnf header metadata data =>
    have read := readFrame_request fits (.pure .fnf) rfl
    refine ⟨_, Run.bind_of_ok read, ?_⟩
    simp only [rocketValues, metadata_joined, data_joined]
    rfl
  | requestStream header metadata data =>
    have read := readFrame_request fits
      (fun rest => Run.map_of_ok (decodes_readInitialRequestN header.initialRequestN rest)
        Rocket.RequestType.stream) rfl
    refine ⟨_, Run.bind_of_ok read, ?_⟩
    simp only [rocketValues, requestNumber, metadata_joined, data_joined, number]
    rfl
  | requestChannel header metadata data =>
    have read := readFrame_request fits
      (fun rest => Run.map_of_ok (decodes_readInitialRequestN header.initialRequestN rest)
        Rocket.RequestType.channel) rfl
    refine ⟨_, Run.bind_of_ok read, ?_⟩
    simp only [rocketValues, requestNumber, metadata_joined, data_joined, number]
    rfl
  | requestN header =>
    have read := Rocket.RequestNFrame.read_frameBody header.streamId header.requestN.toInt32
    rw [UInt32.toUInt32_toInt32, ← flags_requestN header] at read
    refine ⟨_, Run.map_of_ok read _, ?_⟩
    simp only [rocketValues, number, values, flags_requestN]
    rfl
  | cancel header =>
    have read := Rocket.CancelFrame.read_frameBody header.streamId
    rw [← flags_cancel header] at read
    refine ⟨_, Run.map_of_ok read _, ?_⟩
    simp only [rocketValues, values, flags_cancel]
    rfl
  | payload header metadata data =>
    have read : Rocket.readFrame (payload header metadata data).body =
        .ok (.payload ⟨header.streamId, (payload header metadata data).flags,
          (payload header metadata data).joined⟩, []) := by
      rw [body, Rocket.readFrame_frameBody (by simp [Frame.type]) (valid_flags _)]
      exact Rocket.PayloadFrame.read_eq (small_joined fits) (announced _)
    refine ⟨_, Run.bind_of_ok read, ?_⟩
    simp only [rocketValues, metadata_joined, data_joined]
    rfl
  | keepAlive header data =>
    have read := Rocket.KeepAliveFrame.read_frameBody (keepAlive header data).valid_flags
      header.lastReceivedPosition.toNat data
    exact ⟨_, Run.map_of_ok read _, rfl⟩
  | ext header metadata data =>
    have read := Rocket.ExtFrame.read_frameBody (valid_flags _) (small_joined fits)
      (announced _) header.streamId header.extendedType
    refine ⟨_, Run.map_of_ok read _, ?_⟩
    simp only [rocketValues, metadata_joined, data_joined]
    rfl

theorem receiveRocket_body (fits : f.Fits) : receiveRocket f.type (encodeFrame f.body) =
      .ok { f.values with number := f.rocketNumber } := by
  obtain ⟨g, read, values⟩ := read_body fits
  rw [receiveRocket, next_encodeFrame fits, ← values]
  simp only [read]
  rfl

/-! ## What Rocket writes -/

/-- The object that the constructors and the setters of its class make of a frame. -/
def toRocket : Frame → Except String Rocket.AnyFrame
  | requestResponse header metadata data => do
      let f ← Rocket.RequestFrame.make .response header.streamId
        (.makeFromMetadataAndData metadata data)
      pure (.request (f.setHasFollows header.follows))
  | requestFnf header metadata data => do
      let f ← Rocket.RequestFrame.make .fnf header.streamId (.makeFromMetadataAndData metadata data)
      pure (.request (f.setHasFollows header.follows))
  | requestStream header metadata data => do
      let f ← Rocket.RequestFrame.make (.stream header.initialRequestN.toInt32) header.streamId
        (.makeFromMetadataAndData metadata data)
      pure (.request (f.setHasFollows header.follows))
  | requestChannel header metadata data => do
      let f ← Rocket.RequestFrame.make (.channel header.initialRequestN.toInt32) header.streamId
        (.makeFromMetadataAndData metadata data)
      pure (.request ((f.setHasFollows header.follows).setHasComplete header.complete))
  | requestN header => do
      let f ← Rocket.RequestNFrame.make header.streamId header.requestN.toInt32
      pure (.requestN f)
  | cancel header => pure (.cancel ⟨header.streamId⟩)
  | payload header metadata data =>
    let flags := (((⟨0⟩ : Flags).set .next header.next).set .complete header.complete).set
      .follows header.follows
    pure (.payload ⟨header.streamId, flags, .makeFromMetadataAndData metadata data⟩)
  | keepAlive header data =>
    pure (.keepAlive (.make ((⟨0⟩ : Flags).set .follows header.respond) data))
  | ext header metadata data =>
    pure (.ext ⟨header.streamId, (⟨0⟩ : Flags).set .ignore header.ignore, header.extendedType,
      .makeFromMetadataAndData metadata data⟩)

/-- Rocket sends zero for the last received position. -/
def sentByRocket : Frame → Frame
  | keepAlive header data => keepAlive { header with lastReceivedPosition := 0 } data
  | f => f

theorem has_metadata (f : Frame) : f.has .metadata = f.joined.hasNonemptyMetadata := by
  rw [hasNonemptyMetadata_joined]
  cases f <;> rfl

theorem announce_eq_flags {flags : Flags} (valid : flags.Valid)
    (same : ∀ bit, bit ≠ .metadata → flags.has bit = f.has bit) :
    flags.set .metadata f.joined.hasNonemptyMetadata = f.flags := by
  apply eq_flags (valid.set _ _)
  intro bit
  rw [Flags.has_set]
  split
  next metadata => rw [← metadata, has_metadata]
  next other => exact same bit (Ne.symm other)

theorem serialize_request (fits : f.Fits) (type : Rocket.RequestType) (flags : Flags)
    (frameType : type.frameType = f.type) (extra : type.serializeInitialNIfPresent = f.extra)
    (valid : flags.Valid) (same : ∀ bit, bit ≠ .metadata → flags.has bit = f.has bit)
    (complete : (type.isChannel && flags.has .complete) = flags.has .complete)
    (others : flags.has .next = false ∧ flags.has .ignore = false) (roomy : Bool) :
    (⟨type, f.streamId, flags, f.joined⟩ : Rocket.RequestFrame).serialize roomy =
      [encodeFrame f.body] := by
  have kept := announce_eq_flags valid same
  have written : (⟨type, f.streamId, flags, f.joined⟩ : Rocket.RequestFrame).writtenFlags =
      f.flags := by
    rw [← kept]
    apply (Rocket.RequestFrame.valid_writtenFlags _).ext (valid.set _ _)
    intro bit
    cases bit <;> simp [Rocket.RequestFrame.writtenFlags, Rocket.RequestFrame.hasFollows,
      Rocket.RequestFrame.hasComplete, complete, others]
  rw [Rocket.RequestFrame.serialize_single (small_joined fits) (kept.trans written.symm),
    written, frameType, extra]
  rfl

theorem serialize_payload (fits : f.Fits) (flags : Flags)
    (frameType : f.type = .payload) (extra : f.extra = []) (valid : flags.Valid)
    (same : ∀ bit, bit ≠ .metadata → flags.has bit = f.has bit)
    (ignore : flags.has .ignore = false) (roomy : Bool) :
    (⟨f.streamId, flags, f.joined⟩ : Rocket.PayloadFrame).serialize roomy =
      [encodeFrame f.body] := by
  have kept := announce_eq_flags valid same
  have written : (⟨f.streamId, flags, f.joined⟩ : Rocket.PayloadFrame).writtenFlags = f.flags := by
    rw [← kept]
    apply (Rocket.PayloadFrame.valid_writtenFlags _).ext (valid.set _ _)
    intro bit
    cases bit <;> simp [Rocket.PayloadFrame.writtenFlags, Rocket.PayloadFrame.hasFollows,
      Rocket.PayloadFrame.hasComplete, Rocket.PayloadFrame.hasNext, ignore]
  rw [Rocket.PayloadFrame.serialize_single (small_joined fits) (kept.trans written.symm),
    written, body, frameType, extra]

theorem serialize_ext (fits : f.Fits) (flags : Flags) (extFrameType : UInt32)
    (frameType : f.type = .ext) (extra : f.extra = writeBE 4 extFrameType.toNat)
    (valid : flags.Valid) (same : ∀ bit, bit ≠ .metadata → flags.has bit = f.has bit) :
    (⟨f.streamId, flags, extFrameType, f.joined⟩ : Rocket.ExtFrame).serialize =
      .ok (encodeFrame f.body) := by
  have kept := announce_eq_flags valid same
  have written : (⟨f.streamId, flags, extFrameType, f.joined⟩ : Rocket.ExtFrame).writtenFlags =
      f.flags := by
    rw [Rocket.ExtFrame.writtenFlags, kept, Rocket.ExtFrame.hasIgnore, same .ignore (by simp)]
    apply eq_flags (f.valid_flags.set _ _)
    intro bit
    by_cases ignore : Flags.Bit.ignore = bit
    · rw [Flags.has_set, if_pos ignore, ignore]
    · rw [Flags.has_set, if_neg ignore, has_flags]
  have small : f.joined.metadataAndDataSize < kMaxFragmentedPayloadSize := by
    rw [Payload.metadataAndDataSize, joined, Payload.makeFromMetadataAndData, List.length_append]
    exact fits.length_lt
  rw [Rocket.ExtFrame.serialize_eq small, written, body, frameType, extra]

/-- An object of Rocket is written as the bytes of its frame, without the position. -/
theorem serialize_toRocket {g : Rocket.AnyFrame} (fits : f.Fits)
    (made : f.toRocket = .ok g) (roomy : Bool) :
    g.serialize roomy = .ok [encodeFrame f.sentByRocket.body] := by
  have none := Flags.Valid.none
  have word (n : UInt32) : writeBE 4 n.toInt32.toUInt32.toNat = writeBE 4 n.toNat := by
    rw [UInt32.toUInt32_toInt32]
  cases f with
  | requestResponse header metadata data =>
    cases made
    exact congrArg Except.ok (serialize_request fits .response _ rfl rfl
      (none.set .follows header.follows)
      (fun bit other => by cases bit <;> simp [has] at other ⊢) (by simp) (by simp) roomy)
  | requestFnf header metadata data =>
    cases made
    exact congrArg Except.ok (serialize_request fits .fnf _ rfl rfl
      (none.set .follows header.follows)
      (fun bit other => by cases bit <;> simp [has] at other ⊢) (by simp) (by simp) roomy)
  | requestStream header metadata data =>
    rw [toRocket, Rocket.RequestFrame.make] at made
    split at made
    next => cases made
    next =>
      cases made
      exact congrArg Except.ok (serialize_request fits (.stream header.initialRequestN.toInt32)
        _ rfl (word _) (none.set .follows header.follows)
        (fun bit other => by cases bit <;> simp [has] at other ⊢) (by simp) (by simp) roomy)
  | requestChannel header metadata data =>
    rw [toRocket, Rocket.RequestFrame.make] at made
    split at made
    next => cases made
    next =>
      cases made
      exact congrArg Except.ok (serialize_request fits (.channel header.initialRequestN.toInt32)
        _ rfl (word _) ((none.set .follows header.follows).set .complete header.complete)
        (fun bit other => by cases bit <;> simp [has] at other ⊢)
        (by simp [Rocket.RequestType.isChannel]) (by simp) roomy)
  | requestN header =>
    rw [toRocket, Rocket.RequestNFrame.make] at made
    split at made
    next => cases made
    next =>
      cases made
      rw [Rocket.AnyFrame.serialize, Rocket.RequestNFrame.serialize_eq, word,
        ← flags_requestN header]
      rfl
  | cancel header =>
    cases made
    rw [Rocket.AnyFrame.serialize, Rocket.CancelFrame.serialize_eq, ← flags_cancel header]
    rfl
  | payload header metadata data =>
    cases made
    exact congrArg Except.ok (serialize_payload fits _ rfl rfl
      (((none.set .next header.next).set .complete header.complete).set .follows header.follows)
      (fun bit other => by cases bit <;> simp [has] at other ⊢) (by simp) roomy)
  | keepAlive header data =>
    cases made
    have flags : (⟨0⟩ : Flags).set .follows header.respond =
        (sentByRocket (keepAlive header data)).flags :=
      eq_flags (none.set _ _) (fun bit => by cases bit <;> simp [has, sentByRocket, Frame.metadata])
    rw [Rocket.AnyFrame.serialize, Rocket.KeepAliveFrame.serialize_eq,
      Rocket.KeepAliveFrame.make, flags]
    rfl
  | ext header metadata data =>
    cases made
    have written := serialize_ext fits ((⟨0⟩ : Flags).set .ignore header.ignore)
      header.extendedType rfl rfl (none.set _ _)
      (fun bit other => by cases bit <;> simp [has] at other ⊢)
    exact congrArg (fun bytes => (fun bytes => [bytes]) <$> bytes) written

theorem fits_sentByRocket (fits : f.Fits) : f.sentByRocket.Fits := by
  cases f <;> exact ⟨fits.metadata_lt, fits.length_lt⟩

end Frame

/-! ## Each side reads what the other one writes -/

/-- A frame of fast thrift is read by the class of its type in Rocket, which has all that the
frame says but the position of a KEEPALIVE and the type of an EXT frame, and has its number as
a signed one.  What the class writes of a frame is parsed by fast thrift to all that the frame
says but the position. -/
theorem interoperates (f : Frame) (roomy : Bool) (fits : f.Fits) :
    receiveRocket f.type (prependFrameLength (f.serialize roomy)) =
        .ok { f.values with number := f.rocketNumber } ∧
      ∀ g, f.toRocket = .ok g →
        ∃ bytes, g.serialize roomy = .ok [bytes] ∧ receive bytes = .ok f.sentByRocket.values := by
  constructor
  · rw [prependFrameLength_eq, Frame.serialize_eq, Frame.receiveRocket_body fits]
  · intro g made
    exact ⟨_, Frame.serialize_toRocket fits made roomy,
      Frame.receive_body (Frame.fits_sentByRocket fits)⟩

/-- A request for seven payloads. -/
def request : Frame := .requestStream ⟨1, 7, false⟩ [1, 2] [3]

theorem fits_request : request.Fits := by
  constructor <;> simp [request, Frame.metadata, Frame.data, kMaxFragmentedPayloadSize]

theorem interoperates_request :
    receiveRocket .requestStream (prependFrameLength (request.serialize true)) =
        .ok request.values ∧
      ∃ g bytes, request.toRocket = .ok g ∧ g.serialize true = .ok [bytes] ∧
        receive bytes = .ok request.values := by
  obtain ⟨read, written⟩ := interoperates request true fits_request
  obtain ⟨bytes, sent, received⟩ := written _ rfl
  exact ⟨read, _, bytes, rfl, sent, received⟩

/-- The type of an extension, the position of a KEEPALIVE frame and the sign of a number are
lost. -/
theorem numbers_lost :
    receiveRocket .ext (prependFrameLength ((Frame.ext ⟨1, 5, true⟩ [] []).serialize false)) ≠
        .ok (Frame.ext ⟨1, 5, true⟩ [] []).values ∧
      receiveRocket .keepalive (prependFrameLength ((Frame.keepAlive ⟨7, true⟩ []).serialize false))
        ≠ .ok (Frame.keepAlive ⟨7, true⟩ []).values ∧
      receiveRocket .requestN
        (prependFrameLength ((Frame.requestN ⟨1, 0x80000000⟩).serialize false)) ≠
        .ok (Frame.requestN ⟨1, 0x80000000⟩).values := by
  have read (f : Frame) (empty : f.metadata = [] ∧ f.data = []) :
      receiveRocket f.type (prependFrameLength (f.serialize false)) =
        .ok { f.values with number := f.rocketNumber } := by
    have fits : f.Fits := by
      constructor <;> simp [empty, kMaxFragmentedPayloadSize]
    rw [prependFrameLength_eq, Frame.serialize_eq, Frame.receiveRocket_body fits]
  refine ⟨?_, ?_, ?_⟩
  · intro same
    cases same.symm.trans (read (.ext ⟨1, 5, true⟩ [] []) ⟨rfl, rfl⟩)
  · intro same
    cases same.symm.trans (read (.keepAlive ⟨7, true⟩ []) ⟨rfl, rfl⟩)
  · intro same
    cases same.symm.trans (read (.requestN ⟨1, 0x80000000⟩) ⟨rfl, rfl⟩)

end FbThrift.FastThrift
