import FbThrift.FastThrift.Interoperation

/-!
# A frame is parsed as it was serialized

The metadata and the data of a frame come in chains of buffers.  The header of the frame is
written into the headroom of the metadata where that may be overwritten and is long enough, and
into a buffer of its own where not.  The bytes are the same, and the parser finds in them what the
serializer was given, unless the metadata is too long for the two bytes that keep its length.
-/

namespace FbThrift.FastThrift

open Decoder
open Rocket (Flags Payload frameBody writeStreamId length_frameBody)

/-! ## Chains of buffers -/

/-- One buffer: what lies in front of its data, its data, and whether its memory is shared. -/
structure IOBuf where
  headroom : Bytes
  bytes : Bytes
  shared : Bool
  deriving DecidableEq, Repr

/-- The buffers of a chain; `nullptr` has none. -/
abbrev Chain := List IOBuf

def Chain.coalesced (chain : Chain) : Bytes := chain.flatMap IOBuf.bytes

def Chain.computeChainDataLength (chain : Chain) : Nat :=
  (chain.map fun buffer => buffer.bytes.length).sum

namespace IOBuf

/-- Writes bytes into the headroom, so far in front of the data. -/
def writeInFront (buffer : IOBuf) (distance : Nat) (bytes : Bytes) : IOBuf :=
  let start := buffer.headroom.length - distance
  { buffer with
    headroom := buffer.headroom.take start ++ (bytes ++
      buffer.headroom.drop (start + bytes.length)) }

/-- Moves the start of the data into the headroom. -/
def prepend (buffer : IOBuf) (amount : Nat) : IOBuf :=
  let start := buffer.headroom.length - amount
  { buffer with
    headroom := buffer.headroom.take start
    bytes := buffer.headroom.drop start ++ buffer.bytes }

end IOBuf

/-! ## The core serialization function on chains -/

def kMetadataLengthSize : Nat := 3

/-- The data goes behind the metadata if there is any. -/
def appendData (chain data : Chain) : Chain :=
  if data.computeChainDataLength > 0 then chain ++ data else chain

/-- The fields of the header one behind the other. -/
def headerFields (type : FrameType) (streamId : UInt32) (flags : Flags) (extraHeader : Bytes) :
    Bytes :=
  writeStreamId streamId ++ (writeTypeAndFlags type flags ++ extraHeader)

/-- The header in the headroom of a single buffer, and the data behind it. -/
def serializeChainIntoHeadroom (type : FrameType) (streamId : UInt32) (flags : Flags)
    (extraHeader : Bytes) (headerSize metadataLen : Nat) (metadata : IOBuf) (data : Chain) :
    Chain :=
  let header := headerFields type streamId flags extraHeader ++ writeMetadataLengthBE metadataLen
  appendData [(metadata.writeInFront headerSize header).prepend headerSize] data

/-- The header in a buffer of its own, in front of the metadata and the data. -/
def serializeChainIntoNewBuffer (type : FrameType) (streamId : UInt32) (flags : Flags)
    (extraHeader : Bytes) (hasMetadata : Bool) (metadata data : Chain) : Chain :=
  let header := headerFields type streamId flags extraHeader ++
    if hasMetadata then writeMetadataLengthBE metadata.computeChainDataLength else []
  appendData (⟨[], header, false⟩ :: if hasMetadata then metadata else []) data

def serializeChain (type : FrameType) (streamId : UInt32) (flags : Flags) (extraHeader : Bytes)
    (metadata data : Chain) : Chain :=
  let hasMetadata := decide (metadata.computeChainDataLength > 0)
  let flags := orIf hasMetadata .metadata flags
  let headerSize := kBaseHeaderSize + extraHeader.length +
    if hasMetadata then kMetadataLengthSize else 0
  match metadata with
  | [single] =>
    if hasMetadata && !single.shared && decide (single.headroom.length ≥ headerSize) then
      serializeChainIntoHeadroom type streamId flags extraHeader headerSize single.bytes.length
        single data
    else serializeChainIntoNewBuffer type streamId flags extraHeader hasMetadata metadata data
  | _ => serializeChainIntoNewBuffer type streamId flags extraHeader hasMetadata metadata data

/-! ## The frames -/

structure ErrorHeader where
  streamId : UInt32
  errorCode : UInt32
  deriving DecidableEq, Repr

/-- The headers of the frames in which the metadata has a length field or is absent. -/
inductive FrameHeader where
  | requestResponse (header : RequestResponseHeader)
  | requestFnf (header : RequestFnfHeader)
  | requestStream (header : RequestStreamHeader)
  | requestChannel (header : RequestChannelHeader)
  | requestN (header : RequestNHeader)
  | cancel (header : CancelHeader)
  | payload (header : PayloadHeader)
  | error (header : ErrorHeader)
  | keepAlive (header : KeepAliveHeader)
  | ext (header : ExtHeader)
  deriving DecidableEq, Repr

namespace FrameHeader

/-- The overloads of `serialize`. -/
def serialize (metadata data : Chain) : FrameHeader → Chain
  | requestResponse header =>
    serializeChain .requestResponse header.streamId (orIf header.follows .follows ⟨0⟩) []
      metadata data
  | requestFnf header =>
    serializeChain .requestFnf header.streamId (orIf header.follows .follows ⟨0⟩) [] metadata data
  | requestStream header =>
    serializeChain .requestStream header.streamId (orIf header.follows .follows ⟨0⟩)
      (writeBE 4 header.initialRequestN.toNat) metadata data
  | requestChannel header =>
    serializeChain .requestChannel header.streamId
      (orIf header.complete .complete (orIf header.follows .follows ⟨0⟩))
      (writeBE 4 header.initialRequestN.toNat) metadata data
  | requestN header =>
    serializeChain .requestN header.streamId ⟨0⟩ (writeBE 4 header.requestN.toNat) [] []
  | cancel header => serializeChain .cancel header.streamId ⟨0⟩ [] [] []
  | payload header =>
    serializeChain .payload header.streamId
      (orIf header.next .next (orIf header.complete .complete (orIf header.follows .follows ⟨0⟩)))
      [] metadata data
  | error header =>
    serializeChain .error header.streamId ⟨0⟩ (writeBE 4 header.errorCode.toNat) metadata data
  | keepAlive header =>
    serializeChain .keepalive 0 (orIf header.respond .follows ⟨0⟩)
      (writeBE 8 header.lastReceivedPosition.toNat) [] data
  | ext header =>
    serializeChain .ext header.streamId (orIf header.ignore .ignore ⟨0⟩)
      (writeBE 4 header.extendedType.toNat) metadata data

/-! ## What a header says -/

def type : FrameHeader → Rocket.FrameType
  | requestResponse _ => .requestResponse
  | requestFnf _ => .requestFnf
  | requestStream _ => .requestStream
  | requestChannel _ => .requestChannel
  | requestN _ => .requestN
  | cancel _ => .cancel
  | payload _ => .payload
  | error _ => .error
  | keepAlive _ => .keepalive
  | ext _ => .ext

/-- KEEPALIVE frames are on the stream of the connection. -/
def streamId : FrameHeader → UInt32
  | requestResponse header => header.streamId
  | requestFnf header => header.streamId
  | requestStream header => header.streamId
  | requestChannel header => header.streamId
  | requestN header => header.streamId
  | cancel header => header.streamId
  | payload header => header.streamId
  | error header => header.streamId
  | keepAlive _ => 0
  | ext header => header.streamId

/-- The flags that `serialize` computes from the header. -/
def flags : FrameHeader → Flags
  | requestResponse header => orIf header.follows .follows ⟨0⟩
  | requestFnf header => orIf header.follows .follows ⟨0⟩
  | requestStream header => orIf header.follows .follows ⟨0⟩
  | requestChannel header => orIf header.complete .complete (orIf header.follows .follows ⟨0⟩)
  | requestN _ => ⟨0⟩
  | cancel _ => ⟨0⟩
  | payload header =>
    orIf header.next .next (orIf header.complete .complete (orIf header.follows .follows ⟨0⟩))
  | error _ => ⟨0⟩
  | keepAlive header => orIf header.respond .follows ⟨0⟩
  | ext header => orIf header.ignore .ignore ⟨0⟩

/-- The extra header of the type. -/
def extra : FrameHeader → Bytes
  | requestStream header => writeBE 4 header.initialRequestN.toNat
  | requestChannel header => writeBE 4 header.initialRequestN.toNat
  | requestN header => writeBE 4 header.requestN.toNat
  | error header => writeBE 4 header.errorCode.toNat
  | keepAlive header => writeBE 8 header.lastReceivedPosition.toNat
  | ext header => writeBE 4 header.extendedType.toNat
  | _ => []

/-- The metadata that is serialized: the overloads of three types take none. -/
def metadataOf (metadata : Chain) : FrameHeader → Chain
  | requestN _ => []
  | cancel _ => []
  | keepAlive _ => []
  | _ => metadata

/-- The data that is serialized: the overloads of two types take none. -/
def dataOf (data : Chain) : FrameHeader → Chain
  | requestN _ => []
  | cancel _ => []
  | _ => data

theorem serialize_eq (metadata data : Chain) (header : FrameHeader) :
    header.serialize metadata data = serializeChain (.ofRocket header.type) header.streamId
      header.flags header.extra (header.metadataOf metadata) (header.dataOf data) := by
  cases header <;> rfl

theorem valid_flags (header : FrameHeader) : header.flags.Valid := by
  have none := Flags.Valid.none
  cases header with
  | requestN header => exact none
  | cancel header => exact none
  | error header => exact none
  | requestChannel header => exact valid_orIf (valid_orIf none _ _) _ _
  | payload header => exact valid_orIf (valid_orIf (valid_orIf none _ _) _ _) _ _
  | _ => exact valid_orIf none _ _

theorem headerSize_eq (header : FrameHeader) :
    (FrameType.ofRocket header.type).headerSize = kBaseHeaderSize + header.extra.length := by
  cases header <;> simp [type, extra, FrameType.ofRocket, FrameType.headerSize]

theorem has_metadata (header : FrameHeader) : header.flags.has .metadata = false := by
  cases header <;> simp [flags]

end FrameHeader

/-! ## The bytes do not depend on the chains -/

theorem length_coalesced (chain : Chain) :
    chain.coalesced.length = chain.computeChainDataLength := by
  rw [Chain.coalesced, List.length_flatMap]
  rfl

theorem coalesced_append (chain other : Chain) :
    Chain.coalesced (chain ++ other) = chain.coalesced ++ other.coalesced :=
  List.flatMap_append

theorem coalesced_appendData (chain data : Chain) :
    (appendData chain data).coalesced = chain.coalesced ++ data.coalesced := by
  unfold appendData
  split
  · exact coalesced_append chain data
  next none =>
    rw [← length_coalesced, gt_iff_lt, Nat.pos_iff_ne_zero, not_not,
      List.length_eq_zero_iff] at none
    rw [none, List.append_nil]

theorem bytes_prepend_writeInFront {buffer : IOBuf} {bytes : Bytes}
    (room : bytes.length ≤ buffer.headroom.length) :
    ((buffer.writeInFront bytes.length bytes).prepend bytes.length).bytes =
      bytes ++ buffer.bytes := by
  have whole : buffer.headroom.length - bytes.length + bytes.length = buffer.headroom.length :=
    Nat.sub_add_cancel room
  have start : (buffer.headroom.take (buffer.headroom.length - bytes.length)).length =
      buffer.headroom.length - bytes.length :=
    List.length_take_of_le (Nat.sub_le _ _)
  simp only [IOBuf.prepend, IOBuf.writeInFront, whole, List.drop_length, List.append_nil,
    List.length_append, start]
  rw [List.drop_left' start]

theorem isEmpty_coalesced (chain : Chain) :
    (!chain.coalesced.isEmpty) = decide (chain.computeChainDataLength > 0) := by
  rw [← length_coalesced]
  cases chain.coalesced <;> simp

section

variable {type : FrameType} {streamId : UInt32} {flags : Flags} {extraHeader : Bytes}

theorem length_headerFields :
    (headerFields type streamId flags extraHeader).length = kBaseHeaderSize + extraHeader.length := by
  simp only [headerFields, List.length_append, writeStreamId, writeTypeAndFlags, length_writeBE,
    kBaseHeaderSize]
  omega

theorem coalesced_intoHeadroom {metadata : IOBuf} (nonempty : metadata.bytes ≠ [])
    (room : kBaseHeaderSize + extraHeader.length + kMetadataLengthSize ≤ metadata.headroom.length)
    (data : Chain) :
    (serializeChainIntoHeadroom type streamId (orIf true .metadata flags) extraHeader
      (kBaseHeaderSize + extraHeader.length + kMetadataLengthSize) metadata.bytes.length metadata
      data).coalesced =
      serializeFrame true type streamId flags extraHeader metadata.bytes data.coalesced := by
  have size : (headerFields type streamId (orIf true .metadata flags) extraHeader ++
      writeMetadataLengthBE metadata.bytes.length).length =
      kBaseHeaderSize + extraHeader.length + kMetadataLengthSize := by
    rw [List.length_append, length_headerFields]
    rfl
  have present : (!metadata.bytes.isEmpty) = true := by simpa using nonempty
  rw [serializeChainIntoHeadroom, coalesced_appendData, serializeFrame, present]
  rw [← size] at room ⊢
  have whole : ∀ buffer : IOBuf, Chain.coalesced [buffer] = buffer.bytes := fun buffer =>
    List.append_nil _
  rw [whole, bytes_prepend_writeInFront room]
  simp [serializeFrameIntoHeadroom, headerFields]

theorem coalesced_intoNewBuffer (metadata data : Chain) : (serializeChainIntoNewBuffer type streamId
      (orIf (!metadata.coalesced.isEmpty) .metadata flags) extraHeader
      (!metadata.coalesced.isEmpty) metadata data).coalesced =
      serializeFrame false type streamId flags extraHeader metadata.coalesced data.coalesced := by
  rw [serializeChainIntoNewBuffer, coalesced_appendData, serializeFrame, ← length_coalesced]
  cases empty : metadata.coalesced.isEmpty with
  | true =>
    have nothing : metadata.coalesced = [] := List.isEmpty_iff.mp empty
    rw [nothing]
    simp [Chain.coalesced, headerFields]
  | false =>
    simp [Chain.coalesced, headerFields]

theorem coalesced_serializeChain (metadata data : Chain) :
    ∃ roomy, (serializeChain type streamId flags extraHeader metadata data).coalesced =
      serializeFrame roomy type streamId flags extraHeader metadata.coalesced data.coalesced := by
  have slow := @coalesced_intoNewBuffer type streamId flags extraHeader metadata data
  rw [isEmpty_coalesced] at slow
  rcases metadata with _ | ⟨single, _ | ⟨second, rest⟩⟩
  · exact ⟨false, slow⟩
  · unfold serializeChain
    dsimp only
    have whole : Chain.coalesced [single] = single.bytes := List.append_nil _
    by_cases present : Chain.computeChainDataLength [single] > 0
    · rw [decide_eq_true present] at slow ⊢
      rw [if_pos rfl]
      by_cases fast : (true && !single.shared && decide (single.headroom.length ≥
          kBaseHeaderSize + extraHeader.length + kMetadataLengthSize)) = true
      · rw [if_pos fast]
        have room := of_decide_eq_true (Bool.and_eq_true_iff.mp fast).2
        have nonempty : single.bytes ≠ [] := by
          rintro empty
          rw [← length_coalesced, whole, empty] at present
          exact absurd present (Nat.lt_irrefl 0)
        rw [whole]
        exact ⟨true, coalesced_intoHeadroom nonempty room data⟩
      · rw [if_neg fast]
        exact ⟨false, slow⟩
    · rw [decide_eq_false present] at slow ⊢
      exact ⟨false, slow⟩
  · exact ⟨false, slow⟩

end

/-! ## The round trip -/

namespace FrameHeader

/-- The flags of a frame: those of its header, and that there is metadata. -/
def flagsWith (metadata : Bytes) (header : FrameHeader) : Flags :=
  orIf (!metadata.isEmpty) .metadata header.flags

/-- The bytes of a frame do not depend on the chains, and the parser finds in them the stream, the
type and the flags of the header, the metadata and the data. -/
def RoundTrips (header : FrameHeader) (metadata data : Chain) : Prop :=
  (∀ metadata' data' : Chain, metadata'.coalesced = metadata.coalesced →
    data'.coalesced = data.coalesced →
    (header.serialize metadata' data').coalesced = (header.serialize metadata data).coalesced) ∧
  ∃ frame, parseFrame (header.serialize metadata data).coalesced = .ok frame ∧
    frame.streamId = header.streamId ∧ frame.frameType = .ofRocket header.type ∧
    frame.metadata.flags = header.flagsWith (header.metadataOf metadata).coalesced ∧
    frame.metadataBytes = (header.metadataOf metadata).coalesced ∧
    frame.data = (header.dataOf data).coalesced

/-- The bytes of a frame, which are those of Rocket. -/
theorem coalesced_serialize (header : FrameHeader) (metadata data : Chain) :
    (header.serialize metadata data).coalesced = frameBody header.streamId header.type
        (header.flagsWith (header.metadataOf metadata).coalesced) header.extra
        (.makeFromMetadataAndData (header.metadataOf metadata).coalesced
          (header.dataOf data).coalesced) := by
  obtain ⟨roomy, written⟩ := @coalesced_serializeChain (.ofRocket header.type) header.streamId
    header.flags header.extra (header.metadataOf metadata) (header.dataOf data)
  rw [serialize_eq, written, serializeFrame_eq header.valid_flags]
  rfl

theorem coalesced_metadataOf {metadata metadata' : Chain}
    (same : metadata'.coalesced = metadata.coalesced) (header : FrameHeader) :
    (header.metadataOf metadata').coalesced = (header.metadataOf metadata).coalesced := by
  cases header <;> first | exact same | rfl

theorem coalesced_dataOf {data data' : Chain} (same : data'.coalesced = data.coalesced)
    (header : FrameHeader) :
    (header.dataOf data').coalesced = (header.dataOf data).coalesced := by
  cases header <;> first | exact same | rfl

/-- The parser keeps the low 16 bits of the length of the metadata. -/
theorem parse_serialize {header : FrameHeader} {metadata data : Chain}
    (fits : (header.serialize metadata data).coalesced.length < 2 ^ 24) :
    ∃ frame, parseFrame (header.serialize metadata data).coalesced = .ok frame ∧
      frame.streamId = header.streamId ∧ frame.frameType = .ofRocket header.type ∧
      frame.metadata.flags = header.flagsWith (header.metadataOf metadata).coalesced ∧
      frame.metadata.metadataSize = UInt16.ofNat (header.metadataOf metadata).coalesced.length ∧
      frame.payload = (header.metadataOf metadata).coalesced ++ (header.dataOf data).coalesced := by
  have announced : (header.flagsWith (header.metadataOf metadata).coalesced).metadata =
      (Payload.makeFromMetadataAndData (header.metadataOf metadata).coalesced
        (header.dataOf data).coalesced).hasNonemptyMetadata := by
    rw [Flags.metadata_eq_has, flagsWith, has_orIf, header.has_metadata]
    cases (header.metadataOf metadata).coalesced <;> rfl
  rw [coalesced_serialize] at fits ⊢
  have short : (header.metadataOf metadata).coalesced.length < 2 ^ 24 := by
    rw [length_frameBody, Payload.serializedSize, Payload.metadataAndDataSize,
      Payload.makeFromMetadataAndData, List.length_append] at fits
    omega
  obtain ⟨frame, parsed, type, streamId, flags, -, size, payload⟩ :=
    parseFrame_frameBody (valid_orIf header.valid_flags _ _) header.headerSize_eq announced short
      (Nat.lt_trans fits (by decide))
  exact ⟨frame, parsed, streamId, type, flags, size, payload⟩

theorem RoundTrips.metadata_lt {header : FrameHeader} {metadata data : Chain}
    (roundTrips : RoundTrips header metadata data) :
    (header.metadataOf metadata).coalesced.length < 2 ^ 16 := by
  obtain ⟨-, frame, parsed, -, -, -, metadataBytes, -⟩ := roundTrips
  have length := congrArg List.length metadataBytes
  rw [ParsedFrame.metadataBytes, List.length_take] at length
  have bound := frame.metadata.metadataSize.toNat_lt
  omega

/-- A frame goes round if and only if the length of its metadata fits two bytes. -/
theorem roundTrips_iff (header : FrameHeader) (metadata data : Chain)
    (fits : (header.serialize metadata data).coalesced.length < 2 ^ 24) :
    RoundTrips header metadata data ↔ (header.metadataOf metadata).coalesced.length < 2 ^ 16 := by
  refine ⟨RoundTrips.metadata_lt, fun short => ?_⟩
  obtain ⟨frame, parsed, streamId, type, flags, size, payload⟩ := parse_serialize fits
  refine ⟨fun metadata' data' sameMetadata sameData => ?_, frame, parsed, streamId, type, flags,
    ?_, ?_⟩
  · rw [coalesced_serialize, coalesced_serialize, coalesced_metadataOf sameMetadata,
      coalesced_dataOf sameData]
  · rw [ParsedFrame.metadataBytes, payload, size, UInt16.toNat_ofNat_of_lt' short]
    exact List.take_left
  · rw [ParsedFrame.data, payload, size, UInt16.toNat_ofNat_of_lt' short]
    exact List.drop_left

theorem roundTrips_iff_roomy :
    RoundTrips (.payload ⟨1, false, true, true⟩) [⟨List.replicate 9 0, [1, 2], false⟩]
      [⟨[], [3], true⟩, ⟨[], [4], false⟩] ↔ 2 < 2 ^ 16 :=
  roundTrips_iff _ _ _ (by decide +kernel)

/-- Metadata of so many zeros in one buffer. -/
def zeros (n : Nat) : Chain := [⟨[], List.replicate n 0, false⟩]

theorem length_zeros (n : Nat) : (zeros n).coalesced.length = n := by
  rw [zeros, Chain.coalesced, List.flatMap_singleton]
  exact List.length_replicate

theorem length_serialize_zeros (n : Nat) :
    ((requestResponse ⟨1, false⟩).serialize (zeros n) []).coalesced.length ≤ n + 9 := by
  rw [coalesced_serialize, length_frameBody, Payload.serializedSize, Payload.metadataAndDataSize,
    Payload.makeFromMetadataAndData, List.length_append]
  change 6 + 0 + ((zeros n).coalesced.length + 0 + _) ≤ _
  rw [length_zeros]
  split
  · exact Nat.le_of_eq (by rw [Rocket.kBytesForFrameOrMetadataLength]; omega)
  · omega

/-- A frame that fits its length field does not go round. -/
theorem not_roundTrips_long :
    ((requestResponse ⟨1, false⟩).serialize (zeros (2 ^ 16)) []).coalesced.length < 2 ^ 24 ∧
      ¬ RoundTrips (requestResponse ⟨1, false⟩) (zeros (2 ^ 16)) [] := by
  refine ⟨(length_serialize_zeros _).trans_lt (by decide), fun roundTrips => ?_⟩
  have short : (zeros (2 ^ 16)).coalesced.length < 2 ^ 16 := roundTrips.metadata_lt
  rw [length_zeros] at short
  exact absurd short (Nat.lt_irrefl _)

end FrameHeader

end FbThrift.FastThrift
