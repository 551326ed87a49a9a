import FbThrift.FastThrift.Frame
import FbThrift.Rocket.Fragment

/-!
# Writing frames

One header type for each frame that fast thrift writes, and `serialize` for each of them: a
header with the fields of the type, in front of the metadata and the data.  The length of the
frame is put in front by a handler further down the pipeline.
-/

namespace FbThrift.FastThrift

open Decoder
open Rocket (Flags writeStreamId writeFrameOrMetadataSize encodeFrame frameBody Payload)

/-! ## The core serialization function -/

def kFlagsBits : Nat := 10

def kFlagsMask : Nat := 2 ^ kFlagsBits - 1

/-- `flags |= bit` under a condition. -/
def orIf (on : Bool) (bit : Flags.Bit) (flags : Flags) : Flags :=
  if on then ⟨flags.bits ||| 2 ^ bit.position⟩ else flags

/-- The two bytes of the type and the flags. -/
def writeTypeAndFlags (type : FrameType) (flags : Flags) : Bytes :=
  writeBE 2 (type.code <<< kFlagsBits ||| (flags.bits &&& kFlagsMask))

/-- Three bytes of the length of the metadata. -/
def writeMetadataLengthBE (value : Nat) : Bytes :=
  [UInt8.ofNat (value >>> 16), UInt8.ofNat (value >>> 8), UInt8.ofNat value]

/-- The header in the headroom of the metadata buffer, and the data behind it. -/
def serializeFrameIntoHeadroom (type : FrameType) (streamId : UInt32) (flags : Flags)
    (extraHeader metadata data : Bytes) : Bytes :=
  let header := writeStreamId streamId ++ (writeTypeAndFlags type flags ++
    (extraHeader ++ writeMetadataLengthBE metadata.length))
  (header ++ metadata) ++ data

/-- The buffer of the metadata is `roomy` when it is a single one that is not shared and has
the headroom for the header.  An absent buffer counts as an empty one. -/
def serializeFrame (roomy : Bool) (type : FrameType) (streamId : UInt32) (flags : Flags)
    (extraHeader metadata data : Bytes) : Bytes :=
  let hasMetadata := !metadata.isEmpty
  let flags := orIf hasMetadata .metadata flags
  if hasMetadata && roomy then
    serializeFrameIntoHeadroom type streamId flags extraHeader metadata data
  else
    writeStreamId streamId ++ (writeTypeAndFlags type flags ++ (extraHeader ++
      ((if hasMetadata then writeMetadataLengthBE metadata.length else []) ++ (metadata ++ data))))

/-- What `FrameLengthEncoderHandler` puts in front of a frame. -/
def writeFrameLength (length : Nat) : Bytes :=
  [UInt8.ofNat (length >>> 16 &&& 0xFF), UInt8.ofNat (length >>> 8 &&& 0xFF),
    UInt8.ofNat (length &&& 0xFF)]

def prependFrameLength (frame : Bytes) : Bytes := writeFrameLength frame.length ++ frame

/-! ## The frames -/

structure RequestResponseHeader where
  streamId : UInt32
  follows : Bool
  deriving DecidableEq, Repr

structure RequestFnfHeader where
  streamId : UInt32
  follows : Bool
  deriving DecidableEq, Repr

structure RequestStreamHeader where
  streamId : UInt32
  initialRequestN : UInt32
  follows : Bool
  deriving DecidableEq, Repr

structure RequestChannelHeader where
  streamId : UInt32
  initialRequestN : UInt32
  follows : Bool
  complete : Bool
  deriving DecidableEq, Repr

structure RequestNHeader where
  streamId : UInt32
  requestN : UInt32
  deriving DecidableEq, Repr

structure CancelHeader where
  streamId : UInt32
  deriving DecidableEq, Repr

structure PayloadHeader where
  streamId : UInt32
  follows : Bool
  complete : Bool
  next : Bool
  deriving DecidableEq, Repr

structure KeepAliveHeader where
  lastReceivedPosition : UInt64
  respond : Bool
  deriving DecidableEq, Repr

structure ExtHeader where
  streamId : UInt32
  extendedType : UInt32
  ignore : Bool
  deriving DecidableEq, Repr

def RequestResponseHeader.serialize (roomy : Bool) (header : RequestResponseHeader)
    (metadata data : Bytes) : Bytes :=
  serializeFrame roomy .requestResponse header.streamId (orIf header.follows .follows ⟨0⟩) []
    metadata data

def RequestFnfHeader.serialize (roomy : Bool) (header : RequestFnfHeader)
    (metadata data : Bytes) : Bytes :=
  serializeFrame roomy .requestFnf header.streamId (orIf header.follows .follows ⟨0⟩) []
    metadata data

def RequestStreamHeader.serialize (roomy : Bool) (header : RequestStreamHeader)
    (metadata data : Bytes) : Bytes :=
  serializeFrame roomy .requestStream header.streamId (orIf header.follows .follows ⟨0⟩)
    (writeBE 4 header.initialRequestN.toNat) metadata data

def RequestChannelHeader.serialize (roomy : Bool) (header : RequestChannelHeader)
    (metadata data : Bytes) : Bytes :=
  serializeFrame roomy .requestChannel header.streamId
    (orIf header.complete .complete (orIf header.follows .follows ⟨0⟩))
    (writeBE 4 header.initialRequestN.toNat) metadata data

def RequestNHeader.serialize (header : RequestNHeader) : Bytes :=
  serializeFrame false .requestN header.streamId ⟨0⟩ (writeBE 4 header.requestN.toNat) [] []

def CancelHeader.serialize (header : CancelHeader) : Bytes :=
  serializeFrame false .cancel header.streamId ⟨0⟩ [] [] []

def PayloadHeader.serialize (roomy : Bool) (header : PayloadHeader)
    (metadata data : Bytes) : Bytes :=
  serializeFrame roomy .payload header.streamId
    (orIf header.next .next (orIf header.complete .complete (orIf header.follows .follows ⟨0⟩)))
    [] metadata data

/-- `kRespondBit` is the bit of the follows flag. -/
def KeepAliveHeader.serialize (header : KeepAliveHeader) (data : Bytes) : Bytes :=
  serializeFrame false .keepalive 0 (orIf header.respond .follows ⟨0⟩)
    (writeBE 8 header.lastReceivedPosition.toNat) [] data

def ExtHeader.serialize (roomy : Bool) (header : ExtHeader) (metadata data : Bytes) : Bytes :=
  serializeFrame roomy .ext header.streamId (orIf header.ignore .ignore ⟨0⟩)
    (writeBE 4 header.extendedType.toNat) metadata data

/-! ## The bytes are those of Rocket -/

@[simp] theorem has_orIf (on : Bool) (bit other : Flags.Bit) (flags : Flags) :
    (orIf on bit flags).has other = ((on && decide (bit = other)) || flags.has other) := by
  cases on with
  | false => simp [orIf]
  | true =>
    have set := Flags.has_set flags bit other true
    rw [Flags.set, if_pos rfl] at set
    rw [orIf, if_pos rfl, set]
    by_cases same : bit = other <;> simp [same]

theorem valid_orIf {flags : Flags} (valid : flags.Valid) (on : Bool) (bit : Flags.Bit) :
    (orIf on bit flags).Valid := by
  cases on with
  | false => exact valid
  | true => exact valid.set bit true

/-- The type of fast thrift with the code of a type of Rocket. -/
def FrameType.ofRocket : Rocket.FrameType → FrameType
  | .reserved => .reserved
  | .setup => .setup
  | .keepalive => .keepalive
  | .requestResponse => .requestResponse
  | .requestFnf => .requestFnf
  | .requestStream => .requestStream
  | .requestChannel => .requestChannel
  | .requestN => .requestN
  | .cancel => .cancel
  | .payload => .payload
  | .error => .error
  | .metadataPush => .metadataPush
  | .ext => .ext

theorem FrameType.code_ofRocket (type : Rocket.FrameType) : (ofRocket type).code = type.code := by
  cases type <;> rfl

/-- The mask leaves the flags as they are. -/
theorem writeTypeAndFlags_eq {flags : Flags} (valid : flags.Valid) (type : Rocket.FrameType) :
    writeTypeAndFlags (.ofRocket type) flags = Rocket.writeFrameTypeAndFlags type flags := by
  have masked : flags.bits &&& kFlagsMask = flags.bits := by
    rw [kFlagsMask, Nat.and_two_pow_sub_one_eq_mod]
    exact Nat.mod_eq_of_lt valid.lt
  rw [writeTypeAndFlags, masked, FrameType.code_ofRocket]
  rfl

theorem writeMetadataLengthBE_eq (value : Nat) :
    writeMetadataLengthBE value = writeFrameOrMetadataSize value := by
  simp [writeMetadataLengthBE, writeFrameOrMetadataSize, writeBE, Nat.shiftRight_eq_div_pow]

theorem prependFrameLength_eq (frame : Bytes) : prependFrameLength frame = encodeFrame frame := by
  have masked (n : Nat) : UInt8.ofNat (n &&& 0xFF) = UInt8.ofNat n := by
    rw [← UInt8.toNat_inj, UInt8.toNat_ofNat', UInt8.toNat_ofNat',
      Nat.and_two_pow_sub_one_eq_mod n 8]
    omega
  simp only [prependFrameLength, encodeFrame, writeFrameLength, masked, writeFrameOrMetadataSize,
    writeBE, Nat.shiftRight_eq_div_pow, Nat.pow_zero, Nat.div_one]
  rfl

theorem serializeFrame_eq {flags : Flags} (valid : flags.Valid) (roomy : Bool)
    (type : Rocket.FrameType) (streamId : UInt32) (extraHeader metadata data : Bytes) :
    serializeFrame roomy (.ofRocket type) streamId flags extraHeader metadata data =
      frameBody streamId type (orIf (!metadata.isEmpty) .metadata flags) extraHeader
        (.makeFromMetadataAndData metadata data) := by
  have header := writeTypeAndFlags_eq (valid_orIf valid (!metadata.isEmpty) .metadata) type
  have announced : (Payload.makeFromMetadataAndData metadata data).hasNonemptyMetadata =
      !metadata.isEmpty := by
    cases metadata <;> rfl
  rw [frameBody, Rocket.writePayload, announced]
  simp only [serializeFrame, serializeFrameIntoHeadroom, header, writeMetadataLengthBE_eq]
  cases metadata with
  | nil => rfl
  | cons first metadata =>
    cases roomy <;> simp [Payload.makeFromMetadataAndData]

end FbThrift.FastThrift
