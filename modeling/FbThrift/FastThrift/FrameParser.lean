import FbThrift.FastThrift.Frame

/-!
# Parsing frames

A frame is parsed once: its metadata caches the fields of the header and where the payload
starts, and travels with the buffer.
-/

namespace FbThrift.FastThrift

open Decoder
open Rocket (Flags readStreamId readFrameTypeAndFlagBits readFrameOrMetadataSize)

/-- The descriptor of a frame is that of its type. -/
structure FrameMetadata where
  frameType : FrameType
  streamId : UInt32
  flags : Flags
  metadataSize : UInt16
  payloadOffset : UInt32
  payloadSize : UInt32
  deriving DecidableEq, Repr

namespace FrameMetadata

def hasMetadata (metadata : FrameMetadata) : Bool := metadata.flags.has .metadata

def hasFollows (metadata : FrameMetadata) : Bool := metadata.flags.has .follows

/-- The payload without the metadata. -/
def dataSize (metadata : FrameMetadata) : UInt32 :=
  if metadata.metadataSize.toUInt32 < metadata.payloadSize then
    metadata.payloadSize - metadata.metadataSize.toUInt32
  else 0

end FrameMetadata

structure ParsedFrame where
  metadata : FrameMetadata
  buffer : Bytes
  deriving DecidableEq, Repr

namespace ParsedFrame

def frameType (frame : ParsedFrame) : FrameType := frame.metadata.frameType

def streamId (frame : ParsedFrame) : UInt32 := frame.metadata.streamId

def hasFollows (frame : ParsedFrame) : Bool := frame.metadata.hasFollows

/-- What `payloadCursor` has in front of it. -/
def payload (frame : ParsedFrame) : Bytes :=
  frame.buffer.drop frame.metadata.payloadOffset.toNat

/-- The bytes of the metadata in front of `metadataCursor`. -/
def metadataBytes (frame : ParsedFrame) : Bytes :=
  frame.payload.take frame.metadata.metadataSize.toNat

/-- What `dataCursor` has in front of it. -/
def data (frame : ParsedFrame) : Bytes :=
  frame.payload.drop frame.metadata.metadataSize.toNat

/-- The metadata accounts for all bytes of the buffer. -/
def Sized (frame : ParsedFrame) : Prop :=
  frame.metadata.payloadOffset.toNat + frame.metadata.payloadSize.toNat = frame.buffer.length

instance (frame : ParsedFrame) : Decidable frame.Sized :=
  inferInstanceAs (Decidable (_ = _))

theorem Sized.length_payload {frame : ParsedFrame} (sized : frame.Sized) :
    frame.payload.length = frame.metadata.payloadSize.toNat := by
  unfold Sized at sized
  rw [payload, List.length_drop]
  omega

theorem Sized.length_data {frame : ParsedFrame} (sized : frame.Sized) :
    frame.data.length = frame.metadata.dataSize.toNat := by
  have wide : frame.metadata.metadataSize.toUInt32.toNat = frame.metadata.metadataSize.toNat :=
    UInt16.toNat_toUInt32 _
  rw [data, List.length_drop, sized.length_payload, FrameMetadata.dataSize]
  split
  next less =>
    rw [UInt32.toNat_sub_of_le _ _ (UInt32.le_of_lt less), wide]
  next notLess =>
    rw [UInt32.lt_iff_toNat_lt, wide] at notLess
    rw [UInt32.toNat_zero]
    omega

theorem data_of_no_metadata {frame : ParsedFrame} (none : frame.metadata.metadataSize = 0) :
    frame.data = frame.payload := by
  rw [data, none]
  rfl

end ParsedFrame

/-! ## Parsing -/

/-- `cursor.skip` behind the fields that all frames have.  Frames without a descriptor have no
header, and then the number of bytes wraps around and the cursor throws. -/
def skipExtraHeaderBytes (frameType : FrameType) : Decoder Unit := do
  if frameType.headerSize < kBaseHeaderSize then throw "underflow"
  let _ ← take (frameType.headerSize - kBaseHeaderSize)

/-- The metadata length field of three bytes, kept in two. -/
def readMetadataSize (flags : Flags) : Decoder UInt16 :=
  if flags.has .metadata then
    fun cursor =>
      match readFrameOrMetadataSize cursor with
      | some size => .ok (UInt16.ofNat size, cursor.drop 3)
      | none => .error "underflow"
  else pure 0

def readFrameTypeAndFlags : Decoder (FrameType × Flags) := fun cursor =>
  match readFrameTypeAndFlagBits cursor with
  | some (code, bits) => .ok ((FrameType.ofCode code, ⟨bits⟩), cursor.drop 2)
  | none => .error "underflow"

def readHeader : Decoder (UInt32 × FrameType × Flags × UInt16) := do
  let streamId ← readStreamId
  let (frameType, flags) ← readFrameTypeAndFlags
  skipExtraHeaderBytes frameType
  let metadataSize ← readMetadataSize flags
  pure (streamId, frameType, flags, metadataSize)

def parseFrame (buffer : Bytes) : Except String ParsedFrame := do
  let ((streamId, frameType, flags, metadataSize), rest) ← readHeader buffer
  let payloadOffset := UInt32.ofNat (buffer.length - rest.length)
  let totalSize := UInt32.ofNat buffer.length
  pure
    { metadata :=
        { frameType := frameType
          streamId := streamId
          flags := flags
          metadataSize := metadataSize
          payloadOffset := payloadOffset
          payloadSize := totalSize - payloadOffset }
      buffer := buffer }

/-! ## Views -/

def kFrameSpecificOffset : Nat := 6

/-- The word of `k` bytes that `frameCursor` finds behind the fields that all frames have. -/
def frameSpecific (k : Nat) (frame : ParsedFrame) : Except String Nat := do
  let (value, _) ← (do
    let _ ← take kFrameSpecificOffset
    readBE k : Decoder Nat) frame.buffer
  pure value

/-- The views of REQUEST_STREAM and REQUEST_CHANNEL. -/
def RequestStreamView.initialRequestN (frame : ParsedFrame) : Except String Nat :=
  frameSpecific 4 frame

def RequestNView.requestN (frame : ParsedFrame) : Except String Nat := frameSpecific 4 frame

def KeepAliveView.lastReceivedPosition (frame : ParsedFrame) : Except String Nat :=
  frameSpecific 8 frame

def ExtView.extendedType (frame : ParsedFrame) : Except String Nat := frameSpecific 4 frame

end FbThrift.FastThrift
