import FbThrift.Rocket.Fragment

/-!
# Frames without fragments

REQUEST_N, CANCEL, KEEPALIVE and EXT frames are written into a single frame or not at all.
Each class has a constructor that reads a frame without its length field; the checks it makes
in debug builds are checks here.
-/

namespace FbThrift.Rocket

open Decoder

/-- `DCHECK`. -/
def dcheck (condition : Prop) [Decidable condition] : Decoder Unit :=
  if condition then pure () else throw "check failed"

/-- `Serializer::writeFrameTypeAndFlags` behind the length of the frame and the stream id. -/
def writeFrameHeader (frameSize : Nat) (streamId : UInt32) (frameType : FrameType)
    (flags : Flags) : Bytes :=
  writeFrameOrMetadataSize frameSize ++
    (writeStreamId streamId ++ writeFrameTypeAndFlags frameType flags)

/-! ## REQUEST_N -/

structure RequestNFrame where
  streamId : UInt32
  requestN : Int32
  deriving DecidableEq, Repr

namespace RequestNFrame

def frameHeaderSize : Nat := 10

def make (streamId : UInt32) (n : Int32) : Except String RequestNFrame :=
  if n ≤ 0 then .error "REQUEST_N value MUST be > 0" else .ok ⟨streamId, n⟩

def serialize (f : RequestNFrame) : Bytes :=
  writeFrameHeader frameHeaderSize f.streamId .requestN ⟨0⟩ ++ writeBE 4 f.requestN.toUInt32.toNat

def read : Decoder RequestNFrame := do
  let streamId ← readStreamId
  let (type, flags) ← readFrameTypeAndFlags
  dcheck (type = .requestN)
  dcheck (flags = ⟨0⟩)
  let requestN ← readInitialRequestN
  pure ⟨streamId, requestN⟩

end RequestNFrame

/-! ## CANCEL -/

structure CancelFrame where
  streamId : UInt32
  deriving DecidableEq, Repr

namespace CancelFrame

def frameHeaderSize : Nat := 6

def serialize (f : CancelFrame) : Bytes :=
  writeFrameHeader frameHeaderSize f.streamId .cancel ⟨0⟩

def read : Decoder CancelFrame := do
  let streamId ← readStreamId
  let (type, flags) ← readFrameTypeAndFlags
  dcheck (type = .cancel)
  dcheck (flags = ⟨0⟩)
  pure ⟨streamId⟩

end CancelFrame

/-! ## KEEPALIVE -/

structure KeepAliveFrame where
  streamId : UInt32
  flags : Flags
  data : Bytes
  deriving DecidableEq, Repr

namespace KeepAliveFrame

def frameHeaderSize : Nat := 14

def make (flags : Flags) (data : Bytes) : KeepAliveFrame := ⟨0, flags, data⟩

/-- The last received position is sent as zero. -/
def serialize (f : KeepAliveFrame) : Bytes :=
  writeFrameHeader (frameHeaderSize + f.data.length) 0 .keepalive f.flags ++ (writeBE 8 0 ++ f.data)

/-- The last received position is skipped, and all behind it is data. -/
def read : Decoder KeepAliveFrame := do
  let frame ← get
  dcheck (frameHeaderSize ≤ frame.length)
  let zero ← readStreamId
  dcheck (zero = 0)
  let (type, flags) ← readFrameTypeAndFlags
  dcheck (type = .keepalive)
  let _ ← take 8
  let data ← get
  set ([] : Bytes)
  pure ⟨zero, flags, data⟩

end KeepAliveFrame

/-! ## EXT -/

/-- `ExtFrameType`: a word with one named value. -/
abbrev ExtFrameType := UInt32

def ExtFrameType.unknown : ExtFrameType := 0x00

/-- The word is read, but no type is known. -/
def readExtFrameType : Decoder ExtFrameType := do
  let _ ← readBE 4
  pure ExtFrameType.unknown

structure ExtFrame where
  streamId : UInt32
  flags : Flags
  extFrameType : ExtFrameType
  payload : Payload
  deriving DecidableEq, Repr

namespace ExtFrame

def frameHeaderSize : Nat := 10

def hasIgnore (f : ExtFrame) : Bool := f.flags.has .ignore

def writtenFlags (f : ExtFrame) : Flags :=
  (f.flags.set .metadata f.payload.hasNonemptyMetadata).set .ignore f.hasIgnore

def serialize (f : ExtFrame) : Except String Bytes :=
  if kMaxFragmentedPayloadSize ≤ f.payload.metadataAndDataSize then
    .error "EXT frame payload too large."
  else
    .ok (writeFrameHeader (frameHeaderSize + f.payload.serializedSize) f.streamId .ext
        f.writtenFlags ++
      (writeBE 4 f.extFrameType.toNat ++ writePayload f.payload))

def read : Decoder ExtFrame := do
  let streamId ← readStreamId
  let (type, flags) ← readFrameTypeAndFlags
  dcheck (type = .ext)
  let extFrameType ← readExtFrameType
  let payload ← readPayload flags.metadata
  pure ⟨streamId, flags, extFrameType, payload⟩

end ExtFrame

/-! ## Frames of all classes -/

/-- The constructors of the request classes, of which two check their number. -/
def RequestFrame.make (type : RequestType) (streamId : UInt32) (payload : Payload) :
    Except String RequestFrame :=
  match type with
  | .stream initialRequestN =>
    if initialRequestN ≤ 0 then
      .error "RequestStreamFrame's initialRequestN MUST be > 0"
    else .ok ⟨type, streamId, ⟨0⟩, payload⟩
  | .channel initialRequestN =>
    if initialRequestN ≤ 0 then
      .error "RequestChannelFrame's initialRequestN MUST be > 0"
    else .ok ⟨type, streamId, ⟨0⟩, payload⟩
  | type => .ok ⟨type, streamId, ⟨0⟩, payload⟩

def RequestFrame.setHasComplete (f : RequestFrame) (hasComplete : Bool) : RequestFrame :=
  { f with flags := f.flags.set .complete hasComplete }

/-- An object of one of the frame classes. -/
inductive AnyFrame where
  | request (f : RequestFrame)
  | payload (f : PayloadFrame)
  | requestN (f : RequestNFrame)
  | cancel (f : CancelFrame)
  | keepAlive (f : KeepAliveFrame)
  | ext (f : ExtFrame)
  deriving DecidableEq, Repr

namespace AnyFrame

/-- The frames on the wire; only those with fragments write more than one. -/
def serialize (roomy : Bool) : AnyFrame → Except String (List Bytes)
  | request f => .ok (f.serialize roomy)
  | payload f => .ok (f.serialize roomy)
  | requestN f => .ok [f.serialize]
  | cancel f => .ok [f.serialize]
  | keepAlive f => .ok [f.serialize]
  | ext f => (fun bytes => [bytes]) <$> f.serialize

/-- The constructor of the class that belongs to a frame type. -/
def read : FrameType → Decoder AnyFrame
  | .requestN => .requestN <$> RequestNFrame.read
  | .cancel => .cancel <$> CancelFrame.read
  | .keepalive => .keepAlive <$> KeepAliveFrame.read
  | .ext => .ext <$> ExtFrame.read
  | frameType => do
    match ← readFrame with
    | .request f =>
      dcheck (f.type.frameType = frameType)
      pure (.request f)
    | .payload f =>
      dcheck (frameType = .payload)
      pure (.payload f)
    | .other .. => throw "check failed"

end AnyFrame

/-! ## What is written and what is read -/

section

variable {streamId : UInt32} {flags : Flags} {extra : Bytes} {p : Payload}

theorem writeFrameHeader_eq {frameSize : Nat} (frameType : FrameType)
    (size : frameSize = 6 + extra.length + p.serializedSize) :
    writeFrameHeader frameSize streamId frameType flags ++ (extra ++ writePayload p) =
      encodeFrame (frameBody streamId frameType flags extra p) := by
  rw [writeFrameHeader, encodeFrame, length_frameBody, size, frameBody]
  simp only [List.append_assoc]

theorem dcheck_bind {α : Type} {condition : Prop} [Decidable condition] (holds : condition)
    (next : Unit → Decoder α) (cursor : Bytes) : (dcheck condition >>= next) cursor =
      next () cursor := by
  rw [dcheck, if_pos holds]
  rfl

/-- The fields that all frames have are in front of the others. -/
theorem readHeader_frameBody {α : Type} {frameType : FrameType} (used : frameType ≠ .reserved)
    (valid : flags.Valid) (next : UInt32 → FrameType × Flags → Decoder α) :
    (do
      let streamId ← readStreamId
      let typeAndFlags ← readFrameTypeAndFlags
      next streamId typeAndFlags) (frameBody streamId frameType flags extra p) =
      next streamId (frameType, flags) (extra ++ writePayload p) := by
  rw [frameBody, Run.bind_of_ok (decodes_readStreamId streamId _),
    Run.bind_of_ok (decodes_readFrameTypeAndFlags used valid _)]

/-- A request that needs no fragments, with no flags but those that are computed again. -/
theorem RequestFrame.serialize_single {f : RequestFrame} (small : f.payload.Small)
    (flags : f.flags.set .metadata f.payload.hasNonemptyMetadata = f.writtenFlags) (roomy : Bool) :
    f.serialize roomy = [encodeFrame (frameBody f.streamId f.type.frameType f.writtenFlags
      f.type.serializeInitialNIfPresent f.payload)] := by
  have written : f.serializeIntoSingleFrame = encodeFrame (frameBody f.streamId f.type.frameType
      f.writtenFlags f.type.serializeInitialNIfPresent f.payload) :=
    writeFrame_eq (frameHeaderSize_eq f.type)
  have single : ¬ kMaxFragmentedPayloadSize < f.payload.metadataAndDataSize :=
    Nat.not_lt.mpr small.length_le
  rw [serialize, if_neg single, ← written]
  split
  next headroom =>
    rw [Bool.and_eq_true] at headroom
    rw [serializeIntoHeadroom, writeHeadroom_eq headroom.2 small, flags]
    rfl
  next => rfl

theorem PayloadFrame.serialize_single {f : PayloadFrame} (small : f.payload.Small)
    (flags : f.flags.set .metadata f.payload.hasNonemptyMetadata = f.writtenFlags) (roomy : Bool) :
    f.serialize roomy =
      [encodeFrame (frameBody f.streamId .payload f.writtenFlags [] f.payload)] := by
  have written : f.serializeIntoSingleFrame =
      encodeFrame (frameBody f.streamId .payload f.writtenFlags [] f.payload) :=
    writeFrame_eq rfl
  have single : ¬ kMaxFragmentedPayloadSize < f.payload.metadataAndDataSize :=
    Nat.not_lt.mpr small.length_le
  rw [serialize, if_neg single, ← written]
  split
  next headroom =>
    rw [Bool.and_eq_true] at headroom
    rw [serializeIntoHeadroom, writeHeadroom_eq headroom.2 small, flags]
    rfl
  next => rfl

/-- Bytes without metadata. -/
def Payload.ofData (data : Bytes) : Payload := ⟨data, 0⟩

theorem RequestNFrame.serialize_eq (f : RequestNFrame) :
    f.serialize = encodeFrame (frameBody f.streamId .requestN ⟨0⟩
      (writeBE 4 f.requestN.toUInt32.toNat) (.ofData [])) := by
  have size : frameHeaderSize = 6 + (writeBE 4 f.requestN.toUInt32.toNat).length +
      (Payload.ofData []).serializedSize := by
    rw [length_writeBE]
    rfl
  rw [← writeFrameHeader_eq .requestN size, serialize]
  simp [writePayload, Payload.ofData, Payload.hasNonemptyMetadata]

theorem CancelFrame.serialize_eq (f : CancelFrame) :
    f.serialize = encodeFrame (frameBody f.streamId .cancel ⟨0⟩ [] (.ofData [])) := by
  have size : frameHeaderSize = 6 + ([] : Bytes).length + (Payload.ofData []).serializedSize := rfl
  rw [← writeFrameHeader_eq .cancel size, serialize]
  simp [writePayload, Payload.ofData, Payload.hasNonemptyMetadata]

theorem KeepAliveFrame.serialize_eq (f : KeepAliveFrame) : f.serialize =
      encodeFrame (frameBody 0 .keepalive f.flags (writeBE 8 0) (.ofData f.data)) := by
  have size : frameHeaderSize + f.data.length =
      6 + (writeBE 8 0).length + (Payload.ofData f.data).serializedSize := by
    simp [frameHeaderSize, Payload.ofData, Payload.serializedSize, Payload.hasNonemptyMetadata,
      Payload.metadataAndDataSize]
  rw [← writeFrameHeader_eq .keepalive size, serialize]
  simp [writePayload, Payload.ofData, Payload.hasNonemptyMetadata]

theorem ExtFrame.serialize_eq {f : ExtFrame}
    (small : f.payload.metadataAndDataSize < kMaxFragmentedPayloadSize) :
    f.serialize = .ok (encodeFrame (frameBody f.streamId .ext f.writtenFlags
      (writeBE 4 f.extFrameType.toNat) f.payload)) := by
  have size : frameHeaderSize + f.payload.serializedSize =
      6 + (writeBE 4 f.extFrameType.toNat).length + f.payload.serializedSize := by
    rw [length_writeBE]
    rfl
  rw [serialize, if_neg (Nat.not_le.mpr small), ← writeFrameHeader_eq .ext size]

theorem RequestNFrame.read_frameBody (streamId : UInt32) (n : Int32) :
    read (frameBody streamId .requestN ⟨0⟩ (writeBE 4 n.toUInt32.toNat) (.ofData [])) =
      .ok (⟨streamId, n⟩, []) := by
  rw [read, readHeader_frameBody (by simp) .none]
  simp only [dcheck_bind]
  rw [Run.bind_of_ok (decodes_readInitialRequestN n _)]
  rfl

theorem CancelFrame.read_frameBody (streamId : UInt32) :
    read (frameBody streamId .cancel ⟨0⟩ [] (.ofData [])) = .ok (⟨streamId⟩, []) := by
  rw [read, readHeader_frameBody (by simp) .none]
  rfl

theorem KeepAliveFrame.read_frameBody (valid : flags.Valid) (position : Nat) (data : Bytes) :
    read (frameBody 0 .keepalive flags (writeBE 8 position) (.ofData data)) =
      .ok (⟨0, flags, data⟩, []) := by
  have long : frameHeaderSize ≤
      (frameBody 0 .keepalive flags (writeBE 8 position) (.ofData data)).length := by
    rw [length_frameBody, length_writeBE, frameHeaderSize]
    omega
  have skipped := decodes_take (writeBE 8 position) (writePayload (.ofData data))
  rw [length_writeBE] at skipped
  rw [read, Run.get_bind, dcheck_bind long, frameBody,
    Run.bind_of_ok (decodes_readStreamId 0 _), dcheck_bind rfl,
    Run.bind_of_ok (decodes_readFrameTypeAndFlags (by simp) valid _)]
  simp only [dcheck_bind]
  rw [Run.bind_of_ok skipped]
  rfl

theorem ExtFrame.read_frameBody (valid : flags.Valid) (small : p.Small)
    (announced : flags.metadata = p.hasNonemptyMetadata) (streamId extendedType : UInt32) :
    read (frameBody streamId .ext flags (writeBE 4 extendedType.toNat) p) =
      .ok (⟨streamId, flags, .unknown, p⟩, []) := by
  have word := decodes_readBE (k := 4) (n := extendedType.toNat)
    (by simpa using extendedType.toNat_lt) (writePayload p)
  have unknown : readExtFrameType (writeBE 4 extendedType.toNat ++ writePayload p) =
      .ok (.unknown, writePayload p) := by
    rw [readExtFrameType, Run.bind_of_ok word]
    rfl
  rw [read, readHeader_frameBody (by simp) valid]
  simp only [dcheck_bind]
  rw [Run.bind_of_ok unknown, announced, Run.bind_of_ok (readPayload_write small)]
  rfl

end

end FbThrift.Rocket
