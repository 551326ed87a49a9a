import FbThrift.Rocket.FrameLengthParser
import FbThrift.Rocket.Header

/-!
# AlignedParserStrategy

A state machine that reads one section of a frame at a time: the header, the length of the
metadata, the metadata and the data of a payload or a request-response, or all that follows
the header of another frame.  `getReadBuffer` offers what is left of the section.
-/

namespace FbThrift.Rocket

/-! ## The parser -/

/-- Subtraction of `size_t`, which wraps around below zero. -/
def sizeSub (a b : Nat) : Nat := if b ≤ a then a - b else 2 ^ 64 - (b - a)

/-- The length of the header without the length field. -/
abbrev kHeaderLength : Nat := kMinimumFrameHeaderLength - kBytesForFrameOrMetadataLength

@[simp] theorem kHeaderLength_eq : kHeaderLength = 6 := rfl

namespace AlignedParser

inductive State where
  | awaitingHeader
  | awaitingMetadataLength
  | awaitingMetadata
  | awaitingData
  | awaitingNonAligned
  deriving DecidableEq, Repr

end AlignedParser

/-- `frameType` is `none` for a code that is not of the enumeration. -/
structure AlignedParser where
  state : AlignedParser.State := .awaitingHeader
  remainingHeader : Nat := kMinimumFrameHeaderLength
  remainingMetadata : Nat := 0
  remainingData : Nat := 0
  frameLength : Nat := 0
  remainingUnaligned : Nat := 0
  frameType : Option FrameType := some .reserved
  flags : Flags := ⟨0⟩
  header : Bytes := []
  metadata : Option Bytes := none
  data : Option Bytes := none
  nonAlignedData : Bytes := []
  log : List Event := []

namespace AlignedParser

def getReadBuffer (p : AlignedParser) : Nat :=
  match p.state with
  | .awaitingHeader | .awaitingMetadataLength => p.remainingHeader
  | .awaitingMetadata => p.remainingMetadata
  | .awaitingData => p.remainingData
  | .awaitingNonAligned => p.remainingUnaligned

def resetToInitialState (p : AlignedParser) : AlignedParser :=
  { p with
    state := .awaitingHeader
    remainingHeader := kMinimumFrameHeaderLength
    remainingMetadata := 0
    remainingData := 0
    frameLength := 0
    remainingUnaligned := 0 }

/-- A `handleFrame` that throws leaves the state as it was. -/
def handleFrame (owner : Owner) (p : AlignedParser) (frame : Bytes) : Bool × AlignedParser :=
  let returned := owner.handleFrame p.log frame
  let q := { p with log := p.log ++ [Event.handleFrame frame returned] }
  (returned, if returned then q.resetToInitialState else q)

/-- Header, metadata and data, without the length field. -/
def submitFrame (owner : Owner) (p : AlignedParser) : Bool × AlignedParser :=
  handleFrame owner { p with header := [], metadata := none, data := none }
    ((p.header ++ p.metadata.getD [] ++ p.data.getD []).drop kBytesForFrameOrMetadataLength)

/-- The queue throws when it has fewer bytes than the frame, and keeps none. -/
def submitIOBufQueueFrame (owner : Owner) (p : AlignedParser) : Bool × AlignedParser :=
  let queue := p.nonAlignedData.drop kBytesForFrameOrMetadataLength
  if queue.length < p.frameLength then (false, { p with nonAlignedData := [] })
  else
    handleFrame owner { p with nonAlignedData := queue.drop p.frameLength }
      (queue.take p.frameLength)

/-- What was parsed before the cursor or the flags threw is kept. -/
def parseHeader (p : AlignedParser) : Bool × AlignedParser :=
  match readFrameOrMetadataSize p.header with
  | none => (false, p)
  | some frameLength =>
    match readFrameTypeAndFlagsUnsafe (p.header.drop 7) with
    | none => (false, { p with frameLength := frameLength })
    | some (frameType, flags) =>
      (true, { p with frameLength := frameLength, frameType := frameType, flags := flags })

def configureAligned (p : AlignedParser) : AlignedParser :=
  if p.flags.metadata then
    { p with
      remainingHeader := p.remainingHeader + kBytesForFrameOrMetadataLength
      state := .awaitingMetadataLength }
  else
    { p with
      remainingData := sizeSub p.frameLength kHeaderLength
      data := some []
      state := .awaitingData }

def configuredNonAligned (p : AlignedParser) : AlignedParser :=
  { p with
    state := .awaitingNonAligned
    nonAlignedData := p.header
    header := []
    remainingUnaligned := sizeSub p.frameLength kHeaderLength }

/-- The switch over the frame type does nothing for a code that is not of the
enumeration. -/
def dispatchHeader (owner : Owner) (p : AlignedParser) : Bool × AlignedParser :=
  match p.frameType with
  | none => (true, p)
  | some .payload | some .requestResponse => (true, p.configureAligned)
  | some .cancel => p.submitFrame owner
  | some _ => (true, p.configuredNonAligned)

/-- What happens when the header is complete. -/
def finishHeader (owner : Owner) (p : AlignedParser) : Bool × AlignedParser :=
  match p.parseHeader with
  | (true, q) => q.dispatchHeader owner
  | (false, q) => (false, q)

def handleAwaitingHeader (owner : Owner) (p : AlignedParser) (bytes : Bytes) :
    Bool × AlignedParser :=
  let q := { p with
    header := p.header ++ bytes
    remainingHeader := sizeSub p.remainingHeader bytes.length }
  if q.remainingHeader = 0 then q.finishHeader owner else (true, q)

def handleAwaitingMetadataLength (p : AlignedParser) (bytes : Bytes) : Bool × AlignedParser :=
  let q := { p with
    header := p.header ++ bytes
    remainingHeader := sizeSub p.remainingHeader bytes.length }
  if q.remainingHeader = 0 then
    let metadataLength :=
      (readFrameOrMetadataSize (q.header.drop kMinimumFrameHeaderLength)).getD 0
    (true, { q with
      state := .awaitingMetadata
      remainingMetadata := metadataLength
      remainingData := sizeSub
        (sizeSub (sizeSub q.frameLength kHeaderLength) kBytesForFrameOrMetadataLength)
        metadataLength
      metadata := some [] })
  else (true, q)

def handleAwaitingMetadata (owner : Owner) (p : AlignedParser) (bytes : Bytes) :
    Bool × AlignedParser :=
  let q := { p with
    metadata := p.metadata.map (· ++ bytes)
    remainingMetadata := sizeSub p.remainingMetadata bytes.length }
  if q.remainingMetadata = 0 then
    if q.remainingData > 0 then (true, { q with state := .awaitingData, data := some [] })
    else q.submitFrame owner
  else (true, q)

def handleAwaitingData (owner : Owner) (p : AlignedParser) (bytes : Bytes) : Bool × AlignedParser :=
  let q := { p with
    data := p.data.map (· ++ bytes)
    remainingData := sizeSub p.remainingData bytes.length }
  if q.remainingData = 0 then q.submitFrame owner else (true, q)

def handleNonAligned (owner : Owner) (p : AlignedParser) (bytes : Bytes) : Bool × AlignedParser :=
  let q := { p with
    nonAlignedData := p.nonAlignedData ++ bytes
    remainingUnaligned := sizeSub p.remainingUnaligned bytes.length }
  if q.remainingUnaligned = 0 then q.submitIOBufQueueFrame owner else (true, q)

def readDataAvailable (owner : Owner) (p : AlignedParser) (bytes : Bytes) : Bool × AlignedParser :=
  let q := { p with log := p.log ++ [Event.received bytes] }
  match p.state with
  | .awaitingHeader => q.handleAwaitingHeader owner bytes
  | .awaitingMetadataLength => q.handleAwaitingMetadataLength bytes
  | .awaitingMetadata => q.handleAwaitingMetadata owner bytes
  | .awaitingData => q.handleAwaitingData owner bytes
  | .awaitingNonAligned => q.handleNonAligned owner bytes

/-- The strategy as the transport drives it. -/
def strategy (owner : Owner) : ParserStrategy AlignedParser where
  getReadBuffer p := (p.getReadBuffer, p)
  readDataAvailable := readDataAvailable owner

end AlignedParser

/-! ## Frames as the parser sees them -/

def frameTypeOf (frame : Bytes) : Option FrameType :=
  (readFrameTypeAndFlagBits (frame.drop 4)).bind fun (code, _) => FrameType.ofCode code

def flagBitsOf (frame : Bytes) : Nat :=
  ((readFrameTypeAndFlagBits (frame.drop 4)).map Prod.snd).getD 0

def hasMetadata (frame : Bytes) : Bool := (flagBitsOf frame).testBit 8

/-- The length of the metadata of a payload or a request-response. -/
def metadataLengthOf (frame : Bytes) : Nat :=
  (readFrameOrMetadataSize (frame.drop kHeaderLength)).getD 0

/-- The types whose metadata and data are read apart. -/
def FrameType.isAligned : FrameType → Bool
  | .payload | .requestResponse => true
  | _ => false

/-- Payloads and request-responses. -/
def isAligned (frame : Bytes) : Bool := (frameTypeOf frame).any FrameType.isAligned

/-- A frame has a header with a type that the framing layer accepts, its length fits the
length field, and its metadata is within it. -/
structure WellFormed (frame : Bytes) : Prop where
  header : kHeaderLength ≤ frame.length
  encodable : frame.length < 2 ^ 24
  accepted : ∃ frameType, frameTypeOf frame = some frameType ∧ frameType ≠ .reserved
  metadata : isAligned frame = true → hasMetadata frame = true →
    kMinimumFrameHeaderLength + metadataLengthOf frame ≤ frame.length

/-- Every section that the parser waits for has a byte, a cancel frame has no more than a
header, and the flags are ones that there are. -/
def NoEmptySection (frame : Bytes) : Prop :=
  flagBitsOf frame &&& Flags.kInvalidMask = 0 ∧ if isAligned frame then
      if hasMetadata frame then 0 < metadataLengthOf frame else kHeaderLength < frame.length
    else if frameTypeOf frame = some .cancel then frame.length = kHeaderLength
    else kHeaderLength < frame.length

instance (frame : Bytes) : Decidable (NoEmptySection frame) :=
  inferInstanceAs (Decidable (_ ∧ _))

section Header

variable {frame : Bytes} {frameType : FrameType}

theorem take_encodeFrame (frame : Bytes) (k : Nat) :
    (encodeFrame frame).take (3 + k) = writeFrameOrMetadataSize frame.length ++ frame.take k := by
  have length := length_writeFrameOrMetadataSize frame.length
  rw [encodeFrame, List.take_append, List.take_of_length_le (by omega), length,
    Nat.add_sub_cancel_left]

theorem drop_encodeFrame (frame : Bytes) (k : Nat) :
    (encodeFrame frame).drop (3 + k) = frame.drop k := by
  have length := length_writeFrameOrMetadataSize frame.length
  rw [encodeFrame, List.drop_append, List.drop_eq_nil_of_le (by omega), length,
    Nat.add_sub_cancel_left, List.nil_append]

theorem read_header (long : 6 ≤ frame.length) (fits : frame.length < 2 ^ 24) :
    readFrameOrMetadataSize ((encodeFrame frame).take 9) = some frame.length ∧
      readFrameTypeAndFlagBits (((encodeFrame frame).take 9).drop 7) =
        readFrameTypeAndFlagBits (frame.drop 4) := by
  constructor
  · rw [take_encodeFrame frame 6]
    exact readFrameOrMetadataSize_write fits _
  · rw [List.drop_take, drop_encodeFrame frame 4]
    match frame, long with
    | _ :: _ :: _ :: _ :: _ :: _ :: _, _ => rfl

/-- The next three bytes of an aligned frame with metadata hold the length of it. -/
theorem read_metadataLength (long : 9 ≤ frame.length) :
    (readFrameOrMetadataSize (((encodeFrame frame).take 12).drop 9)).getD 0 =
      metadataLengthOf frame := by
  rw [List.drop_take, drop_encodeFrame frame 6]
  match frame, long with
  | _ :: _ :: _ :: _ :: _ :: _ :: _ :: _ :: _ :: _, _ => rfl

theorem readFrameTypeAndFlagsUnsafe_eq (accepted : frameTypeOf frame = some frameType) :
    readFrameTypeAndFlagsUnsafe (frame.drop 4) = if flagBitsOf frame &&& Flags.kInvalidMask = 0 then
        some (some frameType, ⟨flagBitsOf frame⟩)
      else none := by
  unfold frameTypeOf at accepted
  unfold readFrameTypeAndFlagsUnsafe flagBitsOf
  cases read : readFrameTypeAndFlagBits (frame.drop 4) with
  | none =>
    rw [read] at accepted
    cases accepted
  | some pair =>
    obtain ⟨code, bits⟩ := pair
    rw [read] at accepted
    have code : FrameType.ofCode code = some frameType := accepted
    by_cases valid : bits &&& Flags.kInvalidMask = 0
    · simp [Flags.ofBits, valid, code]
    · simp [Flags.ofBits, valid]

end Header

/-! ## Where the parser is in a frame -/

namespace AlignedParser

/-- Between frames. -/
structure Fresh (p : AlignedParser) : Prop where
  state : p.state = .awaitingHeader
  remaining : p.remainingHeader = 9
  header : p.header = []
  metadata : p.metadata = none
  data : p.data = none

/-- The parser has these bytes of a frame behind its length field and waits for more. -/
inductive Holds (frame : Bytes) (p : AlignedParser) (held : Bytes) : Prop where
  | header (state : p.state = .awaitingHeader) (short : held.length < 9)
      (header : p.header = held) (remaining : p.remainingHeader = 9 - held.length)
      (metadata : p.metadata = none) (data : p.data = none)
  | metadataLength (state : p.state = .awaitingMetadataLength) (long : 9 ≤ held.length)
      (short : held.length < 12) (aligned : isAligned frame = true)
      (flag : hasMetadata frame = true)
      (header : p.header = held) (remaining : p.remainingHeader = 12 - held.length)
      (length : p.frameLength = frame.length) (data : p.data = none)
  | metadata (state : p.state = .awaitingMetadata) (long : 12 ≤ held.length)
      (short : held.length < 12 + metadataLengthOf frame) (aligned : isAligned frame = true)
      (flag : hasMetadata frame = true)
      (header : p.header = held.take 12) (metadata : p.metadata = some (held.drop 12))
      (remaining : p.remainingMetadata = 12 + metadataLengthOf frame - held.length)
      (remainingData : p.remainingData = frame.length - 9 - metadataLengthOf frame)
      (data : p.data = none)
  | data (k : Nat) (state : p.state = .awaitingData) (long : k ≤ held.length)
      (short : held.length < 3 + frame.length)
      (header : p.header ++ p.metadata.getD [] = held.take k)
      (data : p.data = some (held.drop k))
      (remaining : p.remainingData = 3 + frame.length - held.length)
  | unaligned (state : p.state = .awaitingNonAligned)
      (short : held.length < 3 + frame.length) (nonAligned : p.nonAlignedData = held)
      (remaining : p.remainingUnaligned = 3 + frame.length - held.length)
      (length : p.frameLength = frame.length)
      (header : p.header = []) (metadata : p.metadata = none) (data : p.data = none)

variable {owner : Owner} {p : AlignedParser} {frame held bytes : Bytes}

theorem Fresh.holds (fresh : Fresh p) (frame : Bytes) : Holds frame p [] :=
  .header fresh.state (by simp) fresh.header fresh.remaining fresh.metadata fresh.data

/-- A section of which bytes are missing is offered. -/
theorem Holds.getReadBuffer (holds : Holds frame p held) : 1 ≤ p.getReadBuffer := by
  unfold AlignedParser.getReadBuffer
  cases holds with
  | header state short header remaining | metadataLength state long short al fl header remaining
  | metadata state long short al fl header metadata remaining
  | data k state long short header data remaining
  | unaligned state short nonAligned remaining =>
    rw [state]
    simp only
    omega

theorem sizeSub_of_le {a b : Nat} (le : b ≤ a) : sizeSub a b = a - b := if_pos le

@[simp] theorem sizeSub_self (a : Nat) : sizeSub a a = 0 := by
  rw [sizeSub_of_le (Nat.le_refl a), Nat.sub_self]

/-! ## One read -/

/-- A read left these bytes of a frame with the parser, or they were all of it and it was
handed over. -/
inductive Advances (frame next : Bytes) (log : List Event) : Bool × AlignedParser → Prop where
  | done {q : AlignedParser} (whole : next = encodeFrame frame) (fresh : Fresh q)
      (handed : q.log = log ++ [.handleFrame frame true]) : Advances frame next log (true, q)
  | more {q : AlignedParser} (holds : Holds frame q next) (kept : q.log = log) :
      Advances frame next log (true, q)

theorem submitFrame_spec (returns : owner.Returns) {log : List Event} (kept : p.log = log)
    (whole : p.header ++ p.metadata.getD [] ++ p.data.getD [] = encodeFrame frame) :
    Advances frame (encodeFrame frame) log (p.submitFrame owner) := by
  rw [← kept]
  have dropped : (encodeFrame frame).drop 3 = frame := drop_encodeFrame frame 0
  simp only [submitFrame, handleFrame, returns _ _, whole, if_true]
  refine .done rfl ⟨rfl, rfl, rfl, rfl, rfl⟩ ?_
  simp [resetToInitialState, dropped]

theorem submitIOBufQueueFrame_spec (returns : owner.Returns) {log : List Event}
    (kept : p.log = log) (whole : p.nonAlignedData = encodeFrame frame) (length : p.frameLength = frame.length)
    (header : p.header = []) (metadata : p.metadata = none) (data : p.data = none) :
    Advances frame (encodeFrame frame) log (p.submitIOBufQueueFrame owner) := by
  rw [← kept]
  have dropped : (encodeFrame frame).drop 3 = frame := drop_encodeFrame frame 0
  simp only [submitIOBufQueueFrame, handleFrame, returns _ _, whole, length, dropped,
    Nat.lt_irrefl, if_true, if_false]
  refine .done rfl ⟨rfl, rfl, header, metadata, data⟩ ?_
  simp [resetToInitialState]

/-- After the header has been parsed. -/
structure Parsed (frame : Bytes) (frameType : FrameType) (p : AlignedParser) : Prop where
  state : p.state = .awaitingHeader
  header : p.header = (encodeFrame frame).take 9
  remaining : p.remainingHeader = 0
  length : p.frameLength = frame.length
  type : p.frameType = some frameType
  flags : p.flags = ⟨flagBitsOf frame⟩
  metadata : p.metadata = none
  data : p.data = none

theorem isAligned_eq {frameType : FrameType} (accepted : frameTypeOf frame = some frameType) :
    isAligned frame = frameType.isAligned := by
  simp [isAligned, accepted]

theorem dispatchHeader_aligned {frameType : FrameType} (parsed : Parsed frame frameType p)
    (aligned : frameType.isAligned = true) :
    p.dispatchHeader owner = (true, p.configureAligned) := by
  unfold dispatchHeader
  rw [parsed.type]
  cases frameType <;> first | rfl | cases aligned

theorem dispatchHeader_unaligned {frameType : FrameType} (parsed : Parsed frame frameType p)
    (unaligned : frameType.isAligned = false) (notCancel : frameType ≠ .cancel) :
    p.dispatchHeader owner = (true, p.configuredNonAligned) := by
  unfold dispatchHeader
  rw [parsed.type]
  cases frameType <;> first | rfl | exact absurd rfl notCancel | cases unaligned

theorem dispatchHeader_spec (returns : owner.Returns) {frameType : FrameType}
    (wellFormed : WellFormed frame) (filled : NoEmptySection frame)
    (accepted : frameTypeOf frame = some frameType) (parsed : Parsed frame frameType p) :
    Advances frame ((encodeFrame frame).take 9) p.log (p.dispatchHeader owner) := by
  have long : 6 ≤ frame.length := wellFormed.header
  have fits := wellFormed.encodable
  have length : ((encodeFrame frame).take 9).length = 9 := by
    rw [List.length_take, length_encodeFrame]
    omega
  obtain ⟨-, filled⟩ := filled
  rw [isAligned_eq accepted] at filled
  cases aligned : frameType.isAligned with
  | true =>
    rw [dispatchHeader_aligned parsed aligned]
    rw [aligned, if_pos rfl] at filled
    unfold configureAligned
    rw [parsed.flags]
    cases flag : hasMetadata frame with
    | true =>
      have flagged : Flags.metadata ⟨flagBitsOf frame⟩ = true := flag
      rw [if_pos flagged]
      refine .more (.metadataLength rfl (by omega) (by omega) ?_ flag parsed.header ?_
        parsed.length parsed.data) rfl
      · rw [isAligned_eq accepted, aligned]
      · simp [parsed.remaining, length]
    | false =>
      have flagged : ¬ Flags.metadata ⟨flagBitsOf frame⟩ = true := by
        intro set
        exact absurd (flag.symm.trans set) (by decide)
      rw [if_neg flagged]
      rw [flag] at filled
      have filled : 6 < frame.length := by simpa using filled
      refine .more (.data 9 rfl (by omega) (by omega) ?_ ?_ ?_) rfl
      · simp [parsed.header, parsed.metadata]
      · simp
      · simp only [parsed.length, kHeaderLength_eq]
        rw [sizeSub_of_le (by omega)]
        omega
  | false =>
    rw [aligned] at filled
    by_cases cancel : frameType = .cancel
    · rw [accepted, cancel] at filled
      have filled : frame.length = 6 := by simpa using filled
      have whole : (encodeFrame frame).take 9 = encodeFrame frame :=
        List.take_of_length_le (by rw [length_encodeFrame]; omega)
      have same : p.dispatchHeader owner = p.submitFrame owner := by
        unfold dispatchHeader
        rw [parsed.type, cancel]
      rw [same, whole]
      refine submitFrame_spec returns rfl ?_
      simp [parsed.header, parsed.metadata, parsed.data, whole]
    · rw [dispatchHeader_unaligned parsed aligned cancel]
      have notCancel : ¬ frameTypeOf frame = some .cancel := by
        rw [accepted]
        simpa using cancel
      rw [if_neg notCancel] at filled
      have filled : 6 < frame.length := by simpa using filled
      refine .more (.unaligned rfl (by omega) parsed.header ?_ parsed.length rfl
        parsed.metadata parsed.data) rfl
      simp only [configuredNonAligned, parsed.length, kHeaderLength_eq]
      rw [sizeSub_of_le (by omega)]
      omega

theorem eq_take_of_prefix {k : Nat} (pre : held ++ bytes <+: encodeFrame frame)
    (length : held.length + bytes.length = k) : held ++ bytes = (encodeFrame frame).take k := by
  rw [← length, ← List.length_append]
  exact List.prefix_iff_eq_take.mp pre

theorem eq_whole_of_prefix (pre : held ++ bytes <+: encodeFrame frame)
    (length : held.length + bytes.length = 3 + frame.length) :
    held ++ bytes = encodeFrame frame :=
  pre.eq_of_length (by rw [length_encodeFrame, List.length_append, length])

theorem parseHeader_spec {frameType : FrameType} (wellFormed : WellFormed frame)
    (accepted : frameTypeOf frame = some frameType)
    (valid : flagBitsOf frame &&& Flags.kInvalidMask = 0) (state : p.state = .awaitingHeader)
    (header : p.header = (encodeFrame frame).take 9) (remaining : p.remainingHeader = 0)
    (metadata : p.metadata = none) (data : p.data = none) :
    ∃ q, p.parseHeader = (true, q) ∧ Parsed frame frameType q ∧ q.log = p.log := by
  obtain ⟨length, bits⟩ := read_header wellFormed.header wellFormed.encodable
  have flags : readFrameTypeAndFlagsUnsafe (p.header.drop 7) =
      some (some frameType, ⟨flagBitsOf frame⟩) := by
    have same := readFrameTypeAndFlagsUnsafe_eq accepted
    rw [if_pos valid] at same
    rw [← same, header]
    unfold readFrameTypeAndFlagsUnsafe
    rw [bits]
  rw [← header] at length
  unfold parseHeader
  rw [length]
  simp only [flags]
  exact ⟨_, rfl, ⟨state, header, remaining, rfl, rfl, rfl, metadata, data⟩, rfl⟩

theorem handleAwaitingHeader_spec (returns : owner.Returns) (wellFormed : WellFormed frame)
    (filled : NoEmptySection frame) (pre : held ++ bytes <+: encodeFrame frame)
    (state : p.state = .awaitingHeader) (short : held.length < 9) (header : p.header = held)
    (remaining : p.remainingHeader = 9 - held.length) (metadata : p.metadata = none)
    (data : p.data = none) (room : bytes.length ≤ 9 - held.length) :
    Advances frame (held ++ bytes) p.log (p.handleAwaitingHeader owner bytes) := by
  have left : sizeSub p.remainingHeader bytes.length = 9 - (held ++ bytes).length := by
    rw [remaining, sizeSub_of_le room, List.length_append]
    omega
  simp only [handleAwaitingHeader, left, header]
  split
  next full =>
    rw [List.length_append] at full
    have nine : held ++ bytes = (encodeFrame frame).take 9 := eq_take_of_prefix pre (by omega)
    obtain ⟨frameType, accepted, -⟩ := wellFormed.accepted
    obtain ⟨q, parse, parsed, kept⟩ := parseHeader_spec wellFormed accepted filled.1 (p := { p with
        header := held ++ bytes
        remainingHeader := 9 - (held ++ bytes).length })
      state nine (by rw [List.length_append]; exact full) metadata data
    simp only [finishHeader, parse]
    rw [nine, ← kept]
    exact dispatchHeader_spec returns wellFormed filled accepted parsed
  next partial' => exact .more (.header state (by omega) rfl rfl metadata data) rfl

theorem handleAwaitingMetadataLength_spec (wellFormed : WellFormed frame)
    (filled : NoEmptySection frame) (pre : held ++ bytes <+: encodeFrame frame)
    (state : p.state = .awaitingMetadataLength) (long : 9 ≤ held.length)
    (short : held.length < 12) (aligned : isAligned frame = true)
    (flag : hasMetadata frame = true) (header : p.header = held)
    (remaining : p.remainingHeader = 12 - held.length) (length : p.frameLength = frame.length)
    (data : p.data = none) (room : bytes.length ≤ 12 - held.length) :
    Advances frame (held ++ bytes) p.log (p.handleAwaitingMetadataLength bytes) := by
  have fits := wellFormed.encodable
  have within := wellFormed.metadata aligned flag
  simp only [kMinimumFrameHeaderLength] at within
  have left : sizeSub p.remainingHeader bytes.length = 12 - (held ++ bytes).length := by
    rw [remaining, sizeSub_of_le room, List.length_append]
    omega
  obtain ⟨-, filled⟩ := filled
  rw [if_pos aligned, if_pos flag] at filled
  simp only [handleAwaitingMetadataLength, left, header]
  split
  next full =>
    rw [List.length_append] at full
    have twelve : held ++ bytes = (encodeFrame frame).take 12 := eq_take_of_prefix pre (by omega)
    have read : (readFrameOrMetadataSize ((held ++ bytes).drop 9)).getD 0 =
        metadataLengthOf frame := by
      rw [twelve]
      exact read_metadataLength (by omega)
    refine .more (.metadata rfl ?_ ?_ aligned flag ?_ ?_ ?_ ?_ data) rfl
    · rw [List.length_append]
      omega
    · rw [List.length_append]
      omega
    · exact (List.take_of_length_le (by rw [List.length_append]; omega)).symm
    · simp only [Option.some.injEq]
      exact (List.drop_eq_nil_of_le (by rw [List.length_append]; omega)).symm
    · simp only [kMinimumFrameHeaderLength, read, List.length_append]
      omega
    · simp only [kMinimumFrameHeaderLength, kBytesForFrameOrMetadataLength, kHeaderLength_eq,
        read, length]
      rw [sizeSub_of_le (a := frame.length) (by omega),
        sizeSub_of_le (a := frame.length - 6) (by omega),
        sizeSub_of_le (by omega)]
      omega
  next partial' =>
    rw [List.length_append] at partial'
    refine .more (.metadataLength state ?_ ?_ aligned flag rfl rfl length data) rfl
    · rw [List.length_append]
      omega
    · rw [List.length_append]
      omega

theorem handleAwaitingMetadata_spec (returns : owner.Returns) (wellFormed : WellFormed frame)
    (pre : held ++ bytes <+: encodeFrame frame)
    (state : p.state = .awaitingMetadata) (long : 12 ≤ held.length)
    (short : held.length < 12 + metadataLengthOf frame) (aligned : isAligned frame = true)
    (flag : hasMetadata frame = true) (header : p.header = held.take 12)
    (metadata : p.metadata = some (held.drop 12))
    (remaining : p.remainingMetadata = 12 + metadataLengthOf frame - held.length)
    (remainingData : p.remainingData = frame.length - 9 - metadataLengthOf frame)
    (data : p.data = none) (room : bytes.length ≤ 12 + metadataLengthOf frame - held.length) :
    Advances frame (held ++ bytes) p.log (p.handleAwaitingMetadata owner bytes) := by
  have fits := wellFormed.encodable
  have within := wellFormed.metadata aligned flag
  simp only [kMinimumFrameHeaderLength] at within
  have left : sizeSub p.remainingMetadata bytes.length =
      12 + metadataLengthOf frame - (held ++ bytes).length := by
    rw [remaining, sizeSub_of_le room, List.length_append]
    omega
  have first : held.take 12 = (held ++ bytes).take 12 := (List.take_append_of_le_length long).symm
  have second : held.drop 12 ++ bytes = (held ++ bytes).drop 12 :=
    (List.drop_append_of_le_length long).symm
  simp only [handleAwaitingMetadata, left, metadata, remainingData, Option.map_some]
  split
  next full =>
    rw [List.length_append] at full
    split
    next more =>
      refine .more (.data (held ++ bytes).length rfl (Nat.le_refl _) ?_ ?_ ?_ ?_) rfl
      · rw [List.length_append]
        omega
      · rw [header, first, Option.getD_some, second, List.take_append_drop, List.take_length]
      · simp
      · simp only [List.length_append]
        omega
    next none =>
      have whole := eq_whole_of_prefix pre (by omega)
      rw [whole]
      refine submitFrame_spec returns rfl ?_
      rw [header, first, Option.getD_some, second, List.take_append_drop, data, whole]
      simp
  next partial' =>
    rw [List.length_append] at partial'
    refine .more (.metadata state ?_ ?_ aligned flag ?_ ?_ rfl rfl data) rfl
    · rw [List.length_append]
      omega
    · rw [List.length_append]
      omega
    · rw [← first]
      exact header
    · rw [← second]

theorem handleAwaitingData_spec (returns : owner.Returns) (wellFormed : WellFormed frame)
    (pre : held ++ bytes <+: encodeFrame frame) {k : Nat} (state : p.state = .awaitingData)
    (long : k ≤ held.length) (short : held.length < 3 + frame.length)
    (header : p.header ++ p.metadata.getD [] = held.take k)
    (data : p.data = some (held.drop k))
    (remaining : p.remainingData = 3 + frame.length - held.length)
    (room : bytes.length ≤ 3 + frame.length - held.length) :
    Advances frame (held ++ bytes) p.log (p.handleAwaitingData owner bytes) := by
  have fits := wellFormed.encodable
  have left : sizeSub p.remainingData bytes.length = 3 + frame.length - (held ++ bytes).length := by
    rw [remaining, sizeSub_of_le room, List.length_append]
    omega
  have first : held.take k = (held ++ bytes).take k := (List.take_append_of_le_length long).symm
  have second : held.drop k ++ bytes = (held ++ bytes).drop k :=
    (List.drop_append_of_le_length long).symm
  simp only [handleAwaitingData, left, data, Option.map_some]
  split
  next full =>
    rw [List.length_append] at full
    have whole := eq_whole_of_prefix pre (by omega)
    rw [whole]
    refine submitFrame_spec returns rfl ?_
    rw [header, first, Option.getD_some, second, List.take_append_drop, whole]
  next partial' =>
    rw [List.length_append] at partial'
    refine .more (.data k state ?_ ?_ ?_ ?_ rfl) rfl
    · rw [List.length_append]
      omega
    · rw [List.length_append]
      omega
    · rw [← first]
      exact header
    · rw [← second]

theorem handleNonAligned_spec (returns : owner.Returns) (wellFormed : WellFormed frame)
    (pre : held ++ bytes <+: encodeFrame frame) (state : p.state = .awaitingNonAligned)
    (short : held.length < 3 + frame.length) (nonAligned : p.nonAlignedData = held)
    (remaining : p.remainingUnaligned = 3 + frame.length - held.length)
    (length : p.frameLength = frame.length) (header : p.header = [])
    (metadata : p.metadata = none) (data : p.data = none)
    (room : bytes.length ≤ 3 + frame.length - held.length) :
    Advances frame (held ++ bytes) p.log (p.handleNonAligned owner bytes) := by
  have fits := wellFormed.encodable
  have left : sizeSub p.remainingUnaligned bytes.length =
      3 + frame.length - (held ++ bytes).length := by
    rw [remaining, sizeSub_of_le room, List.length_append]
    omega
  simp only [handleNonAligned, left, nonAligned]
  split
  next full =>
    rw [List.length_append] at full
    have whole := eq_whole_of_prefix pre (by omega)
    rw [whole]
    exact submitIOBufQueueFrame_spec returns rfl rfl length header metadata data
  next partial' =>
    exact .more (.unaligned state (by omega) rfl rfl length header metadata data) rfl

theorem Holds.read (returns : owner.Returns) (wellFormed : WellFormed frame)
    (filled : NoEmptySection frame) (holds : Holds frame p held)
    (pre : held ++ bytes <+: encodeFrame frame) (room : bytes.length ≤ p.getReadBuffer) :
    Advances frame (held ++ bytes) (p.log ++ [.received bytes])
      (p.readDataAvailable owner bytes) := by
  unfold AlignedParser.getReadBuffer at room
  cases holds with
  | header state short header remaining metadata data =>
    simp only [state, remaining] at room
    have step : p.readDataAvailable owner bytes =
        ({ p with log := p.log ++ [Event.received bytes] } : AlignedParser).handleAwaitingHeader owner bytes := by
      simp only [readDataAvailable, state]
    rw [step]
    exact handleAwaitingHeader_spec (p := { p with log := p.log ++ [.received bytes] })
      returns wellFormed filled pre state short header remaining metadata data room
  | metadataLength state long short aligned flag header remaining length data =>
    simp only [state, remaining] at room
    have step : p.readDataAvailable owner bytes =
        ({ p with log := p.log ++ [Event.received bytes] } : AlignedParser).handleAwaitingMetadataLength bytes := by
      simp only [readDataAvailable, state]
    rw [step]
    exact handleAwaitingMetadataLength_spec (p := { p with log := p.log ++ [.received bytes] })
      wellFormed filled pre state long short aligned flag header remaining length data room
  | metadata state long short aligned flag header metadata remaining remainingData data =>
    simp only [state, remaining] at room
    have step : p.readDataAvailable owner bytes =
        ({ p with log := p.log ++ [Event.received bytes] } : AlignedParser).handleAwaitingMetadata owner bytes := by
      simp only [readDataAvailable, state]
    rw [step]
    exact handleAwaitingMetadata_spec (p := { p with log := p.log ++ [.received bytes] })
      returns wellFormed pre state long short aligned flag header metadata remaining
      remainingData data room
  | data k state long short header data remaining =>
    simp only [state, remaining] at room
    have step : p.readDataAvailable owner bytes =
        ({ p with log := p.log ++ [Event.received bytes] } : AlignedParser).handleAwaitingData owner bytes := by
      simp only [readDataAvailable, state]
    rw [step]
    exact handleAwaitingData_spec (p := { p with log := p.log ++ [.received bytes] })
      returns wellFormed pre state long short header data remaining room
  | unaligned state short nonAligned remaining length header metadata data =>
    simp only [state, remaining] at room
    have step : p.readDataAvailable owner bytes =
        ({ p with log := p.log ++ [Event.received bytes] } : AlignedParser).handleNonAligned owner bytes := by
      simp only [readDataAvailable, state]
    rw [step]
    exact handleNonAligned_spec (p := { p with log := p.log ++ [.received bytes] })
      returns wellFormed pre state short nonAligned remaining length header metadata data room

end AlignedParser

end FbThrift.Rocket
