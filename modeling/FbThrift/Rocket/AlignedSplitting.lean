import FbThrift.Rocket.AlignedParser

/-!
# AlignedParserStrategy against plain frame splitting

On frames whose sections all have a byte the state machine hands over what
`FrameLengthParserStrategy` does.  A section without a byte stops it: the parser waits in a
state in which it offers no room.  A cancel frame with more than a header is handed over too
early.
-/

namespace FbThrift.Rocket

namespace AlignedParser

variable {owner : Owner} {p : AlignedParser} {frame held bytes : Bytes}

/-! ## The parser in a sequence of frames -/

theorem Holds.length_lt (wellFormed : WellFormed frame) (holds : Holds frame p held) :
    held.length < 3 + frame.length := by
  have long : 6 ≤ frame.length := wellFormed.header
  cases holds with
  | header state short => omega
  | metadataLength state _ short aligned flag =>
    have within := wellFormed.metadata aligned flag
    simp only [kMinimumFrameHeaderLength] at within
    omega
  | metadata state _ short aligned flag =>
    have within := wellFormed.metadata aligned flag
    simp only [kMinimumFrameHeaderLength] at within
    omega
  | data k state _ short => exact short
  | unaligned state short => exact short

/-- The room offered does not go past the frame. -/
theorem Holds.getReadBuffer_le (wellFormed : WellFormed frame) (holds : Holds frame p held) :
    held.length + p.getReadBuffer ≤ 3 + frame.length := by
  have long : 6 ≤ frame.length := wellFormed.header
  unfold AlignedParser.getReadBuffer
  cases holds with
  | header state short header remaining =>
    simp only [state, remaining]
    omega
  | metadataLength state _ short aligned flag header remaining =>
    have within := wellFormed.metadata aligned flag
    simp only [kMinimumFrameHeaderLength] at within
    simp only [state, remaining]
    omega
  | metadata state _ short aligned flag header metadata remaining =>
    have within := wellFormed.metadata aligned flag
    simp only [kMinimumFrameHeaderLength] at within
    simp only [state, remaining]
    omega
  | data k state _ short header data remaining =>
    simp only [state, remaining]
    omega
  | unaligned state short nonAligned remaining =>
    simp only [state, remaining]
    omega

/-- The parser has handed over the first frames and holds a part of the next one. -/
inductive Reading (all : List Bytes) (p : AlignedParser) : Prop where
  | fresh (done rest : List Bytes) (whole : all = done ++ rest)
      (handled : handledFrames p.log = done)
      (received : receivedBytes p.log = frames.encodeAll done) (fresh : Fresh p)
  | inside (done rest : List Bytes) (frame held : Bytes) (whole : all = done ++ frame :: rest)
      (handled : handledFrames p.log = done)
      (received : receivedBytes p.log = frames.encodeAll done ++ held)
      (pre : held <+: encodeFrame frame) (holds : Holds frame p held)

theorem Reading.getReadBuffer {all : List Bytes} (reading : Reading all p) :
    1 ≤ p.getReadBuffer := by
  cases reading with
  | fresh done rest whole handled received fresh => exact (fresh.holds []).getReadBuffer
  | inside done rest frame held whole handled received pre holds => exact holds.getReadBuffer

theorem next_eq_none_of_prefix (encodable : frame.length < 2 ^ 24)
    (pre : held <+: encodeFrame frame) (less : held.length < 3 + frame.length) :
    frames.next held = none := by
  cases found : frames.next held with
  | none => rfl
  | some pair =>
    obtain ⟨first, rest⟩ := pair
    obtain ⟨valid, same⟩ := frames.of_next found
    obtain ⟨more, whole⟩ := pre
    have whole' := frames.next_encode (b := frame) [] encodable
    have other := frames.next_encode (b := first) (rest ++ more) valid
    rw [← List.append_assoc, ← same, whole] at other
    rw [List.append_nil] at whole'
    have pairs := Option.some.inj (whole'.symm.trans other)
    obtain ⟨-, nil⟩ := Prod.mk.inj pairs
    obtain ⟨-, nil⟩ := List.append_eq_nil_iff.mp nil.symm
    rw [nil, List.append_nil] at whole
    rw [whole, length_encodeFrame] at less
    omega

/-- The frames handed over are those that plain splitting finds. -/
theorem Reading.split {all : List Bytes} (wellFormed : ∀ frame ∈ all, WellFormed frame)
    (reading : Reading all p) :
    (frames.split (receivedBytes p.log)).1 = handledFrames p.log := by
  cases reading with
  | fresh done rest whole handled received fresh =>
    have split : frames.split (frames.encodeAll done ++ []) = (done, []) :=
      frames.split_encodeAll
        (fun b member => (wellFormed b (by simp [whole, member])).encodable) rfl
    rw [List.append_nil] at split
    rw [received, handled, split]
  | inside done rest frame held whole handled received pre holds =>
    have wf := wellFormed frame (by simp [whole])
    have stuck := next_eq_none_of_prefix wf.encodable pre (holds.length_lt wf)
    rw [received, handled, frames.split_encodeAll
      (fun b member => (wellFormed b (by simp [whole, member])).encodable) stuck]

theorem Reading.inside_of_more {all : List Bytes} (reading : Reading all p)
    (some' : bytes ≠ []) (within : receivedBytes p.log ++ bytes <+: frames.encodeAll all) :
    ∃ done rest frame held, all = done ++ frame :: rest ∧ handledFrames p.log = done ∧
      receivedBytes p.log = frames.encodeAll done ++ held ∧ Holds frame p held := by
  cases reading with
  | inside done rest frame held whole handled received pre holds =>
    exact ⟨done, rest, frame, held, whole, handled, received, holds⟩
  | fresh done rest whole handled received fresh =>
    cases rest with
    | nil =>
      rw [received, whole, List.append_nil] at within
      have le := within.length_le
      rw [List.length_append] at le
      have := List.length_pos_of_ne_nil some'
      omega
    | cons frame rest =>
      exact ⟨done, rest, frame, [], whole, handled, by simpa using received,
        fresh.holds frame⟩

theorem Reading.read (returns : owner.Returns) {all : List Bytes}
    (wellFormed : ∀ frame ∈ all, WellFormed frame)
    (filled : ∀ frame ∈ all, NoEmptySection frame) (reading : Reading all p)
    (some' : bytes ≠ []) (room : bytes.length ≤ p.getReadBuffer)
    (within : receivedBytes p.log ++ bytes <+: frames.encodeAll all) :
    Reading all (p.readDataAvailable owner bytes).2 ∧
      receivedBytes (p.readDataAvailable owner bytes).2.log = receivedBytes p.log ++ bytes := by
  obtain ⟨done, rest, frame, held, whole, handled, received, holds⟩ :=
    reading.inside_of_more some' within
  have member : frame ∈ all := by simp [whole]
  have wf := wellFormed frame member
  have pre : held ++ bytes <+: encodeFrame frame := by
    rw [received, whole, frames.encodeAll_append, List.append_assoc,
      List.prefix_append_right_inj, frames.encodeAll_cons] at within
    refine List.prefix_of_prefix_length_le within (List.prefix_append _ _) ?_
    have le := holds.getReadBuffer_le wf
    change (held ++ bytes).length ≤ (encodeFrame frame).length
    rw [List.length_append, length_encodeFrame]
    omega
  have advances := holds.read returns wf (filled frame member) pre room
  generalize p.readDataAvailable owner bytes = result at advances
  cases advances with
  | @done q complete fresh handed =>
    refine ⟨.fresh (done ++ [frame]) rest (by simp [whole]) ?_ ?_ fresh, ?_⟩
    · simp [handed, handled, Event.frames]
    · simp [handed, received, Event.bytes, complete, frames]
    · simp [handed, Event.bytes]
  | @more q holds kept =>
    refine ⟨.inside done rest frame (held ++ bytes) whole ?_ ?_ pre holds, ?_⟩
    · simp [kept, handled, Event.frames]
    · simp [kept, received, Event.bytes]
    · simp [kept, Event.bytes]

/-! ## Runs -/

section Runs

variable {all : List Bytes}

/-- Reads of at least one byte within the stream and within what is offered go on with its
frames. -/
theorem Reading.run (returns : owner.Returns) (wellFormed : ∀ frame ∈ all, WellFormed frame)
    (filled : ∀ frame ∈ all, NoEmptySection frame) (reading : Reading all p)
    {reads : List Bytes} (some' : ∀ bytes ∈ reads, bytes ≠ [])
    (within : receivedBytes p.log ++ reads.flatten <+: frames.encodeAll all)
    (fits : (strategy owner).Fits p reads) :
    Reading all ((strategy owner).run p reads).2 ∧
      receivedBytes ((strategy owner).run p reads).2.log =
        receivedBytes p.log ++ reads.flatten := by
  induction reads generalizing p with
  | nil => exact ⟨reading, by simp⟩
  | cons bytes reads ih =>
    obtain ⟨room, fits⟩ := fits
    rw [List.flatten_cons, ← List.append_assoc] at within ⊢
    obtain ⟨next, received⟩ := reading.read returns wellFormed filled
      (some' bytes (by simp)) room ((List.prefix_append _ _).trans within)
    rw [← received] at within ⊢
    exact ih next (fun bytes member => some' bytes (by simp [member])) within fits

theorem Reading.fits_bytes (returns : owner.Returns) (wellFormed : ∀ frame ∈ all, WellFormed frame)
    (filled : ∀ frame ∈ all, NoEmptySection frame) (reading : Reading all p) {stream : Bytes}
    (within : receivedBytes p.log ++ stream <+: frames.encodeAll all) :
    (strategy owner).Fits p (stream.map fun b => [b]) := by
  induction stream generalizing p with
  | nil => trivial
  | cons b stream ih =>
    have room : [b].length ≤ p.getReadBuffer := reading.getReadBuffer
    rw [← List.singleton_append, ← List.append_assoc] at within
    obtain ⟨next, received⟩ := reading.read returns wellFormed filled
      (List.cons_ne_nil b []) room ((List.prefix_append _ _).trans within)
    rw [← received] at within
    exact ⟨room, ih next within⟩

theorem reading_init (all : List Bytes) : Reading all {} :=
  .fresh [] all rfl rfl rfl ⟨rfl, rfl, rfl, rfl, rfl⟩

/-- After exactly these frames the parser is between frames. -/
theorem Reading.fresh_of_all (wellFormed : ∀ frame ∈ all, WellFormed frame)
    (reading : Reading all p) (received : receivedBytes p.log = frames.encodeAll all) :
    Fresh p ∧ handledFrames p.log = all := by
  have split := reading.split wellFormed
  have whole : frames.split (frames.encodeAll all ++ []) = (all, []) :=
    frames.split_encodeAll (fun b member => (wellFormed b member).encodable) rfl
  rw [List.append_nil, ← received] at whole
  rw [whole] at split
  refine ⟨?_, split.symm⟩
  cases reading with
  | fresh done rest parts handled received fresh => exact fresh
  | inside done rest frame held parts handled received pre holds =>
    rw [handled] at split
    rw [← split] at parts
    simp at parts

end Runs

/-! ## Sections without a byte -/

theorem length_header (wellFormed : WellFormed frame) :
    ((encodeFrame frame).take 9).length = 9 := by
  have long : 6 ≤ frame.length := wellFormed.header
  rw [List.length_take, length_encodeFrame]
  omega

/-- The parser with all of the header. -/
def withHeader (p : AlignedParser) (frame : Bytes) : AlignedParser :=
  { p with
    log := p.log ++ [.received ((encodeFrame frame).take 9)]
    header := (encodeFrame frame).take 9
    remainingHeader := 0 }

theorem Fresh.read_header (fresh : Fresh p) (wellFormed : WellFormed frame) :
    p.readDataAvailable owner ((encodeFrame frame).take 9) =
      (p.withHeader frame).finishHeader owner := by
  have length := length_header wellFormed
  simp only [readDataAvailable, fresh.state, handleAwaitingHeader, fresh.header,
    fresh.remaining, length, sizeSub_self, withHeader, List.nil_append, if_true]

variable {frameType : FrameType}

/-- A header with flags that there are not makes the parser throw where it offers nothing. -/
theorem Fresh.read_invalid (fresh : Fresh p)
    (wellFormed : WellFormed frame) (accepted : frameTypeOf frame = some frameType)
    (invalid : flagBitsOf frame &&& Flags.kInvalidMask ≠ 0) :
    (p.readDataAvailable owner ((encodeFrame frame).take 9)).2.getReadBuffer = 0 := by
  obtain ⟨length, bits⟩ := FbThrift.Rocket.read_header wellFormed.header wellFormed.encodable
  have flags : readFrameTypeAndFlagsUnsafe (((encodeFrame frame).take 9).drop 7) = none := by
    have same := readFrameTypeAndFlagsUnsafe_eq accepted
    rw [if_neg invalid] at same
    rw [← same]
    unfold readFrameTypeAndFlagsUnsafe
    rw [bits]
  rw [fresh.read_header wellFormed]
  have state := fresh.state
  simp only [finishHeader, parseHeader, withHeader, length, flags, AlignedParser.getReadBuffer,
    state]

theorem Fresh.read_valid (fresh : Fresh p) (owner : Owner)
    (wellFormed : WellFormed frame) (accepted : frameTypeOf frame = some frameType)
    (valid : flagBitsOf frame &&& Flags.kInvalidMask = 0) :
    ∃ q, Parsed frame frameType q ∧ q.log = p.log ++ [.received ((encodeFrame frame).take 9)] ∧
      p.readDataAvailable owner ((encodeFrame frame).take 9) = q.dispatchHeader owner := by
  obtain ⟨q, parse, parsed, kept⟩ := parseHeader_spec (p := p.withHeader frame) wellFormed
    accepted valid fresh.state rfl rfl fresh.metadata fresh.data
  refine ⟨q, parsed, kept, ?_⟩
  rw [fresh.read_header wellFormed]
  simp only [finishHeader, parse]

/-- A run from between two frames over the beginning of a frame ends where nothing is
offered, or with the frame handed over before its end. -/
def Fails (owner : Owner) (p : AlignedParser) (frame : Bytes) : Prop :=
  ∃ reads : List Bytes, (∀ bytes ∈ reads, bytes ≠ []) ∧ reads.flatten <+: encodeFrame frame ∧
    (strategy owner).Fits p reads ∧
    (((strategy owner).run p reads).2.getReadBuffer = 0 ∨ reads.flatten.length < 3 + frame.length ∧
        handledFrames ((strategy owner).run p reads).2.log ≠ handledFrames p.log)

theorem Fresh.fails_header (fresh : Fresh p) (wellFormed : WellFormed frame)
    (bad : (p.readDataAvailable owner ((encodeFrame frame).take 9)).2.getReadBuffer = 0 ∨
      9 < 3 + frame.length ∧
        handledFrames (p.readDataAvailable owner ((encodeFrame frame).take 9)).2.log ≠
          handledFrames p.log) : Fails owner p frame := by
  have length := length_header wellFormed
  refine ⟨[(encodeFrame frame).take 9], ?_, ?_, ⟨?_, trivial⟩, ?_⟩
  · intro bytes member
    rw [List.mem_singleton.mp member]
    apply List.ne_nil_of_length_pos
    omega
  · simpa using List.take_prefix 9 (encodeFrame frame)
  · rw [length]
    simp [strategy, AlignedParser.getReadBuffer, fresh.state, fresh.remaining]
  · rw [List.flatten_singleton, length]
    exact bad

/-- A frame without data of a kind that has it makes the parser wait for it. -/
theorem getReadBuffer_configureAligned (parsed : Parsed frame frameType p)
    (flag : hasMetadata frame = false) (short : frame.length = 6) :
    p.configureAligned.getReadBuffer = 0 := by
  have flagged : p.flags.metadata = false := by
    rw [parsed.flags]
    exact flag
  have left : sizeSub p.frameLength kHeaderLength = 0 := by
    rw [parsed.length, short, kHeaderLength_eq]
    exact sizeSub_self 6
  simp only [configureAligned, flagged, Bool.false_eq_true, if_false, AlignedParser.getReadBuffer]
  exact left

theorem getReadBuffer_configuredNonAligned
    (parsed : Parsed frame frameType p) (short : frame.length = 6) :
    p.configuredNonAligned.getReadBuffer = 0 := by
  have left : sizeSub p.frameLength kHeaderLength = 0 := by
    rw [parsed.length, short, kHeaderLength_eq]
    exact sizeSub_self 6
  simp only [configuredNonAligned, AlignedParser.getReadBuffer, left]

theorem handledFrames_dispatchHeader_cancel (returns : owner.Returns)
    (parsed : Parsed frame .cancel p) :
    handledFrames (p.dispatchHeader owner).2.log ≠ handledFrames p.log := by
  have same : p.dispatchHeader owner = p.submitFrame owner := by
    unfold dispatchHeader
    rw [parsed.type]
  rw [same]
  simp only [submitFrame, handleFrame, returns _ _, resetToInitialState, if_true,
    handledFrames_append, handledFrames_cons, Event.frames]
  intro same
  have lengths := congrArg List.length same
  simp at lengths

/-- The length of metadata that has no bytes makes the parser wait for it. -/
theorem getReadBuffer_handleAwaitingMetadataLength (length : 9 ≤ frame.length)
    (header : p.header = (encodeFrame frame).take 9) (remaining : p.remainingHeader = 3)
    (empty : metadataLengthOf frame = 0) :
    (p.handleAwaitingMetadataLength (((encodeFrame frame).drop 9).take 3)).2.getReadBuffer = 0 := by
  have three : (((encodeFrame frame).drop 9).take 3).length = 3 := by
    rw [List.length_take, List.length_drop, length_encodeFrame]
    omega
  have twelve : (encodeFrame frame).take 9 ++ ((encodeFrame frame).drop 9).take 3 =
      (encodeFrame frame).take 12 := by
    rw [← List.take_add]
  have read := read_metadataLength length
  rw [empty] at read
  simp only [handleAwaitingMetadataLength, header, remaining, three, sizeSub_self, twelve,
    if_true, AlignedParser.getReadBuffer, kMinimumFrameHeaderLength, read]

/-- Metadata of no bytes makes the parser wait for it. -/
theorem Fresh.fails_metadata (fresh : Fresh p)
    (wellFormed : WellFormed frame) (accepted : frameTypeOf frame = some frameType)
    (valid : flagBitsOf frame &&& Flags.kInvalidMask = 0)
    (aligned : frameType.isAligned = true) (flag : hasMetadata frame = true)
    (empty : metadataLengthOf frame = 0) : Fails owner p frame := by
  have within := wellFormed.metadata ((isAligned_eq accepted).trans aligned) flag
  simp only [kMinimumFrameHeaderLength, empty] at within
  have nine := length_header wellFormed
  have three : (((encodeFrame frame).drop 9).take 3).length = 3 := by
    rw [List.length_take, List.length_drop, length_encodeFrame]
    omega
  obtain ⟨q, parsed, kept, read⟩ := fresh.read_valid owner wellFormed accepted valid
  rw [dispatchHeader_aligned parsed aligned] at read
  have flagged : q.flags.metadata = true := by
    rw [parsed.flags]
    exact flag
  simp only [configureAligned, flagged, if_true, parsed.remaining, Nat.zero_add] at read
  refine ⟨[(encodeFrame frame).take 9, ((encodeFrame frame).drop 9).take 3], ?_, ?_, ?_, ?_⟩
  · intro bytes member
    simp only [List.mem_cons, List.not_mem_nil, or_false] at member
    rcases member with rfl | rfl
    · exact List.ne_nil_of_length_pos (by omega)
    · exact List.ne_nil_of_length_pos (by omega)
  · have twelve : [(encodeFrame frame).take 9, ((encodeFrame frame).drop 9).take 3].flatten =
        (encodeFrame frame).take 12 := by
      simp [← List.take_add]
    rw [twelve]
    exact List.take_prefix 12 _
  · refine ⟨?_, ?_, trivial⟩
    · rw [nine]
      simp [strategy, AlignedParser.getReadBuffer, fresh.state, fresh.remaining]
    · simp only [ParserStrategy.read, strategy, read, AlignedParser.getReadBuffer, three]
      exact Nat.le_refl 3
  · refine .inl ?_
    simp only [ParserStrategy.run_cons, ParserStrategy.run_nil, ParserStrategy.read, strategy, read]
    refine getReadBuffer_handleAwaitingMetadataLength (by omega) ?_ ?_ empty
    · exact parsed.header
    · rfl

/-- The parser fails on every frame that has an empty section, a cancel frame that is too
long, or flags that there are not. -/
theorem Fresh.fails (returns : owner.Returns) (fresh : Fresh p) (wellFormed : WellFormed frame)
    (bad : ¬ NoEmptySection frame) : Fails owner p frame := by
  have long : 6 ≤ frame.length := wellFormed.header
  obtain ⟨frameType, accepted, -⟩ := wellFormed.accepted
  by_cases valid : flagBitsOf frame &&& Flags.kInvalidMask = 0
  · unfold NoEmptySection at bad
    rw [isAligned_eq accepted, accepted] at bad
    simp only [valid, true_and, kHeaderLength_eq] at bad
    obtain ⟨q, parsed, kept, read⟩ := fresh.read_valid owner wellFormed accepted valid
    cases aligned : frameType.isAligned with
    | true =>
      cases flag : hasMetadata frame with
      | true =>
        have empty : metadataLengthOf frame = 0 := by simpa [aligned, flag] using bad
        exact fresh.fails_metadata wellFormed accepted valid aligned flag empty
      | false =>
        have short : frame.length ≤ 6 := by simpa [aligned, flag] using bad
        refine fresh.fails_header wellFormed (.inl ?_)
        rw [read, dispatchHeader_aligned parsed aligned]
        exact getReadBuffer_configureAligned parsed flag (by omega)
    | false =>
      by_cases cancel : frameType = .cancel
      · rw [aligned] at bad
        have longer : frame.length ≠ 6 := by simpa [cancel] using bad
        refine fresh.fails_header wellFormed (.inr ⟨by omega, ?_⟩)
        rw [cancel] at parsed
        have handed := handledFrames_dispatchHeader_cancel returns parsed
        rw [← read, kept] at handed
        simpa [Event.frames] using handed
      · have short : frame.length ≤ 6 := by simpa [aligned, cancel] using bad
        refine fresh.fails_header wellFormed (.inl ?_)
        rw [read, dispatchHeader_unaligned parsed aligned cancel]
        exact getReadBuffer_configuredNonAligned parsed (by omega)
  · exact fresh.fails_header wellFormed (.inl (fresh.read_invalid wellFormed accepted valid))

end AlignedParser

/-! ## Agreement -/

/-- However a stream is cut into reads of at least one byte, `AlignedParserStrategy` hands
over the frames that `FrameLengthParserStrategy` does, and offers at least one byte in every
state it reaches. -/
def AgreesOn (owner : Owner) (room : FrameLengthParser.QueueRoom) (stream : Bytes) : Prop :=
  ∀ reads : List Bytes, (∀ bytes ∈ reads, bytes ≠ []) → reads.flatten <+: stream →
    (AlignedParser.strategy owner).Fits {} reads →
    handledFrames ((AlignedParser.strategy owner).run {} reads).2.log =
        handledFrames ((FrameLengthParser.strategy owner room).run {} reads).2.log ∧
      1 ≤ ((AlignedParser.strategy owner).run {} reads).2.getReadBuffer

section Agreement

variable {owner : Owner} {all : List Bytes}

/-- What plain splitting hands over. -/
theorem FrameLengthParser.handledFrames_run (grants : owner.Grants) (returns : owner.Returns)
    (room : FrameLengthParser.QueueRoom) (reads : List Bytes) :
    handledFrames ((FrameLengthParser.strategy owner room).run {} reads).2.log =
      (frames.split reads.flatten).1 := by
  have inv := (FrameLengthParser.strategy owner room).run_always
    (fun p => Sync p ∧ frames.next p.readBufQueue = none)
    (fun p bytes kept => by
      obtain ⟨sync, stuck, returned⟩ := sync_readDataAvailable grants kept.1 bytes
      exact ⟨sync, stuck (returned returns)⟩)
    ⟨sync_init, rfl⟩ reads
  have stream := (FrameLengthParser.strategy owner room).run_stream
    (fun p => receivedBytes p.log) (receivedBytes_readDataAvailable owner) {} reads
  have split := frames.split_encodeAll inv.1.valid inv.2
  rw [← inv.1.stream, stream] at split
  exact congrArg Prod.fst split.symm

theorem agreesOn_of_filled (grants : owner.Grants) (returns : owner.Returns)
    (room : FrameLengthParser.QueueRoom) (wellFormed : ∀ frame ∈ all, WellFormed frame)
    (filled : ∀ frame ∈ all, NoEmptySection frame) :
    AgreesOn owner room (frames.encodeAll all) := by
  intro reads some' within fits
  obtain ⟨reading, received⟩ := (AlignedParser.reading_init all).run returns wellFormed filled
    some' (by simpa using within) fits
  have split := reading.split wellFormed
  rw [received] at split
  refine ⟨?_, reading.getReadBuffer⟩
  rw [FrameLengthParser.handledFrames_run grants returns]
  exact split.symm

/-- A frame on which the parser fails makes it disagree, whatever comes before. -/
theorem not_agreesOn_of_fails (grants : owner.Grants) (returns : owner.Returns)
    (room : FrameLengthParser.QueueRoom) {done rest : List Bytes} {frame : Bytes}
    (wellFormed : ∀ frame ∈ done, WellFormed frame)
    (filled : ∀ frame ∈ done, NoEmptySection frame) (encodable : frame.length < 2 ^ 24)
    (fails : ∀ p, AlignedParser.Fresh p → AlignedParser.Fails owner p frame) :
    ¬ AgreesOn owner room (frames.encodeAll (done ++ frame :: rest)) := by
  intro agrees
  -- the frames in front are read a byte at a time
  obtain ⟨first, some', flat, fits⟩ : ∃ first : List Bytes, (∀ bytes ∈ first, bytes ≠ []) ∧
      first.flatten = frames.encodeAll done ∧
      (AlignedParser.strategy owner).Fits {} first := by
    refine ⟨(frames.encodeAll done).map fun b => [b], ?_, ?_, ?_⟩
    · intro bytes member
      obtain ⟨b, -, rfl⟩ := List.mem_map.mp member
      exact List.cons_ne_nil b []
    · rw [← List.flatMap_def, List.flatMap_singleton']
    · exact (AlignedParser.reading_init done).fits_bytes returns wellFormed filled (by simp)
  have within : receivedBytes ({} : AlignedParser).log ++ first.flatten <+:
      frames.encodeAll done := by
    rw [flat]
    exact List.prefix_refl _
  obtain ⟨reading, received⟩ :=
    (AlignedParser.reading_init done).run returns wellFormed filled some' within fits
  rw [flat] at received
  obtain ⟨fresh, handled⟩ := reading.fresh_of_all wellFormed received
  obtain ⟨reads, moreSome, pre, moreFits, bad⟩ := fails _ fresh
  -- the stream up to there is in front of the whole stream
  have flats : (first ++ reads).flatten = frames.encodeAll done ++ reads.flatten := by
    rw [List.flatten_append, flat]
  have whole : (first ++ reads).flatten <+: frames.encodeAll (done ++ frame :: rest) := by
    rw [flats, frames.encodeAll_append, List.prefix_append_right_inj, frames.encodeAll_cons]
    exact pre.trans (List.prefix_append _ _)
  have allSome : ∀ bytes ∈ first ++ reads, bytes ≠ [] := by
    intro bytes member
    rcases List.mem_append.mp member with member | member
    · exact some' bytes member
    · exact moreSome bytes member
  obtain ⟨same, offered⟩ := agrees (first ++ reads) allSome whole
    ((ParserStrategy.fits_append _ _ _ _).mpr ⟨fits, moreFits⟩)
  rw [ParserStrategy.run_append] at same offered
  rcases bad with stuck | ⟨short, early⟩
  · omega
  · have stuck := AlignedParser.next_eq_none_of_prefix encodable pre short
    rw [FrameLengthParser.handledFrames_run grants returns, flats, frames.split_encodeAll
      (fun b member => (wellFormed b member).encodable) stuck] at same
    exact early (same.trans handled.symm)

/-- On a stream of well-formed frames, `AlignedParserStrategy` agrees with plain splitting if
and only if every section that it waits for has a byte, cancel frames have no more than a
header, and all flags are ones that there are. -/
theorem agreesOn_iff (owner : Owner) (grants : owner.Grants) (returns : owner.Returns)
    (room : FrameLengthParser.QueueRoom) (all : List Bytes)
    (wellFormed : ∀ frame ∈ all, WellFormed frame) :
    AgreesOn owner room (frames.encodeAll all) ↔ ∀ frame ∈ all, NoEmptySection frame := by
  constructor
  · intro agrees
    -- the first frame on which the parser fails, if there is one
    cases found : all.find? fun frame => !decide (NoEmptySection frame) with
    | none => simpa using found
    | some frame =>
      obtain ⟨bad, done, rest, rfl, filled⟩ := List.find?_eq_some_iff_append.mp found
      have bad : ¬ NoEmptySection frame := by simpa using bad
      have wf := wellFormed frame (by simp)
      refine absurd agrees (not_agreesOn_of_fails grants returns room
        (fun frame member => wellFormed frame (by simp [member])) ?_ wf.encodable
        fun p fresh => fresh.fails returns wf bad)
      intro frame member
      simpa using filled frame member
  · exact agreesOn_of_filled grants returns room wellFormed

end Agreement

/-- A payload of a stream id, a type with flags and one byte. -/
theorem agreesOn_payload : let owner : Owner := ⟨fun _ _ => true, fun _ _ => true⟩
    let room : FrameLengthParser.QueueRoom :=
      ⟨fun _ => 0, fun _ min _ => min, fun _ _ _ => Nat.le_refl _⟩
    AgreesOn owner room (frames.encodeAll [[0, 0, 0, 1, 0x28, 0x20, 7]]) := by
  intro owner room
  have wellFormed : ∀ frame ∈ [[0, 0, 0, 1, 0x28, 0x20, 7]], WellFormed frame := by
    intro frame member
    rw [List.mem_singleton.mp member]
    exact ⟨by decide, by decide, ⟨.payload, by decide +kernel, by decide⟩,
      fun _ flag => absurd flag (by decide +kernel)⟩
  refine (agreesOn_iff owner (fun _ _ => rfl) (fun _ _ => rfl) room _ wellFormed).mpr ?_
  decide +kernel

/-- A payload that is complete and has neither metadata nor data: the parser waits for its
data and offers no room for it. -/
theorem empty_payload_not_read : let owner : Owner := ⟨fun _ _ => true, fun _ _ => true⟩
    let room : FrameLengthParser.QueueRoom :=
      ⟨fun _ => 0, fun _ min _ => min, fun _ _ _ => Nat.le_refl _⟩
    let frame : Bytes := [0, 0, 0, 1, 0x28, 0x40]
    WellFormed frame ∧ ¬ AgreesOn owner room (frames.encodeAll [frame]) := by
  intro owner room frame
  refine ⟨⟨by decide, by decide, ⟨.payload, by decide +kernel, by decide⟩,
    fun _ flag => absurd flag (by decide +kernel)⟩, fun agrees => ?_⟩
  obtain ⟨-, offered⟩ := agrees [encodeFrame frame] (by decide +kernel) (by decide +kernel)
    (by decide +kernel)
  exact absurd offered (by decide +kernel)

end FbThrift.Rocket
