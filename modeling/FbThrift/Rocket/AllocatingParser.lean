import FbThrift.Rocket.Frame

/-!
# AllocatingParserStrategy

The parser keeps one buffer.  When the frame in front is complete it copies what follows
into a new buffer, sized for the next frame as far as its length is known already, and
hands the old buffer over.  Only the bytes written to the buffer are kept here: `size_` is
their number.
-/

namespace FbThrift.Rocket

structure AllocatingParser where
  minBufferSize : Nat
  /-- Whether `buffer_` points to a buffer. -/
  allocated : Bool := false
  buffer : Bytes := []
  currentBufferSize : Nat := 0
  frameLength : Nat := 0
  frameLengthAndFieldSize : Nat := 0
  log : List Event := []
  fieldSize : frameLength ≠ 0 → frameLengthAndFieldSize = frameLength + 3 := by simp

namespace AllocatingParser

def size (p : AllocatingParser) : Nat := p.buffer.length

/-- The room behind the bytes written, after the buffer was allocated. -/
def getReadBuffer (p : AllocatingParser) : Nat × AllocatingParser :=
  let q := if p.allocated then p
    else { p with allocated := true, currentBufferSize := p.minBufferSize }
  (q.currentBufferSize - q.size, q)

/-! ## The read loop -/

/-- The caller has seen that the field is in the buffer. -/
def computeFrameLength (p : AllocatingParser) (offset : Nat) : Nat :=
  (readFrameOrMetadataSize (p.buffer.drop offset)).getD 0

def setFrameLength (p : AllocatingParser) (frameLength : Nat) : AllocatingParser :=
  { p with
    frameLength := frameLength
    frameLengthAndFieldSize := frameLength + kBytesForFrameOrMetadataLength
    fieldSize := fun _ => rfl }

def incMemoryUsage (owner : Owner) (p : AllocatingParser) (memSize : Nat) :
    Bool × AllocatingParser :=
  let granted := owner.incMemoryUsage p.log memSize
  (granted, { p with log := p.log ++ [.incMemoryUsage memSize granted] })

/-- A refused charge leaves the buffer as it is, and the caller goes on. -/
def tryResize (owner : Owner) (p : AllocatingParser) : AllocatingParser :=
  match p.incMemoryUsage owner p.frameLengthAndFieldSize with
  | (false, q) => q
  | (true, q) =>
    if q.currentBufferSize < q.frameLengthAndFieldSize then
      { q with currentBufferSize := q.frameLengthAndFieldSize }
    else q

/-- The part of a turn for a frame whose length is not known. -/
def startFrame (owner : Owner) (p : AllocatingParser) : AllocatingParser :=
  if p.frameLength = 0 then (p.setFrameLength (p.computeFrameLength 0)).tryResize owner
  else p

/-- What follows the frame is moved to a new buffer, with `nextFrameLength` when the length
of the next frame is known; the frame is handed over and then released. -/
def handFrame (owner : Owner) (p : AllocatingParser) (nextFrameLength : Option Nat) :
    Turn AllocatingParser :=
  let excess := p.buffer.drop p.frameLengthAndFieldSize
  let next := nextFrameLength.getD 0
  let nextFrameLengthAndFieldSize :=
    (nextFrameLength.map (· + kBytesForFrameOrMetadataLength)).getD 0
  let frame := (p.buffer.take p.frameLengthAndFieldSize).drop kBytesForFrameOrMetadataLength
  let returned := owner.handleFrame p.log frame
  let q : AllocatingParser :=
    { p with
      buffer := excess
      currentBufferSize := max (max excess.length p.minBufferSize) nextFrameLengthAndFieldSize
      frameLength := next
      frameLengthAndFieldSize := nextFrameLengthAndFieldSize
      log := p.log ++ [.handleFrame frame returned]
      fieldSize := by
        intro busy
        cases nextFrameLength with
        | none => exact absurd rfl busy
        | some n => rfl }
  if returned then
    .again { q with log := q.log ++ [.decMemoryUsage p.frameLengthAndFieldSize] }
  else .threw q

/-- The part of a turn for a frame whose length is known. -/
def finishFrame (owner : Owner) (p : AllocatingParser) : Turn AllocatingParser :=
  if p.size < p.frameLengthAndFieldSize then .stop p
  else if kBytesForFrameOrMetadataLength ≤ p.size - p.frameLengthAndFieldSize then
    let nextFrameLength := p.computeFrameLength p.frameLengthAndFieldSize
    match p.incMemoryUsage owner (nextFrameLength + kBytesForFrameOrMetadataLength) with
    | (false, q) => .stop q
    | (true, q) => q.handFrame owner (some nextFrameLength)
  else p.handFrame owner none

def readTurn (owner : Owner) (p : AllocatingParser) : Turn AllocatingParser :=
  if p.size < kBytesForFrameOrMetadataLength then .stop p
  else (p.startFrame owner).finishFrame owner

/-! ## What a turn does -/

/-- The states in which a turn looks for the end of the frame. -/
inductive Begun (owner : Owner) (p : AllocatingParser) : AllocatingParser → Prop where
  | known : p.frameLength ≠ 0 → Begun owner p p
  | charged {n : Nat} : p.frameLength = 0 → readFrameOrMetadataSize p.buffer = some n →
      Begun owner p ((p.setFrameLength n).tryResize owner)

theorem readTurn_cases (owner : Owner) (p : AllocatingParser) :
    (p.size < 3 ∧ p.readTurn owner = .stop p) ∨
    (∃ q, 3 ≤ p.size ∧ Begun owner p q ∧ p.readTurn owner = q.finishFrame owner) := by
  by_cases short : p.size < 3
  · exact .inl ⟨short, by simp [readTurn, short]⟩
  · refine .inr ⟨p.startFrame owner, by omega, ?_, by simp [readTurn, short]⟩
    unfold startFrame
    split
    next idle =>
      cases read : readFrameOrMetadataSize p.buffer with
      | none => exact absurd (readFrameOrMetadataSize_eq_none.mp read) short
      | some n =>
        have same : p.computeFrameLength 0 = n := by simp [computeFrameLength, read]
        rw [same]
        exact .charged idle read
    next busy => exact .known busy

/-- The state in which a complete frame is handed over, and the length of the next frame if
it is in the buffer. -/
inductive Ready (owner : Owner) (p : AllocatingParser) : AllocatingParser → Option Nat → Prop
    where
  | last : p.size - p.frameLengthAndFieldSize < 3 → Ready owner p p none
  | next {n : Nat} :
      readFrameOrMetadataSize (p.buffer.drop p.frameLengthAndFieldSize) = some n →
      owner.incMemoryUsage p.log (n + 3) = true →
      Ready owner p { p with log := p.log ++ [.incMemoryUsage (n + 3) true] } (some n)

theorem finishFrame_cases (owner : Owner) (p : AllocatingParser) :
    (p.size < p.frameLengthAndFieldSize ∧ p.finishFrame owner = .stop p) ∨
    (∃ n, owner.incMemoryUsage p.log n = false ∧
      p.finishFrame owner = .stop { p with log := p.log ++ [.incMemoryUsage n false] }) ∨
    (∃ q next, p.frameLengthAndFieldSize ≤ p.size ∧ Ready owner p q next ∧
      p.finishFrame owner = q.handFrame owner next) := by
  by_cases waits : p.size < p.frameLengthAndFieldSize
  · exact .inl ⟨waits, by simp [finishFrame, waits]⟩
  · refine .inr ?_
    by_cases more : 3 ≤ p.size - p.frameLengthAndFieldSize
    · cases read : readFrameOrMetadataSize (p.buffer.drop p.frameLengthAndFieldSize) with
      | none =>
        have short := readFrameOrMetadataSize_eq_none.mp read
        rw [List.length_drop] at short
        exact absurd more (by unfold size; omega)
      | some n =>
        have same : p.computeFrameLength p.frameLengthAndFieldSize = n := by
          simp [computeFrameLength, read]
        cases granted : owner.incMemoryUsage p.log (n + 3) with
        | false =>
          exact .inl ⟨n + 3, granted, by
            simp [finishFrame, incMemoryUsage, waits, more, same, granted]⟩
        | true =>
          refine .inr ⟨_, _, by omega, .next read granted, ?_⟩
          simp [finishFrame, incMemoryUsage, waits, more, same, granted]
    · exact .inr ⟨p, none, by omega, .last (by omega), by simp [finishFrame, waits, more]⟩

/-- `tryResize` charges for the frame; only the size of the buffer changes, and it is large
enough when the charge was granted. -/
theorem tryResize_spec (owner : Owner) (p : AllocatingParser) : ∃ room, p.currentBufferSize ≤ room ∧
      (owner.incMemoryUsage p.log p.frameLengthAndFieldSize = true →
        p.frameLengthAndFieldSize ≤ room) ∧
      p.tryResize owner = { p with
        currentBufferSize := room
        log := p.log ++ [.incMemoryUsage p.frameLengthAndFieldSize
          (owner.incMemoryUsage p.log p.frameLengthAndFieldSize)] } := by
  unfold tryResize incMemoryUsage
  cases granted : owner.incMemoryUsage p.log p.frameLengthAndFieldSize with
  | false => exact ⟨p.currentBufferSize, Nat.le_refl _, nofun, by simp⟩
  | true =>
    by_cases small : p.currentBufferSize < p.frameLengthAndFieldSize
    · exact ⟨p.frameLengthAndFieldSize, by omega, fun _ => Nat.le_refl _, by simp [small]⟩
    · exact ⟨p.currentBufferSize, Nat.le_refl _, fun _ => by omega, by simp [small]⟩

theorem Begun.kept {owner : Owner} {p q : AllocatingParser} (begun : Begun owner p q) :
    q.buffer = p.buffer ∧ q.frameLengthAndFieldSize = q.frameLength + 3 := by
  cases begun with
  | known busy => exact ⟨rfl, p.fieldSize busy⟩
  | @charged n idle read =>
    obtain ⟨room, -, -, same⟩ := (p.setFrameLength n).tryResize_spec owner
    rw [same]
    exact ⟨rfl, rfl⟩

theorem buffer_handFrame (owner : Owner) (p : AllocatingParser) (next : Option Nat) :
    (p.handFrame owner next).state.buffer = p.buffer.drop p.frameLengthAndFieldSize := by
  unfold handFrame
  simp only
  split <;> rfl

theorem readTurn_shrinks (owner : Owner) (p q : AllocatingParser)
    (turn : p.readTurn owner = .again q) : q.buffer.length < p.buffer.length := by
  rcases readTurn_cases owner p with ⟨-, other⟩ | ⟨r, size, begun, other⟩
  all_goals rw [other] at turn
  · cases turn
  · obtain ⟨kept, field⟩ := begun.kept
    rcases finishFrame_cases owner r with
      ⟨-, other⟩ | ⟨n, -, other⟩ | ⟨t, next, complete, ready, other⟩
    all_goals rw [other] at turn
    · cases turn
    · cases turn
    · have rest := t.buffer_handFrame owner next
      rw [turn] at rest
      have same : t.buffer = r.buffer ∧ t.frameLengthAndFieldSize = r.frameLengthAndFieldSize := by
        cases ready <;> exact ⟨rfl, rfl⟩
      simp only [Turn.state, same, kept] at rest
      unfold AllocatingParser.size at size
      rw [rest, List.length_drop]
      omega

def readDataAvailable (owner : Owner) (p : AllocatingParser) (bytes : Bytes) :
    Bool × AllocatingParser :=
  iterate (readTurn owner) (fun p => p.buffer.length) (readTurn_shrinks owner)
    { p with buffer := p.buffer ++ bytes, log := p.log ++ [.received bytes] }

/-- The strategy as the transport drives it. -/
def strategy (owner : Owner) : ParserStrategy AllocatingParser where
  getReadBuffer := getReadBuffer
  readDataAvailable := readDataAvailable owner

/-- The destructor only frees the buffer. -/
def destroy (p : AllocatingParser) : List Event := p.log

/-- Only the transport brings bytes in. -/
theorem receivedBytes_readTurn (owner : Owner) (p : AllocatingParser) :
    receivedBytes (p.readTurn owner).state.log = receivedBytes p.log := by
  rcases readTurn_cases owner p with ⟨-, turn⟩ | ⟨q, -, begun, turn⟩
  all_goals rw [turn]
  · rfl
  · have kept : receivedBytes q.log = receivedBytes p.log := by
      cases begun with
      | known => rfl
      | @charged n idle read =>
        obtain ⟨room, -, -, same⟩ := (p.setFrameLength n).tryResize_spec owner
        rw [same]
        simp [setFrameLength, Event.bytes]
    rw [← kept]
    rcases finishFrame_cases owner q with
      ⟨-, turn⟩ | ⟨n, -, turn⟩ | ⟨r, next, -, ready, turn⟩
    all_goals rw [turn]
    · rfl
    · simp [Turn.state, Event.bytes]
    · have kept : receivedBytes r.log = receivedBytes q.log := by
        cases ready <;> simp [Event.bytes]
      rw [← kept]
      unfold handFrame
      simp only
      split <;> simp [Turn.state, Event.bytes]

theorem receivedBytes_readDataAvailable (owner : Owner) (p : AllocatingParser) (bytes : Bytes) :
    receivedBytes (p.readDataAvailable owner bytes).2.log = receivedBytes p.log ++ bytes := by
  have kept := fun (q : AllocatingParser)
      (same : receivedBytes q.log = receivedBytes p.log ++ bytes) =>
    (receivedBytes_readTurn owner q).trans same
  exact iterate_invariant kept (by simp [Event.bytes])

/-! ## The buffer and the stream -/

variable {owner : Owner} {p q : AllocatingParser}

/-- The buffer is what follows the frames handed over, and there is room for it and for the
smallest buffer. -/
structure Tracks (p : AllocatingParser) : Prop where
  present : p.allocated = true
  minimum : 3 ≤ p.minBufferSize
  stream : receivedBytes p.log = frames.encodeAll (handledFrames p.log) ++ p.buffer
  valid : ∀ frame ∈ handledFrames p.log, frames.Valid frame
  fits : p.size ≤ p.currentBufferSize
  least : p.minBufferSize ≤ p.currentBufferSize

/-- The length of the frame in front is known, and there is room for all of it. -/
structure Knows (p : AllocatingParser) : Prop where
  read : readFrameOrMetadataSize p.buffer = some p.frameLength
  field : p.frameLengthAndFieldSize = p.frameLength + 3
  room : p.frameLengthAndFieldSize ≤ p.currentBufferSize

/-- Between turns, as long as every charge is granted. -/
structure Sync (p : AllocatingParser) : Prop extends Tracks p where
  known : p.frameLength ≠ 0 → Knows p

theorem Begun.sync (grants : owner.Grants) (begun : Begun owner p q) (sync : Sync p) :
    Tracks q ∧ Knows q := by
  cases begun with
  | known busy => exact ⟨sync.toTracks, sync.known busy⟩
  | @charged n idle read =>
    obtain ⟨room, grows, enough, same⟩ := (p.setFrameLength n).tryResize_spec owner
    have enough := enough (grants _ _)
    have fits := sync.fits
    have least := sync.least
    simp only [setFrameLength] at grows enough
    rw [same]
    refine ⟨⟨sync.present, sync.minimum, ?_, ?_, ?_, ?_⟩, ⟨read, rfl, enough⟩⟩
    · simp [setFrameLength, Event.bytes, Event.frames, sync.stream]
    · simpa [setFrameLength, Event.frames] using sync.valid
    · exact Nat.le_trans fits grows
    · exact Nat.le_trans least grows

theorem next_of_knows (knows : Knows p) (complete : p.frameLengthAndFieldSize ≤ p.size) :
    frames.next p.buffer = some ((p.buffer.take p.frameLengthAndFieldSize).drop 3,
        p.buffer.drop p.frameLengthAndFieldSize) := by
  have field := knows.field
  have enough : p.frameLength + 3 ≤ p.buffer.length := by
    rw [← field]
    exact complete
  change nextFrame p.buffer = _
  simp only [nextFrame, knows.read, kBytesForFrameOrMetadataLength, enough, if_true]
  rw [field, List.drop_take, List.drop_drop, Nat.add_sub_cancel, Nat.add_comm 3]

theorem sync_handFrame {next : Option Nat} (tracks : Tracks p) (knows : Knows p)
    (complete : p.frameLengthAndFieldSize ≤ p.size)
    (known : ∀ n, next = some n →
      readFrameOrMetadataSize (p.buffer.drop p.frameLengthAndFieldSize) = some n) :
    Sync (p.handFrame owner next).state := by
  obtain ⟨valid, same⟩ := frames.of_next (next_of_knows knows complete)
  have stream := tracks.stream
  rw [same] at stream
  unfold handFrame
  simp only
  split
  all_goals
    refine ⟨⟨tracks.present, tracks.minimum, ?_, ?_, ?_, ?_⟩, ?_⟩
    · simp [Turn.state, Event.bytes, Event.frames, stream, frames]
    · intro frame member
      simp only [Turn.state, handledFrames_append, handledFrames_cons, handledFrames_nil,
        Event.frames, List.append_nil, List.mem_append, List.mem_singleton] at member
      rcases member with member | rfl
      · exact tracks.valid frame member
      · exact valid
    · simp only [Turn.state, AllocatingParser.size]
      omega
    · simp only [Turn.state]
      omega
    · intro busy
      cases next with
      | none => exact absurd rfl busy
      | some n =>
        refine ⟨known n rfl, rfl, ?_⟩
        simp [Turn.state]

theorem Ready.sync {next : Option Nat} (ready : Ready owner p q next) (tracks : Tracks p)
    (knows : Knows p) :
    Tracks q ∧ Knows q ∧ q.size = p.size ∧ q.frameLengthAndFieldSize = p.frameLengthAndFieldSize ∧
      ∀ n, next = some n →
        readFrameOrMetadataSize (q.buffer.drop q.frameLengthAndFieldSize) = some n := by
  cases ready with
  | last less => exact ⟨tracks, knows, rfl, rfl, nofun⟩
  | next read granted =>
    refine ⟨⟨tracks.present, tracks.minimum, ?_, ?_, tracks.fits, tracks.least⟩, ⟨knows.read, knows.field, knows.room⟩,
      rfl, rfl, ?_⟩
    · simp [Event.bytes, Event.frames, tracks.stream]
    · simpa [Event.frames] using tracks.valid
    · intro n same
      cases same
      exact read

/-- Where the parser waits for more bytes: for a length field, or for the end of a frame
whose length it knows. -/
def Waits (p : AllocatingParser) : Prop :=
  p.size < 3 ∨ Knows p ∧ p.size < p.frameLengthAndFieldSize

theorem Waits.next_eq_none (waits : p.Waits) : frames.next p.buffer = none := by
  rcases waits with short | ⟨knows, less⟩
  · exact nextFrame_eq_none.mpr (.inl short)
  · rw [knows.field] at less
    exact nextFrame_eq_none.mpr (.inr ⟨_, knows.read, less⟩)

theorem sync_readTurn (grants : owner.Grants) (sync : Sync p) : Sync (p.readTurn owner).state ∧
      (∀ q, p.readTurn owner = .stop q → q.Waits) ∧
      ∀ q, p.readTurn owner = .threw q → ¬ owner.Returns := by
  rcases readTurn_cases owner p with ⟨short, turn⟩ | ⟨r, -, begun, turn⟩
  · rw [turn]
    refine ⟨sync, fun q stopped => ?_, nofun⟩
    cases stopped
    exact .inl short
  · obtain ⟨tracks, knows⟩ := begun.sync grants sync
    rw [turn]
    rcases finishFrame_cases owner r with
      ⟨less, turn⟩ | ⟨n, refused, -⟩ | ⟨t, next, complete, ready, turn⟩
    · rw [turn]
      refine ⟨⟨tracks, fun _ => knows⟩, fun q stopped => ?_, nofun⟩
      cases stopped
      exact .inr ⟨knows, less⟩
    · rw [grants] at refused
      cases refused
    · obtain ⟨tracks, knows, size, field, read⟩ := ready.sync tracks knows
      rw [turn]
      refine ⟨sync_handFrame tracks knows (by rw [size, field]; exact complete) read, ?_, ?_⟩
      · intro q stopped
        unfold handFrame at stopped
        simp only at stopped
        split at stopped <;> cases stopped
      · intro q threw returns
        unfold handFrame at threw
        simp only [returns _ _, if_true] at threw
        cases threw

/-- The parser before a read: there is no buffer yet, or it is in step with the stream. -/
inductive Between : AllocatingParser → Prop where
  | fresh {minBufferSize : Nat} : 3 ≤ minBufferSize → Between { minBufferSize := minBufferSize }
  | sync {p : AllocatingParser} : Sync p → Between p

theorem Between.getReadBuffer (between : Between p) : Sync p.getReadBuffer.2 := by
  cases between with
  | fresh minimum =>
    refine ⟨⟨rfl, minimum, rfl, ?_, Nat.zero_le _, Nat.le_refl _⟩, ?_⟩
    · simp [AllocatingParser.getReadBuffer]
    · simp [AllocatingParser.getReadBuffer]
  | sync sync =>
    simp only [AllocatingParser.getReadBuffer, sync.present, if_true]
    exact sync

/-- A parser that waits for bytes has room for one. -/
theorem Waits.getReadBuffer (waits : p.Waits) (sync : Sync p) : 1 ≤ p.getReadBuffer.1 := by
  have minimum := sync.minimum
  have least := sync.least
  simp only [AllocatingParser.getReadBuffer, sync.present, if_true]
  rcases waits with short | ⟨knows, less⟩
  · omega
  · have room := knows.room
    omega

@[simp] theorem getReadBuffer_fst (p : AllocatingParser) :
    p.getReadBuffer.1 = p.getReadBuffer.2.currentBufferSize - p.getReadBuffer.2.size := rfl

theorem sync_received {bytes : Bytes} (sync : Sync p)
    (room : p.size + bytes.length ≤ p.currentBufferSize) :
    Sync { p with buffer := p.buffer ++ bytes, log := p.log ++ [.received bytes] } := by
  refine ⟨⟨sync.present, sync.minimum, ?_, ?_, ?_, sync.least⟩, ?_⟩
  · simp [Event.bytes, Event.frames, sync.stream]
  · simpa [Event.frames] using sync.valid
  · simpa [AllocatingParser.size] using room
  · intro busy
    obtain ⟨read, field, room⟩ := sync.known busy
    exact ⟨readFrameOrMetadataSize_append read bytes, field, room⟩

/-- A read keeps the buffer in step with the stream.  One that returns leaves no complete
frame in it, and only the owner throws. -/
theorem sync_readDataAvailable (grants : owner.Grants) {bytes : Bytes} (sync : Sync p)
    (room : p.size + bytes.length ≤ p.currentBufferSize) :
    Sync (p.readDataAvailable owner bytes).2 ∧ ((p.readDataAvailable owner bytes).1 = true →
        (p.readDataAvailable owner bytes).2.Waits) ∧
      (owner.Returns → (p.readDataAvailable owner bytes).1 = true) := by
  obtain ⟨sync, stopped, threw⟩ :=
    iterate_spec (fun _ => sync_readTurn grants) (sync_received sync room)
  refine ⟨sync, stopped, fun returns => ?_⟩
  exact (Bool.not_eq_false _).mp fun failed => threw failed returns

end AllocatingParser

end FbThrift.Rocket
