import FbThrift.Rocket.Frame

/-!
# FrameLengthParserStrategy

The parser appends what arrives to a queue and drains it: it reads the length of the frame
in front, charges for it, waits until the frame is complete, splits it off and hands it
over.  `tryResize` only reserves room in the queue, so that `drainReadBufQueue<true>` and
`drainReadBufQueue<false>` are one function here.
-/

namespace FbThrift.Rocket

structure FrameLengthParser where
  size : Nat := 0
  frameLength : Nat := 0
  frameLengthAndFieldSize : Nat := 0
  readBufQueue : Bytes := []
  log : List Event := []

namespace FrameLengthParser

/-- The default, which `Parser` does not change. -/
def minBufferSize : Nat := 256

def maxBufferSize : Nat := 4096

/-! ## The drain loop -/

/-- The cursor throws when the queue has no complete length field. -/
def computeFrameLength (p : FrameLengthParser) : Option FrameLengthParser :=
  (readFrameOrMetadataSize p.readBufQueue).map fun frameLength =>
    { p with
      frameLength := frameLength
      frameLengthAndFieldSize := frameLength + kBytesForFrameOrMetadataLength }

def resetFrameLength (p : FrameLengthParser) : FrameLengthParser :=
  { p with
    log := p.log ++ [.decMemoryUsage p.frameLengthAndFieldSize]
    size := p.size - p.frameLengthAndFieldSize
    frameLength := 0
    frameLengthAndFieldSize := 0 }

/-- The charge for the frame whose length was just read. -/
def charge (owner : Owner) (p : FrameLengthParser) : Turn FrameLengthParser :=
  let granted := owner.incMemoryUsage p.log p.frameLengthAndFieldSize
  let log := p.log ++ [.incMemoryUsage p.frameLengthAndFieldSize granted]
  if granted then .again { p with log := log }
  else .stop { p with log := log, frameLengthAndFieldSize := 0 }

/-- The part of a turn for a frame whose length is not known. -/
def startFrame (owner : Owner) (p : FrameLengthParser) : Turn FrameLengthParser :=
  if p.frameLength = 0 then
    match p.computeFrameLength with
    | none => .threw p
    | some q => q.charge owner
  else .again p

/-- The first frame is split off behind its length field and handed over; it is released
whether `handleFrame` returns or throws. -/
def handFrame (owner : Owner) (p : FrameLengthParser) : Bool × FrameLengthParser :=
  let queue := p.readBufQueue.drop kBytesForFrameOrMetadataLength
  let frame := queue.take p.frameLength
  let returned := owner.handleFrame p.log frame
  (returned, resetFrameLength
    { p with
      readBufQueue := queue.drop p.frameLength
      log := p.log ++ [.handleFrame frame returned] })

/-- The queue throws when it has fewer bytes than are taken off it, and keeps none. -/
def takeFrame (owner : Owner) (p : FrameLengthParser) : Turn FrameLengthParser :=
  if p.size < p.frameLengthAndFieldSize then .stop p
  else if p.readBufQueue.length < kBytesForFrameOrMetadataLength + p.frameLength then
    .threw { p with readBufQueue := [] }
  else
    match p.handFrame owner with
    | (true, q) => .again q
    | (false, q) => .threw q

def drainTurn (owner : Owner) (p : FrameLengthParser) : Turn FrameLengthParser :=
  if p.size < kBytesForFrameOrMetadataLength then .stop p
  else
    match p.startFrame owner with
    | .again q => q.takeFrame owner
    | turn => turn

/-! ## What a turn does -/

/-- The states in which a turn looks for the end of the frame. -/
inductive Begun (owner : Owner) (p : FrameLengthParser) : FrameLengthParser → Prop where
  | known : p.frameLength ≠ 0 → Begun owner p p
  | charged {n : Nat} : p.frameLength = 0 → readFrameOrMetadataSize p.readBufQueue = some n →
      owner.incMemoryUsage p.log (n + 3) = true →
      Begun owner p
        { p with
          frameLength := n
          frameLengthAndFieldSize := n + 3
          log := p.log ++ [.incMemoryUsage (n + 3) true] }

theorem drainTurn_cases (owner : Owner) (p : FrameLengthParser) :
    (p.size < 3 ∧ p.drainTurn owner = .stop p) ∨
    (3 ≤ p.size ∧ p.readBufQueue.length < 3 ∧ p.drainTurn owner = .threw p) ∨
    (∃ n, p.frameLength = 0 ∧ owner.incMemoryUsage p.log (n + 3) = false ∧ p.drainTurn owner = .stop
        { p with
          frameLength := n
          frameLengthAndFieldSize := 0
          log := p.log ++ [.incMemoryUsage (n + 3) false] }) ∨
    (∃ q, 3 ≤ p.size ∧ Begun owner p q ∧ p.drainTurn owner = q.takeFrame owner) := by
  by_cases short : p.size < 3
  · exact .inl ⟨short, by simp [drainTurn, short]⟩
  · by_cases idle : p.frameLength = 0
    · cases read : readFrameOrMetadataSize p.readBufQueue with
      | none =>
        refine .inr (.inl ⟨by omega, readFrameOrMetadataSize_eq_none.mp read, ?_⟩)
        simp [drainTurn, startFrame, computeFrameLength, short, idle, read]
      | some n =>
        cases granted : owner.incMemoryUsage p.log (n + 3) with
        | false =>
          refine .inr (.inr (.inl ⟨n, idle, granted, ?_⟩))
          simp [drainTurn, startFrame, computeFrameLength, charge, short, idle, read, granted]
        | true =>
          refine .inr (.inr (.inr ⟨_, by omega, .charged idle read granted, ?_⟩))
          simp [drainTurn, startFrame, computeFrameLength, charge, short, idle, read, granted]
    · refine .inr (.inr (.inr ⟨p, by omega, .known idle, ?_⟩))
      simp [drainTurn, startFrame, short, idle]

theorem takeFrame_cases (owner : Owner) (p : FrameLengthParser) :
    (p.size < p.frameLengthAndFieldSize ∧ p.takeFrame owner = .stop p) ∨
    (p.frameLengthAndFieldSize ≤ p.size ∧ p.readBufQueue.length < 3 + p.frameLength ∧
      p.takeFrame owner = .threw { p with readBufQueue := [] }) ∨
    (p.frameLengthAndFieldSize ≤ p.size ∧ 3 + p.frameLength ≤ p.readBufQueue.length ∧
      (p.takeFrame owner = .again (p.handFrame owner).2 ∨
        p.takeFrame owner = .threw (p.handFrame owner).2 ∧ (p.handFrame owner).1 = false)) := by
  by_cases partial' : p.size < p.frameLengthAndFieldSize
  · exact .inl ⟨partial', by simp [takeFrame, partial']⟩
  · by_cases short : p.readBufQueue.length < 3 + p.frameLength
    · exact .inr (.inl ⟨by omega, short, by simp [takeFrame, partial', short]⟩)
    · refine .inr (.inr ⟨by omega, by omega, ?_⟩)
      unfold takeFrame
      rw [if_neg partial', if_neg short]
      rcases p.handFrame owner with ⟨_ | _, q⟩
      · exact .inr ⟨rfl, rfl⟩
      · exact .inl rfl

theorem drainTurn_shrinks (owner : Owner) (p q : FrameLengthParser)
    (turn : p.drainTurn owner = .again q) :
    q.readBufQueue.length < p.readBufQueue.length := by
  rcases drainTurn_cases owner p with
    ⟨-, other⟩ | ⟨-, -, other⟩ | ⟨n, -, -, other⟩ | ⟨r, -, begun, other⟩
  all_goals rw [other] at turn
  · cases turn
  · cases turn
  · cases turn
  · have kept : r.readBufQueue = p.readBufQueue := by
      cases begun <;> rfl
    rcases takeFrame_cases owner r with
      ⟨-, other⟩ | ⟨-, -, other⟩ | ⟨-, enough, other | ⟨other, -⟩⟩
    all_goals rw [other] at turn; cases turn
    simp only [handFrame, resetFrameLength, List.length_drop, kBytesForFrameOrMetadataLength,
      ← kept]
    omega

def drainReadBufQueue (owner : Owner) (p : FrameLengthParser) : Bool × FrameLengthParser :=
  iterate (drainTurn owner) (fun p => p.readBufQueue.length) (drainTurn_shrinks owner) p

/-! ## Reads -/

def readDataAvailable (owner : Owner) (p : FrameLengthParser) (bytes : Bytes) :
    Bool × FrameLengthParser :=
  drainReadBufQueue owner
    { p with
      size := p.size + bytes.length
      readBufQueue := p.readBufQueue ++ bytes
      log := p.log ++ [.received bytes] }

/-- A buffer that the transport hands over whole is queued behind the others. -/
def readBufferAvailable (owner : Owner) (p : FrameLengthParser) (buf : Bytes) :
    Bool × FrameLengthParser :=
  p.readDataAvailable owner buf

/-- The room in a read buffer queue: `tailroom` behind its last byte, and what
`preallocate min max` returns, which is at least `min` bytes. -/
structure QueueRoom where
  tailroom : FrameLengthParser → Nat
  preallocate : FrameLengthParser → Nat → Nat → Nat
  preallocate_ge : ∀ p min max, min ≤ preallocate p min max

def getReadBuffer (room : QueueRoom) (p : FrameLengthParser) : Nat :=
  if room.tailroom p < kBytesForFrameOrMetadataLength then
    room.preallocate p minBufferSize maxBufferSize
  else room.tailroom p

/-- The strategy as the transport drives it. -/
def strategy (owner : Owner) (room : QueueRoom) : ParserStrategy FrameLengthParser where
  getReadBuffer p := (p.getReadBuffer room, p)
  readDataAvailable := readDataAvailable owner

/-- The destructor releases the frame that is not complete. -/
def destroy (p : FrameLengthParser) : List Event :=
  if p.frameLengthAndFieldSize ≠ 0 then p.log ++ [.decMemoryUsage p.frameLengthAndFieldSize]
  else p.log

/-- Only the transport brings bytes in. -/
theorem receivedBytes_drainTurn (owner : Owner) (p : FrameLengthParser) :
    receivedBytes (p.drainTurn owner).state.log = receivedBytes p.log := by
  rcases drainTurn_cases owner p with
    ⟨-, turn⟩ | ⟨-, -, turn⟩ | ⟨n, -, -, turn⟩ | ⟨q, -, begun, turn⟩
  all_goals rw [turn]
  · rfl
  · rfl
  · simp [Turn.state, Event.bytes]
  · have kept : receivedBytes q.log = receivedBytes p.log := by
      cases begun <;> simp [Event.bytes]
    rw [← kept]
    rcases takeFrame_cases owner q with
      ⟨-, turn⟩ | ⟨-, -, turn⟩ | ⟨-, -, turn | ⟨turn, -⟩⟩
    all_goals rw [turn]
    · rfl
    · rfl
    · simp [Turn.state, handFrame, resetFrameLength, Event.bytes]
    · simp [Turn.state, handFrame, resetFrameLength, Event.bytes]

theorem receivedBytes_readDataAvailable (owner : Owner) (p : FrameLengthParser) (bytes : Bytes) :
    receivedBytes (p.readDataAvailable owner bytes).2.log = receivedBytes p.log ++ bytes := by
  have kept := fun (q : FrameLengthParser)
      (same : receivedBytes q.log = receivedBytes p.log ++ bytes) =>
    (receivedBytes_drainTurn owner q).trans same
  exact iterate_invariant kept (by simp [Event.bytes])

/-! ## The charge -/

variable {owner : Owner} {p q : FrameLengthParser}

/-- What is charged is the frame in front, when its length is known. -/
structure Charged (p : FrameLengthParser) : Prop where
  balance : outstanding p.log = p.frameLengthAndFieldSize
  idle : p.frameLength = 0 → p.frameLengthAndFieldSize = 0

theorem charged_init : Charged {} := ⟨rfl, fun _ => rfl⟩

theorem charged_handFrame (balance : outstanding p.log = p.frameLengthAndFieldSize) :
    Charged (p.handFrame owner).2 := by
  refine ⟨?_, fun _ => rfl⟩
  simp [handFrame, resetFrameLength, Event.charge, balance]

theorem charged_takeFrame (balance : outstanding p.log = p.frameLengthAndFieldSize)
    (idle : p.frameLength = 0 → p.frameLengthAndFieldSize ≤ p.size ∧ 3 ≤ p.readBufQueue.length) :
    Charged (p.takeFrame owner).state := by
  rcases takeFrame_cases owner p with
    ⟨waits, turn⟩ | ⟨-, short, turn⟩ | ⟨-, -, turn | ⟨turn, -⟩⟩
  all_goals rw [turn]
  · exact ⟨balance, fun none => by have := idle none; omega⟩
  · exact ⟨balance, fun (none : p.frameLength = 0) => by have := idle none; omega⟩
  · exact charged_handFrame balance
  · exact charged_handFrame balance

theorem charged_drainTurn (charged : Charged p) : Charged (p.drainTurn owner).state := by
  rcases drainTurn_cases owner p with
    ⟨-, turn⟩ | ⟨-, -, turn⟩ | ⟨n, idle, -, turn⟩ | ⟨q, size, begun, turn⟩
  all_goals rw [turn]
  · exact charged
  · exact charged
  · refine ⟨?_, fun _ => rfl⟩
    simp [Turn.state, Event.charge, charged.balance, charged.idle idle]
  · cases begun with
    | known busy => exact charged_takeFrame charged.balance fun none => absurd none busy
    | charged idle read granted =>
      refine charged_takeFrame ?_ ?_
      · simp [Event.charge, charged.balance, charged.idle idle]
      · intro empty
        simp only at empty ⊢
        have long : ¬ p.readBufQueue.length < 3 := by
          intro short
          rw [readFrameOrMetadataSize_eq_none.mpr short] at read
          cases read
        omega

theorem charged_readDataAvailable (charged : Charged p) (bytes : Bytes) :
    Charged (p.readDataAvailable owner bytes).2 := by
  have start : Charged
      { p with
        size := p.size + bytes.length
        readBufQueue := p.readBufQueue ++ bytes
        log := p.log ++ [.received bytes] } :=
    ⟨by simp [Event.charge, charged.balance], charged.idle⟩
  exact iterate_invariant (fun _ => charged_drainTurn) start

/-! ## The queue and the stream -/

/-- The queue is what follows the frames handed over, and every frame was the only one
charged when it was handed over. -/
structure Tracks (p : FrameLengthParser) : Prop where
  balance : outstanding p.log = p.frameLengthAndFieldSize
  size_eq : p.size = p.readBufQueue.length
  stream : receivedBytes p.log = frames.encodeAll (handledFrames p.log) ++ p.readBufQueue
  valid : ∀ frame ∈ handledFrames p.log, frames.Valid frame
  calls : AtCalls (fun log frame => outstanding log = (3 + frame.length : Nat)) p.log

/-- The length of the frame in front is known. -/
structure Knows (p : FrameLengthParser) : Prop where
  read : readFrameOrMetadataSize p.readBufQueue = some p.frameLength
  fieldSize : p.frameLengthAndFieldSize = p.frameLength + 3

/-- Between turns, as long as every charge is granted. -/
structure Sync (p : FrameLengthParser) : Prop extends Tracks p where
  idle : p.frameLength = 0 → p.frameLengthAndFieldSize = 0
  known : p.frameLength ≠ 0 → Knows p

theorem sync_init : Sync {} where
  balance := rfl
  size_eq := rfl
  stream := rfl
  valid := by simp
  calls := .nil _
  idle _ := rfl
  known busy := absurd rfl busy

theorem sync_handFrame (tracks : Tracks p) (knows : Knows p)
    (enough : p.frameLength + 3 ≤ p.readBufQueue.length) : Sync (p.handFrame owner).2 := by
  have next : frames.next p.readBufQueue = some ((p.readBufQueue.drop 3).take p.frameLength,
        (p.readBufQueue.drop 3).drop p.frameLength) := by
    change nextFrame p.readBufQueue = _
    simp [nextFrame, knows.read, enough]
  obtain ⟨valid, same⟩ := frames.of_next next
  have length : ((p.readBufQueue.drop 3).take p.frameLength).length = p.frameLength := by
    simp only [List.length_take, List.length_drop]
    omega
  refine { charged_handFrame tracks.balance with
    size_eq := ?_, known := fun busy => absurd rfl busy, stream := ?_, valid := ?_, calls := ?_ }
  · simp only [handFrame, resetFrameLength, List.length_drop, kBytesForFrameOrMetadataLength]
    rw [tracks.size_eq, knows.fieldSize]
    omega
  · have stream := tracks.stream
    rw [same] at stream
    simp [handFrame, resetFrameLength, Event.bytes, Event.frames, stream, frames]
  · intro frame member
    simp only [handFrame, resetFrameLength, handledFrames_append, handledFrames_cons,
      handledFrames_nil, Event.frames, List.append_nil, List.mem_append,
      List.mem_singleton] at member
    rcases member with member | rfl
    · exact tracks.valid frame member
    · exact valid
  · refine (tracks.calls.append ?_).append nofun
    intro frame returned same
    cases same
    rw [tracks.balance, knows.fieldSize, length, Nat.add_comm]

/-- A frame whose length is known stays in front until it is complete, and only the owner
throws. -/
theorem sync_takeFrame (tracks : Tracks p) (knows : Knows p)
    (idle : p.frameLength = 0 → 3 ≤ p.size) :
    Sync (p.takeFrame owner).state ∧
      (∀ q, p.takeFrame owner = .stop q → frames.next q.readBufQueue = none) ∧
      ∀ q, p.takeFrame owner = .threw q → ¬ owner.Returns := by
  have size := tracks.size_eq
  have field := knows.fieldSize
  rcases takeFrame_cases owner p with
    ⟨waits, turn⟩ | ⟨enough, short, turn⟩ | ⟨-, enough, turn | ⟨turn, threw⟩⟩
  all_goals rw [turn]
  · refine ⟨⟨tracks, fun (none : p.frameLength = 0) => ?_, fun _ => knows⟩, ?_, nofun⟩
    · have := idle none
      omega
    · intro q stopped
      cases stopped
      exact nextFrame_eq_none.mpr (.inr ⟨p.frameLength, knows.read, by omega⟩)
  · omega
  · exact ⟨sync_handFrame tracks knows (by omega), nofun, nofun⟩
  · refine ⟨sync_handFrame tracks knows (by omega), nofun, fun _ _ returns => ?_⟩
    exact absurd ((returns _ _).symm.trans threw) (by decide)

theorem sync_drainTurn (grants : owner.Grants) (sync : Sync p) : Sync (p.drainTurn owner).state ∧
      (∀ q, p.drainTurn owner = .stop q → frames.next q.readBufQueue = none) ∧
      ∀ q, p.drainTurn owner = .threw q → ¬ owner.Returns := by
  rcases drainTurn_cases owner p with
    ⟨short, turn⟩ | ⟨size, short, -⟩ | ⟨n, idle, refused, -⟩ | ⟨q, size, begun, turn⟩
  · rw [turn]
    refine ⟨sync, fun q stopped => ?_, nofun⟩
    cases stopped
    exact nextFrame_eq_none.mpr (.inl (by rw [← sync.size_eq]; exact short))
  · rw [sync.size_eq] at size
    omega
  · rw [grants] at refused
    cases refused
  · rw [turn]
    cases begun with
    | known busy =>
      exact sync_takeFrame sync.toTracks (sync.known busy) fun none => absurd none busy
    | charged idle read granted =>
      refine sync_takeFrame ?_ ⟨read, rfl⟩ fun _ => size
      refine { sync with balance := ?_, stream := ?_, valid := ?_, calls := ?_ }
      · simp [Event.charge, sync.balance, sync.idle idle]
      · simp [Event.bytes, Event.frames, sync.stream]
      · simpa [Event.frames] using sync.valid
      · exact sync.calls.append nofun

/-- A read keeps the queue in step with the stream.  One that returns leaves no complete
frame in it, and only the owner throws. -/
theorem sync_readDataAvailable (grants : owner.Grants) (sync : Sync p) (bytes : Bytes) :
    Sync (p.readDataAvailable owner bytes).2 ∧ ((p.readDataAvailable owner bytes).1 = true →
        frames.next (p.readDataAvailable owner bytes).2.readBufQueue = none) ∧
      (owner.Returns → (p.readDataAvailable owner bytes).1 = true) := by
  have start : Sync
      { p with
        size := p.size + bytes.length
        readBufQueue := p.readBufQueue ++ bytes
        log := p.log ++ [.received bytes] } := by
    refine ⟨⟨?_, ?_, ?_, ?_, sync.calls.append nofun⟩, sync.idle, ?_⟩
    · simp [Event.charge, sync.balance]
    · simp [sync.size_eq]
    · simp [Event.bytes, Event.frames, sync.stream]
    · simpa [Event.frames] using sync.valid
    · intro busy
      exact ⟨readFrameOrMetadataSize_append (sync.known busy).read bytes,
        (sync.known busy).fieldSize⟩
  obtain ⟨sync, stopped, threw⟩ := iterate_spec (fun _ => sync_drainTurn grants) start
  refine ⟨sync, stopped, fun returns => ?_⟩
  exact (Bool.not_eq_false _).mp fun failed => threw failed returns

end FrameLengthParser

end FbThrift.Rocket
