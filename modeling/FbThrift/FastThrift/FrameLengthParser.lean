import FbThrift.FastThrift.Frame
import FbThrift.Lib.Run

/-!
# FrameLengthParserHandler

The handler appends what is read to a queue and fires the complete frames in front of it.  The
length of the frame in front is kept between calls, zero when it is not known; it is compared with
the maximum where it is read, and not when a later call finds it already there.
-/

namespace FbThrift.FastThrift

open Rocket (readFrameOrMetadataSize frames nextFrame nextFrame_eq_none)

/-- The handler, with the frames and exceptions it has fired. -/
structure FrameLengthParserHandler where
  size : Nat := 0
  frameLength : Nat := 0
  frameLengthAndFieldSize : Nat := 0
  maxFrameSize : Nat
  readBufQueue : Bytes := []
  fired : List Bytes := []
  exceptions : List String := []

namespace FrameLengthParserHandler

abbrev kMetadataLengthSize : Nat := 3

/-! ## The loop -/

/-- The cursor throws, and ends the process, when the queue has no complete length field. -/
def computeFrameLength (p : FrameLengthParserHandler) : Option FrameLengthParserHandler :=
  (readFrameOrMetadataSize p.readBufQueue).map fun frameLength =>
    { p with
      frameLength := frameLength
      frameLengthAndFieldSize := frameLength + kMetadataLengthSize }

/-- The first frame is split off behind its length field and fired; `downstream` is what `fireRead`
returns after the frames fired so far. -/
def fireFrame (downstream : List Bytes → Bytes → Result) (p : FrameLengthParserHandler) :
    FrameLengthParserHandler × Result :=
  let queue := p.readBufQueue.drop kMetadataLengthSize
  let frame := queue.take p.frameLength
  ({ p with
      readBufQueue := queue.drop p.frameLength
      size := p.size - p.frameLengthAndFieldSize
      frameLength := 0
      frameLengthAndFieldSize := 0
      fired := p.fired ++ [frame] },
    downstream p.fired frame)

/-- What a round does once the length of the frame is known. -/
def takeFrame (downstream : List Bytes → Bytes → Result) (p : FrameLengthParserHandler) :
    Turn (FrameLengthParserHandler × Result) :=
  if p.size < p.frameLengthAndFieldSize then .stop (p, .success)
  -- The queue throws, and ends the process, when it has fewer bytes than are taken off it.
  else if p.readBufQueue.length < kMetadataLengthSize + p.frameLength then .threw (p, .error)
  else
    match p.fireFrame downstream with
    | (p, .success) => .again (p, .success)
    | (p, result) => .stop (p, result)

/-- One round of the loop of `drainReadBufQueue`. -/
def drainTurn (downstream : List Bytes → Bytes → Result) (p : FrameLengthParserHandler) :
    Turn (FrameLengthParserHandler × Result) :=
  if p.size < kMetadataLengthSize then .stop (p, .success)
  else if p.frameLength = 0 then
    match p.computeFrameLength with
    | none => .threw (p, .error)
    | some p =>
      if p.maxFrameSize < p.frameLength then
        .stop ({ p with
          exceptions := p.exceptions ++ ["Frame size exceeds maximum allowed size"] }, .error)
      else p.takeFrame downstream
  else p.takeFrame downstream

/-! ## What a round does -/

variable {downstream : List Bytes → Bytes → Result} {p q : FrameLengthParserHandler}

theorem takeFrame_cases (downstream : List Bytes → Bytes → Result) (p : FrameLengthParserHandler) :
    (p.size < p.frameLengthAndFieldSize ∧ p.takeFrame downstream = .stop (p, .success)) ∨
    (p.frameLengthAndFieldSize ≤ p.size ∧ p.readBufQueue.length < 3 + p.frameLength ∧
      p.takeFrame downstream = .threw (p, .error)) ∨
    (p.frameLengthAndFieldSize ≤ p.size ∧ 3 + p.frameLength ≤ p.readBufQueue.length ∧
      (p.takeFrame downstream = .again ((p.fireFrame downstream).1, .success) ∨
        p.takeFrame downstream = .stop (p.fireFrame downstream))) := by
  by_cases waits : p.size < p.frameLengthAndFieldSize
  · exact .inl ⟨waits, by simp [takeFrame, waits]⟩
  · by_cases short : p.readBufQueue.length < 3 + p.frameLength
    · exact .inr (.inl ⟨by omega, short, by simp [takeFrame, waits, short, kMetadataLengthSize]⟩)
    · refine .inr (.inr ⟨by omega, by omega, ?_⟩)
      unfold takeFrame
      rw [if_neg waits, if_neg (show ¬ _ < kMetadataLengthSize + _ from short)]
      rcases p.fireFrame downstream with ⟨q, _ | _ | _⟩
      · exact .inl rfl
      · exact .inr rfl
      · exact .inr rfl

/-- The length that was read, if the handler did not have one. -/
inductive Begun (p : FrameLengthParserHandler) : FrameLengthParserHandler → Prop where
  | known : p.frameLength ≠ 0 → Begun p p
  | read {n : Nat} : p.frameLength = 0 → readFrameOrMetadataSize p.readBufQueue = some n →
      n ≤ p.maxFrameSize →
      Begun p { p with frameLength := n, frameLengthAndFieldSize := n + 3 }

theorem drainTurn_cases (downstream : List Bytes → Bytes → Result) (p : FrameLengthParserHandler) :
    (p.size < 3 ∧ p.drainTurn downstream = .stop (p, .success)) ∨
    (3 ≤ p.size ∧ p.readBufQueue.length < 3 ∧ p.drainTurn downstream = .threw (p, .error)) ∨
    (∃ n, p.frameLength = 0 ∧ readFrameOrMetadataSize p.readBufQueue = some n ∧
      p.maxFrameSize < n ∧ p.drainTurn downstream = .stop ({ p with
          frameLength := n
          frameLengthAndFieldSize := n + 3
          exceptions := p.exceptions ++ ["Frame size exceeds maximum allowed size"] }, .error)) ∨
    (∃ q, 3 ≤ p.size ∧ Begun p q ∧ p.drainTurn downstream = q.takeFrame downstream) := by
  by_cases short : p.size < 3
  · exact .inl ⟨short, by simp [drainTurn, short, kMetadataLengthSize]⟩
  · by_cases idle : p.frameLength = 0
    · cases read : readFrameOrMetadataSize p.readBufQueue with
      | none =>
        refine .inr (.inl ⟨by omega, Rocket.readFrameOrMetadataSize_eq_none.mp read, ?_⟩)
        simp [drainTurn, computeFrameLength, short, idle, read, kMetadataLengthSize]
      | some n =>
        by_cases large : p.maxFrameSize < n
        · refine .inr (.inr (.inl ⟨n, idle, rfl, large, ?_⟩))
          simp [drainTurn, computeFrameLength, short, idle, read, large, kMetadataLengthSize]
        · refine .inr (.inr (.inr ⟨_, by omega, .read idle read (by omega), ?_⟩))
          simp [drainTurn, computeFrameLength, short, idle, read, large, kMetadataLengthSize]
    · refine .inr (.inr (.inr ⟨p, by omega, .known idle, ?_⟩))
      simp [drainTurn, short, idle, kMetadataLengthSize]

theorem takeFrame_shrinks {r : Result} (turn : p.takeFrame downstream = .again (q, r)) :
    q.readBufQueue.length < p.readBufQueue.length := by
  rcases takeFrame_cases downstream p with
    ⟨-, other⟩ | ⟨-, -, other⟩ | ⟨-, enough, other | other⟩
  all_goals
    rw [other] at turn
    cases turn
  simp only [fireFrame, kMetadataLengthSize, List.length_drop]
  omega

theorem drainTurn_shrinks {r : Result} (turn : p.drainTurn downstream = .again (q, r)) :
    q.readBufQueue.length < p.readBufQueue.length := by
  rcases drainTurn_cases downstream p with
    ⟨-, other⟩ | ⟨-, -, other⟩ | ⟨n, -, -, -, other⟩ | ⟨b, -, begun, other⟩
  · rw [other] at turn
    cases turn
  · rw [other] at turn
    cases turn
  · rw [other] at turn
    cases turn
  · rw [other] at turn
    have shorter := takeFrame_shrinks turn
    cases begun with
    | known => exact shorter
    | read => exact shorter

/-! ## The handler -/

/-- Whether the process goes on, the handler and the result. -/
def drainReadBufQueue (downstream : List Bytes → Bytes → Result) (p : FrameLengthParserHandler) :
    Bool × FrameLengthParserHandler × Result :=
  iterate (fun s => s.1.drainTurn downstream) (fun s => s.1.readBufQueue.length)
    (fun _ _ turn => drainTurn_shrinks turn) (p, .success)

def onRead (downstream : List Bytes → Bytes → Result) (buf : Bytes) (p : FrameLengthParserHandler) :
    Bool × FrameLengthParserHandler × Result :=
  drainReadBufQueue downstream
    { p with size := p.size + buf.length, readBufQueue := p.readBufQueue ++ buf }

/-! ## The queue and the stream -/

/-- The queue is what follows the frames fired, and a length that is known is that of the frame
in front. -/
structure Tracks (stream : Bytes) (p : FrameLengthParserHandler) : Prop where
  size_eq : p.size = p.readBufQueue.length
  stream : stream = frames.encodeAll p.fired ++ p.readBufQueue
  valid : ∀ frame ∈ p.fired, frames.Valid frame
  known : p.frameLength ≠ 0 → readFrameOrMetadataSize p.readBufQueue = some p.frameLength ∧
    p.frameLengthAndFieldSize = p.frameLength + 3

/-- No frame fired is longer than the maximum. -/
def Bounded (p : FrameLengthParserHandler) : Prop :=
  ∀ frame ∈ p.fired, frame.length ≤ p.maxFrameSize

/-- No frame in front that is too long is complete. -/
def Safe (p : FrameLengthParserHandler) : Prop :=
  p.frameLength ≤ p.maxFrameSize ∨ p.size < p.frameLengthAndFieldSize

variable {stream : Bytes}

theorem tracks_append (tracks : Tracks stream p) (buf : Bytes) : Tracks (stream ++ buf)
      { p with size := p.size + buf.length, readBufQueue := p.readBufQueue ++ buf } := by
  refine ⟨?_, ?_, tracks.valid, fun busy => ?_⟩
  · show p.size + buf.length = (p.readBufQueue ++ buf).length
    rw [List.length_append, tracks.size_eq]
  · rw [tracks.stream, List.append_assoc]
  · obtain ⟨read, fieldSize⟩ := tracks.known busy
    exact ⟨Rocket.readFrameOrMetadataSize_append read buf, fieldSize⟩

/-- A complete frame moves from the queue to the frames fired. -/
theorem tracks_fireFrame (downstream : List Bytes → Bytes → Result) (tracks : Tracks stream p)
    (read : readFrameOrMetadataSize p.readBufQueue = some p.frameLength)
    (fieldSize : p.frameLengthAndFieldSize = p.frameLength + 3)
    (enough : 3 + p.frameLength ≤ p.readBufQueue.length) :
    Tracks stream (p.fireFrame downstream).1 ∧
      ((p.readBufQueue.drop 3).take p.frameLength).length = p.frameLength := by
  have next : frames.next p.readBufQueue = some ((p.readBufQueue.drop 3).take p.frameLength,
        (p.readBufQueue.drop 3).drop p.frameLength) := by
    change nextFrame p.readBufQueue = _
    simp [nextFrame, read, Nat.add_comm p.frameLength, enough]
  obtain ⟨valid, same⟩ := frames.of_next next
  have length : ((p.readBufQueue.drop 3).take p.frameLength).length = p.frameLength := by
    simp only [List.length_take, List.length_drop]
    omega
  refine ⟨⟨?_, ?_, ?_, fun busy => absurd rfl busy⟩, length⟩
  · simp only [fireFrame, kMetadataLengthSize, List.length_drop]
    rw [tracks.size_eq, fieldSize]
    omega
  · have stream := tracks.stream
    rw [same] at stream
    simp [fireFrame, stream, frames]
  · intro frame member
    rcases List.mem_append.mp member with member | member
    · exact tracks.valid frame member
    · rw [List.mem_singleton.mp member]
      exact valid

/-- What a round needs of a handler whose length is known. -/
structure Ready (stream : Bytes) (p : FrameLengthParserHandler) : Prop extends Tracks stream p where
  read : readFrameOrMetadataSize p.readBufQueue = some p.frameLength
  fieldSize : p.frameLengthAndFieldSize = p.frameLength + 3

theorem ready_begun (tracks : Tracks stream p) (begun : Begun p q) : Ready stream q := by
  cases begun with
  | known busy =>
    obtain ⟨read, fieldSize⟩ := tracks.known busy
    exact ⟨tracks, read, fieldSize⟩
  | read idle read small =>
    exact ⟨⟨tracks.size_eq, tracks.stream, tracks.valid, fun _ => ⟨read, rfl⟩⟩, read, rfl⟩

/-- The frame that is fired is as long as its length field says. -/
theorem bounded_fireFrame (bounded : Bounded p) (small : p.frameLength ≤ p.maxFrameSize)
    (length : ((p.readBufQueue.drop 3).take p.frameLength).length = p.frameLength) :
    Bounded (p.fireFrame downstream).1 := by
  intro frame member
  rcases List.mem_append.mp member with member | member
  · exact bounded frame member
  · rw [List.mem_singleton.mp member]
    show ((p.readBufQueue.drop 3).take p.frameLength).length ≤ p.maxFrameSize
    rw [length]
    exact small

/-- The handler is in step with the stream and has fired no frame that is too long. -/
structure Sound (stream : Bytes) (p : FrameLengthParserHandler) : Prop where
  tracks : Tracks stream p
  bounded : Bounded p

/-- The three ends of a round from a sound and safe handler. -/
theorem sound_takeFrame (ready : Ready stream p) (bounded : Bounded p) (safe : Safe p) :
    (∀ t, p.takeFrame downstream = .again t → Sound stream t.1 ∧ Safe t.1) ∧
      (∀ t, p.takeFrame downstream = .stop t → Sound stream t.1) ∧
      ∀ t, p.takeFrame downstream ≠ .threw t := by
  have size := ready.size_eq
  have field := ready.fieldSize
  rcases takeFrame_cases downstream p with
    ⟨waits, turn⟩ | ⟨enough, short, turn⟩ | ⟨enough, whole, turns⟩
  · rw [turn]
    refine ⟨nofun, fun t stopped => ?_, nofun⟩
    cases stopped
    exact ⟨ready.toTracks, bounded⟩
  · omega
  · have small : p.frameLength ≤ p.maxFrameSize := by
      rcases safe with small | waits
      · exact small
      · omega
    obtain ⟨tracks, length⟩ := tracks_fireFrame downstream ready.toTracks ready.read field whole
    have sound : Sound stream (p.fireFrame downstream).1 :=
      ⟨tracks, bounded_fireFrame bounded small length⟩
    rcases turns with turn | turn
    · rw [turn]
      refine ⟨fun t again => ?_, nofun, nofun⟩
      cases again
      exact ⟨sound, Or.inl (Nat.zero_le _)⟩
    · rw [turn]
      refine ⟨nofun, fun t stopped => ?_, nofun⟩
      cases stopped
      exact sound

theorem sound_drainTurn (sound : Sound stream p) (safe : Safe p) :
    (∀ t, p.drainTurn downstream = .again t → Sound stream t.1 ∧ Safe t.1) ∧
      (∀ t, p.drainTurn downstream = .stop t → Sound stream t.1) ∧
      ∀ t, p.drainTurn downstream ≠ .threw t := by
  have tracks := sound.tracks
  rcases drainTurn_cases downstream p with
    ⟨short, turn⟩ | ⟨size, short, -⟩ | ⟨n, idle, read, large, turn⟩ | ⟨q, -, begun, turn⟩
  · rw [turn]
    refine ⟨nofun, fun t stopped => ?_, nofun⟩
    cases stopped
    exact sound
  · rw [tracks.size_eq] at size
    omega
  · rw [turn]
    refine ⟨nofun, fun t stopped => ?_, nofun⟩
    cases stopped
    exact ⟨⟨tracks.size_eq, tracks.stream, tracks.valid, fun _ => ⟨read, rfl⟩⟩, sound.bounded⟩
  · rw [turn]
    have ready := ready_begun tracks begun
    cases begun with
    | known => exact sound_takeFrame ready sound.bounded safe
    | read idle read small => exact sound_takeFrame ready sound.bounded (Or.inl small)

theorem sound_onRead (downstream : List Bytes → Bytes → Result)
    (sound : Sound stream p) (buf : Bytes)
    (safe : p.frameLength ≤ p.maxFrameSize ∨ p.size + buf.length < p.frameLengthAndFieldSize) :
    ∃ q r, p.onRead downstream buf = (true, q, r) ∧ Sound (stream ++ buf) q := by
  have start : Sound (stream ++ buf)
      { p with size := p.size + buf.length, readBufQueue := p.readBufQueue ++ buf } :=
    ⟨tracks_append sound.tracks buf, sound.bounded⟩
  have rounds (s : FrameLengthParserHandler × Result)
      (holds : Sound (stream ++ buf) s.1 ∧ Safe s.1) :
      (∀ t, s.1.drainTurn downstream = .again t → Sound (stream ++ buf) t.1 ∧ Safe t.1) ∧
        (∀ t, s.1.drainTurn downstream = .stop t → Sound (stream ++ buf) t.1) ∧
        ∀ t, s.1.drainTurn downstream ≠ .threw t := sound_drainTurn holds.1 holds.2
  let first : FrameLengthParserHandler × Result :=
    ({ p with size := p.size + buf.length, readBufQueue := p.readBufQueue ++ buf }, .success)
  have ran : ∃ t, p.onRead downstream buf = (true, t) ∧ Sound (stream ++ buf) t.1 :=
    iterate_stops (s := first) rounds ⟨start, safe⟩
  obtain ⟨⟨q, r⟩, ran, sound'⟩ := ran
  exact ⟨q, r, ran, sound'⟩

theorem fired_drainTurn {frame : Bytes} (fired : frame ∈ p.fired) :
    frame ∈ (p.drainTurn downstream).state.1.fired := by
  have taken (q : FrameLengthParserHandler) (fired : frame ∈ q.fired) :
      frame ∈ (q.takeFrame downstream).state.1.fired := by
    have fired' : frame ∈ (q.fireFrame downstream).1.fired := List.mem_append_left _ fired
    rcases takeFrame_cases downstream q with
      ⟨-, turn⟩ | ⟨-, -, turn⟩ | ⟨-, -, turn | turn⟩
    all_goals rw [turn]
    · exact fired
    · exact fired
    · exact fired'
    · exact fired'
  rcases drainTurn_cases downstream p with
    ⟨-, turn⟩ | ⟨-, -, turn⟩ | ⟨n, -, -, -, turn⟩ | ⟨q, -, begun, turn⟩
  all_goals rw [turn]
  · exact fired
  · exact fired
  · exact fired
  · refine taken q ?_
    cases begun with
    | known => exact fired
    | read => exact fired

theorem maxFrameSize_drainTurn (downstream : List Bytes → Bytes → Result)
    (p : FrameLengthParserHandler) :
    (p.drainTurn downstream).state.1.maxFrameSize = p.maxFrameSize := by
  have taken (q : FrameLengthParserHandler) :
      (q.takeFrame downstream).state.1.maxFrameSize = q.maxFrameSize := by
    rcases takeFrame_cases downstream q with
      ⟨-, turn⟩ | ⟨-, -, turn⟩ | ⟨-, -, turn | turn⟩
    all_goals
      rw [turn]
      rfl
  rcases drainTurn_cases downstream p with
    ⟨-, turn⟩ | ⟨-, -, turn⟩ | ⟨n, -, -, -, turn⟩ | ⟨q, -, begun, turn⟩
  · rw [turn]
    rfl
  · rw [turn]
    rfl
  · rw [turn]
    rfl
  · rw [turn, taken]
    cases begun with
    | known => rfl
    | read => rfl

theorem maxFrameSize_onRead (downstream : List Bytes → Bytes → Result) (buf : Bytes)
    (p : FrameLengthParserHandler) :
    (p.onRead downstream buf).2.1.maxFrameSize = p.maxFrameSize := by
  have step (s : FrameLengthParserHandler × Result) (same : s.1.maxFrameSize = p.maxFrameSize) :
      (s.1.drainTurn downstream).state.1.maxFrameSize = p.maxFrameSize :=
    (maxFrameSize_drainTurn downstream s.1).trans same
  let first : FrameLengthParserHandler × Result :=
    ({ p with size := p.size + buf.length, readBufQueue := p.readBufQueue ++ buf }, .success)
  exact iterate_invariant (s := first) step rfl

theorem fires_drainReadBufQueue (downstream : List Bytes → Bytes → Result)
    (tracks : Tracks stream p) (busy : p.frameLength ≠ 0)
    (complete : p.frameLengthAndFieldSize ≤ p.size) :
    ∃ frame ∈ (p.drainReadBufQueue downstream).2.1.fired, frame.length = p.frameLength := by
  have ready := ready_begun tracks (Begun.known busy)
  have size := tracks.size_eq
  have field := ready.fieldSize
  have whole : 3 + p.frameLength ≤ p.readBufQueue.length := by omega
  have turn : p.drainTurn downstream = p.takeFrame downstream := by
    rcases drainTurn_cases downstream p with
      ⟨short, -⟩ | ⟨-, short, -⟩ | ⟨n, idle, -, -, -⟩ | ⟨q, -, begun, turn⟩
    · omega
    · omega
    · exact absurd idle busy
    · cases begun with
      | known => exact turn
      | read idle => exact absurd idle busy
  obtain ⟨-, length⟩ := tracks_fireFrame downstream tracks ready.read field whole
  refine ⟨_, ?_, length⟩
  have fired : (p.readBufQueue.drop 3).take p.frameLength ∈ (p.fireFrame downstream).1.fired :=
    List.mem_append_right _ (List.mem_singleton.mpr rfl)
  rcases takeFrame_cases downstream p with
    ⟨waits, -⟩ | ⟨-, short, -⟩ | ⟨-, -, taken | taken⟩
  · omega
  · omega
  · have ran : p.drainReadBufQueue downstream =
        iterate (fun s => s.1.drainTurn downstream) (fun s => s.1.readBufQueue.length)
          (fun _ _ turn => drainTurn_shrinks turn) ((p.fireFrame downstream).1, .success) :=
      iterate_of_again (turn.trans taken)
    rw [ran]
    have step (s : FrameLengthParserHandler × Result)
        (fired : (p.readBufQueue.drop 3).take p.frameLength ∈ s.1.fired) :
        (p.readBufQueue.drop 3).take p.frameLength ∈ (s.1.drainTurn downstream).state.1.fired :=
      fired_drainTurn fired
    exact iterate_invariant step fired
  · have ran : p.drainReadBufQueue downstream = (true, p.fireFrame downstream) :=
      iterate_of_stop (turn.trans taken)
    rw [ran]
    exact fired

/-! ## Runs -/

/-- A handler that reads a stream: what it has read, and whether the process still runs. -/
structure Session where
  stream : Bytes
  running : Bool
  handler : FrameLengthParserHandler

namespace Session

def start (maxFrameSize : Nat) : Session := ⟨[], true, { maxFrameSize := maxFrameSize }⟩

def read (downstream : List Bytes → Bytes → Result) (s : Session) (buf : Bytes) : Session :=
  let (running, handler, _) := s.handler.onRead downstream buf
  ⟨s.stream ++ buf, s.running && running, handler⟩

/-- The frames fired are the first ones of the stream, none is too long, and the size is that of
the queue. -/
structure Splits (s : Session) : Prop where
  running : s.running = true
  inOrder : s.handler.fired <+: (frames.split s.stream).1
  bounded : ∀ frame ∈ s.handler.fired, frame.length ≤ s.handler.maxFrameSize
  size_eq : s.handler.size = s.handler.readBufQueue.length

/-- The buffer does not complete a frame that was found too long. -/
def Clean (s : Session) (buf : Bytes) : Prop :=
  s.handler.frameLength ≤ s.handler.maxFrameSize ∨
    s.handler.size + buf.length < s.handler.frameLengthAndFieldSize

instance (s : Session) (buf : Bytes) : Decidable (s.Clean buf) :=
  inferInstanceAs (Decidable (_ ∨ _))

/-- The process runs, in step with the stream. -/
structure Inv (s : Session) : Prop where
  running : s.running = true
  sound : Sound s.stream s.handler

theorem inv_start (maxFrameSize : Nat) : (start maxFrameSize).Inv :=
  ⟨rfl, ⟨rfl, rfl, nofun, fun busy => absurd rfl busy⟩, nofun⟩

theorem splits_of_inv (s : Session) (inv : s.Inv) : s.Splits := by
  have tracks := inv.sound.tracks
  refine ⟨inv.running, ?_, inv.sound.bounded, tracks.size_eq⟩
  rw [tracks.stream, frames.split_encodeAll_append tracks.valid]
  exact List.prefix_append _ _

theorem inv_read (s : Session) (buf : Bytes) (inv : s.Inv) (clean : s.Clean buf) :
    (s.read downstream buf).Inv := by
  obtain ⟨q, r, ran, sound⟩ := sound_onRead downstream inv.sound buf clean
  unfold read
  rw [ran]
  exact ⟨by rw [inv.running]; rfl, sound⟩

theorem clean_of_splits (s : Session) (buf : Bytes) (inv : s.Inv)
    (splits : (s.read downstream buf).Splits) : s.Clean buf := by
  by_contra unclean
  unfold Clean at unclean
  rw [not_or, not_le, not_lt] at unclean
  obtain ⟨large, complete⟩ := unclean
  have busy : s.handler.frameLength ≠ 0 := by omega
  obtain ⟨frame, fired, length⟩ := fires_drainReadBufQueue downstream
    (tracks_append inv.sound.tracks buf) busy complete
  have bounded : frame.length ≤ (s.handler.onRead downstream buf).2.1.maxFrameSize :=
    splits.bounded frame fired
  rw [maxFrameSize_onRead] at bounded
  have same : frame.length = s.handler.frameLength := length
  omega

/-- The handler splits every stream as far as no buffer completes a frame that an earlier call has
found too long. -/
theorem splits_iff (maxFrameSize : Nat) (downstream : List Bytes → Bytes → Result)
    (bufs : List Bytes) :
    (∀ n, ((bufs.take n).foldl (read downstream) (start maxFrameSize)).Splits) ↔
      Run (read downstream) Clean (start maxFrameSize) bufs := by
  have free : Run (read downstream) (fun _ _ => True) (start maxFrameSize) bufs := by
    generalize start maxFrameSize = s
    induction bufs generalizing s with
    | nil => trivial
    | cons buf bufs ih => exact ⟨trivial, ih _⟩
  exact free.clean_iff (inv_start maxFrameSize) splits_of_inv
    (fun s buf inv _ clean => inv_read s buf inv clean)
    fun s buf inv _ splits => clean_of_splits s buf inv splits

/-- After the error for a frame of five bytes with a maximum of four, an empty buffer makes the
handler fire it. -/
theorem not_splits :
    ¬ ∀ (maxFrameSize : Nat) (downstream : List Bytes → Bytes → Result) (bufs : List Bytes)
      (n : Nat), ((bufs.take n).foldl (read downstream) (start maxFrameSize)).Splits := by
  intro splits
  have bounded := (splits 4 (fun _ _ => .success) [[0, 0, 5, 1, 2, 3, 4, 5], []] 2).bounded
  have fired : [1, 2, 3, 4, 5] ∈ (([[0, 0, 5, 1, 2, 3, 4, 5], []].take 2).foldl
      (read fun _ _ => .success) (start 4)).handler.fired := by decide +kernel
  have small := bounded _ fired
  rw [show (([[0, 0, 5, 1, 2, 3, 4, 5], []].take 2).foldl
      (read fun _ _ => .success) (start 4)).handler.maxFrameSize = 4 by decide +kernel] at small
  exact absurd small (by decide)

end Session

end FrameLengthParserHandler

end FbThrift.FastThrift
