import FbThrift.Rocket.FrameLengthParser
import FbThrift.Rocket.AllocatingParser

/-!
# Ingress memory accounting

What a parser charges for the frames it assembles and hands over, and what it has released
when it is destroyed.  `FrameLengthParserStrategy` is balanced whatever its owner does.
`AllocatingParserStrategy` charges for the next frame before it hands the current one over,
and has paths that do not release a charge: its destructor, a `handleFrame` that throws, a
refused charge that is released all the same, and an empty frame behind another one, which
is charged twice.
-/

namespace FbThrift.Rocket

/-- The frame in front of these bytes, with its length field, once its length is known. -/
def assembling (held : Bytes) : Nat :=
  match readFrameOrMetadataSize held with
  | none => 0
  | some n => n + kBytesForFrameOrMetadataLength

theorem assembling_of_short {held : Bytes} (short : held.length < 3) : assembling held = 0 := by
  simp [assembling, readFrameOrMetadataSize_eq_none.mpr short]

theorem assembling_of_read {held : Bytes} {n : Nat}
    (read : readFrameOrMetadataSize held = some n) : assembling held = n + 3 := by
  simp [assembling, read]

/-! ## FrameLengthParserStrategy -/

namespace FrameLengthParser

variable {owner : Owner} {p : FrameLengthParser}

theorem Charged.destroy (charged : Charged p) : outstanding p.destroy = 0 := by
  unfold FrameLengthParser.destroy
  split
  · simp [Event.charge, charged.balance]
  · rename_i none
    rw [charged.balance]
    simpa using none

theorem Sync.outstanding_eq (sync : Sync p) :
    outstanding p.log = if p.frameLength = 0 then 0 else (assembling p.readBufQueue : Int) := by
  rw [sync.balance]
  split
  next idle => rw [sync.idle idle]; rfl
  next busy => rw [assembling_of_read (sync.known busy).read, (sync.known busy).fieldSize]

end FrameLengthParser

/-! ## AllocatingParserStrategy -/

namespace AllocatingParser

variable {owner : Owner} {p q : AllocatingParser}

/-- Every frame behind the first one of these bytes has a byte. -/
def NoEmptyNext (held : Bytes) : Prop := ∀ frame ∈ (frames.split held).1.tail, frame ≠ []

instance (held : Bytes) : Decidable (NoEmptyNext held) :=
  inferInstanceAs (Decidable (∀ _ ∈ _, _))

/-- When a frame is handed over, it and the frame behind it are charged. -/
def HandedCharge (log : List Event) (frame : Bytes) : Prop :=
  ∃ rest, receivedBytes log = frames.encodeAll (handledFrames log ++ [frame]) ++ rest ∧
    outstanding log = (3 + frame.length + assembling rest : Nat)

/-- Between turns, as long as no charge is refused, no frame throws and no empty frame
stands behind another one. -/
structure Charged (p : AllocatingParser) : Prop extends Sync p where
  balance : outstanding p.log = p.frameLengthAndFieldSize
  idle : p.frameLength = 0 → p.frameLengthAndFieldSize = 0
  calls : AtCalls HandedCharge p.log
  noEmpty : NoEmptyNext p.buffer

theorem noEmptyNext_nil : NoEmptyNext [] := by
  have stuck : frames.next [] = none := rfl
  simp [NoEmptyNext, frames.split_of_none stuck]

/-- Behind a complete first frame comes no empty one, and none later. -/
theorem NoEmptyNext.rest {held frame rest : Bytes} (none : NoEmptyNext held)
    (next : frames.next held = some (frame, rest)) :
    NoEmptyNext rest ∧ readFrameOrMetadataSize rest ≠ some 0 := by
  unfold NoEmptyNext at none
  rw [frames.split_of_some next, List.tail_cons] at none
  refine ⟨fun frame member => none frame (List.mem_of_mem_tail member), fun read => ?_⟩
  have long : 3 ≤ rest.length := by
    by_contra short
    rw [readFrameOrMetadataSize_eq_none.mpr (by omega)] at read
    cases read
  have empty : frames.next rest = some ([], rest.drop 3) := by
    change nextFrame rest = _
    simp [nextFrame, read, long]
  rw [frames.split_of_some empty] at none
  exact none [] (by simp) rfl

theorem Begun.balance (grants : owner.Grants) (begun : Begun owner p q) (charged : Charged p) :
    outstanding q.log = q.frameLengthAndFieldSize ∧ AtCalls HandedCharge q.log := by
  cases begun with
  | known busy => exact ⟨charged.balance, charged.calls⟩
  | @charged n idle read =>
    obtain ⟨room, -, -, same⟩ := (p.setFrameLength n).tryResize_spec owner
    rw [same]
    refine ⟨?_, charged.calls.append nofun⟩
    simp [setFrameLength, Event.charge, charged.balance, charged.idle idle, grants _ _]

/-- A frame that is handed over, and the one behind it when its length is known, are what
is charged. -/
theorem Ready.balance {next : Option Nat} (ready : Ready owner p q next)
    (balance : outstanding p.log = p.frameLengthAndFieldSize) :
    outstanding q.log = (p.frameLengthAndFieldSize + (next.map (· + 3)).getD 0 : Nat) ∧
      assembling (p.buffer.drop p.frameLengthAndFieldSize) = (next.map (· + 3)).getD 0 := by
  cases ready with
  | last less =>
    refine ⟨by simp [balance], assembling_of_short ?_⟩
    rw [List.length_drop]
    exact less
  | next read granted => exact ⟨by simp [Event.charge, balance], assembling_of_read read⟩

theorem charged_handFrame {next : Option Nat} (returns : owner.Returns)
    (ready : Ready owner p q next) (tracks : Tracks p) (knows : Knows p)
    (complete : p.frameLengthAndFieldSize ≤ p.size)
    (balance : outstanding p.log = p.frameLengthAndFieldSize)
    (calls : AtCalls HandedCharge p.log) (noEmpty : NoEmptyNext p.buffer) :
    Charged (q.handFrame owner next).state := by
  obtain ⟨tracks', knows', size, field, read⟩ := ready.sync tracks knows
  have sync : Sync (q.handFrame owner next).state :=
    sync_handFrame tracks' knows' (by omega) read
  obtain ⟨charge, assembled⟩ := ready.balance balance
  have first := next_of_knows knows complete
  obtain ⟨noEmpty, busy⟩ := noEmpty.rest first
  obtain ⟨-, whole⟩ := frames.of_next first
  have buffer : q.buffer = p.buffer := by cases ready <;> rfl
  have handed : HandedCharge q.log ((q.buffer.take q.frameLengthAndFieldSize).drop 3) := by
    have stream := tracks'.stream
    rw [buffer, whole] at stream
    refine ⟨p.buffer.drop p.frameLengthAndFieldSize, ?_, ?_⟩
    · rw [stream, buffer, field]
      simp [frames]
    · have length : ((p.buffer.take p.frameLengthAndFieldSize).drop 3).length + 3 =
          p.frameLengthAndFieldSize := by
        have := knows.field
        unfold AllocatingParser.size at complete
        simp only [List.length_drop, List.length_take]
        omega
      rw [charge, buffer, field, assembled]
      omega
  have calls : AtCalls HandedCharge q.log := by
    cases ready with
    | last => exact calls
    | next => exact calls.append (by rintro _ _ ⟨⟩)
  unfold handFrame at sync ⊢
  simp only [returns _ _, if_true] at sync ⊢
  refine ⟨sync, ?_, ?_, ?_, ?_⟩
  · simp [Turn.state, Event.charge, charge, field]
  · intro idle
    cases next with
    | none => rfl
    | some n =>
      have idle : n = 0 := idle
      rw [idle] at read
      rw [buffer, field] at read
      exact absurd (read 0 rfl) busy
  · refine (calls.append ?_).append (by rintro _ _ ⟨⟩)
    intro frame returned same
    cases same
    exact handed
  · simpa [Turn.state, buffer, field] using noEmpty

theorem charged_readTurn (grants : owner.Grants) (returns : owner.Returns)
    (charged : Charged p) : Charged (p.readTurn owner).state := by
  have sync := (sync_readTurn grants charged.toSync).1
  rcases readTurn_cases owner p with ⟨-, turn⟩ | ⟨q, long, begun, turn⟩
  all_goals rw [turn] at sync ⊢
  · exact charged
  · obtain ⟨balance, calls⟩ := begun.balance grants charged
    obtain ⟨tracks, knows⟩ := begun.sync grants charged.toSync
    obtain ⟨same, field⟩ := begun.kept
    have noEmpty := charged.noEmpty
    rw [← same] at noEmpty
    rcases finishFrame_cases owner q with
      ⟨less, turn⟩ | ⟨n, refused, -⟩ | ⟨r, next, complete, ready, turn⟩
    · rw [turn] at sync ⊢
      refine ⟨sync, balance, fun (none : q.frameLength = 0) => ?_, calls, noEmpty⟩
      unfold size at long less
      rw [same, field, none] at less
      omega
    · rw [grants] at refused
      cases refused
    · rw [turn]
      exact charged_handFrame returns ready tracks knows complete balance calls noEmpty

/-- The parser before a read. -/
inductive Settled : AllocatingParser → Prop where
  | fresh {minBufferSize : Nat} : 3 ≤ minBufferSize → Settled { minBufferSize := minBufferSize }
  | charged {p : AllocatingParser} : Charged p → p.Waits → Settled p

theorem Settled.between {p : AllocatingParser} (settled : Settled p) : Between p := by
  cases settled with
  | fresh minimum => exact .fresh minimum
  | charged charged => exact .sync charged.toSync

/-- Before a read the frame in front is charged, once its length is known. -/
theorem Settled.outstanding_eq {p : AllocatingParser} (settled : Settled p) :
    outstanding p.log = assembling p.buffer ∧ AtCalls HandedCharge p.log := by
  cases settled with
  | fresh => exact ⟨rfl, .nil _⟩
  | charged charged waits =>
    refine ⟨?_, charged.calls⟩
    rw [charged.balance]
    rcases waits with short | ⟨knows, -⟩
    · rw [assembling_of_short short, charged.idle]
      by_contra busy
      have read := (charged.known busy).read
      rw [readFrameOrMetadataSize_eq_none.mpr short] at read
      cases read
    · rw [assembling_of_read knows.read, knows.field]

theorem Settled.getReadBuffer {p : AllocatingParser} (settled : Settled p) :
    Charged p.getReadBuffer.2 ∧ p.getReadBuffer.2.buffer = p.buffer := by
  have sync := settled.between.getReadBuffer
  cases settled with
  | fresh minimum => exact ⟨⟨sync, rfl, fun _ => rfl, .nil _, noEmptyNext_nil⟩, rfl⟩
  | charged charged waits =>
    simp only [AllocatingParser.getReadBuffer, charged.present, if_true, and_true]
    exact charged

/-- A read within what was offered keeps the balance, as long as no charge is refused, no
frame throws and no empty frame stands behind another one. -/
theorem settled_read (grants : owner.Grants) (returns : owner.Returns) {p : AllocatingParser}
    {bytes : Bytes} (settled : Settled p)
    (fits : bytes.length ≤ p.getReadBuffer.1) (noEmpty : NoEmptyNext (p.buffer ++ bytes)) :
    Settled ((strategy owner).read p bytes).2 := by
  obtain ⟨charged, same⟩ := settled.getReadBuffer
  have below := charged.fits
  simp only [getReadBuffer_fst] at fits
  have start : Charged
      { p.getReadBuffer.2 with
        buffer := p.getReadBuffer.2.buffer ++ bytes
        log := p.getReadBuffer.2.log ++ [.received bytes] } := by
    refine ⟨sync_received charged.toSync (by omega), ?_, charged.idle,
      charged.calls.append nofun, ?_⟩
    · simp [Event.charge, charged.balance]
    · rw [← same] at noEmpty
      exact noEmpty
  have step := fun (q : AllocatingParser) (charged : Charged q) =>
    And.intro (charged_readTurn grants returns charged) (sync_readTurn grants charged.toSync).2
  obtain ⟨charged, stopped, threw⟩ := iterate_spec step start
  exact .charged charged (stopped ((Bool.not_eq_false _).mp fun failed => threw failed returns))

/-- No read completes an empty frame behind another frame. -/
def NoEmptyNextAll (owner : Owner) (p : AllocatingParser) : List Bytes → Prop
  | [] => True
  | bytes :: reads =>
    NoEmptyNext (p.buffer ++ bytes) ∧ NoEmptyNextAll owner ((strategy owner).read p bytes).2 reads

instance decidableNoEmptyNextAll (owner : Owner) (p : AllocatingParser) (reads : List Bytes) :
    Decidable (NoEmptyNextAll owner p reads) :=
  match reads with
  | [] => inferInstanceAs (Decidable True)
  | bytes :: reads =>
    have := decidableNoEmptyNextAll owner ((strategy owner).read p bytes).2 reads
    inferInstanceAs (Decidable (_ ∧ _))

theorem settled_run (grants : owner.Grants) (returns : owner.Returns) {p : AllocatingParser}
    {reads : List Bytes} (settled : Settled p) (fits : (strategy owner).Fits p reads)
    (noEmpty : NoEmptyNextAll owner p reads) : Settled ((strategy owner).run p reads).2 := by
  induction reads generalizing p with
  | nil => exact settled
  | cons bytes reads ih =>
    obtain ⟨room, fits⟩ := fits
    obtain ⟨now, later⟩ := noEmpty
    exact ih (settled_read grants returns settled room now) fits later

end AllocatingParser

/-! ## Balance over runs -/

/-- What is charged is released, and at every moment the charge is that of the frames being
assembled or handled.  For `FrameLengthParserStrategy` the first holds for every owner, and
the second as long as no charge is refused.  For `AllocatingParserStrategy` both hold in the
runs in which no charge is refused, no `handleFrame` throws and no read completes an empty
frame behind another frame; the destructor must then find no length field. -/
theorem memory_balance (owner : Owner) (room : FrameLengthParser.QueueRoom)
    (minBufferSize : Nat) (minimum : 3 ≤ minBufferSize) (reads : List Bytes) :
    let queued := FrameLengthParser.strategy owner room
    let copied := AllocatingParser.strategy owner
    (outstanding (queued.run {} reads).2.destroy = 0) ∧
    (owner.Grants → outstanding (queued.run {} reads).2.log =
          (if (queued.run {} reads).2.frameLength = 0 then 0
            else (assembling (queued.run {} reads).2.readBufQueue : Int)) ∧
        AtCalls (fun log frame => outstanding log = (3 + frame.length : Nat))
          (queued.run {} reads).2.log) ∧
    (owner.Grants → owner.Returns → copied.Fits { minBufferSize := minBufferSize } reads →
      AllocatingParser.NoEmptyNextAll owner { minBufferSize := minBufferSize } reads →
      outstanding (copied.run { minBufferSize := minBufferSize } reads).2.log =
          assembling (copied.run { minBufferSize := minBufferSize } reads).2.buffer ∧
        AtCalls AllocatingParser.HandedCharge
          (copied.run { minBufferSize := minBufferSize } reads).2.log ∧
        ((copied.run { minBufferSize := minBufferSize } reads).2.buffer.length < 3 →
          outstanding (copied.run { minBufferSize := minBufferSize } reads).2.destroy = 0)) := by
  intro queued copied
  refine ⟨?_, ?_, ?_⟩
  · have charged := queued.run_always FrameLengthParser.Charged
      (fun p bytes charged => FrameLengthParser.charged_readDataAvailable charged bytes)
      FrameLengthParser.charged_init reads
    exact charged.destroy
  · intro grants
    have sync := queued.run_always FrameLengthParser.Sync
      (fun p bytes sync => (FrameLengthParser.sync_readDataAvailable grants sync bytes).1)
      FrameLengthParser.sync_init reads
    exact ⟨sync.outstanding_eq, sync.calls⟩
  · intro grants returns fits noEmpty
    obtain ⟨balance, calls⟩ :=
      (AllocatingParser.settled_run grants returns (.fresh minimum) fits noEmpty).outstanding_eq
    refine ⟨balance, calls, fun short => ?_⟩
    rw [assembling_of_short short] at balance
    exact balance

/-- Two frames of one byte, the second read in two parts. -/
theorem memory_balance_two : let owner : Owner := ⟨fun _ _ => true, fun _ _ => true⟩
    let copied := AllocatingParser.strategy owner
    let reads : List Bytes := [[0, 0, 1, 7, 0], [0, 1, 7]]
    copied.Fits { minBufferSize := 16 } reads ∧
      AllocatingParser.NoEmptyNextAll owner { minBufferSize := 16 } reads ∧
      outstanding (copied.run { minBufferSize := 16 } reads).2.destroy = 0 := by
  intro owner copied reads
  have fits : copied.Fits { minBufferSize := 16 } reads := by decide +kernel
  have noEmpty : AllocatingParser.NoEmptyNextAll owner { minBufferSize := 16 } reads := by
    decide +kernel
  have room : FrameLengthParser.QueueRoom :=
    ⟨fun _ => 0, fun _ min _ => min, fun _ _ _ => Nat.le_refl _⟩
  obtain ⟨-, -, balance⟩ := memory_balance owner room 16 (by decide) reads
  obtain ⟨-, -, destroyed⟩ := balance (fun _ _ => rfl) (fun _ _ => rfl) fits noEmpty
  exact ⟨fits, noEmpty, destroyed (by decide +kernel)⟩

/-- The charge is not released for a frame that is not complete when the parser is
destroyed, for a frame whose `handleFrame` throws, and for an empty frame that follows
another frame in one read. -/
theorem charge_not_released : let granting : Owner := ⟨fun _ _ => true, fun _ _ => true⟩
    let throwing : Owner := ⟨fun _ _ => true, fun _ _ => false⟩
    let charge := fun (owner : Owner) (reads : List Bytes) =>
      outstanding ((AllocatingParser.strategy owner).run { minBufferSize := 16 } reads).2.destroy
    (AllocatingParser.strategy granting).Fits { minBufferSize := 16 } [[0, 0, 5]] ∧
      charge granting [[0, 0, 5]] = 8 ∧
      charge throwing [[0, 0, 1, 7]] = 4 ∧
      charge granting [[0, 0, 0, 0, 0, 0]] = 3 := by
  decide +kernel

end FbThrift.Rocket
