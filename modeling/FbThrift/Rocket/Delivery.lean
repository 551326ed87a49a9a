import FbThrift.Rocket.Splitting
import FbThrift.Rocket.Reassembly

/-!
# From the reads of a socket to messages

What a peer writes is cut into reads that know nothing of frames, and frames that know nothing of
messages.  Behind either parser a connection still hands on each message exactly once.
-/

namespace FbThrift.Rocket

open SortedMap

variable {owner : Owner} {stream held : Bytes} {log : List Event}

/-- A connection has read the stream with one of the strategies, in reads that fit. -/
inductive ReadBy (owner : Owner) (stream : Bytes) : List Event → Bytes → Prop where
  | length (room : FrameLengthParser.QueueRoom) (reads : List Bytes)
      (fits : (FrameLengthParser.strategy owner room).Fits {} reads)
      (whole : reads.flatten = stream) :
      ReadBy owner stream ((FrameLengthParser.strategy owner room).run {} reads).2.log
        ((FrameLengthParser.strategy owner room).run {} reads).2.readBufQueue
  | allocating (minBufferSize : Nat) (minimum : 3 ≤ minBufferSize) (reads : List Bytes)
      (fits : (AllocatingParser.strategy owner).Fits { minBufferSize := minBufferSize } reads)
      (whole : reads.flatten = stream) :
      ReadBy owner stream
        ((AllocatingParser.strategy owner).run { minBufferSize := minBufferSize } reads).2.log
        ((AllocatingParser.strategy owner).run { minBufferSize := minBufferSize } reads).2.buffer

/-- The frames that an owner makes of what a parser hands over. -/
def handedFrames (log : List Event) : Except String (List Frame) :=
  (handledFrames log).mapM fun body => Prod.fst <$> readFrame body

theorem FrameLengthParser.splits (grants : owner.Grants) (room : FrameLengthParser.QueueRoom) :
    SplitsFrames owner (FrameLengthParser.strategy owner room) {} FrameLengthParser.log
      FrameLengthParser.readBufQueue := by
  refine splitsFrames_of_step FrameLengthParser.Sync
    (FrameLengthParser.receivedBytes_readDataAvailable owner)
    (fun p sync => ⟨sync.stream, sync.valid⟩) ?_ FrameLengthParser.sync_init rfl
    ⟨rfl, FrameLengthParser.getReadBuffer_pos room _⟩
  intro p bytes sync _
  obtain ⟨sync, stuck, returns⟩ := FrameLengthParser.sync_readDataAvailable grants sync bytes
  exact ⟨sync, fun returned => ⟨stuck returned, FrameLengthParser.getReadBuffer_pos room _⟩,
    returns⟩

theorem AllocatingParser.receivedBytes_read (p : AllocatingParser) (bytes : Bytes) :
    receivedBytes ((AllocatingParser.strategy owner).read p bytes).2.log =
      receivedBytes p.log ++ bytes := by
  have kept : p.getReadBuffer.2.log = p.log := by
    unfold AllocatingParser.getReadBuffer
    dsimp only
    split <;> rfl
  rw [← kept]
  exact AllocatingParser.receivedBytes_readDataAvailable owner _ bytes

theorem AllocatingParser.splits (grants : owner.Grants) {minBufferSize : Nat}
    (minimum : 3 ≤ minBufferSize) :
    SplitsFrames owner (AllocatingParser.strategy owner) { minBufferSize := minBufferSize }
      AllocatingParser.log AllocatingParser.buffer := by
  refine splitsFrames_of_step AllocatingParser.Between AllocatingParser.receivedBytes_read
    ?_ ?_ (.fresh minimum) rfl ⟨rfl, Nat.le_trans (by decide) minimum⟩
  · intro p between
    cases between with
    | fresh => exact ⟨rfl, by simp⟩
    | sync sync => exact ⟨sync.stream, sync.valid⟩
  · intro p bytes between fits
    have sync := between.getReadBuffer
    have below := sync.fits
    change bytes.length ≤ p.getReadBuffer.2.currentBufferSize - p.getReadBuffer.2.size at fits
    have enough : p.getReadBuffer.2.size + bytes.length ≤
        p.getReadBuffer.2.currentBufferSize := by omega
    obtain ⟨sync, waits, returns⟩ := AllocatingParser.sync_readDataAvailable grants sync enough
    exact ⟨.sync sync, fun returned =>
      ⟨(waits returned).next_eq_none, (waits returned).getReadBuffer sync⟩, returns⟩

theorem ReadBy.split (grants : owner.Grants) (returns : owner.Returns)
    (readBy : ReadBy owner stream log held) :
    frames.split stream = (handledFrames log, held) := by
  cases readBy with
  | length room reads fits whole =>
    rcases FrameLengthParser.splits grants room reads fits with ⟨-, split, returned⟩
    rw [← whole]
    exact (split (returned returns)).1
  | allocating minBufferSize minimum reads fits whole =>
    rcases AllocatingParser.splits grants minimum reads fits with ⟨-, split, returned⟩
    rw [← whole]
    exact (split (returned returns)).1

/-- Behind frames that are whole nothing is left. -/
theorem split_flatten {wire : List Bytes} (carries : ∀ bytes ∈ wire, ∃ frame, Carries bytes frame) :
    (frames.split wire.flatten).2 = [] := by
  obtain ⟨bodies, same, valid⟩ : ∃ bodies, wire.flatten = frames.encodeAll bodies ∧
      ∀ body ∈ bodies, frames.Valid body := by
    induction wire with
    | nil => exact ⟨[], rfl, by simp⟩
    | cons bytes wire ih =>
      obtain ⟨_, body, rfl, fits, -⟩ := carries bytes (by simp)
      obtain ⟨bodies, same, valid⟩ := ih fun bytes member => carries bytes (by simp [member])
      exact ⟨body :: bodies, congrArg (encodeFrame body ++ ·) same,
        List.forall_mem_cons.mpr ⟨fits, valid⟩⟩
  have split : frames.split (frames.encodeAll bodies ++ []) = (bodies, []) :=
    frames.split_encodeAll valid rfl
  rw [List.append_nil, ← same] at split
  exact congrArg Prod.snd split

/-- A connection that has read all that was written holds nothing back. -/
theorem ReadBy.handedFrames {wire : List Bytes} (grants : owner.Grants) (returns : owner.Returns)
    (carries : ∀ bytes ∈ wire, ∃ frame, Carries bytes frame)
    (readBy : ReadBy owner wire.flatten log held) :
    held = [] ∧ handedFrames log = .ok (wire.map frameOf) := by
  have split := readBy.split grants returns
  have left := split_flatten carries
  have read := readFrames_flatten carries
  rw [readFrames] at read
  rw [split] at left read
  exact ⟨left, read⟩

end FbThrift.Rocket
