import FbThrift.Rocket.FrameLengthParser
import FbThrift.Rocket.AllocatingParser

/-!
# Frame splitting does not depend on chunking or strategy

However a stream is cut into reads, both strategies hand over the frames that `frames.split`
finds in it and keep the rest.  A parser whose owner throws is closed; what it handed over
until then, followed by what it holds, is still the stream.
-/

namespace FbThrift.Rocket

/-- A strategy splits a stream as `frames.split` does: after any reads within what was
offered, the stream is the frames handed over and the bytes held.  When all reads returned,
which they do as long as the owner does not throw, no complete frame is held, and there is
room for the next read. -/
def SplitsFrames {σ : Type} (owner : Owner) (strategy : ParserStrategy σ) (init : σ)
    (log : σ → List Event) (held : σ → Bytes) : Prop :=
  ∀ reads : List Bytes, strategy.Fits init reads →
    reads.flatten = frames.encodeAll (handledFrames (log (strategy.run init reads).2)) ++
      held (strategy.run init reads).2 ∧
    ((strategy.run init reads).1 = true → frames.split reads.flatten =
          (handledFrames (log (strategy.run init reads).2), held (strategy.run init reads).2) ∧
        1 ≤ (strategy.getReadBuffer (strategy.run init reads).2).1) ∧
    (owner.Returns → (strategy.run init reads).1 = true)

variable {owner : Owner}

section Rule

variable {σ : Type} {strategy : ParserStrategy σ} {init : σ} {log : σ → List Event}
variable {held : σ → Bytes}

/-- A strategy splits frames if its reads keep the stream in step with what it holds and
leave no complete frame. -/
theorem splitsFrames_of_step (Inv : σ → Prop) (received : ∀ s bytes,
      receivedBytes (log (strategy.read s bytes).2) = receivedBytes (log s) ++ bytes)
    (tracks : ∀ s, Inv s →
      receivedBytes (log s) = frames.encodeAll (handledFrames (log s)) ++ held s ∧
        ∀ frame ∈ handledFrames (log s), frames.Valid frame)
    (step : ∀ s bytes, Inv s → bytes.length ≤ (strategy.getReadBuffer s).1 →
      Inv (strategy.read s bytes).2 ∧ ((strategy.read s bytes).1 = true →
          frames.next (held (strategy.read s bytes).2) = none ∧
            1 ≤ (strategy.getReadBuffer (strategy.read s bytes).2).1) ∧
        (owner.Returns → (strategy.read s bytes).1 = true))
    (start : Inv init) (fresh : log init = [])
    (ready : frames.next (held init) = none ∧ 1 ≤ (strategy.getReadBuffer init).1) :
    SplitsFrames owner strategy init log held := by
  intro reads fits
  have stream : receivedBytes (log (strategy.run init reads).2) = reads.flatten := by
    rw [strategy.run_stream (fun s => receivedBytes (log s)) received init reads, fresh]
    rfl
  have inv : Inv (strategy.run init reads).2 :=
    strategy.run_invariant Inv (fun s bytes inv room => (step s bytes inv room).1) start fits
  obtain ⟨whole, valid⟩ := tracks _ inv
  rw [stream] at whole
  refine ⟨whole, ?_, ?_⟩
  · intro returned
    obtain ⟨-, stuck, room⟩ := strategy.run_returned
      (fun s => Inv s ∧ frames.next (held s) = none ∧ 1 ≤ (strategy.getReadBuffer s).1)
      (fun s bytes inv room returned =>
        ⟨(step s bytes inv.1 room).1, (step s bytes inv.1 room).2.1 returned⟩)
      ⟨start, ready⟩ fits returned
    refine ⟨?_, room⟩
    rw [whole]
    exact frames.split_encodeAll valid stuck
  · intro returns
    exact strategy.run_returns Inv (fun s bytes inv room =>
        ⟨(step s bytes inv room).1, (step s bytes inv room).2.2 returns⟩) start fits

end Rule

theorem FrameLengthParser.getReadBuffer_pos (room : FrameLengthParser.QueueRoom)
    (p : FrameLengthParser) : 1 ≤ p.getReadBuffer room := by
  have enough := room.preallocate_ge p minBufferSize maxBufferSize
  simp only [minBufferSize] at enough
  unfold FrameLengthParser.getReadBuffer
  split
  · exact Nat.le_trans (by decide) enough
  · rename_i tailroom
    exact Nat.le_trans (by decide) (Nat.le_of_not_lt tailroom)

/-- For every owner that grants all memory, every stream and every way of cutting it into
reads, both strategies hand over the complete frames of the stream, in order and without
the length field, keep what follows them and offer room for at least one byte. -/
theorem splitsFrames (owner : Owner) (grants : owner.Grants)
    (room : FrameLengthParser.QueueRoom) (minBufferSize : Nat) (minimum : 3 ≤ minBufferSize) :
    SplitsFrames owner (FrameLengthParser.strategy owner room) {} FrameLengthParser.log
        FrameLengthParser.readBufQueue ∧
      SplitsFrames owner (AllocatingParser.strategy owner) { minBufferSize := minBufferSize }
        AllocatingParser.log AllocatingParser.buffer := by
  constructor
  · refine splitsFrames_of_step FrameLengthParser.Sync
      (FrameLengthParser.receivedBytes_readDataAvailable owner)
      (fun p sync => ⟨sync.stream, sync.valid⟩) ?_ FrameLengthParser.sync_init rfl
      ⟨rfl, FrameLengthParser.getReadBuffer_pos room _⟩
    intro p bytes sync _
    obtain ⟨sync, stuck, returns⟩ := FrameLengthParser.sync_readDataAvailable grants sync bytes
    exact ⟨sync, fun returned => ⟨stuck returned, FrameLengthParser.getReadBuffer_pos room _⟩,
      returns⟩
  · refine splitsFrames_of_step AllocatingParser.Between ?_ ?_ ?_ (.fresh minimum) rfl
      ⟨rfl, Nat.le_trans (by decide) minimum⟩
    · intro p bytes
      have kept : p.getReadBuffer.2.log = p.log := by
        unfold AllocatingParser.getReadBuffer
        dsimp only
        split <;> rfl
      rw [← kept]
      exact AllocatingParser.receivedBytes_readDataAvailable owner _ bytes
    · intro p between
      cases between with
      | fresh => exact ⟨rfl, by simp⟩
      | sync sync => exact ⟨sync.stream, sync.valid⟩
    · intro p bytes between fits
      have sync := between.getReadBuffer
      have below := sync.fits
      change bytes.length ≤ p.getReadBuffer.2.currentBufferSize - p.getReadBuffer.2.size at fits
      have enough : p.getReadBuffer.2.size + bytes.length ≤
          p.getReadBuffer.2.currentBufferSize := by omega
      obtain ⟨sync, waits, returns⟩ := AllocatingParser.sync_readDataAvailable grants sync enough
      exact ⟨.sync sync, fun returned =>
        ⟨(waits returned).next_eq_none, (waits returned).getReadBuffer sync⟩, returns⟩

/-- Two frames, the first of them empty, in reads of two, three and two bytes. -/
theorem splitsFrames_cut : let owner : Owner := ⟨fun _ _ => true, fun _ _ => true⟩
    let room : FrameLengthParser.QueueRoom :=
      ⟨fun _ => 0, fun _ min _ => min, fun _ _ _ => Nat.le_refl _⟩
    let queued := FrameLengthParser.strategy owner room
    let copied := AllocatingParser.strategy owner
    let reads : List Bytes := [[0, 0], [0, 0, 0], [1, 7]]
    frames.split reads.flatten =
        (handledFrames (queued.run {} reads).2.log, (queued.run {} reads).2.readBufQueue) ∧
      frames.split reads.flatten = (handledFrames (copied.run { minBufferSize := 16 } reads).2.log,
          (copied.run { minBufferSize := 16 } reads).2.buffer) := by
  intro owner room queued copied reads
  obtain ⟨first, second⟩ := splitsFrames owner (fun _ _ => rfl) room 16 (by decide)
  obtain ⟨-, returned, returns⟩ := first reads (by decide +kernel)
  obtain ⟨-, returned', returns'⟩ := second reads (by decide +kernel)
  exact ⟨(returned (returns fun _ _ => rfl)).1, (returned' (returns' fun _ _ => rfl)).1⟩

end FbThrift.Rocket
