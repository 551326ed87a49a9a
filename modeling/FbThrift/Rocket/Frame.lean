import FbThrift.Lib.Framing
import FbThrift.Lib.Decoder

/-!
# Rocket frames on the wire

A frame stands behind a length field of three bytes, most significant first.  A parser
strategy offers the transport room for bytes, is told what arrived and calls its owner:
`incMemoryUsage` when it has read a length, `handleFrame` for a complete frame and
`decMemoryUsage` when the frame is done.  The calls are kept in a log of events, and an
owner decides what its calls return from the events so far.
-/

namespace FbThrift.Rocket

open Decoder

/-! ## The length field -/

/-- `Serializer::kBytesForFrameOrMetadataLength`. -/
abbrev kBytesForFrameOrMetadataLength : Nat := 3

/-- `Serializer::kMinimumFrameHeaderLength`, the length field included. -/
abbrev kMinimumFrameHeaderLength : Nat := 9

/-- The number in the first three bytes; a cursor throws when they are not there. -/
def readFrameOrMetadataSize : Bytes → Option Nat
  | b0 :: b1 :: b2 :: _ => some (b0.toNat <<< 16 ||| b1.toNat <<< 8 ||| b2.toNat)
  | _ => none

def writeFrameOrMetadataSize (nbytes : Nat) : Bytes :=
  writeBE kBytesForFrameOrMetadataLength nbytes

theorem shift_or_shift_or (a b c : Nat) (hb : b < 256) (hc : c < 256) :
    a <<< 16 ||| b <<< 8 ||| c = a * 65536 + b * 256 + c := by
  have low : b <<< 8 ||| c = b * 256 + c := by
    rw [← Nat.shiftLeft_add_eq_or_of_lt (by omega), Nat.shiftLeft_eq]
  have high : a <<< 16 ||| (b <<< 8 ||| c) = a <<< 16 + (b <<< 8 ||| c) :=
    (Nat.shiftLeft_add_eq_or_of_lt (by omega) a).symm
  rw [Nat.or_assoc, high, low, Nat.shiftLeft_eq]
  omega

theorem readFrameOrMetadataSize_cons (b0 b1 b2 : UInt8) (rest : Bytes) :
    readFrameOrMetadataSize (b0 :: b1 :: b2 :: rest) =
      some (b0.toNat * 65536 + b1.toNat * 256 + b2.toNat) := by
  rw [readFrameOrMetadataSize, shift_or_shift_or _ _ _ b1.toNat_lt b2.toNat_lt]

variable {n : Nat} {s : Bytes}

theorem readFrameOrMetadataSize_write (fits : n < 2 ^ 24) (rest : Bytes) :
    readFrameOrMetadataSize (writeFrameOrMetadataSize n ++ rest) = some n := by
  simp only [writeFrameOrMetadataSize, writeBE, List.cons_append, List.nil_append,
    readFrameOrMetadataSize_cons, UInt8.toNat_ofNat']
  congr 1
  omega

/-- The length field is all that a length was read from. -/
theorem of_readFrameOrMetadataSize (read : readFrameOrMetadataSize s = some n) :
    n < 2 ^ 24 ∧ s = writeFrameOrMetadataSize n ++ s.drop 3 := by
  match s, read with
  | b0 :: b1 :: b2 :: rest, read =>
    rw [readFrameOrMetadataSize_cons] at read
    cases read
    have h0 := b0.toNat_lt
    have h1 := b1.toNat_lt
    have h2 := b2.toNat_lt
    refine ⟨by omega, ?_⟩
    simp only [writeFrameOrMetadataSize, writeBE, List.cons_append, List.nil_append,
      List.drop_succ_cons, List.drop_zero]
    congr 1
    · rw [← UInt8.toNat_inj, UInt8.toNat_ofNat']
      omega
    · congr 1
      · rw [← UInt8.toNat_inj, UInt8.toNat_ofNat']
        omega
      · congr 1
        rw [← UInt8.toNat_inj, UInt8.toNat_ofNat']
        omega

theorem readFrameOrMetadataSize_eq_none : readFrameOrMetadataSize s = none ↔ s.length < 3 := by
  match s with
  | [] | [_] | [_, _] => simp [readFrameOrMetadataSize]
  | _ :: _ :: _ :: _ => simp [readFrameOrMetadataSize]

theorem readFrameOrMetadataSize_append (read : readFrameOrMetadataSize s = some n) (more : Bytes) :
    readFrameOrMetadataSize (s ++ more) = some n := by
  match s, read with
  | _ :: _ :: _ :: _, read => exact read

/-! ## Plain frame splitting -/

/-- A frame behind its length field. -/
def encodeFrame (frame : Bytes) : Bytes := writeFrameOrMetadataSize frame.length ++ frame

/-- The first frame of a stream, as soon as all of it is there. -/
def nextFrame (s : Bytes) : Option (Bytes × Bytes) :=
  match readFrameOrMetadataSize s with
  | none => none
  | some n =>
    if n + kBytesForFrameOrMetadataLength ≤ s.length then
      some ((s.drop 3).take n, (s.drop 3).drop n)
    else none

@[simp] theorem length_writeFrameOrMetadataSize (n : Nat) :
    (writeFrameOrMetadataSize n).length = 3 :=
  length_writeBE 3 n

@[simp] theorem length_encodeFrame (frame : Bytes) :
    (encodeFrame frame).length = 3 + frame.length := by
  simp [encodeFrame]

/-- Frames of less than 2^24 bytes behind their length fields. -/
def frames : Framing UInt8 Bytes where
  Valid frame := frame.length < 2 ^ 24
  encode := encodeFrame
  next := nextFrame
  encode_ne_nil frame := by
    apply List.ne_nil_of_length_pos
    rw [length_encodeFrame]
    omega
  next_encode := by
    intro frame rest fits
    have drops : (encodeFrame frame ++ rest).drop 3 = frame ++ rest := by
      rw [encodeFrame, List.append_assoc]
      exact List.drop_left' (length_writeFrameOrMetadataSize _)
    have read : readFrameOrMetadataSize (encodeFrame frame ++ rest) = some frame.length := by
      rw [encodeFrame, List.append_assoc]
      exact readFrameOrMetadataSize_write fits _
    rw [nextFrame, read, drops]
    simp [Nat.add_comm]
  of_next := by
    intro s frame rest found
    unfold nextFrame at found
    split at found
    · cases found
    · rename_i n read
      split at found
      next enough =>
        cases found
        obtain ⟨fits, same⟩ := of_readFrameOrMetadataSize read
        have length : ((s.drop 3).take n).length = n := by
          simp only [kBytesForFrameOrMetadataLength] at enough
          simp only [List.length_take, List.length_drop]
          omega
        refine ⟨by rw [length]; exact fits, ?_⟩
        rw [encodeFrame, length, List.append_assoc, List.take_append_drop]
        exact same
      next => cases found

/-- A stream has no complete frame: its length field is not complete, or the frame behind
it is not. -/
theorem nextFrame_eq_none : nextFrame s = none ↔
      s.length < 3 ∨ ∃ n, readFrameOrMetadataSize s = some n ∧ s.length < n + 3 := by
  unfold nextFrame
  cases read : readFrameOrMetadataSize s with
  | none => simp [readFrameOrMetadataSize_eq_none.mp read]
  | some n =>
    have long : ¬ s.length < 3 := by
      intro short
      rw [readFrameOrMetadataSize_eq_none.mpr short] at read
      cases read
    simp only [ite_eq_right_iff, reduceCtorEq, imp_false, Nat.not_le, Option.some.injEq,
      exists_eq_left', long, false_or]

/-! ## Owners and their logs -/

/-- A call between a parser, its owner and the transport. -/
inductive Event where
  /-- Bytes that the transport wrote into the read buffer. -/
  | received (bytes : Bytes)
  | incMemoryUsage (memSize : Nat) (granted : Bool)
  | decMemoryUsage (memSize : Nat)
  /-- A call that did not return threw. -/
  | handleFrame (frame : Bytes) (returned : Bool)
  deriving DecidableEq, Repr

/-- What an owner answers, given all the calls before. -/
structure Owner where
  incMemoryUsage : List Event → Nat → Bool
  handleFrame : List Event → Bytes → Bool

/-- An owner whose memory tracker never refuses a charge. -/
def Owner.Grants (owner : Owner) : Prop :=
  ∀ log memSize, owner.incMemoryUsage log memSize = true

/-- An owner that handles every frame without throwing. -/
def Owner.Returns (owner : Owner) : Prop :=
  ∀ log frame, owner.handleFrame log frame = true

namespace Event

/-- The bytes an event brought in. -/
def bytes : Event → Bytes
  | .received bytes => bytes
  | _ => []

/-- The frame an event handed over. -/
def frames : Event → List Bytes
  | .handleFrame frame _ => [frame]
  | _ => []

/-- What an event changes in the outstanding charge. -/
def charge : Event → Int
  | .incMemoryUsage memSize true => memSize
  | .decMemoryUsage memSize => -memSize
  | _ => 0

end Event

/-- The byte stream up to the end of a log. -/
def receivedBytes (log : List Event) : Bytes := log.flatMap Event.bytes

/-- The frames handed to the owner, in order. -/
def handledFrames (log : List Event) : List Bytes := log.flatMap Event.frames

/-- The memory charged by the calls that returned true, less the memory released. -/
def outstanding (log : List Event) : Int := (log.map Event.charge).sum

@[simp] theorem receivedBytes_append (log more : List Event) :
    receivedBytes (log ++ more) = receivedBytes log ++ receivedBytes more := by
  simp [receivedBytes]

@[simp] theorem handledFrames_append (log more : List Event) :
    handledFrames (log ++ more) = handledFrames log ++ handledFrames more := by
  simp [handledFrames]

@[simp] theorem outstanding_append (log more : List Event) :
    outstanding (log ++ more) = outstanding log + outstanding more := by
  simp [outstanding]

@[simp] theorem receivedBytes_cons (event : Event) (log : List Event) :
    receivedBytes (event :: log) = event.bytes ++ receivedBytes log := by
  simp [receivedBytes]

@[simp] theorem handledFrames_cons (event : Event) (log : List Event) :
    handledFrames (event :: log) = event.frames ++ handledFrames log := by
  simp [handledFrames]

@[simp] theorem outstanding_cons (event : Event) (log : List Event) :
    outstanding (event :: log) = event.charge + outstanding log := by
  simp [outstanding]

@[simp] theorem receivedBytes_nil : receivedBytes [] = [] := rfl

@[simp] theorem handledFrames_nil : handledFrames [] = [] := rfl

@[simp] theorem outstanding_nil : outstanding [] = 0 := rfl

/-- A property of the log and the frame at every `handleFrame` call. -/
def AtCalls (P : List Event → Bytes → Prop) (log : List Event) : Prop :=
  ∀ before frame returned after,
    log = before ++ .handleFrame frame returned :: after → P before frame

theorem AtCalls.nil (P : List Event → Bytes → Prop) : AtCalls P [] := by
  intro before frame returned after same
  simp at same

theorem AtCalls.append {P : List Event → Bytes → Prop} {log : List Event} {event : Event}
    (calls : AtCalls P log)
    (last : ∀ frame returned, event = .handleFrame frame returned → P log frame) :
    AtCalls P (log ++ [event]) := by
  intro before frame returned after same
  rcases List.append_eq_append_iff.mp same with ⟨middle, rfl, rest⟩ | ⟨middle, rfl, rest⟩
  · cases middle with
    | nil =>
      rw [List.append_nil]
      exact last frame returned (List.cons.inj rest).1
    | cons first middle => simp at rest
  · cases middle with
    | nil =>
      rw [List.append_nil] at last
      exact last frame returned (List.cons.inj rest).1.symm
    | cons first middle =>
      rw [List.cons_append, List.cons.injEq] at rest
      obtain ⟨rfl, rfl⟩ := rest
      exact calls before frame returned middle rfl

/-! ## Runs of a strategy -/

/-- What a parser strategy does for the transport: `getReadBuffer` says how many bytes
there is room for, `readDataAvailable` takes the bytes and says whether it returned. -/
structure ParserStrategy (σ : Type) where
  getReadBuffer : σ → Nat × σ
  readDataAvailable : σ → Bytes → Bool × σ

namespace ParserStrategy

variable {σ : Type} (strategy : ParserStrategy σ)

/-- One read: the transport asks for room and fills some of it. -/
def read (s : σ) (bytes : Bytes) : Bool × σ :=
  strategy.readDataAvailable (strategy.getReadBuffer s).2 bytes

/-- A sequence of reads: whether all of them returned, and the state they leave. -/
def run (s : σ) : List Bytes → Bool × σ
  | [] => (true, s)
  | bytes :: reads =>
    let (returned, t) := strategy.read s bytes
    let (others, u) := run t reads
    (returned && others, u)

/-- Every read is at most what was offered for it. -/
def Fits (s : σ) : List Bytes → Prop
  | [] => True
  | bytes :: reads =>
    bytes.length ≤ (strategy.getReadBuffer s).1 ∧ Fits (strategy.read s bytes).2 reads

instance decidableFits (s : σ) (reads : List Bytes) : Decidable (strategy.Fits s reads) :=
  match reads with
  | [] => inferInstanceAs (Decidable True)
  | bytes :: reads =>
    have := decidableFits (strategy.read s bytes).2 reads
    inferInstanceAs (Decidable (_ ∧ _))

@[simp] theorem run_nil (s : σ) : strategy.run s [] = (true, s) := rfl

@[simp] theorem run_cons (s : σ) (bytes : Bytes) (reads : List Bytes) :
    strategy.run s (bytes :: reads) =
      ((strategy.read s bytes).1 && (strategy.run (strategy.read s bytes).2 reads).1,
        (strategy.run (strategy.read s bytes).2 reads).2) := rfl

theorem run_append (s : σ) (reads more : List Bytes) :
    (strategy.run s (reads ++ more)).2 = (strategy.run (strategy.run s reads).2 more).2 := by
  induction reads generalizing s with
  | nil => rfl
  | cons bytes reads ih => exact ih _

theorem fits_append (s : σ) (reads more : List Bytes) : strategy.Fits s (reads ++ more) ↔
      strategy.Fits s reads ∧ strategy.Fits (strategy.run s reads).2 more := by
  induction reads generalizing s with
  | nil => simp [Fits]
  | cons bytes reads ih => simp [Fits, ih, and_assoc]

variable {s : σ} {reads : List Bytes}

theorem run_invariant (Inv : σ → Prop)
    (step : ∀ s bytes, Inv s → bytes.length ≤ (strategy.getReadBuffer s).1 →
      Inv (strategy.read s bytes).2) (holds : Inv s) (fits : strategy.Fits s reads) :
    Inv (strategy.run s reads).2 := by
  induction reads generalizing s with
  | nil => exact holds
  | cons bytes reads ih =>
    obtain ⟨room, fits⟩ := fits
    exact ih (step s bytes holds room) fits

/-- The same when the room offered does not matter. -/
theorem run_always (Inv : σ → Prop)
    (step : ∀ s bytes, Inv s → Inv (strategy.read s bytes).2) (holds : Inv s)
    (reads : List Bytes) : Inv (strategy.run s reads).2 := by
  induction reads generalizing s with
  | nil => exact holds
  | cons bytes reads ih => exact ih (step s bytes holds)

/-- The same for a state that is kept only as long as the reads return. -/
theorem run_returned (Inv : σ → Prop)
    (step : ∀ s bytes, Inv s → bytes.length ≤ (strategy.getReadBuffer s).1 →
      (strategy.read s bytes).1 = true → Inv (strategy.read s bytes).2) (holds : Inv s) (fits : strategy.Fits s reads)
    (returned : (strategy.run s reads).1 = true) : Inv (strategy.run s reads).2 := by
  induction reads generalizing s with
  | nil => exact holds
  | cons bytes reads ih =>
    obtain ⟨room, fits⟩ := fits
    rw [run_cons, Bool.and_eq_true] at returned
    exact ih (step s bytes holds room returned.1) fits returned.2

theorem run_returns (Inv : σ → Prop)
    (step : ∀ s bytes, Inv s → bytes.length ≤ (strategy.getReadBuffer s).1 →
      Inv (strategy.read s bytes).2 ∧ (strategy.read s bytes).1 = true) (holds : Inv s) (fits : strategy.Fits s reads) :
    (strategy.run s reads).1 = true := by
  induction reads generalizing s with
  | nil => rfl
  | cons bytes reads ih =>
    obtain ⟨room, fits⟩ := fits
    obtain ⟨holds, returned⟩ := step s bytes holds room
    rw [run_cons, Bool.and_eq_true]
    exact ⟨returned, ih holds fits⟩

theorem run_stream (stream : σ → Bytes)
    (step : ∀ s bytes, stream (strategy.read s bytes).2 = stream s ++ bytes)
    (s : σ) (reads : List Bytes) :
    stream (strategy.run s reads).2 = stream s ++ reads.flatten := by
  induction reads generalizing s with
  | nil => simp
  | cons bytes reads ih =>
    rw [run_cons, ih, step, List.append_assoc, List.flatten_cons]

end ParserStrategy

end FbThrift.Rocket
