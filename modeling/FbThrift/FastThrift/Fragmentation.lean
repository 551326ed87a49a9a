import FbThrift.FastThrift.Frame
import FbThrift.FastThrift.SrptHeap

/-!
# Fragmenting frames

`FrameFragmentationHandler`: a small frame passes, one that fits a fragment waits in a queue
while the heap has streams, and a large one becomes fragments, which a flush sends for the
stream with the fewest bytes first.  A flush stops where the next handler answers with
backpressure.
-/

namespace FbThrift.FastThrift

open Rocket (Flags)

structure FragmentationHandlerConfig where
  maxFragmentSize : Nat
  maxPendingBytes : Nat
  maxPendingFrames : Nat
  minSizeToFragment : Nat

structure OutboundFrame where
  streamId : UInt32
  frameType : FrameType
  flags : Flags
  payload : Bytes
  deriving DecidableEq

def OutboundFrame.payloadSize (frame : OutboundFrame) : Nat := frame.payload.length

structure PerStreamState where
  streamId : UInt32
  payloadQueue : Bytes
  frameType : FrameType
  originalFlags : Flags

namespace PerStreamState

def hasMore (state : PerStreamState) : Bool := state.payloadQueue ≠ []

def remaining (state : PerStreamState) : Nat := state.payloadQueue.length

/-- The state behind its next fragment. -/
def split (maxSize : Nat) (state : PerStreamState) : PerStreamState :=
  { state with payloadQueue := state.payloadQueue.drop maxSize }

/-- `nextFragment`, as the frame that is sent. -/
def fragmentFrame (maxSize : Nat) (state : PerStreamState) : OutboundFrame where
  streamId := state.streamId
  frameType := state.frameType
  flags := state.originalFlags.set .follows (state.split maxSize).hasMore
  payload := state.payloadQueue.take maxSize

end PerStreamState

/-- The handler behind this one: what it got, and its answer to each frame. -/
structure Pipeline where
  fired : List OutboundFrame
  results : Nat → Result

def Pipeline.fireWrite (ctx : Pipeline) (frame : OutboundFrame) : Result × Pipeline :=
  (ctx.results ctx.fired.length, { ctx with fired := ctx.fired ++ [frame] })

structure FrameFragmentationHandler where
  config : FragmentationHandlerConfig
  isScheduled : Bool
  backpressured : Bool
  pendingBytes : UInt64
  pendingFrames : UInt64
  immediateQueue : List OutboundFrame
  streams : SrptHeap PerStreamState

namespace FrameFragmentationHandler

/-- The handler after `handlerAdded`. -/
def new (config : FragmentationHandlerConfig) : FrameFragmentationHandler where
  config := config
  isScheduled := false
  backpressured := false
  pendingBytes := 0
  pendingFrames := 0
  immediateQueue := []
  streams := #[]

/-- `RemainingBytesFn`. -/
def key : PerStreamState → Nat := PerStreamState.remaining

/-- `addToStreamQueue`. -/
def addToStreamQueue (handler : FrameFragmentationHandler) (frame : OutboundFrame) :
    FrameFragmentationHandler :=
  let state : PerStreamState := ⟨frame.streamId, frame.payload, frame.frameType, frame.flags⟩
  match handler.streams.find frame.streamId with
  | some _ =>
    let streams := handler.streams.modify frame.streamId fun existing =>
      { state with streamId := existing.streamId }
    { handler with streams := streams.update key frame.streamId }
  | none => { handler with streams := handler.streams.insert key frame.streamId state }

def scheduleFlushIfNeeded (handler : FrameFragmentationHandler) : FrameFragmentationHandler :=
  { handler with isScheduled := true }

def cancelLoopCallbackIfScheduled (handler : FrameFragmentationHandler) :
    FrameFragmentationHandler :=
  { handler with isScheduled := false }

def cancelStream (handler : FrameFragmentationHandler) (streamId : UInt32) :
    FrameFragmentationHandler :=
  match handler.streams.find streamId with
  | some state =>
    { handler with
      pendingBytes := handler.pendingBytes - UInt64.ofNat state.remaining
      pendingFrames := handler.pendingFrames - 1
      streams := handler.streams.erase key streamId }
  | none => handler

/-- The first loop of `doFlush`: what is left of the queue, and the result if it is
backpressure. -/
def drainQueue : List OutboundFrame → Pipeline → List OutboundFrame × Pipeline × Option Result
  | [], ctx => ([], ctx, none)
  | frame :: queue, ctx =>
    let (result, ctx) := ctx.fireWrite frame
    if result = .backpressure then (queue, ctx, some result) else drainQueue queue ctx

/-- The second loop of `doFlush`.  It takes a number of turns that bounds it if fragments have
bytes, and no result means that it is still running. -/
def drainStreams (maxFragmentSize : Nat) :
    Nat → SrptHeap PerStreamState → Pipeline → SrptHeap PerStreamState × Pipeline × Option Result
  | 0, streams, ctx => (streams, ctx, none)
  | turns + 1, streams, ctx =>
    match streams.peekMin with
    | none => (streams, ctx, some .success)
    | some ⟨minStreamId, state⟩ =>
      if state.hasMore then
        let frame := state.fragmentFrame maxFragmentSize
        let follows := (state.split maxFragmentSize).hasMore
        let streams := streams.modify minStreamId (PerStreamState.split maxFragmentSize)
        let streams := streams.update key minStreamId
        let (result, ctx) := ctx.fireWrite frame
        if result = .backpressure then (streams, ctx, some result)
        else
          drainStreams maxFragmentSize turns
            (if follows then streams else streams.erase key minStreamId) ctx
      else drainStreams maxFragmentSize turns (streams.removeAt key 0) ctx

/-- The bytes and the streams of the heap. -/
def load (streams : SrptHeap PerStreamState) : Nat :=
  (streams.toList.map fun e => e.value.remaining + 1).sum

def doFlush (handler : FrameFragmentationHandler) (ctx : Pipeline) :
    FrameFragmentationHandler × Pipeline × Option Result :=
  match drainQueue handler.immediateQueue ctx with
  | (queue, ctx, some result) =>
    ({ handler with immediateQueue := queue, backpressured := true }, ctx, some result)
  | (queue, ctx, none) =>
    let handler := { handler with immediateQueue := queue }
    match drainStreams handler.config.maxFragmentSize (load handler.streams + 1) handler.streams
      ctx with
    | (streams, ctx, some .success) =>
      ({ handler with streams := streams, pendingBytes := 0, pendingFrames := 0 }, ctx,
        some .success)
    | (streams, ctx, some result) =>
      ({ handler with streams := streams, backpressured := true }, ctx, some result)
    | (streams, ctx, none) => ({ handler with streams := streams }, ctx, none)

/-- A frame that is fired at once. -/
def passes (handler : FrameFragmentationHandler) (frame : OutboundFrame) : Bool :=
  frame.payloadSize ≤ handler.config.minSizeToFragment ∨
    frame.payloadSize ≤ handler.config.maxFragmentSize ∧ handler.streams.isEmpty

/-- A frame that is kept for a flush. -/
def enqueue (handler : FrameFragmentationHandler) (frame : OutboundFrame) :
    FrameFragmentationHandler :=
  let handler :=
    if frame.payloadSize ≤ handler.config.maxFragmentSize then
      { handler with immediateQueue := handler.immediateQueue ++ [frame] }
    else handler.addToStreamQueue frame
  { handler with
    pendingBytes := handler.pendingBytes + UInt64.ofNat frame.payloadSize
    pendingFrames := handler.pendingFrames + 1 }

def onWrite (handler : FrameFragmentationHandler) (ctx : Pipeline) (frame : OutboundFrame) :
    FrameFragmentationHandler × Pipeline × Option Result :=
  if frame.frameType.isTerminal then
    let (result, ctx) := ctx.fireWrite frame
    (handler.cancelStream frame.streamId, ctx, some result)
  else if handler.passes frame then
    let (result, ctx) := ctx.fireWrite frame
    (handler, ctx, some result)
  else
    let handler := handler.enqueue frame
    if handler.config.maxPendingBytes < handler.pendingBytes.toNat ∨
        handler.config.maxPendingFrames < handler.pendingFrames.toNat then
      handler.cancelLoopCallbackIfScheduled.doFlush ctx
    else (handler.scheduleFlushIfNeeded, ctx, some .success)

def onWriteReady (handler : FrameFragmentationHandler) (ctx : Pipeline) :
    FrameFragmentationHandler × Pipeline × Option Result :=
  { handler with backpressured := false }.doFlush ctx

def runLoopCallback (handler : FrameFragmentationHandler) (ctx : Pipeline) :
    FrameFragmentationHandler × Pipeline × Option Result :=
  { handler with isScheduled := false }.doFlush ctx

end FrameFragmentationHandler

end FbThrift.FastThrift
