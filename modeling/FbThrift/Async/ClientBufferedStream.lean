import Mathlib.Data.UInt
import FbThrift.Lib.CreditLoop

/-!
# Client streams

`ClientBufferedStream` consumes a stream in one of three loops.  `subscribeInline` and
`toAsyncGeneratorImpl` grant credits in chunks; `toAsyncGeneratorWithSizeTarget` grants as many as
are estimated to fill a buffer of a given size.

The loops differ in what they do with header frames, which carry no payload: an ordered one was sent
for a credit, an unordered one was not.
-/

namespace FbThrift.ClientBufferedStream

open CreditLoop

/-- A message of the server. -/
inductive StreamMessage where
  | payload (size : UInt64) (nonempty : size ≠ 0)
  | header (isOrderedHeader : Bool)
  | error
  | complete

namespace StreamMessage

/-- The messages that consume a credit. -/
def charged : StreamMessage → Bool
  | payload _ _ => true
  | header isOrderedHeader => isOrderedHeader
  | error => false
  | complete => false

def last : StreamMessage → Bool
  | error => true
  | complete => true
  | _ => false

/-- `computeChainDataLength()` of the payload. -/
def size : StreamMessage → UInt64
  | payload size _ => size
  | _ => 0

end StreamMessage

open StreamMessage

def kRequestCreditPayloadSize : UInt64 := 16384

/-! ## Credits in chunks -/

/-- The local variables of `subscribeInline` and `toAsyncGeneratorImpl`. -/
structure ChunkCredits where
  chunkBufferSize : Int
  outstanding : Int
  payloadDataSize : UInt64

namespace ChunkCredits

/-- The chunk size that the loops go on with: a size of zero is raised when a credit is asked. -/
def chunkOf (chunkBufferSize : Int) : Int := if chunkBufferSize = 0 then 1 else chunkBufferSize

def start (chunkBufferSize : Int) : ChunkCredits :=
  ⟨chunkOf chunkBufferSize, chunkOf chunkBufferSize, 0⟩

def updateCredits (c : ChunkCredits) : ChunkCredits × List Int :=
  let outstanding := c.outstanding - 1
  if outstanding ≤ c.chunkBufferSize / 2 ∨ kRequestCreditPayloadSize ≤ c.payloadDataSize then
    ({ c with outstanding := c.chunkBufferSize, payloadDataSize := 0 },
      [c.chunkBufferSize - outstanding])
  else ({ c with outstanding := outstanding }, [])

def receive (c : ChunkCredits) (size : UInt64) : ChunkCredits :=
  { c with payloadDataSize := c.payloadDataSize + size }

end ChunkCredits

/-- The loop of `subscribeInline`. -/
def subscribeInline : Consumer ChunkCredits StreamMessage where
  charged := charged
  last := last
  eager := false
  outstanding := ChunkCredits.outstanding
  append _ c := c
  handle
    | .payload size _, c => (c.receive size).updateCredits
    -- Dropping unhandled stream header frame
    | .header _, c => c.updateCredits
    | _, c => (c, [])

/-- The loop of `toAsyncGeneratorImpl`, which yields header frames or drops them. -/
def toAsyncGeneratorImpl : Consumer ChunkCredits StreamMessage where
  charged := charged
  last := last
  eager := false
  outstanding := ChunkCredits.outstanding
  append _ c := c
  handle
    | .payload size _, c => (c.receive size).updateCredits
    | .header true, c => c.updateCredits
    | _, c => (c, [])

/-! ## Credits for a buffer of a given size -/

abbrev kEstimationWindowSize : Nat := 128

/-- The local variables of `toAsyncGeneratorWithSizeTarget`. -/
structure SizeTarget where
  memBufferTarget : UInt64
  maxChunkBufferSize : Int
  outstanding : Int
  bufferMemSize : UInt64
  /-- A circular buffer with the latest payload sizes. -/
  payloadSizesWindow : Vector UInt64 kEstimationWindowSize
  windowSum : UInt64
  numReceivedPayloads : UInt64
  maxPayloadSize : UInt64

namespace SizeTarget

def start (memBufferTarget : UInt64) (maxChunkBufferSize chunkBufferSize : Int) : SizeTarget where
  memBufferTarget := memBufferTarget
  maxChunkBufferSize := maxChunkBufferSize
  outstanding := ChunkCredits.chunkOf chunkBufferSize
  bufferMemSize := 0
  payloadSizesWindow := .replicate _ 0
  windowSum := 0
  numReceivedPayloads := 0
  maxPayloadSize := 0

/-- The recent average payload size, or the largest size before enough payloads were received. -/
def estPayloadSize (c : SizeTarget) : UInt64 :=
  max (if c.numReceivedPayloads < UInt64.ofNat kEstimationWindowSize then c.maxPayloadSize
    else (c.windowSum + UInt64.ofNat kEstimationWindowSize - 1) /
      UInt64.ofNat kEstimationWindowSize) 1

/-- What is left of the target, as a signed size that is not negative. -/
def spaceAvailable (c : SizeTarget) : UInt64 :=
  let outstandingSize := c.bufferMemSize + UInt64.ofInt c.outstanding * c.estPayloadSize
  let space := (c.memBufferTarget - outstandingSize).toInt64
  if space < 0 then 0 else space.toUInt64

/-- The available space in payloads of the estimated size. -/
def spaceInPayloads (c : SizeTarget) : UInt64 :=
  (c.spaceAvailable + c.estPayloadSize - 1) / c.estPayloadSize

/-- There is enough space to ask for more. -/
def issues (c : SizeTarget) : Bool :=
  kRequestCreditPayloadSize ≤ c.spaceAvailable || c.memBufferTarget / 2 ≤ c.spaceAvailable

/-- The cast of the request to int32. -/
def request (c : SizeTarget) : Int :=
  min (c.maxChunkBufferSize - c.outstanding) c.spaceInPayloads.toUInt32.toInt32.toInt

/-- A credit was used. -/
def spend (c : SizeTarget) : SizeTarget := { c with outstanding := c.outstanding - 1 }

def updateCredits (c : SizeTarget) : SizeTarget × List Int :=
  if c.spend.issues then
    ({ c.spend with outstanding := c.spend.outstanding + c.spend.request }, [c.spend.request])
  else (c.spend, [])

/-- A payload is taken from the queue. -/
def receive (c : SizeTarget) (payloadSize : UInt64) : SizeTarget :=
  let slot : Fin kEstimationWindowSize :=
    Fin.ofNat kEstimationWindowSize c.numReceivedPayloads.toNat
  { c with
    payloadSizesWindow := c.payloadSizesWindow.set slot payloadSize
    windowSum := c.windowSum - c.payloadSizesWindow[slot] + payloadSize
    numReceivedPayloads := c.numReceivedPayloads + 1
    maxPayloadSize := max c.maxPayloadSize payloadSize
    bufferMemSize := c.bufferMemSize - payloadSize }

end SizeTarget

/-- The payload bytes of messages. -/
def payloadBytes : List StreamMessage → UInt64
  | [] => 0
  | m :: ms => m.size + payloadBytes ms

/-- The loop of `toAsyncGeneratorWithSizeTarget`, which always looks for new messages. -/
def toAsyncGeneratorWithSizeTarget : Consumer SizeTarget StreamMessage where
  charged := charged
  last := last
  eager := true
  outstanding := SizeTarget.outstanding
  append ms c := { c with bufferMemSize := c.bufferMemSize + payloadBytes ms }
  handle
    | .payload size _, c => (c.receive size).updateCredits
    | .header true, c => c.updateCredits
    | _, c => (c, [])

/-! ## Streams -/

/-- A stream before its first iteration: the first request carries the chunk size, and where that is
zero one credit is asked for. -/
def begin {σ : Type} (client : σ) (chunkBufferSize : Int) : Channel σ StreamMessage where
  client := client
  queue := []
  bridge := []
  granted := ChunkCredits.chunkOf chunkBufferSize
  sent := 0
  taken := 0
  requests := if chunkBufferSize = 0 then [1] else []
  closed := false
  finished := false

end FbThrift.ClientBufferedStream
