import FbThrift.Rocket.Header

/-!
# Frames of fast thrift

Frame types and their descriptors.  The wire format is that of Rocket, and so are the bits of
the flags; fast thrift knows three more types.
-/

namespace FbThrift.FastThrift

open Rocket (Flags)

inductive FrameType where
  | reserved
  | setup
  | lease
  | keepalive
  | requestResponse
  | requestFnf
  | requestStream
  | requestChannel
  | requestN
  | cancel
  | payload
  | error
  | metadataPush
  | resume
  | resumeOk
  | ext
  deriving DecidableEq, Repr

namespace FrameType

def code : FrameType → Nat
  | reserved => 0x00
  | setup => 0x01
  | lease => 0x02
  | keepalive => 0x03
  | requestResponse => 0x04
  | requestFnf => 0x05
  | requestStream => 0x06
  | requestChannel => 0x07
  | requestN => 0x08
  | cancel => 0x09
  | payload => 0x0A
  | error => 0x0B
  | metadataPush => 0x0C
  | resume => 0x0D
  | resumeOk => 0x0E
  | ext => 0x3F

/-- The type of the descriptor that `getDescriptor` returns for a code. -/
def ofCode : Nat → FrameType
  | 0x01 => setup
  | 0x02 => lease
  | 0x03 => keepalive
  | 0x04 => requestResponse
  | 0x05 => requestFnf
  | 0x06 => requestStream
  | 0x07 => requestChannel
  | 0x08 => requestN
  | 0x09 => cancel
  | 0x0A => payload
  | 0x0B => error
  | 0x0C => metadataPush
  | 0x0D => resume
  | 0x0E => resumeOk
  | 0x3F => ext
  | _ => reserved

theorem ofCode_code (frameType : FrameType) : ofCode frameType.code = frameType := by
  cases frameType <;> rfl

/-- `isTerminalFrameType`: the frame ends its stream. -/
def isTerminal (frameType : FrameType) : Bool := frameType = error ∨ frameType = cancel

end FrameType

def kBaseHeaderSize : Nat := 6

/-- `headerSize` of the descriptor. -/
def FrameType.headerSize : FrameType → Nat
  | .reserved => 0
  | .setup => kBaseHeaderSize + 14
  | .keepalive => kBaseHeaderSize + 8
  | .requestStream => kBaseHeaderSize + 4
  | .requestChannel => kBaseHeaderSize + 4
  | .requestN => kBaseHeaderSize + 4
  | .error => kBaseHeaderSize + 4
  | .ext => kBaseHeaderSize + 4
  | _ => kBaseHeaderSize

/-- What the next handler of the pipeline answers. -/
inductive Result where
  | success
  | backpressure
  | error
  deriving DecidableEq, Repr

end FbThrift.FastThrift
