import FbThrift.Rocket.Frame

/-!
# Frame headers

The stream id stands in the first four bytes of a frame and its type and flags in the next
two: six bits for the code of the type and ten for the flags, of which the lower five are
unused.
-/

namespace FbThrift.Rocket

open Decoder

/-! ## Frame types -/

/-- The frame types of the framing layer. -/
inductive FrameType where
  | reserved
  | setup
  | keepalive
  | requestResponse
  | requestFnf
  | requestStream
  | requestChannel
  | requestN
  | cancel
  | payload
  | error
  | metadataPush
  | ext
  deriving DecidableEq, Repr

/-- The type with a code, where the code is one of the enumeration. -/
def FrameType.ofCode : Nat → Option FrameType
  | 0x00 => some .reserved
  | 0x01 => some .setup
  | 0x03 => some .keepalive
  | 0x04 => some .requestResponse
  | 0x05 => some .requestFnf
  | 0x06 => some .requestStream
  | 0x07 => some .requestChannel
  | 0x08 => some .requestN
  | 0x09 => some .cancel
  | 0x0A => some .payload
  | 0x0B => some .error
  | 0x0C => some .metadataPush
  | 0x3F => some .ext
  | _ => none

def FrameType.code : FrameType → Nat
  | .reserved => 0x00
  | .setup => 0x01
  | .keepalive => 0x03
  | .requestResponse => 0x04
  | .requestFnf => 0x05
  | .requestStream => 0x06
  | .requestChannel => 0x07
  | .requestN => 0x08
  | .cancel => 0x09
  | .payload => 0x0A
  | .error => 0x0B
  | .metadataPush => 0x0C
  | .ext => 0x3F

theorem FrameType.ofCode_code (frameType : FrameType) : ofCode frameType.code = some frameType := by
  cases frameType <;> rfl

theorem FrameType.code_lt (frameType : FrameType) : frameType.code < 2 ^ 6 := by
  cases frameType <;> decide

/-! ## Flags -/

/-- Flags of a frame: the lower ten bits of the word behind the stream id. -/
structure Flags where
  bits : Nat
  deriving DecidableEq, Repr

namespace Flags

def kBits : Nat := 10

def kMask : Nat := 2 ^ kBits - 1

/-- The five bits that no flag has. -/
def kInvalidMask : Nat := 2 ^ 5 - 1

/-- The constructor throws on bits that no flag has. -/
def ofBits (flags : Nat) : Option Flags :=
  if flags &&& kInvalidMask ≠ 0 then none else some ⟨flags⟩

def metadata (flags : Flags) : Bool := flags.bits.testBit 8

/-- The flags that frames have. -/
inductive Bit where
  | next
  | complete
  | follows
  | metadata
  | ignore
  deriving DecidableEq, Repr

def Bit.position : Bit → Nat
  | .next => 5
  | .complete => 6
  | .follows => 7
  | .metadata => 8
  | .ignore => 9

def has (flags : Flags) (bit : Bit) : Bool := flags.bits.testBit bit.position

/-- The bits are those of a `uint16_t`. -/
def set (flags : Flags) (bit : Bit) (on : Bool) : Flags :=
  if on then ⟨flags.bits ||| 2 ^ bit.position⟩
  else ⟨flags.bits &&& ((2 ^ 16 - 1) ^^^ 2 ^ bit.position)⟩

theorem metadata_eq_has (flags : Flags) : flags.metadata = flags.has .metadata := rfl

theorem Bit.position_lt (bit : Bit) : bit.position < 10 := by
  cases bit <;> decide

theorem Bit.le_position (bit : Bit) : 5 ≤ bit.position := by
  cases bit <;> decide

theorem Bit.position_inj {bit other : Bit} (same : bit.position = other.position) :
    bit = other := by
  cases bit <;> cases other <;> first | rfl | cases same

theorem testBit_set (flags : Flags) (bit : Bit) (on : Bool) {i : Nat} (low : i < 16) :
    (flags.set bit on).bits.testBit i = if bit.position = i then on else flags.bits.testBit i := by
  unfold set
  cases on with
  | true =>
    rw [if_pos rfl, Nat.testBit_or, Nat.testBit_two_pow]
    by_cases same : bit.position = i <;> simp [same]
  | false =>
    rw [if_neg (by simp), Nat.testBit_and, Nat.testBit_xor, Nat.testBit_two_pow_sub_one,
      Nat.testBit_two_pow]
    by_cases same : bit.position = i <;> simp [same, low]

/-- A setter changes its own flag and no other. -/
@[simp] theorem has_set (flags : Flags) (bit other : Bit) (on : Bool) :
    (flags.set bit on).has other = if bit = other then on else flags.has other := by
  have low := other.position_lt
  rw [has, testBit_set flags bit on (by omega)]
  by_cases same : bit = other
  · rw [if_pos (congrArg _ same), if_pos same]
  · rw [if_neg (fun equal => same (Bit.position_inj equal)), if_neg same, has]

@[simp] theorem has_none (bit : Bit) : (⟨0⟩ : Flags).has bit = false := Nat.zero_testBit _

/-- Only bits of flags are set. -/
def Valid (flags : Flags) : Prop := ∀ i, flags.bits.testBit i = true → 5 ≤ i ∧ i < kBits

theorem Valid.none : Valid ⟨0⟩ := by
  intro i isSet
  rw [Nat.zero_testBit] at isSet
  cases isSet

theorem Valid.set {flags : Flags} (valid : flags.Valid) (bit : Bit) (on : Bool) :
    (flags.set bit on).Valid := by
  intro i isSet
  by_cases same : bit.position = i
  · rw [← same]
    exact ⟨bit.le_position, bit.position_lt⟩
  · apply valid
    unfold Flags.set at isSet
    cases on with
    | true =>
      rw [if_pos rfl, Nat.testBit_or, Nat.testBit_two_pow] at isSet
      simpa [same] using isSet
    | false =>
      rw [if_neg (by simp), Nat.testBit_and, Bool.and_eq_true] at isSet
      exact isSet.1

theorem Valid.ext {flags others : Flags} (valid : flags.Valid) (valid' : others.Valid)
    (same : ∀ bit, flags.has bit = others.has bit) : flags = others := by
  have bits : flags.bits = others.bits := by
    apply Nat.eq_of_testBit_eq
    intro i
    by_cases inside : ∃ bit : Bit, bit.position = i
    · obtain ⟨bit, rfl⟩ := inside
      exact same bit
    · have unset : ∀ {f : Flags}, f.Valid → f.bits.testBit i = false := by
        intro f valid
        by_contra isSet
        have := valid i (by simpa using isSet)
        simp only [kBits] at this
        apply inside
        obtain rfl | rfl | rfl | rfl | rfl : i = 5 ∨ i = 6 ∨ i = 7 ∨ i = 8 ∨ i = 9 := by omega
        · exact ⟨.next, rfl⟩
        · exact ⟨.complete, rfl⟩
        · exact ⟨.follows, rfl⟩
        · exact ⟨.metadata, rfl⟩
        · exact ⟨.ignore, rfl⟩
      rw [unset valid, unset valid']
  cases flags
  cases others
  cases bits
  rfl

theorem Valid.lt {flags : Flags} (valid : flags.Valid) : flags.bits < 2 ^ kBits := by
  apply Nat.lt_pow_two_of_testBit
  intro i high
  by_contra isSet
  have := (valid i (by simpa using isSet)).2
  omega

theorem Valid.ofBits {flags : Flags} (valid : flags.Valid) :
    Flags.ofBits flags.bits = some flags := by
  have unused : flags.bits &&& kInvalidMask = 0 := by
    apply Nat.eq_of_testBit_eq
    intro i
    rw [Nat.testBit_and, kInvalidMask, Nat.testBit_two_pow_sub_one, Nat.zero_testBit]
    cases isSet : flags.bits.testBit i with
    | false => rfl
    | true =>
      have := (valid i isSet).1
      simp [this]
  rw [Flags.ofBits, if_neg (by simp [unused])]

end Flags

/-- The code of the frame type and the bits of the flags in the first two bytes. -/
def readFrameTypeAndFlagBits : Bytes → Option (Nat × Nat)
  | b0 :: b1 :: _ =>
    let frameTypeAndFlags := b0.toNat * 256 + b1.toNat
    some (frameTypeAndFlags >>> Flags.kBits, frameTypeAndFlags &&& Flags.kMask)
  | _ => none

/-- The cursor throws at the end of the bytes, and `Flags` on bits that no flag has. -/
def readFrameTypeAndFlagsUnsafe (bytes : Bytes) : Option (Option FrameType × Flags) := do
  let (frameType, bits) ← readFrameTypeAndFlagBits bytes
  let flags ← Flags.ofBits bits
  pure (FrameType.ofCode frameType, flags)

/-! ## Reading and writing headers -/

/-- `Serializer::write(StreamId)`. -/
def writeStreamId (streamId : UInt32) : Bytes := writeBE 4 streamId.toNat

def readStreamId : Decoder UInt32 := UInt32.ofNat <$> readBE 4

def writeFrameTypeAndFlags (frameType : FrameType) (flags : Flags) : Bytes :=
  writeBE 2 (frameType.code <<< Flags.kBits ||| flags.bits)

/-- Throws as `readFrameTypeAndFlagsUnsafe` does, and on types that no frame has. -/
def readFrameTypeAndFlags : Decoder (FrameType × Flags) := fun cursor =>
  match readFrameTypeAndFlagsUnsafe cursor with
  | some (some frameType, flags) =>
    if frameType = .reserved then .error "Parsed unexpected frame type"
    else .ok ((frameType, flags), cursor.drop 2)
  | some (none, _) => .error "Parsed unexpected frame type"
  | none => .error "underflow or invalid flags"

theorem decodes_readStreamId (streamId : UInt32) :
    Decodes readStreamId (writeStreamId streamId) streamId := by
  intro rest
  have word := decodes_readBE (k := 4) (n := streamId.toNat) (by simpa using streamId.toNat_lt) rest
  rw [readStreamId, writeStreamId, Run.map_of_ok word, UInt32.ofNat_toNat]

theorem readFrameTypeAndFlagBits_write {code bits : Nat} (small : code < 2 ^ 6)
    (low : bits < 2 ^ Flags.kBits) (rest : Bytes) :
    readFrameTypeAndFlagBits (writeBE 2 (code <<< Flags.kBits ||| bits) ++ rest) =
      some (code, bits) := by
  have word : code <<< Flags.kBits ||| bits = code * 1024 + bits := by
    rw [← Nat.shiftLeft_add_eq_or_of_lt low, Nat.shiftLeft_eq]
    rfl
  have bound : bits < 1024 := low
  have joined : (UInt8.ofNat ((code * 1024 + bits) / 256 ^ 1)).toNat * 256 +
      (UInt8.ofNat ((code * 1024 + bits) / 256 ^ 0)).toNat = code * 1024 + bits := by
    rw [UInt8.toNat_ofNat', UInt8.toNat_ofNat']
    omega
  have high : (code * 1024 + bits) >>> Flags.kBits = code := by
    rw [Nat.shiftRight_eq_div_pow, Flags.kBits]
    omega
  have lower : (code * 1024 + bits) &&& Flags.kMask = bits := by
    rw [Flags.kMask, Nat.and_two_pow_sub_one_eq_mod, Flags.kBits]
    omega
  simp only [word, writeBE, List.cons_append, readFrameTypeAndFlagBits, joined, high, lower]

theorem decodes_readFrameTypeAndFlags {frameType : FrameType} {flags : Flags}
    (used : frameType ≠ .reserved) (valid : flags.Valid) :
    Decodes readFrameTypeAndFlags (writeFrameTypeAndFlags frameType flags) (frameType, flags) := by
  intro rest
  have bits := readFrameTypeAndFlagBits_write frameType.code_lt valid.lt rest
  have behind : (writeFrameTypeAndFlags frameType flags ++ rest).drop 2 = rest :=
    List.drop_left' (length_writeBE 2 _)
  have read : readFrameTypeAndFlagsUnsafe (writeFrameTypeAndFlags frameType flags ++ rest) =
      some (some frameType, flags) := by
    rw [readFrameTypeAndFlagsUnsafe, writeFrameTypeAndFlags, bits]
    simp [valid.ofBits, frameType.ofCode_code]
  simp only [readFrameTypeAndFlags, read, if_neg used, behind]

end FbThrift.Rocket
