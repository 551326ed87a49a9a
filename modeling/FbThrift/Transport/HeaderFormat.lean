import Mathlib.Data.Finmap
import FbThrift.Lib.Reach

/-!
# The header of a frame

`readHeaderFormat` reads the header section of a frame with a cursor over the whole frame.  The
section says how long it is; the counts and lengths inside it are trusted, and the loop over the
info headers ends at padding, at an info id that is not known, or when the cursor shows the same
memory as a second cursor that stands at the payload.

A frame is a chain of buffers.  Two cursors at one place inside a buffer show the same memory; at
the end of a buffer one of them may have gone on to the next buffer, so whether they agree there is
a parameter.
-/

namespace FbThrift.THeader

open Decoder

/-! ## The state that is read -/

abbrev StringToStringMap := Finmap fun _ : Bytes => Bytes

/-- The members that reading a header sets, and the persistent headers of the caller. -/
structure Headers where
  protoId : Nat
  readTrans : List Nat
  writeTrans : List Nat
  readHeaders : Option StringToStringMap
  persistentReadHeaders : StringToStringMap

namespace Headers

def ensureReadHeaders (h : Headers) : StringToStringMap := h.readHeaders.getD ∅

/-- `setTTransform`. -/
def setTTransform (h : Headers) (transId : Nat) : Headers :=
  if transId ∈ h.writeTrans then h else { h with writeTrans := h.writeTrans ++ [transId] }

/-- The body of the loop over the transforms. -/
def pushTransform (h : Headers) (transId : Nat) : Headers :=
  { h with readTrans := h.readTrans ++ [transId] }.setTTransform transId

/-- Persistent headers are added where the frame has none of that name. -/
def mergePersistent (h : Headers) : Headers :=
  if h.persistentReadHeaders = ∅ then h
  else { h with readHeaders := some (h.ensureReadHeaders ∪ h.persistentReadHeaders) }

end Headers

/-! ## The parts of a header -/

def getString (sz : Nat) : Decoder Bytes := fun c =>
  if sz ≤ c.length then .ok (c.take sz, c.drop sz)
  else .error s!"String size {sz} is larger than available {c.length} bytes"

def readString : Decoder Bytes := do
  let sz ← readVarint 32
  getString sz

/-- The loop of `readInfoHeaders`. -/
def readKVHeaders : Nat → StringToStringMap → Decoder StringToStringMap
  | 0, headers => pure headers
  | numKVHeaders + 1, headers => do
    let key ← readString
    let value ← readString
    readKVHeaders numKVHeaders (headers.insert key value)

def readInfoHeaders (headers : StringToStringMap) : Decoder StringToStringMap := do
  let numKVHeaders ← readVarint 32
  readKVHeaders numKVHeaders headers

/-- `infoIdType`. -/
def keyValue : Nat := 1
def infoIdEnd : Nat := 3

/-- The cases of the loop over the info headers. -/
def readInfo (infoId : Nat) (h : Headers) : Decoder Headers :=
  if infoId = keyValue then do
    let headers ← readInfoHeaders h.ensureReadHeaders
    pure { h with readHeaders := some headers }
  else do
    let headers ← readInfoHeaders h.persistentReadHeaders
    pure { h with persistentReadHeaders := headers }

def readTransforms : Nat → Headers → Decoder Headers
  | 0, h => pure h
  | numTransforms + 1, h => do
    let transId ← readVarint 32
    readTransforms numTransforms (h.pushTransform (transId % 2 ^ 16))

def readNumTransforms (h : Headers) : Decoder Headers := do
  let numTransforms ← readVarint 16
  readTransforms numTransforms h

/-- `T_BINARY_PROTOCOL`, `T_COMPACT_PROTOCOL` and `T_SIMPLE_JSON_PROTOCOL`. -/
def protocols : List Nat := [0, 2, 5]

/-- The size of the header section, with the bytes before it. -/
def readHeaderSize : Decoder Nat := do
  let _ ← take 8
  let words ← readBE 2
  pure (4 * words + 10)

/-! ## Readers go ahead -/

theorem consumes_getString (sz : Nat) : Consumes (getString sz) 0 := by
  intro c str rest ok
  unfold getString at ok
  split at ok
  next fits =>
    cases ok
    refine ⟨c.take sz, (List.take_append_drop sz c).symm, Nat.zero_le _, fun behind => ?_⟩
    have length : (c.take sz).length = sz := List.length_take_of_le fits
    unfold getString
    rw [if_pos (by rw [List.length_append, length]; omega), List.take_left' length,
      List.drop_left' length]
  next => cases ok

theorem consumes_readString : Consumes readString 0 :=
  ((consumes_readVarint 32).bind fun sz => consumes_getString sz).mono (Nat.zero_le _)

theorem consumes_readKVHeaders (n : Nat) (headers : StringToStringMap) :
    Consumes (readKVHeaders n headers) 0 := by
  induction n generalizing headers with
  | zero => exact .pure headers
  | succ n ih =>
    exact consumes_readString.bind fun key => consumes_readString.bind fun value =>
      ih (headers.insert key value)

theorem consumes_readInfoHeaders (headers : StringToStringMap) :
    Consumes (readInfoHeaders headers) 1 :=
  (consumes_readVarint 32).bind fun n => consumes_readKVHeaders n headers

theorem consumes_readInfo (infoId : Nat) (h : Headers) : Consumes (readInfo infoId h) 1 := by
  unfold readInfo
  split <;> exact (consumes_readInfoHeaders _).bind fun _ => .pure _

theorem shorter_of_ok {α : Type} {x : Decoder α} {a : α} {c rest : Bytes} {k : Nat}
    (consumes : Consumes x k) (ok : x c = .ok (a, rest)) : rest.length + k ≤ c.length := by
  obtain ⟨bs, rfl, long, -⟩ := consumes c a rest ok
  rw [List.length_append]
  omega

/-! ## The whole header -/

/-- The loop over the info headers; `atData` compares the cursor, with so many bytes left, with the
start of the payload. -/
def readInfos (atData : Nat → Bool) (c : Bytes) (h : Headers) : Except String Headers :=
  if atData c.length then .ok h
  else
    match _read : readVarint 32 c with
    | .error err => .error err
    | .ok (infoId, c') =>
      if infoId = 0 ∨ infoIdEnd ≤ infoId then .ok h
      else
        match _info : readInfo infoId h c' with
        | .error err => .error err
        | .ok (h', c'') => readInfos atData c'' h'
termination_by c.length
decreasing_by
  have ahead := shorter_of_ok (consumes_readVarint 32) _read
  have ahead' := shorter_of_ok (consumes_readInfo infoId h) _info
  omega

/-- How cursors behave at the ends of buffers: whether the two cursors show the same memory when
both stand behind the section, in a chain of buffers of these lengths. -/
structure Cursors where
  same : (buffers : List Nat) → (headerSection : Bytes) → Bool
  inside : ∀ buffers headerSection,
    (∀ k, (buffers.take k).sum ≠ headerSection.length) → same buffers headerSection = true

/-- The headers behind the size of the section. -/
def readBody (atData : Nat → Bool) (writeTrans : List Nat)
    (persistentReadHeaders : StringToStringMap) (c : Bytes) : Except String Headers := do
  let (wireProtocol, c) ← readVarint 16 c
  if wireProtocol ∈ protocols then
    let (h, c) ← readNumTransforms ⟨wireProtocol, [], writeTrans, none, persistentReadHeaders⟩ c
    let h ← readInfos atData c h
    .ok h.mergePersistent
  else .error "Unknown protocol in header"

/-- Whether a cursor with `left` bytes before it shows the start of a payload of `size` bytes. -/
def atData (size : Nat) (same : Bool) (left : Nat) : Bool := left == size && same

/-- What `readHeaderFormat` reads before it looks at the payload. -/
def readHeaders (cursors : Cursors) (frame : List Bytes) (writeTrans : List Nat)
    (persistentReadHeaders : StringToStringMap) : Except String Headers := do
  let buf := frame.flatten
  let (headerSize, c) ← readHeaderSize buf
  if buf.length < headerSize then .error "Header size is larger than frame"
  else
    let same := cursors.same (frame.map List.length) (buf.take headerSize)
    readBody (atData (buf.length - headerSize) same) writeTrans persistentReadHeaders c

/-- `readHeaderFormat`, over a codec that undoes the transforms of the payload. -/
def readHeaderFormat (cursors : Cursors) (untransform : Bytes → List Nat → Except String Bytes)
    (frame : List Bytes) (writeTrans : List Nat) (persistentReadHeaders : StringToStringMap) :
    Except String (Headers × Bytes) := do
  let h ← readHeaders cursors frame writeTrans persistentReadHeaders
  let (headerSize, _) ← readHeaderSize frame.flatten
  let buf ← untransform (frame.flatten.drop headerSize) h.readTrans
  .ok (h, buf)

end FbThrift.THeader
