import FbThrift.Protocol.SerializedSize
import FbThrift.Util.VarintWrite

/-!
# The account of a serialized size

What is reserved for a value and what is written for it differ in two ways: the maxima leave bytes
unused, and some of what is written is not counted.  The account of a value keeps both.
-/

namespace FbThrift

open Decoder

/-! ## Accounts -/

/-- Bytes written and bytes reserved, with those reserved only and those written only. -/
structure Account where
  written : Nat
  reserved : Nat
  unused : Nat
  uncounted : Nat
  balanced : written + unused = reserved + uncounted

namespace Account

theorem written_le_iff (a : Account) : a.written ≤ a.reserved ↔ a.uncounted ≤ a.unused := by
  have balanced := a.balanced
  omega

/-- `written` bytes for which `reserved` are set aside. -/
def spend (reserved written : Nat) : Account where
  written := written
  reserved := reserved
  unused := reserved - written
  uncounted := written - reserved
  balanced := by omega

instance : Add Account where
  add a b :=
    { written := a.written + b.written
      reserved := a.reserved + b.reserved
      unused := a.unused + b.unused
      uncounted := a.uncounted + b.uncounted
      balanced := by have := a.balanced; have := b.balanced; omega }

/-- What is carried out of a word. -/
def carry (bits n : Nat) : Nat := 2 ^ bits * (n / 2 ^ bits)

/-- The total is kept in a word: what is carried out of it is not counted. -/
def wrap (bits : Nat) (a : Account) : Account where
  written := a.written
  reserved := a.reserved % 2 ^ bits
  unused := a.unused
  uncounted := a.uncounted + carry bits a.reserved
  balanced := by
    have balanced := a.balanced
    have split : a.reserved % 2 ^ bits + carry bits a.reserved = a.reserved :=
      Nat.mod_add_div a.reserved (2 ^ bits)
    omega

@[simp] theorem written_spend (reserved written : Nat) :
    (spend reserved written).written = written := rfl

@[simp] theorem reserved_spend (reserved written : Nat) :
    (spend reserved written).reserved = reserved := rfl

theorem uncounted_spend {reserved written : Nat} (enough : written ≤ reserved) :
    (spend reserved written).uncounted = 0 :=
  Nat.sub_eq_zero_of_le enough

@[simp] theorem written_add (a b : Account) : (a + b).written = a.written + b.written := rfl

@[simp] theorem reserved_add (a b : Account) : (a + b).reserved = a.reserved + b.reserved := rfl

@[simp] theorem uncounted_add (a b : Account) : (a + b).uncounted = a.uncounted + b.uncounted := rfl

@[simp] theorem written_wrap (bits : Nat) (a : Account) : (a.wrap bits).written = a.written := rfl

@[simp] theorem reserved_wrap (bits : Nat) (a : Account) :
    (a.wrap bits).reserved = a.reserved % 2 ^ bits := rfl

end Account

/-! ## The account of a value -/

/-- Bytes of the encodings of integers. -/
def i16Length (n : Int16) : Nat := (writeVarint (signedIntToZigzag n.toInt32.toBitVec).toNat).length

def i32Length (n : Int32) : Nat := (writeVarint (signedIntToZigzag n.toBitVec).toNat).length

def i64Length (n : Int64) : Nat := (writeVarint (signedIntToZigzag n.toBitVec).toNat).length

/-- Bytes of the header of a list or a set. -/
def collectionHeaderLength (size : Nat) : Nat :=
  if size ≤ 14 then 1 else 1 + (writeVarint size).length

/-- Bytes of the header of a map. -/
def mapHeaderLength (size : Nat) : Nat := if size = 0 then 1 else (writeVarint size).length + 1

/-- Bytes of the header of a field behind a field with id `last`. -/
def fieldHeaderLength (last id : Int16) : Nat :=
  if last.toInt < id.toInt ∧ id.toInt - last.toInt ≤ 15 then 1 else 1 + i16Length id

namespace IndexWriter

/-- Bytes of the fields in front of those of the struct. -/
def headLength : Indexing → Nat
  | .off => 0
  | .on => fieldHeaderLength 0 kOffset + 8
  | .validated randomNumber _ =>
    fieldHeaderLength 0 kExpectedRandomNumber + i64Length randomNumber +
      (fieldHeaderLength kExpectedRandomNumber kOffset + 8)

/-- The id of the last of them. -/
def headId : Indexing → Int16
  | .off => 0
  | _ => kOffset

def entriesLength : List (Int16 × Int64) → Nat
  | [] => 0
  | (id, size) :: entries => i16Length id + i64Length size + entriesLength entries

/-- Bytes of the index, behind a field with id `last`. -/
def indexLength (indexing : Indexing) (last : Int16) (recorded : List (Int16 × Int64)) : Nat :=
  match indexing with
  | .off => 0
  | _ =>
    let entries := fieldIdAndSize indexing recorded
    fieldHeaderLength last kIndex + mapHeaderLength (UInt32.ofNat entries.length).toNat +
      entriesLength entries

/-- What is recorded of a field whose value takes `size` bytes. -/
def recordedOf (id : Int16) (recorded : Bool) (type : TType) (size : Nat) : List (Int16 × Int64) :=
  if recorded = true ∧ type ≠ .bool then [(id, Int64.ofNat (UInt32.ofNat size).toNat)] else []

end IndexWriter

namespace TypedValue

open CompactProtocolWriter Account

/-- The id of the last field. -/
def lastId (last : Int16) (fields : List (Int16 × Bool × TypedValue)) : Int16 :=
  fields.foldl (fun _ field => field.1) last

/-- The account of a string. -/
def accountString (s : Bytes) : Account :=
  spend (serializedSizeI32 + s.length) ((writeVarint s.length).length + s.length)

/-- The account of a field, given that of its value: a boolean is written with the header. -/
def accountField (last id : Int16) (type : TType) (value : Account) : Account :=
  spend serializedFieldSize (fieldHeaderLength last id) +
    if type = .bool then spend serializedSizeBool 0 else value

mutual

/-- A null pointer takes a byte for which none is reserved, and so does every byte of an index. -/
def account : TypedValue → Account
  | .bool _ => spend serializedSizeBool 1
  | .byte _ => spend serializedSizeByte 1
  | .i16 n => spend serializedSizeI16 (i16Length n)
  | .i32 n => spend serializedSizeI32 (i32Length n)
  | .i64 n => spend serializedSizeI64 (i64Length n)
  | .float _ => spend serializedSizeFloat 4
  | .double _ => spend serializedSizeDouble 8
  | .string s => accountString s
  | .iobuf s => accountString s
  | .iobufPtr none => spend 0 1
  | .iobufPtr (some s) => accountString s
  | .lazy _ _ data => spend data.length data.length
  | .list _ elems =>
    (spend serializedSizeListBegin (collectionHeaderLength elems.length) +
      accountElems elems).wrap 64
  | .set _ elems =>
    (spend serializedSizeSetBegin (collectionHeaderLength elems.length) +
      accountElems elems).wrap 64
  | .map _ _ entries =>
    (spend serializedSizeMapBegin (mapHeaderLength entries.length) + accountEntries entries).wrap 64
  | .struct indexing fields =>
    (spend 0 (IndexWriter.headLength indexing) +
      accountFields (IndexWriter.headId indexing) fields +
      spend 0 (IndexWriter.indexLength indexing (lastId (IndexWriter.headId indexing) fields)
        (recordedSizes fields)) +
      spend serializedSizeStop 1).wrap 32

def accountElems : List TypedValue → Account
  | [] => spend 0 0
  | v :: elems => v.account + accountElems elems

def accountEntries : List (TypedValue × TypedValue) → Account
  | [] => spend 0 0
  | (k, v) :: entries => k.account + v.account + accountEntries entries

def accountFields (last : Int16) : List (Int16 × Bool × TypedValue) → Account
  | [] => spend 0 0
  | (id, _, v) :: fields => accountField last id v.ttype v.account + accountFields id fields

/-- What is recorded for the index. -/
def recordedSizes : List (Int16 × Bool × TypedValue) → List (Int16 × Int64)
  | [] => []
  | (id, recorded, v) :: fields =>
    IndexWriter.recordedOf id recorded v.ttype v.account.written ++ recordedSizes fields

end

/-- The total of the sizes, before it is kept in a word. -/
def total : TypedValue → Nat
  | .list _ elems => serializedSizeListBegin + (accountElems elems).reserved
  | .set _ elems => serializedSizeSetBegin + (accountElems elems).reserved
  | .map _ _ entries => serializedSizeMapBegin + (accountEntries entries).reserved
  | .struct indexing fields =>
    (accountFields (IndexWriter.headId indexing) fields).reserved + serializedSizeStop
  | _ => 0

mutual

/-- The bytes that are written but not counted: null pointers, indexes, and what the totals
carry out of their words. -/
def lost : TypedValue → Nat
  | .iobufPtr none => 1
  | .list elem elems => lostElems elems + carry 64 (total (.list elem elems))
  | .set elem elems => lostElems elems + carry 64 (total (.set elem elems))
  | .map key mapped entries => lostEntries entries + carry 64 (total (.map key mapped entries))
  | .struct indexing fields =>
    IndexWriter.headLength indexing + lostFields fields +
      IndexWriter.indexLength indexing (lastId (IndexWriter.headId indexing) fields)
        (recordedSizes fields) +
      carry 32 (total (.struct indexing fields))
  | _ => 0

def lostElems : List TypedValue → Nat
  | [] => 0
  | v :: elems => v.lost + lostElems elems

def lostEntries : List (TypedValue × TypedValue) → Nat
  | [] => 0
  | (k, v) :: entries => k.lost + v.lost + lostEntries entries

def lostFields : List (Int16 × Bool × TypedValue) → Nat
  | [] => 0
  | (_, _, v) :: fields => v.lost + lostFields fields

end

end TypedValue

/-! ## The maxima -/

theorem i16Length_le (n : Int16) : i16Length n ≤ 3 := by
  have lower := n.minValue_le_toInt
  have upper := n.toInt_le
  rw [Int16.toInt_minValue] at lower
  rw [Int16.toInt_maxValue] at upper
  have same : n.toInt32.toBitVec.toInt = n.toInt := Int16.toInt_toInt32 n
  have fits : (signedIntToZigzag n.toInt32.toBitVec).toNat < 2 ^ (8 * 2) := by
    rw [toNat_signedIntToZigzag (by decide), same]
    split <;> omega
  exact Varint.length_writeVarint_le fits

theorem i32Length_le (n : Int32) : i32Length n ≤ 5 := by
  have fits : (signedIntToZigzag n.toBitVec).toNat < 2 ^ (8 * 4) :=
    (signedIntToZigzag n.toBitVec).isLt
  exact Varint.length_writeVarint_le fits

theorem i64Length_le (n : Int64) : i64Length n ≤ 10 := by
  have fits : (signedIntToZigzag n.toBitVec).toNat < 2 ^ (8 * 8) :=
    (signedIntToZigzag n.toBitVec).isLt
  exact Varint.length_writeVarint_le fits

theorem fieldHeaderLength_le (last id : Int16) : fieldHeaderLength last id ≤ 4 := by
  have short := i16Length_le id
  unfold fieldHeaderLength
  split <;> omega

theorem length_writeVarint_size {n : Nat} (fits : n < 2 ^ 31) : (writeVarint n).length ≤ 5 := by
  have fits : n < 2 ^ (8 * 4) := by omega
  exact Varint.length_writeVarint_le fits

theorem collectionHeaderLength_le {n : Nat} (fits : n < 2 ^ 31) : collectionHeaderLength n ≤ 6 := by
  have short := length_writeVarint_size fits
  unfold collectionHeaderLength
  split <;> omega

theorem mapHeaderLength_le {n : Nat} (fits : n < 2 ^ 31) : mapHeaderLength n ≤ 7 := by
  have short := length_writeVarint_size fits
  unfold mapHeaderLength
  split <;> omega

/-! ## Rules of the writer -/

/-- The writer has written `n` bytes more, and the last field written has the given id. -/
structure Wrote (w w' : Writer) (last : Int16) (n : Nat) : Prop where
  length : w'.out.length = w.out.length + n
  booleanField : w'.booleanField = none
  lastFieldId : w'.lastFieldId = last
  lastField : w'.lastField = w.lastField

/-- Whenever the write succeeds behind a field with id `last`, it has written `n` bytes and the
result is as stated. -/
def Emits {α : Type} (write : StateT Writer (Except String) α) (last last' : Int16) (n : Nat)
    (post : α → Prop) : Prop :=
  ∀ w a w', w.booleanField = none → w.lastFieldId = last → write w = .ok (a, w') →
    post a ∧ Wrote w w' last' n

namespace Emits

variable {α β : Type} {last mid last' : Int16} {n m : Nat}

theorem pure {a : α} {post : α → Prop} (holds : post a) :
    Emits (Pure.pure a : StateT Writer (Except String) α) last last 0 post := by
  intro w b w' plain same ok
  cases ok
  exact ⟨holds, rfl, plain, same, rfl⟩

variable {x : StateT Writer (Except String) α} {P : α → Prop} {Q : β → Prop}

theorem bind {f : α → StateT Writer (Except String) β} (first : Emits x last mid n P)
    (second : ∀ a, P a → Emits (f a) mid last' m Q) : Emits (x >>= f) last last' (n + m) Q := by
  intro w b w' plain same ok
  obtain ⟨a, w₁, ok₁, ok₂⟩ := Run.bind_ok ok
  obtain ⟨holds, wrote₁⟩ := first w a w₁ plain same ok₁
  obtain ⟨holds', wrote₂⟩ := second a holds w₁ b w' wrote₁.booleanField wrote₁.lastFieldId ok₂
  refine ⟨holds', ?_, wrote₂.booleanField, wrote₂.lastFieldId,
    wrote₂.lastField.trans wrote₁.lastField⟩
  rw [wrote₂.length, wrote₁.length, Nat.add_assoc]

theorem silent {f : α → StateT Writer (Except String) β} (first : Emits x last mid 0 P)
    (second : ∀ a, P a → Emits (f a) mid last' m Q) : Emits (x >>= f) last last' m Q := by
  have emits := first.bind second
  rwa [Nat.zero_add] at emits

theorem mono {Q : α → Prop}
    (emits : Emits x last last' n P) (weaker : ∀ a, P a → Q a) : Emits x last last' n Q := by
  intro w a w' plain same ok
  obtain ⟨holds, wrote⟩ := emits w a w' plain same ok
  exact ⟨weaker a holds, wrote⟩

/-- The state may be read first. -/
theorem get_bind {f : Writer → StateT Writer (Except String) β}
    (emits : ∀ w, Emits (f w) last last' n Q) : Emits (get >>= f) last last' n Q := by
  intro w b w' plain same ok
  rw [Run.get_bind] at ok
  exact emits w w b w' plain same ok

theorem push (bs : Bytes) : Emits (WriteM.push bs) last last bs.length fun _ => True := by
  intro w a w' plain same ok
  cases ok
  exact ⟨trivial, List.length_append, plain, same, rfl⟩

theorem descend : Emits WriteM.descend last last 0 fun _ => True := by
  intro w a w' plain same ok
  unfold WriteM.descend at ok
  split at ok
  · cases ok
  · cases ok
    exact ⟨trivial, rfl, plain, same, rfl⟩

theorem ascend : Emits WriteM.ascend last last 0 fun _ => True := by
  intro w a w' plain same ok
  cases ok
  exact ⟨trivial, rfl, plain, same, rfl⟩

theorem checkedContainerSize (size : Nat) :
    Emits (WriteM.checkedContainerSize size) last last 0 fun _ => size < 2 ^ 31 := by
  intro w a w' plain same ok
  unfold WriteM.checkedContainerSize at ok
  split at ok
  · cases ok
  · cases ok
    exact ⟨by omega, rfl, plain, same, rfl⟩

theorem checkBinarySize (size : Nat) :
    Emits (WriteM.checkBinarySize size) last last 0 fun _ => size < 2 ^ 31 :=
  checkedContainerSize size

end Emits

namespace CompactProtocolWriter

variable {last last' : Int16}

theorem emits_writeByte (n : Int8) : Emits (writeByte n) last last 1 fun _ => True :=
  .push _

theorem emits_writeI16 (n : Int16) : Emits (writeI16 n) last last (i16Length n) fun _ => True :=
  .push _

theorem emits_writeI32 (n : Int32) : Emits (writeI32 n) last last (i32Length n) fun _ => True :=
  .push _

theorem emits_writeI64 (n : Int64) : Emits (writeI64 n) last last (i64Length n) fun _ => True :=
  .push _

theorem emits_writeFloat (bits : UInt32) : Emits (writeFloat bits) last last 4 fun _ => True := by
  have emits := @Emits.push last (writeBE 4 bits.toNat)
  rwa [length_writeBE] at emits

theorem emits_writeDouble (bits : UInt64) : Emits (writeDouble bits) last last 8 fun _ => True := by
  have emits := @Emits.push last (writeBE 8 bits.toNat)
  rwa [length_writeBE] at emits

theorem emits_writeFieldStop : Emits writeFieldStop last last 1 fun _ => True :=
  .push _

theorem length_fieldHeader (c : UInt8) (id last : Int16) :
    (Compact.fieldHeader c id last).length = fieldHeaderLength last id := by
  unfold Compact.fieldHeader fieldHeaderLength
  split
  · rfl
  · exact Nat.add_comm _ _

/-- The header, in either form. -/
theorem emits_writeFieldBeginInternal (c : UInt8) (id : Int16) :
    Emits (writeFieldBeginInternal c id last) last id (fieldHeaderLength last id)
      fun _ => True := by
  intro w a w' plain same ok
  unfold writeFieldBeginInternal at ok
  rw [writeFieldHeader_eq, Run.bind_of_ok (rfl : WriteM.push _ w = .ok ((), _))] at ok
  cases ok
  refine ⟨trivial, ?_, plain, rfl, rfl⟩
  rw [← length_fieldHeader c]
  exact List.length_append

theorem emits_writeFieldBegin {type : TType} (notBool : type ≠ .bool) (id : Int16) :
    Emits (writeFieldBegin type id) last id (fieldHeaderLength last id) fun _ => True := by
  intro w a w' plain same ok
  unfold writeFieldBegin at ok
  rw [if_neg notBool, Run.get_bind, same] at ok
  exact emits_writeFieldBeginInternal _ id w a w' plain same ok

/-- A boolean that is not in a field. -/
theorem emits_writeBool (b : Bool) : Emits (writeBool b) last last 1 fun _ => True := by
  intro w a w' plain same ok
  unfold writeBool at ok
  rw [Run.get_bind, plain] at ok
  exact Emits.push _ w a w' plain same ok

theorem emits_boolField (b : Bool) (id : Int16) :
    Emits (writeFieldBegin .bool id >>= fun _ => writeBool b) last id (fieldHeaderLength last id)
      fun _ => True := by
  intro w a w' plain same ok
  let pending := { w with booleanField := some id }
  rw [Run.bind_of_ok (rfl : writeFieldBegin .bool id w = .ok ((), pending))] at ok
  unfold writeBool at ok
  rw [Run.get_bind] at ok
  obtain ⟨_, mid, header, cleared⟩ := Run.bind_ok ok
  unfold writeFieldBeginInternal at header
  rw [writeFieldHeader_eq, Run.bind_of_ok (rfl : WriteM.push _ pending = .ok ((), _))] at header
  cases header
  cases cleared
  refine ⟨trivial, ?_, rfl, rfl, rfl⟩
  rw [← same, ← length_fieldHeader (Compact.boolCType b)]
  exact List.length_append

theorem emits_writeCollectionBegin (elem : TType) {size : Nat} (fits : size < 2 ^ 31) :
    Emits (writeCollectionBegin elem (UInt32.ofNat size).toInt32) last last
      (collectionHeaderLength size) fun _ => True := by
  have value : (UInt32.ofNat size).toInt32.toInt = size := by
    rw [UInt32.toInt32_ofNat']
    exact Int32.toInt_ofNat_of_lt fits
  have whole : (UInt32.ofNat size).toInt32.toUInt32.toNat = size := by
    show (UInt32.ofNat size).toNat = size
    rw [UInt32.toNat_ofNat']
    omega
  unfold writeCollectionBegin collectionHeaderLength
  rw [value, whole]
  split
  next small =>
    rw [if_pos (by omega)]
    exact .push _
  next large =>
    rw [if_neg (by omega)]
    exact (Emits.push [0xf0 ||| Compact.ttypeToCType elem]).bind fun _ _ => .push _

theorem emits_writeListBegin (elem : TType) {size : Nat} (fits : size < 2 ^ 31) :
    Emits (writeListBegin elem (UInt32.ofNat size)) last last (collectionHeaderLength size)
      fun _ => True := by
  exact Emits.descend.silent fun _ _ => emits_writeCollectionBegin elem fits

theorem emits_writeMapBegin (key mapped : TType) (size : UInt32) :
    Emits (writeMapBegin key mapped size) last last (mapHeaderLength size.toNat) fun _ => True := by
  refine Emits.descend.silent fun _ _ => ?_
  unfold mapHeaderLength
  by_cases none : size = 0
  · rw [if_pos none, if_pos (by rw [none]; rfl)]
    exact .push _
  · rw [if_neg none, if_neg fun zero : size.toNat = 0 => none (UInt32.toNat_inj.mp zero)]
    exact (Emits.push (writeVarint size.toNat)).bind fun _ _ => .push _

end CompactProtocolWriter

/-- A struct starts at id 0 and goes back to the id of the field that it is in. -/
theorem Emits.struct {body : WriteM} {last last' : Int16} {n : Nat} {post : Unit → Prop}
    (emits : Emits body 0 last' n post) :
    Emits (CompactProtocolWriter.writeStructBegin >>= fun _ => body >>= fun _ =>
      CompactProtocolWriter.writeStructEnd) last last n post := by
  intro w a w' plain same ok
  obtain ⟨⟨⟩, entered, begun, ok⟩ := Run.bind_ok ok
  obtain ⟨⟨⟩, deeper, descended, pushed⟩ := Run.bind_ok begun
  obtain ⟨⟨⟩, written, run, ended⟩ := Run.bind_ok ok
  cases pushed
  obtain ⟨-, down⟩ := Emits.descend w () deeper plain same descended
  let inside : Writer :=
    { deeper with lastField := deeper.lastFieldId :: deeper.lastField, lastFieldId := 0 }
  obtain ⟨holds, wrote⟩ := emits inside () written down.booleanField rfl run
  cases ended
  refine ⟨holds, wrote.length.trans ?_, wrote.booleanField, ?_, ?_⟩
  · exact congrArg (· + n) down.length
  · show written.lastField.headD 0 = last
    rw [wrote.lastField]
    exact down.lastFieldId
  · show written.lastField.tail = w.lastField
    rw [wrote.lastField]
    exact down.lastField

/-! ## The index -/

namespace IndexWriter

open CompactProtocolWriter

variable {last : Int16}

theorem emits_writeIndexOffsetField : Emits writeIndexOffsetField last kOffset
    (fieldHeaderLength last kOffset + 8) fun _ => True := by
  refine (emits_writeFieldBegin (by decide) kOffset).bind fun _ _ => .get_bind fun _ => ?_
  exact (emits_writeDouble 0).bind (m := 0) fun _ _ => .pure trivial

theorem emits_begin (indexing : Indexing) :
    Emits (begin indexing) 0 (headId indexing) (headLength indexing) fun _ => True := by
  cases indexing with
  | off => exact .pure trivial
  | on => exact emits_writeIndexOffsetField
  | validated randomNumber checksum =>
    exact ((emits_writeFieldBegin (by decide) kExpectedRandomNumber).bind fun _ _ =>
      emits_writeI64 randomNumber).bind fun _ _ => emits_writeIndexOffsetField

/-- The double is written over. -/
theorem emits_rewriteDouble (bits : UInt64) (offset : Nat) :
    Emits (rewriteDouble bits offset) last last 0 fun _ => True := by
  intro w a w' plain same ok
  unfold rewriteDouble at ok
  split at ok
  · cases ok
  · cases ok
    refine ⟨trivial, ?_, plain, same, rfl⟩
    simp only [List.length_append, List.length_take, List.length_drop, length_writeBE]
    omega

theorem emits_writeEntries (entries : List (Int16 × Int64)) :
    Emits (writeEntries entries) last last (entriesLength entries) fun _ => True := by
  induction entries with
  | nil => exact .pure trivial
  | cons e entries ih =>
    unfold entriesLength
    rw [Nat.add_assoc]
    exact (emits_writeI16 e.1).bind fun _ _ => (emits_writeI64 e.2).bind fun _ _ => ih

theorem emits_writeIndexField (entries : List (Int16 × Int64)) :
    Emits (writeIndexField entries) last kIndex
      (fieldHeaderLength last kIndex + mapHeaderLength (UInt32.ofNat entries.length).toNat +
        entriesLength entries) fun _ => True := by
  rw [Nat.add_assoc, ← Nat.add_zero (entriesLength entries)]
  exact (emits_writeFieldBegin (by decide) kIndex).bind fun _ _ =>
    (emits_writeMapBegin .i16 .i64 _).bind fun _ _ =>
      (emits_writeEntries entries).bind fun _ _ => .ascend

theorem emits_writeIndex (location : Nat) (entries : List (Int16 × Int64)) :
    Emits (writeIndex location entries) last kIndex
      (fieldHeaderLength last kIndex + mapHeaderLength (UInt32.ofNat entries.length).toNat +
        entriesLength entries) fun _ => True := by
  exact .get_bind fun w =>
    (emits_rewriteDouble _ _).silent fun _ _ => emits_writeIndexField entries

/-- The id of the last field of a struct. -/
def finalId (indexing : Indexing) (last : Int16) : Int16 :=
  match indexing with
  | .off => last
  | _ => kIndex

theorem emits_finalize (indexing : Indexing) (location : Nat) (recorded : List (Int16 × Int64)) :
    Emits (finalize indexing location recorded) last (finalId indexing last)
      (indexLength indexing last recorded) fun _ => True := by
  cases indexing with
  | off => exact .pure trivial
  | on => exact emits_writeIndex location recorded
  | validated => exact emits_writeIndex location _

theorem emits_writeField {id : Int16} {recorded : Bool} {type : TType} {write : WriteM} {n : Nat}
    {post : Unit → Prop} (notBool : type ≠ .bool) (value : Emits write id id n post) :
    Emits (writeField id recorded type write) last id (fieldHeaderLength last id + n)
      fun entries => entries = recordedOf id recorded type n ∧ post () := by
  refine (emits_writeFieldBegin notBool id).bind fun _ _ => ?_
  intro w a w' plain same ok
  rw [Run.get_bind] at ok
  obtain ⟨⟨⟩, mid, written, ended⟩ := Run.bind_ok ok
  obtain ⟨holds, wrote⟩ := value w () mid plain same written
  rw [Run.get_bind] at ended
  cases ended
  refine ⟨⟨?_, holds⟩, wrote⟩
  rw [wrote.length]
  unfold recordedOf writtenBytes
  rw [Nat.add_sub_cancel_left]

theorem emits_writeField_bool (id : Int16) (recorded : Bool) (b : Bool) :
    Emits (writeField id recorded .bool (writeBool b)) last id (fieldHeaderLength last id)
      fun entries => entries = [] := by
  intro w a w' plain same ok
  unfold writeField at ok
  obtain ⟨_, mid, begun, ok⟩ := Run.bind_ok ok
  rw [Run.get_bind] at ok
  obtain ⟨⟨⟩, mid', written, ended⟩ := Run.bind_ok ok
  rw [Run.get_bind] at ended
  cases ended
  obtain ⟨-, wrote⟩ := emits_boolField b id w () w' plain same
    ((Run.bind_of_ok begun).trans written)
  exact ⟨if_neg fun recorded => recorded.2 rfl, wrote⟩

end IndexWriter

/-! ## What is written and what is reserved -/

namespace TypedValue

open CompactProtocolWriter Account

variable {last : Int16}

theorem emits_writeString (s : Bytes) :
    Emits (writeString s) last last (accountString s).written fun _ => s.length < 2 ^ 31 := by
  unfold writeString writeBinary
  simp only [bind_assoc]
  refine (Emits.checkBinarySize s.length).silent fun _ fits => ?_
  have whole : (UInt32.ofNat s.length).toNat = s.length := by
    rw [UInt32.toNat_ofNat']
    omega
  rw [whole]
  exact (Emits.push (writeVarint s.length)).bind fun _ _ => (Emits.push s).bind (m := 0) fun _ _ =>
    (Emits.checkedContainerSize _).mono fun _ _ => fits

variable {s : Bytes} {v : TypedValue} {elems : List TypedValue}
  {fields : List (Int16 × Bool × TypedValue)}

theorem serializedSizeString_eq (fits : s.length < 2 ^ 31) :
    serializedSizeString s = (accountString s).reserved := by
  unfold serializedSizeString accountString
  rw [reserved_spend, serializedSizeI32]
  omega

theorem serializedSizeBinary_eq (fits : s.length < 2 ^ 31) :
    serializedSizeBinary s = .ok (accountString s).reserved := by
  unfold serializedSizeBinary
  rw [if_neg (by rw [serializedSizeI32]; omega)]
  exact congrArg Except.ok (serializedSizeString_eq fits)

theorem length_string_le (fits : s.length < 2 ^ 31) :
    (writeVarint s.length).length + s.length ≤ serializedSizeI32 + s.length := by
  have short := length_writeVarint_size fits
  rw [serializedSizeI32]
  omega

/-- The size is what an account reserves, and what the account leaves uncounted is lost. -/
structure Sized (size : Except String Nat) (a : Account) (lost : Nat) : Prop where
  size : size = .ok a.reserved
  uncounted : a.uncounted = lost

theorem Sized.enough {reserved written : Nat} (enough : written ≤ reserved) :
    Sized (.ok reserved) (spend reserved written) 0 :=
  ⟨rfl, uncounted_spend enough⟩

theorem Sized.string (fits : s.length < 2 ^ 31) :
    Sized (.ok (serializedSizeString s)) (accountString s) 0 :=
  ⟨congrArg Except.ok (serializedSizeString_eq fits), uncounted_spend (length_string_le fits)⟩

theorem Sized.iobuf (fits : s.length < 2 ^ 31) :
    Sized (serializedSizeBinary s) (accountString s) 0 :=
  ⟨serializedSizeBinary_eq fits, uncounted_spend (length_string_le fits)⟩

/-- A value writes the bytes of its account. -/
def Settles (v : TypedValue) : Prop :=
  ∀ last, Emits v.write last last v.account.written fun _ =>
    Sized v.serializedSize v.account v.lost

theorem settles_iobufPtr (s : Option Bytes) : Settles (.iobufPtr s) := by
  intro last
  cases s with
  | none =>
    have one : i32Length 0 = 1 := by
      unfold i32Length
      rw [Varint.writeVarint_one (by decide)]
      rfl
    have emits := @emits_writeI32 last 0
    rw [one] at emits
    exact emits.mono fun _ _ => ⟨rfl, rfl⟩
  | some s => exact (emits_writeString s).mono fun _ fits => .iobuf fits

theorem settles_lazy (type : TType) (notBool : type ≠ .bool) (data : Bytes) :
    Settles (.lazy type notBool data) := fun _ =>
  (Emits.checkBinarySize data.length).silent fun _ _ =>
    (Emits.push data).mono fun _ _ => .enough (Nat.le_refl _)

/-- The elements of a container. -/
def ElemsSettle (elems : List TypedValue) : Prop :=
  ∀ last, Emits (writeElems elems) last last (accountElems elems).written fun _ =>
    Sized (serializedSizeElems elems) (accountElems elems) (lostElems elems)

theorem ElemsSettle.nil : ElemsSettle [] := fun _ => .pure ⟨rfl, rfl⟩

theorem Settles.elem (value : Settles v) (rest : ElemsSettle elems) : ElemsSettle (v :: elems) := by
  intro last
  refine (value last).bind fun _ sized => (rest last).mono fun _ restSized => ⟨?_, ?_⟩
  · rw [serializedSizeElems, sized.size, restSized.size]
    rfl
  · exact congrArg₂ (· + ·) sized.uncounted restSized.uncounted

/-- The entries of a map. -/
def EntriesSettle (entries : List (TypedValue × TypedValue)) : Prop :=
  ∀ last, Emits (writeEntries entries) last last (accountEntries entries).written fun _ =>
    Sized (serializedSizeEntries entries) (accountEntries entries) (lostEntries entries)

theorem EntriesSettle.nil : EntriesSettle [] := fun _ => .pure ⟨rfl, rfl⟩

theorem Settles.entry {k : TypedValue} {entries : List (TypedValue × TypedValue)}
    (key : Settles k) (value : Settles v) (rest : EntriesSettle entries) :
    EntriesSettle ((k, v) :: entries) := by
  intro last
  have emits := (key last).bind fun _ keySized => (value last).bind fun _ sized =>
    (rest last).mono (Q := fun _ => Sized (serializedSizeEntries ((k, v) :: entries))
      (accountEntries ((k, v) :: entries)) (lostEntries ((k, v) :: entries))) fun _ restSized => by
        refine ⟨?_, congrArg₂ (· + ·) (congrArg₂ (· + ·) keySized.uncounted sized.uncounted)
          restSized.uncounted⟩
        rw [serializedSizeEntries, keySized.size, sized.size, restSized.size]
        rfl
  rw [← Nat.add_assoc] at emits
  exact emits

/-- The fields of a struct, behind a field with id `last`. -/
def FieldsSettle (fields : List (Int16 × Bool × TypedValue)) : Prop :=
  ∀ last, Emits (writeFields fields) last (lastId last fields)
    (accountFields last fields).written fun recorded => recorded = recordedSizes fields ∧
      Sized (serializedSizeFields fields) (accountFields last fields) (lostFields fields)

theorem FieldsSettle.nil : FieldsSettle [] := fun _ => .pure ⟨rfl, rfl, rfl⟩

theorem eq_bool_of_ttype (isBool : v.ttype = .bool) : ∃ b, v = .bool b := by
  cases v with
  | bool b => exact ⟨b, rfl⟩
  | lazy type notBool data => exact absurd isBool notBool
  | _ => cases isBool

/-- What is reserved for a field. -/
def fieldSize (v : TypedValue) : Except String Nat :=
  v.serializedSize.map (serializedFieldSize + ·)

theorem emits_field (value : Settles v) (id : Int16) (recorded : Bool) :
    Emits (IndexWriter.writeField id recorded v.ttype v.write) last id
      (accountField last id v.ttype v.account).written fun entries =>
        entries = IndexWriter.recordedOf id recorded v.ttype v.account.written ∧
          Sized v.fieldSize (accountField last id v.ttype v.account) v.lost := by
  have header : (spend serializedFieldSize (fieldHeaderLength last id)).uncounted = 0 :=
    uncounted_spend (fieldHeaderLength_le last id)
  by_cases isBool : v.ttype = .bool
  · obtain ⟨b, rfl⟩ := eq_bool_of_ttype isBool
    refine (IndexWriter.emits_writeField_bool id recorded b).mono fun entries none => ?_
    exact ⟨none.trans (if_neg fun recorded => recorded.2 rfl).symm, rfl, congrArg (· + 0) header⟩
  · have account : accountField last id v.ttype v.account =
        spend serializedFieldSize (fieldHeaderLength last id) + v.account := by
      rw [accountField, if_neg isBool]
    rw [account]
    refine (IndexWriter.emits_writeField isBool (value id)).mono fun entries holds => ?_
    obtain ⟨recorded, sized⟩ := holds
    refine ⟨recorded, ?_, ?_⟩
    · rw [fieldSize, sized.size]
      rfl
    · rw [uncounted_add, header, sized.uncounted, Nat.zero_add]

theorem serializedSizeFields_cons (id : Int16) (recorded : Bool) (v : TypedValue)
    (fields : List (Int16 × Bool × TypedValue)) :
    serializedSizeFields ((id, recorded, v) :: fields) = v.fieldSize >>= fun size =>
      serializedSizeFields fields >>= fun xfer => .ok (size + xfer) := by
  rw [serializedSizeFields, fieldSize]
  cases v.serializedSize <;> rfl

theorem Settles.field {id : Int16} {recorded : Bool} (value : Settles v) (rest : FieldsSettle fields) :
    FieldsSettle ((id, recorded, v) :: fields) := by
  intro last
  refine (emits_field value id recorded).bind fun first field => ?_
  obtain ⟨rfl, sized⟩ := field
  refine (rest id).bind (m := 0) fun more behind => .pure ?_
  obtain ⟨rfl, restSized⟩ := behind
  refine ⟨rfl, ?_, congrArg₂ (· + ·) sized.uncounted restSized.uncounted⟩
  rw [serializedSizeFields_cons, sized.size, restSized.size]
  rfl

theorem Sized.container {size : Except String Nat} {a : Account} {lost header written : Nat}
    (sized : Sized size a lost) (enough : written ≤ header) :
    Sized (do
        let xfer ← size
        .ok ((header + xfer) % 2 ^ 64)) ((spend header written + a).wrap 64)
      (lost + carry 64 (header + a.reserved)) := by
  refine ⟨?_, ?_⟩
  · rw [sized.size]
    rfl
  · show (spend header written).uncounted + a.uncounted + carry 64 (header + a.reserved) = _
    rw [uncounted_spend enough, sized.uncounted, Nat.zero_add]

theorem settles_list (elem : TType) (each : ElemsSettle elems) : Settles (.list elem elems) := by
  intro last
  refine (Emits.checkedContainerSize elems.length).silent fun _ fits => ?_
  refine (emits_writeListBegin elem fits).bind fun _ _ => ?_
  refine (each last).bind (m := 0) fun _ sized => Emits.ascend.mono fun _ _ => ?_
  exact sized.container (collectionHeaderLength_le fits)

theorem settles_set (elem : TType) (each : ElemsSettle elems) : Settles (.set elem elems) :=
  settles_list elem each

theorem settles_map {entries : List (TypedValue × TypedValue)} (key mapped : TType)
    (each : EntriesSettle entries) : Settles (.map key mapped entries) := by
  intro last
  refine (Emits.checkedContainerSize entries.length).silent fun _ fits => ?_
  have whole : (UInt32.ofNat entries.length).toNat = entries.length := by
    rw [UInt32.toNat_ofNat']
    omega
  have header := @emits_writeMapBegin last key mapped (UInt32.ofNat entries.length)
  rw [whole] at header
  refine header.bind fun _ _ => (each last).bind (m := 0) fun _ sized =>
    Emits.ascend.mono fun _ _ => ?_
  exact sized.container (mapHeaderLength_le fits)

theorem emits_structBody (indexing : Indexing) (each : FieldsSettle fields) : Emits (do
        let location ← IndexWriter.begin indexing
        let recorded ← writeFields fields
        IndexWriter.finalize indexing location recorded
        writeFieldStop) 0
      (IndexWriter.finalId indexing (lastId (IndexWriter.headId indexing) fields))
      (account (.struct indexing fields)).written fun _ =>
        Sized (serializedSizeFields fields)
          (accountFields (IndexWriter.headId indexing) fields) (lostFields fields) := by
  have emits := (IndexWriter.emits_begin indexing).bind fun location _ =>
    (each (IndexWriter.headId indexing)).bind
      (f := fun recorded => IndexWriter.finalize indexing location recorded >>= fun _ =>
        writeFieldStop)
      fun recorded settled => by
        obtain ⟨rfl, sized⟩ := settled
        exact (IndexWriter.emits_finalize indexing location _).bind fun _ _ =>
          emits_writeFieldStop.mono fun _ _ => sized
  rw [← Nat.add_assoc, ← Nat.add_assoc] at emits
  exact emits

theorem settles_struct (indexing : Indexing)
    (each : FieldsSettle fields) : Settles (.struct indexing fields) := by
  intro last
  have write : write (.struct indexing fields) = writeStructBegin >>= fun _ => (do
        let location ← IndexWriter.begin indexing
        let recorded ← writeFields fields
        IndexWriter.finalize indexing location recorded
        writeFieldStop) >>= fun _ => writeStructEnd := by
    rw [TypedValue.write]
    simp only [bind_assoc]
  rw [write]
  refine (emits_structBody indexing each).struct.mono fun _ sized => ⟨?_, ?_⟩
  · rw [serializedSize, sized.size]
    simp [account, Bind.bind, Except.bind]
  · simp only [account, lost, total, wrap, uncounted_add, sized.uncounted, reserved_add,
      reserved_spend, Nat.zero_add, Nat.add_zero]
    rfl

mutual

theorem settles : ∀ v : TypedValue, Settles v
  | .bool b => fun _ => (emits_writeBool b).mono fun _ _ => .enough (Nat.le_refl 1)
  | .byte n => fun _ => (emits_writeByte n).mono fun _ _ => .enough (Nat.le_refl 1)
  | .i16 n => fun _ => (emits_writeI16 n).mono fun _ _ => .enough (i16Length_le n)
  | .i32 n => fun _ => (emits_writeI32 n).mono fun _ _ => .enough (i32Length_le n)
  | .i64 n => fun _ => (emits_writeI64 n).mono fun _ _ => .enough (i64Length_le n)
  | .float bits => fun _ => (emits_writeFloat bits).mono fun _ _ => .enough (Nat.le_refl 4)
  | .double bits => fun _ => (emits_writeDouble bits).mono fun _ _ => .enough (Nat.le_refl 8)
  | .string s => fun _ => (emits_writeString s).mono fun _ fits => .string fits
  | .iobuf s => fun _ => (emits_writeString s).mono fun _ fits => .iobuf fits
  | .iobufPtr s => settles_iobufPtr s
  | .lazy type notBool data => settles_lazy type notBool data
  | .list elem elems => settles_list elem (elemsSettle elems)
  | .set elem elems => settles_set elem (elemsSettle elems)
  | .map key mapped entries => settles_map key mapped (entriesSettle entries)
  | .struct indexing fields => settles_struct indexing (fieldsSettle fields)

theorem elemsSettle : ∀ elems : List TypedValue, ElemsSettle elems
  | [] => .nil
  | v :: elems => (settles v).elem (elemsSettle elems)

theorem entriesSettle : ∀ entries : List (TypedValue × TypedValue), EntriesSettle entries
  | [] => .nil
  | (k, v) :: entries => (settles k).entry (settles v) (entriesSettle entries)

theorem fieldsSettle : ∀ fields : List (Int16 × Bool × TypedValue), FieldsSettle fields
  | [] => .nil
  | (_, _, v) :: fields => (settles v).field (fieldsSettle fields)

end

/-! ## When nothing is lost -/

mutual

/-- No null pointer, no index, and no total that leaves its word. -/
def Counted : TypedValue → Prop
  | .iobufPtr none => False
  | .list elem elems => CountedElems elems ∧ total (.list elem elems) < 2 ^ 64
  | .set elem elems => CountedElems elems ∧ total (.set elem elems) < 2 ^ 64
  | .map key mapped entries =>
    CountedEntries entries ∧ total (.map key mapped entries) < 2 ^ 64
  | .struct indexing fields =>
    indexing = .off ∧ CountedFields fields ∧ total (.struct indexing fields) < 2 ^ 32
  | _ => True

def CountedElems : List TypedValue → Prop
  | [] => True
  | v :: elems => v.Counted ∧ CountedElems elems

def CountedEntries : List (TypedValue × TypedValue) → Prop
  | [] => True
  | (k, v) :: entries => (k.Counted ∧ v.Counted) ∧ CountedEntries entries

def CountedFields : List (Int16 × Bool × TypedValue) → Prop
  | [] => True
  | (_, _, v) :: fields => v.Counted ∧ CountedFields fields

end

theorem carry_eq_zero_iff {bits n : Nat} : carry bits n = 0 ↔ n < 2 ^ bits := by
  have pos : 0 < 2 ^ bits := Nat.pow_pos (by decide)
  rw [carry, Nat.mul_eq_zero, Nat.div_eq_zero_iff]
  omega

theorem headLength_eq_zero_iff {indexing : Indexing} :
    IndexWriter.headLength indexing = 0 ↔ indexing = .off := by
  cases indexing <;> simp [IndexWriter.headLength]

mutual

theorem lost_eq_zero_iff : ∀ v : TypedValue, v.lost = 0 ↔ v.Counted
  | .iobufPtr none => by simp [lost, Counted]
  | .iobufPtr (some _) => by simp [lost, Counted]
  | .list elem elems => by
    rw [lost, Counted, Nat.add_eq_zero_iff, lostElems_eq_zero_iff elems, carry_eq_zero_iff]
  | .set elem elems => by
    rw [lost, Counted, Nat.add_eq_zero_iff, lostElems_eq_zero_iff elems, carry_eq_zero_iff]
  | .map key mapped entries => by
    rw [lost, Counted, Nat.add_eq_zero_iff, lostEntries_eq_zero_iff entries, carry_eq_zero_iff]
  | .struct indexing fields => by
    rw [lost, Counted, Nat.add_eq_zero_iff, Nat.add_eq_zero_iff, Nat.add_eq_zero_iff,
      lostFields_eq_zero_iff fields, carry_eq_zero_iff, headLength_eq_zero_iff]
    constructor
    · rintro ⟨⟨⟨off, counted⟩, -⟩, fits⟩
      exact ⟨off, counted, fits⟩
    · rintro ⟨rfl, counted, fits⟩
      exact ⟨⟨⟨rfl, counted⟩, rfl⟩, fits⟩
  | .bool _ | .byte _ | .i16 _ | .i32 _ | .i64 _ | .float _ | .double _ | .string _ | .iobuf _
  | .lazy _ _ _ => by simp [lost, Counted]

theorem lostElems_eq_zero_iff : ∀ elems : List TypedValue, lostElems elems = 0 ↔ CountedElems elems
  | [] => by simp [lostElems, CountedElems]
  | v :: elems => by
    rw [lostElems, CountedElems, Nat.add_eq_zero_iff, lost_eq_zero_iff v,
      lostElems_eq_zero_iff elems]

theorem lostEntries_eq_zero_iff : ∀ entries : List (TypedValue × TypedValue),
    lostEntries entries = 0 ↔ CountedEntries entries
  | [] => by simp [lostEntries, CountedEntries]
  | (k, v) :: entries => by
    rw [lostEntries, CountedEntries, Nat.add_eq_zero_iff, Nat.add_eq_zero_iff,
      lost_eq_zero_iff k, lost_eq_zero_iff v, lostEntries_eq_zero_iff entries]

theorem lostFields_eq_zero_iff : ∀ fields : List (Int16 × Bool × TypedValue),
    lostFields fields = 0 ↔ CountedFields fields
  | [] => by simp [lostFields, CountedFields]
  | (id, recorded, v) :: fields => by
    rw [lostFields, CountedFields, Nat.add_eq_zero_iff, lost_eq_zero_iff v,
      lostFields_eq_zero_iff fields]

end

/-! ## The size and what is written -/

/-- The size of a value is an upper bound of what is written for it, at the top level, in a
container or in a field, if and only if what is not counted is made up for by what the maxima leave
unused; nothing is left uncounted of a value without null pointers and indexes whose totals fit. -/
theorem serializedSize_covers_iff (v : TypedValue) :
    (∀ w w', w.booleanField = none → v.write w = .ok ((), w') →
      ∃ size, v.serializedSize = .ok size ∧
        (w'.out.length ≤ w.out.length + size ↔ v.lost ≤ v.account.unused)) ∧
    (∀ id recorded w entries w', w.booleanField = none →
      IndexWriter.writeField id recorded v.ttype v.write w = .ok (entries, w') →
      ∃ size, v.fieldSize = .ok size ∧ (w'.out.length ≤ w.out.length + size ↔
          v.lost ≤ (accountField w.lastFieldId id v.ttype v.account).unused)) ∧
    (v.lost = 0 ↔ v.Counted) := by
  have compare : ∀ {w w' : Writer} {a : Account} {last : Int16}, Wrote w w' last a.written →
      a.uncounted = v.lost →
      (w'.out.length ≤ w.out.length + a.reserved ↔ v.lost ≤ a.unused) := by
    intro w w' a last wrote uncounted
    rw [wrote.length, ← uncounted, ← a.written_le_iff]
    exact Nat.add_le_add_iff_left
  refine ⟨fun w w' plain ok => ?_, fun id recorded w entries w' plain ok => ?_, lost_eq_zero_iff v⟩
  · obtain ⟨sized, wrote⟩ := settles v w.lastFieldId w () w' plain rfl ok
    exact ⟨_, sized.size, compare wrote sized.uncounted⟩
  · obtain ⟨⟨-, sized⟩, wrote⟩ := emits_field (settles v) id recorded w entries w' plain rfl ok
    exact ⟨_, sized.size, compare wrote sized.uncounted⟩

/-- A null pointer in a struct is made up for by the header of its field. -/
theorem serializedSize_covers_iff_null :
    let v : TypedValue := .struct .off [(1, false, .iobufPtr none), (2, false, .i32 5)]
    ∃ w', v.write (Writer.new 12000) = .ok ((), w') ∧ ∃ size, v.serializedSize = .ok size ∧
        (w'.out.length ≤ (Writer.new 12000).out.length + size ↔ v.lost ≤ v.account.unused) := by
  intro v
  obtain ⟨w', run⟩ : ∃ w', v.write (Writer.new 12000) = .ok ((), w') := ⟨_, rfl⟩
  exact ⟨w', run, (serializedSize_covers_iff v).1 _ w' rfl run⟩

/-- For a list of six null pointers the size is 6, and 7 bytes are written. -/
theorem not_serializedSize_covers :
    ¬ ∀ (v : TypedValue) (w w' : Writer) (size : Nat), w.booleanField = none →
      v.write w = .ok ((), w') → v.serializedSize = .ok size →
      w'.out.length ≤ w.out.length + size := by
  intro covers
  let v : TypedValue := .list .string (List.replicate 6 (.iobufPtr none))
  obtain ⟨w', run⟩ : ∃ w', v.write (Writer.new 12000) = .ok ((), w') := ⟨_, rfl⟩
  have bound := covers v _ w' 6 rfl run rfl
  obtain ⟨-, wrote⟩ := settles v 0 _ () w' rfl rfl run
  rw [wrote.length] at bound
  revert bound
  decide

end TypedValue

end FbThrift
