import FbThrift.Protocol.Object

/-!
# Rules for reads and writes

`Writes write h bs` says that a write appends `bs` and leaves the rest of the writer as it
was, for every writer with at least `h` levels of height; `Reads read h bs a` is its
counterpart for a reader with `bs` in front of its cursor.  `RoundTrip` joins the two
over the same bytes.  The rules here give the primitives of both protocols.
-/

namespace FbThrift

open Decoder

section Triples

variable {α β : Type}

/-- The write appends `bs` and changes nothing else. -/
def Writes (write : WriteM) (h : Nat) (bs : Bytes) : Prop :=
  ∀ w : Writer, h ≤ w.height → w.booleanField = none → write w = .ok ((), w.append bs)

/-- The read takes `bs` off the input, whatever follows, and changes nothing else. -/
def Reads (read : ReadM α) (h : Nat) (bs : Bytes) (a : α) : Prop :=
  ∀ (r : Reader) (rest : Bytes), r.input = bs ++ rest → h ≤ r.height → r.boolValue = none →
    read r = .ok (a, r.withInput rest)

/-- The write and the read agree on at least `k` bytes. -/
def RoundTrip (h k : Nat) (write : WriteM) (read : ReadM α) (a : α) : Prop :=
  ∃ bs : Bytes, k ≤ bs.length ∧ Writes write h bs ∧ Reads read h bs a

theorem Writes.push (bs : Bytes) (h : Nat) : Writes (WriteM.push bs) h bs :=
  fun _ _ _ => rfl

theorem Writes.seq {x y : WriteM} {h : Nat} {bs cs : Bytes} (first : Writes x h bs)
    (second : Writes y h cs) : Writes (x >>= fun _ => y) h (bs ++ cs) := by
  intro w high pending
  rw [Run.bind_of_ok (first w high pending), second (w.append bs) high pending, Writer.append_append]

variable {a : α} {x : ReadM α}

theorem Reads.decode {x : Decoder α} {bs : Bytes} (decodes : Decodes x bs a) (h : Nat) :
    Reads (ReadM.decode x) h bs a := by
  intro r rest input _ _
  unfold ReadM.decode
  rw [input, decodes rest]

theorem Reads.pure (a : α) (h : Nat) : Reads (pure a) h [] a := by
  intro r rest input _ _
  rw [List.nil_append] at input
  rw [Run.pure_run, ← input, Reader.withInput_input]

theorem Reads.bind {f : α → ReadM β} {h : Nat} {u v : Bytes} {b : β}
    (first : Reads x h u a) (second : Reads (f a) h v b) :
    Reads (x >>= f) h (u ++ v) b := by
  intro r rest input high pending
  rw [Run.bind_of_ok (first r (v ++ rest) (by rw [input, List.append_assoc]) high pending),
    second (r.withInput (v ++ rest)) rest rfl high pending, Reader.withInput_withInput]

theorem Reads.map {h : Nat} {bs : Bytes} (reads : Reads x h bs a)
    (g : α → β) : Reads (g <$> x) h bs (g a) := by
  intro r rest input high pending
  exact Run.map_of_ok (reads r rest input high pending) g

theorem Reads.bind_pure {h : Nat} {bs : Bytes} (reads : Reads x h bs a)
    (g : α → β) : Reads (x >>= fun a => Pure.pure (g a)) h bs (g a) := by
  have whole := reads.bind (f := fun a => Pure.pure (g a)) (Reads.pure (g a) h)
  rwa [List.append_nil] at whole

theorem RoundTrip.mono {h k m : Nat} {write : WriteM} {read : ReadM α}
    (trip : RoundTrip h k write read a) (le : m ≤ k) : RoundTrip h m write read a := by
  obtain ⟨bs, long, writes, reads⟩ := trip
  exact ⟨bs, Nat.le_trans le long, writes, reads⟩

theorem RoundTrip.map {h k : Nat} {write : WriteM} {read : ReadM α}
    (trip : RoundTrip h k write read a) (g : α → β) :
    RoundTrip h k write (g <$> read) (g a) := by
  obtain ⟨bs, long, writes, reads⟩ := trip
  exact ⟨bs, long, writes, reads.map g⟩

end Triples

/-! ## Scalars -/

theorem length_writeVarint_pos (n : Nat) : 1 ≤ (writeVarint n).length :=
  List.length_pos_iff.mpr (writeVarint_ne_nil n)

theorem reads_readVarint32 (n : UInt32) (h : Nat) :
    Reads CompactProtocolReader.readVarint32 h (writeVarint n.toNat) n.toInt32 := by
  have decodes : Decodes (readVarint 32) (writeVarint n.toNat) n.toNat :=
    decodes_readVarint (by omega) n.toNat_lt
  have reads := (Reads.decode decodes h).bind_pure fun n => (UInt32.ofNat n).toInt32
  rwa [UInt32.ofNat_toNat] at reads

theorem reads_zigzag32 {α : Type} (n : Int32) (h : Nat) (g : Int32 → α) :
    Reads (CompactProtocolReader.readVarint32 >>= fun n =>
        pure (g (Int32.ofBitVec (zigzagToSignedInt n.toBitVec)))) h
      (writeVarint (signedIntToZigzag n.toBitVec).toNat) (g n) := by
  have reads := (reads_readVarint32 ⟨signedIntToZigzag n.toBitVec⟩ h).bind_pure
    fun n => g (Int32.ofBitVec (zigzagToSignedInt n.toBitVec))
  have value : Int32.ofBitVec (zigzagToSignedInt
      (UInt32.toInt32 ⟨signedIntToZigzag n.toBitVec⟩).toBitVec) = n := by
    show Int32.ofBitVec (zigzagToSignedInt (signedIntToZigzag n.toBitVec)) = n
    rw [zigzagToSignedInt_signedIntToZigzag (by omega)]
    rfl
  rw [value] at reads
  exact reads

variable {n k : Nat} {r : Reader} {write : WriteM} {type : TType} {rest : Bytes}

theorem Int32.not_neg_of_toInt {size : Int32} (value : size.toInt = n) : ¬ size < 0 := by
  rw [Int32.lt_iff_toInt_lt, value]
  simp

namespace Protocol

variable (p : Protocol) (h : Nat)

theorem byte_roundTrip (n : Int8) : RoundTrip h 1 (p.writer.writeByte n) p.reader.readByte n := by
  have reads := (Reads.decode (decodes_readByte n.toUInt8) h).bind_pure UInt8.toInt8
  cases p <;> exact ⟨[n.toUInt8], Nat.le_refl 1, .push _ h, reads⟩

theorem i16_roundTrip (n : Int16) : RoundTrip h 1 (p.writer.writeI16 n) p.reader.readI16 n := by
  cases p with
  | binary =>
    have decodes : Decodes (readBE 2) (writeBE 2 n.toUInt16.toNat) n.toUInt16.toNat :=
      decodes_readBE n.toUInt16.toNat_lt
    have reads := (Reads.decode decodes h).bind_pure fun n => (UInt16.ofNat n).toInt16
    rw [UInt16.ofNat_toNat] at reads
    exact ⟨_, by simp, .push _ h, reads⟩
  | compact =>
    have reads := reads_zigzag32 n.toInt32 h Int32.toInt16
    rw [Int16.toInt16_toInt32] at reads
    exact ⟨_, length_writeVarint_pos _, .push _ h, reads⟩

theorem i32_roundTrip (n : Int32) : RoundTrip h 1 (p.writer.writeI32 n) p.reader.readI32 n := by
  cases p with
  | binary =>
    have decodes : Decodes (readBE 4) (writeBE 4 n.toUInt32.toNat) n.toUInt32.toNat :=
      decodes_readBE n.toUInt32.toNat_lt
    have reads := (Reads.decode decodes h).bind_pure fun n => (UInt32.ofNat n).toInt32
    rw [UInt32.ofNat_toNat] at reads
    exact ⟨_, by simp, .push _ h, reads⟩
  | compact => exact ⟨_, length_writeVarint_pos _, .push _ h, reads_zigzag32 n h id⟩

theorem i64_roundTrip (n : Int64) : RoundTrip h 1 (p.writer.writeI64 n) p.reader.readI64 n := by
  cases p with
  | binary =>
    have decodes : Decodes (readBE 8) (writeBE 8 n.toUInt64.toNat) n.toUInt64.toNat :=
      decodes_readBE n.toUInt64.toNat_lt
    have reads := (Reads.decode decodes h).bind_pure fun n => (UInt64.ofNat n).toInt64
    rw [UInt64.ofNat_toNat] at reads
    exact ⟨_, by simp, .push _ h, reads⟩
  | compact =>
    have decodes : Decodes (readVarint 64) (writeVarint (signedIntToZigzag n.toBitVec).toNat)
        (signedIntToZigzag n.toBitVec).toNat :=
      decodes_readVarint (by omega) (signedIntToZigzag n.toBitVec).isLt
    have reads := (Reads.decode decodes h).bind_pure
      fun n => Int64.ofBitVec (zigzagToSignedInt (BitVec.ofNat 64 n))
    rw [BitVec.ofNat_toNat, BitVec.setWidth_eq,
      zigzagToSignedInt_signedIntToZigzag (by omega)] at reads
    exact ⟨_, length_writeVarint_pos _, .push _ h, reads⟩

theorem float_roundTrip (n : UInt32) :
    RoundTrip h 1 (p.writer.writeFloat n) p.reader.readFloat n := by
  have decodes : Decodes (readBE 4) (writeBE 4 n.toNat) n.toNat := decodes_readBE n.toNat_lt
  have reads := (Reads.decode decodes h).bind_pure UInt32.ofNat
  rw [UInt32.ofNat_toNat] at reads
  cases p <;> exact ⟨_, by simp, .push _ h, reads⟩

theorem double_roundTrip (n : UInt64) :
    RoundTrip h 1 (p.writer.writeDouble n) p.reader.readDouble n := by
  have decodes : Decodes (readBE 8) (writeBE 8 n.toNat) n.toNat := decodes_readBE n.toNat_lt
  have reads := (Reads.decode decodes h).bind_pure UInt64.ofNat
  rw [UInt64.ofNat_toNat] at reads
  cases p <;> exact ⟨_, by simp, .push _ h, reads⟩

/-- A boolean outside of a field. -/
theorem bool_roundTrip (b : Bool) : RoundTrip h 1 (p.writer.writeBool b) p.reader.readBool b := by
  cases p with
  | binary =>
    refine ⟨[if b then 1 else 0], Nat.le_refl 1, .push _ h, ?_⟩
    intro r rest input _ _
    show BinaryProtocolReader.readBool r = _
    unfold BinaryProtocolReader.readBool
    rw [Run.bind_of_ok (Reads.decode (decodes_readByte _) 0 r rest input (by omega) ‹_›)]
    cases b <;> rfl
  | compact =>
    refine ⟨[Compact.boolCType b], Nat.le_refl 1, ?_, ?_⟩
    · intro w _ pending
      show CompactProtocolWriter.writeBool b w = _
      simp only [CompactProtocolWriter.writeBool, Run.get_bind, pending]
      rfl
    · intro r rest input _ pending
      show CompactProtocolReader.readBool r = _
      simp only [CompactProtocolReader.readBool, Run.get_bind, pending]
      rw [Run.bind_of_ok (Reads.decode (decodes_readByte _) 0 r rest input (by omega) pending)]
      cases b <;> rfl

/-- A size check that passes, before the bytes of a string. -/
theorem writes_checkBinarySize {n : Nat} (fits : n < 2 ^ 31) (h : Nat) :
    Writes (WriteM.checkBinarySize n) h [] := by
  intro w _ _
  unfold WriteM.checkBinarySize
  rw [if_neg (by omega), Run.pure_run, Writer.append_nil]

theorem reads_take {size : Int32} {s : Bytes} (value : size.toInt = s.length) (h : Nat) :
    Reads (if size < 0 then throw negativeSize else ReadM.decode (take size.toInt.toNat)) h s s := by
  rw [if_neg (Int32.not_neg_of_toInt value), value, Int.toNat_natCast]
  exact .decode (decodes_take s) h

theorem binary_roundTrip {s : Bytes} (fits : s.length < 2 ^ 31) :
    RoundTrip h 1 (p.writer.writeBinary s) p.reader.readBinary s := by
  have value : (Int32.ofNat s.length).toInt = s.length := Int32.toInt_ofNat_of_lt fits
  cases p with
  | binary =>
    obtain ⟨bs, long, writes, reads⟩ := i32_roundTrip .binary h (Int32.ofNat s.length)
    refine ⟨bs ++ s, ?_, ?_, reads.bind (reads_take value h)⟩
    · rw [List.length_append]
      omega
    · exact (writes_checkBinarySize fits h).seq (writes.seq (.push s h))
  | compact =>
    have reads := reads_readVarint32 (UInt32.ofNat s.length) h
    have pos := length_writeVarint_pos (UInt32.ofNat s.length).toNat
    rw [UInt32.toInt32_ofNat'] at reads
    refine ⟨_ ++ s, ?_, ?_, reads.bind (reads_take value h)⟩
    · rw [List.length_append]
      omega
    · exact (writes_checkBinarySize fits h).seq ((Writes.push _ h).seq (.push s h))

end Protocol

/-! ## Headers of containers -/

/-- A header written and read one level further down. -/
def HeaderTrip {α : Type} (write : WriteM) (read : ReadM α) (a : α) : Prop :=
  ∃ hs : Bytes, 1 ≤ hs.length ∧
    (∀ w : Writer, 2 ≤ w.height → w.booleanField = none → write w = .ok ((), w.down.append hs)) ∧
    ∀ (r : Reader) (rest : Bytes), r.input = hs ++ rest → 2 ≤ r.height → r.boolValue = none →
      read r = .ok (a, r.down.withInput rest)

theorem ReadM.descend_of_height (high : 2 ≤ r.height) : ReadM.descend r = .ok ((), r.down) := by
  unfold ReadM.descend
  rw [if_neg (by omega)]

theorem WriteM.descend_of_height {w : Writer} (high : 2 ≤ w.height) :
    WriteM.descend w = .ok ((), w.down) := by
  unfold WriteM.descend
  rw [if_neg (by omega)]

/-- The header of a container, read one level further down. -/
def HeaderReads {α : Type} (read : ReadM α) (hs : Bytes) (a : α) : Prop :=
  1 ≤ hs.length ∧ ∀ (r : Reader) (rest : Bytes), r.input = hs ++ rest → 2 ≤ r.height →
    r.boolValue = none → read r = .ok (a, r.down.withInput rest)

theorem HeaderTrip.split {α : Type} {read : ReadM α} {a : α}
    (trip : HeaderTrip write read a) : ∃ hs, HeaderReads read hs a ∧
      ∀ w : Writer, 2 ≤ w.height → w.booleanField = none → write w = .ok ((), w.down.append hs) := by
  obtain ⟨hs, long, writes, reads⟩ := trip
  exact ⟨hs, ⟨long, reads⟩, writes⟩

/-- Descending before bytes that the read takes back. -/
theorem HeaderTrip.of_roundTrip {α : Type} {read : ReadM α} {a : α}
    (trip : RoundTrip 1 1 write read a) :
    HeaderTrip (WriteM.descend >>= fun _ => write) (ReadM.descend >>= fun _ => read) a := by
  obtain ⟨hs, long, writes, reads⟩ := trip
  refine ⟨hs, long, fun w high pending => ?_, fun r rest input high pending => ?_⟩
  · rw [Run.bind_of_ok (WriteM.descend_of_height high)]
    exact writes w.down (by simp; omega) pending
  · rw [Run.bind_of_ok (ReadM.descend_of_height high)]
    exact reads r.down rest input (by simp; omega) pending

/-- A container: its header, its contents one level further down, and its end. -/
theorem HeaderTrip.nest {α β γ : Type} {h : Nat} {headerWrite bodyWrite : WriteM}
    {headerRead : ReadM α} {header : α} {body : β} (bodyRead : α → ReadM β) (g : β → γ)
    (headers : HeaderTrip headerWrite headerRead header) (pos : 1 ≤ h)
    (bodies : RoundTrip h k bodyWrite (bodyRead header) body) :
    RoundTrip (h + 1) 1 (headerWrite >>= fun _ => bodyWrite >>= fun _ => WriteM.ascend)
      (headerRead >>= fun header => bodyRead header >>= fun body =>
        ReadM.ascend >>= fun _ => pure (g body))
      (g body) := by
  obtain ⟨hs, long, headerWrites, headerReads⟩ := headers
  obtain ⟨bs, _, bodyWrites, bodyReads⟩ := bodies
  refine ⟨hs ++ bs, by simp; omega, fun w high pending => ?_, fun r rest input high pending => ?_⟩
  · have low : h ≤ (w.down.append hs).height := by
      simp only [Writer.height_append, Writer.height_down]
      omega
    have back : w.height - 1 + 1 = w.height := by omega
    rw [Run.bind_of_ok (headerWrites w (by omega) pending),
      Run.bind_of_ok (bodyWrites (w.down.append hs) low pending)]
    simp [WriteM.ascend, Writer.append, Writer.down, back]
  · rw [List.append_assoc] at input
    have low : h ≤ (r.down.withInput (bs ++ rest)).height := by
      simp only [Reader.height_withInput, Reader.height_down]
      omega
    have back : r.height - 1 + 1 = r.height := by omega
    rw [Run.bind_of_ok (headerReads r (bs ++ rest) input (by omega) pending),
      Run.bind_of_ok (bodyReads (r.down.withInput (bs ++ rest)) rest rfl low pending)]
    show Except.ok (g body, { r.withInput rest with height := r.height - 1 + 1 }) = _
    rw [back]
    rfl

/-- Types of values that have a code in both protocols. -/
abbrev TType.IsValue (type : TType) : Prop :=
  type ∈ [TType.bool, .byte, .i16, .i32, .i64, .double, .float, .string, .struct, .map, .set, .list]

theorem Value.getTType_isValue {v : Value} (present : v ≠ .empty) : v.getTType.IsValue := by
  cases v <;> simp_all [Value.getTType, TType.IsValue]

theorem TType.ofByte_toByte (valued : type.IsValue) : TType.ofByte type.toByte = type := by
  unfold TType.IsValue at valued
  revert type
  decide

theorem Compact.cTypeToTType_ttypeToCType (valued : type.IsValue) :
    Compact.cTypeToTType (Compact.ttypeToCType type).toNat = some type ∧
      0 < (Compact.ttypeToCType type).toNat ∧ (Compact.ttypeToCType type).toNat < 16 := by
  unfold TType.IsValue at valued
  revert type
  decide

theorem reads_getType (known : Compact.cTypeToTType n = some type)
    (h : Nat) : Reads (CompactProtocolReader.getType n) h [] type := by
  unfold CompactProtocolReader.getType
  rw [known]
  exact .pure type h

theorem reads_checkContainerSize {size : Int32} (value : size.toInt = n) (h : Nat) :
    Reads (ReadM.checkContainerSize size) h [] n := by
  unfold ReadM.checkContainerSize
  rw [if_neg (Int32.not_neg_of_toInt value), value, Int.toNat_natCast]
  exact .pure n h

/-- Two half bytes in one. -/
theorem toNat_halves {a b : UInt8} (high : a.toNat < 16) (low : b.toNat < 16) :
    (a <<< 4 ||| b).toNat = a.toNat * 16 + b.toNat := by
  have all : ∀ m < 16, ∀ n < 16,
      (UInt8.ofNat m <<< 4 ||| UInt8.ofNat n).toNat = m * 16 + n := by decide
  have := all a.toNat high b.toNat low
  simpa using this

namespace Protocol

variable (p : Protocol)

variable {type key value : TType} {n : Nat}

theorem list_header_binary (valued : type.IsValue) (fits : n < 2 ^ 31) :
    HeaderTrip (BinaryProtocolWriter.writeListBegin type (UInt32.ofNat n))
      BinaryProtocolReader.readListBegin (type, n) := by
  have value : (Int32.ofNat n).toInt = n := Int32.toInt_ofNat_of_lt fits
  obtain ⟨bs, long, writes, reads⟩ := i32_roundTrip .binary 1 (Int32.ofNat n)
  refine HeaderTrip.of_roundTrip ⟨[type.toByte] ++ bs, by simp, (Writes.push _ 1).seq writes, ?_⟩
  refine (Reads.decode (decodes_readByte _) 1).bind ?_
  rw [TType.ofByte_toByte valued, ← List.append_nil bs]
  exact reads.bind ((reads_checkContainerSize value 1).bind_pure fun n => (type, n))

theorem list_header_compact (valued : type.IsValue) (fits : n < 2 ^ 31) :
    HeaderTrip (CompactProtocolWriter.writeListBegin type (UInt32.ofNat n))
      CompactProtocolReader.readListBegin (type, n) := by
  obtain ⟨known, pos, below⟩ := Compact.cTypeToTType_ttypeToCType valued
  have value : (Int32.ofNat n).toInt = n := Int32.toInt_ofNat_of_lt fits
  have finish : ∀ {lsize : Int32} {code : Nat}, lsize.toInt = n → code = (Compact.ttypeToCType type).toNat →
      Reads (ReadM.checkContainerSize lsize >>= fun size =>
        CompactProtocolReader.getType code >>= fun elem => pure (elem, size)) 1 [] (type, n) := by
    rintro lsize code same rfl
    exact (reads_checkContainerSize same 1).bind
      ((reads_getType known 1).bind_pure fun elem => (elem, n))
  refine HeaderTrip.of_roundTrip ?_
  unfold CompactProtocolWriter.writeCollectionBegin
  rw [UInt32.toInt32_ofNat', value]
  split
  next short =>
    have size : (Int32.ofNat n).toUInt32.toUInt8.toNat = n := by
      show (UInt32.ofNat n).toUInt8.toNat = n
      rw [UInt32.toNat_toUInt8, UInt32.toNat_ofNat']
      omega
    have byte := toNat_halves (a := (Int32.ofNat n).toUInt32.toUInt8) (by omega) below
    rw [size] at byte
    refine ⟨[_], Nat.le_refl 1, .push _ 1, (Reads.decode (decodes_readByte _) 1).bind (v := []) ?_⟩
    rw [byte, show (n * 16 + (Compact.ttypeToCType type).toNat) % 16 =
      (Compact.ttypeToCType type).toNat by omega]
    unfold CompactProtocolReader.readCollectionSize
    rw [byte, show (n * 16 + (Compact.ttypeToCType type).toNat) / 16 = n by omega,
      if_neg (by omega)]
    exact (Reads.pure _ 1).bind (finish value rfl)
  next long =>
    have byte : (0xf0 ||| Compact.ttypeToCType type).toNat =
        15 * 16 + (Compact.ttypeToCType type).toNat := toNat_halves (a := 15) (by decide) below
    have reads := reads_readVarint32 (UInt32.ofNat n) 1
    rw [UInt32.toInt32_ofNat'] at reads
    refine ⟨[_] ++ writeVarint (UInt32.ofNat n).toNat, by simp,
      (Writes.push _ 1).seq (.push _ 1), (Reads.decode (decodes_readByte _) 1).bind ?_⟩
    rw [byte, show (15 * 16 + (Compact.ttypeToCType type).toNat) % 16 =
      (Compact.ttypeToCType type).toNat by omega]
    unfold CompactProtocolReader.readCollectionSize
    rw [byte, if_pos (by omega), ← List.append_nil (writeVarint _)]
    exact reads.bind (finish value rfl)

theorem list_header (valued : type.IsValue) (fits : n < 2 ^ 31) :
    HeaderTrip (p.writer.writeListBegin type (UInt32.ofNat n)) p.reader.readListBegin (type, n) := by
  cases p with
  | binary => exact list_header_binary valued fits
  | compact => exact list_header_compact valued fits

theorem set_header (valued : type.IsValue) (fits : n < 2 ^ 31) :
    HeaderTrip (p.writer.writeSetBegin type (UInt32.ofNat n)) p.reader.readSetBegin (type, n) := by
  cases p with
  | binary => exact list_header_binary valued fits
  | compact => exact list_header_compact valued fits

theorem map_header_binary (keyed : key.IsValue) (valued : value.IsValue) (fits : n < 2 ^ 31) :
    HeaderTrip (BinaryProtocolWriter.writeMapBegin key value (UInt32.ofNat n))
      BinaryProtocolReader.readMapBegin (key, value, n) := by
  have size : (Int32.ofNat n).toInt = n := Int32.toInt_ofNat_of_lt fits
  obtain ⟨bs, long, writes, reads⟩ := i32_roundTrip .binary 1 (Int32.ofNat n)
  refine HeaderTrip.of_roundTrip ⟨[key.toByte] ++ ([value.toByte] ++ bs), by simp,
    (Writes.push _ 1).seq ((Writes.push _ 1).seq writes), ?_⟩
  refine (Reads.decode (decodes_readByte _) 1).bind ((Reads.decode (decodes_readByte _) 1).bind ?_)
  rw [TType.ofByte_toByte keyed, TType.ofByte_toByte valued, ← List.append_nil bs]
  exact reads.bind ((reads_checkContainerSize size 1).bind_pure fun n => (key, value, n))

/-- A map that is not empty keeps its types. -/
theorem map_header_compact (keyed : key.IsValue) (valued : value.IsValue) (fits : n < 2 ^ 31) (pos : n ≠ 0) :
    HeaderTrip (CompactProtocolWriter.writeMapBegin key value (UInt32.ofNat n))
      CompactProtocolReader.readMapBegin (key, value, n) := by
  obtain ⟨knownKey, _, belowKey⟩ := Compact.cTypeToTType_ttypeToCType keyed
  obtain ⟨knownValue, _, belowValue⟩ := Compact.cTypeToTType_ttypeToCType valued
  have size : (Int32.ofNat n).toInt = n := Int32.toInt_ofNat_of_lt fits
  have nonzero : Int32.ofNat n ≠ 0 := by
    intro zero
    rw [zero] at size
    simp at size
    omega
  have nonzero' : UInt32.ofNat n ≠ 0 := fun zero => nonzero (by rw [← UInt32.toInt32_ofNat', zero]; rfl)
  have reads := reads_readVarint32 (UInt32.ofNat n) 1
  rw [UInt32.toInt32_ofNat'] at reads
  have byte := toNat_halves belowKey belowValue
  refine HeaderTrip.of_roundTrip ⟨writeVarint (UInt32.ofNat n).toNat ++
    [Compact.ttypeToCType key <<< 4 ||| Compact.ttypeToCType value], by simp, ?_, reads.bind ?_⟩
  · rw [if_neg nonzero']
    exact (Writes.push _ 1).seq (.push _ 1)
  · unfold CompactProtocolReader.readKeyValueTypes
    rw [if_pos nonzero]
    refine (Reads.decode (decodes_readByte _) 1).bind (v := []) ?_
    rw [byte, show ((Compact.ttypeToCType key).toNat * 16 + (Compact.ttypeToCType value).toNat) / 16 =
      (Compact.ttypeToCType key).toNat by omega,
      show ((Compact.ttypeToCType key).toNat * 16 + (Compact.ttypeToCType value).toNat) % 16 =
      (Compact.ttypeToCType value).toNat by omega]
    exact (reads_checkContainerSize size 1).bind ((reads_getType knownKey 1).bind
      ((reads_getType knownValue 1).bind_pure fun value => (key, value, n)))

/-- An empty map is one zero byte, and its types are lost. -/
theorem map_header_compact_empty (key value : TType) :
    HeaderTrip (CompactProtocolWriter.writeMapBegin key value 0)
      CompactProtocolReader.readMapBegin (.stop, .stop, 0) := by
  have reads := reads_readVarint32 0 1
  have zero : writeVarint (0 : UInt32).toNat = [0] := by
    unfold writeVarint
    rfl
  rw [zero] at reads
  refine HeaderTrip.of_roundTrip ⟨[0], Nat.le_refl 1, .push _ 1, ?_⟩
  have stop : Reads (CompactProtocolReader.getType 0) 1 [] .stop := reads_getType rfl 1
  have types : Reads (CompactProtocolReader.getType 0 >>= fun key =>
      CompactProtocolReader.getType 0 >>= fun value => pure (key, value, 0)) 1 []
      (TType.stop, TType.stop, 0) := stop.bind (stop.bind_pure fun value => (TType.stop, value, 0))
  have size : Reads (ReadM.checkContainerSize (UInt32.toInt32 0)) 1 [] 0 :=
    reads_checkContainerSize rfl 1
  exact reads.bind ((Reads.pure 0 1).bind (size.bind types))

theorem map_header (keyed : key.IsValue) (valued : value.IsValue) (fits : n < 2 ^ 31) :
    ∃ key' value', (n ≠ 0 → key' = key ∧ value' = value) ∧
      HeaderTrip (p.writer.writeMapBegin key value (UInt32.ofNat n)) p.reader.readMapBegin
        (key', value', n) := by
  cases p with
  | binary => exact ⟨key, value, fun _ => ⟨rfl, rfl⟩, map_header_binary keyed valued fits⟩
  | compact =>
    by_cases empty : n = 0
    · subst empty
      exact ⟨.stop, .stop, fun absurd => (absurd rfl).elim, map_header_compact_empty key value⟩
    · exact ⟨key, value, fun _ => ⟨rfl, rfl⟩, map_header_compact keyed valued fits empty⟩

end Protocol

/-! ## Fields -/

def Writer.withLast (w : Writer) (id : Int16) : Writer := { w with lastFieldId := id }

def Reader.withLast (r : Reader) (id : Int16) : Reader := { r with lastFieldId := id }

/-- The last field id of a reader or writer after one more field; Binary keeps none. -/
def Protocol.nextLast : Protocol → (last id : Int16) → Int16
  | .binary, last, _ => last
  | .compact, _, id => id

/-- A field of a struct, header and value, behind a field with id `last`. -/
def FieldTrip {α : Type} (p : Protocol) (h : Nat) (type : TType) (id : Int16) (write : WriteM)
    (read : ReadM α) (a : α) : Prop :=
  ∀ last : Int16, ∃ fs : Bytes, 1 ≤ fs.length ∧
    (∀ w : Writer, h ≤ w.height → w.booleanField = none → (p = .compact → w.lastFieldId = last) →
      (p.writer.writeFieldBegin type id >>= fun _ => write) w =
        .ok ((), (w.append fs).withLast (p.nextLast w.lastFieldId id))) ∧
    ∀ (r : Reader) (rest : Bytes), r.input = fs ++ rest → h ≤ r.height → r.boolValue = none →
      (p = .compact → r.lastFieldId = last) →
      ∃ mid, p.reader.readFieldBegin r = .ok ((type, id), mid) ∧
        read mid = .ok (a, (r.withInput rest).withLast (p.nextLast r.lastFieldId id))

theorem Int16.add_delta {id last : Int16} (less : last.toInt < id.toInt)
    (near : id.toInt - last.toInt ≤ 15) :
    last + Int16.ofNat (id.toInt - last.toInt).toNat = id := by
  have lower := id.minValue_le_toInt
  have upper := id.toInt_le
  have delta : (Int16.ofNat (id.toInt - last.toInt).toNat).toInt = id.toInt - last.toInt := by
    rw [Int16.toInt_ofNat_of_lt (by omega)]
    omega
  apply Int16.toInt_inj.mp
  rw [Int16.toInt_add, delta, show last.toInt + (id.toInt - last.toInt) = id.toInt by omega]
  simp only [Int16.toInt_minValue] at lower
  simp only [Int16.toInt_maxValue] at upper
  exact Int.bmod_eq_of_le (by omega) (by omega)

/-- The bytes of a field header of Compact, in either form. -/
def Compact.fieldHeader (typeToWrite : UInt8) (id previousId : Int16) : Bytes :=
  if previousId.toInt < id.toInt ∧ id.toInt - previousId.toInt ≤ 15 then
    [UInt8.ofNat (id.toInt - previousId.toInt).toNat <<< 4 ||| typeToWrite]
  else typeToWrite :: writeVarint (signedIntToZigzag id.toInt32.toBitVec).toNat

theorem Compact.fieldHeader_ne_nil (c : UInt8) (id last : Int16) :
    Compact.fieldHeader c id last ≠ [] := by
  unfold Compact.fieldHeader
  split <;> exact List.cons_ne_nil _ _

theorem CompactProtocolWriter.writeFieldHeader_eq (c : UInt8) (id last : Int16) :
    CompactProtocolWriter.writeFieldHeader c id last =
      WriteM.push (Compact.fieldHeader c id last) := by
  unfold CompactProtocolWriter.writeFieldHeader Compact.fieldHeader
  split
  · rfl
  · funext w
    refine (congrArg (fun w => Except.ok ((), w)) ?_ : _)
    exact Writer.append_append w [c] _

theorem ReadM.decode_of_decodes {α : Type} {x : Decoder α} {bs : Bytes} {a : α}
    (decodes : Decodes x bs a) (input : r.input = bs ++ rest) :
    ReadM.decode x r = .ok (a, r.withInput rest) := by
  rw [ReadM.decode, input, decodes rest]

/-- `readI16`, as it depends on the bytes alone. -/
theorem CompactProtocolReader.readI16_eq_decode : CompactProtocolReader.readI16 =
    ReadM.decode (readVarint 32 >>= fun n =>
      pure (Int32.ofBitVec (zigzagToSignedInt (UInt32.ofNat n).toInt32.toBitVec)).toInt16) := by
  funext r
  change ((ReadM.decode (readVarint 32) >>= _) >>= _) r = _
  cases decoded : readVarint 32 r.input with
  | error err =>
    rw [Run.bind_of_error, ReadM.decode, Run.bind_of_error decoded]
    exact Run.bind_of_error (by rw [ReadM.decode, decoded])
  | ok p =>
    have first : ReadM.decode (readVarint 32) r = .ok (p.1, r.withInput p.2) := by
      rw [ReadM.decode, decoded]
    rw [Run.bind_of_ok (Run.bind_of_ok first), ReadM.decode, Run.bind_of_ok decoded]
    rfl

theorem CompactProtocolReader.readI16_writeVarint (id : Int16)
    (input : r.input = writeVarint (signedIntToZigzag id.toInt32.toBitVec).toNat ++ rest) :
    CompactProtocolReader.readI16 r = .ok (id, r.withInput rest) := by
  have word : Decodes (readVarint 32) (writeVarint (signedIntToZigzag id.toInt32.toBitVec).toNat)
      (signedIntToZigzag id.toInt32.toBitVec).toNat :=
    decodes_readVarint (by omega) (signedIntToZigzag id.toInt32.toBitVec).isLt
  have whole := word.bind (f := fun n => Pure.pure
    (Int32.ofBitVec (zigzagToSignedInt (UInt32.ofNat n).toInt32.toBitVec)).toInt16) (.pure _)
  have value : (Int32.ofBitVec (zigzagToSignedInt (UInt32.ofNat
      (signedIntToZigzag id.toInt32.toBitVec).toNat).toInt32.toBitVec)).toInt16 = id := by
    change (Int32.ofBitVec (zigzagToSignedInt
      (BitVec.ofNat 32 (signedIntToZigzag id.toInt32.toBitVec).toNat))).toInt16 = id
    rw [BitVec.ofNat_toNat, BitVec.setWidth_eq, zigzagToSignedInt_signedIntToZigzag (by omega)]
    exact Int16.toInt16_toInt32 id
  rw [List.append_nil, value] at whole
  rw [CompactProtocolReader.readI16_eq_decode]
  exact ReadM.decode_of_decodes whole input

theorem CompactProtocolReader.readFieldBegin_fieldHeader {c : UInt8} (pos : 0 < c.toNat)
    (below : c.toNat < 16) {id last : Int16}
    (input : r.input = Compact.fieldHeader c id last ++ rest) (same : r.lastFieldId = last) :
    CompactProtocolReader.readFieldBegin r = (do
        let fieldType ← CompactProtocolReader.getType c.toNat
        CompactProtocolReader.saveBool c.toNat
        modify fun r => { r with lastFieldId := id }
        pure (fieldType, id) : ReadM (TType × Int16)) (r.withInput rest) := by
  unfold CompactProtocolReader.readFieldBegin
  unfold Compact.fieldHeader at input
  split at input
  next delta =>
    obtain ⟨less, near⟩ := delta
    have size : (UInt8.ofNat (id.toInt - last.toInt).toNat).toNat =
        (id.toInt - last.toInt).toNat := by
      rw [UInt8.toNat_ofNat']
      omega
    have byte := toNat_halves (a := UInt8.ofNat (id.toInt - last.toInt).toNat) (by omega) below
    rw [size] at byte
    rw [Run.bind_of_ok (ReadM.decode_of_decodes (decodes_readByte _) input), byte,
      show ((id.toInt - last.toInt).toNat * 16 + c.toNat) % 16 = c.toNat by omega,
      show ((id.toInt - last.toInt).toNat * 16 + c.toNat) / 16 =
        (id.toInt - last.toInt).toNat by omega, if_neg (by omega)]
    have readId : CompactProtocolReader.readFieldId (id.toInt - last.toInt).toNat
        (r.withInput rest) = .ok (id, r.withInput rest) := by
      unfold CompactProtocolReader.readFieldId
      rw [if_neg (by omega), Run.get_bind, Run.pure_run, Reader.lastFieldId_withInput, same,
        Int16.add_delta less near]
    rw [Run.bind_of_ok readId]
  next far =>
    have input : r.input =
        [c] ++ (writeVarint (signedIntToZigzag id.toInt32.toBitVec).toNat ++ rest) := input
    rw [Run.bind_of_ok (ReadM.decode_of_decodes (decodes_readByte _) input),
      Nat.mod_eq_of_lt below, Nat.div_eq_of_lt below, if_neg (by omega)]
    have readId : CompactProtocolReader.readFieldId 0 (r.withInput (_ ++ rest)) =
        .ok (id, r.withInput rest) := CompactProtocolReader.readI16_writeVarint id rfl
    rw [Run.bind_of_ok readId]

theorem compact_field_header {c : UInt8} (pos : 0 < c.toNat) (below : c.toNat < 16)
    (last id : Int16) :
    ∃ hs : Bytes, 1 ≤ hs.length ∧
      (∀ w, CompactProtocolWriter.writeFieldHeader c id last w = .ok ((), w.append hs)) ∧
      ∀ (r : Reader) (rest : Bytes), r.input = hs ++ rest → r.boolValue = none →
        r.lastFieldId = last → CompactProtocolReader.readFieldBegin r = (do
            let fieldType ← CompactProtocolReader.getType c.toNat
            CompactProtocolReader.saveBool c.toNat
            modify fun r => { r with lastFieldId := id }
            pure (fieldType, id) : ReadM (TType × Int16)) (r.withInput rest) := by
  refine ⟨Compact.fieldHeader c id last,
    List.length_pos_iff.mpr (Compact.fieldHeader_ne_nil c id last), fun w => ?_,
    fun r rest input _ same =>
      CompactProtocolReader.readFieldBegin_fieldHeader pos below input same⟩
  rw [CompactProtocolWriter.writeFieldHeader_eq]
  rfl

theorem Compact.ttypeToCType_ne_bool (valued : type.IsValue) (notBool : type ≠ .bool) :
    ¬ ((Compact.ttypeToCType type).toNat = 1 ∨ (Compact.ttypeToCType type).toNat = 2) := by
  unfold TType.IsValue at valued
  revert type
  decide

/-- The header of a field behind a field with id `last`; a boolean may come with it. -/
def FieldHeaderReads (p : Protocol) (last : Int16) (hs : Bytes) (type : TType) (id : Int16)
    (pending : Option Bool) : Prop :=
  1 ≤ hs.length ∧ ∀ (r : Reader) (rest : Bytes), r.input = hs ++ rest → r.boolValue = none →
    (p = .compact → r.lastFieldId = last) →
    p.reader.readFieldBegin r = .ok ((type, id),
      { (r.withInput rest).withLast (p.nextLast r.lastFieldId id) with boolValue := pending })

/-- The stop of a struct. -/
def StopReads (p : Protocol) (fs : Bytes) : Prop :=
  1 ≤ fs.length ∧ ∀ (r : Reader) (rest : Bytes), r.input = fs ++ rest → r.boolValue = none →
    p.reader.readFieldBegin r = .ok ((.stop, 0), r.withInput rest)

theorem Protocol.field_header (p : Protocol) (valued : type.IsValue)
    (plain : p = .compact → type ≠ .bool) (last id : Int16) :
    ∃ hs, FieldHeaderReads p last hs type id none ∧
      ∀ w : Writer, w.booleanField = none → (p = .compact → w.lastFieldId = last) →
        p.writer.writeFieldBegin type id w =
          .ok ((), (w.append hs).withLast (p.nextLast w.lastFieldId id)) := by
  cases p with
  | binary =>
    obtain ⟨ids, _, idWrites, idReads⟩ := Protocol.i16_roundTrip .binary 0 id
    have notStop : type ≠ .stop := by
      rintro rfl
      simp [TType.IsValue] at valued
    refine ⟨[type.toByte] ++ ids, ⟨by simp, fun r rest input pending _ => ?_⟩,
      fun w pending _ => ?_⟩
    · have header : BinaryProtocolReader.readFieldBegin r = .ok ((type, id), r.withInput rest) := by
        refine Reads.bind (Reads.decode (decodes_readByte type.toByte) 0) ?_ r _ input
          (Nat.zero_le _) pending
        rw [TType.ofByte_toByte valued, if_neg notStop]
        exact idReads.bind_pure fun id => (type, id)
      rw [← pending]
      exact header
    · exact ((Writes.push [type.toByte] 0).seq idWrites) w (Nat.zero_le _) pending
  | compact =>
    obtain ⟨known, pos, below⟩ := Compact.cTypeToTType_ttypeToCType valued
    obtain ⟨hs, long, headerWrites, headerReads⟩ := compact_field_header pos below last id
    refine ⟨hs, ⟨long, fun r rest input pending same => ?_⟩, fun w pending same => ?_⟩
    · have typed := reads_getType known 0 (r.withInput rest) rest rfl (Nat.zero_le _) pending
      refine (headerReads r _ input pending (same rfl)).trans ?_
      rw [Run.bind_of_ok typed]
      unfold CompactProtocolReader.saveBool
      rw [if_neg (Compact.ttypeToCType_ne_bool valued (plain rfl)), ← pending]
      rfl
    · show CompactProtocolWriter.writeFieldBegin type id w = _
      unfold CompactProtocolWriter.writeFieldBegin
      rw [if_neg (plain rfl), Run.get_bind, same rfl]
      exact Run.bind_of_ok (headerWrites w)

theorem stopReads (p : Protocol) : StopReads p [0] := by
  refine ⟨Nat.le_refl 1, fun r rest input pending => ?_⟩
  have byte := Reads.decode (decodes_readByte 0) 0 r rest input (by omega) pending
  cases p with
  | binary => exact Run.bind_of_ok byte
  | compact => exact Run.bind_of_ok byte


/-- A field whose value is written behind its header. -/
theorem Protocol.plain_field_trip {α : Type} (p : Protocol) {h : Nat}
    (valued : type.IsValue) (plain : p = .compact → type ≠ .bool) (id : Int16)
    {read : ReadM α} {a : α} (trip : RoundTrip h k write read a) :
    FieldTrip p h type id write read a := by
  intro last
  obtain ⟨bs, _, writes, reads⟩ := trip
  obtain ⟨hs, ⟨long, headerReads⟩, headerWrites⟩ := p.field_header valued plain last id
  refine ⟨hs ++ bs, by simp; omega, fun w high pending same => ?_,
    fun r rest input high pending same => ?_⟩
  · rw [Run.bind_of_ok (headerWrites w pending same),
      writes ((w.append hs).withLast (p.nextLast w.lastFieldId id)) high pending,
      ← Writer.append_append]
    rfl
  · rw [List.append_assoc] at input
    refine ⟨_, headerReads r (bs ++ rest) input pending same, ?_⟩
    rw [← pending]
    exact reads ((r.withInput (bs ++ rest)).withLast (p.nextLast r.lastFieldId id)) rest rfl high pending

theorem compact_bool_header (last id : Int16) (b : Bool) :
    ∃ hs, FieldHeaderReads .compact last hs .bool id (some b) ∧
      ∀ w : Writer, w.booleanField = none → w.lastFieldId = last →
        (CompactProtocolWriter.writeFieldBegin .bool id >>= fun _ =>
          CompactProtocolWriter.writeBool b) w = .ok ((), (w.append hs).withLast id) := by
  have pos : 0 < (Compact.boolCType b).toNat := by cases b <;> decide
  have below : (Compact.boolCType b).toNat < 16 := by cases b <;> decide
  obtain ⟨hs, long, headerWrites, headerReads⟩ := compact_field_header pos below last id
  refine ⟨hs, ⟨long, fun r rest input pending same => ?_⟩, fun w pending same => ?_⟩
  · refine (headerReads r _ input pending (same rfl)).trans ?_
    cases b <;> rfl
  · subst same
    show CompactProtocolWriter.writeBool b { w with booleanField := some id } = _
    have header : CompactProtocolWriter.writeFieldBeginInternal (Compact.boolCType b) id
        w.lastFieldId { w with booleanField := some id } =
        .ok ((), ({ w with booleanField := some id }.append hs).withLast id) :=
      Run.bind_of_ok (headerWrites { w with booleanField := some id })
    unfold CompactProtocolWriter.writeBool
    rw [Run.get_bind]
    refine (Run.bind_of_ok header).trans ?_
    rw [Run.modify_run, ← pending]
    rfl

theorem compact_bool_field_trip (h : Nat) (id : Int16) (b : Bool) :
    FieldTrip .compact h .bool id (CompactProtocolWriter.writeBool b)
      CompactProtocolReader.readBool b := by
  intro last
  obtain ⟨hs, ⟨long, reads⟩, writes⟩ := compact_bool_header last id b
  refine ⟨hs, long, fun w _ pending same => writes w pending (same rfl),
    fun r rest input _ pending same => ⟨_, reads r rest input pending same, ?_⟩⟩
  show Except.ok (b, { (r.withInput rest).withLast id with boolValue := none }) = _
  rw [← pending]
  rfl

theorem Protocol.field_trip {α : Type} (p : Protocol) {h : Nat}
    (valued : type.IsValue) (notBool : type ≠ .bool) (id : Int16)
    {read : ReadM α} {a : α} (trip : RoundTrip h k write read a) :
    FieldTrip p h type id write read a :=
  p.plain_field_trip valued (fun _ => notBool) id trip

theorem Protocol.bool_field_trip (p : Protocol) (h : Nat) (id : Int16) (b : Bool) :
    FieldTrip p h .bool id (p.writer.writeBool b) p.reader.readBool b := by
  cases p with
  | binary =>
    exact Protocol.plain_field_trip .binary (by decide) (by rintro ⟨⟩) id
      (Protocol.bool_roundTrip .binary h b)
  | compact => exact compact_bool_field_trip h id b

/-! ## Structs -/

section Structs

variable {p : Protocol} {h : Nat} {bs : Bytes}

/-- The fields of a struct, read by a loop that starts behind a field with id `last`; `lasts`
says how they move the last field id. -/
def FieldsRead {α : Type} (p : Protocol) (h : Nat) (last : Int16) (bs : Bytes)
    (loop : Nat → ReadM α) (a : α) : Prop :=
  ∃ lasts : Int16 → Int16, (p = .binary → ∀ l, lasts l = l) ∧
    ∀ (r : Reader) (rest : Bytes) (left : Nat), r.input = bs ++ rest → h ≤ r.height →
      r.boolValue = none → (p = .compact → r.lastFieldId = last) → r.input.length < left →
      loop left r = .ok (a, (r.withInput rest).withLast (lasts r.lastFieldId))

theorem FieldsRead.struct {α β : Type} {loop : Nat → ReadM α} {a : α}
    (fields : FieldsRead p h 0 bs loop a) (pos : 1 ≤ h) (g : α → β) :
    Reads (do
      p.reader.readStructBegin
      let r ← get
      let a ← loop (r.input.length + 1)
      p.reader.readStructEnd
      pure (g a)) (h + 1) bs (g a) := by
  obtain ⟨lasts, kept, reads⟩ := fields
  intro r rest input high pending
  have low : h ≤ r.height - 1 := by omega
  have back : r.height - 1 + 1 = r.height := by omega
  cases p with
  | binary =>
    have begun := ReadM.descend_of_height (r := r) (by omega)
    have read := reads r.down rest (r.input.length + 1) input low pending (by rintro ⟨⟩)
      (Nat.lt_succ_self _)
    rw [kept rfl] at read
    refine (Run.bind_of_ok begun).trans (Run.get_bind.trans ((Run.bind_of_ok read).trans ?_))
    show Except.ok (_, { r.withInput rest with height := r.height - 1 + 1 }) = _
    rw [back]
    rfl
  | compact =>
    let inner := { r.down with lastField := r.lastFieldId :: r.lastField, lastFieldId := 0 }
    have begun : CompactProtocolReader.readStructBegin r = .ok ((), inner) :=
      Run.bind_of_ok (ReadM.descend_of_height (by omega))
    have read := reads inner rest (r.input.length + 1) input low pending (fun _ => rfl)
      (Nat.lt_succ_self _)
    refine (Run.bind_of_ok begun).trans (Run.get_bind.trans ((Run.bind_of_ok read).trans ?_))
    show Except.ok (_, { r.withInput rest with height := r.height - 1 + 1 }) = _
    rw [back]
    rfl

/-- The fields of a struct, written behind a field with id `last`. -/
def FieldsWritten (p : Protocol) (h : Nat) (last : Int16) (bs : Bytes) (write : WriteM) : Prop :=
  ∃ lasts : Int16 → Int16, (p = .binary → ∀ l, lasts l = l) ∧
    ∀ w : Writer, h ≤ w.height → w.booleanField = none → (p = .compact → w.lastFieldId = last) →
      write w = .ok ((), (w.append bs).withLast (lasts w.lastFieldId))

theorem FieldsWritten.struct {write : WriteM} (fields : FieldsWritten p h 0 bs write) (pos : 1 ≤ h) :
    Writes (p.writer.writeStructBegin >>= fun _ => write >>= fun _ => p.writer.writeStructEnd)
      (h + 1) bs := by
  obtain ⟨lasts, kept, writes⟩ := fields
  intro w high pending
  have low : h ≤ w.height - 1 := by omega
  have back : w.height - 1 + 1 = w.height := by omega
  cases p with
  | binary =>
    have begun := WriteM.descend_of_height (w := w) (by omega)
    have written := writes w.down low pending (by rintro ⟨⟩)
    rw [kept rfl] at written
    refine (Run.bind_of_ok begun).trans ((Run.bind_of_ok written).trans ?_)
    show Except.ok ((), { w.append bs with height := w.height - 1 + 1 }) = _
    rw [back]
    rfl
  | compact =>
    let inner := { w.down with lastField := w.lastFieldId :: w.lastField, lastFieldId := 0 }
    have begun : CompactProtocolWriter.writeStructBegin w = .ok ((), inner) :=
      Run.bind_of_ok (WriteM.descend_of_height (by omega))
    refine (Run.bind_of_ok begun).trans
      ((Run.bind_of_ok (writes inner low pending fun _ => rfl)).trans ?_)
    show Except.ok ((), { w.append bs with height := w.height - 1 + 1 }) = _
    rw [back]
    rfl

theorem FieldsWritten.stop (p : Protocol) (h : Nat) (last : Int16) :
    FieldsWritten p h last [0] p.writer.writeFieldStop := by
  refine ⟨id, fun _ _ => rfl, fun w _ _ _ => ?_⟩
  cases p <;> rfl

variable {last : Int16}

theorem FieldsWritten.cons {write writes : WriteM} {fs gs : Bytes} {id : Int16}
    (first : ∀ w : Writer, h ≤ w.height → w.booleanField = none →
      (p = .compact → w.lastFieldId = last) →
      write w = .ok ((), (w.append fs).withLast (p.nextLast w.lastFieldId id)))
    (rest : FieldsWritten p h (p.nextLast last id) gs writes) :
    FieldsWritten p h last (fs ++ gs) (write >>= fun _ => writes) := by
  obtain ⟨lasts, kept, below⟩ := rest
  have moved : ∀ l, p = .compact → p.nextLast l id = p.nextLast last id := by
    rintro l rfl
    rfl
  refine ⟨fun l => lasts (p.nextLast l id), ?_, fun w high pending same => ?_⟩
  · rintro rfl l
    exact kept rfl l
  · rw [Run.bind_of_ok (first w high pending same),
      below ((w.append fs).withLast (p.nextLast w.lastFieldId id)) high pending (moved _),
      ← Writer.append_append]
    rfl

theorem StopReads.fieldsRead {α : Type} {loop : Nat → ReadM α} {a : α} (stop : StopReads p bs)
    (ends : ∀ (r r' : Reader) (left : Nat), p.reader.readFieldBegin r = .ok ((.stop, 0), r') →
      loop (left + 1) r = .ok (a, r')) : FieldsRead p h last bs loop a := by
  refine ⟨id, fun _ _ => rfl, fun r rest left input _ pending _ room => ?_⟩
  obtain ⟨left, rfl⟩ : ∃ m, left = m + 1 := ⟨left - 1, by omega⟩
  exact ends r _ left (stop.2 r rest input pending)

theorem FieldsRead.cons {α : Type} (bs : Bytes) {loop next : Nat → ReadM α} {a : α} {id : Int16}
    {type : TType} {pending : Option Bool} {hs fs : Bytes}
    (header : FieldHeaderReads p last hs type id pending)
    (rest : FieldsRead p h (p.nextLast last id) fs next a)
    (step : ∀ (r mid : Reader) (cs : Bytes) (left : Nat), r.input = bs ++ cs → h ≤ r.height →
      r.boolValue = pending → p.reader.readFieldBegin mid = .ok ((type, id), r) →
      loop (left + 1) mid = next left { r with input := cs, boolValue := none }) :
    FieldsRead p h last (hs ++ (bs ++ fs)) loop a := by
  obtain ⟨lasts, kept, reads⟩ := rest
  refine ⟨fun l => lasts (p.nextLast l id), ?_, fun r tail left input high none same room => ?_⟩
  · rintro rfl l
    exact kept rfl l
  obtain ⟨left, rfl⟩ : ∃ m, left = m + 1 := ⟨left - 1, by omega⟩
  have length : r.input.length = hs.length + (bs.length + (fs ++ tail).length) := by
    rw [input]
    simp
  have long := header.1
  rw [List.append_assoc, List.append_assoc] at input
  have begun := header.2 r _ input none same
  have moved : p = .compact → p.nextLast r.lastFieldId id = p.nextLast last id := by
    rintro rfl
    rfl
  rw [step { (r.withInput (bs ++ (fs ++ tail))).withLast (p.nextLast r.lastFieldId id) with
      boolValue := pending } r (fs ++ tail) left rfl high rfl begun]
  have read := reads ((r.withInput (fs ++ tail)).withLast (p.nextLast r.lastFieldId id)) tail left
    rfl high none moved (by show (fs ++ tail).length < left; omega)
  show next left { (r.withInput (fs ++ tail)).withLast (p.nextLast r.lastFieldId id) with
    boolValue := Option.none } = _
  rw [← none]
  exact read

end Structs

end FbThrift
