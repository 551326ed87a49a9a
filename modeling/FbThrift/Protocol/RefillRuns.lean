import FbThrift.Protocol.RefillAgrees

/-!
# Skips and sequences of calls with refills

Both refilling readers skip a value with the free function `skip`, as the plain compact reader
does.  The plain binary reader has a `skip` of its own, which takes the bytes of a boolean unread.
-/

namespace FbThrift

open Decoder ProtocolReaderWithRefill

variable {α : Type} {extra : Nat → Nat}

/-! ## The parts of a skip -/

namespace Agrees

variable {x : ReadM α} {c : CarefulM α} {y : RefillM α}

theorem discard (agrees : Agrees extra x c y) : Agrees extra (discard x) (discard c) (discard y) :=
  agrees.map fun _ => ()

end Agrees

variable {x : ReaderCalls ReadM} {c : ReaderCalls CarefulM} {y : ReaderCalls RefillM}

theorem agrees_times {skip : ReadM Unit} {skip' : CarefulM Unit} {skip'' : RefillM Unit}
    (agrees : Agrees extra skip skip' skip'') (n : Nat) : Agrees extra
      (ReadM.times skip n >>= fun _ => pure ()) (ReaderCalls.times skip' n)
      (ReaderCalls.times skip'' n) := by
  induction n with
  | zero => exact .pure ()
  | succ n ih =>
    have step : (ReadM.times skip (n + 1) >>= fun _ => pure ()) =
        skip >>= fun _ => ReadM.times skip n >>= fun _ => pure () := by
      simp only [ReadM.times, bind_assoc, pure_bind]
    rw [step]
    exact agrees.seq ih

/-- The skips of a value of each type. -/
def AgreeSkips (extra : Nat → Nat) (skip : TType → ReadM Unit) (skip' : TType → CarefulM Unit)
    (skip'' : TType → RefillM Unit) : Prop :=
  ∀ type, Agrees extra (skip type) (skip' type) (skip'' type)

variable {skip : TType → ReadM Unit} {skip' : TType → CarefulM Unit}
  {skip'' : TType → RefillM Unit}

theorem agrees_skipEach (agree : AgreeSkips extra skip skip' skip'') (types : List TType) :
    Agrees extra (skipEach skip types) (ReaderCalls.skipEach skip' types)
      (ReaderCalls.skipEach skip'' types) := by
  induction types with
  | nil => exact .pure ()
  | cons type types ih => exact (agree type).seq ih

/-- `fields` of the readers, where the values of the fields are not used. -/
theorem agrees_fields {P : ReaderOps}
    (header : Agrees extra P.readFieldBegin c.readFieldBegin y.readFieldBegin)
    (agree : AgreeSkips extra skip skip' skip'') (left : Nat) :
    Agrees extra (ReadM.fields P skip left >>= fun _ => pure ()) (c.fields skip' left)
      (y.fields skip'' left) := by
  induction left with
  | zero => exact .throw _
  | succ left ih =>
    have step : (ReadM.fields P skip (left + 1) >>= fun _ => pure ()) =
        P.readFieldBegin >>= fun field => if field.1 = .stop then pure ()
          else skip field.1 >>= fun _ => ReadM.fields P skip left >>= fun _ => pure () := by
      simp only [ReadM.fields, bind_assoc]
      congr 1
      funext field
      split <;> simp only [bind_assoc, pure_bind]
    rw [step]
    exact header.bind fun field => .ite (.pure ()) ((agree field.1).seq ih)

section Calls

variable {p : Protocol} (calls : AgreeCalls extra p.plainCalls c y)
include calls

theorem agrees_skipN (agree : AgreeSkips extra skip skip' skip'') (n : Nat) (types : List TType) :
    Agrees extra (skipN p skip n types) (c.skipN p skip' n types) (y.skipN p skip'' n types) :=
  .ite (calls.skipBytes _) (agrees_times (agrees_skipEach agree types) n)

theorem agrees_skipFields (agree : AgreeSkips extra skip skip' skip'') :
    Agrees extra (skipFields p.reader skip) (c.skipFields skip') (y.skipFields skip'') := by
  have step : skipFields p.reader skip = p.reader.readStructBegin >>= fun _ =>
      p.plainCalls.left >>= fun left => (ReadM.fields p.reader skip (left + 1) >>= fun _ =>
        pure ()) >>= fun _ => p.reader.readStructEnd := by
    unfold skipFields Protocol.plainCalls
    simp only [bind_assoc, pure_bind]
  rw [step]
  exact calls.readStructBegin.seq (calls.left.bind fun left =>
    (agrees_fields calls.readFieldBegin agree (left + 1)).seq calls.readStructEnd)

/-- The skips of an element, which are absent where elements are too deep. -/
inductive AgreeElems (extra : Nat → Nat) : Option (TType → ReadM Unit) →
    Option (TType → CarefulM Unit) → Option (TType → RefillM Unit) → Prop where
  | tooDeep : AgreeElems extra none none none
  | skips {skip : TType → ReadM Unit} {skip' : TType → CarefulM Unit}
    {skip'' : TType → RefillM Unit} : AgreeSkips extra skip skip' skip'' →
    AgreeElems extra (some skip) (some skip') (some skip'')

variable {elem : Option (TType → ReadM Unit)} {elem' : Option (TType → CarefulM Unit)}
  {elem'' : Option (TType → RefillM Unit)}

theorem agrees_skipTuples (agree : AgreeElems extra elem elem' elem'') (n : Nat)
    (types : List TType) : Agrees extra (skipContainer.skipTuples p elem n types)
      (c.skipTuples p elem' n types) (y.skipTuples p elem'' n types) := by
  cases agree with
  | tooDeep => exact .throw _
  | skips agree => exact agrees_skipN calls agree n types

theorem agrees_skipContainer (agree : AgreeElems extra elem elem' elem'') (type : TType) :
    Agrees extra (skipContainer p elem type) (c.skipContainer p elem' type)
      (y.skipContainer p elem'' type) := by
  cases type with
  | map =>
    exact calls.readMapBegin.bind fun header =>
      (agrees_skipTuples calls agree _ _).seq calls.readMapEnd
  | set =>
    exact calls.readSetBegin.bind fun header =>
      (agrees_skipTuples calls agree _ _).seq calls.readSetEnd
  | list =>
    exact calls.readListBegin.bind fun header =>
      (agrees_skipTuples calls agree _ _).seq calls.readListEnd
  | _ => exact .throw _

/-- The free function `skip` agrees with itself. -/
theorem agrees_skipBody (agree : AgreeSkips extra skip skip' skip'')
    (elems : AgreeElems extra elem elem' elem'') :
    AgreeSkips extra (skipBody p skip elem) (c.skipBody p skip' elem')
      (y.skipBody p skip'' elem'') := by
  intro type
  have container := agrees_skipContainer calls elems
  cases type with
  | bool => exact calls.readBool.discard
  | byte => exact calls.readByte.discard
  | i16 => exact calls.readI16.discard
  | i32 => exact calls.readI32.discard
  | u64 => exact calls.readI64.discard
  | i64 => exact calls.readI64.discard
  | double => exact calls.readDouble.discard
  | float => exact calls.readFloat.discard
  | utf8 => exact calls.readBinary.discard
  | utf16 => exact calls.readBinary.discard
  | string => exact calls.readBinary.discard
  | struct => exact agrees_skipFields calls agree
  | map => exact container .map
  | set => exact container .set
  | list => exact container .list
  | stop => exact container .stop
  | void => exact container .void
  | stream => exact container .stream
  | other code => exact container (.other code)

end Calls

/-! ## The skip of the binary reader -/

/-- The decoder takes `k` bytes whatever they are. -/
def Blind {β : Type} (d : Decoder β) (k : Nat) : Prop :=
  ∀ input, ∃ b, d input = if k ≤ input.length then .ok (b, input.drop k) else .error "underflow"

theorem blind_readByte : Blind Decoder.readByte 1 := by
  intro input
  cases input with
  | nil => exact ⟨0, rfl⟩
  | cons b input => exact ⟨b, by rw [if_pos (by rw [List.length_cons]; omega)]; rfl⟩

theorem blind_take (n : Nat) : Blind (take n) n := fun input => ⟨input.take n, rfl⟩

theorem blind_readBE (k : Nat) : Blind (readBE k) k := by
  have loop : ∀ k acc, Blind (readBELoop k acc) k := by
    intro k
    induction k with
    | zero =>
      intro acc input
      exact ⟨acc, by rw [if_pos (Nat.zero_le _), List.drop_zero]; rfl⟩
    | succ k ih =>
      intro acc input
      cases input with
      | nil => exact ⟨0, rfl⟩
      | cons b input =>
        obtain ⟨n, rest⟩ := ih (acc * 256 + b.toNat) input
        refine ⟨n, ?_⟩
        have first : Decoder.readByte (b :: input) = .ok (b, input) := rfl
        rw [readBELoop, Run.bind_of_ok first, rest, List.length_cons, List.drop_succ_cons]
        by_cases fits : k ≤ input.length
        · rw [if_pos fits, if_pos (by omega)]
        · rw [if_neg fits, if_neg (by omega)]
  exact loop k 0

theorem discard_of_blind {α β : Type} {d : Decoder β} {k : Nat} (blind : Blind d k) (f : β → α) :
    skipBytes k = discard (ReadM.decode d >>= fun b => pure (f b)) := by
  funext r
  obtain ⟨b, run⟩ := blind r.input
  obtain ⟨bs, skip⟩ := blind_take k r.input
  change (ReadM.decode (take k) >>= fun _ => pure ()) r =
    ((ReadM.decode d >>= fun b => pure (f b)) >>= fun _ => pure ()) r
  rw [bind_assoc]
  by_cases fits : k ≤ r.input.length
  · rw [if_pos fits] at run skip
    have skipped : ReadM.decode (take k) r = .ok (bs, r.withInput (r.input.drop k)) := by
      simp only [ReadM.decode, skip]
    have read : ReadM.decode d r = .ok (b, r.withInput (r.input.drop k)) := by
      simp only [ReadM.decode, run]
    rw [Run.bind_of_ok skipped, Run.bind_of_ok read]
    rfl
  · rw [if_neg fits] at run skip
    have skipped : ReadM.decode (take k) r = .error "underflow" := by
      simp only [ReadM.decode, skip]
    have read : ReadM.decode d r = .error "underflow" := by
      simp only [ReadM.decode, run]
    rw [Run.bind_of_error skipped, Run.bind_of_error read]

/-- A value of a fixed size is skipped unread where it is of no use. -/
theorem agrees_skipFixed {β : Type} {d : Decoder β} {k : Nat} {c : CarefulM α} {y : RefillM α}
    (blind : Blind d k) (f : β → α)
    (agrees : Agrees extra (ReadM.decode d >>= fun b => pure (f b)) c y) :
    Agrees extra (skipBytes k) (discard c) (discard y) := by
  rw [discard_of_blind blind f]
  exact agrees.discard

theorem skipBytes_one {r : Reader} {byte : UInt8} {bytes : Bytes}
    (input : r.input = byte :: bytes) : skipBytes 1 r = .ok ((), r.withInput bytes) := by
  have taken : ReadM.decode (take 1) r = .ok ([byte], r.withInput bytes) := by
    simp [ReadM.decode, take, input]
  rw [skipBytes, Run.bind_of_ok taken]
  rfl

theorem readBool_of_cons {r : Reader} {byte : UInt8} {bytes : Bytes}
    (input : r.input = byte :: bytes) : BinaryProtocolReader.readBool r =
      if byte.toNat ≥ 2 then .error (boolValueOutOfRange byte)
      else .ok (byte.toNat = 1, r.withInput bytes) := by
  have read : ReadM.decode Decoder.readByte r = .ok (byte, r.withInput bytes) := by
    simp [ReadM.decode, Decoder.readByte, input]
  rw [BinaryProtocolReader.readBool, Run.bind_of_ok read]
  split <;> rfl

/-- A boolean is skipped unread by the plain reader only. -/
theorem agrees_skipBool : Agrees extra (skipBytes 1)
    (discard (Careful.read BinaryProtocolReader.readBool))
    (discard (BinaryProtocolReaderWithRefill.calls extra).readBool) where
  careful ok := by
    obtain ⟨b, done, _⟩ := Run.map_ok ok
    obtain ⟨_, read, _⟩ := Careful.readUnless_ok done
    have ahead := (agreeCalls_binary : AgreeCalls (fun _ => 0) _ _ _).readBool.careful done
    obtain ⟨byte, bytes, input, rest⟩ := readByte_bind_ok read
    split at rest
    · cases rest
    · cases rest
      exact ⟨skipBytes_one input, ahead.2⟩
  shrinks ok := (local_skipBytes 1).length_le ok
  follows ok := agreeCalls_binary.readBool.discard.follows ok
  fails ok failed := by
    rename_i r h _ r' err
    have length := advances_skipBytes 1 ok
    obtain ⟨byte, bytes, input⟩ : ∃ byte bytes, r.input = byte :: bytes :=
      List.exists_cons_of_length_pos (by omega)
    refine ⟨0, Nat.zero_le _, fun _ s whole _ => ?_⟩
    have large : byte.toNat ≥ 2 := by
      by_contra small
      have read := readBool_of_cons input
      rw [if_neg small] at read
      have done : Careful.read BinaryProtocolReader.readBool ⟨r, h⟩ =
          .ok (byte.toNat = 1, ⟨r.withInput bytes, Careful.passed h r (r.withInput bytes)⟩) := by
        simp only [Careful.read, Careful.readUnless, read]
        rfl
      cases failed.symm.trans (Run.map_of_ok done _)
    obtain ⟨t, ensured, wholeT, least, _⟩ :=
      (.buffer (by decide) (by rw [whole]; omega) : Ensures extra (ensureBuffer extra 1) s 1)
    have chunk := headD_chunk (by omega) ((congrArg Reader.input (wholeT.trans whole)).trans input)
    obtain ⟨byte', bytes', input'⟩ : ∃ byte bytes, t.reader.input = byte :: bytes :=
      List.exists_cons_of_length_pos (by unfold Refilling.length at least; omega)
    rw [input', List.headD_cons] at chunk
    have failed' : protocol BinaryProtocolReader.readBool t =
        .error (boolValueOutOfRange byte') := by
      unfold protocol
      rw [readBool_of_cons input', if_pos (chunk ▸ large)]
    have refill : (BinaryProtocolReaderWithRefill.calls extra).readBool s =
        .error (boolValueOutOfRange byte') := by
      change (ensureBuffer extra 1 >>= fun _ => protocol BinaryProtocolReader.readBool) s = _
      rw [Run.bind_of_ok ensured, failed']
    have unused : ((BinaryProtocolReaderWithRefill.calls extra).readBool >>=
        fun _ => pure ()) s = .error (boolValueOutOfRange byte') := Run.bind_of_error refill
    exact ⟨_, unused⟩

section Binary

variable {elem : Option (TType → ReadM Unit)} {elem' : Option (TType → CarefulM Unit)}
  {elem'' : Option (TType → RefillM Unit)}

theorem agrees_binarySkipBody (agree : AgreeSkips extra skip skip' skip'')
    (elems : AgreeElems extra elem elem' elem'') : AgreeSkips extra (binarySkipBody skip elem)
      (Protocol.binary.carefulCalls.skipBody .binary skip' elem')
      ((BinaryProtocolReaderWithRefill.calls extra).skipBody .binary skip'' elem'') := by
  intro type
  have calls : AgreeCalls extra _ _ _ := agreeCalls_binary
  have container := agrees_skipContainer calls elems
  cases type with
  | bool => exact agrees_skipBool
  | byte => exact agrees_skipFixed blind_readByte _ calls.readByte
  | i16 => exact agrees_skipFixed (blind_readBE 2) _ calls.readI16
  | i32 => exact agrees_skipFixed (blind_readBE 4) _ calls.readI32
  | u64 => exact agrees_skipFixed (blind_readBE 8) _ calls.readI64
  | i64 => exact agrees_skipFixed (blind_readBE 8) _ calls.readI64
  | double => exact agrees_skipFixed (blind_readBE 8) _ calls.readDouble
  | float => exact agrees_skipFixed (blind_readBE 4) _ calls.readFloat
  | utf8 => exact calls.readBinary.discard
  | utf16 => exact calls.readBinary.discard
  | string => exact calls.readBinary.discard
  | struct => exact agrees_skipFields calls agree
  | map => exact container .map
  | set => exact container .set
  | list => exact container .list
  | stop => exact container .stop
  | void => exact container .void
  | stream => exact container .stream
  | other code => exact container (.other code)

end Binary

/-! ## Skips and calls -/

/-- By induction on the levels: a field is one level below, an element is two. -/
theorem agrees_skip (p : Protocol) : ∀ levels, AgreeSkips extra (p.skipAt levels)
    (p.carefulCalls.skip p levels) ((p.refillCalls extra).skip p levels)
  | 0 => fun _ => by
    unfold Protocol.skipAt
    exact .throw _
  | 1 => by
    have tooDeep : AgreeSkips extra (fun _ => throw exceededDepthLimit)
        (fun _ => throw exceededDepthLimit) fun _ => throw exceededDepthLimit :=
      fun _ => .throw _
    intro type
    cases p with
    | binary => exact agrees_binarySkipBody tooDeep .tooDeep type
    | compact => exact agrees_skipBody agreeCalls_compact tooDeep .tooDeep type
  | levels + 2 => by
    have field := agrees_skip p (levels + 1)
    have elem := agrees_skip p levels
    intro type
    cases p with
    | binary =>
      rw [Protocol.skipAt, ReaderCalls.skip]
      exact agrees_binarySkipBody field (.skips elem) type
    | compact =>
      rw [Protocol.skipAt, ReaderCalls.skip]
      exact agrees_skipBody agreeCalls_compact field (.skips elem) type

theorem agrees_call (p : Protocol) (call : Call) : Agrees extra (call.run p.plainCalls p.skipAt)
    (call.run p.carefulCalls (p.carefulCalls.skip p))
    (call.run (p.refillCalls extra) ((p.refillCalls extra).skip p)) := by
  have calls : AgreeCalls extra _ _ _ := agreeCalls p
  cases call with
  | readBool => exact calls.readBool.map _
  | readByte => exact calls.readByte.map _
  | readI16 => exact calls.readI16.map _
  | readI32 => exact calls.readI32.map _
  | readI64 => exact calls.readI64.map _
  | readFloat => exact calls.readFloat.map _
  | readDouble => exact calls.readDouble.map _
  | readBinary => exact calls.readBinary.map _
  | readStructBegin => exact calls.readStructBegin.map _
  | readStructEnd => exact calls.readStructEnd.map _
  | readFieldBegin => exact calls.readFieldBegin.map _
  | readMapBegin => exact calls.readMapBegin.map _
  | readMapEnd => exact calls.readMapEnd.map _
  | readListBegin => exact calls.readListBegin.map _
  | readListEnd => exact calls.readListEnd.map _
  | readSetBegin => exact calls.readSetBegin.map _
  | readSetEnd => exact calls.readSetEnd.map _
  | skipBytes n => exact (calls.skipBytes n).map _
  | skip levels type => exact (agrees_skip p levels type).map _

theorem agrees_runAll (p : Protocol) (script : List Call) :
    Agrees extra (p.plainRun script) (p.carefulRun script) (p.refillRun extra script) := by
  induction script with
  | nil => exact .pure []
  | cons call rest ih =>
    exact (agrees_call p call).bind fun answer => ih.bind fun answers => .pure (answer :: answers)

/-! ## Refilling readers -/

/-- A refilling reader of a string whose first `n` bytes are in the chunk. -/
def Refilling.start (maxDepth : Nat) (bytes : Bytes) (n : Nat) : Refilling :=
  ⟨Reader.ofBytes maxDepth (bytes.take n), bytes.drop n, 0⟩

theorem Refilling.whole_start (maxDepth : Nat) (bytes : Bytes) (n : Nat) :
    (start maxDepth bytes n).whole = Reader.ofBytes maxDepth bytes := by
  have split := List.take_append_drop n bytes
  simp [start, whole, Reader.ofBytes, Reader.withInput, split]

/-- Whatever the first chunk is and however much is refilled, the calls are answered as by the
plain reader, which takes the same bytes. -/
def Refills (p : Protocol) (maxDepth : Nat) (bytes : Bytes) (script : List Call)
    (answers : List Answer) (r : Reader) : Prop :=
  ∀ (extra : Nat → Nat) (n : Nat), ∃ s,
    p.refillRun extra script (.start maxDepth bytes n) = .ok (answers, s) ∧ s.whole = r

/-- Refilling readers agree with plain ones on what the careful ones read, and on nothing else. -/
theorem refills_iff {p : Protocol} {maxDepth : Nat} {bytes : Bytes} {script : List Call}
    {answers : List Answer} {r : Reader}
    (plain : p.plainRun script (Reader.ofBytes maxDepth bytes) = .ok (answers, r)) :
    Refills p maxDepth bytes script answers r ↔
      ∃ s, p.carefulRun script ⟨Reader.ofBytes maxDepth bytes, false⟩ = .ok (answers, s) := by
  constructor
  · intro refills
    have agrees : Agrees (fun _ => 0) _ _ _ := agrees_runAll p script
    cases careful : p.carefulRun script ⟨Reader.ofBytes maxDepth bytes, false⟩ with
    | error err =>
      obtain ⟨n, inside, fails⟩ := agrees.fails plain careful
      obtain ⟨s, refilled, _⟩ := refills (fun _ => 0) n
      have length : (Refilling.start maxDepth bytes n).length = max n false.toNat := by
        change (bytes.take n).length = max n 0
        have inside : n ≤ bytes.length := inside
        rw [List.length_take_of_le inside, Nat.max_zero]
      obtain ⟨err', failed⟩ :=
        fails (fun _ => rfl) _ (Refilling.whole_start maxDepth bytes n) length
      cases refilled.symm.trans failed
    | ok pair =>
      obtain ⟨answers', r', h'⟩ := pair
      cases plain.symm.trans (agrees.careful careful).1
      exact ⟨_, rfl⟩
  · rintro ⟨⟨r', h'⟩, careful⟩ extra n
    have agrees : Agrees extra _ _ _ := agrees_runAll p script
    obtain ⟨t, refilled, whole, _⟩ := agrees.follows careful _
      (Refilling.whole_start maxDepth bytes n) (Nat.zero_le _)
    cases plain.symm.trans (agrees.careful careful).1
    exact ⟨t, refilled, whole⟩

/-- The calls that read a struct with one integer. -/
def structWithInteger : List Call :=
  [.readStructBegin, .readFieldBegin, .readI32, .readFieldBegin, .readStructEnd]

theorem refills_structWithInteger : Refills .compact 64 [0x15, 0x02, 0x00] structWithInteger
    [.none, .field .i32 1, .i32 1, .field .stop 0, .none] (Reader.ofBytes 64 []) :=
  (refills_iff rfl).mpr ⟨_, rfl⟩

/-- A chunk that ends before a set header is not refilled. -/
theorem refills_fails : ∃ answers r,
    Protocol.compact.plainRun [.readSetBegin] (Reader.ofBytes 64 [0x15]) = .ok (answers, r) ∧
      ¬ Refills .compact 64 [0x15] [.readSetBegin] answers r := by
  refine ⟨_, _, rfl, fun refills => ?_⟩
  obtain ⟨s, done, _⟩ := refills (fun _ => 0) 0
  have failed : Protocol.compact.refillRun (fun _ => 0) [.readSetBegin]
      (.start 64 [0x15] 0) = .error "underflow" := rfl
  cases failed.symm.trans done

end FbThrift
