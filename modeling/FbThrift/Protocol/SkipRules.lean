import FbThrift.Protocol.Encodes
import FbThrift.Protocol.Skip

/-!
# Skipping an encoding

`skip` stops behind an encoding whatever it holds, as long as the levels that it counts
stay below the limit.  Elements of a fixed size are not looked at, so the proof also needs
that their encodings have that size.
-/

namespace FbThrift

open Decoder SortedMap Value

/-! ## Levels -/

mutual

/-- The levels that skipping a value goes through: one for a struct, two for a container. -/
def Value.skipLevels : Value → Nat
  | .object ms => skipLevelsMembers ms + 1
  | .list vs => skipLevelsElems vs + 2
  | .set vs => skipLevelsElems vs + 2
  | .map es => skipLevelsEntries es + 2
  | _ => 1

def skipLevelsMembers : List (Int16 × Value) → Nat
  | [] => 0
  | (_, v) :: ms => max v.skipLevels (skipLevelsMembers ms)

def skipLevelsElems : List Value → Nat
  | [] => 0
  | v :: vs => max v.skipLevels (skipLevelsElems vs)

def skipLevelsEntries : List (Value × Value) → Nat
  | [] => 0
  | (k, v) :: es => max (max k.skipLevels v.skipLevels) (skipLevelsEntries es)

end

theorem skipLevels_le_of_member {ms : List (Int16 × Value)} {e : Int16 × Value} (member : e ∈ ms) :
    e.2.skipLevels ≤ skipLevelsMembers ms := by
  induction ms with
  | nil => cases member
  | cons e' ms ih =>
    rcases List.mem_cons.mp member with rfl | later
    · exact le_max_left _ _
    · exact (ih later).trans (le_max_right _ _)

theorem skipLevels_le_of_elem {vs : List Value} {v : Value} (member : v ∈ vs) :
    v.skipLevels ≤ skipLevelsElems vs := by
  induction vs with
  | nil => cases member
  | cons v' vs ih =>
    rcases List.mem_cons.mp member with rfl | later
    · exact le_max_left _ _
    · exact (ih later).trans (le_max_right _ _)

theorem skipLevels_le_of_entry {es : List (Value × Value)} {e : Value × Value} (member : e ∈ es) :
    max e.1.skipLevels e.2.skipLevels ≤ skipLevelsEntries es := by
  induction es with
  | nil => cases member
  | cons e' es ih =>
    rcases List.mem_cons.mp member with rfl | later
    · exact le_max_left _ _
    · exact (ih later).trans (le_max_right _ _)

section Fixed

variable {p : Protocol} {h : Nat} {type : TType} {bs : Bytes} {v : Value}

/-- A read that runs such a decoder and looks no further takes as many bytes. -/
theorem Reads.length_eq {α β : Type} {x : Decoder α} {k : Nat} {f : α → ReadM β} {b : β}
    (takes : Takes x k) (reads : Reads (ReadM.decode x >>= f) h bs b)
    (keeps : ∀ (a : α) (r r' : Reader) (b : β), f a r = .ok (b, r') → r' = r) :
    bs.length = k := by
  have ok := reads ⟨bs, h, 0, [], none⟩ [] (by simp) (Nat.le_refl h) rfl
  obtain ⟨a, mid, decoded, rest⟩ := Run.bind_ok ok
  have same := keeps a mid _ b rest
  unfold ReadM.decode at decoded
  cases run : x bs with
  | error err =>
    simp only [run] at decoded
    cases decoded
  | ok result =>
    obtain ⟨a', tail⟩ := result
    simp only [run] at decoded
    cases decoded
    have empty : [] = tail := congrArg Reader.input same
    have length := takes bs a tail run
    rw [← empty] at length
    simpa using length

theorem Encodes.length_of_fixed (encodes : Encodes p h type bs v)
    (fixed : p.fixedSizeInContainer type ≠ 0) : bs.length = p.fixedSizeInContainer type := by
  cases h with
  | zero => exact encodes.elim
  | succ h =>
    obtain ⟨_, encodes⟩ := encodes
    have ends : ∀ {α β : Type} (g : α → β) (a : α) (r r' : Reader) (b : β),
        (pure (g a) : ReadM β) r = .ok (b, r') → r' = r := by
      intro α β g a r r' b ok
      cases ok
      rfl
    cases p with
    | binary =>
      cases type with
      | bool =>
        obtain ⟨b, reads, rfl⟩ := encodes
        refine reads.length_eq takes_readByte fun a r r' b ok => ?_
        split at ok
        · cases ok
        · cases ok
          rfl
      | byte =>
        obtain ⟨n, reads, rfl⟩ := encodes
        exact reads.length_eq takes_readByte (ends _)
      | i16 =>
        obtain ⟨n, reads, rfl⟩ := encodes
        exact reads.length_eq (takes_readBE 2) (ends fun n => (UInt16.ofNat n).toInt16)
      | i32 =>
        obtain ⟨n, reads, rfl⟩ := encodes
        exact reads.length_eq (takes_readBE 4) (ends fun n => (UInt32.ofNat n).toInt32)
      | i64 =>
        obtain ⟨n, reads, rfl⟩ := encodes
        exact reads.length_eq (takes_readBE 8) (ends fun n => (UInt64.ofNat n).toInt64)
      | float =>
        obtain ⟨n, reads, rfl⟩ := encodes
        exact reads.length_eq (takes_readBE 4) (ends _)
      | double =>
        obtain ⟨n, reads, rfl⟩ := encodes
        exact reads.length_eq (takes_readBE 8) (ends _)
      | _ => exact (fixed rfl).elim
    | compact =>
      cases type with
      | bool =>
        obtain ⟨b, reads, rfl⟩ := encodes
        have plain : Reads (ReadM.decode readByte >>= fun byte =>
            pure (decide (byte.toNat = 1))) 0 bs b := by
          intro r rest input high pending
          have run := reads r rest input high pending
          change CompactProtocolReader.readBool r = _ at run
          unfold CompactProtocolReader.readBool at run
          rwa [Run.get_bind, pending] at run
        exact plain.length_eq takes_readByte (ends fun byte : UInt8 => decide (byte.toNat = 1))
      | byte =>
        obtain ⟨n, reads, rfl⟩ := encodes
        exact reads.length_eq takes_readByte (ends _)
      | float =>
        obtain ⟨n, reads, rfl⟩ := encodes
        exact reads.length_eq (takes_readBE 4) (ends _)
      | double =>
        obtain ⟨n, reads, rfl⟩ := encodes
        exact reads.length_eq (takes_readBE 8) (ends _)
      | _ => exact (fixed rfl).elim

end Fixed

/-! ## Runs -/

/-- The function skips every encoding within `left` levels, and a boolean that came with its
header. -/
structure Skips (p : Protocol) (h left : Nat) (skip : TType → ReadM Unit) : Prop where
  value : ∀ {type : TType} {bs : Bytes} {v : Value}, Encodes p h type bs v →
    v.skipLevels ≤ left → Reads (skip type) h bs ()
  pending : p = .compact → 1 ≤ left → ∀ {r : Reader} {b : Bool}, r.boolValue = some b →
    skip .bool r = .ok ((), { r with boolValue := none })

section Runs

variable {p : Protocol} {h left : Nat} {type : TType} {bs : Bytes} {v : Value}

theorem Value.one_le_skipLevels (v : Value) : 1 ≤ v.skipLevels := by
  cases v <;> simp [Value.skipLevels]

theorem Skips.zero (p : Protocol) (h : Nat) (skip : TType → ReadM Unit) : Skips p h 0 skip where
  value := by
    intro type bs v _ low
    have pos := v.one_le_skipLevels
    omega
  pending := by
    intro _ low
    omega

theorem reads_skipBytes {k : Nat} (length : bs.length = k) : Reads (skipBytes k) h bs () := by
  subst length
  exact (Reads.decode (decodes_take bs) h).bind_pure fun _ => ()

theorem EncodesSeq.length_eq {α : Type} {enc : Bytes → α → Prop} {cs : Bytes} {as : List α}
    {k : Nat} (seq : EncodesSeq enc cs as) (each : ∀ bs a, enc bs a → bs.length = k) :
    cs.length = k * as.length := by
  induction seq with
  | nil => simp
  | @cons bs cs a as first rest ih =>
    rw [List.length_append, List.length_cons, each bs a first, ih, Nat.mul_add, Nat.mul_one]
    omega

/-- `skip_n` takes a sequence of tuples, one by one or all at once. -/
theorem EncodesSeq.reads_skipN {α : Type} {enc : Bytes → α → Prop} {cs : Bytes} {as : List α}
    (skip : TType → ReadM Unit) (types : List TType) (seq : EncodesSeq enc cs as)
    (each : ∀ bs a, enc bs a → Reads (skipEach skip types) h bs ())
    (fixed : (∀ type ∈ types, p.fixedSizeInContainer type ≠ 0) → ∀ bs a, enc bs a →
      bs.length = (types.map p.fixedSizeInContainer).sum) :
    Reads (skipN p skip as.length types) h cs () := by
  unfold skipN
  split
  next all =>
    have sizes : ∀ type ∈ types, p.fixedSizeInContainer type ≠ 0 := by simpa using all
    exact reads_skipBytes (seq.length_eq (fixed sizes))
  next =>
    obtain ⟨reads, _⟩ := seq.reads (k := 0) (g := fun _ => ()) fun bs a enc =>
      ⟨each bs a enc, Nat.zero_le _⟩
    exact reads.bind_pure fun _ => ()

variable {skip : TType → ReadM Unit}

theorem Skips.each_one (skips : Skips p h left skip)
    (encodes : Encodes p h type bs v) (levels : v.skipLevels ≤ left) :
    Reads (skipEach skip [type]) h bs () :=
  (skips.value encodes levels).bind_pure fun _ => ()

theorem Skips.each_two (skips : Skips p h left skip)
    {key value : TType} {e : Value × Value}
    (pair : EncodesPair (Encodes p h key) (Encodes p h value) bs e)
    (levels : max e.1.skipLevels e.2.skipLevels ≤ left) :
    Reads (skipEach skip [key, value]) h bs () := by
  obtain ⟨ks, vs, rfl, keys, values⟩ := pair
  exact (skips.value keys ((le_max_left _ _).trans levels)).bind
    (skips.each_one values ((le_max_right _ _).trans levels))

theorem Encodes.reads_skipContainer (encodes : Encodes p (h + 1) type bs v)
    (skips : Skips p h left skip) (levels : v.skipLevels ≤ left + 2)
    (container : type = .list ∨ type = .set ∨ type = .map) :
    Reads (skipContainer p (some skip) type) (h + 1) bs () := by
  obtain ⟨_, encodes⟩ := encodes
  rcases container with rfl | rfl | rfl
  · obtain ⟨hs, cs, elem, vs, pos, rfl, _, header, seq, rfl⟩ := encodes
    have bound : ∀ v ∈ vs, v.skipLevels ≤ left := fun v member =>
      (skipLevels_le_of_elem member).trans (Nat.le_of_add_le_add_right levels)
    have body := EncodesSeq.reads_skipN (p := p) skip [elem]
      (seq.imp fun bs v member encodes => And.intro member encodes)
      (fun bs v both => skips.each_one both.2 (bound v both.1))
      (fun fixed bs v both => by simpa using both.2.length_of_fixed (fixed elem (by simp)))
    have whole := header.nest (fun header => skipN p skip header.2 [header.1]) (fun _ => ()) pos body
    cases p <;> exact whole
  · obtain ⟨hs, cs, elem, vs, pos, rfl, _, header, seq, rfl⟩ := encodes
    have bound : ∀ v ∈ vs, v.skipLevels ≤ left := fun v member =>
      (skipLevels_le_of_elem (SortedSet.mem_ofList.mpr member)).trans
        (Nat.le_of_add_le_add_right levels)
    have body := EncodesSeq.reads_skipN (p := p) skip [elem]
      (seq.imp fun bs v member encodes => And.intro member encodes)
      (fun bs v both => skips.each_one both.2 (bound v both.1))
      (fun fixed bs v both => by simpa using both.2.length_of_fixed (fixed elem (by simp)))
    have whole := header.nest (fun header => skipN p skip header.2 [header.1]) (fun _ => ()) pos body
    cases p <;> exact whole
  · obtain ⟨hs, cs, key, value, es, pos, rfl, _, header, seq, nodup, rfl⟩ := encodes
    have bound : ∀ e ∈ es, max e.1.skipLevels e.2.skipLevels ≤ left := fun e member =>
      (skipLevels_le_of_entry (mem_ofList nodup member)).trans (Nat.le_of_add_le_add_right levels)
    have body := EncodesSeq.reads_skipN (p := p) skip [key, value]
      (seq.imp fun bs e member encodes => And.intro member encodes)
      (fun bs e both => skips.each_two both.2 (bound e both.1))
      (fun fixed bs e both => by
        obtain ⟨_, ks, vs, rfl, keys, values⟩ := both
        have first := keys.length_of_fixed (fixed key (by simp))
        have second := values.length_of_fixed (fixed value (by simp))
        simp [first, second])
    have whole := header.nest (fun header => skipN p skip header.2.2 [header.1, header.2.1])
      (fun _ => ()) pos body
    cases p <;> exact whole

theorem Encodes.reads_skipFields
    (encodes : Encodes p (h + 1) .struct bs v) (skips : Skips p h left skip)
    (levels : v.skipLevels ≤ left + 1) : Reads (skipFields p.reader skip) (h + 1) bs () := by
  obtain ⟨_, ms, pos, fields, nodup, rfl⟩ := encodes
  have bound : ∀ e ∈ ms, e.2.skipLevels ≤ left := fun e member =>
    (skipLevels_le_of_member (mem_ofList nodup member)).trans (Nat.le_of_add_le_add_right levels)
  have bounded : EncodesFields p (fun type bs v => Encodes p h type bs v ∧ v.skipLevels ≤ left)
      0 bs ms := fields.imp fun type bs e member encodes => ⟨encodes, bound e member⟩
  have loop := bounded.reads (h := h) skip (fun _ => ())
    (fun type bs v both => ⟨both.1.ne_stop, skips.value both.1 both.2⟩)
    (fun r b member compact pending =>
      skips.pending compact (member.elim fun id member => bound (id, .bool b) member) pending)
  have whole := loop.struct pos fun _ => ()
  cases p <;> exact whole

/-- The body of the free `skip`: a struct's members have one level less, elements two. -/
theorem skips_skipBody {field : TType → ReadM Unit} {elem : Option (TType → ReadM Unit)}
    (fields : Skips p h left field)
    (elems : ∀ m, left = m + 1 → ∃ skip, elem = some skip ∧ Skips p h m skip) :
    Skips p (h + 1) (left + 1) (skipBody p field elem) where
  value := by
    intro type bs v encodes levels
    have container : type = .list ∨ type = .set ∨ type = .map →
        Reads (skipContainer p elem type) (h + 1) bs () := by
      intro container
      have two : 2 ≤ v.skipLevels := by
        have typed := encodes.parsed.typed
        cases v <;> rcases container with rfl | rfl | rfl <;> simp_all [getTType, skipLevels]
      obtain ⟨skip, rfl, skips⟩ := elems (left - 1) (by omega)
      exact encodes.reads_skipContainer skips (by omega) container
    cases type with
    | bool =>
      obtain ⟨_, b, reads, rfl⟩ := encodes
      exact (reads.of_zero _).map fun _ => ()
    | byte =>
      obtain ⟨_, n, reads, rfl⟩ := encodes
      exact (reads.of_zero _).map fun _ => ()
    | i16 =>
      obtain ⟨_, n, reads, rfl⟩ := encodes
      exact (reads.of_zero _).map fun _ => ()
    | i32 =>
      obtain ⟨_, n, reads, rfl⟩ := encodes
      exact (reads.of_zero _).map fun _ => ()
    | i64 =>
      obtain ⟨_, n, reads, rfl⟩ := encodes
      exact (reads.of_zero _).map fun _ => ()
    | float =>
      obtain ⟨_, n, reads, rfl⟩ := encodes
      exact (reads.of_zero _).map fun _ => ()
    | double =>
      obtain ⟨_, n, reads, rfl⟩ := encodes
      exact (reads.of_zero _).map fun _ => ()
    | string =>
      obtain ⟨_, s, _, reads, rfl⟩ := encodes
      exact (reads.of_zero _).map fun _ => ()
    | struct => exact encodes.reads_skipFields fields levels
    | list => exact container (by simp)
    | set => exact container (by simp)
    | map => exact container (by simp)
    | _ => exact encodes.2.elim
  pending := by
    intro compact _ r b pending
    exact Run.map_of_ok (readBool_of_pending compact pending) fun _ => ()

/-- The body of `BinaryProtocolReader::skip`. -/
theorem skips_binarySkipBody {field : TType → ReadM Unit} {elem : Option (TType → ReadM Unit)}
    (fields : Skips .binary h left field)
    (elems : ∀ m, left = m + 1 → ∃ skip, elem = some skip ∧ Skips .binary h m skip) :
    Skips .binary (h + 1) (left + 1) (binarySkipBody field elem) where
  value := by
    intro type bs v encodes levels
    have generic := (skips_skipBody fields elems).value encodes levels
    have fixed := encodes.length_of_fixed
    cases type with
    | bool => exact reads_skipBytes (fixed (by decide))
    | byte => exact reads_skipBytes (fixed (by decide))
    | i16 => exact reads_skipBytes (fixed (by decide))
    | i32 => exact reads_skipBytes (fixed (by decide))
    | i64 => exact reads_skipBytes (fixed (by decide))
    | float => exact reads_skipBytes (fixed (by decide))
    | double => exact reads_skipBytes (fixed (by decide))
    | string => exact generic
    | struct => exact generic
    | list => exact generic
    | set => exact generic
    | map => exact generic
    | _ => exact encodes.2.elim
  pending := by
    rintro ⟨⟩

/-- No encoding has height zero. -/
theorem Skips.all (skips : ∀ h, Skips p (h + 1) left skip) (h : Nat) : Skips p h left skip := by
  cases h with
  | zero => exact ⟨fun encodes => encodes.elim, (skips 0).pending⟩
  | succ h => exact skips h

theorem skips_skipAt (p : Protocol) (h left : Nat) : Skips p h left (p.skipAt left) := by
  induction left using Nat.strong_induction_on generalizing h with
  | _ left ih =>
    refine Skips.all (fun h => ?_) h
    match left with
    | 0 => exact .zero _ _ _
    | 1 =>
      cases p with
      | binary => exact skips_binarySkipBody (.zero _ _ _) (by simp)
      | compact => exact skips_skipBody (.zero _ _ _) (by simp)
    | left + 2 =>
      have fields := ih (left + 1) (by omega) h
      have elems : ∀ m, left + 1 = m + 1 →
          ∃ skip, some (p.skipAt left) = some skip ∧ Skips p h m skip := by
        rintro m ⟨⟩
        exact ⟨_, rfl, ih left (by omega) h⟩
      cases p with
      | binary => exact skips_binarySkipBody fields elems
      | compact => exact skips_skipBody fields elems

/-- `apache::thrift::skip` stops right behind an encoding. -/
theorem skips_skip (p : Protocol) (h left : Nat) : Skips p (h + 1) left (p.skip left) := by
  match left with
  | 0 => exact .zero _ _ _
  | 1 => exact skips_skipBody (.zero _ _ _) (by simp)
  | left + 2 =>
    refine skips_skipBody (skips_skipAt p h (left + 1)) ?_
    rintro m ⟨⟩
    exact ⟨_, rfl, skips_skipAt p h left⟩

end Runs

end FbThrift
