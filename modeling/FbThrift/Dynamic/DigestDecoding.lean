import FbThrift.Dynamic.TypeSystemDigest

/-!
# Reading the stream of a digest back

Scalars, strings, type ids and counted groups can be split off the front of a stream.  Lists and
field sets are written without a count, so they end where the stream goes on with something that
is neither another element nor another field.  A record can be split off where no list is
followed by an element of another list or map, and no field set by a field of another one.
-/

namespace FbThrift.Dynamic.Schema

open SerializableRecord
open List (Forall₂)

variable {D : Type}

/-! ## Scalars -/

variable {x y : Stream D}

theorem hashBytes_split {bs cs : Bytes} (length : bs.length = cs.length)
    (same : hashBytes bs ++ x = hashBytes cs ++ y) : bs = cs ∧ x = y := by
  obtain ⟨bytes, rest⟩ := List.append_inj same (by simpa [hashBytes] using length)
  exact ⟨List.map_injective_iff.mpr (fun _ _ e => Symbol.byte.inj e) bytes, rest⟩

theorem storeLE_injective {width n m : Nat} (small : n < 256 ^ width) (small' : m < 256 ^ width)
    (same : Words.storeLE width n = Words.storeLE width m) : n = m := by
  induction width generalizing n m with
  | zero =>
    rw [Nat.pow_zero] at small small'
    omega
  | succ width ih =>
    rw [Nat.pow_succ] at small small'
    simp only [Words.storeLE, List.cons.injEq] at same
    have high := ih (n := n / 256) (m := m / 256) (by omega) (by omega) same.2
    have low := congrArg UInt8.toNat same.1
    rw [UInt8.toNat_ofNat', UInt8.toNat_ofNat'] at low
    omega

theorem hashLE_split {width n m : Nat} (small : n < 256 ^ width)
    (small' : m < 256 ^ width) (same : hashLE width n ++ x = hashLE width m ++ y) :
    n = m ∧ x = y := by
  obtain ⟨bytes, rest⟩ := hashBytes_split (by simp) same
  exact ⟨storeLE_injective small small' bytes, rest⟩

theorem hashBool_split {v w : Bool} (same : hashBool v ++ x = hashBool w ++ y) : v = w ∧ x = y := by
  obtain ⟨number, rest⟩ := hashLE_split (by cases v <;> simp) (by cases w <;> simp) same
  refine ⟨?_, rest⟩
  cases v <;> cases w <;> first | rfl | cases number

theorem hashInt8_split {v w : Int8} (same : hashInt8 v ++ x = hashInt8 w ++ y) : v = w ∧ x = y := by
  obtain ⟨number, rest⟩ := hashLE_split v.toUInt8.toNat_lt w.toUInt8.toNat_lt same
  exact ⟨congrArg Int8.ofUInt8 (UInt8.toNat_inj.mp number), rest⟩

theorem hashInt16_split {v w : Int16}
    (same : hashInt16 v ++ x = hashInt16 w ++ y) : v = w ∧ x = y := by
  obtain ⟨number, rest⟩ := hashLE_split v.toUInt16.toNat_lt w.toUInt16.toNat_lt same
  exact ⟨congrArg Int16.ofUInt16 (UInt16.toNat_inj.mp number), rest⟩

theorem hashInt32_split {v w : Int32}
    (same : hashInt32 v ++ x = hashInt32 w ++ y) : v = w ∧ x = y := by
  obtain ⟨number, rest⟩ := hashLE_split v.toUInt32.toNat_lt w.toUInt32.toNat_lt same
  exact ⟨congrArg Int32.ofUInt32 (UInt32.toNat_inj.mp number), rest⟩

theorem hashInt64_split {v w : Int64}
    (same : hashInt64 v ++ x = hashInt64 w ++ y) : v = w ∧ x = y := by
  obtain ⟨number, rest⟩ := hashLE_split v.toUInt64.toNat_lt w.toUInt64.toNat_lt same
  exact ⟨congrArg Int64.ofUInt64 (UInt64.toNat_inj.mp number), rest⟩

theorem hashString_split {s t : Bytes} (small : s.length < 2 ^ 32)
    (small' : t.length < 2 ^ 32) (same : hashString s ++ x = hashString t ++ y) :
    s = t ∧ x = y := by
  rw [hashString, hashString, List.append_assoc, List.append_assoc] at same
  obtain ⟨length, rest⟩ := hashLE_split small small' same
  exact hashBytes_split length rest

theorem digests_split {ds es : List D} (length : ds.length = es.length)
    (same : ds.map Symbol.digest ++ x = es.map Symbol.digest ++ y) : ds = es ∧ x = y := by
  obtain ⟨digests, rest⟩ := List.append_inj same (by simpa using length)
  exact ⟨List.map_injective_iff.mpr (fun _ _ e => Symbol.digest.inj e) digests, rest⟩

/-- The URIs of a type id are shorter than 4 GiB. -/
def TypeId.Sized : TypeId → Prop
  | .uri target => target.length < 2 ^ 32
  | .list elementType => elementType.Sized
  | .set elementType => elementType.Sized
  | .map keyType valueType => keyType.Sized ∧ valueType.Sized
  | _ => True

theorem head_hashTypeId (t : TypeId) (x : Stream D) :
    (hashTypeId t ++ x).head? = some (.byte t.kind.toUInt32.toUInt8) := by
  cases t <;> rfl

theorem kind_eq_of_same {t u : TypeId}
    (same : hashTypeId t ++ x = hashTypeId u ++ y) : t.kind = u.kind := by
  have heads := congrArg List.head? same
  rw [head_hashTypeId, head_hashTypeId, Option.some.injEq, Symbol.byte.injEq] at heads
  revert heads
  cases t <;> cases u <;> simp only [TypeId.kind] <;> decide

theorem hashTypeId_split {t u : TypeId} (small : t.Sized) (small' : u.Sized)
    (same : hashTypeId t ++ x = hashTypeId u ++ y) : t = u ∧ x = y := by
  induction t generalizing u x y with
  | uri target =>
    have kinds := kind_eq_of_same same
    cases u <;> cases kinds
    simp only [hashTypeId, List.append_assoc] at same
    obtain ⟨rfl, rest⟩ := hashString_split small small' (hashInt32_split same).2
    exact ⟨rfl, rest⟩
  | list t ih =>
    have kinds := kind_eq_of_same same
    cases u <;> cases kinds
    rename_i u
    simp only [hashTypeId, List.append_assoc] at same
    have inner := (hashInt32_split same).2
    obtain ⟨rfl, rest⟩ := ih small (show u.Sized from small') inner
    exact ⟨rfl, rest⟩
  | set t ih =>
    have kinds := kind_eq_of_same same
    cases u <;> cases kinds
    rename_i u
    simp only [hashTypeId, List.append_assoc] at same
    have inner := (hashInt32_split same).2
    obtain ⟨rfl, rest⟩ := ih small (show u.Sized from small') inner
    exact ⟨rfl, rest⟩
  | map k v ihk ihv =>
    have kinds := kind_eq_of_same same
    cases u <;> cases kinds
    simp only [hashTypeId, List.append_assoc] at same
    have inner := (hashInt32_split same).2
    obtain ⟨rfl, values⟩ := ihk small.1 small'.1 inner
    obtain ⟨rfl, rest⟩ := ihv small.2 small'.2 values
    exact ⟨rfl, rest⟩
  | _ =>
    have kinds := kind_eq_of_same same
    cases u <;> cases kinds
    exact ⟨rfl, List.append_cancel_left same⟩

/-! ## What a stream begins with -/

/-- Does the stream begin with a digest? -/
def beginsDigest : Stream D → Bool
  | .digest _ :: _ => true
  | _ => false

/-- Streams that begin like a record: its type, and then no digest. -/
def RecordStart (x : Stream D) : Prop :=
  ∃ t w, t ≠ 0 ∧ beginsDigest w = false ∧ x = hashBytes [t, 0, 0, 0] ++ w

/-- Streams that begin like a field of a field set: an id and a record. -/
def FieldStart (x : Stream D) : Prop :=
  ∃ i j t w, t ≠ 0 ∧ x = hashBytes [i, j, t, 0, 0, 0] ++ w

theorem FieldStart.not_recordStart (field : FieldStart x) : ¬RecordStart x := by
  rintro ⟨t, w, -, -, same⟩
  obtain ⟨i, j, t', w', present, rfl⟩ := field
  simp only [hashBytes, List.map_cons, List.cons_append, List.cons.injEq] at same
  exact present (Symbol.byte.inj same.2.2.1)

theorem beginsDigest_flatMap {α : Type} {items : List α} {code : α → Stream D}
    (each : ∀ i ∈ items, ∀ x, beginsDigest (code i ++ x) = false)
    (rest : beginsDigest x = false) : beginsDigest (items.flatMap code ++ x) = false := by
  cases items with
  | nil => exact rest
  | cons i items =>
    rw [List.flatMap_cons, List.append_assoc]
    exact each i (by simp) _

/-- What may follow a record: no digest, no element unless lists end with the record, and no
field unless field sets end with it. -/
structure Follows (inList inFields : Bool) (x : Stream D) : Prop where
  noDigest : beginsDigest x = false
  noElement : inList = true ∨ ¬RecordStart x
  noField : inFields = true ∨ ¬FieldStart x

theorem follows_nil (inList inFields : Bool) : Follows inList inFields ([] : Stream D) :=
  ⟨rfl, .inr nofun, .inr nofun⟩

/-! ## Records that can be split off -/

mutual

/-- No list of the record is followed by an element of a list or a part of a map, and no field
set by a field of another: `inList` and `inFields` say what may follow the record itself. -/
def Separated (inList inFields : Bool) : SerializableRecord → Prop
  | .fieldSet fields => inFields = false ∧ SeparatedFields inList fields
  | .list elements => inList = false ∧ SeparatedElements true inFields elements
  -- Each element of a set is hashed by itself.
  | .set elements => SeparatedElements false false elements
  | .map entries => SeparatedEntries inFields entries
  | _ => True
termination_by structural r => r

def SeparatedFields (inList : Bool) : List (Int16 × SerializableRecord) → Prop
  | [] => True
  | field :: fields => Separated inList true field.2 ∧ SeparatedFields inList fields
termination_by structural fields => fields

def SeparatedElements (inList inFields : Bool) : List SerializableRecord → Prop
  | [] => True
  | element :: elements =>
    Separated inList inFields element ∧ SeparatedElements inList inFields elements
termination_by structural elements => elements

def SeparatedEntries (inFields : Bool) : List (SerializableRecord × SerializableRecord) → Prop
  | [] => True
  | entry :: entries =>
    (Separated true inFields entry.1 ∧ Separated true inFields entry.2) ∧
      SeparatedEntries inFields entries
termination_by structural entries => entries

end

theorem separatedFields_iff {inList : Bool} {fields : List (Int16 × SerializableRecord)} :
    SeparatedFields inList fields ↔ ∀ f ∈ fields, Separated inList true f.2 := by
  induction fields with
  | nil => simp [SeparatedFields]
  | cons f fields ih => simp [SeparatedFields, ih]

theorem separatedElements_iff {inList inFields : Bool} {elements : List SerializableRecord} :
    SeparatedElements inList inFields elements ↔ ∀ e ∈ elements, Separated inList inFields e := by
  induction elements with
  | nil => simp [SeparatedElements]
  | cons e elements ih => simp [SeparatedElements, ih]

theorem separatedEntries_iff {inFields : Bool}
    {entries : List (SerializableRecord × SerializableRecord)} :
    SeparatedEntries inFields entries ↔
      ∀ e ∈ entries, Separated true inFields e.1 ∧ Separated true inFields e.2 := by
  induction entries with
  | nil => simp [SeparatedEntries]
  | cons e entries ih => simp [SeparatedEntries, ih]

/-- Strings, byte arrays, sets and maps have sizes of 32 bits. -/
def Sized : SerializableRecord → Prop
  | .text s => s.length < 2 ^ 32
  | .byteArray s => s.length < 2 ^ 32
  | .set elements => elements.length < 2 ^ 32
  | .map entries => entries.length < 2 ^ 32
  | _ => True

theorem hashInt32_getType (r : SerializableRecord) :
    ∃ t, t ≠ 0 ∧ (hashInt32 (getType r) : Stream D) = hashBytes [t, 0, 0, 0] := by
  have bytes : Words.storeLE 4 (getType r).toUInt32.toNat =
      [(getType r).toUInt32.toUInt8, 0, 0, 0] := by
    cases r <;> simp only [getType] <;> decide
  refine ⟨(getType r).toUInt32.toUInt8, ?_, congrArg hashBytes bytes⟩
  cases r <;> simp only [getType] <;> decide

section Records

variable [LinearOrder D] (sha256 : Stream D → D)

theorem beginsDigest_hashRecord (r : SerializableRecord) (x : Stream D) :
    beginsDigest (hashRecord sha256 getType r ++ x) = false := by
  cases r <;> rfl

theorem hashRecord_fieldSet {fields : List (Int16 × SerializableRecord)}
    (ascending : Ascending (.fieldSet fields)) :
    hashRecord sha256 getType (.fieldSet fields) =
      hashInt32 11 ++ fields.flatMap fun f => hashInt16 f.1 ++ hashRecord sha256 getType f.2 := by
  rw [hashRecord, hashFields_eq, forEachSortedByKey_of_ascending]
  · rw [List.flatMap_map]
    rfl
  · simpa [Function.comp_def, Ascending] using ascending

theorem hashRecord_list (elements : List SerializableRecord) :
    hashRecord sha256 getType (.list elements) =
      hashInt32 12 ++ elements.flatMap (hashRecord sha256 getType) := by
  rw [hashRecord, hashElements_eq, ← List.flatMap_def]
  rfl

theorem hashRecord_map (entries : List (SerializableRecord × SerializableRecord)) :
    ∃ l : List (SerializableRecord × SerializableRecord), l.Perm entries ∧
      hashRecord sha256 getType (.map entries) = hashInt32 14 ++ (hashSize entries.length ++
        l.flatMap fun e => hashRecord sha256 getType e.1 ++ hashRecord sha256 getType e.2) := by
  obtain ⟨l, perm, sorted⟩ := exists_of_perm_map (sortedBy_perm (fun e => sha256 e.1)
    (entries.map fun e => (hashRecord sha256 getType e.1, hashRecord sha256 getType e.2)))
  refine ⟨l, perm, ?_⟩
  rw [hashRecord, hashEntries_eq, hashMapByKeyDigest, sorted, List.flatMap_map, List.length_map]
  rfl

variable {r : SerializableRecord} {x : Stream D}

theorem hashRecord_eq (ascending : Ascending r) :
    ∃ w, hashRecord sha256 getType r = hashInt32 (getType r) ++ w ∧
      ∀ x, beginsDigest x = false → beginsDigest (w ++ x) = false := by
  cases r with
  | fieldSet fields =>
    exact ⟨_, hashRecord_fieldSet sha256 ascending,
      fun x rest => beginsDigest_flatMap (fun _ _ _ => rfl) rest⟩
  | list elements =>
    exact ⟨_, hashRecord_list sha256 elements,
      fun x rest => beginsDigest_flatMap (fun e _ => beginsDigest_hashRecord sha256 e) rest⟩
  | _ => exact ⟨_, by rw [hashRecord], fun _ _ => rfl⟩

theorem recordStart_hashRecord (ascending : Ascending r)
    (rest : beginsDigest x = false) : RecordStart (hashRecord sha256 getType r ++ x) := by
  obtain ⟨w, split, more⟩ := hashRecord_eq sha256 ascending
  obtain ⟨t, present, bytes⟩ := @hashInt32_getType D r
  exact ⟨t, w ++ x, present, more x rest, by rw [split, bytes, List.append_assoc]⟩

theorem fieldStart_hashRecord (ascending : Ascending r) (id : Int16)
    (x : Stream D) : FieldStart (hashInt16 id ++ hashRecord sha256 getType r ++ x) := by
  obtain ⟨w, split, -⟩ := hashRecord_eq sha256 ascending
  obtain ⟨t, present, bytes⟩ := @hashInt32_getType D r
  exact ⟨_, _, t, w ++ x, present, by rw [split, bytes]; rfl⟩

theorem getType_eq_of_same {a b : SerializableRecord} (left : Ascending a) (right : Ascending b)
    {y : Stream D}
    (same : hashRecord sha256 getType a ++ x = hashRecord sha256 getType b ++ y) :
    getType a = getType b := by
  obtain ⟨v, splitA, -⟩ := hashRecord_eq sha256 left
  obtain ⟨w, splitB, -⟩ := hashRecord_eq sha256 right
  rw [splitA, splitB, List.append_assoc, List.append_assoc] at same
  exact (hashInt32_split same).1

/-! ## Follow sets -/

theorem Follows.before_record {inFields : Bool} (ascending : Ascending r) (rest : beginsDigest x = false) :
    Follows true inFields (hashRecord sha256 getType r ++ x) :=
  ⟨beginsDigest_hashRecord sha256 r x, .inl rfl,
    .inr fun field => field.not_recordStart (recordStart_hashRecord sha256 ascending rest)⟩

theorem Follows.before_field {inList : Bool} (ascending : Ascending r) (id : Int16) (x : Stream D) :
    Follows inList true (hashInt16 id ++ hashRecord sha256 getType r ++ x) :=
  ⟨rfl, .inr (fieldStart_hashRecord sha256 ascending id x).not_recordStart, .inl rfl⟩

/-! ## Splitting records -/

/-- A record as the code can hold it. -/
structure Fit (r : SerializableRecord) : Prop where
  sized : Everywhere Sized r
  ascending : Everywhere Ascending r

theorem Fit.child {c : SerializableRecord} (fit : Fit r) (inside : c ∈ r.children) : Fit c :=
  ⟨fit.sized.inside inside, fit.ascending.inside inside⟩

/-- A record `a` can be split off the front of a stream that goes on as `x` may. -/
def Splits (a : SerializableRecord) : Prop :=
  ∀ {inList inFields : Bool} {b : SerializableRecord} {x y : Stream D},
    Separated inList inFields a → Fit a → Fit b → Follows inList inFields x →
      Follows inList inFields y →
        hashRecord sha256 getType a ++ x = hashRecord sha256 getType b ++ y → Reordered a b ∧ x = y

variable {sha256}

theorem fieldSet_splits {fields : List (Int16 × SerializableRecord)}
    (each : ∀ f ∈ fields, Splits sha256 f.2) : Splits sha256 (.fieldSet fields) := by
  intro inList inFields b x y separated fitA fitB followsX followsY same
  have types := getType_eq_of_same sha256 fitA.ascending.here fitB.ascending.here same
  cases b <;> cases types
  rename_i others
  obtain ⟨rfl, inside⟩ := separated
  rw [hashRecord_fieldSet sha256 fitA.ascending.here,
    hashRecord_fieldSet sha256 fitB.ascending.here, List.append_assoc, List.append_assoc] at same
  have none : ∀ {z : Stream D}, Follows inList false z → ¬FieldStart z := fun follows =>
    follows.noField.resolve_left (by simp)
  have loosen : ∀ {z : Stream D}, Follows inList false z → Follows inList true z :=
    fun follows => ⟨follows.noDigest, follows.noElement, .inl rfl⟩
  obtain ⟨related, rest⟩ := flatMap_split
    (R := fun f g => f.1 = g.1 ∧ Reordered f.2 g.2) (P := Follows inList true)
    (fun f left g right s t restS restT same => by
      rw [List.append_assoc, List.append_assoc] at same
      obtain ⟨ids, same⟩ := hashInt16_split same
      obtain ⟨reordered, rest⟩ := each f left (separatedFields_iff.mp inside f left)
        (fitA.child (mem_children_field left)) (fitB.child (mem_children_field right))
        restS restT same
      exact ⟨⟨ids, reordered⟩, rest⟩)
    (fun f member s _ => Follows.before_field sha256
      (fitA.child (mem_children_field member)).ascending.here f.1 s) (loosen followsX)
    (fun f member s _ => Follows.before_field sha256
      (fitB.child (mem_children_field member)).ascending.here f.1 s) (loosen followsY)
    (.inr ⟨fun f member s _ next => none followsX (next ▸ fieldStart_hashRecord sha256
        (fitB.child (mem_children_field member)).ascending.here f.1 s),
      fun f member s _ next => none followsY (next ▸ fieldStart_hashRecord sha256
        (fitA.child (mem_children_field member)).ascending.here f.1 s)⟩)
    (hashInt32_split same).2
  exact ⟨reorderedFields_iff.mpr related, rest⟩

theorem list_splits {elements : List SerializableRecord}
    (each : ∀ e ∈ elements, Splits sha256 e) : Splits sha256 (.list elements) := by
  intro inList inFields b x y separated fitA fitB followsX followsY same
  have types := getType_eq_of_same sha256 fitA.ascending.here fitB.ascending.here same
  cases b <;> cases types
  rename_i others
  obtain ⟨rfl, inside⟩ := separated
  rw [hashRecord_list, hashRecord_list, List.append_assoc, List.append_assoc] at same
  have none : ∀ {z : Stream D}, Follows false inFields z → ¬RecordStart z := fun follows =>
    follows.noElement.resolve_left (by simp)
  have loosen : ∀ {z : Stream D}, Follows false inFields z → Follows true inFields z :=
    fun follows => ⟨follows.noDigest, .inl rfl, follows.noField⟩
  obtain ⟨related, rest⟩ := flatMap_split (R := Reordered) (P := Follows true inFields)
    (fun e left f right s t restS restT same => each e left
      (separatedElements_iff.mp inside e left) (fitA.child left) (fitB.child right)
      restS restT same)
    (fun e member s rest => Follows.before_record sha256 (fitA.child member).ascending.here
      rest.noDigest) (loosen followsX)
    (fun e member s rest => Follows.before_record sha256 (fitB.child member).ascending.here
      rest.noDigest) (loosen followsY)
    (.inr ⟨fun e member s rest next => none followsX (next ▸ recordStart_hashRecord sha256
        (fitB.child member).ascending.here rest.noDigest),
      fun e member s rest next => none followsY (next ▸ recordStart_hashRecord sha256
        (fitA.child member).ascending.here rest.noDigest)⟩)
    (hashInt32_split same).2
  exact ⟨reorderedElements_iff.mpr related, rest⟩

theorem hashUnorderedByDigest_split {α β : Type} {as : List α} {bs : List β}
    {code : α → Stream D} {code' : β → Stream D} {y : Stream D}
    (injective : Function.Injective sha256) (small : as.length < 2 ^ 32)
    (small' : bs.length < 2 ^ 32)
    (same : hashUnorderedByDigest sha256 (as.map code) ++ x =
      hashUnorderedByDigest sha256 (bs.map code') ++ y) :
    UpToOrder (fun a b => code a = code' b) as bs ∧ x = y := by
  rw [hashUnorderedByDigest, hashUnorderedByDigest, List.append_assoc, List.append_assoc,
    List.length_map, List.length_map] at same
  obtain ⟨length, groups⟩ := hashLE_split small small' same
  have lengths : (sortedBy id ((as.map code).map sha256)).length =
      (sortedBy id ((bs.map code').map sha256)).length := by
    rw [(sortedBy_perm id _).length_eq, (sortedBy_perm id _).length_eq]
    simpa using length
  obtain ⟨digests, rest⟩ := digests_split lengths groups
  refine ⟨?_, rest⟩
  have perm : (as.map (sha256 ∘ code)).Perm (bs.map (sha256 ∘ code')) := by
    rw [← List.map_map, ← List.map_map]
    have left := (sortedBy_perm id ((as.map code).map sha256)).symm
    rw [digests] at left
    exact left.trans (sortedBy_perm id _)
  obtain ⟨l, related, reordered⟩ := upToOrder_of_map_perm perm
  exact ⟨l, related.imp fun a b digest => injective digest, reordered⟩

theorem set_splits (injective : Function.Injective sha256) {elements : List SerializableRecord}
    (each : ∀ e ∈ elements, Splits sha256 e) : Splits sha256 (.set elements) := by
  intro inList inFields b x y separated fitA fitB followsX followsY same
  have types := getType_eq_of_same sha256 fitA.ascending.here fitB.ascending.here same
  cases b <;> cases types
  rename_i others
  rw [hashRecord, hashRecord, hashElements_eq, hashElements_eq, List.append_assoc,
    List.append_assoc] at same
  obtain ⟨⟨l, related, perm⟩, rest⟩ := hashUnorderedByDigest_split injective fitA.sized.here
    fitB.sized.here (hashInt32_split same).2
  refine ⟨reordered_set_iff.mpr ⟨l, ?_, perm⟩, rest⟩
  refine forall₂_imp_of_mem related fun e left f right streams => ?_
  have whole : hashRecord sha256 getType e ++ [] = hashRecord sha256 getType f ++ [] := by
    rw [streams]
  exact (each e left (separatedElements_iff.mp separated e left) (fitA.child left)
    (fitB.child (perm.mem_iff.mp right)) (follows_nil _ _) (follows_nil _ _) whole).1

theorem map_splits {entries : List (SerializableRecord × SerializableRecord)}
    (each : ∀ e ∈ entries, Splits sha256 e.1 ∧ Splits sha256 e.2) :
    Splits sha256 (.map entries) := by
  intro inList inFields b x y separated fitA fitB followsX followsY same
  have types := getType_eq_of_same sha256 fitA.ascending.here fitB.ascending.here same
  cases b <;> cases types
  rename_i others
  obtain ⟨l, permA, codeA⟩ := hashRecord_map sha256 entries
  obtain ⟨m, permB, codeB⟩ := hashRecord_map sha256 others
  rw [codeA, codeB, List.append_assoc, List.append_assoc, List.append_assoc,
    List.append_assoc] at same
  obtain ⟨length, groups⟩ := hashLE_split fitA.sized.here fitB.sized.here (hashInt32_split same).2
  have loosen : ∀ {z : Stream D}, Follows inList inFields z → Follows true inFields z :=
    fun follows => ⟨follows.noDigest, .inl rfl, follows.noField⟩
  have fit : ∀ e ∈ l, Fit e.1 ∧ Fit e.2 := fun e member =>
    ⟨fitA.child (mem_children_key (permA.mem_iff.mp member)),
      fitA.child (mem_children_value (permA.mem_iff.mp member))⟩
  have fit' : ∀ e ∈ m, Fit e.1 ∧ Fit e.2 := fun e member =>
    ⟨fitB.child (mem_children_key (permB.mem_iff.mp member)),
      fitB.child (mem_children_value (permB.mem_iff.mp member))⟩
  obtain ⟨related, rest⟩ := flatMap_split
    (R := fun e f => Reordered e.1 f.1 ∧ Reordered e.2 f.2) (P := Follows true inFields)
    (fun e left f right s t restS restT same => by
      rw [List.append_assoc, List.append_assoc] at same
      obtain ⟨keySplits, valueSplits⟩ := each e (permA.mem_iff.mp left)
      obtain ⟨keySeparated, valueSeparated⟩ :=
        separatedEntries_iff.mp separated e (permA.mem_iff.mp left)
      obtain ⟨key, same⟩ := keySplits keySeparated (fit e left).1 (fit' f right).1
        (.before_record sha256 (fit e left).2.ascending.here restS.noDigest)
        (.before_record sha256 (fit' f right).2.ascending.here restT.noDigest) same
      obtain ⟨value, rest⟩ := valueSplits valueSeparated (fit e left).2 (fit' f right).2
        restS restT same
      exact ⟨⟨key, value⟩, rest⟩)
    (fun e member s _ => by
      rw [List.append_assoc]
      exact .before_record sha256 (fit e member).1.ascending.here
        (beginsDigest_hashRecord sha256 e.2 s)) (loosen followsX)
    (fun e member s _ => by
      rw [List.append_assoc]
      exact .before_record sha256 (fit' e member).1.ascending.here
        (beginsDigest_hashRecord sha256 e.2 s)) (loosen followsY)
    (.inl (by rw [permA.length_eq, permB.length_eq, length])) groups
  exact ⟨reordered_map_iff.mpr (UpToOrder.perm permA related permB), rest⟩

/-- A record whose lists and field sets are apart is split off a stream, up to order. -/
theorem record_splits (injective : Function.Injective sha256) (a : SerializableRecord) :
    Splits sha256 a := by
  induction a using inductChildren with
  | step a each =>
    cases a with
    | fieldSet fields =>
      exact fieldSet_splits fun f member => each f.2 (mem_children_field member)
    | list elements => exact list_splits each
    | set elements => exact set_splits injective each
    | map entries =>
      exact map_splits fun e member =>
        ⟨each e.1 (mem_children_key member), each e.2 (mem_children_value member)⟩
    | bool v =>
      intro inList inFields b x y _ fitA fitB _ _ same
      have types := getType_eq_of_same sha256 fitA.ascending.here fitB.ascending.here same
      cases b <;> cases types
      rw [hashRecord, hashRecord, List.append_assoc, List.append_assoc] at same
      exact hashBool_split (hashInt32_split same).2
    | int8 v =>
      intro inList inFields b x y _ fitA fitB _ _ same
      have types := getType_eq_of_same sha256 fitA.ascending.here fitB.ascending.here same
      cases b <;> cases types
      rw [hashRecord, hashRecord, List.append_assoc, List.append_assoc] at same
      exact hashInt8_split (hashInt32_split same).2
    | int16 v =>
      intro inList inFields b x y _ fitA fitB _ _ same
      have types := getType_eq_of_same sha256 fitA.ascending.here fitB.ascending.here same
      cases b <;> cases types
      rw [hashRecord, hashRecord, List.append_assoc, List.append_assoc] at same
      exact hashInt16_split (hashInt32_split same).2
    | int32 v =>
      intro inList inFields b x y _ fitA fitB _ _ same
      have types := getType_eq_of_same sha256 fitA.ascending.here fitB.ascending.here same
      cases b <;> cases types
      rw [hashRecord, hashRecord, List.append_assoc, List.append_assoc] at same
      exact hashInt32_split (hashInt32_split same).2
    | int64 v =>
      intro inList inFields b x y _ fitA fitB _ _ same
      have types := getType_eq_of_same sha256 fitA.ascending.here fitB.ascending.here same
      cases b <;> cases types
      rw [hashRecord, hashRecord, List.append_assoc, List.append_assoc] at same
      exact hashInt64_split (hashInt32_split same).2
    | float32 v =>
      intro inList inFields b x y _ fitA fitB _ _ same
      have types := getType_eq_of_same sha256 fitA.ascending.here fitB.ascending.here same
      cases b <;> cases types
      rename_i w
      rw [hashRecord, hashRecord, List.append_assoc, List.append_assoc] at same
      obtain ⟨bits, rest⟩ := hashLE_split v.toNat_lt w.toNat_lt (hashInt32_split same).2
      exact ⟨UInt32.toNat_inj.mp bits, rest⟩
    | float64 v =>
      intro inList inFields b x y _ fitA fitB _ _ same
      have types := getType_eq_of_same sha256 fitA.ascending.here fitB.ascending.here same
      cases b <;> cases types
      rename_i w
      rw [hashRecord, hashRecord, List.append_assoc, List.append_assoc] at same
      obtain ⟨bits, rest⟩ := hashLE_split v.toNat_lt w.toNat_lt (hashInt32_split same).2
      exact ⟨UInt64.toNat_inj.mp bits, rest⟩
    | text v =>
      intro inList inFields b x y _ fitA fitB _ _ same
      have types := getType_eq_of_same sha256 fitA.ascending.here fitB.ascending.here same
      cases b <;> cases types
      rw [hashRecord, hashRecord, List.append_assoc, List.append_assoc] at same
      exact hashString_split fitA.sized.here fitB.sized.here (hashInt32_split same).2
    | byteArray v =>
      intro inList inFields b x y _ fitA fitB _ _ same
      have types := getType_eq_of_same sha256 fitA.ascending.here fitB.ascending.here same
      cases b <;> cases types
      rw [hashRecord, hashRecord, List.append_assoc, List.append_assoc] at same
      exact hashString_split fitA.sized.here fitB.sized.here (hashInt32_split same).2

end Records

end FbThrift.Dynamic.Schema
