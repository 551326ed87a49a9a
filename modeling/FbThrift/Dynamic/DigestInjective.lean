import FbThrift.Dynamic.DigestDecoding
import Mathlib.Logic.Equiv.List

/-!
# The digest tells type systems apart

Definitions are read back like records.  The fields of a struct and the values of an enum are not
counted: what follows them begins with a flag or with the annotations, which is no field and no
value as long as names are not empty and not too long.  Two lists inside a list have the stream
of one list inside another inside the list, so without the separation of lists two accepted type
systems can have one digest.
-/

namespace FbThrift.Dynamic.Schema

open SerializableRecord
open List (Forall₂)

/-! ## Sizes -/

def Annotations.Sized (annotations : Annotations) : Prop :=
  annotations.length < 2 ^ 32 ∧ ∀ a ∈ annotations, a.1.length < 2 ^ 32

/-- A name that does not read as the end of the fields. -/
structure FieldDefinition.Delimited (field : FieldDefinition TypeId) : Prop where
  named : field.identity.name ≠ []
  name : field.identity.name.length < 2 ^ 24
  type : field.type.Sized
  annotations : field.annotations.Sized

structure EnumValue.Delimited (value : EnumValue) : Prop where
  named : value.name ≠ []
  name : value.name.length < 2 ^ 32
  annotations : value.annotations.Sized

def TypeDefinition.Delimited : TypeDefinition TypeId → Prop
  | .structDef fields _ annotations => (∀ f ∈ fields, f.Delimited) ∧ annotations.Sized
  | .unionDef fields _ annotations => (∀ f ∈ fields, f.Delimited) ∧ annotations.Sized
  | .enumDef values annotations => (∀ v ∈ values, v.Delimited) ∧ annotations.Sized
  | .opaqueAliasDef targetType annotations => targetType.Sized ∧ annotations.Sized

/-- Names are not empty, those of fields are shorter than 16 MiB, and everything else with a
size is smaller than 4 GiB. -/
structure SerializableTypeSystem.Delimited (s : SerializableTypeSystem) : Prop where
  uris : ∀ d ∈ s.definitions, d.1.length < 2 ^ 32
  definitions : ∀ d ∈ s.definitions, d.2.Delimited
  records : ∀ d ∈ s.definitions, ∀ r ∈ d.2.records, Everywhere Schema.Sized r

/-- No list of a record is followed by an element of a list or a part of a map, and no field set
by a field of another. -/
def SerializableTypeSystem.Separated (s : SerializableTypeSystem) : Prop :=
  ∀ d ∈ s.definitions, ∀ r ∈ d.2.records, Schema.Separated false false r

section Decoding

variable {D : Type}

variable {x y : Stream D} {as bs as' bs' : List SerializableRecord}

theorem sorted_split {α κ : Type} [LinearOrder κ] {key : α → κ} {code : α → Stream D}
    {R : α → α → Prop} {as bs : List α} (distinct : (as.map key).Nodup)
    (distinct' : (bs.map key).Nodup)
    (splits : ∀ a ∈ as, ∀ b ∈ bs, ∀ s t, code a ++ s = code b ++ t → R a b ∧ s = t)
    (endX : ∀ b ∈ bs, ∀ s, x ≠ code b ++ s) (endY : ∀ a ∈ as, ∀ s, y ≠ code a ++ s)
    (same : forEachSortedByKey key code as ++ x = forEachSortedByKey key code bs ++ y) :
    UpToOrder R as bs ∧ x = y := by
  obtain ⟨l, permA, codeA⟩ : ∃ l : List α, l.Perm as ∧
      forEachSortedByKey key code as = l.flatMap code := forEachSortedByKey_eq distinct
  obtain ⟨m, permB, codeB⟩ : ∃ m : List α, m.Perm bs ∧
      forEachSortedByKey key code bs = m.flatMap code := forEachSortedByKey_eq distinct'
  rw [codeA, codeB] at same
  obtain ⟨related, rest⟩ := flatMap_split (R := R) (P := fun _ => True)
    (fun a left b right s t _ _ same =>
      splits a (permA.mem_iff.mp left) b (permB.mem_iff.mp right) s t same)
    (fun _ _ _ _ => trivial) trivial (fun _ _ _ _ => trivial) trivial
    (.inr ⟨fun b member s _ => endX b (permB.mem_iff.mp member) s,
      fun a member s _ => endY a (permA.mem_iff.mp member) s⟩) same
  exact ⟨UpToOrder.perm permA related permB, rest⟩

variable [LinearOrder D] {sha256 : Stream D → D}

/-! ## Annotations and defaults -/

theorem group_begins (sha256 : Stream D → D) (items : List (Stream D)) :
    hashUnorderedByDigest sha256 items = hashBytes [0, 0, 0, 0] ∨
      ∃ size : Bytes, size.length = 4 ∧ ∃ digest w,
        hashUnorderedByDigest sha256 items = hashBytes size ++ .digest digest :: w := by
  cases items with
  | nil => exact .inl (by simp [hashUnorderedByDigest, sortedBy, hashSize, hashLE, Words.storeLE])
  | cons item items =>
    have length : (sortedBy id ((item :: items).map sha256)).length = items.length + 1 := by
      rw [(sortedBy_perm id _).length_eq]
      simp
    cases digests : sortedBy id ((item :: items).map sha256) with
    | nil =>
      rw [digests] at length
      cases length
    | cons digest rest =>
      refine .inr ⟨_, Words.length_storeLE 4 (item :: items).length, digest, rest.map .digest, ?_⟩
      rw [hashUnorderedByDigest, digests]
      rfl

theorem annotations_ne (annotations : Annotations) {size : Bytes} (four : size.length = 4)
    (some : size ≠ [0, 0, 0, 0]) (x : Stream D) {w : Stream D} (bytes : beginsDigest w = false) :
    hashAnnotations sha256 getType annotations ++ x ≠ hashBytes size ++ w := by
  intro same
  rcases group_begins sha256 (annotations.map fun entry =>
      hashString entry.1 ++ hashRecord sha256 getType entry.2.record) with
    zeros | ⟨size', four', digest, v, shape⟩
  · rw [hashAnnotations, zeros] at same
    exact some (hashBytes_split (four ▸ rfl) same).1.symm
  · rw [hashAnnotations, shape, List.append_assoc] at same
    rw [← (hashBytes_split (four'.trans four.symm) same).2] at bytes
    cases bytes

/-- Annotations are neither a record nor a field of a field set. -/
theorem follows_annotations (annotations : Annotations) (x : Stream D) :
    Follows false false (hashAnnotations sha256 getType annotations ++ x) := by
  refine ⟨rfl, .inr ?_, .inr ?_⟩
  · rintro ⟨t, w, present, bytes, same⟩
    exact annotations_ne annotations rfl (by simp [present]) x bytes same
  · rintro ⟨i, j, t, w, present, same⟩
    have split : (hashBytes [i, j, t, 0, 0, 0] ++ w : Stream D) =
        hashBytes [i, j, t, 0] ++ (hashBytes [0, 0] ++ w) := rfl
    exact annotations_ne annotations rfl (by simp [present]) x rfl (same.trans split)

/-- The records of annotations or of a default can be split off. -/
structure Readable (records records' : List SerializableRecord) : Prop where
  separated : ∀ r ∈ records, Separated false false r
  sized : ∀ r ∈ records, Everywhere Sized r
  sized' : ∀ r ∈ records', Everywhere Sized r

theorem annotations_split (injective : Function.Injective sha256) {a b : Annotations}
    (readable : Readable (recordsOf a) (recordsOf b)) (small : a.Sized) (small' : b.Sized) (same : hashAnnotations sha256 getType a ++ x =
      hashAnnotations sha256 getType b ++ y) : AnnotationsReordered a b ∧ x = y := by
  obtain ⟨⟨l, related, perm⟩, rest⟩ :=
    hashUnorderedByDigest_split injective small.1 small'.1 same
  refine ⟨⟨l, forall₂_imp_of_mem related fun e left f right streams => ?_, perm⟩, rest⟩
  have inA : e.2.record ∈ recordsOf a := List.mem_map_of_mem left
  have inB : f.2.record ∈ recordsOf b := List.mem_map_of_mem (perm.mem_iff.mp right)
  obtain ⟨uris, records⟩ := hashString_split (small.2 e left)
    (small'.2 f (perm.mem_iff.mp right)) streams
  have whole : hashRecord sha256 getType e.2.record ++ [] =
      hashRecord sha256 getType f.2.record ++ [] := by rw [records]
  exact ⟨uris, (record_splits injective _ (readable.separated _ inA)
    ⟨readable.sized _ inA, e.2.ascending⟩ ⟨readable.sized' _ inB, f.2.ascending⟩
    (follows_nil _ _) (follows_nil _ _) whole).1⟩

theorem default_split (injective : Function.Injective sha256) {a b : Option Record}
    (readable : Readable (a.map Record.record).toList (b.map Record.record).toList)
    {as bs : Annotations}
    (same : hashDefault sha256 getType a ++ (hashAnnotations sha256 getType as ++ x) =
      hashDefault sha256 getType b ++ (hashAnnotations sha256 getType bs ++ y)) :
    DefaultReordered a b ∧
      hashAnnotations sha256 getType as ++ x = hashAnnotations sha256 getType bs ++ y := by
  have ends : ∀ (r : Record) (as bs : Annotations) (x y : Stream D),
      hashRecord sha256 getType r.record ++ (hashAnnotations sha256 getType as ++ x) ≠
        hashAnnotations sha256 getType bs ++ y := fun r as bs x y same =>
    ((follows_annotations bs y).noElement.resolve_left (by simp))
      (same ▸ recordStart_hashRecord sha256 r.ascending.here (follows_annotations as x).noDigest)
  rcases a with _ | a <;> rcases b with _ | b
  · exact ⟨trivial, same⟩
  · exact (ends b bs as y x same.symm).elim
  · exact (ends a as bs x y same).elim
  · exact record_splits injective _ (readable.separated _ (by simp))
      ⟨readable.sized _ (by simp), a.ascending⟩ ⟨readable.sized' _ (by simp), b.ascending⟩
      (follows_annotations as x) (follows_annotations bs y) same

/-! ## Fields and values -/

theorem Readable.mono (readable : Readable as bs)
    (left : ∀ r ∈ as', r ∈ as) (right : ∀ r ∈ bs', r ∈ bs) : Readable as' bs' :=
  ⟨fun r member => readable.separated r (left r member),
    fun r member => readable.sized r (left r member),
    fun r member => readable.sized' r (right r member)⟩

theorem Readable.left (readable : Readable (as ++ bs) (as' ++ bs')) : Readable as as' :=
  readable.mono (fun _ member => by simp [member]) fun _ member => by simp [member]

theorem Readable.right (readable : Readable (as ++ bs) (as' ++ bs')) : Readable bs bs' :=
  readable.mono (fun _ member => by simp [member]) fun _ member => by simp [member]

theorem Readable.part {α : Type} {items items' : List α} {records : α → List SerializableRecord}
    (readable : Readable (items.flatMap records) (items'.flatMap records)) {i i' : α}
    (left : i ∈ items) (right : i' ∈ items') : Readable (records i) (records i') :=
  readable.mono (fun _ member => List.mem_flatMap.mpr ⟨i, left, member⟩)
    fun _ member => List.mem_flatMap.mpr ⟨i', right, member⟩

theorem field_split (injective : Function.Injective sha256) {f g : FieldDefinition TypeId}
    (readable : Readable f.records g.records) (delimited : f.Delimited) (delimited' : g.Delimited) (same : hashField sha256 getType id f ++ x =
      hashField sha256 getType id g ++ y) : FieldReordered f g ∧ x = y := by
  simp only [hashField, List.append_assoc] at same
  have short : ∀ h : FieldDefinition TypeId, h.Delimited → h.identity.name.length < 2 ^ 32 :=
    fun h delimited => Nat.lt_trans delimited.name (by decide)
  obtain ⟨ids, same⟩ := hashInt16_split same
  obtain ⟨names, same⟩ := hashString_split (short f delimited) (short g delimited') same
  obtain ⟨presence, same⟩ := hashInt32_split same
  obtain ⟨type, same⟩ := hashTypeId_split delimited.type delimited'.type same
  obtain ⟨customDefault, same⟩ := default_split injective readable.left same
  obtain ⟨annotations, rest⟩ :=
    annotations_split injective readable.right delimited.annotations delimited'.annotations same
  have identity : f.identity = g.identity := by
    cases f with | mk i _ _ _ _ => cases g with | mk j _ _ _ _ =>
      cases i
      cases j
      simp_all
  exact ⟨⟨identity, presence, type, customDefault, annotations⟩, rest⟩

theorem value_split (injective : Function.Injective sha256) {v w : EnumValue}
    (readable : Readable (recordsOf v.annotations) (recordsOf w.annotations))
    (delimited : v.Delimited) (delimited' : w.Delimited)
    (same : hashEnumValue sha256 getType v ++ x = hashEnumValue sha256 getType w ++ y) :
    ValueReordered v w ∧ x = y := by
  simp only [hashEnumValue, List.append_assoc] at same
  obtain ⟨name, same⟩ := hashString_split delimited.name delimited'.name same
  obtain ⟨datum, same⟩ := hashInt32_split same
  obtain ⟨annotations, rest⟩ :=
    annotations_split injective readable delimited.annotations delimited'.annotations same
  exact ⟨⟨name, datum, annotations⟩, rest⟩

theorem fields_end {f : FieldDefinition TypeId} (delimited : f.Delimited) (isSealed : Bool)
    (annotations : Annotations) (x z : Stream D) :
    hashBool isSealed ++ (hashAnnotations sha256 getType annotations ++ x) ≠
      hashField sha256 getType id f ++ z := by
  intro same
  have named := List.length_pos_iff.mpr delimited.named
  have short := delimited.name
  generalize length : f.identity.name.length = n at named short
  have field : ∃ w, hashField sha256 getType id f ++ z =
      .byte (UInt8.ofNat f.identity.id.toUInt16.toNat) ::
        (hashBytes [UInt8.ofNat (f.identity.id.toUInt16.toNat / 256), UInt8.ofNat n,
          UInt8.ofNat (n / 256), UInt8.ofNat (n / 256 / 256)] ++
            (.byte (UInt8.ofNat (n / 256 / 256 / 256)) :: w)) := by
    simp only [hashField, hashString, List.append_assoc, length]
    exact ⟨_, rfl⟩
  obtain ⟨w, shape⟩ := field
  have inner := (List.cons.inj (same.trans shape)).2
  refine annotations_ne annotations rfl ?_ x rfl inner
  intro zeros
  simp only [List.cons.injEq, and_true, ← UInt8.toNat_inj, UInt8.toNat_ofNat'] at zeros
  have none : UInt8.toNat 0 = 0 := rfl
  omega

theorem values_end {v : EnumValue} (delimited : v.Delimited) (annotations : Annotations)
    (x z : Stream D) :
    hashAnnotations sha256 getType annotations ++ x ≠ hashEnumValue sha256 getType v ++ z := by
  intro same
  obtain ⟨c, cs, name⟩ := List.exists_cons_of_ne_nil delimited.named
  have value : hashEnumValue sha256 getType v ++ z = hashBytes (Words.storeLE 4 v.name.length) ++
        (hashBytes v.name ++ (hashInt32 v.datum ++
          (hashAnnotations sha256 getType v.annotations ++ z))) := by
    simp only [hashEnumValue, hashString, List.append_assoc]
    rfl
  refine annotations_ne annotations (Words.length_storeLE 4 _) ?_ x ?_ (same.trans value)
  · intro zeros
    have empty := @storeLE_injective 4 _ 0 delimited.name (by decide) zeros
    exact delimited.named (List.length_eq_zero_iff.mp empty)
  · rw [name]
    rfl

/-! ## Definitions -/

theorem fields_split (injective : Function.Injective sha256)
    {fs gs : List (FieldDefinition TypeId)}
    (readable : Readable (fs.flatMap FieldDefinition.records) (gs.flatMap FieldDefinition.records))
    (delimited : ∀ f ∈ fs, f.Delimited) (delimited' : ∀ g ∈ gs, g.Delimited)
    (distinct : (fs.map fun f => f.identity.id.toInt).Nodup)
    (distinct' : (gs.map fun f => f.identity.id.toInt).Nodup) {s t : Bool} {as bs : Annotations}
    (same : forEachSortedByKey (fun f => f.identity.id.toInt) (hashField sha256 getType id) fs ++
        (hashBool s ++ (hashAnnotations sha256 getType as ++ x)) =
      forEachSortedByKey (fun f => f.identity.id.toInt) (hashField sha256 getType id) gs ++
        (hashBool t ++ (hashAnnotations sha256 getType bs ++ y))) :
    UpToOrder FieldReordered fs gs ∧ hashBool s ++ (hashAnnotations sha256 getType as ++ x) =
        hashBool t ++ (hashAnnotations sha256 getType bs ++ y) :=
  sorted_split distinct distinct'
    (fun f left g right _ _ same => field_split injective (readable.part left right)
      (delimited f left) (delimited' g right) same)
    (fun g member z => fields_end (delimited' g member) s as x z)
    (fun f member z => fields_end (delimited f member) t bs y z) same

/-- A definition can be split off, up to order. -/
theorem definition_split (injective : Function.Injective sha256) {d e : TypeDefinition TypeId}
    (readable : Readable d.records e.records) (delimited : d.Delimited) (delimited' : e.Delimited)
    (unique : d.Unique) (unique' : e.Unique)
    (same : hashDefinition sha256 getType id d ++ x = hashDefinition sha256 getType id e ++ y) :
    d.Reordered e ∧ x = y := by
  cases d with
  | structDef fs s as =>
    cases e with
    | structDef gs t bs =>
      simp only [hashDefinition, List.append_assoc] at same
      obtain ⟨fields, flags⟩ := fields_split injective readable.left delimited.1 delimited'.1
        unique unique' (hashInt32_split same).2
      obtain ⟨sealed, rest⟩ := hashBool_split flags
      obtain ⟨annotations, rest⟩ :=
        annotations_split injective readable.right delimited.2 delimited'.2 rest
      exact ⟨⟨fields, sealed, annotations⟩, rest⟩
    | _ =>
      simp only [hashDefinition, List.append_assoc] at same
      exact absurd (hashInt32_split same).1 (by decide)
  | unionDef fs s as =>
    cases e with
    | unionDef gs t bs =>
      simp only [hashDefinition, List.append_assoc] at same
      obtain ⟨fields, flags⟩ := fields_split injective readable.left delimited.1 delimited'.1
        unique unique' (hashInt32_split same).2
      obtain ⟨sealed, rest⟩ := hashBool_split flags
      obtain ⟨annotations, rest⟩ :=
        annotations_split injective readable.right delimited.2 delimited'.2 rest
      exact ⟨⟨fields, sealed, annotations⟩, rest⟩
    | _ =>
      simp only [hashDefinition, List.append_assoc] at same
      exact absurd (hashInt32_split same).1 (by decide)
  | enumDef vs as =>
    cases e with
    | enumDef ws bs =>
      simp only [hashDefinition, List.append_assoc] at same
      obtain ⟨values, rest⟩ := sorted_split unique unique'
        (fun v left w right _ _ same => value_split injective
          (readable.left.part left right) (delimited.1 v left) (delimited'.1 w right) same)
        (fun w member z => values_end (delimited'.1 w member) as x z)
        (fun v member z => values_end (delimited.1 v member) bs y z)
        (hashInt32_split same).2
      obtain ⟨annotations, rest⟩ :=
        annotations_split injective readable.right delimited.2 delimited'.2 rest
      exact ⟨⟨values, annotations⟩, rest⟩
    | _ =>
      simp only [hashDefinition, List.append_assoc] at same
      exact absurd (hashInt32_split same).1 (by decide)
  | opaqueAliasDef t as =>
    cases e with
    | opaqueAliasDef u bs =>
      simp only [hashDefinition, List.append_assoc] at same
      obtain ⟨target, rest⟩ :=
        hashTypeId_split delimited.1 delimited'.1 (hashInt32_split same).2
      obtain ⟨annotations, rest⟩ :=
        annotations_split injective readable delimited.2 delimited'.2 rest
      exact ⟨⟨target, annotations⟩, rest⟩
    | _ =>
      simp only [hashDefinition, List.append_assoc] at same
      exact absurd (hashInt32_split same).1 (by decide)

end Decoding

/-- Accepted type systems with equal streams have the same definitions up to order, if the
records of one of them are separated. -/
theorem digest_injective {D : Type} [LinearOrder D] {sha256 : Stream D → D}
    (injective : Function.Injective sha256) {s₁ s₂ : SerializableTypeSystem} {t₁ t₂ : TypeSystem}
    (accepted₁ : fromSerializable s₁ = .ok t₁) (accepted₂ : fromSerializable s₂ = .ok t₂)
    (delimited₁ : s₁.Delimited) (delimited₂ : s₂.Delimited) (separated : s₁.Separated)
    (same : hashSerializableTypeSystem sha256 s₁ = hashSerializableTypeSystem sha256 s₂) :
    s₁.Reordered s₂ := by
  have valid₁ := (fromSerializable_ok accepted₁).1
  have valid₂ := (fromSerializable_ok accepted₂).1
  have keys : ∀ {l : List (Uri × TypeDefinition TypeId)}, (l.map Prod.fst).Nodup →
      (l.map fun e => e.1.map UInt8.toNat).Nodup := by
    intro l distinct
    have mapped := distinct.map UInt8.map_toNat_injective
    rwa [List.map_map] at mapped
  have types := List.append_cancel_left same
  rw [← List.append_nil (forEachSortedByKey _ _ s₁.definitions),
    ← List.append_nil (forEachSortedByKey _ _ s₂.definitions)] at types
  refine (sorted_split (keys valid₁.distinct) (keys valid₂.distinct)
    (fun d left e right x y same => ?_) (fun e _ z empty => ?_) (fun d _ z empty => ?_) types).1
  · simp only [List.append_assoc] at same
    obtain ⟨uris, same⟩ :=
      hashString_split (delimited₁.uris d left) (delimited₂.uris e right) same
    obtain ⟨definitions, rest⟩ := definition_split injective
      ⟨separated d left, delimited₁.records d left, delimited₂.records e right⟩
      (delimited₁.definitions d left) (delimited₂.definitions e right)
      (valid₁.unique d left) (valid₂.unique e right) same
    exact ⟨⟨uris, definitions⟩, rest⟩
  · cases empty
  · cases empty

section Example

def Symbol.toSum : Symbol ℕ → ℕ ⊕ ℕ
  | .byte b => .inl b.toNat
  | .digest d => .inr d

/-- A hash without collisions: the number of its input. -/
def numberOf (s : Stream ℕ) : ℕ := Encodable.encode (s.map Symbol.toSum)

theorem numberOf_injective : Function.Injective numberOf := by
  have symbols : Function.Injective Symbol.toSum := by
    intro a b same
    cases a <;> cases b <;> simp_all [Symbol.toSum, UInt8.toNat_inj]
  exact Encodable.encode_injective.comp (List.map_injective_iff.mpr symbols)

/-- A struct of two fields, the first with a default. -/
def pointTypes (fieldsOf : FieldDefinition TypeId → FieldDefinition TypeId →
    List (FieldDefinition TypeId)) : SerializableTypeSystem where
  types := [([80], {
    definition := .structDef
      (fieldsOf ⟨⟨1, [120]⟩, 1, .list .i32, some ⟨.list [.int32 7], .intro trivial (by
          rintro c (_ | ⟨_, ⟨⟩⟩)
          exact .intro trivial nofun)⟩, []⟩
        ⟨⟨2, [121]⟩, 2, .i32, none, []⟩) false []
    sourceInfo := none })]

theorem pointTypes_delimited {fieldsOf : FieldDefinition TypeId → FieldDefinition TypeId →
    List (FieldDefinition TypeId)} (only : ∀ x y, ∀ f ∈ fieldsOf x y, f = x ∨ f = y) :
    (pointTypes fieldsOf).Delimited := by
  have single : ∀ d ∈ (pointTypes fieldsOf).definitions, d = ([80], .structDef (fieldsOf _ _)
      false []) := fun d member => List.mem_singleton.mp member
  refine ⟨fun d member => ?_, fun d member => ?_, fun d member r record => ?_⟩
  · rw [single d member]
    exact (by decide : ([80] : Bytes).length < 2 ^ 32)
  · rw [single d member]
    refine ⟨fun f inside => ?_, by decide, nofun⟩
    rcases only _ _ f inside with rfl | rfl <;> exact ⟨nofun, by decide, trivial, by decide, nofun⟩
  · rw [single d member] at record
    rcases List.mem_append.mp record with inFields | inAnnotations
    · obtain ⟨f, inside, part⟩ := List.mem_flatMap.mp inFields
      rcases only _ _ f inside with rfl | rfl
      · rcases List.mem_append.mp part with inDefault | inAnnotations
        · rw [List.mem_singleton.mp inDefault]
          refine .intro trivial fun c child => ?_
          rw [List.mem_singleton.mp child]
          exact .intro trivial nofun
        · cases inAnnotations
      · rcases List.mem_append.mp part with inDefault | inAnnotations
        · cases inDefault
        · cases inAnnotations
    · cases inAnnotations

/-- The two orders of the fields have one stream, and are the same up to order. -/
theorem digest_injective_swapped :
    (pointTypes fun x y => [x, y]).Reordered (pointTypes fun x y => [y, x]) := by
  have delimited := @pointTypes_delimited (fun x y => [x, y]) (by simp)
  have delimited' := @pointTypes_delimited (fun x y => [y, x]) (by simp [or_comm])
  have separated : (pointTypes fun x y => [x, y]).Separated := by
    intro d member r record
    rw [List.mem_singleton.mp member] at record
    rw [List.mem_singleton.mp record]
    exact ⟨rfl, trivial, trivial⟩
  exact digest_injective numberOf_injective rfl rfl delimited delimited' separated rfl

end Example

/-! ## Collisions -/

theorem hashRecord_regroup {D : Type} [LinearOrder D] (sha256 : Stream D → D)
    (before inner after : List SerializableRecord) (r : SerializableRecord) :
    hashRecord sha256 getType (.list (before ++ .list inner :: r :: after)) =
      hashRecord sha256 getType (.list (before ++ .list (inner ++ [r]) :: after)) := by
  rw [hashRecord_list, hashRecord_list]
  simp only [List.flatMap_append, List.flatMap_cons, hashRecord_list, List.append_assoc,
    List.flatMap_nil, List.nil_append]

/-- A struct with one field and a default for it. -/
def withDefault (type : TypeId) (record : Record) : SerializableTypeSystem where
  types := [([65], {
    definition := .structDef [⟨⟨1, [120]⟩, 1, type, some record, []⟩] false []
    sourceInfo := none })]

theorem hash_withDefault {D : Type} [LinearOrder D] (sha256 : Stream D → D) (type : TypeId) :
    ∃ x y, ∀ record, hashSerializableTypeSystem sha256 (withDefault type record) =
      x ++ (hashRecord sha256 getType record.record ++ y) := by
  have single : ∀ {α κ : Type} [LinearOrder κ] (key : α → κ) (fn : α → Stream D) (a : α),
      forEachSortedByKey key fn [a] = fn a := fun key fn a => by
    rw [forEachSortedByKey_of_ascending (by simp), List.flatMap_singleton]
  refine ⟨hashLE 1 2 ++ hashString [65] ++ hashInt32 1 ++ hashInt16 1 ++ hashString [120] ++
    hashInt32 1 ++ hashTypeId type, hashAnnotations sha256 getType [] ++ hashBool false ++
      hashAnnotations sha256 getType [], fun record => ?_⟩
  simp only [hashSerializableTypeSystem, SerializableTypeSystem.definitions, withDefault,
    hashTypes, List.map_cons, List.map_nil, single, hashDefinition, hashField, hashDefault, id,
    List.append_assoc]

def twoEmptyLists : Record where
  record := .list [.list [], .list []]
  ascending := .intro trivial (by
    rintro c (_ | ⟨_, _ | ⟨_, ⟨⟩⟩⟩) <;> exact .intro trivial nofun)

def oneInsideAnother : Record where
  record := .list [.list [.list []]]
  ascending := .intro trivial (by
    rintro c (_ | ⟨_, ⟨⟩⟩)
    exact .intro trivial (by
      rintro c (_ | ⟨_, ⟨⟩⟩)
      exact .intro trivial nofun))

def twoEmptyListsTypes : SerializableTypeSystem :=
  withDefault (.list (.list (.list .i32))) twoEmptyLists

def oneInsideAnotherTypes : SerializableTypeSystem :=
  withDefault (.list (.list (.list .i32))) oneInsideAnother

/-- Two accepted type systems, with different defaults for one field, have the same stream. -/
theorem digest_collision : (∃ t₁, fromSerializable twoEmptyListsTypes = .ok t₁) ∧
      (∃ t₂, fromSerializable oneInsideAnotherTypes = .ok t₂) ∧
      (∀ (D : Type) [LinearOrder D] (sha256 : Stream D → D),
        hashSerializableTypeSystem sha256 twoEmptyListsTypes =
          hashSerializableTypeSystem sha256 oneInsideAnotherTypes) ∧
      ¬twoEmptyListsTypes.Reordered oneInsideAnotherTypes := by
  refine ⟨⟨_, rfl⟩, ⟨_, rfl⟩, fun D _ sha256 => ?_, ?_⟩
  · have records : hashRecord sha256 getType twoEmptyLists.record =
        hashRecord sha256 getType oneInsideAnother.record := hashRecord_regroup sha256 [] [] [] _
    obtain ⟨x, y, stream⟩ := hash_withDefault sha256 (.list (.list (.list .i32)))
    rw [twoEmptyListsTypes, oneInsideAnotherTypes, stream, stream, records]
  · intro reordered
    have definition := (upToOrder_singleton.mp reordered).2
    have field := upToOrder_singleton.mp definition.1
    exact field.customDefault.2.elim

end FbThrift.Dynamic.Schema
