import FbThrift.Dynamic.DigestInjective

/-!
# The digest does not depend on orders

Every group whose order has no meaning is brought into a canonical order: by key where keys are
distinct, and by digest elsewhere.  The entries of a map are sorted by the digests of their keys,
so two keys with one stream stay in the order in which they are held.  Both levels of type systems
feed the same stream.
-/

namespace FbThrift.Dynamic.Schema

open SerializableRecord
open List (Forall₂)

section Order

variable {D : Type} [LinearOrder D] {sha256 : Stream D → D}

theorem hashUnorderedByDigest_congr {as bs : List (Stream D)} (perm : as.Perm bs) :
    hashUnorderedByDigest sha256 as = hashUnorderedByDigest sha256 bs := by
  rw [hashUnorderedByDigest, hashUnorderedByDigest, perm.length_eq,
    sortedBy_id_congr (perm.map sha256)]

/-! ## Records -/

/-- The keys of a map have distinct digests. -/
def KeysApart (sha256 : Stream D → D) : SerializableRecord → Prop
  | .map entries => (entries.map fun e => sha256 (hashRecord sha256 getType e.1)).Nodup
  | _ => True

/-- Records that are the same up to order have the same stream. -/
theorem hashRecord_reordered {a : SerializableRecord} :
    ∀ {b}, Everywhere (KeysApart sha256) a → Reordered a b →
      hashRecord sha256 getType a = hashRecord sha256 getType b := by
  induction a using inductChildren with
  | step a ih =>
    intro b apart reordered
    cases a with
    | fieldSet as =>
      cases b <;> first | exact reordered.elim | skip
      rename_i bs
      have fields : as.map (fun f => (f.1, hashRecord sha256 getType f.2)) =
          bs.map fun f => (f.1, hashRecord sha256 getType f.2) := by
        refine map_eq_of_forall₂ (reorderedFields_iff.mp reordered) fun f member g _ same => ?_
        have child := mem_children_field member
        rw [same.1, ih f.2 child (apart.inside child) same.2]
      rw [hashRecord, hashRecord, hashFields_eq, hashFields_eq, fields]
      rfl
    | list as =>
      cases b <;> first | exact reordered.elim | skip
      have elements := map_eq_of_forall₂ (reorderedElements_iff.mp reordered)
        fun e member _ _ same => ih e member (apart.inside member) same
      rw [hashRecord, hashRecord, hashElements_eq, hashElements_eq, elements]
      rfl
    | set as =>
      cases b <;> first | exact reordered.elim | skip
      have elements := (reordered_set_iff.mp reordered).map_perm
        fun e member _ _ same => ih e member (apart.inside member) same
      rw [hashRecord, hashRecord, hashElements_eq, hashElements_eq,
        hashUnorderedByDigest_congr elements]
      rfl
    | map as =>
      cases b <;> first | exact reordered.elim | skip
      rename_i bs
      have entries : (as.map fun e =>
          (hashRecord sha256 getType e.1, hashRecord sha256 getType e.2)).Perm (bs.map fun e =>
              (hashRecord sha256 getType e.1, hashRecord sha256 getType e.2)) := by
        refine (reordered_map_iff.mp reordered).map_perm fun e member f _ same => ?_
        have inKey := mem_children_key member
        have inValue := mem_children_value member
        rw [ih e.1 inKey (apart.inside inKey) same.1, ih e.2 inValue (apart.inside inValue) same.2]
      have distinct : ((as.map fun e => (hashRecord sha256 getType e.1,
          hashRecord sha256 getType e.2)).map fun e => sha256 e.1).Nodup := by
        rw [List.map_map]
        exact apart.here
      rw [hashRecord, hashRecord, hashEntries_eq, hashEntries_eq, hashMapByKeyDigest,
        hashMapByKeyDigest, sortedBy_congr entries distinct, entries.length_eq]
      rfl
    | _ =>
      cases b <;> first | exact reordered.elim | skip
      obtain rfl := reordered
      rfl

/-- The keys of maps are records that can be split off. -/
def SeparatedKeys : SerializableRecord → Prop
  | .map entries => ∀ e ∈ entries, Separated false false e.1 ∧ Everywhere Sized e.1
  | _ => True

/-- The keys of a checked map differ up to order, and then their streams differ. -/
theorem keysApart_of_separated (injective : Function.Injective sha256) {r : SerializableRecord}
    (checked : Everywhere Checked r) (ascending : Everywhere Ascending r)
    (separated : Everywhere SeparatedKeys r) : Everywhere (KeysApart sha256) r := by
  induction r using inductChildren with
  | step r ih =>
    refine .intro ?_ fun c inside =>
      ih c inside (checked.inside inside) (ascending.inside inside) (separated.inside inside)
    cases r with
    | map entries =>
      have keys := separated.here
      refine List.pairwise_map.mpr (checked.here.imp_of_mem fun {e f} left right differ => ?_)
      intro same
      have whole : hashRecord sha256 getType e.1 ++ [] =
          hashRecord sha256 getType f.1 ++ [] := by rw [injective same]
      have inE := mem_children_key left
      have inF := mem_children_key right
      have reordered := (record_splits injective e.1 (keys e left).1
        ⟨(keys e left).2, ascending.inside inE⟩ ⟨(keys f right).2, ascending.inside inF⟩
        (follows_nil _ _) (follows_nil _ _) whole).1
      rw [equals_of_reordered (checked.inside inE) reordered] at differ
      cases differ
    | _ => trivial

/-! ## Definitions -/

variable {τ : Type} {typeId : τ → TypeId}

theorem hashAnnotations_reordered {a b : Annotations}
    (apart : ∀ r ∈ recordsOf a, Everywhere (KeysApart sha256) r)
    (reordered : AnnotationsReordered a b) :
    hashAnnotations sha256 getType a = hashAnnotations sha256 getType b := by
  refine hashUnorderedByDigest_congr (reordered.map_perm fun e member f _ same => ?_)
  rw [same.1, hashRecord_reordered (apart _ (List.mem_map_of_mem member)) same.2]

theorem hashDefault_reordered {a b : Option Record}
    (apart : ∀ r ∈ (a.map Record.record).toList, Everywhere (KeysApart sha256) r)
    (reordered : DefaultReordered a b) :
    hashDefault sha256 getType a = hashDefault sha256 getType b := by
  rcases a with _ | a <;> rcases b with _ | b
  · rfl
  · exact reordered.elim
  · exact reordered.elim
  · exact hashRecord_reordered (apart _ (by simp)) reordered

theorem hashField_reordered {f g : FieldDefinition τ}
    (apart : ∀ r ∈ f.records, Everywhere (KeysApart sha256) r) (reordered : FieldReordered f g) :
    hashField sha256 getType typeId f = hashField sha256 getType typeId g := by
  rw [hashField, hashField, reordered.identity, reordered.presence, reordered.type,
    hashDefault_reordered (fun r member => apart r (List.mem_append_left _ member))
      reordered.customDefault,
    hashAnnotations_reordered (fun r member => apart r (List.mem_append_right _ member))
      reordered.annotations]

theorem hashEnumValue_reordered {v w : EnumValue}
    (apart : ∀ r ∈ recordsOf v.annotations, Everywhere (KeysApart sha256) r)
    (reordered : ValueReordered v w) :
    hashEnumValue sha256 getType v = hashEnumValue sha256 getType w := by
  rw [hashEnumValue, hashEnumValue, reordered.name, reordered.datum,
    hashAnnotations_reordered apart reordered.annotations]

theorem hashFields_reordered {fs gs : List (FieldDefinition τ)}
    (distinct : (fs.map fun f => f.identity.id.toInt).Nodup)
    (apart : ∀ r ∈ fs.flatMap FieldDefinition.records, Everywhere (KeysApart sha256) r)
    (reordered : UpToOrder FieldReordered fs gs) :
    forEachSortedByKey (fun f => f.identity.id.toInt) (hashField sha256 getType typeId) fs =
      forEachSortedByKey (fun f => f.identity.id.toInt) (hashField sha256 getType typeId) gs := by
  refine forEachSortedByKey_congr distinct (reordered.map_perm fun f member g _ same => ?_)
  rw [same.identity, hashField_reordered
    (fun r inside => apart r (List.mem_flatMap.mpr ⟨f, member, inside⟩)) same]

/-- Definitions that are the same up to order have the same stream. -/
theorem hashDefinition_reordered {d e : TypeDefinition τ} (unique : d.Unique)
    (apart : ∀ r ∈ d.records, Everywhere (KeysApart sha256) r) (reordered : d.Reordered e) :
    hashDefinition sha256 getType typeId d = hashDefinition sha256 getType typeId e := by
  cases d with
  | structDef fs s as =>
    cases e <;> first | exact reordered.elim | skip
    obtain ⟨fields, sealed, annotations⟩ := reordered
    rw [hashDefinition, hashDefinition, sealed, hashFields_reordered unique
        (fun r inside => apart r (List.mem_append_left _ inside)) fields,
      hashAnnotations_reordered (fun r inside => apart r (List.mem_append_right _ inside))
        annotations]
  | unionDef fs s as =>
    cases e <;> first | exact reordered.elim | skip
    obtain ⟨fields, sealed, annotations⟩ := reordered
    rw [hashDefinition, hashDefinition, sealed, hashFields_reordered unique
        (fun r inside => apart r (List.mem_append_left _ inside)) fields,
      hashAnnotations_reordered (fun r inside => apart r (List.mem_append_right _ inside))
        annotations]
  | enumDef vs as =>
    cases e <;> first | exact reordered.elim | skip
    obtain ⟨values, annotations⟩ := reordered
    rw [hashDefinition, hashDefinition,
      forEachSortedByKey_congr unique (values.map_perm fun v member w _ same => by
        rw [same.datum, hashEnumValue_reordered (fun r inside => apart r
          (List.mem_append_left _ (List.mem_flatMap.mpr ⟨v, member, inside⟩))) same]),
      hashAnnotations_reordered (fun r inside => apart r (List.mem_append_right _ inside))
        annotations]
  | opaqueAliasDef t as =>
    cases e <;> first | exact reordered.elim | skip
    obtain ⟨target, annotations⟩ := reordered
    rw [hashDefinition, hashDefinition, target, hashAnnotations_reordered apart annotations]

/-- Type systems that are the same up to order have the same stream. -/
theorem hashTypes_reordered {as bs : List (Uri × TypeDefinition τ)} (accepted : Accepted as)
    (apart : ∀ d ∈ as, ∀ r ∈ d.2.records, Everywhere (KeysApart sha256) r)
    (reordered : DefinitionsReordered as bs) :
    hashTypes sha256 getType typeId as = hashTypes sha256 getType typeId bs := by
  have keys : (as.map fun e => e.1.map UInt8.toNat).Nodup := by
    have mapped := accepted.distinct.map UInt8.map_toNat_injective
    rwa [List.map_map] at mapped
  rw [hashTypes, hashTypes,
    forEachSortedByKey_congr keys (reordered.map_perm fun d member e _ same => by
      rw [same.1, hashDefinition_reordered (accepted.unique d member) (apart d member) same.2])]

/-! ## The two levels -/

theorem hashDefinition_map (d : TypeDefinition τ) :
    hashDefinition sha256 getType id (d.map typeId) = hashDefinition sha256 getType typeId d := by
  cases d with
  | structDef fs s as =>
    simp only [hashDefinition, TypeDefinition.map, forEachSortedByKey, List.map_map]
    rfl
  | unionDef fs s as =>
    simp only [hashDefinition, TypeDefinition.map, forEachSortedByKey, List.map_map]
    rfl
  | enumDef vs as => rfl
  | opaqueAliasDef t as => rfl

theorem hashTypeSystem_built {s : SerializableTypeSystem} {t : TypeSystem}
    (accepted : fromSerializable s = .ok t) :
    hashTypeSystem sha256 t = hashSerializableTypeSystem sha256 s := by
  rw [hashTypeSystem, kindToThriftFieldId_eq, hashSerializableTypeSystem,
    ← (fromSerializable_ok accepted).2]
  simp only [hashTypes, forEachSortedByKey, List.map_map, Function.comp_def, hashDefinition_map]

end Order

/-- The keys of all maps in the records of a type system can be split off. -/
def SerializableTypeSystem.SeparatedKeys (s : SerializableTypeSystem) : Prop :=
  ∀ d ∈ s.definitions, ∀ r ∈ d.2.records, Everywhere Schema.SeparatedKeys r

/-- One stream for an accepted type system, for its reorderings, and for the type systems built
from them. -/
theorem digest_order_independent {D : Type} [LinearOrder D] {sha256 : Stream D → D}
    (injective : Function.Injective sha256) {s : SerializableTypeSystem} {t : TypeSystem}
    (accepted : fromSerializable s = .ok t) (separated : s.SeparatedKeys)
    {s' : SerializableTypeSystem} (reordered : s.Reordered s') :
    hashSerializableTypeSystem sha256 s' = hashSerializableTypeSystem sha256 s ∧
      hashTypeSystem sha256 t = hashSerializableTypeSystem sha256 s ∧
      ∀ t', fromSerializable s' = .ok t' →
        hashTypeSystem sha256 t' = hashSerializableTypeSystem sha256 s := by
  have valid := (fromSerializable_ok accepted).1
  have same : hashSerializableTypeSystem sha256 s' = hashSerializableTypeSystem sha256 s := by
    refine (hashTypes_reordered valid (fun d member r record => ?_) reordered).symm
    exact keysApart_of_separated injective (valid.checked d member r record)
      (TypeDefinition.ascending_of_mem record) (separated d member r record)
  exact ⟨same, hashTypeSystem_built accepted,
    fun t' built => (hashTypeSystem_built built).trans same⟩

/-- The fields of a struct in both orders, at both levels. -/
theorem digest_order_independent_swapped :
    hashSerializableTypeSystem numberOf (pointTypes fun x y => [y, x]) =
        hashSerializableTypeSystem numberOf (pointTypes fun x y => [x, y]) ∧
      ∃ t', fromSerializable (pointTypes fun x y => [y, x]) = .ok t' ∧ hashTypeSystem numberOf t' =
          hashSerializableTypeSystem numberOf (pointTypes fun x y => [x, y]) := by
  have separated : (pointTypes fun x y => [x, y]).SeparatedKeys := by
    intro d member r record
    rw [List.mem_singleton.mp member] at record
    rw [List.mem_singleton.mp record]
    refine .intro trivial fun c child => ?_
    rw [List.mem_singleton.mp child]
    exact .intro trivial (by rintro _ ⟨⟩)
  have reordered : (pointTypes fun x y => [x, y]).Reordered (pointTypes fun x y => [y, x]) := by
    exact upToOrder_singleton.mpr ⟨rfl, .of_perm .refl (.swap ..), rfl, .refl []⟩
  have same := digest_order_independent numberOf_injective rfl separated reordered
  exact ⟨same.1, _, rfl, same.2.2 _ rfl⟩

/-! ## Keys with one stream -/

theorem hashRecord_tied {D : Type} [LinearOrder D] (sha256 : Stream D → D) {key : Stream D}
    {entries : List (SerializableRecord × SerializableRecord)}
    (tied : ∀ e ∈ entries, hashRecord sha256 getType e.1 = key) :
    hashRecord sha256 getType (.map entries) = hashInt32 14 ++ (hashSize entries.length ++
      entries.flatMap fun e => key ++ hashRecord sha256 getType e.2) := by
  have held : entries.map (fun e =>
      (hashRecord sha256 getType e.1, hashRecord sha256 getType e.2)) =
        entries.map fun e => (key, hashRecord sha256 getType e.2) :=
    List.map_congr_left fun e member => by rw [tied e member]
  have sorted : sortedBy (fun e => sha256 e.1)
      (entries.map fun e => (key, hashRecord sha256 getType e.2)) =
        entries.map fun e => (key, hashRecord sha256 getType e.2) := by
    refine List.Pairwise.insertionSort_eq (List.pairwise_map.mpr ?_)
    exact List.pairwise_of_forall fun _ _ => le_refl _
  rw [hashRecord, hashEntries_eq, held, hashMapByKeyDigest, sorted, List.flatMap_map,
    List.length_map]
  rfl

def tiedEntries : List (SerializableRecord × SerializableRecord) :=
  [(twoEmptyLists.record, .bool true), (oneInsideAnother.record, .bool false)]

theorem ascending_tiedEntries {entries : List (SerializableRecord × SerializableRecord)}
    (perm : entries.Perm tiedEntries) : Everywhere Ascending (.map entries) := by
  refine .intro trivial fun c child => ?_
  obtain ⟨e, member, side⟩ := List.mem_flatMap.mp child
  have member := perm.mem_iff.mp member
  rcases List.mem_pair.mp member with rfl | rfl <;> rcases List.mem_pair.mp side with rfl | rfl
  · exact twoEmptyLists.ascending
  · exact .intro trivial nofun
  · exact oneInsideAnother.ascending
  · exact .intro trivial nofun

/-- A default of type `map<list<list<list<i32>>>, bool>` with two keys of one stream. -/
def tiedTypes (entries : List (SerializableRecord × SerializableRecord))
    (perm : entries.Perm tiedEntries) : SerializableTypeSystem :=
  withDefault (.map (.list (.list (.list .i32))) .bool) ⟨.map entries, ascending_tiedEntries perm⟩

/-- Two orders of the entries of a map have different streams. -/
theorem digest_order_dependent : (∃ t, fromSerializable (tiedTypes tiedEntries (.refl _)) = .ok t) ∧
      (tiedTypes tiedEntries (.refl _)).Reordered
        (tiedTypes tiedEntries.reverse (List.reverse_perm _)) ∧
      ∀ (D : Type) [LinearOrder D] (sha256 : Stream D → D),
        hashSerializableTypeSystem sha256 (tiedTypes tiedEntries.reverse (List.reverse_perm _)) ≠
          hashSerializableTypeSystem sha256 (tiedTypes tiedEntries (.refl _)) := by
  refine ⟨⟨_, rfl⟩, ?_, fun D _ sha256 same => ?_⟩
  · have entries : Reordered (.map tiedEntries) (.map tiedEntries.reverse) :=
      reordered_map_iff.mpr (.of_perm (fun _ => ⟨.refl _, .refl _⟩) (List.reverse_perm _).symm)
    exact upToOrder_singleton.mpr ⟨rfl, upToOrder_singleton.mpr
      { identity := rfl, presence := rfl, type := rfl, customDefault := entries,
        annotations := .refl [] }, rfl, .refl []⟩
  · obtain ⟨x, y, stream⟩ := hash_withDefault sha256 (.map (.list (.list (.list .i32))) .bool)
    have keys : hashRecord sha256 getType oneInsideAnother.record =
        hashRecord sha256 getType twoEmptyLists.record :=
      (hashRecord_regroup sha256 [] [] [] _).symm
    have tied : ∀ e ∈ tiedEntries, hashRecord sha256 getType e.1 =
        hashRecord sha256 getType twoEmptyLists.record := by
      intro e member
      rcases List.mem_pair.mp member with rfl | rfl
      · rfl
      · exact keys
    rw [tiedTypes, tiedTypes, stream, stream, hashRecord_tied sha256 tied,
      hashRecord_tied sha256 fun e member => tied e (List.mem_reverse.mp member)] at same
    have entries := List.append_cancel_left same
    simp only [tiedEntries, List.reverse_cons, List.reverse_nil, List.nil_append,
      List.cons_append, List.flatMap_cons, List.append_assoc, List.length_cons, List.length_nil,
      List.append_cancel_left_eq, hashRecord] at entries
    exact absurd (hashBool_split (hashInt32_split entries).2).1 (by decide)

end FbThrift.Dynamic.Schema
