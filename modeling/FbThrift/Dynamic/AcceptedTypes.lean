import FbThrift.Dynamic.TypeSystemBuilder

/-!
# What the builder accepts

A serializable type system that the builder accepts has distinct URIs, distinct field ids and
enum values in each definition, and checked records everywhere.  The type system built from it
has the same definitions, with each type id replaced by a reference of that id.
-/

namespace FbThrift.Dynamic.Schema

open SerializableRecord

/-! ## Parts of a definition -/

def recordsOf (annotations : Annotations) : List SerializableRecord :=
  annotations.map fun a => a.2.record

section Parts

variable {τ σ : Type}

/-- The records of a field: its default and the values of its annotations. -/
def FieldDefinition.records (field : FieldDefinition τ) : List SerializableRecord :=
  (field.customDefault.map Record.record).toList ++ recordsOf field.annotations

/-- The records of a definition. -/
def TypeDefinition.records : TypeDefinition τ → List SerializableRecord
  | .structDef fields _ annotations =>
    fields.flatMap FieldDefinition.records ++ recordsOf annotations
  | .unionDef fields _ annotations =>
    fields.flatMap FieldDefinition.records ++ recordsOf annotations
  | .enumDef values annotations =>
    values.flatMap (fun v => recordsOf v.annotations) ++ recordsOf annotations
  | .opaqueAliasDef _ annotations => recordsOf annotations

theorem ascending_of_mem_recordsOf {annotations : Annotations} {r : SerializableRecord}
    (member : r ∈ recordsOf annotations) : Everywhere Ascending r := by
  obtain ⟨a, -, rfl⟩ := List.mem_map.mp member
  exact a.2.ascending

theorem FieldDefinition.ascending_of_mem {field : FieldDefinition τ} {r : SerializableRecord}
    (member : r ∈ field.records) : Everywhere Ascending r := by
  rcases List.mem_append.mp member with inDefault | inAnnotations
  · rw [Option.mem_toList] at inDefault
    obtain ⟨record, -, rfl⟩ := Option.map_eq_some_iff.mp inDefault
    exact record.ascending
  · exact ascending_of_mem_recordsOf inAnnotations

theorem TypeDefinition.ascending_of_mem {definition : TypeDefinition τ} {r : SerializableRecord}
    (member : r ∈ definition.records) : Everywhere Ascending r := by
  have fields : ∀ {fields : List (FieldDefinition τ)} {annotations : Annotations},
      r ∈ fields.flatMap FieldDefinition.records ++ recordsOf annotations →
        Everywhere Ascending r := by
    intro fields annotations member
    rcases List.mem_append.mp member with inFields | inAnnotations
    · obtain ⟨f, -, part⟩ := List.mem_flatMap.mp inFields
      exact FieldDefinition.ascending_of_mem part
    · exact ascending_of_mem_recordsOf inAnnotations
  cases definition with
  | structDef _ _ _ => exact fields member
  | unionDef _ _ _ => exact fields member
  | enumDef values annotations =>
    rcases List.mem_append.mp member with inValues | inAnnotations
    · obtain ⟨v, -, part⟩ := List.mem_flatMap.mp inValues
      exact ascending_of_mem_recordsOf part
    · exact ascending_of_mem_recordsOf inAnnotations
  | opaqueAliasDef _ _ => exact ascending_of_mem_recordsOf member

/-- The ids of the fields, or the values of an enum, are distinct. -/
def TypeDefinition.Unique : TypeDefinition τ → Prop
  | .structDef fields _ _ => (fields.map fun f => f.identity.id.toInt).Nodup
  | .unionDef fields _ _ => (fields.map fun f => f.identity.id.toInt).Nodup
  | .enumDef values _ => (values.map fun v => v.datum.toInt).Nodup
  | .opaqueAliasDef _ _ => True

def FieldDefinition.map (f : τ → σ) (field : FieldDefinition τ) : FieldDefinition σ :=
  ⟨field.identity, field.presence, f field.type, field.customDefault, field.annotations⟩

/-- The definition with its references to types replaced. -/
def TypeDefinition.map (f : τ → σ) : TypeDefinition τ → TypeDefinition σ
  | .structDef fields isSealed annotations =>
    .structDef (fields.map (FieldDefinition.map f)) isSealed annotations
  | .unionDef fields isSealed annotations =>
    .unionDef (fields.map (FieldDefinition.map f)) isSealed annotations
  | .enumDef values annotations => .enumDef values annotations
  | .opaqueAliasDef targetType annotations => .opaqueAliasDef (f targetType) annotations

end Parts

/-! ## Definitions up to order -/

def AnnotationsReordered : Annotations → Annotations → Prop :=
  UpToOrder fun a b => a.1 = b.1 ∧ Reordered a.2.record b.2.record

def DefaultReordered : Option Record → Option Record → Prop
  | none, none => True
  | some a, some b => Reordered a.record b.record
  | _, _ => False

/-- Fields that differ in the order inside their records and of their annotations only. -/
structure FieldReordered {τ : Type} (f g : FieldDefinition τ) : Prop where
  identity : f.identity = g.identity
  presence : f.presence = g.presence
  type : f.type = g.type
  customDefault : DefaultReordered f.customDefault g.customDefault
  annotations : AnnotationsReordered f.annotations g.annotations

theorem AnnotationsReordered.refl (a : Annotations) : AnnotationsReordered a a :=
  .of_perm (fun _ => ⟨rfl, .refl _⟩) (.refl a)

theorem FieldReordered.refl {τ : Type} (f : FieldDefinition τ) : FieldReordered f f where
  identity := rfl
  presence := rfl
  type := rfl
  customDefault := by
    cases f.customDefault with
    | none => trivial
    | some record => exact Reordered.refl record.record
  annotations := .refl f.annotations

structure ValueReordered (v w : EnumValue) : Prop where
  name : v.name = w.name
  datum : v.datum = w.datum
  annotations : AnnotationsReordered v.annotations w.annotations

/-- Definitions that differ only in the order of fields, enum values, annotations, and elements
and entries inside records. -/
def TypeDefinition.Reordered {τ : Type} : TypeDefinition τ → TypeDefinition τ → Prop
  | .structDef fs s as, .structDef gs t bs =>
    UpToOrder FieldReordered fs gs ∧ s = t ∧ AnnotationsReordered as bs
  | .unionDef fs s as, .unionDef gs t bs =>
    UpToOrder FieldReordered fs gs ∧ s = t ∧ AnnotationsReordered as bs
  | .enumDef vs as, .enumDef ws bs => UpToOrder ValueReordered vs ws ∧ AnnotationsReordered as bs
  | .opaqueAliasDef t as, .opaqueAliasDef u bs => t = u ∧ AnnotationsReordered as bs
  | _, _ => False

/-- Definitions by URI up to order. -/
def DefinitionsReordered {τ : Type} :
    List (Uri × TypeDefinition τ) → List (Uri × TypeDefinition τ) → Prop :=
  UpToOrder fun d e => d.1 = e.1 ∧ d.2.Reordered e.2

def SerializableTypeSystem.definitions (s : SerializableTypeSystem) :
    List (Uri × TypeDefinition TypeId) :=
  s.types.map fun e => (e.1, e.2.definition)

/-- Type systems with the same definitions up to order, whatever their source info. -/
def SerializableTypeSystem.Reordered (s t : SerializableTypeSystem) : Prop :=
  DefinitionsReordered s.definitions t.definitions

/-! ## Validation -/

section Validation

variable {uri : Uri}

theorem validateIdentitiesAreUnique_ok {fields : List (FieldDefinition TypeId)}
    {seen : List FieldIdentity} (distinct : (seen.map fun i => i.id.toInt).Nodup)
    (ok : validateIdentitiesAreUnique uri seen fields = .ok ()) :
    ((seen.map fun i => i.id.toInt) ++ fields.map fun f => f.identity.id.toInt).Nodup := by
  induction fields generalizing seen with
  | nil => simpa using distinct
  | cons field fields ih =>
    unfold validateIdentitiesAreUnique at ok
    split at ok
    next => cases ok
    next fresh =>
      split at ok
      next => cases ok
      next =>
        have grown : ((seen ++ [field.identity]).map fun i => i.id.toInt).Nodup := by
          simp only [Bool.not_eq_true, List.any_eq_false, beq_iff_eq] at fresh
          rw [List.map_append, List.nodup_append]
          refine ⟨distinct, by simp, ?_⟩
          simpa [Int16.toInt_inj] using fresh
        simpa using ih grown ok

theorem validateEnumMappingsAreUnique_ok {values seen : List EnumValue}
    (distinct : (seen.map fun v => v.datum.toInt).Nodup)
    (ok : validateEnumMappingsAreUnique uri seen values = .ok ()) :
    ((seen ++ values).map fun v => v.datum.toInt).Nodup := by
  induction values generalizing seen with
  | nil => simpa using distinct
  | cons value values ih =>
    unfold validateEnumMappingsAreUnique at ok
    split at ok
    next => cases ok
    next =>
      split at ok
      next => cases ok
      next fresh =>
        have grown : ((seen ++ [value]).map fun v => v.datum.toInt).Nodup := by
          simp only [Bool.not_eq_true, List.any_eq_false, beq_iff_eq] at fresh
          rw [List.map_append, List.nodup_append]
          refine ⟨distinct, by simp, ?_⟩
          simpa [Int32.toInt_inj] using fresh
        simpa using ih grown ok

theorem validate_ok {definition : TypeDefinition TypeId} (ok : validate uri definition = .ok ()) :
    definition.Unique := by
  cases definition with
  | structDef fields isSealed annotations =>
    have distinct := @validateIdentitiesAreUnique_ok uri fields [] List.nodup_nil ok
    simpa [TypeDefinition.Unique] using distinct
  | unionDef fields isSealed annotations =>
    obtain ⟨⟨⟩, valid, -⟩ := Except.bind_eq_ok ok
    have distinct := @validateIdentitiesAreUnique_ok uri fields [] List.nodup_nil valid
    simpa [TypeDefinition.Unique] using distinct
  | enumDef values annotations =>
    have distinct := @validateEnumMappingsAreUnique_ok uri values [] List.nodup_nil ok
    simpa [TypeDefinition.Unique] using distinct
  | opaqueAliasDef targetType annotations => trivial

theorem addTypes_ok {definitions types result : List (Uri × SerializableTypeDefinitionEntry)}
    (distinct : (definitions.map Prod.fst).Nodup) (ok : addTypes definitions types = .ok result) :
    result = definitions ++ types ∧ (result.map Prod.fst).Nodup ∧
      ∀ e ∈ types, e.2.definition.Unique := by
  induction types generalizing definitions with
  | nil =>
    cases ok
    exact ⟨by simp, distinct, by simp⟩
  | cons entry types ih =>
    unfold addTypes at ok
    obtain ⟨⟨⟩, valid, added⟩ := Except.bind_eq_ok ok
    split at added
    next => cases added
    next fresh =>
      have grown : ((definitions ++ [entry]).map Prod.fst).Nodup := by
        simp only [Bool.not_eq_true, List.any_eq_false, beq_iff_eq] at fresh
        rw [List.map_append, List.nodup_append]
        refine ⟨distinct, by simp, ?_⟩
        simpa using fun u e member => fresh (u, e) member
      obtain ⟨rfl, apart, unique⟩ := ih grown added
      exact ⟨by simp, apart, List.forall_mem_cons.mpr ⟨validate_ok valid, unique⟩⟩

end Validation

/-! ## Building -/

section Build

variable {definitions : List (Uri × SerializableTypeDefinitionEntry)}

theorem id_stub (uri : Uri) (definition : TypeDefinition TypeId) :
    (stub uri definition).id = .uri uri := by
  cases definition <;> rfl

theorem typeOf_ok {t : TypeId} {r : TypeRef} (ok : typeOf definitions t = .ok r) : r.id = t := by
  induction t generalizing r with
  | uri uri =>
    unfold typeOf at ok
    split at ok
    next d found =>
      cases ok
      have named := List.find?_some found
      simp only [beq_iff_eq] at named
      rw [id_stub, named]
    next => cases ok
  | list t ih =>
    obtain ⟨element, made, ok⟩ := Except.bind_eq_ok ok
    cases ok
    rw [TypeRef.id, ih made]
  | set t ih =>
    obtain ⟨element, made, ok⟩ := Except.bind_eq_ok ok
    cases ok
    rw [TypeRef.id, ih made]
  | map k v ihk ihv =>
    obtain ⟨key, made, ok⟩ := Except.bind_eq_ok ok
    obtain ⟨value, made', ok⟩ := Except.bind_eq_ok ok
    cases ok
    rw [TypeRef.id, ihk made, ihv made']
  | _ => cases ok <;> rfl

theorem buildRecord_ok {record result : Record} (ok : buildRecord record = .ok result) :
    result = record ∧ Everywhere Checked record.record := by
  unfold buildRecord at ok
  split at ok
  next r built =>
    cases ok
    obtain ⟨rfl, checked⟩ := fromThrift_ok built
    exact ⟨rfl, checked⟩
  next => cases ok

theorem makeAnnots_ok {annotations result : Annotations}
    (ok : makeAnnots definitions annotations = .ok result) :
    result = annotations ∧ ∀ r ∈ recordsOf annotations, Everywhere Checked r := by
  induction annotations generalizing result with
  | nil =>
    cases ok
    exact ⟨rfl, by simp [recordsOf]⟩
  | cons a annotations ih =>
    unfold makeAnnots at ok
    obtain ⟨type, -, more⟩ := Except.bind_eq_ok ok
    split at more
    next =>
      split at more
      next =>
        obtain ⟨record, built, rest⟩ := Except.bind_eq_ok more
        obtain ⟨others, made, last⟩ := Except.bind_eq_ok rest
        cases last
        obtain ⟨rfl, checked⟩ := buildRecord_ok built
        obtain ⟨rfl, all⟩ := ih made
        exact ⟨rfl, List.forall_mem_cons.mpr ⟨checked, all⟩⟩
      next => cases more
    next => cases more

theorem buildDefault_ok {customDefault result : Option Record}
    (ok : buildDefault customDefault = .ok result) :
    result = customDefault ∧
      ∀ r ∈ (customDefault.map Record.record).toList, Everywhere Checked r := by
  cases customDefault with
  | none =>
    cases ok
    exact ⟨rfl, by simp⟩
  | some record =>
    obtain ⟨record', built, last⟩ := Except.bind_eq_ok ok
    cases last
    obtain ⟨rfl, valid⟩ := buildRecord_ok built
    exact ⟨rfl, by simpa using valid⟩

theorem makeFields_ok {fields : List (FieldDefinition TypeId)}
    {result : List (FieldDefinition TypeRef)} (ok : makeFields definitions fields = .ok result) :
    result.map (FieldDefinition.map TypeRef.id) = fields ∧
      ∀ r ∈ fields.flatMap FieldDefinition.records, Everywhere Checked r := by
  induction fields generalizing result with
  | nil =>
    cases ok
    exact ⟨rfl, by simp⟩
  | cons field fields ih =>
    unfold makeFields at ok
    obtain ⟨type, known, more⟩ := Except.bind_eq_ok ok
    obtain ⟨customDefault, built, more⟩ := Except.bind_eq_ok more
    obtain ⟨annotations, made, more⟩ := Except.bind_eq_ok more
    obtain ⟨others, rest, last⟩ := Except.bind_eq_ok more
    cases last
    obtain ⟨same, all⟩ := ih rest
    obtain ⟨rfl, checked⟩ := makeAnnots_ok made
    obtain ⟨rfl, valid⟩ := buildDefault_ok built
    refine ⟨by simp [FieldDefinition.map, typeOf_ok known, same], fun r member => ?_⟩
    rw [List.flatMap_cons, FieldDefinition.records, List.mem_append, List.mem_append] at member
    rcases member with (inDefault | inAnnotation) | later
    · exact valid r inDefault
    · exact checked r inAnnotation
    · exact all r later

theorem makeValues_ok {values result : List EnumValue}
    (ok : makeValues definitions values = .ok result) :
    result = values ∧ ∀ r ∈ values.flatMap (fun v => recordsOf v.annotations),
      Everywhere Checked r := by
  induction values generalizing result with
  | nil =>
    cases ok
    exact ⟨rfl, by simp⟩
  | cons value values ih =>
    unfold makeValues at ok
    obtain ⟨annotations, made, more⟩ := Except.bind_eq_ok ok
    obtain ⟨others, rest, last⟩ := Except.bind_eq_ok more
    cases last
    obtain ⟨rfl, checked⟩ := makeAnnots_ok made
    obtain ⟨rfl, all⟩ := ih rest
    refine ⟨rfl, fun r member => ?_⟩
    rw [List.flatMap_cons, List.mem_append] at member
    rcases member with here | later
    · exact checked r here
    · exact all r later

theorem makeDefinition_ok {definition : TypeDefinition TypeId} {result : TypeDefinition TypeRef}
    (ok : makeDefinition definitions definition = .ok result) :
    result.map TypeRef.id = definition ∧ ∀ r ∈ definition.records, Everywhere Checked r := by
  cases definition with
  | structDef fields isSealed annotations =>
    obtain ⟨nodes, built, more⟩ := Except.bind_eq_ok ok
    obtain ⟨annots, made, last⟩ := Except.bind_eq_ok more
    cases last
    obtain ⟨same, inFields⟩ := makeFields_ok built
    obtain ⟨rfl, inAnnotations⟩ := makeAnnots_ok made
    exact ⟨by rw [TypeDefinition.map, same],
      fun r member => (List.mem_append.mp member).elim (inFields r) (inAnnotations r)⟩
  | unionDef fields isSealed annotations =>
    obtain ⟨nodes, built, more⟩ := Except.bind_eq_ok ok
    obtain ⟨annots, made, last⟩ := Except.bind_eq_ok more
    cases last
    obtain ⟨same, inFields⟩ := makeFields_ok built
    obtain ⟨rfl, inAnnotations⟩ := makeAnnots_ok made
    exact ⟨by rw [TypeDefinition.map, same],
      fun r member => (List.mem_append.mp member).elim (inFields r) (inAnnotations r)⟩
  | enumDef values annotations =>
    obtain ⟨nodes, built, more⟩ := Except.bind_eq_ok ok
    obtain ⟨annots, made, last⟩ := Except.bind_eq_ok more
    cases last
    obtain ⟨rfl, inValues⟩ := makeValues_ok built
    obtain ⟨rfl, inAnnotations⟩ := makeAnnots_ok made
    exact ⟨rfl, fun r member => (List.mem_append.mp member).elim (inValues r) (inAnnotations r)⟩
  | opaqueAliasDef targetType annotations =>
    obtain ⟨node, built, more⟩ := Except.bind_eq_ok ok
    obtain ⟨annots, made, last⟩ := Except.bind_eq_ok more
    cases last
    obtain ⟨rfl, inAnnotations⟩ := makeAnnots_ok made
    exact ⟨by rw [TypeDefinition.map, typeOf_ok built], inAnnotations⟩

theorem makeDefinitions_ok {sourceIndex : List SourceInfo}
    {entries : List (Uri × SerializableTypeDefinitionEntry)}
    {result : List (Uri × TypeDefinition TypeRef)}
    (ok : makeDefinitions definitions sourceIndex entries = .ok result) :
    result.map (fun d => (d.1, d.2.map TypeRef.id)) = entries.map (fun e => (e.1, e.2.definition)) ∧
      ∀ e ∈ entries, ∀ r ∈ e.2.definition.records, Everywhere Checked r := by
  induction entries generalizing sourceIndex result with
  | nil =>
    cases ok
    exact ⟨rfl, by simp⟩
  | cons entry entries ih =>
    unfold makeDefinitions at ok
    obtain ⟨node, made, more⟩ := Except.bind_eq_ok ok
    obtain ⟨same, checked⟩ := makeDefinition_ok made
    have rest : ∃ index others, makeDefinitions definitions index entries = .ok others ∧
        result = (entry.1, node) :: others := by
      split at more
      next =>
        obtain ⟨others, rest, last⟩ := Except.bind_eq_ok more
        cases last
        exact ⟨_, others, rest, rfl⟩
      next =>
        split at more
        next => cases more
        next =>
          obtain ⟨others, rest, last⟩ := Except.bind_eq_ok more
          cases last
          exact ⟨_, others, rest, rfl⟩
    obtain ⟨index, others, rest, rfl⟩ := rest
    obtain ⟨same', all⟩ := ih rest
    exact ⟨by simp [same, same'], List.forall_mem_cons.mpr ⟨checked, all⟩⟩

end Build

/-- What holds of the definitions of a type system that the builder accepts. -/
structure Accepted {τ : Type} (definitions : List (Uri × TypeDefinition τ)) : Prop where
  distinct : (definitions.map Prod.fst).Nodup
  unique : ∀ d ∈ definitions, d.2.Unique
  checked : ∀ d ∈ definitions, ∀ r ∈ d.2.records, Everywhere Checked r

theorem fromSerializable_ok {s : SerializableTypeSystem} {t : TypeSystem}
    (ok : fromSerializable s = .ok t) :
    Accepted s.definitions ∧
      t.definitions.map (fun d => (d.1, d.2.map TypeRef.id)) = s.definitions := by
  obtain ⟨definitions, added, built⟩ := Except.bind_eq_ok ok
  obtain ⟨nodes, made, last⟩ := Except.bind_eq_ok built
  cases last
  obtain ⟨rfl, distinct, unique⟩ := @addTypes_ok [] _ _ List.nodup_nil added
  rw [List.nil_append] at made distinct
  obtain ⟨same, checked⟩ := makeDefinitions_ok made
  have keys : s.definitions.map Prod.fst = s.types.map Prod.fst := by
    rw [SerializableTypeSystem.definitions, List.map_map]
    rfl
  exact ⟨⟨keys ▸ distinct, List.forall_mem_map.mpr unique, List.forall_mem_map.mpr checked⟩, same⟩

end FbThrift.Dynamic.Schema
