import FbThrift.Patch.Apply

/-!
# Patched values are well formed

What a successful `applyPatch` has run, read backwards from its result, and from it: a
well-formed patch takes well-formed values to well-formed values.
-/

namespace FbThrift

open SortedMap

/-! ## Well-formed containers -/

namespace Value

theorem wfMembers_iff {ms : List (Int16 × Value)} : WfMembers ms ↔ ∀ e ∈ ms, e.2.Wf := by
  induction ms with
  | nil => simp [WfMembers]
  | cons e ms ih =>
    obtain ⟨id, v⟩ := e
    simp [WfMembers, ih]

theorem wfElems_iff {vs : List Value} : WfElems vs ↔ ∀ v ∈ vs, v.Wf := by
  induction vs with
  | nil => simp [WfElems]
  | cons v vs ih => simp [WfElems, ih]

theorem wfEntries_iff {es : List (Value × Value)} : WfEntries es ↔ ∀ e ∈ es, e.1.Wf ∧ e.2.Wf := by
  induction es with
  | nil => simp [WfEntries]
  | cons e es ih =>
    obtain ⟨k, v⟩ := e
    simp [WfEntries, ih, and_assoc]

end Value

/-- A map of values in canonical order whose entries satisfy `P`. -/
structure MapWith {K : Type} [Keyed K] (P : K × Value → Prop) (m : List (K × Value)) : Prop where
  sorted : Sorted m
  each : ∀ e ∈ m, P e

/-- An entry of a well-formed object. -/
abbrev FieldWf (e : Int16 × Value) : Prop := e.2.Wf

/-- An entry of a well-formed map. -/
abbrev EntryWf (e : Value × Value) : Prop := e.1.Wf ∧ e.2.Wf

theorem wf_object_iff {ms : Object} : (Value.object ms).Wf ↔ MapWith FieldWf ms := by
  rw [Value.Wf, Value.wfMembers_iff]
  exact ⟨fun ⟨sorted, each⟩ => ⟨sorted, each⟩, fun wf => ⟨wf.sorted, wf.each⟩⟩

theorem wf_map_iff {es : List (Value × Value)} : (Value.map es).Wf ↔ MapWith EntryWf es := by
  rw [Value.Wf, Value.wfEntries_iff]
  exact ⟨fun ⟨sorted, each⟩ => ⟨sorted, each⟩, fun wf => ⟨wf.sorted, wf.each⟩⟩

namespace MapWith

variable {K : Type} [Keyed K] {P : K × Value → Prop} {m : List (K × Value)}

theorem nil : MapWith P ([] : List (K × Value)) :=
  ⟨sorted_nil, fun _ member => absurd member List.not_mem_nil⟩

theorem insertOrAssign (wf : MapWith P m) {k : K} {v : Value} (entry : P (k, v)) :
    MapWith P (insertOrAssign k v m) := by
  refine ⟨wf.sorted.insertOrAssign k v, fun e member => ?_⟩
  rcases mem_insertOrAssign member with here | there
  · exact here ▸ entry
  · exact wf.each e there

theorem emplace (wf : MapWith P m) {k : K} {v : Value} (entry : P (k, v)) :
    MapWith P (emplace k v m) := by
  unfold SortedMap.emplace
  split
  · exact wf
  · exact wf.insertOrAssign entry

theorem erase (wf : MapWith P m) (k : K) : MapWith P (erase k m) :=
  ⟨wf.sorted.erase k, fun e member => wf.each e ((erase_sublist k m).subset member)⟩

theorem insertEntries (wf : MapWith P m) {entries : List (K × Value)}
    (each : ∀ e ∈ entries, P e) : MapWith P (insertEntries entries m) := by
  unfold FbThrift.insertEntries
  induction entries generalizing m with
  | nil => exact wf
  | cons e entries ih =>
    refine ih (wf.emplace (each e List.mem_cons_self)) fun e' member => ?_
    exact each e' (List.mem_cons_of_mem _ member)

theorem assignEntries (wf : MapWith P m) {entries : List (K × Value)}
    (each : ∀ e ∈ entries, P e) : MapWith P (assignEntries entries m) := by
  unfold FbThrift.assignEntries
  induction entries generalizing m with
  | nil => exact wf
  | cons e entries ih =>
    refine ih (wf.insertOrAssign (each e List.mem_cons_self)) fun e' member => ?_
    exact each e' (List.mem_cons_of_mem _ member)

theorem eraseKeys (wf : MapWith P m) (keys : List K) : MapWith P (eraseKeys keys m) := by
  unfold FbThrift.eraseKeys
  induction keys generalizing m with
  | nil => exact wf
  | cons k keys ih => exact ih (wf.erase k)

end MapWith

/-! ## What a successful overload has run -/

section Inversion

variable {α : Type} {patch : Object}

variable {r value : α} {op : PatchOp}

theorem unlessAssigned_ok {valueType : ValueType} {supportedOps : List PatchOp}
    {as : Value → Option α} {rest : Except String α}
    (ok : unlessAssigned valueType supportedOps as patch rest = .ok r) :
    checkOps patch valueType supportedOps = .ok () ∧
      ((∃ arg, findOp patch .assign = some arg ∧ as arg = some r) ∨
        (findOp patch .assign = none ∧ rest = .ok r)) := by
  unfold unlessAssigned at ok
  obtain ⟨⟨⟩, checked, rest⟩ := Except.bind_eq_ok ok
  refine ⟨checked, ?_⟩
  cases found : findOp patch .assign with
  | none =>
    rw [found] at rest
    exact Or.inr ⟨rfl, rest⟩
  | some arg =>
    rw [found] at rest
    refine Or.inl ⟨arg, rfl, ?_⟩
    simp only [argAs] at rest
    split at rest
    · rename_i a known
      rw [known, Except.ok.inj rest]
    · cases rest

theorem argAs_ok {expected : ValueType} {as : Value → Option α} {arg : Value} {a : α}
    (ok : argAs expected as arg = .ok a) : as arg = some a := by
  unfold argAs at ok
  split at ok
  · rename_i known
    rw [known, Except.ok.inj ok]
  · cases ok

theorem applyClear_ok {zero : α} (ok : applyClear zero patch value = .ok r) :
    (findOp patch .clear = some (.bool true) ∧ r = zero) ∨
      (findOp patch .clear ≠ some (.bool true) ∧ r = value) := by
  unfold applyClear at ok
  cases found : findOp patch .clear with
  | none =>
    rw [found] at ok
    exact Or.inr ⟨nofun, (Except.ok.inj ok).symm⟩
  | some clear =>
    rw [found] at ok
    obtain ⟨cleared, known, result⟩ := Except.bind_eq_ok ok
    have known := argAs_ok known
    cases clear <;> simp only [Value.ifBool, reduceCtorEq, Option.some.injEq] at known
    subst known
    rw [← Except.ok.inj result]
    split
    · rename_i yes
      exact Or.inl ⟨by rw [yes], rfl⟩
    · rename_i no
      exact Or.inr ⟨fun same => no (by cases same; rfl), rfl⟩

theorem applyOp_ok {run : Value → α → Except String α} (ok : applyOp op patch run value = .ok r) :
    (findOp patch op = none ∧ r = value) ∨
      ∃ arg, findOp patch op = some arg ∧ run arg value = .ok r := by
  unfold applyOp at ok
  cases found : findOp patch op with
  | none =>
    rw [found] at ok
    exact Or.inl ⟨rfl, (Except.ok.inj ok).symm⟩
  | some arg =>
    rw [found] at ok
    exact Or.inr ⟨arg, rfl, ok⟩

theorem applyOp_keeps {run : Value → α → Except String α}
    (ok : applyOp op patch run value = .ok r) {P : α → Prop} (before : P value)
    (keeps : ∀ arg, findOp patch op = some arg → run arg value = .ok r → P r) : P r := by
  rcases applyOp_ok ok with ⟨-, rfl⟩ | ⟨arg, found, ran⟩
  · exact before
  · exact keeps arg found ran

theorem applyClear_keeps {zero : α} (ok : applyClear zero patch value = .ok r)
    {P : α → Prop} (before : P value) (empty : P zero) : P r := by
  rcases applyClear_ok ok with ⟨-, rfl⟩ | ⟨-, rfl⟩
  · exact empty
  · exact before

theorem wf_of_findOp (wf : (Value.object patch).Wf) {arg : Value}
    (found : findOp patch op = some arg) : arg.Wf :=
  (wf_object_iff.mp wf).each _ (mem_of_find found)

end Inversion

theorem patchElements_cons_ok {K : Type} [Keyed K] {k : K} {fieldPatch : Value}
    {patches value r : List (K × Value)}
    {apply : (sub : Object) → (∃ k', (k', Value.object sub) ∈ (k, fieldPatch) :: patches) →
      Value → Except String Value}
    (ok : patchElements ((k, fieldPatch) :: patches) apply value = .ok r) :
    ∃ value', patchElements patches
        (fun sub member => apply sub (member.imp fun _ => List.mem_cons_of_mem _)) value' = .ok r ∧
      ((find k value = none ∧ value' = value) ∨
        ∃ sub field patched member, fieldPatch = .object sub ∧ find k value = some field ∧
          apply sub member field = .ok patched ∧ value' = insertOrAssign k patched value) := by
  unfold patchElements at ok
  cases present : find k value with
  | none =>
    simp only [present] at ok
    exact ⟨value, ok, Or.inl ⟨rfl, rfl⟩⟩
  | some field =>
    simp only [present] at ok
    cases fieldPatch with
    | object sub =>
      obtain ⟨patched, ran, rest⟩ := Except.bind_eq_ok ok
      exact ⟨_, rest, Or.inr ⟨sub, field, patched, _, rfl, rfl, ran, rfl⟩⟩
    | _ => cases ok

/-- The loop of `patchElements` keeps what the patch of one element keeps. -/
theorem patchElements_keeps {K : Type} [Keyed K] {P : K × Value → Prop}
    {patches value r : List (K × Value)}
    {apply : (sub : Object) → (∃ k, (k, Value.object sub) ∈ patches) → Value → Except String Value}
    (keeps : ∀ k sub member v v', (k, Value.object sub) ∈ patches → P (k, v) →
      apply sub member v = .ok v' → P (k, v'))
    (before : MapWith P value) (ok : patchElements patches apply value = .ok r) :
    MapWith P r := by
  induction patches generalizing value with
  | nil =>
    cases ok
    exact before
  | cons e patches ih =>
    obtain ⟨k, fieldPatch⟩ := e
    obtain ⟨value', rest, step⟩ := patchElements_cons_ok ok
    refine ih ?_ ?_ rest
    · intro k sub member v v' listed entry ran
      exact keeps k sub _ v v' (List.mem_cons_of_mem _ listed) entry ran
    · rcases step with ⟨-, rfl⟩ | ⟨sub, field, patched, member, rfl, present, ran, rfl⟩
      · exact before
      · refine before.insertOrAssign ?_
        refine keeps k sub member field patched List.mem_cons_self ?_ ran
        exact before.each _ (mem_of_find present)

/-! ## Sets and lists -/

theorem wf_eraseElems {toErase value : List Value} (wf : (Value.set value).Wf) :
    (Value.set (eraseElems toErase value)).Wf := by
  unfold eraseElems
  induction toErase generalizing value with
  | nil => exact wf
  | cons key toErase ih =>
    refine ih ?_
    rw [Value.Wf, Value.wfElems_iff] at wf ⊢
    exact ⟨wf.1.filter _, fun v member => wf.2 v (List.mem_filter.mp member).1⟩

theorem wf_insertElems {toInsert value : List Value} (wf : (Value.set value).Wf)
    (each : ∀ v ∈ toInsert, v.Wf) : (Value.set (insertElems toInsert value)).Wf := by
  unfold insertElems
  induction toInsert generalizing value with
  | nil => exact wf
  | cons key toInsert ih =>
    refine ih ?_ fun v member => each v (List.mem_cons_of_mem _ member)
    rw [Value.Wf, Value.wfElems_iff] at wf ⊢
    refine ⟨wf.1.insert, fun v member => ?_⟩
    rcases SortedSet.mem_insert.mp member with rfl | there
    · exact each v List.mem_cons_self
    · exact wf.2 v there

theorem validateIfSet_ok {name : String} {arg : Value} {elems : List Value}
    (ok : validateIfSet name arg = .ok elems) : arg = .set elems := by
  cases arg <;> simp only [validateIfSet, Value.ifSet, reduceCtorEq, Except.ok.injEq] at ok
  rw [ok]

theorem validatedMap_ok {name : String} {arg : Value} {entries : List (Value × Value)}
    (ok : validatedMap name arg = .ok entries) : arg = .map entries := by
  cases arg <;> simp only [validatedMap, Value.ifMap, reduceCtorEq, Except.ok.injEq] at ok
  rw [ok]

theorem applyList_wf {patch : Object} {vs r : List Value} (patchWf : (Value.object patch).Wf)
    (wf : (Value.list vs).Wf) (ok : applyList patch vs = .ok r) : (Value.list r).Wf := by
  obtain ⟨-, ⟨arg, found, assigned⟩ | ⟨-, rest⟩⟩ := unlessAssigned_ok ok
  · have argWf := wf_of_findOp patchWf found
    cases arg <;> simp only [Value.ifList, reduceCtorEq, Option.some.injEq] at assigned
    exact assigned ▸ argWf
  · obtain ⟨cleared, ran, rest⟩ := Except.bind_eq_ok rest
    have clearedWf : (Value.list cleared).Wf :=
      applyClear_keeps (P := fun vs => (Value.list vs).Wf) ran wf trivial
    refine applyOp_keeps (P := fun vs => (Value.list vs).Wf) rest clearedWf fun arg found ran => ?_
    have argWf := wf_of_findOp patchWf found
    cases arg <;> simp only [Value.ifList, reduceCtorEq, Except.ok.injEq] at ran
    rw [← ran, Value.Wf, Value.wfElems_iff]
    rw [Value.Wf, Value.wfElems_iff] at clearedWf argWf
    intro v member
    rcases List.mem_append.mp member with old | new
    · exact clearedWf v old
    · exact argWf v new

theorem applySet_wf {patch : Object} {vs r : List Value} (patchWf : (Value.object patch).Wf)
    (wf : (Value.set vs).Wf) (ok : applySet patch vs = .ok r) : (Value.set r).Wf := by
  obtain ⟨-, ⟨arg, found, assigned⟩ | ⟨-, rest⟩⟩ := unlessAssigned_ok ok
  · have argWf := wf_of_findOp patchWf found
    cases arg <;> simp only [Value.ifSet, reduceCtorEq, Option.some.injEq] at assigned
    exact assigned ▸ argWf
  · have inserts {name : String} {op : PatchOp} {value r : List Value}
        (valueWf : (Value.set value).Wf)
        (ok : applyOp op patch (fun arg value => do
          let elems ← validateIfSet name arg
          .ok (insertElems elems value)) value = .ok r) : (Value.set r).Wf := by
      refine applyOp_keeps (P := fun vs => (Value.set vs).Wf) ok valueWf fun arg found ran => ?_
      obtain ⟨elems, valid, inserted⟩ := Except.bind_eq_ok ran
      have argWf := wf_of_findOp patchWf found
      rw [validateIfSet_ok valid, Value.Wf, Value.wfElems_iff] at argWf
      exact Except.ok.inj inserted ▸ wf_insertElems valueWf argWf.2
    obtain ⟨cleared, ran, rest⟩ := Except.bind_eq_ok rest
    have clearedWf : (Value.set cleared).Wf :=
      applyClear_keeps (P := fun vs => (Value.set vs).Wf) ran wf ⟨List.Pairwise.nil, trivial⟩
    obtain ⟨removed, ran, rest⟩ := Except.bind_eq_ok rest
    have removedWf : (Value.set removed).Wf := by
      refine applyOp_keeps (P := fun vs => (Value.set vs).Wf) ran clearedWf fun arg found ran => ?_
      obtain ⟨elems, -, erased⟩ := Except.bind_eq_ok ran
      exact Except.ok.inj erased ▸ wf_eraseElems clearedWf
    obtain ⟨added, ran, rest⟩ := Except.bind_eq_ok rest
    exact inserts (inserts removedWf ran) rest

/-! ## Maps and structs -/

section Below

variable {patch : Object} {apply : ApplyBelow patch}

/-- The patches below keep values well formed. -/
def KeepsWf (patch : Object) (apply : ApplyBelow patch) : Prop :=
  ∀ sub below v v', (Value.object sub).Wf → v.Wf → apply sub below v = .ok v' → v'.Wf

variable {op : PatchOp} {es r : List (Value × Value)} {ms : Object} {arg : Value}

theorem patchEntriesOp_wf
    (patchWf : (Value.object patch).Wf) (keeps : KeepsWf patch apply) (wf : MapWith EntryWf es)
    (ok : patchEntriesOp op patch apply es = .ok r) : MapWith EntryWf r := by
  unfold patchEntriesOp at ok
  split at ok
  · exact Except.ok.inj ok ▸ wf
  · rename_i patches found
    have patchesWf := wf_map_iff.mp (wf_of_findOp patchWf found)
    refine patchElements_keeps (fun k sub member v v' listed entry ran => ?_) wf ok
    exact ⟨entry.1, keeps sub _ v v' (patchesWf.each _ listed).2 entry.2 ran⟩
  · cases ok

theorem patchFieldsOp_wf {r : Object}
    (patchWf : (Value.object patch).Wf) (keeps : KeepsWf patch apply) (wf : MapWith FieldWf ms)
    (ok : patchFieldsOp op patch apply ms = .ok r) : MapWith FieldWf r := by
  unfold patchFieldsOp at ok
  split at ok
  · exact Except.ok.inj ok ▸ wf
  · rename_i patches found
    have patchesWf := wf_object_iff.mp (wf_of_findOp patchWf found)
    refine patchElements_keeps (fun k sub member v v' listed entry ran => ?_) wf ok
    exact keeps sub _ v v' (patchesWf.each _ listed) entry ran
  · cases ok

theorem ensureEntries_ok
    (ok : ensureEntries arg es = .ok r) : ∃ entries, arg = .map entries ∧ r = insertEntries entries es := by
  obtain ⟨entries, valid, made⟩ := Except.bind_eq_ok ok
  exact ⟨entries, validatedMap_ok valid, (Except.ok.inj made).symm⟩

theorem removeEntries_ok
    (ok : removeEntries arg es = .ok r) : ∃ keys, arg = .set keys ∧ r = eraseKeys keys es := by
  cases arg <;> simp only [removeEntries, Value.ifSet, reduceCtorEq, Except.ok.injEq] at ok
  exact ⟨_, rfl, ok.symm⟩

theorem putEntries_ok
    (ok : putEntries arg es = .ok r) : ∃ entries, arg = .map entries ∧ r = assignEntries entries es := by
  obtain ⟨entries, valid, made⟩ := Except.bind_eq_ok ok
  exact ⟨entries, validatedMap_ok valid, (Except.ok.inj made).symm⟩

/-- The three operations on entries keep a map well formed. -/
theorem entriesOp_wf
    {run : Value → List (Value × Value) → Except String (List (Value × Value))}
    (listed : run = ensureEntries ∨ run = removeEntries ∨ run = putEntries) (patchWf : (Value.object patch).Wf) (wf : MapWith EntryWf es)
    (ok : applyOp op patch run es = .ok r) : MapWith EntryWf r := by
  refine applyOp_keeps (P := MapWith EntryWf) ok wf fun arg found ran => ?_
  have argWf := wf_of_findOp patchWf found
  rcases listed with rfl | rfl | rfl
  · obtain ⟨entries, rfl, rfl⟩ := ensureEntries_ok ran
    exact wf.insertEntries (wf_map_iff.mp argWf).each
  · obtain ⟨keys, -, rfl⟩ := removeEntries_ok ran
    exact wf.eraseKeys keys
  · obtain ⟨entries, rfl, rfl⟩ := putEntries_ok ran
    exact wf.assignEntries (wf_map_iff.mp argWf).each

theorem applyMap_wf (patchWf : (Value.object patch).Wf)
    (keeps : KeepsWf patch apply) (wf : MapWith EntryWf es)
    (ok : applyMap patch apply es = .ok r) : MapWith EntryWf r := by
  obtain ⟨-, ⟨arg, found, assigned⟩ | ⟨-, rest⟩⟩ := unlessAssigned_ok ok
  · have argWf := wf_of_findOp patchWf found
    cases arg <;> simp only [Value.ifMap, reduceCtorEq, Option.some.injEq] at assigned
    exact wf_map_iff.mp (assigned ▸ argWf)
  · obtain ⟨cleared, ran, rest⟩ := Except.bind_eq_ok rest
    have clearedWf := applyClear_keeps (P := MapWith EntryWf) ran wf MapWith.nil
    obtain ⟨prior, ran, rest⟩ := Except.bind_eq_ok rest
    have priorWf := patchEntriesOp_wf patchWf keeps clearedWf ran
    obtain ⟨ensured, ran, rest⟩ := Except.bind_eq_ok rest
    have ensuredWf := entriesOp_wf (Or.inl rfl) patchWf priorWf ran
    obtain ⟨removed, ran, rest⟩ := Except.bind_eq_ok rest
    have removedWf := entriesOp_wf (Or.inr (Or.inl rfl)) patchWf ensuredWf ran
    obtain ⟨put, ran, rest⟩ := Except.bind_eq_ok rest
    have putWf := entriesOp_wf (Or.inr (Or.inr rfl)) patchWf removedWf ran
    exact patchEntriesOp_wf patchWf keeps putWf rest

theorem ensureUnion_wf {r : Object} (argWf : arg.Wf) (wf : MapWith FieldWf ms)
    (ok : ensureUnion arg ms = .ok r) : MapWith FieldWf r := by
  have single (id : Int16) (v : Value) (entry : v.Wf) : MapWith FieldWf [(id, v)] := by
    refine ⟨List.pairwise_singleton _ _, fun e member => ?_⟩
    cases List.mem_singleton.mp member
    exact entry
  cases arg <;> simp only [ensureUnion, Value.ifObject, reduceCtorEq] at ok
  rename_i obj
  have objWf := wf_object_iff.mp argWf
  match obj, ok, objWf with
  | [], ok, _ => exact Except.ok.inj ok ▸ wf
  | [(id, field)], ok, objWf =>
    simp only at ok
    split at ok
    · exact Except.ok.inj ok ▸ single id field (objWf.each _ List.mem_cons_self)
    · rename_i kept present
      exact Except.ok.inj ok ▸ single id kept (wf.each _ (mem_of_find present))
  | _ :: _ :: _, ok, _ => cases ok

theorem ensureStruct_ok {r : Object} (ok : ensureStruct arg ms = .ok r) :
    ∃ obj, arg = .object obj ∧ r = insertEntries obj ms := by
  cases arg <;> simp only [ensureStruct, Value.ifObject, reduceCtorEq, Except.ok.injEq] at ok
  exact ⟨_, rfl, ok.symm⟩

theorem removeFields_ok {r : Object} (ok : removeFields arg ms = .ok r) :
    ∃ elems ids, (arg = .set elems ∨ arg = .list elems) ∧ removedIds elems = .ok ids ∧
      r = eraseKeys ids ms := by
  unfold removeFields at ok
  obtain ⟨elems, kind, rest⟩ := Except.bind_eq_ok ok
  obtain ⟨ids, known, erased⟩ := Except.bind_eq_ok rest
  refine ⟨elems, ids, ?_, known, (Except.ok.inj erased).symm⟩
  cases arg with
  | set vs => exact Or.inl (congrArg Value.set (Except.ok.inj kind))
  | list vs => exact Or.inr (congrArg Value.list (Except.ok.inj kind))
  | _ => cases kind

/-- The three operations on fields keep an object well formed. -/
theorem fieldsOp_wf {run : Value → Object → Except String Object}
    (listed : run = ensureStruct ∨ run = ensureUnion ∨ run = removeFields) {r : Object}
    (patchWf : (Value.object patch).Wf) (wf : MapWith FieldWf ms)
    (ok : applyOp op patch run ms = .ok r) : MapWith FieldWf r := by
  refine applyOp_keeps (P := MapWith FieldWf) ok wf fun arg found ran => ?_
  have argWf := wf_of_findOp patchWf found
  rcases listed with rfl | rfl | rfl
  · obtain ⟨obj, rfl, rfl⟩ := ensureStruct_ok ran
    exact wf.insertEntries (wf_object_iff.mp argWf).each
  · exact ensureUnion_wf argWf wf ran
  · obtain ⟨elems, ids, -, -, rfl⟩ := removeFields_ok ran
    exact wf.eraseKeys ids

theorem applyStruct_wf {r : Object} (patchWf : (Value.object patch).Wf)
    (keeps : KeepsWf patch apply) (wf : MapWith FieldWf ms)
    (ok : applyStruct patch apply ms = .ok r) : MapWith FieldWf r := by
  obtain ⟨-, ⟨arg, found, assigned⟩ | ⟨-, rest⟩⟩ := unlessAssigned_ok ok
  · have argWf := wf_of_findOp patchWf found
    cases arg <;> simp only [Value.ifObject, reduceCtorEq, Option.some.injEq] at assigned
    exact wf_object_iff.mp (assigned ▸ argWf)
  · obtain ⟨cleared, ran, rest⟩ := Except.bind_eq_ok rest
    have clearedWf := applyClear_keeps (P := MapWith FieldWf) ran wf MapWith.nil
    obtain ⟨prior, ran, rest⟩ := Except.bind_eq_ok rest
    have priorWf := patchFieldsOp_wf patchWf keeps clearedWf ran
    obtain ⟨ensured, ran, rest⟩ := Except.bind_eq_ok rest
    have ensuredWf := fieldsOp_wf (Or.inl rfl) patchWf priorWf ran
    obtain ⟨united, ran, rest⟩ := Except.bind_eq_ok rest
    have unitedWf := fieldsOp_wf (Or.inr (Or.inl rfl)) patchWf ensuredWf ran
    obtain ⟨after, ran, rest⟩ := Except.bind_eq_ok rest
    have afterWf := patchFieldsOp_wf patchWf keeps unitedWf ran
    obtain ⟨removed, ran, rest⟩ := Except.bind_eq_ok rest
    have removedWf := fieldsOp_wf (Or.inr (Or.inr rfl)) patchWf afterWf ran
    split at rest
    · cases rest
    · exact Except.ok.inj rest ▸ removedWf

end Below

/-- A well-formed patch takes well-formed values to well-formed values. -/
theorem applyPatch_wf (fp : FloatArith) (patch : Object) {v v' : Value}
    (patchWf : (Value.object patch).Wf) (wf : v.Wf) (ok : applyPatch fp patch v = .ok v') :
    v'.Wf := by
  have keeps : KeepsWf patch fun sub _ v => applyPatch fp sub v := by
    intro sub below v v' subWf wf ok
    exact applyPatch_wf fp sub subWf wf ok
  unfold applyPatch at ok
  cases v with
  | list vs =>
    obtain ⟨r, ran, rfl⟩ := Except.map_eq_ok ok
    exact applyList_wf patchWf wf ran
  | set vs =>
    obtain ⟨r, ran, rfl⟩ := Except.map_eq_ok ok
    exact applySet_wf patchWf wf ran
  | map es =>
    obtain ⟨r, ran, rfl⟩ := Except.map_eq_ok ok
    exact wf_map_iff.mpr (applyMap_wf patchWf keeps (wf_map_iff.mp wf) ran)
  | object ms =>
    obtain ⟨r, ran, rfl⟩ := Except.map_eq_ok ok
    exact wf_object_iff.mpr (applyStruct_wf patchWf keeps (wf_object_iff.mp wf) ran)
  | empty => cases ok
  | _ =>
    obtain ⟨r, -, rfl⟩ := Except.map_eq_ok ok
    trivial
termination_by sizeOf patch

end FbThrift
