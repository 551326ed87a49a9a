import FbThrift.Patch.WriteMask

/-!
# The frame law of `extractMaskFromPatch`

A clean patch changes only what its write mask selects: the value before and the value
after it agree outside of the mask, and filtering both by the reversed mask gives the same.
-/

namespace FbThrift

open SortedMap Mask

/-! ## Maps that agree key by key -/

section AgreeAll

variable {K : Type} [Keyed K] {under : K → Mask} {x y z : List (K × Value)}

/-- Two maps agree at every key, each outside of its own mask. -/
def AgreeAll (under : K → Mask) (x y : List (K × Value)) : Prop :=
  ∀ k, Agree (under k) (find k x) (find k y)

theorem AgreeAll.refl (x : List (K × Value)) : AgreeAll under x x := fun _ => .refl _ _

theorem AgreeAll.trans (first : AgreeAll under x y) (second : AgreeAll under y z) :
    AgreeAll under x z := fun k => (first k).trans (second k)

variable {k : K}

theorem agreeAll_insertOrAssign {v : Value}
    (here : Agree (under k) (find k x) (some v)) : AgreeAll under x (insertOrAssign k v x) := by
  intro k'
  rw [find_insertOrAssign]
  split
  · rename_i same
    subst same
    exact here
  · exact .refl _ _

theorem agreeAll_emplace {v : Value} (free : Free (under k)) :
    AgreeAll under x (emplace k v x) := by
  unfold emplace
  split
  · exact .refl x
  · exact agreeAll_insertOrAssign (free _ _)

theorem agreeAll_erase (free : Free (under k)) : AgreeAll under x (erase k x) := by
  intro k'
  rw [find_erase]
  split
  · rename_i same
    subst same
    exact free _ _
  · exact .refl _ _

theorem agreeAll_insertEntries {entries : List (K × Value)}
    (free : ∀ e ∈ entries, Free (under e.1)) : AgreeAll under x (insertEntries entries x) := by
  unfold insertEntries
  induction entries generalizing x with
  | nil => exact .refl x
  | cons e entries ih =>
    refine (agreeAll_emplace (free e List.mem_cons_self)).trans (ih fun e' listed => ?_)
    exact free e' (List.mem_cons_of_mem _ listed)

theorem agreeAll_assignEntries {entries : List (K × Value)}
    (free : ∀ e ∈ entries, Free (under e.1)) : AgreeAll under x (assignEntries entries x) := by
  unfold assignEntries
  induction entries generalizing x with
  | nil => exact .refl x
  | cons e entries ih =>
    refine (agreeAll_insertOrAssign (free e List.mem_cons_self _ _)).trans (ih fun e' listed => ?_)
    exact free e' (List.mem_cons_of_mem _ listed)

theorem agreeAll_eraseKeys {keys : List K} (free : ∀ k ∈ keys, Free (under k)) :
    AgreeAll under x (eraseKeys keys x) := by
  unfold eraseKeys
  induction keys generalizing x with
  | nil => exact .refl x
  | cons k keys ih =>
    refine (agreeAll_erase (free k List.mem_cons_self)).trans (ih fun k' listed => ?_)
    exact free k' (List.mem_cons_of_mem _ listed)

theorem agreeAll_patchElements {P : K × Value → Prop} {patches : List (K × Value)}
    {apply : (sub : Object) → (∃ k, (k, Value.object sub) ∈ patches) → Value → Except String Value}
    (each : ∀ k sub member v v', (k, Value.object sub) ∈ patches → P (k, v) →
      apply sub member v = .ok v' → P (k, v') ∧ Agree (under k) (some v) (some v'))
    (before : MapWith P x) (ok : patchElements patches apply x = .ok y) : AgreeAll under x y := by
  induction patches generalizing x with
  | nil =>
    cases ok
    exact .refl _
  | cons e patches ih =>
    obtain ⟨k, fieldPatch⟩ := e
    obtain ⟨x', rest, step⟩ := patchElements_cons_ok ok
    have later {x'} (before : MapWith P x') (rest : patchElements patches
        (fun sub member => apply sub (member.imp fun _ => List.mem_cons_of_mem _)) x' = .ok y) :
        AgreeAll under x' y := by
      refine ih (fun k sub member v v' listed entry ran => ?_) before rest
      exact each k sub _ v v' (List.mem_cons_of_mem _ listed) entry ran
    rcases step with ⟨-, rfl⟩ | ⟨sub, field, patched, member, rfl, present, ran, rfl⟩
    · exact later before rest
    · obtain ⟨entry, agree⟩ := each k sub member field patched List.mem_cons_self
        (before.each _ (mem_of_find present)) ran
      refine (agreeAll_insertOrAssign ?_).trans (later (before.insertOrAssign entry) rest)
      rw [present]
      exact agree

end AgreeAll

/-! ## Values that are not containers of patched values -/

section Leaves

variable {patch : Object}

variable {op : PatchOp} {valueType : ValueType}

theorem isIntrinsicDefault_of_findOp {arg : Value}
    (default : hasNonDefault patch op = false) (found : findOp patch op = some arg) :
    isIntrinsicDefault arg = true := by
  simpa [hasNonDefault, found] using default

theorem toOp_id (op : PatchOp) : toOp op.id = .ok op := by
  cases op <;> decide

theorem mem_of_checkEach {supportedOps : List PatchOp}
    (ok : checkEach valueType supportedOps patch = .ok ()) {arg : Value}
    (listed : (op.id, arg) ∈ patch) : op ∈ supportedOps := by
  induction patch with
  | nil => cases listed
  | cons e patch ih =>
    obtain ⟨id, v⟩ := e
    obtain ⟨⟨⟩, head, rest⟩ := Except.bind_eq_ok ok
    rcases List.mem_cons.mp listed with here | later
    · cases here
      obtain ⟨op', known, allowed⟩ := Except.bind_eq_ok head
      rw [toOp_id] at known
      cases known
      split at allowed
      · assumption
      · cases allowed
    · exact ih rest later

theorem findOp_eq_none {supportedOps : List PatchOp}
    (ok : checkOps patch valueType supportedOps = .ok ())
    (unsupported : op ∉ supportedOps) : findOp patch op = none := by
  obtain ⟨⟨⟩, -, each⟩ := Except.bind_eq_ok ok
  cases found : findOp patch op with
  | none => rfl
  | some arg => exact absurd (mem_of_checkEach each (mem_of_find found)) unsupported

/-- What is known of a patch that does not replace the whole value. -/
structure OpenPatch (patch : Object) : Prop where
  assign : findOp patch .assign = none
  clear : hasNonDefault patch .clear = false
  add : hasNonDefault patch .add = false
  put : putsWhole patch = false
  union : findOp patch .ensureUnion = none
  remove : removesWhole patch = false

theorem openPatch (open' : writesAll patch = false) : OpenPatch patch := by
  simp only [writesAll, Bool.or_eq_false_iff, Option.isSome_eq_false_iff,
    Option.isNone_iff_eq_none] at open'
  obtain ⟨⟨⟨⟨⟨assign, clear⟩, add⟩, put⟩, union⟩, remove⟩ := open'
  exact ⟨assign, clear, add, put, union, remove⟩

namespace OpenPatch

variable (level : OpenPatch patch)
include level

theorem rest_ok {α : Type} {valueType : ValueType} {supportedOps : List PatchOp}
    {as : Value → Option α} {rest : Except String α} {r : α}
    (ok : unlessAssigned valueType supportedOps as patch rest = .ok r) :
    checkOps patch valueType supportedOps = .ok () ∧ rest = .ok r := by
  obtain ⟨checked, ⟨arg, found, -⟩ | ⟨-, rest⟩⟩ := unlessAssigned_ok ok
  · rw [level.assign] at found
    cases found
  · exact ⟨checked, rest⟩

theorem clear_eq {α : Type} {zero value r : α} (ok : applyClear zero patch value = .ok r) :
    r = value := by
  rcases applyClear_ok ok with ⟨found, -⟩ | ⟨-, same⟩
  · cases isIntrinsicDefault_of_findOp level.clear found
  · exact same

theorem put_default {arg : Value} (found : findOp patch .put = some arg) :
    (∃ entries, arg = .map entries) ∨ isIntrinsicDefault arg = true := by
  have whole := level.put
  cases arg with
  | map entries => exact Or.inl ⟨entries, rfl⟩
  | _ =>
    refine Or.inr ?_
    simpa [putsWhole, hasMap, hasNonDefault, found] using whole

end OpenPatch

/-- `applyNumericPatch` when nothing is written: adding a zero is all it can do. -/
theorem applyNumericPatch_eq {α β : Type} {as : Value → Option α} {zero : α}
    {add : α → α → α} {value r : α} (level : OpenPatch patch)
    (canon : α → β) (addZero : ∀ arg a, isIntrinsicDefault arg = true → as arg = some a →
      canon (add value a) = canon value)
    (ok : applyNumericPatch valueType as zero add patch value = .ok r) : canon r = canon value := by
  obtain ⟨-, rest⟩ := level.rest_ok ok
  obtain ⟨cleared, clear, rest⟩ := Except.bind_eq_ok rest
  cases level.clear_eq clear
  rcases applyOp_ok rest with ⟨-, rfl⟩ | ⟨arg, found, ran⟩
  · rfl
  · obtain ⟨a, known, made⟩ := Except.bind_eq_ok ran
    cases made
    exact addZero arg a (isIntrinsicDefault_of_findOp level.add found) (argAs_ok known)

theorem agree_numeric {α : Type} {as : Value → Option α} {zero : α}
    {add : α → α → α} {value : α} {wrap : α → Value} {mask : Mask} {v' : Value}
    (level : OpenPatch patch)
    (addZero : ∀ arg a, isIntrinsicDefault arg = true → as arg = some a →
      (wrap (add value a)).canon = (wrap value).canon)
    (ok : (applyNumericPatch valueType as zero add patch value).map wrap = .ok v') :
    Agree mask (some (wrap value)) (some v') := by
  obtain ⟨r, ran, rfl⟩ := Except.map_eq_ok ok
  have same := applyNumericPatch_eq level (fun a => (wrap a).canon) addZero ran
  exact .same (congrArg some same.symm)

theorem addSaturating_zero (lowest highest lhs : Int) :
    addSaturating lowest highest lhs 0 = lhs := by
  simp [addSaturating]

theorem applyBool_eq {value r : Bool} (level : OpenPatch patch) (ok : applyBool patch value = .ok r) :
    r = value := by
  obtain ⟨-, rest⟩ := level.rest_ok ok
  obtain ⟨cleared, clear, rest⟩ := Except.bind_eq_ok rest
  have same : cleared = value := by
    rcases applyOp_ok clear with ⟨-, same⟩ | ⟨arg, found, ran⟩
    · exact same
    · obtain ⟨b, known, made⟩ := Except.bind_eq_ok ran
      have default := isIntrinsicDefault_of_findOp level.clear found
      cases arg <;> simp [Value.asBool, isIntrinsicDefault] at known default
      subst known default
      exact (Except.ok.inj made).symm
  rcases applyOp_ok rest with ⟨-, rfl⟩ | ⟨arg, found, ran⟩
  · exact same
  · obtain ⟨b, known, made⟩ := Except.bind_eq_ok ran
    have known := argAs_ok known
    rcases level.put_default found with ⟨entries, rfl⟩ | default
    · cases known
    · cases arg <;> simp [Value.ifBool, isIntrinsicDefault] at known default
      subst known default
      exact (Except.ok.inj made).symm.trans same

theorem applyBinary_eq {value r : Bytes} (level : OpenPatch patch)
    (ok : applyBinary patch value = .ok r) : r = value := by
  obtain ⟨-, rest⟩ := level.rest_ok ok
  obtain ⟨cleared, clear, rest⟩ := Except.bind_eq_ok rest
  cases level.clear_eq clear
  obtain ⟨prepended, add, rest⟩ := Except.bind_eq_ok rest
  have same : prepended = value := by
    rcases applyOp_ok add with ⟨-, same⟩ | ⟨arg, found, ran⟩
    · exact same
    · obtain ⟨s, known, made⟩ := Except.bind_eq_ok ran
      have known := argAs_ok known
      have default := isIntrinsicDefault_of_findOp level.add found
      cases arg <;> simp [Value.ifBinary, isIntrinsicDefault] at known default
      subst known default
      exact (Except.ok.inj made).symm
  rcases applyOp_ok rest with ⟨-, rfl⟩ | ⟨arg, found, ran⟩
  · exact same
  · obtain ⟨s, known, made⟩ := Except.bind_eq_ok ran
    have known := argAs_ok known
    rcases level.put_default found with ⟨entries, rfl⟩ | default
    · cases known
    · cases arg <;> simp [Value.ifBinary, isIntrinsicDefault] at known default
      subst known default
      rw [← Except.ok.inj made, List.append_nil, same]

theorem applyList_eq {value r : List Value} (level : OpenPatch patch)
    (ok : applyList patch value = .ok r) : r = value := by
  obtain ⟨-, rest⟩ := level.rest_ok ok
  obtain ⟨cleared, clear, rest⟩ := Except.bind_eq_ok rest
  cases level.clear_eq clear
  rcases applyOp_ok rest with ⟨-, rfl⟩ | ⟨arg, found, ran⟩
  · rfl
  · rcases level.put_default found with ⟨entries, rfl⟩ | default
    · cases ran
    · cases arg <;> simp [Value.ifList, isIntrinsicDefault] at ran default
      rw [← ran, default, List.append_nil]

theorem applySet_eq {value r : List Value} (level : OpenPatch patch)
    (ok : applySet patch value = .ok r) : r = value := by
  obtain ⟨checked, rest⟩ := level.rest_ok ok
  have prior : findOp patch .patchPrior = none := findOp_eq_none checked (by decide)
  have after : findOp patch .patchAfter = none := findOp_eq_none checked (by decide)
  have ensure : findOp patch .ensureStruct = none := findOp_eq_none checked (by decide)
  obtain ⟨cleared, clear, rest⟩ := Except.bind_eq_ok rest
  cases level.clear_eq clear
  obtain ⟨removed, remove, rest⟩ := Except.bind_eq_ok rest
  obtain ⟨added, add, put⟩ := Except.bind_eq_ok rest
  have addSame : added = removed := by
    rcases applyOp_ok add with ⟨-, same⟩ | ⟨arg, found, ran⟩
    · exact same
    · obtain ⟨elems, known, made⟩ := Except.bind_eq_ok ran
      cases validateIfSet_ok known
      have default := isIntrinsicDefault_of_findOp level.add found
      simp [isIntrinsicDefault] at default
      subst default
      exact (Except.ok.inj made).symm
  have putSame : r = added ∧ hasMap patch .put = false := by
    rcases applyOp_ok put with ⟨absent, same⟩ | ⟨arg, found, ran⟩
    · exact ⟨same, by rw [hasMap, absent]⟩
    · obtain ⟨elems, known, made⟩ := Except.bind_eq_ok ran
      cases validateIfSet_ok known
      rcases level.put_default found with ⟨entries, impossible⟩ | default
      · cases impossible
      · simp [isIntrinsicDefault] at default
        subst default
        exact ⟨(Except.ok.inj made).symm, by rw [hasMap, found]⟩
  have notMap : isMapPatch patch = false := by
    rw [isMapPatch, putSame.2]
    simp [hasMap, prior, after, ensure]
  have removeSame : removed = value := by
    rcases applyOp_ok remove with ⟨-, same⟩ | ⟨arg, found, ran⟩
    · exact same
    · obtain ⟨elems, known, made⟩ := Except.bind_eq_ok ran
      cases validateIfSet_ok known
      have default := level.remove
      simp [removesWhole, found, hasNonDefault, notMap, isIntrinsicDefault] at default
      subst default
      exact (Except.ok.inj made).symm
  rw [putSame.1, addSame, removeSame]

end Leaves

/-! ## One level -/

section Level

variable {patch : Object} {apply : ApplyBelow patch} {write : Mask}

/-- A patch below changes what the write mask selects at its step. -/
def FramesBelow (patch : Object) (apply : ApplyBelow patch) : Prop :=
  ∀ sub below v v' masks, Clean sub → (Value.object sub).Wf → v.Wf →
    extractMaskFromPatch sub = .ok masks → apply sub below v = .ok v' →
    Agree masks.write (some v) (some v')

theorem Selects.agree (selects : Selects patch write) (frames : FramesBelow patch apply)
    {step : PathStep} {sub : Object} (member : (step, sub) ∈ nested patch)
    (subWf : (Value.object sub).Wf) {v v' : Value} (wf : v.Wf) {below : sizeOf sub < sizeOf patch}
    (ran : apply sub below v = .ok v') : Agree (write.under step) (some v) (some v') := by
  rcases selects.below step sub member with free | ⟨clean, masks, extracted, within⟩
  · exact free _ _
  · exact within _ _ (frames sub below v v' masks clean subWf wf extracted ran)

variable {op : PatchOp}

theorem agree_patchFieldsOp (listed : op = .patchPrior ∨ op = .patchAfter)
    (selects : Selects patch write) (frames : FramesBelow patch apply)
    (keeps : KeepsWf patch apply) (patchWf : (Value.object patch).Wf) {x y : Object}
    (wf : MapWith FieldWf x) (ok : patchFieldsOp op patch apply x = .ok y) :
    AgreeAll (fun id => write.under (.field id)) x y := by
  unfold patchFieldsOp at ok
  split at ok
  · cases ok
    exact .refl _
  · rename_i patches found
    have patchesWf := wf_object_iff.mp (wf_of_findOp patchWf found)
    refine agreeAll_patchElements (fun id sub member v v' inPatches entry ran => ?_) wf ok
    have subWf : (Value.object sub).Wf := patchesWf.each _ inPatches
    refine ⟨keeps sub _ v v' subWf entry ran, selects.agree frames ?_ subWf entry ran⟩
    have here : (PathStep.field id, sub) ∈ nestedAt patch op := by
      simp only [nestedAt, found, subpatches]
      exact List.mem_filterMap.mpr ⟨_, inPatches, rfl⟩
    rcases listed with rfl | rfl
    · exact List.mem_append_left _ here
    · exact List.mem_append_right _ here
  · cases ok

theorem agree_patchEntriesOp (listed : op = .patchPrior ∨ op = .patchAfter)
    (selects : Selects patch write) (frames : FramesBelow patch apply)
    (keeps : KeepsWf patch apply) (known : KnownKeys patch) (patchWf : (Value.object patch).Wf)
    {x y : List (Value × Value)} (wf : MapWith EntryWf x)
    (ok : patchEntriesOp op patch apply x = .ok y) : AgreeAll write.underKey x y := by
  unfold patchEntriesOp at ok
  split at ok
  · cases ok
    exact .refl _
  · rename_i patches found
    have patchesWf := wf_map_iff.mp (wf_of_findOp patchWf found)
    refine agreeAll_patchElements (fun k sub member v v' inPatches entry ran => ?_) wf ok
    have subWf : (Value.object sub).Wf := (patchesWf.each _ inPatches).2
    refine ⟨⟨entry.1, keeps sub _ v v' subWf entry.2 ran⟩, ?_⟩
    have inKeys : k ∈ patches.map Prod.fst := List.mem_map_of_mem inPatches
    obtain ⟨step, isStep⟩ : ∃ step, stepOf k = some step := by
      rcases listed with rfl | rfl
      · exact known.prior patches found k inKeys
      · exact known.after patches found k inKeys
    have here : (step, sub) ∈ nestedAt patch op := by
      simp only [nestedAt, found, subpatches]
      refine List.mem_filterMap.mpr ⟨_, inPatches, ?_⟩
      simp [isStep, Value.ifObject]
    rw [underKey, isStep]
    refine selects.agree frames ?_ subWf entry.2 ran
    rcases listed with rfl | rfl
    · exact List.mem_append_left _ here
    · exact List.mem_append_right _ here
  · cases ok

theorem free_underKey {keys : List Value} (known : Known keys)
    (free : ∀ step ∈ keySteps keys, Free (write.under step)) :
    ∀ key ∈ keys, Free (write.underKey key) := by
  intro key listed
  obtain ⟨step, isStep⟩ := known key listed
  rw [underKey, isStep]
  exact free step (List.mem_filterMap.mpr ⟨key, listed, isStep⟩)

theorem agree_applyMap (level : OpenPatch patch) (selects : Selects patch write)
    (frames : FramesBelow patch apply) (keeps : KeepsWf patch apply) (known : KnownKeys patch)
    (patchWf : (Value.object patch).Wf) {x y : List (Value × Value)} (wf : MapWith EntryWf x)
    (ok : applyMap patch apply x = .ok y) : AgreeAll write.underKey x y := by
  obtain ⟨-, rest⟩ := level.rest_ok ok
  obtain ⟨cleared, clear, rest⟩ := Except.bind_eq_ok rest
  cases level.clear_eq clear
  obtain ⟨prior, ran, rest⟩ := Except.bind_eq_ok rest
  have priorWf := patchEntriesOp_wf patchWf keeps wf ran
  have priorAgree := agree_patchEntriesOp (Or.inl rfl) selects frames keeps known patchWf wf ran
  obtain ⟨ensured, ran, rest⟩ := Except.bind_eq_ok rest
  have ensuredWf := entriesOp_wf (Or.inl rfl) patchWf priorWf ran
  have ensuredAgree : AgreeAll write.underKey prior ensured := by
    refine applyOp_keeps (P := AgreeAll write.underKey prior) ran (.refl _) fun arg found ran => ?_
    obtain ⟨entries, rfl, rfl⟩ := ensureEntries_ok ran
    have free := free_underKey (known.ensure entries found) fun step listed =>
      selects.wholes step (List.mem_append_left _ (by rw [ensureSteps, found]; exact listed))
    exact agreeAll_insertEntries fun e listed => free e.1 (List.mem_map_of_mem listed)
  obtain ⟨removed, ran, rest⟩ := Except.bind_eq_ok rest
  have removedWf := entriesOp_wf (Or.inr (Or.inl rfl)) patchWf ensuredWf ran
  have removedAgree : AgreeAll write.underKey ensured removed := by
    refine applyOp_keeps (P := AgreeAll write.underKey ensured) ran (.refl _) fun arg found ran => ?_
    obtain ⟨keys, rfl, rfl⟩ := removeEntries_ok ran
    exact agreeAll_eraseKeys <| free_underKey (known.remove keys found) fun step listed =>
      selects.wholes step (List.mem_append_right _ (by rw [removeSteps, found]; exact listed))
  obtain ⟨put, ran, rest⟩ := Except.bind_eq_ok rest
  have putWf := entriesOp_wf (Or.inr (Or.inr rfl)) patchWf removedWf ran
  have putAgree : AgreeAll write.underKey removed put := by
    refine applyOp_keeps (P := AgreeAll write.underKey removed) ran (.refl _) fun arg found ran => ?_
    obtain ⟨entries, rfl, rfl⟩ := putEntries_ok ran
    have free := free_underKey (known.put entries found) fun step listed =>
      selects.puts step (by rw [putSteps, found]; exact listed)
    exact agreeAll_assignEntries fun e listed => free e.1 (List.mem_map_of_mem listed)
  have afterAgree := agree_patchEntriesOp (Or.inr rfl) selects frames keeps known patchWf putWf rest
  exact (((priorAgree.trans ensuredAgree).trans removedAgree).trans putAgree).trans afterAgree

theorem removedIds_ok {elems : List Value} {ids : List Int16} (ok : removedIds elems = .ok ids)
    {id : Int16} (listed : id ∈ ids) : Value.i16 id ∈ elems := by
  induction elems generalizing ids with
  | nil =>
    cases ok
    cases listed
  | cons v elems ih =>
    cases v with
    | i16 id' =>
      obtain ⟨later, rest, made⟩ := Except.bind_eq_ok ok
      cases made
      rcases List.mem_cons.mp listed with rfl | listed
      · exact List.mem_cons_self
      · exact List.mem_cons_of_mem _ (ih rest listed)
    | _ => cases ok

theorem free_removed (level : OpenPatch patch) (selects : Selects patch write)
    (struct : isMapPatch patch = false) {arg : Value} (found : findOp patch .remove = some arg)
    {elems : List Value} (kind : arg = .set elems ∨ arg = .list elems) {ids : List Int16}
    (known : removedIds elems = .ok ids) : ∀ id ∈ ids, Free (write.under (.field id)) := by
  intro id listed
  have member := removedIds_ok known listed
  rcases kind with rfl | rfl
  · have default := level.remove
    simp [removesWhole, found, hasNonDefault, struct, isIntrinsicDefault] at default
    subst default
    cases member
  · refine selects.wholes _ (List.mem_append_right _ ?_)
    rw [removeSteps, found]
    exact List.mem_filterMap.mpr ⟨_, member, rfl⟩

theorem hasMap_of_patchFieldsOp {x y : Object}
    (ok : patchFieldsOp op patch apply x = .ok y) : hasMap patch op = false := by
  unfold patchFieldsOp at ok
  split at ok
  · rename_i found
    rw [hasMap, found]
  · rename_i found
    rw [hasMap, found]
  · cases ok

theorem agree_applyStruct (level : OpenPatch patch) (selects : Selects patch write)
    (frames : FramesBelow patch apply) (keeps : KeepsWf patch apply)
    (patchWf : (Value.object patch).Wf) {x y : Object} (wf : MapWith FieldWf x)
    (ok : applyStruct patch apply x = .ok y) :
    AgreeAll (fun id => write.under (.field id)) x y := by
  obtain ⟨checked, rest⟩ := level.rest_ok ok
  obtain ⟨cleared, clear, rest⟩ := Except.bind_eq_ok rest
  cases level.clear_eq clear
  obtain ⟨prior, ran₁, rest⟩ := Except.bind_eq_ok rest
  have priorWf := patchFieldsOp_wf patchWf keeps wf ran₁
  have priorAgree := agree_patchFieldsOp (Or.inl rfl) selects frames keeps patchWf wf ran₁
  obtain ⟨ensured, ran₂, rest⟩ := Except.bind_eq_ok rest
  have ensuredWf := fieldsOp_wf (Or.inl rfl) patchWf priorWf ran₂
  have ensuredAgree : AgreeAll (fun id => write.under (.field id)) prior ensured := by
    refine applyOp_keeps (P := AgreeAll _ prior) ran₂ (.refl _) fun arg found ran => ?_
    obtain ⟨obj, rfl, rfl⟩ := ensureStruct_ok ran
    refine agreeAll_insertEntries fun e listed => selects.wholes _ (List.mem_append_left _ ?_)
    rw [ensureSteps, found]
    exact List.mem_map_of_mem (f := fun e => PathStep.field e.1) listed
  obtain ⟨united, ran₃, rest⟩ := Except.bind_eq_ok rest
  have same : united = ensured := by
    rcases applyOp_ok ran₃ with ⟨-, same⟩ | ⟨arg, found, -⟩
    · exact same
    · rw [level.union] at found
      cases found
  rw [same] at rest
  obtain ⟨after, ran₄, rest⟩ := Except.bind_eq_ok rest
  have afterAgree := agree_patchFieldsOp (Or.inr rfl) selects frames keeps patchWf ensuredWf ran₄
  obtain ⟨removed, ran₅, rest⟩ := Except.bind_eq_ok rest
  have put : findOp patch .put = none := findOp_eq_none checked (by decide)
  have ensure : hasMap patch .ensureStruct = false := by
    rcases applyOp_ok ran₂ with ⟨absent, -⟩ | ⟨arg, found, ran⟩
    · rw [hasMap, absent]
    · obtain ⟨obj, rfl, -⟩ := ensureStruct_ok ran
      rw [hasMap, found]
  have struct : isMapPatch patch = false := by
    rw [isMapPatch, hasMap_of_patchFieldsOp ran₁, hasMap_of_patchFieldsOp ran₄, ensure, hasMap, put]
    rfl
  have removedAgree : AgreeAll (fun id => write.under (.field id)) after removed := by
    refine applyOp_keeps (P := AgreeAll _ after) ran₅ (.refl _) fun arg found ran => ?_
    obtain ⟨elems, ids, kind, known, rfl⟩ := removeFields_ok ran
    exact agreeAll_eraseKeys (free_removed level selects struct found kind known)
  split at rest
  · cases rest
  · cases rest
    exact ((priorAgree.trans ensuredAgree).trans afterAgree).trans removedAgree

end Level

/-! ## The law -/

theorem agree_applyPatch (fp : FloatArith) (patch : Object) (clean : Clean patch)
    (patchWf : (Value.object patch).Wf) {v v' : Value} (wf : v.Wf)
    {masks : ExtractedMasksFromPatch} (extracted : extractMaskFromPatch patch = .ok masks)
    (ok : applyPatch fp patch v = .ok v') : Agree masks.write (some v) (some v') := by
  cases all : writesAll patch with
  | true => exact write_of_writesAll all extracted ▸ .all _ _
  | false =>
    have level := openPatch all
    have selects := selects_of_clean clean all extracted
    have known := knownKeys_of_extract all extracted
    have keeps : KeepsWf patch fun sub _ v => applyPatch fp sub v :=
      fun sub _ v v' subWf wf ok => applyPatch_wf fp sub subWf wf ok
    have frames : FramesBelow patch fun sub _ v => applyPatch fp sub v :=
      fun sub below v v' masks clean subWf wf extracted ok =>
        agree_applyPatch fp sub clean subWf wf extracted ok
    have result := applyPatch_wf fp patch patchWf wf ok
    unfold applyPatch at ok
    cases v with
    | map es =>
      obtain ⟨r, ran, rfl⟩ := Except.map_eq_ok ok
      have wf := wf_map_iff.mp wf
      exact .map wf.sorted (wf_map_iff.mp result).sorted
        (agree_applyMap level selects frames keeps known patchWf wf ran)
    | object ms =>
      obtain ⟨r, ran, rfl⟩ := Except.map_eq_ok ok
      have wf := wf_object_iff.mp wf
      exact .object wf.sorted (wf_object_iff.mp result).sorted
        (agree_applyStruct level selects frames keeps patchWf wf ran)
    | list vs =>
      obtain ⟨r, ran, rfl⟩ := Except.map_eq_ok ok
      exact applyList_eq level ran ▸ .refl _ _
    | set vs =>
      obtain ⟨r, ran, rfl⟩ := Except.map_eq_ok ok
      exact applySet_eq level ran ▸ .refl _ _
    | bool b =>
      obtain ⟨r, ran, rfl⟩ := Except.map_eq_ok ok
      exact applyBool_eq level ran ▸ .refl _ _
    | string s =>
      obtain ⟨r, ran, rfl⟩ := Except.map_eq_ok ok
      exact applyBinary_eq level ran ▸ .refl _ _
    | binary s =>
      obtain ⟨r, ran, rfl⟩ := Except.map_eq_ok ok
      exact applyBinary_eq level ran ▸ .refl _ _
    | byte n =>
      refine agree_numeric level (fun arg a default known => ?_) ok
      cases arg <;> simp [Value.ifByte, isIntrinsicDefault] at known default
      subst known default
      show Value.byte (Int8.ofInt (addSaturating _ _ n.toInt 0)) = _
      rw [addSaturating_zero, Int8.ofInt_toInt]
      rfl
    | i16 n =>
      refine agree_numeric level (fun arg a default known => ?_) ok
      cases arg <;> simp [Value.ifI16, isIntrinsicDefault] at known default
      subst known default
      show Value.i16 (Int16.ofInt (addSaturating _ _ n.toInt 0)) = _
      rw [addSaturating_zero, Int16.ofInt_toInt]
      rfl
    | i32 n =>
      refine agree_numeric level (fun arg a default known => ?_) ok
      cases arg <;> simp [Value.ifI32, isIntrinsicDefault] at known default
      subst known default
      show Value.i32 (Int32.ofInt (addSaturating _ _ n.toInt 0)) = _
      rw [addSaturating_zero, Int32.ofInt_toInt]
      rfl
    | i64 n =>
      refine agree_numeric level (fun arg a default known => ?_) ok
      cases arg <;> simp [Value.ifI64, isIntrinsicDefault] at known default
      subst known default
      show Value.i64 (Int64.ofInt (addSaturating _ _ n.toInt 0)) = _
      rw [addSaturating_zero, Int64.ofInt_toInt]
      rfl
    | float n =>
      refine agree_numeric level (fun arg a default known => ?_) ok
      cases arg <;> simp [Value.ifFloat, isIntrinsicDefault] at known default
      subst known
      exact congrArg Value.float (fp.addFloat_zero n _ default)
    | double n =>
      refine agree_numeric level (fun arg a default known => ?_) ok
      cases arg <;> simp [Value.ifDouble, isIntrinsicDefault] at known default
      subst known
      exact congrArg Value.double (fp.addDouble_zero n _ default)
    | empty => cases ok
termination_by sizeOf patch

/-- Frame law: every field or map-key path at which an object and its patched version differ
is covered by the write mask, that is, the reversed write mask filters both alike.  A filter
that throws has no result on either side. -/
theorem filter_applyPatch (fp : FloatArith) (patch obj obj' : Object)
    (patchWf : (Value.object patch).Wf) (objWf : (Value.object obj).Wf) (clean : Clean patch)
    {masks : ExtractedMasksFromPatch} (extracted : extractMaskFromPatch patch = .ok masks)
    (ok : applyPatch fp patch (.object obj) = .ok (.object obj')) :
    ∃ reversed, masks.write.reverseMask = .ok reversed ∧
      (reversed.filter obj).toOption.map Value.canonMembers =
        (reversed.filter obj').toOption.map Value.canonMembers := by
  have agree := agree_applyPatch fp patch clean patchWf objWf extracted ok
  have inclusive := inclusive_write patch extracted
  have result := applyPatch_wf fp patch patchWf objWf ok
  refine ⟨masks.write.rev, inclusive.reverseMask, ?_⟩
  exact agree.filter_eq inclusive (wf_object_iff.mp objWf).sorted (wf_object_iff.mp result).sorted

/-- Arithmetic for patches that add no floating point numbers but zeros. -/
def zeroArith : FloatArith where
  addFloat x _ := x
  addDouble x _ := x
  addFloat_zero _ _ _ := rfl
  addDouble_zero _ _ _ := rfl

/-- A patch of the field 5 in the field 1. -/
def nestedPatch : Object :=
  [(3, .object [(1, .object [(3, .object [(5, .object [(1, .i32 1)])])])])]

theorem clean_nestedPatch : Clean nestedPatch := by
  have assigns : Clean [(1, .i32 1)] := .whole rfl
  have inner : Clean [(3, .object [(5, .object [(1, .i32 1)])])] := by
    refine .level .field nofun ?_ nofun ?_
    · rintro step sub (_ | ⟨_, ⟨⟩⟩)
      exact Or.inr rfl
    · rintro step sub (_ | ⟨_, ⟨⟩⟩) _
      exact assigns
  refine .level .field nofun ?_ nofun ?_
  · rintro step sub (_ | ⟨_, ⟨⟩⟩)
    exact Or.inr rfl
  · rintro step sub (_ | ⟨_, ⟨⟩⟩) _
    exact inner

theorem filter_applyPatch_at : let obj : Object := [(1, .object [(5, .i32 0), (9, .i32 1)])]
    let obj' : Object := [(1, .object [(5, .i32 1), (9, .i32 1)])]
    let write : Mask := .includes [(1, .includes [(5, allMask)])]
    applyPatch zeroArith nestedPatch (.object obj) = .ok (.object obj') ∧
      extractMaskFromPatch nestedPatch = .ok ⟨write, write⟩ ∧
      ∃ reversed, write.reverseMask = .ok reversed ∧
        (reversed.filter obj).toOption.map Value.canonMembers =
          (reversed.filter obj').toOption.map Value.canonMembers := by
  intro obj obj' write
  have patchWf : (Value.object nestedPatch).Wf :=
    ⟨by decide, ⟨by decide, ⟨by decide, ⟨by decide, ⟨by decide, trivial, trivial⟩, trivial⟩, trivial⟩,
      trivial⟩, trivial⟩
  have objWf : (Value.object obj).Wf :=
    ⟨by decide, ⟨by decide, trivial, trivial, trivial⟩, trivial⟩
  have ran : applyPatch zeroArith nestedPatch (.object obj) = .ok (.object obj') := by
    decide +kernel
  have extracted : extractMaskFromPatch nestedPatch = .ok ⟨write, write⟩ := by decide +kernel
  exact ⟨ran, extracted, filter_applyPatch zeroArith nestedPatch obj obj' patchWf objWf
    clean_nestedPatch extracted ran⟩

/-- A field that is both patched in part and removed: the write mask selects only the part,
although the whole field is gone. -/
theorem removed_part_not_covered :
    let patch : Object := [(3, .object [(1, .object [(3, .object [(5, .object [(1, .i32 1)])])])]),
      (7, .list [.i16 1])]
    let obj : Object := [(1, .object [(9, .i32 1)])]
    let write : Mask := .includes [(1, .includes [(5, allMask)])]
    ∃ reversed, applyPatch zeroArith patch (.object obj) = .ok (.object []) ∧
      extractMaskFromPatch patch = .ok ⟨write, write⟩ ∧
      write.reverseMask = .ok reversed ∧
      reversed.filter obj = .ok obj ∧ reversed.filter [] = .ok [] ∧
      (reversed.filter obj).toOption.map Value.canonMembers ≠
        (reversed.filter []).toOption.map Value.canonMembers := by
  refine ⟨.excludes [(1, .includes [(5, allMask)])], ?_⟩
  decide +kernel

end FbThrift
