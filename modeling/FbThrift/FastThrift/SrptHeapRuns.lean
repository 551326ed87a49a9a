import FbThrift.FastThrift.IndexedSrptHeap

/-!
# Every sequence of operations on a heap of streams

The heap is a finite map from streams to values, from which a value with the least key is taken.
-/

namespace FbThrift.FastThrift

namespace IndexedSrptHeap

open SrptHeap (InOrder values valuesOf_eq_nil)

variable {α : Type}

inductive Op (α : Type)
  | insert (streamId : UInt32) (value : α)
  | erase (streamId : UInt32)
  | extractMin
  /-- A value is changed through the pointer to it, and `update` is called. -/
  | change (streamId : UInt32) (f : α → α)

/-- The heap after an operation, and the value that `extractMin` returns. -/
def step (key : α → Nat) (h : IndexedSrptHeap α) : Op α → Option (IndexedSrptHeap α × Option α)
  | .insert streamId value => (h.insert key streamId value).map fun result => (result.1, none)
  | .erase streamId => (h.erase key streamId).map fun result => (result.1, none)
  | .extractMin => (h.extractMin key).map fun result => (result.1, some result.2)
  | .change streamId f => ((h.modify streamId f).update key streamId).map fun h' => (h', none)

/-- Streams are inserted that the heap does not have, and nothing is extracted where there is
nothing. -/
def Allowed (h : IndexedSrptHeap α) : Op α → Prop
  | .insert streamId _ => h.contains streamId = false
  | .extractMin => h.heap.size ≠ 0
  | _ => True

instance (h : IndexedSrptHeap α) : (op : Op α) → Decidable (Allowed h op)
  | .insert _ _ => inferInstanceAs (Decidable (_ = _))
  | .erase _ => inferInstanceAs (Decidable True)
  | .extractMin => inferInstanceAs (Decidable (_ ≠ _))
  | .change _ _ => inferInstanceAs (Decidable True)

/-- Each operation is allowed where it is called. -/
def Follows (key : α → Nat) : IndexedSrptHeap α → List (Op α) → Prop
  | _, [] => True
  | h, op :: ops => Allowed h op ∧
      match h.step key op with
      | some (h', _) => Follows key h' ops
      | none => True

instance decidableFollows (key : α → Nat) : (h : IndexedSrptHeap α) → (ops : List (Op α)) →
    Decidable (Follows key h ops)
  | _, [] => inferInstanceAs (Decidable True)
  | h, op :: ops =>
    have : Decidable (match h.step key op with
        | some (h', _) => Follows key h' ops
        | none => True) :=
      match h.step key op with
      | some (h', _) => decidableFollows key h' ops
      | none => inferInstanceAs (Decidable True)
    inferInstanceAs (Decidable (Allowed h op ∧ _))

/-- The heap after some operations, and what they return. -/
def run (key : α → Nat) (h : IndexedSrptHeap α) :
    List (Op α) → Option (IndexedSrptHeap α × List (Option α))
  | [] => some (h, [])
  | op :: ops =>
    (h.step key op).bind fun (h', out) =>
      (run key h' ops).map fun (last, outs) => (last, out :: outs)

/-- What an operation does to a finite map from streams to values. -/
inductive Does (key : α → Nat) : (Finmap fun _ : UInt32 => α) → Op α → Option α →
    (Finmap fun _ : UInt32 => α) → Prop
  | insert {s streamId value} (absent : streamId ∉ s) :
      Does key s (.insert streamId value) none (s.insert streamId value)
  | erase {s streamId} : Does key s (.erase streamId) none (s.erase streamId)
  | extractMin {s streamId value} (present : s.lookup streamId = some value)
      (least : ∀ other value', s.lookup other = some value' → key value ≤ key value') :
      Does key s .extractMin (some value) (s.erase streamId)
  | change {s streamId f value} (present : s.lookup streamId = some value) :
      Does key s (.change streamId f) none (s.insert streamId (f value))
  | changeAbsent {s streamId f} (absent : streamId ∉ s) : Does key s (.change streamId f) none s

/-- What operations do one after the other. -/
inductive AllDo (key : α → Nat) : (Finmap fun _ : UInt32 => α) → List (Op α) → List (Option α) →
    (Finmap fun _ : UInt32 => α) → Prop
  | nil {s} : AllDo key s [] [] s
  | cons {s s' s'' op out ops outs} (first : Does key s op out s')
      (rest : AllDo key s' ops outs s'') : AllDo key s (op :: ops) (out :: outs) s''

/-- The heap is in order and in step with its index, and holds each value of a finite map once. -/
structure Keeps (key : α → Nat) (h : IndexedSrptHeap α) (s : Finmap fun _ : UInt32 => α) :
    Prop where
  ordered : InOrder key h.heap
  inStep : InStep h
  entries : ∀ streamId, values h.heap streamId = (s.lookup streamId).toList

section

variable {key : α → Nat} {h h' : IndexedSrptHeap α} {s : Finmap fun _ : UInt32 => α}

theorem keeps_empty (key : α → Nat) : Keeps key ({} : IndexedSrptHeap α) ∅ where
  ordered := fun i inside => absurd inside (Nat.not_lt_zero i)
  inStep := ⟨∅, DirectStreamMap.represents_constructed .streamIdIndex none, by simp⟩
  entries := fun _ => rfl

theorem Keeps.lookup_eq_some (ok : Keeps key h s) (streamId : UInt32) (value : α) :
    s.lookup streamId = some value ↔ (⟨streamId, value⟩ : Entry α) ∈ h.heap := by
  have entries := ok.entries streamId
  constructor
  · intro present
    rw [present] at entries
    have member : value ∈ values h.heap streamId := by rw [entries]; exact List.mem_cons_self
    obtain ⟨e, listed, same⟩ := List.mem_map.mp member
    obtain ⟨inHeap, isStream⟩ := List.mem_filter.mp listed
    have isStream : e.streamId = streamId := by simpa using isStream
    rw [← isStream, ← same]
    exact Array.mem_toList_iff.mp inHeap
  · intro member
    have held := ok.inStep.distinct.values_of_mem (Array.mem_toList_iff.mpr member)
    rw [entries] at held
    exact Option.toList_eq_singleton_iff.mp held

theorem Keeps.erased (ok : Keeps key h s) (inStep : InStep h') {e : Entry α} {pos : Nat}
    (here : h.heap[pos]? = some e) (heap : h'.heap = SrptHeap.removeAt key h.heap pos) :
    Keeps key h' (s.erase e.streamId) := by
  obtain ⟨-, removed⟩ := ok.inStep.distinct.removeAt key here
  refine ⟨?_, inStep, fun id => ?_⟩
  · rw [heap]
    exact SrptHeap.removeAt_inOrder ok.ordered (Array.getElem?_eq_some_iff.mp here).1
  · rw [heap, removed]
    split
    next same => rw [same, Finmap.lookup_erase]; rfl
    next other => rw [Finmap.lookup_erase_ne other, ok.entries]

theorem Keeps.position_eq_none (ok : Keeps key h s) {streamId : UInt32} :
    position h.index streamId = none ↔ streamId ∉ s := by
  rw [← Finmap.lookup_eq_none, Option.eq_none_iff_forall_ne_some, Option.eq_none_iff_forall_ne_some]
  constructor
  · intro missing value present
    obtain ⟨pos, inside, entry⟩ :=
      Array.mem_iff_getElem.mp ((ok.lookup_eq_some streamId value).mp present)
    refine missing pos ((ok.inStep.position_eq_some streamId pos).mpr ⟨value, ?_⟩)
    rw [Array.getElem?_eq_getElem inside, entry]
  · intro absent pos known
    obtain ⟨value, here⟩ := (ok.inStep.position_eq_some streamId pos).mp known
    exact absent value ((ok.lookup_eq_some streamId value).mpr (Array.mem_of_getElem? here))

theorem Keeps.insert (ok : Keeps key h s) {streamId : UInt32} (absent : streamId ∉ s) (value : α) :
    ∃ h', h.insert key streamId value = some (h', value) ∧
      Keeps key h' (s.insert streamId value) := by
  obtain ⟨h', inserted, heap, inStep⟩ :=
    ok.inStep.insert_eq key (ok.position_eq_none.mpr absent) value
  have fresh : values h.heap streamId = [] := by
    rw [ok.entries, Finmap.lookup_eq_none.mpr absent]
    rfl
  obtain ⟨-, added⟩ := ok.inStep.distinct.insert key fresh value
  refine ⟨h', inserted, ?_, inStep, fun id => ?_⟩
  · rw [heap]
    exact SrptHeap.insert_inOrder ok.ordered streamId value
  · rw [heap, added]
    split
    next same => rw [same, Finmap.lookup_insert]; rfl
    next other => rw [Finmap.lookup_insert_of_ne s other, ok.entries]

theorem Keeps.erase (ok : Keeps key h s) (streamId : UInt32) :
    ∃ h' found, h.erase key streamId = some (h', found) ∧ Keeps key h' (s.erase streamId) := by
  obtain ⟨h', erased, heap, inStep⟩ := ok.inStep.erase_eq key streamId
  refine ⟨h', _, erased, ?_⟩
  cases found : SrptHeap.index h.heap streamId with
  | some pos =>
    obtain ⟨e, here, rfl⟩ := SrptHeap.index_eq_some found
    refine ok.erased inStep here ?_
    rw [heap, SrptHeap.erase, found]
  | none =>
    have absent := (ok.position_eq_none).mp ((ok.inStep.position_eq streamId).trans found)
    have same : s.erase streamId = s := by
      apply Finmap.ext_lookup
      intro id
      by_cases here : id = streamId
      · rw [here, Finmap.lookup_erase, Finmap.lookup_eq_none.mpr absent]
      · rw [Finmap.lookup_erase_ne here]
    have sameHeap : h'.heap = h.heap := by rw [heap, SrptHeap.erase, found]
    rw [same]
    exact ⟨by rw [sameHeap]; exact ok.ordered, inStep, by rw [sameHeap]; exact ok.entries⟩

theorem Keeps.first_le (ok : Keeps key h s) {e : Entry α} (first : h.peekMin = some e) :
    s.lookup e.streamId = some e.value ∧
      ∀ other value, s.lookup other = some value → key e.value ≤ key value := by
  refine ⟨(ok.lookup_eq_some _ _).mpr (Array.mem_of_getElem? first), fun other value present => ?_⟩
  exact ok.ordered.peekMin_le first ((ok.lookup_eq_some other value).mp present)

theorem Keeps.change (ok : Keeps key h s) {streamId : UInt32} {value : α}
    (present : s.lookup streamId = some value) (f : α → α) :
    ∃ h', (h.modify streamId f).update key streamId = some h' ∧
      Keeps key h' (s.insert streamId (f value)) := by
  obtain ⟨modified, inStep⟩ := ok.inStep.modify_eq streamId f
  obtain ⟨h', updated, heap, inStep'⟩ := inStep.update_eq key streamId
  obtain ⟨-, changed⟩ := ok.inStep.distinct.modify streamId f
  obtain ⟨-, moved⟩ := inStep.distinct.update key streamId
  refine ⟨h', updated, ?_, inStep', fun id => ?_⟩
  · obtain ⟨pos, inside, entry⟩ :=
      Array.mem_iff_getElem.mp ((ok.lookup_eq_some streamId value).mp present)
    have here : h.heap[pos]? = some ⟨streamId, value⟩ := by
      rw [Array.getElem?_eq_getElem inside, entry]
    have entries : ∀ p : Nat, (h.modify streamId f).heap[p]? = (h.heap[p]?).map fun e : Entry α =>
        if e.streamId = streamId then { e with value := f e.value } else e := by
      intro p
      rw [modified, SrptHeap.modify, Array.getElem?_map]
    have found : SrptHeap.index (h.modify streamId f).heap streamId = some pos := by
      rw [← inStep.position_eq, inStep.position_eq_some]
      exact ⟨f value, by rw [entries, here, Option.map_some, if_pos rfl]⟩
    rw [heap, SrptHeap.update, found]
    refine ok.ordered.update ?_ inside fun i other => ?_
    · rw [modified, SrptHeap.modify, Array.size_map]
    · rw [entries]
      cases there : h.heap[i]? with
      | none => rfl
      | some e =>
        have differs : e.streamId ≠ streamId := fun same =>
          other (ok.inStep.unique there here same)
        rw [Option.map_some, if_neg differs]
  · rw [heap, moved, modified, changed]
    split
    next same => rw [same, Finmap.lookup_insert, ok.entries, present]; rfl
    next other => rw [Finmap.lookup_insert_of_ne s other, ok.entries]

theorem Keeps.step (ok : Keeps key h s) {op : Op α} (allowed : Allowed h op) :
    ∃ h' out s', h.step key op = some (h', out) ∧ Does key s op out s' ∧ Keeps key h' s' := by
  cases op with
  | insert streamId value =>
    have absent : streamId ∉ s := by
      rw [← ok.position_eq_none, position, DirectStreamMap.value, Option.map_eq_none_iff]
      exact Option.isNone_iff_eq_none.mp (Option.isSome_eq_false_iff.mp allowed)
    obtain ⟨h', inserted, ok⟩ := ok.insert absent value
    exact ⟨h', none, _, by rw [IndexedSrptHeap.step, inserted]; rfl, .insert absent, ok⟩
  | erase streamId =>
    obtain ⟨h', found, erased, ok⟩ := ok.erase streamId
    exact ⟨h', none, _, by rw [IndexedSrptHeap.step, erased]; rfl, .erase, ok⟩
  | extractMin =>
    obtain ⟨e, first⟩ : ∃ e, h.heap[0]? = some e :=
      ⟨_, Array.getElem?_eq_getElem (Nat.pos_of_ne_zero allowed)⟩
    obtain ⟨h', extracted, heap, inStep⟩ := ok.inStep.extractMin_eq key first
    obtain ⟨present, least⟩ := ok.first_le first
    exact ⟨h', some e.value, _, by rw [IndexedSrptHeap.step, extracted]; rfl,
      .extractMin present least, ok.erased inStep first heap⟩
  | change streamId f =>
    cases present : s.lookup streamId with
    | some value =>
      obtain ⟨h', changed, ok⟩ := ok.change present f
      exact ⟨h', none, _, by rw [IndexedSrptHeap.step, changed]; rfl, .change present, ok⟩
    | none =>
      have absent := Finmap.lookup_eq_none.mp present
      have missing := ok.position_eq_none.mpr absent
      refine ⟨h, none, s, ?_, .changeAbsent absent, ok⟩
      rw [IndexedSrptHeap.step, modify, missing, update, missing]
      rfl

theorem Keeps.run (ok : Keeps key h s) {ops : List (Op α)} (follows : Follows key h ops) :
    ∃ h' outs s', run key h ops = some (h', outs) ∧ AllDo key s ops outs s' ∧ Keeps key h' s' := by
  induction ops generalizing h s with
  | nil => exact ⟨h, [], s, rfl, .nil, ok⟩
  | cons op ops ih =>
    obtain ⟨allowed, rest⟩ := follows
    obtain ⟨next, out, t, stepped, first, ok⟩ := ok.step allowed
    rw [stepped] at rest
    obtain ⟨h', outs, s', ran, all, ok⟩ := ih ok rest
    refine ⟨h', out :: outs, s', ?_, .cons first all, ok⟩
    rw [IndexedSrptHeap.run, stepped]
    change (IndexedSrptHeap.run key next ops).map _ = _
    rw [ran]
    rfl

end

/-- After any operations the heap is in order, its index has the positions of the streams and no
others, no stream is there twice, the entries are those that the operations leave, and the first
entry has a least key; what was extracted had a least key when it was. -/
theorem run_correct (key : α → Nat) (ops : List (Op α)) (follows : Follows key {} ops) :
    ∃ h outs s, run key {} ops = some (h, outs) ∧ AllDo key ∅ ops outs s ∧ InOrder key h.heap ∧
      (∀ streamId pos, position h.index streamId = some pos ↔
        ∃ value, h.heap[pos]? = some ⟨streamId, value⟩) ∧
      SrptHeap.Distinct h.heap ∧
      (∀ streamId value, (⟨streamId, value⟩ : Entry α) ∈ h.heap ↔ s.lookup streamId = some value) ∧
      ∀ e, h.peekMin = some e → ∀ other ∈ h.heap, key e.value ≤ key other.value := by
  obtain ⟨h, outs, s, ran, all, ok⟩ := (keeps_empty key).run follows
  exact ⟨h, outs, s, ran, all, ok.ordered, ok.inStep.position_eq_some, ok.inStep.distinct,
    fun streamId value => (ok.lookup_eq_some streamId value).symm,
    fun e first other member => ok.ordered.peekMin_le first member⟩

theorem run_correct_threeStreams : ∃ h outs s,
    run id {} [.insert 1 5, .insert 3 2, .change 1 (· - 4), .extractMin, .insert 1 9, .erase 3] =
      some (h, outs) ∧
    AllDo id ∅ [.insert 1 5, .insert 3 2, .change 1 (· - 4), .extractMin, .insert 1 9, .erase 3]
      outs s ∧ InOrder id h.heap ∧
    (∀ streamId pos, position h.index streamId = some pos ↔
      ∃ value, h.heap[pos]? = some ⟨streamId, value⟩) ∧
    SrptHeap.Distinct h.heap ∧
    (∀ streamId value, (⟨streamId, value⟩ : Entry Nat) ∈ h.heap ↔ s.lookup streamId = some value) ∧
    ∀ e, h.peekMin = some e → ∀ other ∈ h.heap, id e.value ≤ id other.value :=
  run_correct id _ (by decide +kernel)

end IndexedSrptHeap

end FbThrift.FastThrift
