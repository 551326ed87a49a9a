import FbThrift.Mask.Filter
import FbThrift.Patch.Wf
import FbThrift.Protocol.MaskedRoundTrip

/-!
# Masked parsing as a filter

`parseObjectWithoutExcludedData` decides while it reads what to include.  It includes every
boolean that it comes to, and a struct or a map that the mask selects in part even when nothing
is left of it; `MaskRef::filter` does neither.  Apart from that they agree.
-/

namespace FbThrift

open Decoder SortedMap Value

/-- `parseObjectWithoutExcludedData`. -/
def Protocol.parseObjectWithoutExcludedData (p : Protocol) (maxDepth : Nat) (buf : Bytes)
    (mask : Mask) : Except String Object :=
  (p.parseMasked maxDepth false buf mask Mask.noneMask).map MaskedDecodeResult.included

/-! ## What is included -/

mutual

/-- What a masked parse includes of a value, the empty union where it includes nothing. -/
def Value.included : Value → MaskRef → Value
  | .bool b, _ => .bool b
  | .object ms, ref =>
    if ref.isAllMask then .object ms
    else if ref.isNoneMask then .empty
    else .object (includedMembers ms ref)
  | .map es, ref =>
    if ref.isAllMask then .map es
    else if ref.isNoneMask then .empty
    else .map (includedEntries es ref)
  | v, ref => if ref.isAllMask then v else if ref.isNoneMask then .empty else v

def includedMembers : List (Int16 × Value) → MaskRef → List (Int16 × Value)
  | [], _ => []
  | (id, v) :: ms, ref =>
    storeIncluded id (match ref.getField id with
        | .ok next => v.included next
        | .error _ => .empty)
      (includedMembers ms ref)

def includedEntries : List (Value × Value) → MaskRef → List (Value × Value)
  | [], _ => []
  | (k, v) :: es, ref =>
    storeIncluded k (match getKeyMaskRefByValue ref k with
        | .ok next => v.included next
        | .error _ => .empty)
      (includedEntries es ref)

end

section Stored

variable {K : Type} {walk : K → Except String MaskRef}

/-- The part of a member that is included, behind one step of a mask. -/
def includedAt (walk : K → Except String MaskRef) (e : K × Value) : Value :=
  match walk e.1 with
  | .ok next => e.2.included next
  | .error _ => .empty

theorem includedAt_of_walk {k : K} {v : Value} {next : MaskRef} (walked : walk k = .ok next) :
    includedAt walk (k, v) = v.included next := by
  rw [includedAt, walked]

variable [Keyed K]

/-- What is included of the members. -/
def includedAll (walk : K → Except String MaskRef) (ms : List (K × Value)) : List (K × Value) :=
  ms.foldr (fun e m => storeIncluded e.1 (includedAt walk e) m) []

/-- The parser stores one member after the other. -/
def storeAll (walk : K → Except String MaskRef) (ms m : List (K × Value)) : List (K × Value) :=
  ms.foldl (fun m e => storeIncluded e.1 (includedAt walk e) m) m

theorem includedMembers_eq (ms : List (Int16 × Value)) (ref : MaskRef) :
    includedMembers ms ref = includedAll ref.getField ms := by
  induction ms with
  | nil => rfl
  | cons e ms ih => exact congrArg (storeIncluded e.1 (includedAt ref.getField e)) ih

theorem includedEntries_eq (es : List (Value × Value)) (ref : MaskRef) :
    includedEntries es ref = includedAll (getKeyMaskRefByValue ref) es := by
  induction es with
  | nil => rfl
  | cons e es ih => exact congrArg (storeIncluded e.1 (includedAt (getKeyMaskRefByValue ref) e)) ih

variable {ms : List (K × Value)}

theorem find_absent {k : K} {v : Value}
    (nodup : (((k, v) :: ms).map Prod.fst).Nodup) : find k ms = none := by
  refine find_eq_none_iff.mpr fun e member same => ?_
  exact (List.nodup_cons.mp nodup).1 (List.mem_map.mpr ⟨e, member, same⟩)

theorem find_includedAll (nodup : (ms.map Prod.fst).Nodup) (k : K) : find k (includedAll walk ms) =
      (find k ms).bind fun v => (includedAt walk (k, v)).toOption := by
  induction ms with
  | nil => rfl
  | cons e ms ih =>
    obtain ⟨k', v⟩ := e
    change find k (storeIncluded k' (includedAt walk (k', v)) (includedAll walk ms)) = _
    rw [find_storeIncluded, find_cons, ih (List.nodup_cons.mp nodup).2]
    split
    next same =>
      rw [same, find_absent nodup, Option.bind_none, Option.or_none, Option.bind_some]
    next => rfl

theorem sorted_includedAll (ms : List (K × Value)) : Sorted (includedAll walk ms) := by
  induction ms with
  | nil => exact sorted_nil
  | cons e ms ih => exact sorted_storeIncluded ih

theorem find_storeAll (nodup : (ms.map Prod.fst).Nodup)
    (m : List (K × Value)) (k : K) : find k (storeAll walk ms m) =
      ((find k ms).bind fun v => (includedAt walk (k, v)).toOption).or (find k m) := by
  induction ms generalizing m with
  | nil => rfl
  | cons e ms ih =>
    obtain ⟨k', v⟩ := e
    change find k (storeAll walk ms (storeIncluded k' (includedAt walk (k', v)) m)) = _
    rw [ih (List.nodup_cons.mp nodup).2, find_storeIncluded, find_cons]
    split
    next same => rw [same, find_absent nodup, Option.bind_none, Option.none_or, Option.bind_some]
    next => rfl

theorem sorted_storeAll (ms : List (K × Value)) {m : List (K × Value)} (sorted : Sorted m) :
    Sorted (storeAll walk ms m) := by
  induction ms generalizing m with
  | nil => exact sorted
  | cons e ms ih => exact ih (sorted_storeIncluded sorted)

theorem nodup_of_sorted {V : Type} {m : List (K × V)} (sorted : Sorted m) :
    (m.map Prod.fst).Nodup := by
  rw [List.nodup_iff_pairwise_ne, List.pairwise_map]
  exact sorted.imp fun before => Keyed.before_ne before

/-- The order of the members on the wire does not matter. -/
theorem storeAll_eq (nodup : (ms.map Prod.fst).Nodup) :
    storeAll walk ms [] = includedAll walk (ofList ms) := by
  refine (sorted_storeAll ms sorted_nil).ext (sorted_includedAll _) fun k => ?_
  rw [find_storeAll nodup, find_includedAll (nodup_of_sorted (sorted_ofList ms)),
    find_ofList nodup, find_nil, Option.or_none]

end Stored

/-! ## The parser -/

section Parser

variable {p : Protocol} {maxDepth h : Nat} {ref : MaskRef}

/-- Parsing a value with a compatible mask returns what is included of it. -/
def IncludesValues (p : Protocol) (maxDepth h : Nat) : Prop :=
  ∀ {type : TType} {bs : Bytes} {v : Value} {ref : MaskRef} (pd : MaskedProtocolData),
    Encodes p h type bs v → Compatible maxDepth v ref →
    Reads (parseValueWithMaskAt p maxDepth false h type ref noneRef pd) h bs
      ⟨v.included ref, .empty, pd⟩

variable {bs : Bytes}

/-- The loop over the fields. -/
theorem EncodesFields.included {last : Int16} {ms : List (Int16 × Value)}
    (fields : EncodesFields p (Encodes p h) last bs ms) (includes : IncludesValues p maxDepth h)
    (pos : 1 ≤ h)
    (compatible : ∀ e ∈ ms, ∃ next, ref.getField e.1 = .ok next ∧ Compatible maxDepth e.2 next)
    (s : MaskedFields) : FieldsRead p h last bs (fun left => fieldsWithMask p false
        (parseValueWithMaskAt p maxDepth false h) ref noneRef left s)
      ⟨storeAll ref.getField ms s.object, s.excluded, s.protocolData⟩ := by
  induction fields generalizing s with
  | stop header =>
    refine header.fieldsRead fun r r' left begun => ?_
    rw [fieldsWithMask, Run.bind_of_ok begun]
    rfl
  | @field last id hs bs fs type v ms header encodes rest ih =>
    obtain ⟨next, walked, fitting⟩ := compatible (id, v) List.mem_cons_self
    have reads := includes s.protocolData encodes fitting
    have loop := ih (fun e member => compatible e (List.mem_cons_of_mem _ member))
      ⟨storeIncluded id (includedAt ref.getField (id, v)) s.object, s.excluded, s.protocolData⟩
    refine FieldsRead.cons bs header loop fun r mid cs left input high pending begun => ?_
    refine (fieldsWithMask_step encodes.ne_stop begun walked
      (reads r cs input high pending)).trans ?_
    rw [includedAt_of_walk walked, ← pending]
    rfl
  | @boolField last id hs fs b ms compact header rest ih =>
    obtain ⟨next, walked, fitting⟩ := compatible (id, .bool b) List.mem_cons_self
    have loop := ih (fun e member => compatible e (List.mem_cons_of_mem _ member))
      ⟨storeIncluded id (includedAt ref.getField (id, .bool b)) s.object, s.excluded,
        s.protocolData⟩
    refine FieldsRead.cons [] header loop fun r mid cs left input high pending begun => ?_
    obtain rfl : r.input = cs := input
    rw [includedAt_of_walk walked]
    exact fieldsWithMask_step (by decide) begun walked
      (parseValueWithMaskAt_of_pending compact pos pending false next s.protocolData)

/-- The loop over the entries. -/
theorem EncodesSeq.included {keyType valueType : TType} {cs : Bytes} {es : List (Value × Value)}
    (seq : EncodesSeq (EncodesPair (Encodes p h keyType) (Encodes p h valueType)) cs es)
    (includes : IncludesValues p maxDepth h)
    (compatible : ∀ e ∈ es, ∃ next, getKeyMaskRefByValue ref e.1 = .ok next ∧
      Compatible maxDepth e.2 next)
    (s : MaskedEntries) : Reads (entriesWithMask false (parseValueWithMaskAt p maxDepth false h) ref
        noneRef (parseValueAt p.reader h keyType) valueType es.length s) h cs
      ⟨storeAll (getKeyMaskRefByValue ref) es s.map, s.excluded, s.protocolData⟩ := by
  induction seq generalizing s with
  | nil => exact .pure s h
  | @cons bs cs e es pair rest ih =>
    obtain ⟨k, v⟩ := e
    obtain ⟨ks, vs, rfl, keyEncodes, valueEncodes⟩ := pair
    obtain ⟨next, walked, fitting⟩ := compatible (k, v) List.mem_cons_self
    have reads := includes s.protocolData valueEncodes fitting
    have loop := ih (fun e member => compatible e (List.mem_cons_of_mem _ member))
      ⟨storeIncluded k (includedAt (getKeyMaskRefByValue ref) (k, v)) s.map, s.excluded,
        s.protocolData⟩
    rw [List.append_assoc, List.length_cons, entriesWithMask]
    refine keyEncodes.reads.bind ?_
    rw [ReadM.ofExcept_bind walked, ReadM.ofExcept_bind (getKeyMaskRefByValue_noneRef walked)]
    refine reads.bind ?_
    have stored : storeEntry false k ⟨v.included next, .empty, s.protocolData⟩ s =
        .ok ⟨storeIncluded k (includedAt (getKeyMaskRefByValue ref) (k, v)) s.map, s.excluded,
          s.protocolData⟩ := by
      rw [includedAt_of_walk walked]
      rfl
    rw [ReadM.ofExcept_bind stored]
    exact loop

theorem isNoneMask_of_isAllMask (all : ref.isAllMask = true) : ref.isNoneMask = false := by
  obtain ⟨mask, exclusion⟩ := ref
  cases exclusion with
  | false =>
    have whole : mask.isAllMask = true := by simpa [MaskRef.isAllMask] using all
    rw [Mask.isAllMask_iff.mp whole]
    rfl
  | true =>
    have whole : mask.isNoneMask = true := by simpa [MaskRef.isAllMask] using all
    rw [Mask.isNoneMask_iff.mp whole]
    rfl

theorem included_of_all (v : Value) (all : ref.isAllMask = true) : v.included ref = v := by
  cases v <;> simp [Value.included, all]

theorem included_of_none (v : Value) (none : ref.isNoneMask = true) (all : ref.isAllMask = false)
    (notBool : v.getTType ≠ .bool) : v.included ref = .empty := by
  cases v with
  | bool => exact absurd rfl notBool
  | _ => simp [Value.included, none, all]

theorem Encodes.included_struct {v : Value} (includes : IncludesValues p maxDepth h)
    (encodes : Encodes p (h + 1) .struct bs v) (compatible : Compatible maxDepth v ref)
    (notAll : ref.isAllMask = false) (notNone : ref.isNoneMask = false)
    (pd : MaskedProtocolData) :
    Reads (do
        p.reader.readStructBegin
        let r ← get
        let s ← fieldsWithMask p false (parseValueWithMaskAt p maxDepth false h) ref noneRef
          (r.input.length + 1) ⟨[], [], pd⟩
        p.reader.readStructEnd
        pure ⟨.object s.object, s.data, s.protocolData⟩) (h + 1) bs
      (⟨v.included ref, .empty, pd⟩ : MaskedDecodeResultValue) := by
  obtain ⟨_, ms, pos, fields, nodup, rfl⟩ := encodes
  have members : CompatibleMembers maxDepth (ofList ms) ref := by
    simpa [Compatible, notAll, notNone] using compatible
  have loop := fields.included includes pos
    (fun e member => members.member (mem_ofList nodup member)) ⟨[], [], pd⟩
  have whole := loop.struct pos fun s =>
    MaskedDecodeResultValue.mk (.object s.object) s.data s.protocolData
  have left : (Value.object (ofList ms)).included ref = .object (storeAll ref.getField ms []) := by
    rw [storeAll_eq nodup, ← includedMembers_eq]
    simp [Value.included, notAll, notNone]
  rw [left]
  exact whole

theorem Encodes.included_map {v : Value} (includes : IncludesValues p maxDepth h)
    (encodes : Encodes p (h + 1) .map bs v) (compatible : Compatible maxDepth v ref)
    (notAll : ref.isAllMask = false) (notNone : ref.isNoneMask = false)
    (pd : MaskedProtocolData) :
    Reads (do
        let (keyType, valType, size) ← p.reader.readMapBegin
        let s ← entriesWithMask false (parseValueWithMaskAt p maxDepth false h) ref noneRef
          (parseValueAt p.reader h keyType) valType size ⟨[], [], pd⟩
        p.reader.readMapEnd
        pure ⟨.map s.map, s.data, s.protocolData⟩) (h + 1) bs
      (⟨v.included ref, .empty, pd⟩ : MaskedDecodeResultValue) := by
  obtain ⟨_, hs, cs, key, value, es, pos, rfl, fits, header, seq, nodup, rfl⟩ := encodes
  have entries : CompatibleEntries maxDepth (ofList es) ref := by
    simpa [Compatible, notAll, notNone] using compatible
  have loop := seq.included includes
    (fun e member => entries.member (mem_ofList nodup member)) ⟨[], [], pd⟩
  have whole := header.nest (fun header => entriesWithMask false
      (parseValueWithMaskAt p maxDepth false h) ref noneRef (parseValueAt p.reader h header.1)
      header.2.1 header.2.2 ⟨[], [], pd⟩)
    (fun s => MaskedDecodeResultValue.mk (.map s.map) s.data s.protocolData) pos loop
  have left : (Value.map (ofList es)).included ref =
      .map (storeAll (getKeyMaskRefByValue ref) es []) := by
    rw [storeAll_eq nodup, ← includedEntries_eq]
    simp [Value.included, notAll, notNone]
  rw [left]
  cases p <;> exact whole

/-- Parsing with a compatible mask returns what is included, whatever the height. -/
theorem includesValues (p : Protocol) (maxDepth h : Nat) : IncludesValues p maxDepth h := by
  induction h with
  | zero => exact fun _ encodes => encodes.elim
  | succ h ih =>
    intro type bs v ref pd encodes compatible
    have parsed := encodes.parsed
    have whole : Reads (do
          let v ← parseValueAt p.reader (h + 1) type
          pure ⟨v, .empty, pd⟩) (h + 1) bs (⟨v, .empty, pd⟩ : MaskedDecodeResultValue) :=
      encodes.reads.bind_pure fun v => MaskedDecodeResultValue.mk v .empty pd
    rw [parseValueWithMaskAt]
    split
    next bool =>
      subst bool
      obtain ⟨_, b, reads, rfl⟩ := encodes
      exact (reads.of_zero (h + 1)).bind_pure fun b =>
        MaskedDecodeResultValue.mk (.bool b) .empty pd
    next notBool =>
      rw [← parsed.typed] at notBool
      cases all : ref.isAllMask with
      | true =>
        have decision : maskDecision false ref noneRef = .parse := by
          simp [maskDecision, all]
        rw [decision, included_of_all v all]
        exact whole
      | false =>
        cases none : ref.isNoneMask with
        | true =>
          have decision : maskDecision false ref noneRef = .skip := by
            simp [maskDecision, all, none]
          rw [decision, included_of_none v none all notBool]
          have levels := compatible.skipLevels none all notBool
          exact ((skips_skip p h maxDepth).value encodes levels).bind_pure fun _ =>
            MaskedDecodeResultValue.mk .empty .empty pd
        | false =>
          have decision : maskDecision false ref noneRef = .descend := by
            simp [maskDecision, all, none]
          rw [decision]
          show Reads (if type = .struct then _ else if type = .map then _ else _) (h + 1) bs _
          split
          next struct =>
            subst struct
            exact encodes.included_struct ih compatible all none pd
          next notStruct =>
            split
            next map =>
              subst map
              exact encodes.included_map ih compatible all none pd
            next notMap =>
              have same : v.included ref = v := by
                rw [← parsed.typed] at notStruct notMap
                cases v with
                | object => exact absurd rfl notStruct
                | map => exact absurd rfl notMap
                | _ => simp [Value.included, all, none]
              rw [same]
              exact whole

end Parser

/-! ## The filter -/

mutual

/-- The mask excludes no boolean of the value where it splits it, and leaves something of every
struct and map that it splits. -/
def Value.Exact : Value → MaskRef → Prop
  | .bool _, ref => ref.isNoneMask = false
  | .object ms, ref => ref.isAllMask = true ∨ ref.isNoneMask = true ∨
      (∃ e ∈ ms, ∃ next, ref.getField e.1 = .ok next ∧ next.isNoneMask = false) ∧
        ExactMembers ms ref
  | .map es, ref => ref.isAllMask = true ∨ ref.isNoneMask = true ∨
      (∃ e ∈ es, ∃ next, getKeyMaskRefByValue ref e.1 = .ok next ∧ next.isNoneMask = false) ∧
        ExactEntries es ref
  | _, _ => True

def ExactMembers : List (Int16 × Value) → MaskRef → Prop
  | [], _ => True
  | (id, v) :: ms, ref =>
    (match ref.getField id with
      | .ok next => v.Exact next
      | .error _ => False) ∧ ExactMembers ms ref

def ExactEntries : List (Value × Value) → MaskRef → Prop
  | [], _ => True
  | (k, v) :: es, ref =>
    (match getKeyMaskRefByValue ref k with
      | .ok next => v.Exact next
      | .error _ => False) ∧ ExactEntries es ref

end

section Filter

variable {K : Type} {walk : K → Except String MaskRef} {ref : MaskRef}

/-- Every member is left exactly what is included of it. -/
def ExactAll (walk : K → Except String MaskRef) (ms : List (K × Value)) : Prop :=
  ∀ e ∈ ms, ∃ next, walk e.1 = .ok next ∧ e.2.Exact next

/-- Something of a member is left. -/
def SelectsSome (walk : K → Except String MaskRef) (ms : List (K × Value)) : Prop :=
  ∃ e ∈ ms, ∃ next, walk e.1 = .ok next ∧ next.isNoneMask = false

variable {v : Value} {ms : List (K × Value)} {es : List (Value × Value)} {out : Option Value}

theorem exact_of_walk {x : Except String MaskRef} : (match x with
      | .ok next => v.Exact next
      | .error _ => False) ↔ ∃ next, x = .ok next ∧ v.Exact next := by
  cases x with
  | ok next => simp
  | error err => simp

theorem exactMembers_iff (ms : List (Int16 × Value)) (ref : MaskRef) :
    ExactMembers ms ref ↔ ExactAll ref.getField ms := by
  induction ms with
  | nil => simp [ExactMembers, ExactAll]
  | cons e ms ih =>
    rw [ExactMembers, ih, exact_of_walk, ExactAll, ExactAll, List.forall_mem_cons]

theorem exactEntries_iff (es : List (Value × Value)) (ref : MaskRef) :
    ExactEntries es ref ↔ ExactAll (getKeyMaskRefByValue ref) es := by
  induction es with
  | nil => simp [ExactEntries, ExactAll]
  | cons e es ih =>
    rw [ExactEntries, ih, exact_of_walk, ExactAll, ExactAll, List.forall_mem_cons]

theorem included_ne_empty (present : v ≠ .empty) (exact_ : v.Exact ref) :
    v.included ref ≠ .empty ↔ ref.isNoneMask = false := by
  cases all : ref.isAllMask with
  | true =>
    rw [included_of_all v all]
    exact iff_of_true present (isNoneMask_of_isAllMask all)
  | false =>
    cases v with
    | bool b => exact iff_of_true nofun exact_
    | empty => exact absurd rfl present
    | _ => cases none : ref.isNoneMask <;> simp [Value.included, all, none]

variable [Keyed K]

/-- The members that a filter collects are those that are included if and only if the filter
leaves of each of them what is included. -/
theorem collected_eq_iff {walk' : K → Except String MaskRef} {recurse : List (K × Value)}
    (sorted : Sorted ms)
    (ok : collectM ms (fun e _ => walk' e.1 >>= fun child => child.filterImpl e.2) = .ok recurse)
    (agrees : ∀ e ∈ ms, ∀ next, walk' e.1 = .ok next → walk e.1 = .ok next)
    (each : ∀ e ∈ ms, ∀ next out, MaskRef.filterImpl next e.2 = .ok out →
      (out = (e.2.included next).toOption ↔ e.2.Exact next)) :
    recurse = includedAll walk ms ↔ ExactAll walk ms := by
  have nodup := nodup_of_sorted sorted
  have here : ∀ e ∈ ms, ∃ next, walk e.1 = .ok next ∧
      (find e.1 recurse = find e.1 (includedAll walk ms) ↔ e.2.Exact next) := by
    intro e member
    have found := sorted.mem_iff.mp member
    obtain ⟨_, yields⟩ := find_collectM_some sorted ok found
    obtain ⟨next, walked, filtered⟩ := Except.bind_eq_ok yields
    have walked := agrees e member next walked
    refine ⟨next, walked, ?_⟩
    rw [find_includedAll nodup, found, Option.bind_some, includedAt_of_walk walked]
    exact each e member next _ filtered
  constructor
  · intro same e member
    obtain ⟨next, walked, same_iff⟩ := here e member
    exact ⟨next, walked, same_iff.mp (by rw [same])⟩
  · intro exact_
    refine (sorted_collectM ok).ext (sorted_includedAll ms) fun k => ?_
    cases found : find k ms with
    | none =>
      rw [find_collectM_none ok found, find_includedAll nodup, found, Option.bind_none]
    | some v =>
      have member := sorted.mem_iff.mpr found
      obtain ⟨next, walked, same_iff⟩ := here (k, v) member
      obtain ⟨next', walked', exact_⟩ := exact_ (k, v) member
      rw [walked] at walked'
      cases walked'
      exact same_iff.mpr exact_

theorem includedAll_ne_nil (sorted : Sorted ms)
    (present : ∀ e ∈ ms, e.2 ≠ .empty) (exact_ : ExactAll walk ms) :
    includedAll walk ms ≠ [] ↔ SelectsSome walk ms := by
  have nodup := nodup_of_sorted sorted
  have stored : ∀ e ∈ ms, ∃ next, walk e.1 = .ok next ∧
      (find e.1 (includedAll walk ms) ≠ none ↔ next.isNoneMask = false) := by
    intro e member
    obtain ⟨next, walked, exact_⟩ := exact_ e member
    refine ⟨next, walked, ?_⟩
    rw [find_includedAll nodup, sorted.mem_iff.mp member, Option.bind_some,
      includedAt_of_walk walked, ← included_ne_empty (present e member) exact_]
    cases e.2.included next <;> simp [Value.toOption]
  constructor
  · intro some
    obtain ⟨⟨k, v⟩, rest, first⟩ := List.exists_cons_of_ne_nil some
    have found : find k (includedAll walk ms) ≠ none := by
      rw [first, find_cons, if_pos rfl]
      exact Option.some_ne_none v
    have known : find k ms ≠ none := by
      intro absent
      rw [find_includedAll nodup, absent] at found
      exact found rfl
    obtain ⟨w, known⟩ := Option.ne_none_iff_exists'.mp known
    have member := sorted.mem_iff.mpr known
    obtain ⟨next, walked, stored⟩ := stored (k, w) member
    exact ⟨(k, w), member, next, walked, stored.mp found⟩
  · rintro ⟨e, member, next, walked, notNone⟩ empty
    obtain ⟨next', walked', stored⟩ := stored e member
    rw [walked] at walked'
    cases walked'
    exact stored.mpr notNone (by rw [empty, find_nil])

omit [Keyed K] in
theorem serializable_member {ms : List (Int16 × Value)}
    (serializable : SerializableMembers ms) : ∀ e ∈ ms, e.2.Serializable := by
  induction ms with
  | nil => exact fun _ member => nomatch member
  | cons e ms ih => exact List.forall_mem_cons.mpr ⟨serializable.1, ih serializable.2⟩

omit [Keyed K] in
theorem serializable_entry {key value : TType}
    (serializable : SerializableEntries key value es) : ∀ e ∈ es, e.2.Serializable := by
  induction es with
  | nil => exact fun _ member => nomatch member
  | cons e es ih =>
    exact List.forall_mem_cons.mpr ⟨serializable.2.1.2, ih serializable.2.2⟩

omit [Keyed K] in
/-- The two ways to look up the mask of a key agree. -/
theorem MaskRef.getKey_ok {key : Value} {kind : ArrayKey} {next : MaskRef}
    (ok : ref.getKey key kind = .ok next) : getKeyMaskRefByValue ref key = .ok next := by
  cases kind <;> cases key <;> first | exact ok | cases ok

omit [Keyed K] in
/-- The keys of a map that is filtered are looked up in one way. -/
theorem MaskRef.filterEntries_ok {recurse : List (Value × Value)} {impl : FilterBelow es}
    (ok : ref.filterEntries es impl = .ok recurse) : ∃ kind, collectM es (fun e member =>
      ref.getKey e.1 kind >>= fun child => impl child e member) = .ok recurse := by
  have keys : ref.filterKeys es impl = .ok recurse := by
    rw [MaskRef.filterEntries] at ok
    split at ok
    · exact ok
    · exact ok
    · cases ok
  cases es with
  | nil => exact ⟨.integer, keys⟩
  | cons e es =>
    obtain ⟨kind, -, collected⟩ := Except.bind_eq_ok keys
    exact ⟨kind, collected⟩

/-- What a filter of members leaves, beside what is included of them. -/
theorem left_eq_iff {recurse : List (K × Value)} (wrap : List (K × Value) → Value)
    (wraps : ∀ m m', wrap m = wrap m' → m = m') (full : ∀ m, wrap m ≠ .empty)
    (sorted : Sorted ms) (present : ∀ e ∈ ms, e.2 ≠ .empty)
    (collected : recurse = includedAll walk ms ↔ ExactAll walk ms) :
    (if recurse.isEmpty then none else some (wrap recurse)) =
        (wrap (includedAll walk ms)).toOption ↔
      SelectsSome walk ms ∧ ExactAll walk ms := by
  rw [Value.toOption_of_ne (full _)]
  constructor
  · intro same
    by_cases none : recurse = []
    · rw [none] at same
      cases same
    · rw [if_neg (by simpa using none)] at same
      have same := wraps _ _ (Option.some.inj same)
      have exact_ := collected.mp same
      rw [same] at none
      exact ⟨(includedAll_ne_nil sorted present exact_).mp none, exact_⟩
  · rintro ⟨some, exact_⟩
    have same := collected.mpr exact_
    have nonempty := (includedAll_ne_nil sorted present exact_).mpr some
    rw [← same] at nonempty ⊢
    rw [if_neg (by simpa using nonempty)]

/-- The filter leaves of a value what is included if and only if the mask is exact for it. -/
def FilterAgrees (v : Value) : Prop :=
  ∀ (ref : MaskRef) (out : Option Value), ref.filterImpl v = .ok out →
    (out = (v.included ref).toOption ↔ v.Exact ref)

omit [Keyed K] in
/-- Values that the mask does not split. -/
theorem filterImpl_whole_eq_iff (present : v ≠ .empty)
    (whole : ref.isAllMask = true ∨ ref.isNoneMask = true)
    (ok : ref.filterImpl v = .ok out) : out = (v.included ref).toOption ↔ v.Exact ref := by
  cases all : ref.isAllMask with
  | true =>
    have notNone := isNoneMask_of_isAllMask all
    rw [MaskRef.filterImpl_of_all notNone all] at ok
    cases ok
    rw [included_of_all v all, Value.toOption_of_ne present]
    cases v <;> simp [Value.Exact, all, notNone]
  | false =>
    have none := whole.resolve_left (by simp [all])
    rw [MaskRef.filterImpl_of_none none] at ok
    cases ok
    cases v with
    | bool b => simp [Value.included, Value.Exact, Value.toOption, none]
    | _ => simp [Value.included, Value.Exact, Value.toOption, none, all]

omit [Keyed K] in
theorem filterImpl_object_eq_iff {ms : List (Int16 × Value)}
    (splits : ref.isNoneMask = false ∧ ref.isAllMask = false) (sorted : Sorted ms)
    (present : ∀ e ∈ ms, e.2 ≠ .empty) (members : ∀ e ∈ ms, FilterAgrees e.2)
    (ok : ref.filterImpl (.object ms) = .ok out) :
    out = ((Value.object ms).included ref).toOption ↔ (Value.object ms).Exact ref := by
  rw [MaskRef.filterImpl_object _ splits] at ok
  obtain ⟨recurse, filtered, rfl⟩ := Except.map_eq_ok ok
  have collected : recurse = includedAll ref.getField ms ↔ ExactAll ref.getField ms := by
    rw [MaskRef.filterFields] at filtered
    split at filtered
    · exact collected_eq_iff sorted filtered (fun _ _ _ walked => walked)
        fun e member next out filtered => members e member next out filtered
    · cases filtered
    · cases filtered
  have left := left_eq_iff Value.object (fun _ _ => Value.object.inj) (fun _ => nofun) sorted
    present collected
  simpa [Value.included, Value.Exact, splits.1, splits.2, includedMembers_eq, exactMembers_iff,
    SelectsSome] using left

omit [Keyed K] in
theorem filterImpl_map_eq_iff
    (splits : ref.isNoneMask = false ∧ ref.isAllMask = false) (sorted : Sorted es)
    (present : ∀ e ∈ es, e.2 ≠ .empty) (entries : ∀ e ∈ es, FilterAgrees e.2)
    (ok : ref.filterImpl (.map es) = .ok out) :
    out = ((Value.map es).included ref).toOption ↔ (Value.map es).Exact ref := by
  rw [MaskRef.filterImpl_map _ splits] at ok
  obtain ⟨recurse, filtered, rfl⟩ := Except.map_eq_ok ok
  obtain ⟨kind, filtered⟩ := MaskRef.filterEntries_ok filtered
  have agrees : ∀ e ∈ es, ∀ next, ref.getKey e.1 kind = .ok next →
      getKeyMaskRefByValue ref e.1 = .ok next :=
    fun _ _ _ walked => MaskRef.getKey_ok walked
  have collected : recurse = includedAll (getKeyMaskRefByValue ref) es ↔
      ExactAll (getKeyMaskRefByValue ref) es :=
    @collected_eq_iff _ _ _ _ (fun k => ref.getKey k kind) _ sorted filtered agrees
      fun e member next out filtered => entries e member next out filtered
  have left := left_eq_iff Value.map (fun _ _ => Value.map.inj) (fun _ => nofun) sorted
    present collected
  simpa [Value.included, Value.Exact, splits.1, splits.2, includedEntries_eq, exactEntries_iff,
    SelectsSome] using left

/-- The filter leaves of every value what is included if and only if the mask is exact. -/
theorem filterAgrees (wf : v.Wf) (serializable : v.Serializable) : FilterAgrees v := by
  induction size : sizeOf v using Nat.strong_induction_on generalizing v with
  | _ n ih =>
    subst size
    intro ref out ok
    by_cases whole : ref.isAllMask = true ∨ ref.isNoneMask = true
    · exact filterImpl_whole_eq_iff serializable.ne_empty whole ok
    · have splits : ref.isNoneMask = false ∧ ref.isAllMask = false := by
        simpa [and_comm] using whole
      cases v with
      | object ms =>
        obtain ⟨sorted, members⟩ := wf
        have each := serializable_member serializable
        refine filterImpl_object_eq_iff splits sorted
          (fun e member => (each e member).ne_empty) (fun e member => ?_) ok
        have below := sizeOf_lt_of_mem member
        exact ih _ (by simp only [Value.object.sizeOf_spec]; omega)
          (wfMembers_iff.mp members e member) (each e member) rfl
      | map es =>
        obtain ⟨sorted, entries⟩ := wf
        have each := serializable_entry serializable.2
        refine filterImpl_map_eq_iff splits sorted
          (fun e member => (each e member).ne_empty) (fun e member => ?_) ok
        have below := sizeOf_lt_of_mem member
        exact ih _ (by simp only [Value.map.sizeOf_spec]; omega)
          (wfEntries_iff.mp entries e member).2 (each e member) rfl
      | _ =>
        rw [MaskRef.filterImpl_other splits (by simp [Value.getTType])
          (by simp [Value.getTType])] at ok
        cases ok

end Filter

/-! ## The whole object -/

section Whole

variable {mask : Mask} {obj filtered : Object}

/-- Everything is left by a mask that selects every member. -/
theorem includedAll_of_all {walk : Int16 → Except String MaskRef} (sorted : Sorted obj)
    (present : ∀ e ∈ obj, e.2 ≠ .empty)
    (all : ∀ id, ∃ next, walk id = .ok next ∧ next.isAllMask = true) :
    includedAll walk obj = obj := by
  refine (sorted_includedAll obj).ext sorted fun id => ?_
  rw [find_includedAll (nodup_of_sorted sorted)]
  cases found : find id obj with
  | none => rfl
  | some v =>
    obtain ⟨next, walked, all⟩ := all id
    rw [Option.bind_some, includedAt_of_walk walked, included_of_all v all]
    exact Value.toOption_of_ne (present (id, v) (mem_of_find found))

/-- Nothing is left by a filter that selects no member. -/
theorem collectM_of_none {f : (e : Int16 × Value) → e ∈ obj → Except String (Option Value)}
    (none : ∀ e member, f e member = .ok none) : collectM obj f = .ok [] := by
  induction obj with
  | nil => rfl
  | cons e ms ih =>
    rw [collectM, none e List.mem_cons_self,
      ih fun e member => none e (List.mem_cons_of_mem _ member)]
    rfl

theorem filter_noneMask (obj : Object) : Mask.noneMask.filter obj = .ok [] :=
  collectM_of_none fun e _ => MaskRef.filterImpl_of_none rfl e.2

theorem collectM_of_filter (filters : mask.filter obj = .ok filtered) : collectM obj (fun e _ =>
      (⟨mask, false⟩ : MaskRef).getField e.1 >>= fun child => child.filterImpl e.2) =
        .ok filtered := by
  unfold Mask.filter MaskRef.filter MaskRef.filterFields at filters
  cases mask with
  | fields exclusive map => exact filters
  | _ => cases filters

theorem included_eq_filter_iff (wf : (Value.object obj).Wf)
    (serializable : (Value.object obj).Serializable) (filters : mask.filter obj = .ok filtered) :
    ensureObject ((Value.object obj).included ⟨mask, false⟩) = filtered ↔
      mask.isNoneMask = true ∨ ExactMembers obj ⟨mask, false⟩ := by
  obtain ⟨sorted, members⟩ := wf
  have each := serializable_member serializable
  have present : ∀ e ∈ obj, e.2 ≠ .empty := fun e member => (each e member).ne_empty
  have collected : filtered = includedAll (⟨mask, false⟩ : MaskRef).getField obj ↔
      ExactMembers obj ⟨mask, false⟩ := by
    rw [exactMembers_iff]
    exact collected_eq_iff sorted (collectM_of_filter filters) (fun _ _ _ walked => walked)
      fun e member next out filtered =>
        filterAgrees (wfMembers_iff.mp members e member) (each e member) next out filtered
  rcases Mask.eq_allMask_or_noneMask_or_isPartial mask with rfl | rfl | part
  · have whole : includedAll (⟨Mask.allMask, false⟩ : MaskRef).getField obj = obj :=
      includedAll_of_all sorted present fun id => ⟨⟨Mask.noneMask, true⟩, rfl, rfl⟩
    rw [whole] at collected
    rw [included_of_all _ rfl, eq_comm]
    simpa [ensureObject, Mask.allMask, Mask.isNoneMask] using collected
  · rw [filter_noneMask] at filters
    cases filters
    rw [included_of_none _ rfl rfl (by simp [Value.getTType])]
    exact iff_of_true rfl (.inl rfl)
  · have left : ensureObject ((Value.object obj).included ⟨mask, false⟩) =
        includedAll (⟨mask, false⟩ : MaskRef).getField obj := by
      rw [← includedMembers_eq]
      simp [Value.included, MaskRef.isAllMask, MaskRef.isNoneMask, part.1, part.2, ensureObject]
    rw [left, eq_comm, collected]
    simp [part.2]

end Whole

/-- Parsing without excluded data returns what is included of the object, which is what filtering
the parsed object leaves if and only if the mask excludes nothing but whole values that are not
booleans, and leaves something of whatever it splits. -/
theorem parseObjectWithoutExcludedData_included (p : Protocol) {maxDepth : Nat} {buf : Bytes}
    {obj : Object} {mask : Mask} (encodes : Encodes p (maxDepth + 1) .struct buf (.object obj))
    (compatible : Compatible maxDepth (.object obj) ⟨mask, false⟩) :
    p.parse maxDepth buf = .ok (obj, []) ∧
      ∃ included, p.parseObjectWithoutExcludedData maxDepth buf mask = .ok included ∧
        included = ensureObject ((Value.object obj).included ⟨mask, false⟩) ∧
        ∀ filtered, mask.filter obj = .ok filtered → (included = filtered ↔
            mask.isNoneMask = true ∨ ExactMembers obj ⟨mask, false⟩) := by
  refine ⟨Protocol.parse_of_reads encodes.reads, _, ?_, rfl, fun filtered filters => ?_⟩
  · have read := includesValues p maxDepth (maxDepth + 1) ⟨[], []⟩ encodes compatible
      (Reader.ofBytes maxDepth buf) [] (List.append_nil buf).symm (Nat.le_refl _) rfl
    unfold Protocol.parseObjectWithoutExcludedData Protocol.parseMasked
    change Except.map _ (parseValueWithMaskAt p maxDepth false (maxDepth + 1) .struct
      ⟨mask, false⟩ noneRef ⟨[], []⟩ (Reader.ofBytes maxDepth buf) >>= _) = _
    rw [read]
    rfl
  · exact included_eq_filter_iff encodes.parsed.wf encodes.parsed.serializable filters

/-- A key of a map is left out, and nothing else is included. -/
theorem parseObjectWithoutExcludedData_included_map :
    let obj : Object := [(1, .byte 1), (2, .map [(.i32 3, .binary [7]), (.i32 4, .binary [8])])]
    let mask : Mask := .includes [(2, .includesMap [(4, Mask.allMask)])]
    let buf : Bytes := [19, 1, 27, 2, 88, 6, 1, 7, 8, 1, 8, 0]
    Protocol.compact.parse 12000 buf = .ok (obj, []) ∧ ∃ included,
        Protocol.compact.parseObjectWithoutExcludedData 12000 buf mask = .ok included ∧
        included = ensureObject ((Value.object obj).included ⟨mask, false⟩) ∧
        ∀ filtered, mask.filter obj = .ok filtered → (included = filtered ↔
            mask.isNoneMask = true ∨ ExactMembers obj ⟨mask, false⟩) := by
  intro obj mask buf
  have serializable : (Value.object obj).Serializable := by
    simp [obj, Serializable, SerializableMembers, SerializableEntries, entryTypesOf, getTType]
  have wf : (Value.object obj).Wf := by
    refine ⟨by decide, trivial, ⟨by decide, ?_⟩, trivial⟩
    simp [WfEntries, Wf]
  have none : (Value.object obj).NoStrings := by
    simp [obj, NoStrings, NoStringsMembers, NoStringsEntries]
  have written : Protocol.compact.serialize 12000 obj = .ok buf := by decide +kernel
  have encodes := serialize_encoding .compact serializable (by decide) wf none written
  have compatible : Compatible 12000 (.object obj) ⟨mask, false⟩ := by
    simp [obj, mask, Compatible, CompatibleMembers, CompatibleEntries, MaskRef.getField,
      getKeyMaskRefByValue, MaskRef.getMapId, MaskRef.getMask, MaskRef.isAllMask,
      MaskRef.isNoneMask, Mask.isAllMask, Mask.isNoneMask, Mask.allMask, Mask.noneMask, find,
      skipLevels]
  exact parseObjectWithoutExcludedData_included .compact encodes compatible

/-- A boolean that is not in the mask is in the result. -/
theorem not_parseObjectWithoutExcludedData_filters :
    ¬ ∀ (p : Protocol) (buf : Bytes) (obj filtered : Object) (mask : Mask),
      Encodes p 12001 .struct buf (.object obj) → Compatible 12000 (.object obj) ⟨mask, false⟩ →
      mask.filter obj = .ok filtered →
      p.parseObjectWithoutExcludedData 12000 buf mask = .ok filtered := by
  intro filters
  let obj : Object := [(1, .bool true), (2, .byte 5)]
  let mask : Mask := .includes [(2, Mask.allMask)]
  have serializable : (Value.object obj).Serializable := by
    simp [obj, Serializable, SerializableMembers]
  have wf : (Value.object obj).Wf := ⟨by decide, trivial, trivial, trivial⟩
  have none : (Value.object obj).NoStrings := by simp [obj, NoStrings, NoStringsMembers]
  have written : Protocol.compact.serialize 12000 obj = .ok [17, 19, 5, 0] := by decide +kernel
  have encodes := serialize_encoding .compact serializable (by decide) wf none written
  have compatible : Compatible 12000 (.object obj) ⟨mask, false⟩ := by
    simp [obj, mask, Compatible, CompatibleMembers, MaskRef.getField, MaskRef.getMask,
      MaskRef.isAllMask, MaskRef.isNoneMask, Mask.isAllMask, Mask.isNoneMask, Mask.allMask,
      Mask.noneMask, find, skipLevels]
  have filtered : mask.filter obj = .ok [(2, .byte 5)] := by
    simp only [mask, obj, Mask.filter, MaskRef.filter, MaskRef.filterFields, collectM,
      MaskRef.getField, MaskRef.getMask, find]
    simp [MaskRef.filterImpl, MaskRef.isNoneMask, MaskRef.isAllMask, Mask.isAllMask,
      Mask.isNoneMask, Mask.allMask, Mask.noneMask]
    rfl
  have parsed : Protocol.compact.parseObjectWithoutExcludedData 12000 [17, 19, 5, 0] mask =
      .ok [(1, .bool true), (2, .byte 5)] := by decide +kernel
  have same := filters .compact _ obj _ mask encodes compatible filtered
  rw [parsed] at same
  cases same

end FbThrift
