import FbThrift.Protocol.Restore

/-!
# Masked parsing loses nothing

`parseObject(buf, mask)` splits an encoding into what it parses and what it stores, and
`serializeObject` puts the two halves together again.  The induction is on the height of
the encoding; it carries that the tables only grow, so that what was stored early is still
found in the final tables, and that they grow by less than the bytes that were read, so
that the ids of their entries never overflow.
-/

namespace FbThrift

open Decoder SortedMap Value

/-! ## Compatible masks -/

mutual

/-- The mask can be walked along the value, and what it leaves out can be skipped within the
depth limit. -/
def Compatible (maxDepth : Nat) : Value → MaskRef → Prop
  | .bool _, _ => True
  | .object ms, ref =>
    if ref.isAllMask then True
    else if ref.isNoneMask then (Value.object ms).skipLevels ≤ maxDepth
    else CompatibleMembers maxDepth ms ref
  | .map es, ref =>
    if ref.isAllMask then True
    else if ref.isNoneMask then (Value.map es).skipLevels ≤ maxDepth
    else CompatibleEntries maxDepth es ref
  | v, ref => ref.isNoneMask = true → v.skipLevels ≤ maxDepth

def CompatibleMembers (maxDepth : Nat) : List (Int16 × Value) → MaskRef → Prop
  | [], _ => True
  | (id, v) :: ms, ref =>
    (match ref.getField id with
      | .ok next => Compatible maxDepth v next
      | .error _ => False) ∧ CompatibleMembers maxDepth ms ref

def CompatibleEntries (maxDepth : Nat) : List (Value × Value) → MaskRef → Prop
  | [], _ => True
  | (k, v) :: es, ref =>
    (match getKeyMaskRefByValue ref k with
      | .ok next => Compatible maxDepth v next
      | .error _ => False) ∧ CompatibleEntries maxDepth es ref

end

section Compatible

variable {maxDepth : Nat} {ref : MaskRef}

theorem CompatibleMembers.member {ms : List (Int16 × Value)}
    (compatible : CompatibleMembers maxDepth ms ref) {e : Int16 × Value} (member : e ∈ ms) :
    ∃ next, ref.getField e.1 = .ok next ∧ Compatible maxDepth e.2 next := by
  induction ms with
  | nil => cases member
  | cons e' ms ih =>
    obtain ⟨first, rest⟩ := compatible
    rcases List.mem_cons.mp member with rfl | later
    · cases walked : ref.getField e.1 with
      | error err =>
        simp only [walked] at first
      | ok next =>
        simp only [walked] at first
        exact ⟨next, rfl, first⟩
    · exact ih rest later

theorem CompatibleEntries.member {es : List (Value × Value)}
    (compatible : CompatibleEntries maxDepth es ref) {e : Value × Value} (member : e ∈ es) :
    ∃ next, getKeyMaskRefByValue ref e.1 = .ok next ∧ Compatible maxDepth e.2 next := by
  induction es with
  | nil => cases member
  | cons e' es ih =>
    obtain ⟨first, rest⟩ := compatible
    rcases List.mem_cons.mp member with rfl | later
    · cases walked : getKeyMaskRefByValue ref e.1 with
      | error err =>
        simp only [walked] at first
      | ok next =>
        simp only [walked] at first
        exact ⟨next, rfl, first⟩
    · exact ih rest later

theorem Compatible.skipLevels {v : Value} (compatible : Compatible maxDepth v ref)
    (none : ref.isNoneMask = true) (all : ref.isAllMask = false) (notBool : v.getTType ≠ .bool) :
    v.skipLevels ≤ maxDepth := by
  cases v <;> simp_all [Compatible, getTType]

end Compatible

/-! ## Stored parts -/

/-- `apache::thrift::empty` of a union, as an option. -/
def Value.toOption : Value → Option Value
  | .empty => none
  | v => some v

def MaskedData.toOption : MaskedData → Option MaskedData
  | .empty => none
  | data => some data

theorem Value.toOption_of_ne {v : Value} (present : v ≠ .empty) : v.toOption = some v := by
  cases v <;> first
    | rfl
    | exact (present rfl).elim

theorem find_storeIncluded {K : Type} [Keyed K] (k k' : K) (included : Value)
    (m : List (K × Value)) :
    find k' (storeIncluded k included m) =
      if k' = k then included.toOption.or (find k' m) else find k' m := by
  unfold storeIncluded
  split
  next => simp [Value.toOption]
  next present =>
    rw [find_insertOrAssign, Value.toOption_of_ne present]
    simp

theorem sorted_storeIncluded {K : Type} [Keyed K] {k : K} {included : Value} {m : List (K × Value)}
    (sorted : Sorted m) : Sorted (storeIncluded k included m) := by
  unfold storeIncluded
  split
  · exact sorted
  · exact sorted.insertOrAssign _ _

theorem find_storeExcluded (id id' : Int16) (excluded : MaskedData)
    (m : List (Int16 × MaskedData)) :
    find id' (storeExcluded id excluded m) =
      if id' = id then excluded.toOption.or (find id' m) else find id' m := by
  unfold storeExcluded
  cases excluded <;> simp [MaskedData.toOption, find_insertOrAssign]

theorem ReadM.ofExcept_bind {α β : Type} {x : Except String α} {a : α} (ok : x = .ok a)
    (f : α → ReadM β) : (ReadM.ofExcept x >>= f) = f a := by
  subst ok
  rfl

/-- What a masked parse of an encoding leaves behind. -/
structure Kept (p : Protocol) (h : Nat) (type : TType) (v : Value) (bs : Bytes)
    (pd : MaskedProtocolData) (result : MaskedDecodeResultValue) : Prop where
  grown : pd.Extends result.protocolData
  values : result.protocolData.values.length ≤ pd.values.length + bs.length
  keys : result.protocolData.keys.length ≤ pd.keys.length + bs.length
  restored : ∀ final, result.protocolData.Extends final →
    Restored p h final type v result.included.toOption result.excluded.toOption

section Stored

variable {p : Protocol} {h maxDepth : Nat} {type : TType} {bs : Bytes} {v : Value}

theorem Value.Parsed.kept (parsed : v.Parsed h type) (bs : Bytes) (pd : MaskedProtocolData) :
    Kept p h type v bs pd ⟨v, .empty, pd⟩ where
  grown := .refl pd
  values := Nat.le_add_right _ _
  keys := Nat.le_add_right _ _
  restored := by
    intro final _
    rw [Value.toOption_of_ne parsed.serializable.ne_empty]
    exact .parsed parsed

/-- `setMaskedDataFull` skips the encoding and stores its bytes. -/
theorem Encodes.reads_setMaskedDataFull (encodes : Encodes p (h + 1) type bs v)
    (levels : v.skipLevels ≤ maxDepth) (pd : MaskedProtocolData) (fits : pd.values.length < 2 ^ 31) :
    ∃ base : BaseType, base.toTType = type ∧ Reads (setMaskedDataFull p maxDepth type pd) (h + 1) bs
        ⟨.empty, .full (2 * pd.values.length), { pd with values := pd.values ++ [⟨base, bs⟩] }⟩ := by
  obtain ⟨base, known, same⟩ := toBaseType_of_isValue encodes.isValue
  refine ⟨base, same, fun r rest input high pending => ?_⟩
  have skipped := (skips_skip p h maxDepth).value encodes levels r rest input high pending
  have taken : r.input.take (r.input.length - rest.length) = bs := by
    rw [input, List.length_append, Nat.add_sub_cancel, List.take_left]
  unfold setMaskedDataFull
  rw [ReadM.ofExcept_bind known, Run.get_bind, Run.bind_of_ok skipped, Run.get_bind,
    Reader.input_withInput, taken, ReadM.ofExcept_bind (valueIdOf_eq fits)]
  rfl

theorem Encodes.kept_setMaskedDataFull (encodes : Encodes p (h + 1) type bs v)
    (levels : v.skipLevels ≤ maxDepth) (notBool : type ≠ .bool) {pd : MaskedProtocolData}
    (fits : pd.values.length + bs.length < 2 ^ 31) :
    ∃ result, Reads (setMaskedDataFull p maxDepth type pd) (h + 1) bs result ∧
      Kept p (h + 1) type v bs pd result := by
  have long := encodes.length_pos
  obtain ⟨base, same, reads⟩ := encodes.reads_setMaskedDataFull levels pd (by omega)
  refine ⟨_, reads, ⟨List.prefix_append _ _, List.prefix_refl _⟩, ?_, Nat.le_add_right _ _, ?_⟩
  · simp only [List.length_append, List.length_singleton]
    omega
  · intro final later
    exact .stored notBool (getByValueId_of_longer later.values (by omega)) same encodes
      (by show bs.length < 2 ^ 31; omega)

end Stored

/-! ## The loops -/

/-- The write mask of `parseObject(buf, mask)`. -/
def noneRef : MaskRef := ⟨Mask.noneMask, false⟩

/-- Parsing a value with a compatible mask keeps it, for encodings of height `h`. -/
def KeepsValues (p : Protocol) (maxDepth h : Nat) : Prop :=
  ∀ {type : TType} {bs : Bytes} {v : Value} {ref : MaskRef} (pd : MaskedProtocolData),
    Encodes p h type bs v → Compatible maxDepth v ref →
    pd.values.length + bs.length < 2 ^ 31 → pd.keys.length + bs.length < 2 ^ 31 →
    ∃ result, Reads (parseValueWithMaskAt p maxDepth true h type ref noneRef pd) h bs result ∧
      Kept p h type v bs pd result

/-- What the loop over the fields of a struct leaves behind. -/
structure KeptFields (p : Protocol) (h : Nat) (ms : List (Int16 × Value)) (bs : Bytes)
    (s s' : MaskedFields) : Prop where
  grown : s.protocolData.Extends s'.protocolData
  values : s'.protocolData.values.length ≤ s.protocolData.values.length + bs.length
  keys : s'.protocolData.keys.length ≤ s.protocolData.keys.length + bs.length
  sorted : Sorted s.object → Sorted s'.object
  absent : ∀ id, find id ms = none →
    find id s'.object = find id s.object ∧ find id s'.excluded = find id s.excluded
  present : ∀ final, s'.protocolData.Extends final → ∀ id v, find id ms = some v →
    ∃ type, Restored p h final type v (find id s'.object) (find id s'.excluded)

section Fields

variable {p : Protocol} {maxDepth h : Nat} {ref : MaskRef}

/-- One field before the others. -/
theorem KeptFields.cons {id : Int16} {v : Value} {ms : List (Int16 × Value)} {type : TType}
    {hs bs fs : Bytes} {s s' : MaskedFields} {result : MaskedDecodeResultValue}
    (kept : Kept p h type v bs s.protocolData result) (fresh : find id ms = none)
    (free : find id s.object = none ∧ find id s.excluded = none)
    (rest : KeptFields p h ms fs ⟨storeIncluded id result.included s.object,
      storeExcluded id result.excluded s.excluded, result.protocolData⟩ s') :
    KeptFields p h ((id, v) :: ms) (hs ++ (bs ++ fs)) s s' where
  grown := kept.grown.trans rest.grown
  values := by
    have first := kept.values
    have others := rest.values
    simp only [List.length_append] at *
    omega
  keys := by
    have first := kept.keys
    have others := rest.keys
    simp only [List.length_append] at *
    omega
  sorted := fun sorted => rest.sorted (sorted_storeIncluded sorted)
  absent := by
    intro id' none
    rw [find_cons] at none
    split at none
    next => cases none
    next other =>
      obtain ⟨object, excluded⟩ := rest.absent id' none
      rw [object, excluded, find_storeIncluded, find_storeExcluded, if_neg other, if_neg other]
      exact ⟨rfl, rfl⟩
  present := by
    intro final later id' v' found
    rw [find_cons] at found
    split at found
    next same =>
      subst same
      cases found
      obtain ⟨object, excluded⟩ := rest.absent id' fresh
      rw [object, excluded, find_storeIncluded, find_storeExcluded, if_pos rfl, if_pos rfl,
        free.1, free.2, Option.or_none, Option.or_none]
      exact ⟨type, kept.restored final (rest.grown.trans later)⟩
    next => exact rest.present final later id' v' found

theorem fieldsWithMask_step {value : TType → MaskRef → MaskRef → MaskedProtocolData →
      ReadM MaskedDecodeResultValue} {id : Int16} {type : TType} {next : MaskRef} {s : MaskedFields}
    {keep : Bool} {result : MaskedDecodeResultValue} {mid r r' : Reader} {left : Nat}
    (notStop : type ≠ .stop) (begun : p.reader.readFieldBegin mid = .ok ((type, id), r))
    (walked : ref.getField id = .ok next)
    (read : value type next noneRef s.protocolData r = .ok (result, r')) :
    fieldsWithMask p keep value ref noneRef (left + 1) s mid =
      fieldsWithMask p keep value ref noneRef left ⟨storeIncluded id result.included s.object,
        if keep then storeExcluded id result.excluded s.excluded else s.excluded,
        result.protocolData⟩ r' := by
  have writeNext : noneRef.getField id = .ok noneRef := rfl
  rw [fieldsWithMask, Run.bind_of_ok begun]
  show (if type = .stop then pure s else _ : ReadM MaskedFields) r = _
  rw [if_neg notStop, ReadM.ofExcept_bind walked, ReadM.ofExcept_bind writeNext,
    Run.bind_of_ok read]

theorem parseValueWithMaskAt_of_pending (compact : p = .compact) (pos : 1 ≤ h) {r : Reader}
    {b : Bool} (pending : r.boolValue = some b) (keep : Bool) (next : MaskRef)
    (pd : MaskedProtocolData) :
    parseValueWithMaskAt p maxDepth keep h .bool next noneRef pd r =
      .ok (⟨.bool b, .empty, pd⟩, { r with boolValue := none }) := by
  obtain ⟨h, rfl⟩ : ∃ m, h = m + 1 := ⟨h - 1, by omega⟩
  rw [parseValueWithMaskAt, if_pos rfl, Run.bind_of_ok (readBool_of_pending compact pending)]
  rfl

theorem EncodesFields.kept {last : Int16} {bs : Bytes} {ms : List (Int16 × Value)}
    (fields : EncodesFields p (Encodes p h) last bs ms) (keeps : KeepsValues p maxDepth h)
    (pos : 1 ≤ h) (nodup : (ms.map Prod.fst).Nodup)
    (compatible : ∀ e ∈ ms, ∃ next, ref.getField e.1 = .ok next ∧ Compatible maxDepth e.2 next)
    (s : MaskedFields)
    (free : ∀ e ∈ ms, find e.1 s.object = none ∧ find e.1 s.excluded = none)
    (valuesFit : s.protocolData.values.length + bs.length < 2 ^ 31)
    (keysFit : s.protocolData.keys.length + bs.length < 2 ^ 31) :
    ∃ s', FieldsRead p h last bs (fun left => fieldsWithMask p true
        (parseValueWithMaskAt p maxDepth true h) ref noneRef left s) s' ∧
      KeptFields p h ms bs s s' := by
  induction fields generalizing s with
  | stop header =>
    refine ⟨s, header.fieldsRead fun r r' left begun => ?_, ?_⟩
    · show fieldsWithMask p true _ ref noneRef (left + 1) s r = _
      rw [fieldsWithMask, Run.bind_of_ok begun]
      rfl
    · exact ⟨.refl _, Nat.le_add_right _ _, Nat.le_add_right _ _, fun sorted => sorted,
        fun _ _ => ⟨rfl, rfl⟩, fun _ _ id v found => by cases found⟩
  | @field last id hs bs fs type v ms header encodes rest ih =>
    simp only [List.length_append] at valuesFit keysFit
    obtain ⟨next, walked, fitting⟩ := compatible (id, v) (by simp)
    obtain ⟨result, reads, kept⟩ := keeps s.protocolData encodes fitting (by omega) (by omega)
    obtain ⟨fresh, nodup⟩ := List.nodup_cons.mp nodup
    have lengths := kept.values
    have lengths' := kept.keys
    have others : ∀ e ∈ ms, e.1 ≠ id := fun e member same =>
      fresh (List.mem_map.mpr ⟨e, member, same⟩)
    obtain ⟨s', loop, keptRest⟩ := ih nodup (fun e member => compatible e (by simp [member]))
      ⟨storeIncluded id result.included s.object, storeExcluded id result.excluded s.excluded,
        result.protocolData⟩
      (fun e member => by
        rw [find_storeIncluded, find_storeExcluded, if_neg (others e member),
          if_neg (others e member)]
        exact free e (by simp [member]))
      (by show result.protocolData.values.length + _ < _; omega)
      (by show result.protocolData.keys.length + _ < _; omega)
    refine ⟨s', FieldsRead.cons bs header loop ?_, keptRest.cons kept (find_eq_none_iff.mpr others)
      (free (id, v) (by simp))⟩
    intro r mid cs left input high pending begun
    refine (fieldsWithMask_step encodes.ne_stop begun walked (reads r cs input high pending)).trans ?_
    rw [← pending]
    rfl
  | @boolField last id hs fs b ms compact header rest ih =>
    simp only [List.length_append] at valuesFit keysFit
    obtain ⟨next, walked, fitting⟩ := compatible (id, .bool b) (by simp)
    have parsed : (Value.bool b).Parsed h .bool := ⟨rfl, trivial, pos, trivial, trivial⟩
    have kept := parsed.kept (p := p) [] s.protocolData
    obtain ⟨fresh, nodup⟩ := List.nodup_cons.mp nodup
    have others : ∀ e ∈ ms, e.1 ≠ id := fun e member same =>
      fresh (List.mem_map.mpr ⟨e, member, same⟩)
    obtain ⟨s', loop, keptRest⟩ := ih nodup (fun e member => compatible e (by simp [member]))
      ⟨storeIncluded id (.bool b) s.object, storeExcluded id .empty s.excluded, s.protocolData⟩
      (fun e member => by
        rw [find_storeIncluded, find_storeExcluded, if_neg (others e member),
          if_neg (others e member)]
        exact free e (by simp [member]))
      (by show s.protocolData.values.length + _ < _; omega)
      (by show s.protocolData.keys.length + _ < _; omega)
    have all : KeptFields p h ((id, .bool b) :: ms) (hs ++ ([] ++ fs)) s s' :=
      keptRest.cons kept (find_eq_none_iff.mpr others) (free (id, .bool b) (by simp))
    refine ⟨s', FieldsRead.cons [] header loop ?_, all⟩
    intro r mid cs left input high pending begun
    obtain rfl : r.input = cs := input
    exact fieldsWithMask_step (by decide) begun walked
      (parseValueWithMaskAt_of_pending compact pos pending true next s.protocolData)

end Fields

/-- What the loop over the entries of a map leaves behind: `new` are the excluded entries it
stores and `excluded` the same entries by key. -/
structure KeptEntries (p : Protocol) (h : Nat) (valueType : TType) (es : List (Value × Value))
    (cs : Bytes) (s s' : MaskedEntries) (new : List (Nat × MaskedData))
    (excluded : List (Value × MaskedData)) : Prop where
  grown : s.protocolData.Extends s'.protocolData
  values : s'.protocolData.values.length ≤ s.protocolData.values.length + cs.length
  keys : s'.protocolData.keys.length ≤ s.protocolData.keys.length + cs.length
  sorted : Sorted s.map → Sorted s'.map
  stored : s'.excluded = s.excluded ++ new
  ids : ∀ final, s'.protocolData.Extends final → HasKeys final new excluded
  nodup : (excluded.map Prod.fst).Nodup
  among : ∀ k, find k es = none → find k excluded = none
  absent : ∀ k, find k es = none → find k s'.map = find k s.map
  present : ∀ final, s'.protocolData.Extends final → ∀ k v, find k es = some v →
    Restored p h final valueType v (find k s'.map) (find k excluded)

section Entries

variable {p : Protocol} {maxDepth h : Nat} {ref : MaskRef} {keyType valueType : TType}

/-- The ids of the excluded entries are below the next one. -/
def MaskedEntries.IdsBelow (s : MaskedEntries) : Prop :=
  ∀ e ∈ s.excluded, e.1 < 2 * s.protocolData.keys.length

theorem KeptEntries.nil (s : MaskedEntries) : KeptEntries p h valueType [] [] s s [] [] where
  grown := .refl _
  values := Nat.le_refl _
  keys := Nat.le_refl _
  sorted := fun sorted => sorted
  stored := (List.append_nil _).symm
  ids := fun _ _ => .nil
  nodup := .nil
  among := fun _ _ => rfl
  absent := fun _ _ => rfl
  present := fun _ _ _ _ found => by cases found

/-- An entry is stored: what was parsed of it under its key, the rest behind the others. -/
theorem storeEntry_ok {k v : Value} {vs : Bytes} {s : MaskedEntries}
    {result : MaskedDecodeResultValue} (kept : Kept p h valueType v vs s.protocolData result)
    (below : s.IdsBelow) (fits : result.protocolData.keys.length < 2 ^ 31) :
    ∃ (s' : MaskedEntries) (new : List (Nat × MaskedData)), storeEntry true k result s = .ok s' ∧
      s'.IdsBelow ∧ s'.map = storeIncluded k result.included s.map ∧
      s'.excluded = s.excluded ++ new ∧ result.protocolData.Extends s'.protocolData ∧
      s'.protocolData.values = result.protocolData.values ∧
      s'.protocolData.keys.length ≤ result.protocolData.keys.length + 1 ∧
      ∀ final, s'.protocolData.Extends final →
        HasKeys final new (result.excluded.toOption.toList.map fun data => (k, data)) := by
  have grown := kept.grown.keys.length_le
  have early : ∀ e ∈ s.excluded, e.1 < 2 * result.protocolData.keys.length := by
    intro e member
    have := below e member
    omega
  cases data : result.excluded with
  | empty =>
    refine ⟨⟨storeIncluded k result.included s.map, s.excluded, result.protocolData⟩, [], ?_,
      early, rfl, (List.append_nil _).symm, .refl _, rfl, Nat.le_succ _, fun _ _ => .nil⟩
    simp [storeEntry, storeExcludedEntry, data, bind, Except.bind]
  | _ =>
    all_goals
      have appended : ∀ data, insertOrAssign (2 * result.protocolData.keys.length) data s.excluded =
          s.excluded ++ [(2 * result.protocolData.keys.length, data)] := by
        intro data
        refine insertOrAssign_of_forall_before fun e member => ?_
        exact List.Lex.rel (early e member)
      refine ⟨⟨storeIncluded k result.included s.map,
        s.excluded ++ [(2 * result.protocolData.keys.length, result.excluded)],
        { result.protocolData with keys := result.protocolData.keys ++ [k] }⟩,
        [(2 * result.protocolData.keys.length, result.excluded)], ?_, ?_, rfl, rfl,
        ⟨List.prefix_refl _, List.prefix_append _ _⟩, rfl, by simp, ?_⟩
      · simp [storeEntry, storeExcludedEntry, data, bind, Except.bind, valueIdOf_eq fits, appended]
      · intro e member
        show e.1 < 2 * (result.protocolData.keys ++ [k]).length
        rw [List.length_append, List.length_singleton]
        rcases List.mem_append.mp member with old | new
        · have := early e old
          omega
        · rw [List.mem_singleton.mp new]
          show 2 * result.protocolData.keys.length < _
          omega
      · intro final later
        rw [data]
        exact .cons ⟨getByValueId_of_longer later.keys fits, rfl⟩ .nil

/-- The excluded part of one entry, as a map with at most one entry. -/
def excludedEntry (k : Value) (excluded : MaskedData) : List (Value × MaskedData) :=
  excluded.toOption.toList.map fun data => (k, data)

theorem find_excludedEntry (k k' : Value) (excluded : MaskedData) :
    find k' (excludedEntry k excluded) = if k' = k then excluded.toOption else none := by
  unfold excludedEntry
  cases excluded.toOption <;> simp [find_cons]

/-- One entry before the others. -/
theorem KeptEntries.cons {k v : Value} {es : List (Value × Value)} {ks vs cs : Bytes}
    {s mid s' : MaskedEntries} {result : MaskedDecodeResultValue} {first new : List (Nat × MaskedData)}
    {excluded : List (Value × MaskedData)} (kept : Kept p h valueType v vs s.protocolData result)
    (fresh : find k es = none) (free : find k s.map = none) (long : 1 ≤ ks.length)
    (map : mid.map = storeIncluded k result.included s.map)
    (stored : mid.excluded = s.excluded ++ first)
    (grown : result.protocolData.Extends mid.protocolData)
    (values : mid.protocolData.values = result.protocolData.values)
    (keys : mid.protocolData.keys.length ≤ result.protocolData.keys.length + 1)
    (ids : ∀ final, mid.protocolData.Extends final →
      HasKeys final first (excludedEntry k result.excluded))
    (rest : KeptEntries p h valueType es cs mid s' new excluded) :
    KeptEntries p h valueType ((k, v) :: es) ((ks ++ vs) ++ cs) s s' (first ++ new)
      (excludedEntry k result.excluded ++ excluded) where
  grown := (kept.grown.trans grown).trans rest.grown
  values := by
    have one := kept.values
    have others := rest.values
    rw [values] at others
    simp only [List.length_append]
    omega
  keys := by
    have one := kept.keys
    have others := rest.keys
    simp only [List.length_append]
    omega
  sorted := by
    intro sorted
    refine rest.sorted ?_
    rw [map]
    exact sorted_storeIncluded sorted
  stored := by rw [rest.stored, stored, List.append_assoc]
  ids := fun final later => List.rel_append (ids final (rest.grown.trans later)) (rest.ids final later)
  nodup := by
    rw [List.map_append]
    refine List.nodup_append.mpr ⟨?_, rest.nodup, ?_⟩
    · unfold excludedEntry
      cases result.excluded.toOption <;> simp
    · intro k' one k'' other same
      subst same
      have here : k' = k := by
        unfold excludedEntry at one
        cases shape : result.excluded.toOption <;> simp_all
      subst here
      obtain ⟨d, member, same⟩ := List.mem_map.mp other
      exact find_eq_none_iff.mp (rest.among _ fresh) d member same
  among := by
    intro k' none
    rw [find_cons] at none
    split at none
    next => cases none
    next other =>
      rw [find_append, find_excludedEntry, if_neg other, rest.among k' none]
      rfl
  absent := by
    intro k' none
    rw [find_cons] at none
    split at none
    next => cases none
    next other => rw [rest.absent k' none, map, find_storeIncluded, if_neg other]
  present := by
    intro final later k' v' found
    rw [find_cons] at found
    split at found
    next same =>
      subst same
      cases found
      rw [rest.absent _ fresh, map, find_storeIncluded, if_pos rfl, free, Option.or_none,
        find_append, find_excludedEntry, if_pos rfl, rest.among _ fresh, Option.or_none]
      exact kept.restored final ((grown.trans rest.grown).trans later)
    next other =>
      rw [find_append, find_excludedEntry, if_neg other]
      exact rest.present final later k' v' found

theorem getKeyMaskRefByValue_noneRef {k : Value} {ref next : MaskRef}
    (walked : getKeyMaskRefByValue ref k = .ok next) :
    getKeyMaskRefByValue noneRef k = .ok noneRef := by
  cases k <;> first
    | rfl
    | cases walked

theorem EncodesSeq.kept {cs : Bytes} {es : List (Value × Value)}
    (seq : EncodesSeq (EncodesPair (Encodes p h keyType) (Encodes p h valueType)) cs es)
    (keeps : KeepsValues p maxDepth h) (nodup : (es.map Prod.fst).Nodup)
    (compatible : ∀ e ∈ es, ∃ next, getKeyMaskRefByValue ref e.1 = .ok next ∧
      Compatible maxDepth e.2 next)
    (s : MaskedEntries) (free : ∀ e ∈ es, find e.1 s.map = none) (below : s.IdsBelow)
    (valuesFit : s.protocolData.values.length + cs.length < 2 ^ 31)
    (keysFit : s.protocolData.keys.length + cs.length < 2 ^ 31) :
    ∃ s' new excluded, Reads (entriesWithMask true (parseValueWithMaskAt p maxDepth true h) ref
        noneRef (parseValueAt p.reader h keyType) valueType es.length s) h cs s' ∧
      KeptEntries p h valueType es cs s s' new excluded := by
  induction seq generalizing s with
  | nil => exact ⟨s, [], [], .pure s h, .nil s⟩
  | @cons bs cs e es pair rest ih =>
    obtain ⟨k, v⟩ := e
    obtain ⟨ks, vs, rfl, keyEncodes, valueEncodes⟩ := pair
    simp only [List.length_append] at valuesFit keysFit
    have long := keyEncodes.length_pos
    obtain ⟨next, walked, fitting⟩ := compatible (k, v) (by simp)
    obtain ⟨result, reads, kept⟩ := keeps s.protocolData valueEncodes fitting (by omega)
      (by omega)
    obtain ⟨fresh, nodup⟩ := List.nodup_cons.mp nodup
    have others : ∀ e ∈ es, e.1 ≠ k := fun e member same =>
      fresh (List.mem_map.mpr ⟨e, member, same⟩)
    have lengths := kept.values
    have lengths' := kept.keys
    obtain ⟨mid, first, stores, midBelow, map, stored, grown, values, keys, ids⟩ :=
      storeEntry_ok (k := k) kept below (by omega)
    obtain ⟨s', new, excluded, readsRest, keptRest⟩ := ih nodup
      (fun e member => compatible e (by simp [member])) mid
      (fun e member => by
        rw [map, find_storeIncluded, if_neg (others e member)]
        exact free e (by simp [member]))
      midBelow (by rw [values]; omega) (by omega)
    refine ⟨s', first ++ new, excludedEntry k result.excluded ++ excluded, ?_,
      keptRest.cons kept (find_eq_none_iff.mpr others) (free (k, v) (by simp)) long map stored grown
        values keys ids⟩
    rw [List.append_assoc, List.length_cons, entriesWithMask]
    refine keyEncodes.reads.bind ?_
    rw [ReadM.ofExcept_bind walked, ReadM.ofExcept_bind (getKeyMaskRefByValue_noneRef walked)]
    refine reads.bind ?_
    rw [ReadM.ofExcept_bind stores]
    exact readsRest

end Entries

/-! ## Values -/

section Values

variable {p : Protocol} {maxDepth h : Nat} {ref : MaskRef} {bs : Bytes} {v : Value}
variable {pd : MaskedProtocolData}

theorem MaskedFields.data_toOption (s : MaskedFields) :
    s.data.toOption = if s.excluded = [] then none else some (.fields s.excluded) := by
  unfold MaskedFields.data
  cases s.excluded <;> rfl

theorem MaskedEntries.data_toOption (s : MaskedEntries) :
    s.data.toOption = if s.excluded = [] then none else some (.values s.excluded) := by
  unfold MaskedEntries.data
  cases s.excluded <;> rfl

theorem Encodes.kept_struct (keeps : KeepsValues p maxDepth h)
    (encodes : Encodes p (h + 1) .struct bs v) (compatible : Compatible maxDepth v ref)
    (notAll : ref.isAllMask = false) (notNone : ref.isNoneMask = false)
    (valuesFit : pd.values.length + bs.length < 2 ^ 31)
    (keysFit : pd.keys.length + bs.length < 2 ^ 31) :
    ∃ result, Reads (do
        p.reader.readStructBegin
        let r ← get
        let s ← fieldsWithMask p true (parseValueWithMaskAt p maxDepth true h) ref noneRef
          (r.input.length + 1) ⟨[], [], pd⟩
        p.reader.readStructEnd
        pure ⟨.object s.object, s.data, s.protocolData⟩) (h + 1) bs result ∧
      Kept p (h + 1) .struct v bs pd result := by
  have parsed := encodes.parsed
  obtain ⟨_, ms, pos, fields, nodup, rfl⟩ := encodes
  have members : CompatibleMembers maxDepth (ofList ms) ref := by
    simpa [Compatible, notAll, notNone] using compatible
  obtain ⟨s, loop, kept⟩ := fields.kept keeps pos nodup
    (fun e member => members.member (mem_ofList nodup member)) ⟨[], [], pd⟩
    (fun _ _ => ⟨rfl, rfl⟩) valuesFit keysFit
  refine ⟨_, loop.struct pos fun s => MaskedDecodeResultValue.mk (.object s.object) s.data s.protocolData,
    kept.grown, kept.values, kept.keys, fun final later => ?_⟩
  have absent : ∀ id, find id (ofList ms) = none →
      find id s.object = none ∧ find id s.excluded = none := by
    intro id none
    rw [find_ofList nodup] at none
    exact kept.absent id none
  have present : ∀ id v, find id (ofList ms) = some v →
      ∃ type, Restored p h final type v (find id s.object) (find id s.excluded) := by
    intro id v found
    rw [find_ofList nodup] at found
    exact kept.present final later id v found
  show Restored p (h + 1) final .struct (.object (ofList ms)) (some (.object s.object)) s.data.toOption
  rw [s.data_toOption]
  split
  next empty =>
    have same : s.object = ofList ms := by
      refine (kept.sorted sorted_nil).ext (sorted_ofList ms) fun id => ?_
      cases found : find id (ofList ms) with
      | none => exact (absent id found).1
      | some v =>
        obtain ⟨type, restored⟩ := present id v found
        rw [empty, find_nil] at restored
        cases object : find id s.object with
        | none =>
          rw [object] at restored
          cases restored
        | some v' =>
          rw [object] at restored
          cases restored
          rfl
    rw [same]
    exact .parsed parsed
  next =>
    exact .split (by decide) (by decide) rfl
      (restore_struct pos (kept.sorted sorted_nil) (sorted_ofList ms) absent present)

theorem Encodes.kept_map (keeps : KeepsValues p maxDepth h)
    (encodes : Encodes p (h + 1) .map bs v) (compatible : Compatible maxDepth v ref)
    (notAll : ref.isAllMask = false) (notNone : ref.isNoneMask = false)
    (valuesFit : pd.values.length + bs.length < 2 ^ 31)
    (keysFit : pd.keys.length + bs.length < 2 ^ 31) :
    ∃ result, Reads (do
        let (keyType, valType, size) ← p.reader.readMapBegin
        let s ← entriesWithMask true (parseValueWithMaskAt p maxDepth true h) ref noneRef
          (parseValueAt p.reader h keyType) valType size ⟨[], [], pd⟩
        p.reader.readMapEnd
        pure ⟨.map s.map, s.data, s.protocolData⟩) (h + 1) bs result ∧
      Kept p (h + 1) .map v bs pd result := by
  have parsed := encodes.parsed
  obtain ⟨_, hs, cs, key, value, es, pos, rfl, fits, header, seq, nodup, rfl⟩ := encodes
  simp only [List.length_append] at valuesFit keysFit
  have entries : CompatibleEntries maxDepth (ofList es) ref := by
    simpa [Compatible, notAll, notNone] using compatible
  obtain ⟨s, new, excluded, reads, kept⟩ := seq.kept keeps nodup
    (fun e member => entries.member (mem_ofList nodup member)) ⟨[], [], pd⟩
    (fun _ _ => rfl) (by intro e member; cases member) (by show pd.values.length + _ < _; omega)
    (by show pd.keys.length + _ < _; omega)
  have whole := header.nest (fun header => entriesWithMask true (parseValueWithMaskAt p maxDepth true h)
      ref noneRef (parseValueAt p.reader h header.1) header.2.1 header.2.2 ⟨[], [], pd⟩)
    (fun s => MaskedDecodeResultValue.mk (.map s.map) s.data s.protocolData) pos reads
  refine ⟨_, by cases p <;> exact whole, kept.grown, ?_, ?_, fun final later => ?_⟩
  · have bound := kept.values
    simp only [List.length_append]
    exact bound.trans (by show pd.values.length + _ ≤ _; omega)
  · have bound := kept.keys
    simp only [List.length_append]
    exact bound.trans (by show pd.keys.length + _ ≤ _; omega)
  have restored : RestoredEntries p h final key value es s.map excluded := {
    nodup := nodup
    keys := fun e member => by
      obtain ⟨bs, ks, vs, _, keys, _⟩ := seq.forall e member
      exact keys.parsed
    sorted := kept.sorted sorted_nil
    nodupExcluded := kept.nodup
    absent := fun k none => ⟨kept.absent k none, kept.among k none⟩
    present := kept.present final later }
  have ids := kept.ids final later
  have stored : s.excluded = new := kept.stored
  show Restored p (h + 1) final .map (.map (ofList es)) (some (.map s.map)) s.data.toOption
  rw [s.data_toOption, stored]
  split
  next empty =>
    subst empty
    cases ids
    have same : s.map = ofList es := by
      refine restored.sorted.ext (sorted_ofList es) fun k => ?_
      rw [find_ofList nodup]
      cases found : find k es with
      | none => exact (restored.absent k found).1
      | some v =>
        have here := restored.present k v found
        rw [find_nil] at here
        cases map : find k s.map with
        | none =>
          rw [map] at here
          cases here
        | some v' =>
          rw [map] at here
          cases here
          rfl
    rw [same]
    exact .parsed parsed
  next some =>
    have someKeys : excluded ≠ [] := by
      rintro rfl
      cases ids
      exact some rfl
    exact .split (by decide) (by decide) rfl (restore_map restored ids someKeys fits pos)

/-- Parsing with a compatible mask keeps the value, whatever its height. -/
theorem keepsValues (p : Protocol) (maxDepth h : Nat) : KeepsValues p maxDepth h := by
  induction h with
  | zero => exact fun _ encodes => encodes.elim
  | succ h ih =>
    intro type bs v ref pd encodes compatible valuesFit keysFit
    have parsed := encodes.parsed
    have whole : ∃ result, Reads (do
          let v ← parseValueAt p.reader (h + 1) type
          pure ⟨v, .empty, pd⟩) (h + 1) bs result ∧ Kept p (h + 1) type v bs pd result :=
      ⟨_, encodes.reads.bind_pure fun v => MaskedDecodeResultValue.mk v .empty pd,
        parsed.kept bs pd⟩
    rw [parseValueWithMaskAt]
    split
    next bool =>
      subst bool
      obtain ⟨_, b, reads, rfl⟩ := encodes
      exact ⟨_, (reads.of_zero (h + 1)).bind_pure fun b =>
        MaskedDecodeResultValue.mk (.bool b) .empty pd, parsed.kept bs pd⟩
    next notBool =>
      cases all : ref.isAllMask with
      | true =>
        have decision : maskDecision true ref noneRef = .parse := by
          simp [maskDecision, all]
        rw [decision]
        exact whole
      | false =>
        cases none : ref.isNoneMask with
        | true =>
          have write : noneRef.isNoneMask = true := rfl
          have decision : maskDecision true ref noneRef = .store := by
            simp [maskDecision, all, none, write]
          rw [decision]
          exact encodes.kept_setMaskedDataFull
            (compatible.skipLevels none all (by rw [parsed.typed]; exact notBool)) notBool
            valuesFit
        | false =>
          have decision : maskDecision true ref noneRef = .descend := by
            simp [maskDecision, all, none]
          rw [decision]
          show ∃ result, Reads (if type = .struct then _ else if type = .map then _ else _)
            (h + 1) bs result ∧ _
          split
          next struct =>
            subst struct
            exact encodes.kept_struct ih compatible all none valuesFit keysFit
          next =>
            split
            next map =>
              subst map
              exact encodes.kept_map ih compatible all none valuesFit keysFit
            next => exact whole

end Values

/-! ## Objects -/

theorem Protocol.parse_of_reads {p : Protocol} {maxDepth : Nat} {bytes : Bytes} {obj : Object}
    (reads : Reads (parseValueAt p.reader (maxDepth + 1) .struct) (maxDepth + 1) bytes (.object obj)) :
    p.parse maxDepth bytes = .ok (obj, []) := by
  have read := reads (Reader.ofBytes maxDepth bytes) [] (List.append_nil bytes).symm
    (Nat.le_refl _) rfl
  obtain ⟨obj', parsed, same⟩ := Run.map_ok read
  cases same
  have parsed : parseObject p.reader (Reader.ofBytes maxDepth bytes) =
    .ok (obj, (Reader.ofBytes maxDepth bytes).withInput []) := parsed
  unfold Protocol.parse
  rw [parsed]
  rfl

theorem Restored.serializeMasked_trip {p : Protocol} {h : Nat} {pd : MaskedProtocolData}
    {obj : Object} {included : Value} {data : MaskedData}
    (restored : Restored p h pd .struct (.object obj) included.toOption data.toOption) :
    RoundTrip h 1 (Protocol.serializeMasked.write p (ensureObject included) data pd)
      (parseValueAt p.reader h .struct) (.object obj) := by
  generalize object : included.toOption = included' at restored
  generalize excluded : data.toOption = data' at restored
  cases restored with
  | parsed parsed =>
    have trip := parsed.trip p
    have same : included = .object obj := by
      cases included <;> simp_all [Value.toOption]
    have none : data = .empty := by
      cases data <;> simp_all [MaskedData.toOption]
    subst same none
    exact trip
  | @stored id value _ found _ encodes fits =>
    have same : data = .full id := by
      cases data <;> simp_all [MaskedData.toOption]
    subst same
    have write : Protocol.serializeMasked.write p (ensureObject included) (.full id) pd =
        writeRaw value.data := WriteM.ofExcept_bind found _
    rw [write]
    exact encodes.raw_trip fits
  | @split incl excl _ _ typed trip =>
    obtain ⟨ms, rfl⟩ : ∃ ms, incl = .object ms := by
      cases incl <;> simp_all [getTType]
    have same : included = .object ms := by
      cases included <;> simp_all [Value.toOption]
    have same' : data = excl := by
      cases data <;> simp_all [MaskedData.toOption]
    subst same same'
    obtain ⟨bs, long, writes, reads⟩ := trip
    have run := writes ⟨[], h, 0, [], none⟩ (Nat.le_refl h) rfl
    cases data with
    | fields fields => exact ⟨bs, long, writes, reads⟩
    -- An object is only put together with excluded fields.
    | _ =>
      simp only [serializeValueMasked] at run
      cases run

/-- Masked parsing and serialization give back the object, for every buffer below 2GB and every
compatible mask. -/
theorem masked_parse_serialize (p : Protocol) {maxDepth : Nat} {buf : Bytes} {obj : Object}
    {mask : Mask} (encodes : Encodes p (maxDepth + 1) .struct buf (.object obj))
    (fits : buf.length < 2 ^ 31) (compatible : Compatible maxDepth (.object obj) ⟨mask, false⟩) :
    p.parse maxDepth buf = .ok (obj, []) ∧
      ∃ result bytes, p.parseMasked maxDepth true buf mask Mask.noneMask = .ok result ∧
        p.serializeMasked maxDepth result.included result.data result.protocolData = .ok bytes ∧
        p.parse maxDepth bytes = .ok (obj, []) := by
  refine ⟨Protocol.parse_of_reads encodes.reads, ?_⟩
  obtain ⟨result, reads, kept⟩ := keepsValues p maxDepth (maxDepth + 1) ⟨[], []⟩ encodes compatible
    (by simpa using fits) (by simpa using fits)
  obtain ⟨bytes, _, writes, readsBack⟩ :=
    (kept.restored _ (.refl _)).serializeMasked_trip
  refine ⟨⟨ensureObject result.included, result.excluded, result.protocolData⟩, bytes, ?_, ?_,
    Protocol.parse_of_reads readsBack⟩
  · have read := reads (Reader.ofBytes maxDepth buf) [] (List.append_nil buf).symm (Nat.le_refl _) rfl
    unfold Protocol.parseMasked
    change (parseValueWithMaskAt p maxDepth true (maxDepth + 1) .struct ⟨mask, false⟩ noneRef ⟨[], []⟩
      (Reader.ofBytes maxDepth buf) >>= _) = _
    rw [read]
    rfl
  · unfold Protocol.serializeMasked
    rw [writes (Writer.new maxDepth) (Nat.le_refl _) rfl]
    rfl

/-- A map and a struct are split and a boolean that is not in the mask is parsed with them. -/
theorem masked_parse_serialize_at :
    let obj : Object := [(1, .bool true), (2, .map [(.i32 3, .binary [7]), (.i32 4, .binary [8])]),
      (3, .object [(1, .i64 5), (2, .list [.byte 1])])]
    let mask : Mask := .includes [(2, .includesMap [(4, Mask.allMask)]),
      (3, .includes [(1, Mask.allMask)])]
    let buf : Bytes := [17, 27, 2, 88, 6, 1, 7, 8, 1, 8, 28, 22, 10, 25, 19, 1, 0, 0]
    Protocol.compact.parse 12000 buf = .ok (obj, []) ∧
      ∃ result bytes, Protocol.compact.parseMasked 12000 true buf mask Mask.noneMask = .ok result ∧
        Protocol.compact.serializeMasked 12000 result.included result.data result.protocolData =
          .ok bytes ∧
        Protocol.compact.parse 12000 bytes = .ok (obj, []) := by
  intro obj mask buf
  have serializable : (Value.object obj).Serializable := by
    simp [obj, Serializable, SerializableMembers, SerializableElems, SerializableEntries,
      elemTypeOf, entryTypesOf, getTType]
  have wf : (Value.object obj).Wf := by
    refine ⟨by decide, trivial, ⟨by decide, ?_⟩, ⟨by decide, ?_⟩, trivial⟩ <;>
      simp [WfMembers, WfEntries, Wf, WfElems]
  have none : (Value.object obj).NoStrings := by
    simp [obj, NoStrings, NoStringsMembers, NoStringsEntries, NoStringsElems]
  have written : Protocol.compact.serialize 12000 obj = .ok buf := by decide +kernel
  have encodes := serialize_encoding .compact serializable (by decide) wf none written
  have compatible : Compatible 12000 (.object obj) ⟨mask, false⟩ := by
    simp [obj, mask, Compatible, CompatibleMembers, CompatibleEntries, MaskRef.getField,
      getKeyMaskRefByValue, MaskRef.getMapId, MaskRef.getMask, MaskRef.isAllMask, MaskRef.isNoneMask,
      Mask.isAllMask, Mask.isNoneMask, Mask.allMask, Mask.noneMask, find, skipLevels, skipLevelsElems]
  exact masked_parse_serialize .compact encodes (by decide) compatible

theorem binary_serialize_field {s : Bytes} (fits : s.length < 2 ^ 31) :
    Protocol.binary.serialize 12000 [(1, .binary s)] =
      .ok ([11] ++ writeBE 2 1 ++ writeBE 4 (Int32.ofNat s.length).toUInt32.toNat ++ s ++ [0]) := by
  have check : WriteM.checkBinarySize s.length = pure () := by
    unfold WriteM.checkBinarySize
    rw [if_neg (by omega)]
  unfold Protocol.serialize serializeObject
  simp only [serializeValue, serializeMembers, Value.getTType, Protocol.writer,
    BinaryProtocolWriter.writeBinary, check]
  rfl

/-- A struct of over 2GB is parsed with the empty mask, but its bytes are not written back. -/
theorem masked_size_limit : ¬ ∀ (p : Protocol) (buf : Bytes) (obj : Object) (mask : Mask),
      Encodes p 12001 .struct buf (.object obj) → Compatible 12000 (.object obj) ⟨mask, false⟩ →
      ∃ result bytes, p.parseMasked 12000 true buf mask Mask.noneMask = .ok result ∧
        p.serializeMasked 12000 result.included result.data result.protocolData = .ok bytes ∧
        p.parse 12000 bytes = .ok (obj, []) := by
  intro claim
  obtain ⟨s, length⟩ : ∃ s : Bytes, s.length = 2147483647 :=
    ⟨List.replicate 2147483647 0, List.length_replicate⟩
  obtain ⟨buf, written, long⟩ : ∃ buf,
      Protocol.binary.serialize 12000 [(1, .binary s)] = .ok buf ∧ 2147483647 < buf.length :=
    ⟨_, binary_serialize_field (by omega), by simp; omega⟩
  have serializable : (Value.object [(1, .binary s)]).Serializable :=
    ⟨by show s.length < 2 ^ 31; omega, trivial⟩
  have shallow : (Value.object [(1, .binary s)]).nest ≤ 12000 := by simp [nest, nestMembers]
  have encodes := serialize_encoding .binary serializable shallow
    ⟨by simp [Sorted], trivial, trivial⟩ ⟨trivial, trivial⟩ written
  have levels : (Value.object [(1, .binary s)]).skipLevels ≤ 12000 := by
    simp [skipLevels, skipLevelsMembers]
  obtain ⟨result, bytes, parsed, serialized, _⟩ := claim .binary buf [(1, .binary s)] Mask.noneMask
    encodes levels
  obtain ⟨base, _, reads⟩ := encodes.reads_setMaskedDataFull levels ⟨[], []⟩ (by simp)
  have read := reads (Reader.ofBytes 12000 buf) [] (List.append_nil buf).symm (Nat.le_refl _) rfl
  unfold Protocol.parseMasked parseValueWithMaskAt at parsed
  rw [if_neg (by decide)] at parsed
  change (setMaskedDataFull .binary 12000 .struct ⟨[], []⟩ (Reader.ofBytes 12000 buf) >>= _) = _ at parsed
  rw [read] at parsed
  cases parsed
  have refused : ∀ w, writeRaw buf w = .error (exceededSizeLimit buf.length) := by
    intro w
    unfold writeRaw WriteM.checkBinarySize
    rw [if_pos (by omega)]
    rfl
  unfold Protocol.serializeMasked at serialized
  change (writeRaw buf (Writer.new 12000) >>= _) = _ at serialized
  rw [refused] at serialized
  cases serialized

end FbThrift
