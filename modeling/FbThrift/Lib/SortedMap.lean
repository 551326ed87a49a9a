import Mathlib

/-!
# Finite maps as sorted association lists

An unordered container has no observable order, so a model of it is best given
by one canonical list per container: entries in strictly increasing order of
their keys.  Equality of containers is then equality of lists, and
`Sorted.ext` says that a sorted list is determined by its lookups.

The order comes from `Keyed`, an injective code of the keys into words; it is
the lexicographic order of the codes and means nothing by itself.
-/

namespace FbThrift

/-- A key type with an injective code into words. -/
class Keyed (K : Type) where
  code : K → List Nat
  code_injective : Function.Injective code

namespace Keyed

variable {K : Type} [Keyed K]

/-- The canonical order of the keys. -/
def before (a b : K) : Prop := code a < code b

instance (a b : K) : Decidable (before a b) :=
  inferInstanceAs (Decidable (code a < code b))

/-- Keys are compared through their codes. -/
instance (priority := low) decEq : DecidableEq K := fun a b =>
  decidable_of_iff (code a = code b) code_injective.eq_iff

theorem before_irrefl (a : K) : ¬ before a a := lt_irrefl (code a)

theorem before_trans {a b c : K} (ab : before a b) (bc : before b c) : before a c :=
  lt_trans ab bc

theorem before_asymm {a b : K} (ab : before a b) : ¬ before b a := lt_asymm ab

theorem before_ne {a b : K} (ab : before a b) : a ≠ b := by
  intro equal
  subst equal
  exact before_irrefl a ab

theorem before_of_not {a b : K} (different : a ≠ b) (notBefore : ¬ before a b) : before b a := by
  rcases lt_trichotomy (code a) (code b) with less | equal | greater
  · exact (notBefore less).elim
  · exact (different (code_injective equal)).elim
  · exact greater

end Keyed

namespace SortedMap

variable {K V W : Type} [Keyed K]

/-- Strictly increasing, hence distinct, keys. -/
def Sorted (m : List (K × V)) : Prop :=
  m.Pairwise fun a b => Keyed.before a.1 b.1

instance (m : List (K × V)) : Decidable (Sorted m) :=
  inferInstanceAs (Decidable (m.Pairwise fun a b => Keyed.before a.1 b.1))

/-- The value at a key. -/
def find (k : K) : List (K × V) → Option V
  | [] => none
  | (k', v) :: m => if k = k' then some v else find k m

def contains (k : K) (m : List (K × V)) : Bool := (find k m).isSome

/-- Ordered insertion, overwriting the value of a present key. -/
def insertOrAssign (k : K) (v : V) : List (K × V) → List (K × V)
  | [] => [(k, v)]
  | (k', v') :: m =>
    if k = k' then (k, v) :: m
    else if Keyed.before k k' then (k, v) :: (k', v') :: m
    else (k', v') :: insertOrAssign k v m

/-- Insertion that leaves a present key as it is. -/
def emplace (k : K) (v : V) (m : List (K × V)) : List (K × V) :=
  if contains k m then m else insertOrAssign k v m

def erase (k : K) : List (K × V) → List (K × V)
  | [] => []
  | (k', v) :: m => if k = k' then erase k m else (k', v) :: erase k m

/-! ## Lookups -/

@[simp] theorem find_nil (k : K) : find k ([] : List (K × V)) = none := rfl

theorem find_cons (k k' : K) (v : V) (m : List (K × V)) :
    find k ((k', v) :: m) = if k = k' then some v else find k m := rfl

theorem contains_eq_true {k : K} {m : List (K × V)} :
    contains k m = true ↔ ∃ v, find k m = some v := Option.isSome_iff_exists

theorem contains_eq_false {k : K} {m : List (K × V)} : contains k m = false ↔ find k m = none := by
  simp [contains]

theorem mem_of_find {k : K} {v : V} {m : List (K × V)} (found : find k m = some v) :
    (k, v) ∈ m := by
  induction m with
  | nil => cases found
  | cons e m ih =>
    obtain ⟨k', v'⟩ := e
    rw [find_cons] at found
    split at found
    next equal =>
      cases found
      simp [equal]
    next => exact List.mem_cons_of_mem _ (ih found)

theorem find_eq_none_iff {k : K} {m : List (K × V)} : find k m = none ↔ ∀ e ∈ m, e.1 ≠ k := by
  induction m with
  | nil => simp
  | cons e m ih =>
    obtain ⟨k', v'⟩ := e
    rw [find_cons]
    split
    next equal => simp [equal]
    next different =>
      simp only [ih, List.mem_cons, forall_eq_or_imp, ne_eq]
      exact ⟨fun h => ⟨fun equal => different equal.symm, h⟩, fun h => h.2⟩

theorem find_insertOrAssign (k k' : K) (v : V) (m : List (K × V)) :
    find k' (insertOrAssign k v m) = if k' = k then some v else find k' m := by
  induction m with
  | nil => simp [insertOrAssign, find_cons]
  | cons e m ih =>
    obtain ⟨k₀, v₀⟩ := e
    by_cases same : k = k₀
    · subst same
      by_cases hit : k' = k <;> simp [insertOrAssign, find_cons, hit]
    · by_cases less : Keyed.before k k₀
      · simp [insertOrAssign, same, less, find_cons]
      · simp only [insertOrAssign, same, less, if_false, find_cons, ih]
        by_cases hit : k' = k₀
        · have other : k' ≠ k := fun equal => same (equal.symm.trans hit)
          simp [hit, hit ▸ other]
        · simp [hit]

@[simp] theorem find_insertOrAssign_self (k : K) (v : V) (m : List (K × V)) :
    find k (insertOrAssign k v m) = some v := by
  simp [find_insertOrAssign]

theorem find_emplace (k k' : K) (v : V) (m : List (K × V)) : find k' (emplace k v m) =
      if k' = k then some ((find k m).getD v) else find k' m := by
  unfold emplace
  cases present : find k m with
  | none =>
    have absent : contains k m = false := contains_eq_false.mpr present
    simp [absent, find_insertOrAssign]
  | some old =>
    have held : contains k m = true := contains_eq_true.mpr ⟨old, present⟩
    by_cases hit : k' = k
    · subst hit
      simp [held, present]
    · simp [held, hit]

theorem find_erase (k k' : K) (m : List (K × V)) :
    find k' (erase k m) = if k' = k then none else find k' m := by
  induction m with
  | nil => simp [erase]
  | cons e m ih =>
    obtain ⟨k₀, v₀⟩ := e
    by_cases same : k = k₀
    · subst same
      simp only [erase, if_true, ih, find_cons]
      by_cases hit : k' = k <;> simp [hit]
    · by_cases hit : k' = k₀
      · have other : k' ≠ k := fun equal => same (equal.symm.trans hit)
        simp [erase, find_cons, same, hit, hit ▸ other]
      · simp [erase, find_cons, same, hit, ih]

theorem find_map (f : K → V → W) (k : K) (m : List (K × V)) :
    find k (m.map fun e => (e.1, f e.1 e.2)) = (find k m).map (f k) := by
  induction m with
  | nil => rfl
  | cons e m ih =>
    obtain ⟨k', v'⟩ := e
    by_cases hit : k = k'
    · subst hit
      simp [find_cons]
    · simp [find_cons, hit, ih]

theorem find_append (k : K) (m n : List (K × V)) : find k (m ++ n) = (find k m).or (find k n) := by
  induction m with
  | nil => rfl
  | cons e m ih =>
    obtain ⟨k', v⟩ := e
    rw [List.cons_append, find_cons, find_cons, ih]
    split <;> rfl

/-! ## Sortedness -/

theorem sorted_nil : Sorted ([] : List (K × V)) := List.Pairwise.nil

theorem Sorted.tail {e : K × V} {m : List (K × V)} (sorted : Sorted (e :: m)) : Sorted m :=
  (List.pairwise_cons.mp sorted).2

theorem Sorted.head_before {e : K × V} {m : List (K × V)} (sorted : Sorted (e :: m)) :
    ∀ e' ∈ m, Keyed.before e.1 e'.1 :=
  (List.pairwise_cons.mp sorted).1

theorem Sorted.find_head {k : K} {v : V} {m : List (K × V)}
    (sorted : Sorted ((k, v) :: m)) : find k m = none :=
  find_eq_none_iff.mpr fun e member =>
    (Keyed.before_ne (sorted.head_before e member)).symm

theorem erase_sublist (k : K) (m : List (K × V)) : (erase k m).Sublist m := by
  induction m with
  | nil => exact List.Sublist.refl _
  | cons e m ih =>
    obtain ⟨k', v'⟩ := e
    unfold erase
    split
    · exact ih.cons _
    · exact ih.cons_cons _

theorem Sorted.erase {m : List (K × V)} (sorted : Sorted m) (k : K) :
    Sorted (SortedMap.erase k m) :=
  sorted.sublist (erase_sublist k m)

theorem mem_insertOrAssign {k : K} {v : V} {m : List (K × V)} {e : K × V}
    (member : e ∈ insertOrAssign k v m) : e = (k, v) ∨ e ∈ m := by
  induction m with
  | nil => exact Or.inl (by simpa [insertOrAssign] using member)
  | cons e₀ m ih =>
    obtain ⟨k₀, v₀⟩ := e₀
    unfold insertOrAssign at member
    split at member
    next =>
      rcases List.mem_cons.mp member with here | later
      · exact Or.inl here
      · exact Or.inr (List.mem_cons_of_mem _ later)
    next =>
      split at member
      next =>
        rcases List.mem_cons.mp member with here | later
        · exact Or.inl here
        · exact Or.inr later
      next =>
        rcases List.mem_cons.mp member with here | later
        · exact Or.inr (by simp [here])
        · exact (ih later).imp id (List.mem_cons_of_mem _)

theorem Sorted.insertOrAssign {m : List (K × V)} (sorted : Sorted m) (k : K) (v : V) :
    Sorted (SortedMap.insertOrAssign k v m) := by
  induction m with
  | nil => exact List.pairwise_singleton _ _
  | cons e m ih =>
    obtain ⟨k₀, v₀⟩ := e
    unfold SortedMap.insertOrAssign
    split
    next same =>
      subst same
      exact List.pairwise_cons.mpr ⟨sorted.head_before, sorted.tail⟩
    next different =>
      split
      next less =>
        refine List.pairwise_cons.mpr ⟨fun e member => ?_, sorted⟩
        rcases List.mem_cons.mp member with rfl | later
        · exact less
        · exact Keyed.before_trans less (sorted.head_before e later)
      next notLess =>
        refine List.pairwise_cons.mpr ⟨fun e member => ?_, ih sorted.tail⟩
        rcases mem_insertOrAssign member with rfl | later
        · exact Keyed.before_of_not different notLess
        · exact sorted.head_before e later

theorem Sorted.emplace {m : List (K × V)} (sorted : Sorted m) (k : K) (v : V) :
    Sorted (SortedMap.emplace k v m) := by
  unfold SortedMap.emplace
  split
  · exact sorted
  · exact sorted.insertOrAssign k v

theorem sorted_map_iff (f : K × V → K × W) (keeps : ∀ e, (f e).1 = e.1) (m : List (K × V)) :
    Sorted (m.map f) ↔ Sorted m := by
  unfold Sorted
  rw [List.pairwise_map]
  simp only [keeps]

theorem Sorted.mem_iff {m : List (K × V)} (sorted : Sorted m) {k : K} {v : V} :
    (k, v) ∈ m ↔ find k m = some v := by
  refine ⟨fun member => ?_, mem_of_find⟩
  induction m with
  | nil => cases member
  | cons e m ih =>
    obtain ⟨k', v'⟩ := e
    rw [find_cons]
    rcases List.mem_cons.mp member with here | later
    · cases here
      simp
    · have other : k ≠ k' := (Keyed.before_ne (sorted.head_before _ later)).symm
      rw [if_neg other]
      exact ih sorted.tail later

/-- A sorted map is determined by its lookups. -/
theorem Sorted.ext {m n : List (K × V)} (sm : Sorted m) (sn : Sorted n)
    (same : ∀ k, find k m = find k n) : m = n := by
  have perm : m.Perm n := by
    refine (List.perm_ext_iff_of_nodup ?_ ?_).mpr fun e => ?_
    · exact sm.imp fun less equal => Keyed.before_ne less (congrArg Prod.fst equal)
    · exact sn.imp fun less equal => Keyed.before_ne less (congrArg Prod.fst equal)
    · obtain ⟨k, v⟩ := e
      rw [sm.mem_iff, sn.mem_iff, same]
  exact perm.eq_of_pairwise (fun a b _ _ ab ba => (Keyed.before_asymm ab ba).elim) sm sn

/-! ## Totals -/

/-- The sum over the values of a map. -/
def total (size : V → Nat) (m : List (K × V)) : Nat := (m.map fun e => size e.2).sum

omit [Keyed K] in
@[simp] theorem total_nil (size : V → Nat) : total size ([] : List (K × V)) = 0 := rfl

omit [Keyed K] in
@[simp] theorem total_cons (size : V → Nat) (e : K × V) (m : List (K × V)) :
    total size (e :: m) = size e.2 + total size m := rfl

theorem Sorted.total_erase {m : List (K × V)} (sorted : Sorted m) (size : V → Nat) (k : K) :
    total size (SortedMap.erase k m) + (find k m).elim 0 size = total size m := by
  induction m with
  | nil => rfl
  | cons e m ih =>
    obtain ⟨k', v'⟩ := e
    have rest := ih sorted.tail
    rw [SortedMap.erase, find_cons]
    split
    next same =>
      subst same
      rw [sorted.find_head] at rest
      simp only [Option.elim_none, Option.elim_some, total_cons] at rest ⊢
      omega
    next =>
      simp only [total_cons]
      omega

theorem Sorted.total_insertOrAssign {m : List (K × V)} (sorted : Sorted m) (size : V → Nat)
    (k : K) (v : V) :
    total size (SortedMap.insertOrAssign k v m) + (find k m).elim 0 size =
      total size m + size v := by
  induction m with
  | nil => simp [SortedMap.insertOrAssign]
  | cons e m ih =>
    obtain ⟨k', v'⟩ := e
    have rest := ih sorted.tail
    rw [SortedMap.insertOrAssign, find_cons]
    split
    next =>
      simp only [Option.elim_some, total_cons]
      omega
    next different =>
      split
      next less =>
        have absent : find k m = none := by
          rw [find_eq_none_iff]
          intro e member
          exact (Keyed.before_ne (Keyed.before_trans less (sorted.head_before e member))).symm
        simp only [absent, Option.elim_none, total_cons]
        omega
      next =>
        simp only [total_cons]
        omega

/-! ## Building a map from a map -/

section CollectM

variable {E : Type}

/-- Visit the entries of a map in order and store what each of them yields. -/
def collectM : (m : List (K × V)) → ((e : K × V) → e ∈ m → Except E (Option W)) →
    Except E (List (K × W))
  | [], _ => .ok []
  | e :: m, f => do
    let yielded ← f e List.mem_cons_self
    let rest ← collectM m fun e' member => f e' (List.mem_cons_of_mem _ member)
    match yielded with
    | none => .ok rest
    | some w => .ok (insertOrAssign e.1 w rest)

theorem collectM_cons_ok {e : K × V} {m : List (K × V)}
    {f : (e' : K × V) → e' ∈ e :: m → Except E (Option W)} {r : List (K × W)}
    (ok : collectM (e :: m) f = .ok r) :
    ∃ yielded rest, f e List.mem_cons_self = .ok yielded ∧
      collectM m (fun e' member => f e' (List.mem_cons_of_mem _ member)) = .ok rest ∧
      r = match yielded with
        | none => rest
        | some w => insertOrAssign e.1 w rest := by
  unfold collectM at ok
  cases head : f e List.mem_cons_self with
  | error err => simp [head, bind, Except.bind] at ok
  | ok yielded =>
    cases tail : collectM m fun e' member => f e' (List.mem_cons_of_mem _ member) with
    | error err => simp [head, tail, bind, Except.bind] at ok
    | ok rest =>
      refine ⟨yielded, rest, rfl, rfl, ?_⟩
      simp only [head, tail, bind, Except.bind] at ok
      cases yielded <;> simpa using ok.symm

theorem sorted_collectM {m : List (K × V)} {f : (e : K × V) → e ∈ m → Except E (Option W)}
    {r : List (K × W)} (ok : collectM m f = .ok r) : Sorted r := by
  induction m generalizing r with
  | nil =>
    cases ok
    exact sorted_nil
  | cons e m ih =>
    obtain ⟨yielded, rest, -, tail, rfl⟩ := collectM_cons_ok ok
    cases yielded with
    | none => exact ih tail
    | some w => exact (ih tail).insertOrAssign _ _

theorem find_collectM_none {m : List (K × V)}
    {f : (e : K × V) → e ∈ m → Except E (Option W)} {r : List (K × W)}
    (ok : collectM m f = .ok r) {k : K} (absent : find k m = none) : find k r = none := by
  induction m generalizing r with
  | nil =>
    cases ok
    rfl
  | cons e m ih =>
    obtain ⟨k', v'⟩ := e
    obtain ⟨yielded, rest, -, tail, rfl⟩ := collectM_cons_ok ok
    rw [find_cons] at absent
    split at absent
    next => cases absent
    next other =>
      cases yielded with
      | none => exact ih tail absent
      | some w =>
        simp only [find_insertOrAssign, if_neg other]
        exact ih tail absent

/-- At a present key the result holds what the visit of that entry yields. -/
theorem find_collectM_some {m : List (K × V)} (sorted : Sorted m)
    {f : (e : K × V) → e ∈ m → Except E (Option W)} {r : List (K × W)}
    (ok : collectM m f = .ok r) {k : K} {v : V} (present : find k m = some v) :
    ∃ member, f (k, v) member = .ok (find k r) := by
  induction m generalizing r with
  | nil => cases present
  | cons e m ih =>
    obtain ⟨k', v'⟩ := e
    obtain ⟨yielded, rest, head, tail, rfl⟩ := collectM_cons_ok ok
    rw [find_cons] at present
    split at present
    next here =>
      subst here
      cases present
      refine ⟨List.mem_cons_self, ?_⟩
      cases yielded with
      | none => rw [head, find_collectM_none tail sorted.find_head]
      | some w => rw [head, find_insertOrAssign_self]
    next other =>
      obtain ⟨member, yields⟩ := ih sorted.tail tail present
      refine ⟨List.mem_cons_of_mem _ member, ?_⟩
      cases yielded with
      | none => exact yields
      | some w =>
        simp only [find_insertOrAssign, if_neg other]
        exact yields

theorem exists_collectM {m : List (K × V)} {f : (e : K × V) → e ∈ m → Except E (Option W)}
    (each : ∀ e member, ∃ yielded, f e member = .ok yielded) : ∃ r, collectM m f = .ok r := by
  induction m with
  | nil => exact ⟨[], rfl⟩
  | cons e m ih =>
    obtain ⟨yielded, head⟩ := each e List.mem_cons_self
    obtain ⟨rest, tail⟩ := ih fun e' member => each e' (List.mem_cons_of_mem _ member)
    simp only [collectM, head, tail, bind, Except.bind]
    cases yielded with
    | none => exact ⟨_, rfl⟩
    | some w => exact ⟨_, rfl⟩

/-- What the visit of a key yields, when it succeeds: nothing for an absent key. -/
def visit (f : K × V → Except E (Option W)) (k : K) : Option V → Option (Option W)
  | none => some none
  | some v => (f (k, v)).toOption

theorem visit_find {m : List (K × V)} (sorted : Sorted m) {f : K × V → Except E (Option W)}
    {r : List (K × W)} (ok : collectM m (fun e _ => f e) = .ok r) (k : K) :
    visit f k (find k m) = some (find k r) := by
  cases present : find k m with
  | none => rw [find_collectM_none ok present, visit]
  | some v =>
    obtain ⟨-, yields⟩ := find_collectM_some sorted ok present
    rw [visit, yields, Except.toOption]

/-- Two visits give the same map when they yield the same at every key. -/
theorem collectM_congr {V' : Type} {m : List (K × V)} {m' : List (K × V')} (sorted : Sorted m)
    (sorted' : Sorted m') {f : K × V → Except E (Option W)} {g : K × V' → Except E (Option W)}
    (same : ∀ k, visit f k (find k m) = visit g k (find k m')) {r : List (K × W)}
    (ok : collectM m (fun e _ => f e) = .ok r) : collectM m' (fun e _ => g e) = .ok r := by
  have yields (k : K) : visit g k (find k m') = some (find k r) :=
    (same k).symm.trans (visit_find sorted ok k)
  have each : ∀ e ∈ m', ∃ yielded, g e = .ok yielded := by
    intro e member
    have here := yields e.1
    rw [sorted'.mem_iff.mp member, visit] at here
    cases found : g (e.1, e.2) with
    | error err =>
      rw [found] at here
      cases here
    | ok yielded => exact ⟨yielded, rfl⟩
  obtain ⟨r', ok'⟩ := exists_collectM each
  have equal : r' = r := by
    refine (sorted_collectM ok').ext (sorted_collectM ok) ?_
    intro k
    have both := (visit_find sorted' ok' k).symm.trans (yields k)
    exact Option.some.inj both
  rw [ok', equal]

theorem toOption_collectM_congr {V' : Type} {m : List (K × V)} {m' : List (K × V')}
    (sorted : Sorted m) (sorted' : Sorted m') {f : K × V → Except E (Option W)}
    {g : K × V' → Except E (Option W)}
    (same : ∀ k, visit f k (find k m) = visit g k (find k m')) :
    (collectM m (fun e _ => f e)).toOption = (collectM m' (fun e _ => g e)).toOption := by
  cases left : collectM m (fun e _ => f e) with
  | ok r => rw [collectM_congr sorted sorted' same left]
  | error err =>
    cases right : collectM m' (fun e _ => g e) with
    | ok r =>
      rw [collectM_congr sorted' sorted (fun k => (same k).symm) right] at left
      cases left
    | error err' => rfl

theorem insertOrAssign_map {X : Type} (h : W → X) (k : K) (w : W) (m : List (K × W)) :
    (insertOrAssign k w m).map (fun e => (e.1, h e.2)) =
      insertOrAssign k (h w) (m.map fun e => (e.1, h e.2)) := by
  induction m with
  | nil => rfl
  | cons e m ih =>
    obtain ⟨k', w'⟩ := e
    simp only [insertOrAssign, List.map_cons]
    split
    · rfl
    · split
      · rfl
      · rw [List.map_cons, ih]

/-- Values can be mapped before or after they are stored. -/
theorem collectM_map {X : Type} (h : W → X) (m : List (K × V))
    (f : (e : K × V) → e ∈ m → Except E (Option W)) :
    (collectM m f).map (List.map fun e => (e.1, h e.2)) =
      collectM m fun e member => (f e member).map (Option.map h) := by
  induction m with
  | nil => rfl
  | cons e m ih =>
    have tail := ih fun e' member => f e' (List.mem_cons_of_mem _ member)
    simp only [collectM, bind]
    rw [← tail]
    cases f e List.mem_cons_self with
    | error err => rfl
    | ok yielded =>
      cases collectM m fun e' member => f e' (List.mem_cons_of_mem _ member) with
      | error err => rfl
      | ok rest =>
        cases yielded with
        | none => rfl
        | some w =>
          simp only [Except.bind, Except.map, Option.map]
          rw [insertOrAssign_map]

/-- The values of the visited map can be mapped before or during the visit. -/
theorem collectM_of_map {U : Type} (h : U → V) (m : List (K × U))
    (f : K × V → Except E (Option W)) :
    collectM (m.map fun e => (e.1, h e.2)) (fun e _ => f e) =
      collectM m fun e _ => f (e.1, h e.2) := by
  induction m with
  | nil => rfl
  | cons e m ih =>
    show collectM ((e.1, h e.2) :: m.map fun e => (e.1, h e.2)) (fun e _ => f e) = _
    simp only [collectM, ih]

end CollectM

end SortedMap

end FbThrift
