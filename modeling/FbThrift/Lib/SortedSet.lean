import FbThrift.Lib.SortedMap

/-!
# Finite sets as sorted lists

The sets that go with `SortedMap`: strictly increasing lists of keys, equal as lists
when they have the same members.  `SortedMap.ofList` and `SortedSet.ofList` build a
container by inserting one entry after the other.
-/

namespace FbThrift

namespace SortedSet

variable {K : Type} [Keyed K]

/-- Strictly increasing, hence distinct, elements. -/
def Sorted (s : List K) : Prop := s.Pairwise Keyed.before

instance (s : List K) : Decidable (Sorted s) :=
  inferInstanceAs (Decidable (s.Pairwise Keyed.before))

/-- Ordered insertion; an element that is there stays. -/
def insert (k : K) : List K → List K
  | [] => [k]
  | k' :: s =>
    if k = k' then k' :: s
    else if Keyed.before k k' then k :: k' :: s
    else k' :: insert k s

def erase (k : K) (s : List K) : List K := s.filter (fun k' => k' ≠ k)

/-- Inserts the elements of a list from left to right. -/
def ofList (l : List K) : List K := l.foldl (fun s k => insert k s) []

theorem mem_insert {k k' : K} {s : List K} : k' ∈ insert k s ↔ k' = k ∨ k' ∈ s := by
  induction s with
  | nil => simp [insert]
  | cons e s ih =>
    unfold insert
    split
    next equal => simp [equal]
    next =>
      split
      · simp
      · simp only [List.mem_cons, ih]
        tauto

theorem Sorted.insert {k : K} {s : List K} (sorted : Sorted s) : Sorted (insert k s) := by
  induction s with
  | nil => simp [SortedSet.insert, Sorted]
  | cons e s ih =>
    obtain ⟨head, tail⟩ := List.pairwise_cons.mp sorted
    unfold SortedSet.insert
    split
    next => exact sorted
    next different =>
      split
      next less =>
        refine List.pairwise_cons.mpr ⟨fun x member => ?_, sorted⟩
        rcases List.mem_cons.mp member with rfl | member
        · exact less
        · exact Keyed.before_trans less (head x member)
      next notLess =>
        refine List.pairwise_cons.mpr ⟨fun x member => ?_, ih tail⟩
        rcases mem_insert.mp member with rfl | member
        · exact Keyed.before_of_not different notLess
        · exact head x member

theorem Sorted.insert_of_forall_before {k : K} {s : List K}
    (above : ∀ x ∈ s, Keyed.before x k) : SortedSet.insert k s = s ++ [k] := by
  induction s with
  | nil => rfl
  | cons e s ih =>
    have less := above e (by simp)
    unfold SortedSet.insert
    rw [if_neg (Keyed.before_ne less).symm, if_neg (Keyed.before_asymm less),
      ih fun x member => above x (by simp [member])]
    rfl

theorem foldl_insert_of_sorted {s l : List K} (sorted : Sorted (s ++ l)) :
    l.foldl (fun s k => SortedSet.insert k s) s = s ++ l := by
  induction l generalizing s with
  | nil => simp
  | cons k l ih =>
    have above : ∀ x ∈ s, Keyed.before x k := fun x member =>
      (List.pairwise_append.mp sorted).2.2 x member k (by simp)
    rw [List.foldl_cons, Sorted.insert_of_forall_before above, ih (by simpa using sorted)]
    simp

theorem Sorted.ofList_eq {l : List K} (sorted : Sorted l) : ofList l = l :=
  foldl_insert_of_sorted (s := []) sorted

theorem sorted_ofList (l : List K) : Sorted (ofList l) := by
  have general : ∀ s : List K, Sorted s → Sorted (l.foldl (fun s k => insert k s) s) := by
    induction l with
    | nil => exact fun s sorted => sorted
    | cons k l ih => exact fun s sorted => ih (insert k s) sorted.insert
  exact general [] .nil

theorem mem_ofList {k : K} {l : List K} : k ∈ ofList l ↔ k ∈ l := by
  have general : ∀ s : List K, k ∈ l.foldl (fun s k => insert k s) s ↔ k ∈ s ∨ k ∈ l := by
    induction l with
    | nil => simp
    | cons k' l ih =>
      intro s
      rw [List.foldl_cons, ih, mem_insert, List.mem_cons]
      tauto
  simpa [ofList] using general []

theorem length_insert_le (k : K) (s : List K) : (insert k s).length ≤ s.length + 1 := by
  induction s with
  | nil => simp [insert]
  | cons k' s ih =>
    unfold insert
    split
    · simp
    · split
      · simp
      · simpa using ih

theorem length_ofList_le (l : List K) : (ofList l).length ≤ l.length := by
  have general : ∀ s : List K,
      (l.foldl (fun s k => insert k s) s).length ≤ s.length + l.length := by
    induction l with
    | nil => simp
    | cons k l ih =>
      intro s
      have below := ih (insert k s)
      have grown := length_insert_le k s
      rw [List.foldl_cons, List.length_cons]
      omega
  simpa [ofList] using general []

end SortedSet

namespace SortedMap

variable {K V : Type} [Keyed K]

/-- Stores the entries of a list from left to right; a later entry of a key wins. -/
def ofList (l : List (K × V)) : List (K × V) :=
  l.foldl (fun m e => insertOrAssign e.1 e.2 m) []

theorem insertOrAssign_of_forall_before {k : K} {v : V} {m : List (K × V)}
    (above : ∀ e ∈ m, Keyed.before e.1 k) : insertOrAssign k v m = m ++ [(k, v)] := by
  induction m with
  | nil => rfl
  | cons e m ih =>
    have less := above e (by simp)
    unfold insertOrAssign
    rw [if_neg (Keyed.before_ne less).symm, if_neg (Keyed.before_asymm less),
      ih fun x member => above x (by simp [member])]
    rfl

theorem foldl_insertOrAssign_of_sorted {m l : List (K × V)} (sorted : Sorted (m ++ l)) :
    l.foldl (fun m e => insertOrAssign e.1 e.2 m) m = m ++ l := by
  induction l generalizing m with
  | nil => simp
  | cons e l ih =>
    have above : ∀ x ∈ m, Keyed.before x.1 e.1 := fun x member =>
      (List.pairwise_append.mp sorted).2.2 x member e (by simp)
    rw [List.foldl_cons, insertOrAssign_of_forall_before above, ih (by simpa using sorted)]
    simp

theorem Sorted.ofList_eq {l : List (K × V)} (sorted : Sorted l) : ofList l = l :=
  foldl_insertOrAssign_of_sorted (m := []) sorted

theorem sorted_ofList (l : List (K × V)) : Sorted (ofList l) := by
  have general : ∀ m : List (K × V), Sorted m →
      Sorted (l.foldl (fun m e => insertOrAssign e.1 e.2 m) m) := by
    induction l with
    | nil => exact fun m sorted => sorted
    | cons e l ih => exact fun m sorted => ih _ (sorted.insertOrAssign e.1 e.2)
  exact general [] .nil

theorem mem_of_mem_ofList {e : K × V} {l : List (K × V)} (member : e ∈ ofList l) : e ∈ l := by
  have general : ∀ m : List (K × V),
      e ∈ l.foldl (fun m e => insertOrAssign e.1 e.2 m) m → e ∈ m ∨ e ∈ l := by
    clear member
    induction l with
    | nil => exact fun m member => Or.inl member
    | cons e' l ih =>
      intro m member
      rcases ih _ member with early | late
      · rcases mem_insertOrAssign early with rfl | old
        · exact Or.inr List.mem_cons_self
        · exact Or.inl old
      · exact Or.inr (List.mem_cons_of_mem _ late)
  simpa [ofList] using general [] member

theorem length_insertOrAssign_le (k : K) (v : V) (m : List (K × V)) :
    (insertOrAssign k v m).length ≤ m.length + 1 := by
  induction m with
  | nil => simp [insertOrAssign]
  | cons e m ih =>
    unfold insertOrAssign
    split
    · simp
    · split
      · simp
      · simpa using ih

theorem length_ofList_le (l : List (K × V)) : (ofList l).length ≤ l.length := by
  have general : ∀ m : List (K × V),
      (l.foldl (fun m e => insertOrAssign e.1 e.2 m) m).length ≤ m.length + l.length := by
    induction l with
    | nil => simp
    | cons e l ih =>
      intro m
      have below := ih (insertOrAssign e.1 e.2 m)
      have grown := length_insertOrAssign_le e.1 e.2 m
      rw [List.foldl_cons, List.length_cons]
      omega
  simpa [ofList] using general []

/-- With distinct keys no entry is overwritten. -/
theorem find_ofList {l : List (K × V)} (nodup : (l.map Prod.fst).Nodup) (k : K) :
    find k (ofList l) = find k l := by
  have general : ∀ m : List (K × V), find k (l.foldl (fun m e => insertOrAssign e.1 e.2 m) m) =
      (find k l).or (find k m) := by
    induction l with
    | nil => simp
    | cons e l ih =>
      obtain ⟨k', v⟩ := e
      intro m
      rw [List.map_cons, List.nodup_cons] at nodup
      obtain ⟨fresh, nodup⟩ := nodup
      rw [List.foldl_cons, ih nodup, find_insertOrAssign, find_cons]
      split
      next same =>
        subst same
        have absent : find k l = none := find_eq_none_iff.mpr fun e member same =>
          fresh (List.mem_map.mpr ⟨e, member, same⟩)
        rw [absent]
        rfl
      next => rfl
  simpa [ofList] using general []

theorem mem_iff_find {l : List (K × V)} (nodup : (l.map Prod.fst).Nodup) {k : K} {v : V} :
    (k, v) ∈ l ↔ find k l = some v := by
  refine ⟨fun member => ?_, mem_of_find⟩
  induction l with
  | nil => cases member
  | cons e l ih =>
    obtain ⟨k', v'⟩ := e
    rw [List.map_cons, List.nodup_cons] at nodup
    obtain ⟨fresh, nodup⟩ := nodup
    rw [find_cons]
    rcases List.mem_cons.mp member with here | later
    · cases here
      rw [if_pos rfl]
    · have other : k ≠ k' := fun same => fresh (List.mem_map.mpr ⟨(k, v), later, same⟩)
      rw [if_neg other]
      exact ih nodup later

theorem mem_ofList {l : List (K × V)} (nodup : (l.map Prod.fst).Nodup) {e : K × V}
    (member : e ∈ l) : e ∈ ofList l := by
  obtain ⟨k, v⟩ := e
  refine mem_of_find ?_
  rw [find_ofList nodup]
  exact (mem_iff_find nodup).mp member

theorem contains_eq_decide (k : K) (m : List (K × V)) :
    contains k m = decide (k ∈ m.map Prod.fst) := by
  rw [Bool.eq_iff_iff, decide_eq_true_eq, List.mem_map, contains, Option.isSome_iff_ne_none, ne_eq,
    find_eq_none_iff]
  simp

/-- Two maps have as many entries in common from either side. -/
theorem length_filter_mem_comm {W : Type} {l : List (K × V)} {m : List (K × W)}
    (nodup : (l.map Prod.fst).Nodup) (nodup' : (m.map Prod.fst).Nodup) :
    (l.filter fun e => e.1 ∈ m.map Prod.fst).length =
      (m.filter fun e => e.1 ∈ l.map Prod.fst).length := by
  have perm : ((l.filter fun e => e.1 ∈ m.map Prod.fst).map Prod.fst).Perm
      ((m.filter fun e => e.1 ∈ l.map Prod.fst).map Prod.fst) := by
    refine (List.perm_ext_iff_of_nodup ?_ ?_).mpr fun k => ?_
    · exact nodup.sublist (List.filter_sublist.map _)
    · exact nodup'.sublist (List.filter_sublist.map _)
    · simp only [List.mem_map, List.mem_filter, decide_eq_true_eq]
      constructor
      · rintro ⟨e, ⟨member, e', member', same⟩, rfl⟩
        exact ⟨e', ⟨member', e, member, same.symm⟩, same⟩
      · rintro ⟨e, ⟨member, e', member', same⟩, rfl⟩
        exact ⟨e', ⟨member', e, member, same.symm⟩, same⟩
  simpa using perm.length_eq

theorem Sorted.nodup {m : List (K × V)} (sorted : Sorted m) : (m.map Prod.fst).Nodup :=
  List.pairwise_map.mpr (sorted.imp Keyed.before_ne)

end SortedMap

end FbThrift
