import Mathlib.Data.List.Nodup
import FbThrift.Frozen.HashTableSearch

/-!
# Freezing a hash table

Items are placed one by one.  As long as each finds a free bucket before its counter overflows,
it stands where it is looked up, and the frozen table finds exactly the items of the collection.
-/

namespace FbThrift.Frozen

open OpenAddressing

variable {α κ : Type} [DecidableEq κ] {key : α → κ} {hash : κ → UInt64} {index : Index α}
  {item : α} {coll : List α} {start : Nat}

/-- The bucket of a probe of the builder, whose counter has 64 bits. -/
def wrapped (start buckets p : Nat) : Nat := (start + triangular p) % 2 ^ 64 % buckets

variable {p q buckets : Nat} {index' : Index α}

theorem triangular_mono (le : p ≤ q) : triangular p ≤ triangular q := by
  induction le with
  | refl => exact Nat.le_refl _
  | step _ ih => exact Nat.le_trans ih (Nat.le_add_right _ _)

/-- The counter did not overflow, or that makes no difference. -/
def Undivided (start buckets p : Nat) : Prop :=
  buckets ∣ 2 ^ 64 ∨ start + triangular p < 2 ^ 64

instance (start buckets p : Nat) : Decidable (Undivided start buckets p) :=
  inferInstanceAs (Decidable (_ ∨ _))

theorem Undivided.mono (undivided : Undivided start buckets q) (le : p ≤ q) :
    Undivided start buckets p :=
  undivided.imp_right fun less =>
    Nat.lt_of_le_of_lt (Nat.add_le_add_left (triangular_mono le) start) less

theorem Undivided.wrapped_eq (undivided : Undivided start buckets p) :
    wrapped start buckets p = probes start buckets p := by
  rcases undivided with divides | less
  · exact Nat.mod_mod_of_dvd _ divides
  · rw [wrapped, Nat.mod_eq_of_lt less]
    rfl

/-- An item finds a free bucket before its counter overflows. -/
def FreeBucket (index : Index α) (start : Nat) : Prop :=
  ∃ p < index.length, Undivided start index.length p ∧
    index.slot (probes start index.length p) = none

instance (index : Index α) (start : Nat) : Decidable (FreeBucket index start) :=
  inferInstanceAs (Decidable (∃ p < index.length, Undivided start index.length p ∧
    index.slot (probes start index.length p) = none))

/-- What holds of a result, if there is one. -/
def Afterwards {ε β : Type} (result : Except ε β) (P : β → Prop) : Prop :=
  match result with
  | .ok value => P value
  | .error _ => True

instance {ε β : Type} (result : Except ε β) (P : β → Prop) [DecidablePred P] :
    Decidable (Afterwards result P) :=
  match result with
  | .ok value => inferInstanceAs (Decidable (P value))
  | .error _ => .isTrue trivial

/-- Each item finds a free bucket when it is placed. -/
def UnobstructedFrom (key : α → κ) (hash : κ → UInt64) (index : Index α) : List α → Prop
  | [] => True
  | item :: coll =>
    FreeBucket index (spread hash (key item)) ∧
      Afterwards (place key item index (spread hash (key item)) 0 index.length)
        fun index => UnobstructedFrom key hash index coll

instance decidableUnobstructedFrom (key : α → κ) (hash : κ → UInt64) :
    (index : Index α) → (coll : List α) → Decidable (UnobstructedFrom key hash index coll)
  | _, [] => .isTrue trivial
  | index, item :: coll =>
    have (index : Index α) : Decidable (UnobstructedFrom key hash index coll) :=
      decidableUnobstructedFrom key hash index coll
    inferInstanceAs (Decidable (FreeBucket index (spread hash (key item)) ∧
      Afterwards (place key item index (spread hash (key item)) 0 index.length)
        fun index => UnobstructedFrom key hash index coll))

/-- The index of a collection fits in a vector, and each item finds a free bucket. -/
def Unobstructed (key : α → κ) (hash : κ → UInt64) (coll : List α) : Prop :=
  blockCount coll.length * Block.bits ≤ maxIndexSize ∧
    UnobstructedFrom key hash (List.replicate (blockCount coll.length * Block.bits) none) coll

instance (key : α → κ) (hash : κ → UInt64) (coll : List α) :
    Decidable (Unobstructed key hash coll) :=
  inferInstanceAs (Decidable (_ ∧ _))

/-- A collection is frozen, and exactly its items are found by their keys. -/
def FindsExactly (key : α → κ) (hash : κ → UInt64) (coll : List α) : Prop :=
  ∃ table, freeze key hash coll = .ok table ∧
    (∀ item ∈ coll, table.find key hash (key item) = .found item) ∧
    ∀ k, k ∉ coll.map key → table.find key hash k = .end

/-! ## Placing an item -/

/-- The counter of the next probe. -/
theorem counter_succ (start p : Nat) :
    ((start + triangular p) % 2 ^ 64 + (p + 1)) % 2 ^ 64 = (start + triangular (p + 1)) % 2 ^ 64 := by
  rw [Nat.mod_add_mod, triangular, Nat.add_assoc]

theorem place_ok {left : Nat}
    (placed : place key item index ((start + triangular p) % 2 ^ 64) p left = .ok index') :
    ∃ q, p ≤ q ∧ q ≤ p + left ∧ index.slot (wrapped start index.length q) = none ∧
      (∀ r, p ≤ r → r < q → index.slot (wrapped start index.length r) ≠ none) ∧
      index' = index.set (wrapped start index.length q) (some item) := by
  induction left generalizing p with
  | zero =>
    rw [place] at placed
    split at placed
    · cases placed
      exact ⟨p, Nat.le_refl _, Nat.le_refl _, ‹_›, fun r le less => by omega, rfl⟩
    · cases placed
  | succ left ih =>
    rw [place] at placed
    split at placed
    · cases placed
      exact ⟨p, Nat.le_refl _, Nat.le_add_right _ _, ‹_›, fun r le less => by omega, rfl⟩
    · rename_i other occupied
      simp only at placed
      split at placed
      · cases placed
      · rw [counter_succ] at placed
        obtain ⟨q, le, near, free, before, eq⟩ := ih placed
        refine ⟨q, by omega, by omega, free, fun r from_ less => ?_, eq⟩
        rcases Nat.eq_or_lt_of_le from_ with rfl | later
        · rw [wrapped, occupied]
          exact nofun
        · exact before r later less

theorem exists_place {left : Nat} (le : p ≤ q) (near : q ≤ p + left)
    (free : index.slot (wrapped start index.length q) = none)
    (new : ∀ bucket other, index.slot bucket = some other → key item ≠ key other) :
    ∃ index', place key item index ((start + triangular p) % 2 ^ 64) p left = .ok index' := by
  induction left generalizing p with
  | zero =>
    obtain rfl : p = q := by omega
    rw [wrapped] at free
    rw [place, free]
    exact ⟨_, rfl⟩
  | succ left ih =>
    rw [place]
    split
    · exact ⟨_, rfl⟩
    · rename_i other occupied
      have notHere : p ≠ q := by
        rintro rfl
        rw [wrapped, occupied] at free
        cases free
      simp only
      rw [if_neg (new _ _ occupied), counter_succ]
      exact ih (by omega) (by omega)

theorem slot_set {bucket : Nat} (less : bucket < index.length) (other : Nat) :
    Index.slot (index.set bucket (some item)) other =
      if bucket = other then some item else index.slot other := by
  rw [Index.slot, List.getElem?_set]
  split
  · simp
  · rfl

/-- What stands in an index: items of a collection, where they are looked up. -/
structure Holds (key : α → κ) (hash : κ → UInt64) (index : Index α) (items : List α) : Prop where
  placed : ∀ item ∈ items,
    Placed index.slot (probes (spread hash (key item)) index.length) index.length item
  only : ∀ bucket item, index.slot bucket = some item → item ∈ items

omit [DecidableEq κ] in
theorem holds_empty (buckets : Nat) : Holds key hash (List.replicate buckets none) [] where
  placed := nofun
  only bucket item here := by
    rw [Index.slot, List.getElem?_replicate] at here
    split at here <;> cases here

theorem Holds.place {items : List α} (holds : Holds key hash index items)
    (new : key item ∉ items.map key) (free : FreeBucket index (spread hash (key item))) :
    ∃ index', place key item index (spread hash (key item)) 0 index.length = .ok index' ∧
      index'.length = index.length ∧ Holds key hash index' (items ++ [item]) := by
  obtain ⟨p, less, undivided, freeHere⟩ := free
  have fits : spread hash (key item) < 2 ^ 64 := Nat.mod_lt _ (Nat.two_pow_pos 64)
  have newHere : ∀ bucket other, index.slot bucket = some other → key item ≠ key other := by
    intro bucket other here same
    exact new (same ▸ List.mem_map_of_mem (holds.only bucket other here))
  have wrappedFree := freeHere
  rw [← undivided.wrapped_eq] at wrappedFree
  obtain ⟨index', placed⟩ := exists_place (Nat.zero_le p)
    (show p ≤ 0 + index.length by omega) wrappedFree newHere
  obtain ⟨q, -, -, qFree, before, eq⟩ := place_ok placed
  rw [triangular, Nat.add_zero, Nat.mod_eq_of_lt fits] at placed
  have first : q ≤ p := by
    by_contra later
    exact before p (Nat.zero_le p) (Nat.lt_of_not_le later) wrappedFree
  rw [(undivided.mono first).wrapped_eq] at qFree eq
  have inside : probes (spread hash (key item)) index.length q < index.length :=
    Nat.mod_lt _ (Nat.zero_lt_of_lt less)
  have length : index'.length = index.length := by rw [eq, List.length_set]
  have slot (bucket : Nat) : index'.slot bucket =
      if probes (spread hash (key item)) index.length q = bucket then some item
      else index.slot bucket := by
    rw [eq]
    exact slot_set inside bucket
  have filled : Extends index.slot index'.slot := by
    intro bucket other here
    rw [slot, if_neg]
    · exact here
    · rintro rfl
      rw [qFree] at here
      cases here
  refine ⟨index', placed, length, fun other member => ?_, fun bucket other here => ?_⟩
  · rw [length]
    rcases List.mem_append.mp member with old | last
    · exact (holds.placed other old).extend filled
    · rw [List.mem_singleton.mp last]
      refine ⟨q, Nat.lt_of_le_of_lt first less, by rw [slot, if_pos rfl], ?_⟩
      intro r rLess rFree
      obtain ⟨occupant, occupied⟩ :=
        Option.ne_none_iff_exists'.mp (before r (Nat.zero_le r) rLess)
      rw [(undivided.mono (Nat.le_trans (Nat.le_of_lt rLess) first)).wrapped_eq] at occupied
      cases rFree.symm.trans (filled _ _ occupied)
  · rw [slot] at here
    split at here
    · cases here
      exact List.mem_append_right _ (List.mem_singleton_self _)
    · exact List.mem_append_left _ (holds.only bucket other here)

/-- Items that all find free buckets stand where they are looked up. -/
theorem exists_buildIndexFrom {items : List α} (holds : Holds key hash index items)
    (distinct : ((items ++ coll).map key).Nodup)
    (unobstructed : UnobstructedFrom key hash index coll) :
    ∃ index', buildIndexFrom key hash index coll = .ok index' ∧
      index'.length = index.length ∧ Holds key hash index' (items ++ coll) := by
  induction coll generalizing index items with
  | nil =>
    rw [List.append_nil]
    exact ⟨index, rfl, rfl, holds⟩
  | cons item coll ih =>
    obtain ⟨free, later⟩ := unobstructed
    have new : key item ∉ items.map key := by
      rw [List.map_append, List.map_cons] at distinct
      exact fun member => (List.nodup_append.mp distinct).2.2 _ member _ List.mem_cons_self rfl
    obtain ⟨next, placed, length, nextHolds⟩ := holds.place new free
    rw [placed] at later
    rw [List.append_cons] at distinct ⊢
    obtain ⟨last, built, lastLength, lastHolds⟩ := ih nextHolds distinct later
    refine ⟨last, ?_, lastLength.trans length, lastHolds⟩
    rw [buildIndexFrom, placed]
    exact built

theorem blockCount_pos (size : Nat) : 0 < blockCount size := by
  have odd := Nat.right_le_or (n := (size * 5 / 2 + Block.bits - 1) / Block.bits) (m := 1)
  rw [blockCount]
  split <;> omega

theorem Holds.finds {blocks : Nat} (holds : Holds key hash index coll)
    (distinct : (coll.map key).Nodup) (fits : index.length = blocks * Block.bits)
    (positive : 0 < blocks) (small : index.length ≤ maxIndexSize) :
    (∀ item ∈ coll, (HashTable.ofIndex index blocks).find key hash (key item) = .found item) ∧
    ∀ k, k ∉ coll.map key → (HashTable.ofIndex index blocks).find key hash k = .end := by
  constructor
  · intro item member
    rw [find_ofIndex hash fits positive small, (holds.placed item member).lookup_eq]
    · rfl
    · intro bucket other here same
      exact List.inj_on_of_nodup_map distinct (holds.only bucket other here) member same
  · intro k absent
    rw [find_ofIndex hash fits positive small, lookup_eq_none]
    · rfl
    · intro bucket other here same
      exact absent (same ▸ List.mem_map_of_mem (holds.only bucket other here))

theorem findsExactly_of_unobstructed (distinct : (coll.map key).Nodup)
    (unobstructed : Unobstructed key hash coll) : FindsExactly key hash coll := by
  obtain ⟨small, free⟩ := unobstructed
  obtain ⟨index, built, length, holds⟩ :=
    exists_buildIndexFrom (holds_empty _) (by rwa [List.nil_append]) free
  rw [List.length_replicate] at length
  rw [List.nil_append] at holds
  refine ⟨HashTable.ofIndex index (blockCount coll.length), ?_,
    holds.finds distinct length (blockCount_pos _) (length ▸ small)⟩
  rw [freeze, buildIndex, if_neg (Nat.not_lt_of_le small), built]
  rfl

/-! ## Collections whose counters do not overflow -/

/-- The last probe is where the one before it was. -/
theorem probes_length (start : Nat) (positive : 0 < buckets) :
    probes start buckets buckets = probes start buckets (buckets - 1) := by
  obtain ⟨last, rfl⟩ := Nat.exists_eq_succ_of_ne_zero (Nat.ne_of_gt positive)
  rw [Nat.succ_sub_one, probes, probes, triangular, ← Nat.add_assoc, Nat.add_mod_right]

theorem freeBucket_of_place (fits : start < 2 ^ 64)
    (positive : 0 < index.length) (undivided : Undivided start index.length index.length)
    (placed : place key item index start 0 index.length = .ok index') :
    FreeBucket index start := by
  have counter : (start + triangular 0) % 2 ^ 64 = start := Nat.mod_eq_of_lt fits
  rw [← counter] at placed
  obtain ⟨q, -, near, free, before, -⟩ := place_ok placed
  rw [Nat.zero_add] at near
  have unwrapped {r : Nat} (le : r ≤ index.length) :
      wrapped start index.length r = probes start index.length r :=
    (undivided.mono le).wrapped_eq
  rw [unwrapped near] at free
  rcases Nat.eq_or_lt_of_le near with rfl | less
  · refine absurd ?_ (before (index.length - 1) (Nat.zero_le _) (by omega))
    rw [unwrapped (Nat.sub_le _ _), ← probes_length start positive]
    exact free
  · exact ⟨q, less, undivided.mono near, free⟩

theorem unobstructedFrom_of_build (positive : 0 < index.length)
    (undivided : ∀ item ∈ coll, Undivided (spread hash (key item)) index.length index.length)
    (built : buildIndexFrom key hash index coll = .ok index') :
    UnobstructedFrom key hash index coll := by
  induction coll generalizing index with
  | nil => exact trivial
  | cons item coll ih =>
    obtain ⟨first, undivided⟩ := List.forall_mem_cons.mp undivided
    rw [buildIndexFrom] at built
    have fits : spread hash (key item) < 2 ^ 64 := Nat.mod_lt _ (Nat.two_pow_pos 64)
    rw [UnobstructedFrom]
    cases placed : place key item index (spread hash (key item)) 0 index.length with
    | error error =>
      rw [placed] at built
      cases built
    | ok next =>
      rw [placed] at built
      refine ⟨freeBucket_of_place fits positive first placed, ?_⟩
      have counter : (spread hash (key item) + triangular 0) % 2 ^ 64 = spread hash (key item) :=
        Nat.mod_eq_of_lt fits
      rw [← counter] at placed
      obtain ⟨q, -, -, -, -, rfl⟩ := place_ok placed
      refine ih ?_ ?_ built
      · rwa [List.length_set]
      · rwa [List.length_set]

/-- A table finds exactly its items if each finds a free bucket before its counter overflows;
where no counter can overflow in as many probes as there are buckets, only then. -/
theorem findsExactly_iff_unobstructed (distinct : (coll.map key).Nodup) :
    (Unobstructed key hash coll → FindsExactly key hash coll) ∧
    ((∀ item ∈ coll, Undivided (spread hash (key item)) (blockCount coll.length * Block.bits)
        (blockCount coll.length * Block.bits)) →
      FindsExactly key hash coll → Unobstructed key hash coll) := by
  refine ⟨findsExactly_of_unobstructed distinct, fun undivided finds => ?_⟩
  obtain ⟨table, frozen, -⟩ := finds
  rw [freeze, buildIndex] at frozen
  by_cases large : maxIndexSize < blockCount coll.length * Block.bits
  · rw [if_pos large] at frozen
    cases frozen
  · rw [if_neg large] at frozen
    cases built : buildIndexFrom key hash
        (List.replicate (blockCount coll.length * Block.bits) none) coll with
    | error error =>
      rw [built] at frozen
      cases frozen
    | ok index =>
      refine ⟨Nat.le_of_not_lt large, unobstructedFrom_of_build ?_ ?_ built⟩
      · rw [List.length_replicate]
        exact Nat.mul_pos (blockCount_pos _) (by decide)
      · rwa [List.length_replicate]

/-- Three keys in one block. -/
theorem findsExactly_one_block : FindsExactly id UInt64.ofNat [51, 3689348814741910323, 7] :=
  (findsExactly_iff_unobstructed (by decide)).1 (by decide +kernel)

/-- 26 keys that are their own hashes: two begin in bucket 63 of 192, the counter of the second
overflows, and it is not found. -/
theorem not_findsExactly_overflow :
    ((51 :: 3689348814741910323 :: (List.range 24).map (· + 2)).map id).Nodup ∧
      ¬ FindsExactly id UInt64.ofNat
        (51 :: 3689348814741910323 :: (List.range 24).map (· + 2)) := by
  refine ⟨by decide, ?_⟩
  rintro ⟨table, frozen, found, -⟩
  have missed : (freeze id UInt64.ofNat
      (51 :: 3689348814741910323 :: (List.range 24).map (· + 2))).toOption.map
        (fun table => table.find id UInt64.ofNat 3689348814741910323) = some .end := by
    decide +kernel
  rw [frozen] at missed
  have last := found 3689348814741910323 (List.mem_cons_of_mem _ List.mem_cons_self)
  cases last.symm.trans (Option.some.inj missed)

end FbThrift.Frozen
