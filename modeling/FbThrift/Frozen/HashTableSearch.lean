import FbThrift.Frozen.SparseTable

/-!
# Searching a frozen hash table

The search of a frozen table, block by block, is the lookup along the triangular probe sequence
in the buckets from which the table was made.
-/

namespace FbThrift.Frozen

open OpenAddressing

variable {α κ : Type} [DecidableEq κ] {key : α → κ} {index : Index α} {blocks : Nat} {k : κ}

/-- How far a probe is from the first. -/
def triangular : Nat → Nat
  | 0 => 0
  | p + 1 => triangular p + (p + 1)

/-- The bucket of a probe where nothing overflows. -/
def probes (start buckets p : Nat) : Nat := (start + triangular p) % buckets

theorem probes_succ (start buckets p : Nat) :
    (probes start buckets p + (p + 1)) % buckets = probes start buckets (p + 1) := by
  rw [probes, probes, triangular, Nat.mod_add_mod, Nat.add_assoc]

/-- The table made from buckets. -/
def HashTable.ofIndex (index : Index α) (blocks : Nat) : HashTable α :=
  ⟨sparseTable 0 index blocks, index.filterMap id⟩

theorem length_sparseTable (count : Nat) (index : Index α) (blocks : Nat) :
    (sparseTable count index blocks).length = blocks := by
  induction blocks generalizing count index with
  | zero => rfl
  | succ blocks ih => rw [sparseTable, List.length_cons, ih]

theorem buckets_ofIndex (index : Index α) (blocks : Nat) :
    (HashTable.ofIndex index blocks).buckets = blocks * Block.bits := by
  rw [HashTable.buckets, HashTable.ofIndex, length_sparseTable]

def Lookup.ofOption : Option α → Lookup α
  | none => .end
  | some item => .found item

/-- The lookup that a search should come to, from a probe on. -/
def expected (key : α → κ) (index : Index α) (k : κ) (start p : Nat) : Option α :=
  lookup key index.slot (probes start index.length) k p (index.length - p)

theorem expected_of_free {start p : Nat} (free : index.slot (probes start index.length p) = none) :
    expected key index k start p = none := by
  rw [expected]
  cases index.length - p with
  | zero => rfl
  | succ left => rw [lookup, free]

theorem expected_of_found {start p : Nat} {item : α} (less : p < index.length)
    (here : index.slot (probes start index.length p) = some item) :
    expected key index k start p =
      if key item = k then some item else expected key index k start (p + 1) := by
  have left : index.length - p = index.length - (p + 1) + 1 := by omega
  rw [expected, left, lookup, here]
  rfl

theorem expected_of_end {start p : Nat} (done : index.length ≤ p) :
    expected key index k start p = none := by
  rw [expected, Nat.sub_eq_zero_of_le done, lookup]

theorem Block.Of.read {block : Block} {number minor : Nat} (of : block.Of index number 0)
    (fits : minor < Block.bits) :
    ((block.mask >>> minor) &&& 1#64 = 0#64 ↔ index.slot (number * Block.bits + minor) = none) ∧
      ∀ item, index.slot (number * Block.bits + minor) = some item →
        (index.filterMap id)[block.offset +
          popcount (block.mask &&& (1#64 <<< minor - 1#64))]? = some item := by
  constructor
  · rw [bit_eq_zero_iff, of.mask minor fits, Option.isSome_eq_false_iff, Option.isNone_iff_eq_none]
  · intro item here
    have count : popcount (block.mask &&& (1#64 <<< minor - 1#64)) =
        Index.rank (index.drop (number * Block.bits)) minor := by
      rw [popcount_below block.mask fits, ← countP_range_slot]
      refine List.countP_congr fun bucket member => ?_
      rw [of.mask bucket (Nat.lt_trans (List.mem_range.mp member) fits), slot_drop]
    rw [of.offset, Nat.zero_add, count, ← rank_add]
    exact getElem?_items here

theorem findInBlock_spec (key : α → κ) (k : κ) {block : Block} {number start p bucket minor : Nat}
    (of : block.Of index number 0) (fits : index.length = blocks * Block.bits)
    (numberLess : number < blocks) (minorLess : minor < Block.bits)
    (position : bucket = number * Block.bits + minor)
    (probe : bucket = probes start index.length p) (less : p < index.length) :
    match (HashTable.ofIndex index blocks).findInBlock key k block p bucket minor with
    | .done result => result = .ofOption (expected key index k start p)
    | .next q last => expected key index k start p = expected key index k start (q + 1) ∧
        last = probes start index.length q ∧ q < index.length := by
  have inside : (number + 1) * Block.bits ≤ index.length := by
    rw [fits]
    exact Nat.mul_le_mul_right _ numberLess
  rw [Nat.succ_mul] at inside
  -- an item that is read stands in the bucket
  have standing {minor : Nat} (minorLess : minor < Block.bits)
      (one : ¬ (block.mask >>> minor) &&& 1#64 = 0#64) :
      ∃ item, index.slot (number * Block.bits + minor) = some item ∧
        (HashTable.ofIndex index blocks).items[block.offset +
          popcount (block.mask &&& (1#64 <<< minor - 1#64))]? = some item := by
    obtain ⟨item, here⟩ := Option.ne_none_iff_exists'.mp (mt (of.read minorLess).1.mpr one)
    exact ⟨item, here, (of.read minorLess).2 item here⟩
  fun_induction HashTable.findInBlock key (HashTable.ofIndex index blocks) k block p bucket minor with
  | case1 p bucket minor zero =>
    have free := (of.read minorLess).1.mp zero
    rw [← position, probe] at free
    rw [expected_of_free free]
    rfl
  | case2 p bucket minor one none =>
    obtain ⟨item, -, read⟩ := standing minorLess one
    rw [none] at read
    cases read
  | case3 p bucket minor one item read same =>
    obtain ⟨other, here, otherRead⟩ := standing minorLess one
    cases read.symm.trans otherRead
    rw [← position, probe] at here
    rw [expected_of_found less here, if_pos same]
    rfl
  | case4 p bucket minor one item read different near ih =>
    obtain ⟨other, here, otherRead⟩ := standing minorLess one
    cases read.symm.trans otherRead
    rw [← position, probe] at here
    rw [expected_of_found less here, if_neg different]
    refine ih near (by omega) ?_ (by omega)
    rw [← probes_succ, ← probe, Nat.mod_eq_of_lt (by omega)]
  | case5 p bucket minor one item read different far =>
    obtain ⟨other, here, otherRead⟩ := standing minorLess one
    cases read.symm.trans otherRead
    rw [← position, probe] at here
    refine ⟨?_, probe, less⟩
    rw [expected_of_found less here, if_neg different]

theorem findFrom_eq {start p bucket : Nat} (fits : index.length = blocks * Block.bits)
    (positive : 0 < blocks) (small : index.length ≤ maxIndexSize) (bucketFits : bucket < 2 ^ 64)
    (probe : bucket % index.length = probes start index.length p) :
    (HashTable.ofIndex index blocks).findFrom key k p bucket =
      .ofOption (expected key index k start p) := by
  have buckets : (HashTable.ofIndex index blocks).buckets = index.length := by
    rw [buckets_ofIndex, fits]
  have bits : Block.bits = 64 := rfl
  have size : maxIndexSize = 2 ^ 60 - 1 := rfl
  have length : index.length = blocks * 64 := fits
  have nonempty : 0 < index.length := by omega
  induction h : index.length - p using Nat.strongRecOn generalizing p bucket with
  | ind left ih =>
    subst h
    rw [HashTable.findFrom]
    by_cases less : p < index.length
    · rw [buckets, if_pos less, remainder_eq nonempty (by omega) bucketFits, probe]
      have inside : probes start index.length p < index.length := Nat.mod_lt _ nonempty
      generalize eq : probes start index.length p = here at inside
      have numberLess : here / 64 < blocks := by omega
      obtain ⟨block, found, of⟩ := exists_block 0 index fits numberLess
      have spec := findInBlock_spec key k of fits numberLess (Nat.mod_lt here (by decide))
        (Nat.div_add_mod' here 64).symm eq.symm less
      have read : (HashTable.ofIndex index blocks).table[here / Block.bits]? = some block := found
      simp only [read]
      split
      · rename_i result done
        simp only [done] at spec
        exact spec
      · rename_i q last next
        simp only [next] at spec
        obtain ⟨same, lastProbe, lastLess⟩ := spec
        have further : p ≤ q := HashTable.le_of_findInBlock key _ k next
        have lastInside : last < index.length := lastProbe ▸ Nat.mod_lt _ nonempty
        rw [same]
        refine ih _ (by omega) (by omega) ?_ rfl
        rw [lastProbe, probes_succ]
    · rw [buckets, if_neg less, expected_of_end (Nat.le_of_not_lt less)]
      rfl

theorem find_ofIndex (hash : κ → UInt64) (fits : index.length = blocks * Block.bits)
    (positive : 0 < blocks) (small : index.length ≤ maxIndexSize) :
    (HashTable.ofIndex index blocks).find key hash k =
      .ofOption (lookup key index.slot (probes (spread hash k) index.length) k 0 index.length) := by
  refine findFrom_eq fits positive small (Nat.mod_lt _ (Nat.two_pow_pos 64)) ?_
  rfl

end FbThrift.Frozen
