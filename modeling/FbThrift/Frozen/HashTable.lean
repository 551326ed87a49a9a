import Mathlib.Algebra.Group.Nat.Defs
import FbThrift.Lib.OpenAddressing

/-!
# Frozen hash tables

The items of a hash table are frozen in the order of their buckets.  A sparse table has for each
block of 64 buckets a mask of the buckets that hold an item, and how many items are in front of
the block.  Buckets are probed quadratically, by one loop when the table is built and by another
when a key is looked up.  A frozen table is what its view reads; frozen items are read back as
they were frozen.
-/

namespace FbThrift.Frozen

/-! ## Remainders -/

/-- The constant for a divisor, in 128 bits. -/
def fastRemainderConstant (divisor : Nat) : Nat :=
  if divisor = 0 then 0 else ((2 ^ 128 - 1) / divisor + 1) % 2 ^ 128

/-- The upper 64 bits of a product of 128 and 64 bits. -/
def mul128U64 (lowbits d : Nat) : Nat :=
  let bottom := lowbits % 2 ^ 64 * d / 2 ^ 64
  let top := lowbits / 2 ^ 64 * d % 2 ^ 128
  (bottom + top) % 2 ^ 128 / 2 ^ 64 % 2 ^ 64

def remainder (lhs rhs : Nat) : Nat :=
  mul128U64 (fastRemainderConstant rhs * lhs % 2 ^ 128) rhs

/-! ## Building a table -/

/-- A block of buckets. -/
structure Block where
  mask : BitVec 64
  offset : Nat
  deriving DecidableEq, Repr

namespace Block

def bits : Nat := 64

end Block

/-- About 2.5 buckets for an item, in an odd number of blocks that is not a multiple of 5. -/
def blockCount (size : Nat) : Nat :=
  let rv := (size * 5 / 2 + Block.bits - 1) / Block.bits ||| 1
  if rv % 5 = 0 then rv + 2 else rv

/-- How many pointers a vector can hold. -/
def maxIndexSize : Nat := 2 ^ 60 - 1

inductive FreezeError where
  | lengthError
  | domainError (what : String)
  | outOfRange (what : String)
  deriving DecidableEq, Repr

variable {α κ : Type} [DecidableEq κ]

/-- The bucket of an item, or none. -/
abbrev Index (α : Type) := List (Option α)

namespace Index

def slot (index : Index α) (bucket : Nat) : Option α := (index[bucket]?).join

end Index

variable (key : α → κ) (hash : κ → UInt64)

/-- The hash of a key, which spreads out clumped values. -/
def spread (k : κ) : Nat := (hash k).toNat * 5 % 2 ^ 64

/-- The probes of an item from probe `p` on, of which `left` are left up to the number of
buckets. -/
def place (item : α) (index : Index α) (h p left : Nat) : Except FreezeError (Index α) :=
  match index.slot (h % index.length) with
  | none => .ok (index.set (h % index.length) (some item))
  | some other =>
    match left with
    | 0 => .error (.outOfRange "All buckets full!")
    | left + 1 =>
      if key item = key other then
        .error (.domainError "Input collection is not distinct")
      else place item index ((h + (p + 1)) % 2 ^ 64) (p + 1) left

def buildIndexFrom (index : Index α) : List α → Except FreezeError (Index α)
  | [] => .ok index
  | item :: coll => do
      buildIndexFrom (← place key item index (spread hash (key item)) 0 index.length) coll

/-- The buckets of a collection. -/
def buildIndex (coll : List α) : Except FreezeError (Index α) :=
  let buckets := blockCount coll.length * Block.bits
  if maxIndexSize < buckets then .error .lengthError
  else buildIndexFrom key hash (List.replicate buckets none) coll

/-- The mask of the buckets of a block, from an offset in it on, and the count of the items. -/
def markBuckets (offset : Nat) (mask : BitVec 64) (count : Nat) : Index α → BitVec 64 × Nat
  | [] => (mask, count)
  | none :: index => markBuckets (offset + 1) mask count index
  | some _ :: index => markBuckets (offset + 1) (mask ||| 1#64 <<< offset) (count + 1) index

/-- The blocks of buckets behind `count` items. -/
def sparseTable (count : Nat) (index : Index α) : (blocks : Nat) → List Block
  | 0 => []
  | blocks + 1 =>
    let marked := markBuckets 0 0#64 count (index.take Block.bits)
    ⟨marked.1, count⟩ :: sparseTable marked.2 (index.drop Block.bits) blocks

/-- What the view of a frozen table reads. -/
structure HashTable (α : Type) where
  table : List Block
  items : List α
  deriving DecidableEq, Repr

def freeze (coll : List α) : Except FreezeError (HashTable α) := do
  let index ← buildIndex key hash coll
  return ⟨sparseTable 0 index (blockCount coll.length), index.filterMap id⟩

/-! ## Looking up a key -/

def popcount (mask : BitVec 64) : Nat := (List.range 64).countP mask.getLsbD

/-- What a lookup comes to; there is nothing to read behind the end of an array. -/
inductive Lookup (α : Type) where
  | found (item : α)
  | end
  | invalid
  deriving DecidableEq, Repr

/-- What the probes in one block come to: a result, or the last of them and its bucket. -/
inductive BlockProbe (α : Type) where
  | done (result : Lookup α)
  | next (p bucket : Nat)
  deriving DecidableEq, Repr

namespace HashTable

variable (table : HashTable α) (k : κ)

def buckets : Nat := table.table.length * Block.bits

/-- The probes in one block. -/
def findInBlock (block : Block) (p bucket minor : Nat) : BlockProbe α :=
  if (block.mask >>> minor) &&& 1#64 = 0#64 then .done .end
  else
    match table.items[block.offset + popcount (block.mask &&& (1#64 <<< minor - 1#64))]? with
    | none => .done .invalid
    | some found =>
      if key found = k then .done (.found found)
      else if minor + (p + 1) < Block.bits then
        -- same block shortcut
        findInBlock block (p + 1) (bucket + (p + 1)) (minor + (p + 1))
      else .next p bucket
termination_by Block.bits - minor

theorem le_of_findInBlock {block : Block} {p bucket minor q last : Nat}
    (next : table.findInBlock key k block p bucket minor = .next q last) : p ≤ q := by
  fun_induction findInBlock key table k block p bucket minor with
  | case1 => cases next
  | case2 => cases next
  | case3 => cases next
  | case4 _ _ _ _ _ _ _ _ ih => exact Nat.le_of_succ_le (ih next)
  | case5 => cases next; exact Nat.le_refl _

/-- The probes from probe `p` on. -/
def findFrom (p bucket : Nat) : Lookup α :=
  if p < table.buckets then
    let bucket := remainder bucket table.buckets
    match table.table[bucket / Block.bits]? with
    | none => .invalid
    | some block =>
      match _probes : table.findInBlock key k block p bucket (bucket % Block.bits) with
      | .done result => result
      | .next p' bucket' => findFrom (p' + 1) (bucket' + (p' + 1))
  else .end
termination_by table.buckets - p
decreasing_by
  have := le_of_findInBlock key table k _probes
  omega


def find : Lookup α := table.findFrom key k 0 (spread hash k)

end HashTable

end FbThrift.Frozen
