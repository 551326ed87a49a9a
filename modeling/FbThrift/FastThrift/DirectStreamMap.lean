import FbThrift.Lib.LinearProbing
import Mathlib.Data.Finmap
import Mathlib.Algebra.Order.Group.Nat

/-!
# The map from streams

`DirectStreamMap`: a table of slots, as many as a power of two, in which an entry stands in the
first slot that was free from the natural slot of its key on.  An entry that is erased leaves no
mark: those behind it are shifted back.
-/

namespace FbThrift.FastThrift

/-- The unsigned integers that are keys. -/
class StreamKey (K : Type) where
  toNat : K → Nat

instance : StreamKey UInt32 := ⟨UInt32.toNat⟩

instance : StreamKey UInt64 := ⟨UInt64.toNat⟩

/-- How a key is mapped to its natural slot. -/
inductive IndexPolicy
  /-- For stream ids, which come two apart. -/
  | streamIdIndex
  /-- For ids that follow each other. -/
  | sequentialIndex

def IndexPolicy.apply {K : Type} [StreamKey K] (policy : IndexPolicy) (key : K) (mask : Nat) :
    Nat :=
  match policy with
  | .streamIdIndex => (StreamKey.toNat key >>> 1) &&& mask
  | .sequentialIndex => StreamKey.toNat key &&& mask

inductive Tag
  | empty
  | live
deriving DecidableEq

structure Slot (K V : Type) [Inhabited K] [Inhabited V] where
  first : K := default
  second : V := default
  tag : Tag := .empty

structure DirectStreamMap (K V : Type) [Inhabited K] [Inhabited V] where
  slots : Array (Slot K V)
  size : Nat := 0

namespace DirectStreamMap

variable {K V : Type} [DecidableEq K] [Inhabited K] [StreamKey K] [Inhabited V]

def kInitialCapacity : Nat := 16
def kLoadNum : Nat := 7
def kLoadDen : Nat := 8

/-- The least power of two that is not below a number, which is so for all above the capacity to
start with. -/
def nextPow2 (n : Nat) : Nat :=
  if n ≤ kInitialCapacity then kInitialCapacity else 1 <<< ((n - 1).log2 + 1)

/-- A map without entries. -/
def withCapacity (cap : Nat) : DirectStreamMap K V :=
  { slots := Array.replicate (nextPow2 cap) {} }

def new : DirectStreamMap K V := { slots := Array.replicate kInitialCapacity {} }

/-- The slot at an index. -/
def slotAt (slots : Array (Slot K V)) (idx : Nat) : Slot K V := slots.getD idx {}

def mask (slots : Array (Slot K V)) : Nat := slots.size - 1

section

variable (policy : IndexPolicy)

/-- Probes the slots from an index on for a key. -/
def findFrom (slots : Array (Slot K V)) (key : K) : (idx left : Nat) → Option Nat
  | _, 0 => none
  | idx, left + 1 =>
    if (slotAt slots idx).tag = .empty then none
    else if (slotAt slots idx).first = key then some idx
    else findFrom slots key ((idx + 1) &&& mask slots) left

/-- The index of the slot that has a key. -/
def find (map : DirectStreamMap K V) (key : K) : Option Nat :=
  findFrom map.slots key (policy.apply key (mask map.slots)) map.slots.size

/-- Probes the slots from an index on for a key, which goes into the first free one. -/
def insertFrom (map : DirectStreamMap K V) (key : K) (value : V) :
    (idx left : Nat) → DirectStreamMap K V × Option Nat × Bool
  | _, 0 => (map, none, false)
  | idx, left + 1 =>
    if (slotAt map.slots idx).tag = .empty then
      ({ slots := map.slots.setIfInBounds idx ⟨key, value, .live⟩, size := map.size + 1 },
        some idx, true)
    else if (slotAt map.slots idx).first = key then (map, some idx, false)
    else insertFrom map key value ((idx + 1) &&& mask map.slots) left

def insertInternal (map : DirectStreamMap K V) (key : K) (value : V) :
    DirectStreamMap K V × Option Nat × Bool :=
  insertFrom map key value (policy.apply key (mask map.slots)) map.slots.size

def grow (map : DirectStreamMap K V) : DirectStreamMap K V :=
  map.slots.foldl (fun grown s =>
      if s.tag = .live then (grown.insertInternal policy s.first s.second).1 else grown)
    { slots := Array.replicate (map.slots.size * 2) {} }

/-- Adds an entry for a key that has none, and returns the slot of the key and whether the entry
is new. -/
def emplace (map : DirectStreamMap K V) (key : K) (value : V) :
    DirectStreamMap K V × Option Nat × Bool :=
  if map.size * kLoadDen > map.slots.size * kLoadNum then
    (map.grow policy).insertInternal policy key value
  else map.insertInternal policy key value

/-- Whether the gap lies between the natural slot of an entry and the slot in which it is. -/
def displaced (nat gap cur : Nat) : Bool :=
  if nat ≤ gap then gap < cur || cur < nat else gap < cur && cur < nat

/-- Walks on from a gap and pulls entries back to fill it.  There is no result where the walk has
not ended within so many turns. -/
def backshift : (fuel : Nat) → (slots : Array (Slot K V)) → (idx next : Nat) →
    Option (Array (Slot K V))
  | 0, _, _, _ => none
  | fuel + 1, slots, idx, next =>
    let s := slotAt slots next
    if s.tag = .live then
      if displaced (policy.apply s.first (mask slots)) idx next then
        let shifted := (slots.setIfInBounds idx s).setIfInBounds next
          { s with second := default, tag := .empty }
        backshift fuel shifted next ((next + 1) &&& mask slots)
      else backshift fuel slots idx ((next + 1) &&& mask slots)
    else some slots

def eraseSlot (map : DirectStreamMap K V) (idx : Nat) : Option (DirectStreamMap K V) :=
  let freed := map.slots.setIfInBounds idx
    { slotAt map.slots idx with second := default, tag := .empty }
  (backshift policy map.slots.size freed idx ((idx + 1) &&& mask map.slots)).map fun slots =>
    { slots, size := map.size - 1 }

/-- Erases the entry that an iterator stands on. -/
def eraseIterator (map : DirectStreamMap K V) (it : Option Nat) : Option (DirectStreamMap K V) :=
  match it with
  | none => some map
  | some idx => map.eraseSlot policy idx

def erase (map : DirectStreamMap K V) (key : K) : Option (DirectStreamMap K V) :=
  map.eraseIterator policy (map.find policy key)

def contains (map : DirectStreamMap K V) (key : K) : Bool := (map.find policy key).isSome

def clear (map : DirectStreamMap K V) : DirectStreamMap K V :=
  { slots := map.slots.map fun _ => {}, size := 0 }

/-- The value that an iterator of `find` leads to. -/
def value (map : DirectStreamMap K V) (key : K) : Option V :=
  (map.find policy key).map fun idx => (slotAt map.slots idx).second

/-- Writes through an iterator of `find`. -/
def assign (map : DirectStreamMap K V) (idx : Nat) (value : V) : DirectStreamMap K V :=
  { map with slots := map.slots.setIfInBounds idx { slotAt map.slots idx with second := value } }

end

end DirectStreamMap

end FbThrift.FastThrift
