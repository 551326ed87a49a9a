import FbThrift.FastThrift.SrptHeapOrder
import FbThrift.FastThrift.StreamMapRefinement

/-!
# The heap of streams with its index

`SrptHeap` with the map `index_` from stream ids to positions, which every swap updates in two
places.  Where the index finds nothing for a stream that the code takes for granted there is no
result.  The index stays in step with the heap, so that the heap is the one without an index.
-/

namespace FbThrift.FastThrift

structure IndexedSrptHeap (α : Type) where
  heap : SrptHeap α := #[]
  index : DirectStreamMap UInt32 Nat := .new

namespace IndexedSrptHeap

open SrptHeap (kArity priority minChild)

variable {α : Type}

/-- The position that the index has for a stream. -/
def position (index : DirectStreamMap UInt32 Nat) (streamId : UInt32) : Option Nat :=
  index.value .streamIdIndex streamId

/-- Writes the position of a stream that the index has. -/
def place (index : DirectStreamMap UInt32 Nat) (streamId : UInt32) (pos : Nat) :
    Option (DirectStreamMap UInt32 Nat) :=
  (index.find .streamIdIndex streamId).map fun it => index.assign it pos

def swapAt (h : IndexedSrptHeap α) (a b : Nat) : Option (IndexedSrptHeap α) := do
  let entryA ← h.heap[a]?
  let entryB ← h.heap[b]?
  let index ← place h.index entryA.streamId b
  let index ← place index entryB.streamId a
  some { heap := h.heap.swapIfInBounds a b, index }

theorem heap_of_swapAt {h h' : IndexedSrptHeap α} {a b : Nat} (swapped : h.swapAt a b = some h') :
    h'.heap = h.heap.swapIfInBounds a b := by
  unfold swapAt at swapped
  simp only [Option.bind_eq_bind, Option.bind_eq_some_iff, Option.some.injEq] at swapped
  obtain ⟨-, -, -, -, -, -, -, -, rfl⟩ := swapped
  rfl

def siftUp (key : α → Nat) (h : IndexedSrptHeap α) (i : Nat) : Option (IndexedSrptHeap α × Bool) :=
  if 0 < i then
    let parent := (i - 1) / kArity
    if priority key h.heap i < priority key h.heap parent then
      (h.swapAt i parent).bind fun swapped =>
        (siftUp key swapped parent).map fun result => (result.1, true)
    else some (h, false)
  else some (h, false)
termination_by i
decreasing_by
  unfold kArity
  omega


def siftDown (key : α → Nat) (h : IndexedSrptHeap α) (i : Nat) : Option (IndexedSrptHeap α) :=
  let firstChild := kArity * i + 1
  if firstChild < h.heap.size then
    let child := minChild key h.heap firstChild (min (firstChild + kArity) h.heap.size)
    if priority key h.heap child < priority key h.heap i then
      match _swapped : h.swapAt i child with
      | some h' => siftDown key h' child
      | none => none
    else some h
  else some h
termination_by h.heap.size - i
decreasing_by
  have below := SrptHeap.le_minChild key h.heap firstChild (min (firstChild + kArity) h.heap.size)
  rw [heap_of_swapAt _swapped, Array.size_swapIfInBounds]
  unfold firstChild kArity at *
  omega

/-- Moves an entry whose key has changed. -/
def sift (key : α → Nat) (h : IndexedSrptHeap α) (pos : Nat) : Option (IndexedSrptHeap α) :=
  (h.siftUp key pos).bind fun (moved, up) => if up then some moved else moved.siftDown key pos

/-- Puts the last entry in the place of another one. -/
def removeAt (key : α → Nat) (h : IndexedSrptHeap α) (pos : Nat) : Option (IndexedSrptHeap α) := do
  let removed ← h.heap[pos]?
  let index ← h.index.erase .streamIdIndex removed.streamId
  if pos = h.heap.size - 1 then some { heap := h.heap.pop, index }
  else
    let heap := (h.heap.swapIfInBounds pos (h.heap.size - 1)).pop
    let moved ← heap[pos]?
    let index ← place index moved.streamId pos
    sift key { heap, index } pos

/-- The value of a stream. -/
def find (h : IndexedSrptHeap α) (streamId : UInt32) : Option α := do
  let pos ← position h.index streamId
  let entry ← h.heap[pos]?
  some entry.value

def contains (h : IndexedSrptHeap α) (streamId : UInt32) : Bool :=
  h.index.contains .streamIdIndex streamId

/-- Adds an entry, and returns the value that was stored. -/
def insert (key : α → Nat) (h : IndexedSrptHeap α) (streamId : UInt32) (value : α) :
    Option (IndexedSrptHeap α × α) := do
  let pos := h.heap.size
  let pushed : IndexedSrptHeap α :=
    { heap := h.heap.push ⟨streamId, value⟩
      index := (h.index.emplace .streamIdIndex streamId pos).1 }
  let (h', _) ← pushed.siftUp key pos
  let stored ← h'.find streamId
  some (h', stored)

def peekMin (h : IndexedSrptHeap α) : Option (Entry α) := h.heap.peekMin

/-- Takes the first entry away, and returns its value. -/
def extractMin (key : α → Nat) (h : IndexedSrptHeap α) : Option (IndexedSrptHeap α × α) := do
  let first ← h.heap[0]?
  let h' ← h.removeAt key 0
  some (h', first.value)

def erase (key : α → Nat) (h : IndexedSrptHeap α) (streamId : UInt32) :
    Option (IndexedSrptHeap α × Bool) :=
  match position h.index streamId with
  | none => some (h, false)
  | some pos => (h.removeAt key pos).map fun h' => (h', true)

def update (key : α → Nat) (h : IndexedSrptHeap α) (streamId : UInt32) :
    Option (IndexedSrptHeap α) :=
  match position h.index streamId with
  | none => some h
  | some pos => h.sift key pos

/-- Changes the value that `find` has returned a pointer to. -/
def modify (h : IndexedSrptHeap α) (streamId : UInt32) (f : α → α) : IndexedSrptHeap α :=
  match position h.index streamId with
  | none => h
  | some pos => { h with heap := Array.modify h.heap pos fun e => { e with value := f e.value } }

/-! ## The index and the heap in step -/

/-- The index has the position of each entry, and no others. -/
def InStep (h : IndexedSrptHeap α) : Prop :=
  ∃ positions, DirectStreamMap.Represents .streamIdIndex h.index positions ∧
    ∀ streamId pos, positions.lookup streamId = some pos ↔
      ∃ value, h.heap[pos]? = some ⟨streamId, value⟩

section

variable {h : IndexedSrptHeap α} {index : DirectStreamMap UInt32 Nat}
  {positions : Finmap fun _ : UInt32 => Nat} {streamId : UInt32} {pos : Nat}

theorem exists_place (ok : DirectStreamMap.Represents .streamIdIndex index positions)
    {old : Nat} (known : positions.lookup streamId = some old) (pos : Nat) :
    ∃ index', place index streamId pos = some index' ∧
      DirectStreamMap.Represents .streamIdIndex index' (positions.insert streamId pos) := by
  have value := ok.value_eq streamId
  rw [known, DirectStreamMap.value, Option.map_eq_some_iff] at value
  obtain ⟨it, found, -⟩ := value
  exact ⟨_, by rw [place, found]; rfl, ok.assign found pos⟩

theorem InStep.position_eq_some (ok : InStep h) (streamId : UInt32) (pos : Nat) :
    position h.index streamId = some pos ↔ ∃ value, h.heap[pos]? = some ⟨streamId, value⟩ := by
  obtain ⟨positions, represents, same⟩ := ok
  rw [position, represents.value_eq, same]

/-- No stream has two entries. -/
theorem InStep.unique (ok : InStep h) {a b : Nat} {entryA entryB : Entry α}
    (atA : h.heap[a]? = some entryA) (atB : h.heap[b]? = some entryB)
    (same : entryA.streamId = entryB.streamId) : a = b := by
  have posA := (ok.position_eq_some entryA.streamId a).mpr ⟨entryA.value, atA⟩
  have posB := (ok.position_eq_some entryB.streamId b).mpr ⟨entryB.value, atB⟩
  rw [same, posB] at posA
  exact (Option.some.inj posA).symm

theorem InStep.exists_swapAt (ok : InStep h) {a b : Nat} (insideA : a < h.heap.size)
    (insideB : b < h.heap.size) (apart : a ≠ b) :
    ∃ h', h.swapAt a b = some h' ∧ h'.heap = h.heap.swapIfInBounds a b ∧ InStep h' := by
  obtain ⟨entryA, atA⟩ : ∃ e, h.heap[a]? = some e := ⟨_, Array.getElem?_eq_getElem insideA⟩
  obtain ⟨entryB, atB⟩ : ∃ e, h.heap[b]? = some e := ⟨_, Array.getElem?_eq_getElem insideB⟩
  have unique : ∀ {a b : Nat} {entryA entryB : Entry α}, h.heap[a]? = some entryA →
      h.heap[b]? = some entryB → entryA.streamId = entryB.streamId → a = b := ok.unique
  have differ : entryA.streamId ≠ entryB.streamId := fun same => apart (ok.unique atA atB same)
  obtain ⟨positions, represents, same⟩ := ok
  obtain ⟨first, placedA, represents⟩ :=
    exists_place represents ((same entryA.streamId a).mpr ⟨entryA.value, atA⟩) b
  have knownB : (positions.insert entryA.streamId b).lookup entryB.streamId = some b := by
    rw [Finmap.lookup_insert_of_ne positions differ.symm]
    exact (same entryB.streamId b).mpr ⟨entryB.value, atB⟩
  obtain ⟨second, placedB, represents⟩ := exists_place represents knownB a
  refine ⟨⟨h.heap.swapIfInBounds a b, second⟩, ?_, rfl, _, represents, fun id pos => ?_⟩
  · unfold swapAt
    rw [atA, atB]
    change (place h.index entryA.streamId b).bind _ = _
    rw [placedA]
    change (place first entryB.streamId a).bind _ = _
    rw [placedB]
    rfl
  · rw [SrptHeap.getElem?_swapIfInBounds insideA insideB]
    by_cases isB : id = entryB.streamId
    · rw [isB, Finmap.lookup_insert]
      constructor
      · intro here
        rw [if_pos (Option.some.inj here).symm, atB]
        exact ⟨entryB.value, rfl⟩
      · rintro ⟨value, entry⟩
        split_ifs at entry with left right
        · rw [left]
        · rw [atA] at entry
          cases entry
          exact absurd rfl differ
        · exact absurd (unique entry atB rfl) right
    · rw [Finmap.lookup_insert_of_ne _ isB]
      by_cases isA : id = entryA.streamId
      · rw [isA, Finmap.lookup_insert]
        constructor
        · intro here
          rw [← Option.some.inj here, if_neg apart.symm, if_pos rfl, atA]
          exact ⟨entryA.value, rfl⟩
        · rintro ⟨value, entry⟩
          split_ifs at entry with left right
          · rw [atB] at entry
            cases entry
            exact absurd rfl differ
          · rw [right]
          · exact absurd (unique entry atA rfl) left
      · rw [Finmap.lookup_insert_of_ne _ isA, same]
        refine exists_congr fun value => ?_
        have notA : some entryA ≠ some ⟨id, value⟩ := fun entry =>
          isA (congrArg Entry.streamId (Option.some.inj entry)).symm
        have notB : some entryB ≠ some ⟨id, value⟩ := fun entry =>
          isB (congrArg Entry.streamId (Option.some.inj entry)).symm
        split_ifs with left right
        · rw [left, atA, atB]
          exact iff_of_false notA notB
        · rw [right, atA, atB]
          exact iff_of_false notB notA
        · rfl

theorem InStep.siftUp_eq (ok : InStep h) (key : α → Nat) (inside : pos < h.heap.size) :
    ∃ h', h.siftUp key pos = some (h', (SrptHeap.siftUp key h.heap pos).2) ∧
      h'.heap = (SrptHeap.siftUp key h.heap pos).1 ∧ InStep h' := by
  induction pos using Nat.strongRecOn generalizing h with
  | ind pos ih =>
    rw [siftUp, SrptHeap.siftUp]
    split
    next positive =>
      dsimp only
      split
      next =>
        have up := SrptHeap.parentOf_lt pos positive
        obtain ⟨h', swapped, heap, ok⟩ := ok.exists_swapAt inside (up.trans inside) up.ne'
        have inside' : SrptHeap.parentOf pos < h'.heap.size := by
          rw [heap, Array.size_swapIfInBounds]
          exact up.trans inside
        obtain ⟨h'', sifted, heap', ok⟩ := ih _ up ok inside'
        change h.swapAt pos ((pos - 1) / kArity) = some h' at swapped
        change siftUp key h' ((pos - 1) / kArity) = _ at sifted
        rw [swapped]
        refine ⟨h'', ?_, ?_, ok⟩
        · change (siftUp key h' ((pos - 1) / kArity)).map _ = _
          rw [sifted]
          rfl
        · rw [heap', heap]
          rfl
      next => exact ⟨h, rfl, rfl, ok⟩
    next => exact ⟨h, rfl, rfl, ok⟩

theorem InStep.siftDown_eq (ok : InStep h) (key : α → Nat) (inside : pos < h.heap.size) :
    ∃ h', h.siftDown key pos = some h' ∧ h'.heap = SrptHeap.siftDown key h.heap pos ∧
      InStep h' := by
  generalize left : h.heap.size - pos = n
  induction n using Nat.strongRecOn generalizing h pos with
  | ind n ih =>
    rw [siftDown, SrptHeap.siftDown]
    dsimp only
    split
    next more =>
      obtain ⟨⟨first, last⟩, -⟩ := @SrptHeap.minChild_least _ key h.heap (kArity * pos + 1)
        (min (kArity * pos + 1 + kArity) h.heap.size) (by unfold kArity at *; omega)
      have insideC := last.trans_le (Nat.min_le_right _ _)
      have down : pos < minChild key h.heap (kArity * pos + 1)
          (min (kArity * pos + 1 + kArity) h.heap.size) := by
        unfold kArity at *
        omega
      split
      next =>
        obtain ⟨h', swapped, heap, ok⟩ := ok.exists_swapAt inside insideC down.ne
        have size : h'.heap.size = h.heap.size := by rw [heap, Array.size_swapIfInBounds]
        have inside' := insideC.trans_eq size.symm
        obtain ⟨h'', sifted, heap', ok⟩ := ih _ (by omega) ok inside' rfl
        refine ⟨h'', ?_, ?_, ok⟩
        · split
          next h₁ same =>
            rw [swapped] at same
            cases same
            exact sifted
          next none' =>
            rw [swapped] at none'
            cases none'
        · rw [heap', heap]
      next => exact ⟨h, rfl, rfl, ok⟩
    next => exact ⟨h, rfl, rfl, ok⟩

theorem InStep.sift_eq (ok : InStep h) (key : α → Nat) (inside : pos < h.heap.size) :
    ∃ h', h.sift key pos = some h' ∧ h'.heap = SrptHeap.sift key h.heap pos ∧ InStep h' := by
  obtain ⟨moved, sifted, heap, okMoved⟩ := ok.siftUp_eq key inside
  have sameSize : moved.heap.size = h.heap.size := by
    have perm := (SrptHeap.siftUp_perm key h.heap pos).length_eq
    rw [← heap, Array.length_toList, Array.length_toList] at perm
    exact perm
  rw [sift, sifted, SrptHeap.sift]
  dsimp only [Option.bind_some]
  split
  next => exact ⟨moved, rfl, heap, okMoved⟩
  next =>
    obtain ⟨h', down, heap', ok⟩ := okMoved.siftDown_eq key (by rwa [sameSize])
    exact ⟨h', down, by rw [heap', heap], ok⟩

theorem InStep.push (ok : InStep h) (fresh : position h.index streamId = none) (value : α) :
    InStep { heap := h.heap.push ⟨streamId, value⟩
             index := (h.index.emplace .streamIdIndex streamId h.heap.size).1 } := by
  obtain ⟨positions, represents, same⟩ := ok
  have absent : streamId ∉ positions := by
    rw [position, represents.value_eq] at fresh
    exact Finmap.lookup_eq_none.mp fresh
  refine ⟨_, (represents.emplace streamId h.heap.size).1, fun id pos => ?_⟩
  rw [DirectStreamMap.emplaced, if_neg absent, Array.getElem?_push]
  by_cases here : id = streamId
  · rw [here, Finmap.lookup_insert]
    split
    next isLast => simp [isLast]
    next other =>
      refine iff_of_false (fun last => other (Option.some.inj last).symm) ?_
      rintro ⟨v, entry⟩
      exact absent (Finmap.mem_of_lookup_eq_some ((same streamId pos).mpr ⟨v, entry⟩))
  · rw [Finmap.lookup_insert_of_ne _ here, same]
    split
    next isLast =>
      rw [isLast, Array.getElem?_eq_none (Nat.le_refl _)]
      refine iff_of_false (fun ⟨_, nothing⟩ => nomatch nothing) ?_
      rintro ⟨v, entry⟩
      exact here (congrArg Entry.streamId (Option.some.inj entry)).symm
    next => rfl

theorem InStep.pop (ok : InStep h) {e : Entry α} (last : h.heap[h.heap.size - 1]? = some e)
    {index : DirectStreamMap UInt32 Nat}
    (erased : h.index.erase .streamIdIndex e.streamId = some index) :
    InStep { heap := h.heap.pop, index } := by
  have unique : ∀ {a b : Nat} {entryA entryB : Entry α}, h.heap[a]? = some entryA →
      h.heap[b]? = some entryB → entryA.streamId = entryB.streamId → a = b := ok.unique
  obtain ⟨positions, represents, same⟩ := ok
  obtain ⟨index', erased', represents⟩ := represents.erase e.streamId
  rw [erased] at erased'
  cases erased'
  refine ⟨_, represents, fun id p => ?_⟩
  rw [Array.getElem?_pop]
  by_cases here : id = e.streamId
  · rw [here, Finmap.lookup_erase]
    refine iff_of_false nofun ?_
    rintro ⟨value, entry⟩
    split_ifs at entry with before
    exact absurd (unique entry last rfl) (by omega)
  · rw [Finmap.lookup_erase_ne here, same]
    refine exists_congr fun value => ?_
    split
    · rfl
    next behind =>
      refine iff_of_false (fun entry => ?_) nofun
      obtain ⟨inside, -⟩ := Array.getElem?_eq_some_iff.mp entry
      rw [show p = h.heap.size - 1 by omega, last] at entry
      exact here (congrArg Entry.streamId (Option.some.inj entry)).symm

/-- The entry at a position leaves the heap, and the last one takes its place. -/
theorem InStep.exists_removeAt (ok : InStep h) (key : α → Nat) (inside : pos < h.heap.size) :
    ∃ h', h.removeAt key pos = some h' ∧ h'.heap = SrptHeap.removeAt key h.heap pos ∧
      InStep h' := by
  obtain ⟨e, here⟩ : ∃ e, h.heap[pos]? = some e := ⟨_, Array.getElem?_eq_getElem inside⟩
  obtain ⟨last, lastHere⟩ : ∃ e, h.heap[h.heap.size - 1]? = some e :=
    ⟨_, Array.getElem?_eq_getElem (by omega)⟩
  have popped := fun index => @ok.pop α h last lastHere index
  have unique : ∀ {a b : Nat} {entryA entryB : Entry α}, h.heap[a]? = some entryA →
      h.heap[b]? = some entryB → entryA.streamId = entryB.streamId → a = b := ok.unique
  obtain ⟨positions, represents, same⟩ := ok
  obtain ⟨index, erased, represents⟩ := represents.erase e.streamId
  unfold removeAt SrptHeap.removeAt
  rw [here]
  change ∃ h', (h.index.erase .streamIdIndex e.streamId).bind _ = some h' ∧ _
  rw [erased]
  dsimp only [Option.bind_some]
  split
  next isLast =>
    rw [isLast, lastHere] at here
    cases here
    exact ⟨_, rfl, rfl, popped index erased⟩
  next other =>
    have differ : last.streamId ≠ e.streamId := fun sameId =>
      other (unique lastHere here sameId).symm
    have entries : ∀ p, (h.heap.swapIfInBounds pos (h.heap.size - 1)).pop[p]? =
        if p < h.heap.size - 1 then if p = pos then some last else h.heap[p]? else none := by
      intro p
      rw [Array.getElem?_pop, Array.size_swapIfInBounds]
      split
      next before =>
        rw [SrptHeap.getElem?_swapIfInBounds inside (by omega), lastHere, if_neg before.ne]
      next => rfl
    have known : (positions.erase e.streamId).lookup last.streamId = some (h.heap.size - 1) := by
      rw [Finmap.lookup_erase_ne differ]
      exact (same _ _).mpr ⟨last.value, lastHere⟩
    obtain ⟨index', placed, represents⟩ := exists_place represents known pos
    have moved := entries pos
    rw [if_pos (by omega), if_pos rfl] at moved
    have stands : InStep
        { heap := (h.heap.swapIfInBounds pos (h.heap.size - 1)).pop, index := index' } := by
      refine ⟨_, represents, fun id p => ?_⟩
      rw [entries]
      by_cases isLast : id = last.streamId
      · rw [isLast, Finmap.lookup_insert]
        constructor
        · intro found
          rw [← Option.some.inj found, if_pos (by omega), if_pos rfl]
          exact ⟨last.value, rfl⟩
        · rintro ⟨value, entry⟩
          split_ifs at entry with before isPos
          · rw [isPos]
          · exact absurd (unique entry lastHere rfl) before.ne
      · rw [Finmap.lookup_insert_of_ne _ isLast]
        by_cases isRemoved : id = e.streamId
        · rw [isRemoved, Finmap.lookup_erase]
          refine iff_of_false nofun ?_
          rintro ⟨value, entry⟩
          split_ifs at entry with before isPos
          · rw [Option.some.inj entry] at differ
            exact differ rfl
          · exact isPos (unique entry here rfl)
        · rw [Finmap.lookup_erase_ne isRemoved, same]
          refine exists_congr fun value => ?_
          have notLast : some last ≠ some ⟨id, value⟩ := fun entry =>
            isLast (congrArg Entry.streamId (Option.some.inj entry)).symm
          split_ifs with before isPos
          · rw [isPos, here]
            exact iff_of_false (fun entry =>
              isRemoved (congrArg Entry.streamId (Option.some.inj entry)).symm) notLast
          · rfl
          · refine iff_of_false (fun entry => ?_) nofun
            obtain ⟨insideP, -⟩ := Array.getElem?_eq_some_iff.mp entry
            rw [show p = h.heap.size - 1 by omega, lastHere] at entry
            exact notLast entry
    have inside' : pos < (h.heap.swapIfInBounds pos (h.heap.size - 1)).pop.size := by
      rw [Array.size_pop, Array.size_swapIfInBounds]
      omega
    obtain ⟨h', sifted, heap, ok⟩ := stands.sift_eq key inside'
    refine ⟨h', ?_, heap, ok⟩
    rw [moved]
    change (place index last.streamId pos).bind _ = _
    rw [placed]
    exact sifted

theorem InStep.position_eq (ok : InStep h) (streamId : UInt32) :
    position h.index streamId = SrptHeap.index h.heap streamId := by
  cases found : SrptHeap.index h.heap streamId with
  | some pos =>
    obtain ⟨e, here, rfl⟩ := SrptHeap.index_eq_some found
    exact (ok.position_eq_some e.streamId pos).mpr ⟨e.value, here⟩
  | none =>
    rw [Option.eq_none_iff_forall_ne_some]
    intro pos known
    obtain ⟨value, here⟩ := (ok.position_eq_some streamId pos).mp known
    have missing := Array.findIdx?_eq_none_iff.mp found _ (Array.mem_of_getElem? here)
    simp at missing

theorem InStep.distinct (ok : InStep h) : SrptHeap.Distinct h.heap := by
  unfold SrptHeap.Distinct
  rw [List.Nodup, List.pairwise_iff_getElem]
  intro a b insideA insideB less same
  rw [List.getElem_map, List.getElem_map] at same
  rw [List.length_map] at insideA insideB
  rw [Array.getElem_toList, Array.getElem_toList] at same
  exact absurd (ok.unique (Array.getElem?_eq_getElem insideA)
    (Array.getElem?_eq_getElem insideB) same) less.ne

theorem InStep.modify_eq (ok : InStep h) (streamId : UInt32) (f : α → α) :
    (h.modify streamId f).heap = SrptHeap.modify h.heap streamId f ∧
      InStep (h.modify streamId f) := by
  unfold modify
  cases known : position h.index streamId with
  | none =>
    refine ⟨?_, ok⟩
    have missing := known
    rw [ok.position_eq] at missing
    have others := Array.findIdx?_eq_none_iff.mp missing
    refine (Array.map_id _).symm.trans (Array.map_congr_left fun e member => ?_)
    have other := others e member
    rw [if_neg (by simpa using other)]
    rfl
  | some pos =>
    obtain ⟨value, here⟩ := (ok.position_eq_some streamId pos).mp known
    have entries : ∀ p : Nat,
        (Array.modify h.heap pos fun e : Entry α => { e with value := f e.value })[p]? =
        (h.heap[p]?).map fun e : Entry α =>
          if e.streamId = streamId then { e with value := f e.value } else e := by
      intro p
      rw [Array.getElem?_modify]
      split
      next same =>
        rw [← same, here]
        simp
      next other =>
        cases there : h.heap[p]? with
        | none => rfl
        | some e =>
          have differs : e.streamId ≠ streamId := fun same =>
            other (ok.unique here there same.symm)
          simp [differs]
    constructor
    · apply Array.ext_getElem?
      intro p
      rw [entries, SrptHeap.modify, Array.getElem?_map]
    · obtain ⟨positions, represents, same⟩ := ok
      refine ⟨positions, represents, fun id p => ?_⟩
      rw [same, entries]
      cases h.heap[p]? with
      | none => exact iff_of_false (fun ⟨_, no⟩ => nomatch no) (fun ⟨_, no⟩ => nomatch no)
      | some e =>
        obtain ⟨streamIdE, valueE⟩ := e
        rw [Option.map_some]
        split <;> simp

theorem InStep.update_eq (ok : InStep h) (key : α → Nat) (streamId : UInt32) :
    ∃ h', h.update key streamId = some h' ∧ h'.heap = SrptHeap.update key h.heap streamId ∧
      InStep h' := by
  unfold update SrptHeap.update
  rw [ok.position_eq]
  cases found : SrptHeap.index h.heap streamId with
  | none => exact ⟨h, rfl, rfl, ok⟩
  | some pos =>
    obtain ⟨e, here, -⟩ := SrptHeap.index_eq_some found
    exact ok.sift_eq key (Array.getElem?_eq_some_iff.mp here).1

theorem InStep.erase_eq (ok : InStep h) (key : α → Nat) (streamId : UInt32) :
    ∃ h', h.erase key streamId = some (h', (SrptHeap.index h.heap streamId).isSome) ∧
      h'.heap = SrptHeap.erase key h.heap streamId ∧ InStep h' := by
  unfold erase SrptHeap.erase
  rw [ok.position_eq]
  cases found : SrptHeap.index h.heap streamId with
  | none => exact ⟨h, rfl, rfl, ok⟩
  | some pos =>
    obtain ⟨e, here, -⟩ := SrptHeap.index_eq_some found
    obtain ⟨h', removed, heap, ok⟩ :=
      ok.exists_removeAt key (Array.getElem?_eq_some_iff.mp here).1
    refine ⟨h', ?_, heap, ok⟩
    change (h.removeAt key pos).map _ = _
    rw [removed]
    rfl

theorem InStep.extractMin_eq (ok : InStep h) (key : α → Nat) {e : Entry α}
    (first : h.heap[0]? = some e) : ∃ h', h.extractMin key = some (h', e.value) ∧
      h'.heap = SrptHeap.removeAt key h.heap 0 ∧ InStep h' := by
  obtain ⟨h', removed, heap, ok⟩ :=
    ok.exists_removeAt key (Array.getElem?_eq_some_iff.mp first).1
  unfold extractMin
  rw [first]
  change ∃ h'', (h.removeAt key 0).bind _ = some (h'', e.value) ∧ _
  rw [removed]
  exact ⟨h', rfl, heap, ok⟩

theorem InStep.insert_eq (ok : InStep h) (key : α → Nat)
    (fresh : position h.index streamId = none) (value : α) :
    ∃ h', h.insert key streamId value = some (h', value) ∧
      h'.heap = SrptHeap.insert key h.heap streamId value ∧ InStep h' := by
  obtain ⟨h', sifted, heap, ok'⟩ := (ok.push fresh value).siftUp_eq key
    (by rw [Array.size_push]; exact Nat.lt_succ_self h.heap.size)
  have stored : h'.find streamId = some value := by
    have member : (⟨streamId, value⟩ : Entry α) ∈ h'.heap := by
      rw [heap, ← Array.mem_toList_iff]
      exact (SrptHeap.insert_perm key h.heap streamId value).mem_iff.mpr List.mem_cons_self
    obtain ⟨pos, inside, entry⟩ := Array.mem_iff_getElem.mp member
    have here : h'.heap[pos]? = some ⟨streamId, value⟩ := by
      rw [Array.getElem?_eq_getElem inside, entry]
    unfold find
    rw [(ok'.position_eq_some streamId pos).mpr ⟨value, here⟩]
    change (h'.heap[pos]?).bind _ = _
    rw [here]
    rfl
  refine ⟨h', ?_, heap, ok'⟩
  unfold insert
  dsimp only
  rw [sifted]
  change (h'.find streamId).bind _ = _
  rw [stored]
  rfl

end

end IndexedSrptHeap

end FbThrift.FastThrift
