import Mathlib.Data.List.Perm.Basic
import Mathlib.Data.List.Nodup

/-!
# The heap of streams

`SrptHeap`: a heap of four children to a node that holds one value for each stream, the value
with the least key first.  An index from stream ids to positions goes with it, which is the
position of the entry with that id.  Whatever the operations do to the order, they keep the
values of the streams that they are not about.
-/

namespace FbThrift.FastThrift

structure Entry (α : Type) where
  streamId : UInt32
  value : α

abbrev SrptHeap (α : Type) := Array (Entry α)

namespace SrptHeap

variable {α : Type}

def kArity : Nat := 4

/-- The key of the entry at a position. -/
def priority (key : α → Nat) (heap : SrptHeap α) (pos : Nat) : Nat :=
  match heap[pos]? with
  | some e => key e.value
  | none => 0

/-- Sifts an entry toward the root, and says whether it moved. -/
def siftUp (key : α → Nat) (heap : SrptHeap α) (i : Nat) : SrptHeap α × Bool :=
  if 0 < i then
    let parent := (i - 1) / kArity
    if priority key heap i < priority key heap parent then
      ((siftUp key (heap.swapIfInBounds i parent) parent).1, true)
    else (heap, false)
  else (heap, false)
termination_by i
decreasing_by
  unfold kArity
  omega


/-- The first of the children from `first` up to `last` that has the least key. -/
def minChild (key : α → Nat) (heap : SrptHeap α) (first last : Nat) : Nat :=
  (List.range' (first + 1) (last - (first + 1))).foldl
    (fun min c => if priority key heap c < priority key heap min then c else min) first

theorem foldl_le {f : Nat → Nat → Nat} {first : Nat} (keeps : ∀ min c, f min c = min ∨ f min c = c)
    (cs : List Nat) (above : ∀ c ∈ cs, first ≤ c) {min : Nat} (le : first ≤ min) :
    first ≤ cs.foldl f min := by
  induction cs generalizing min with
  | nil => exact le
  | cons c cs ih =>
    apply ih fun c' member => above c' (List.mem_cons_of_mem c member)
    rcases keeps min c with same | moved
    · rwa [same]
    · rw [moved]
      exact above c List.mem_cons_self

theorem le_minChild (key : α → Nat) (heap : SrptHeap α) (first last : Nat) :
    first ≤ minChild key heap first last := by
  apply foldl_le _ _ _ (Nat.le_refl first)
  · intro min c
    split
    · exact .inr rfl
    · exact .inl rfl
  · intro c member
    have := (List.mem_range'_1.mp member).1
    omega

/-- Sifts an entry away from the root. -/
def siftDown (key : α → Nat) (heap : SrptHeap α) (i : Nat) : SrptHeap α :=
  let firstChild := kArity * i + 1
  if firstChild < heap.size then
    let child := minChild key heap firstChild (min (firstChild + kArity) heap.size)
    if priority key heap child < priority key heap i then
      siftDown key (heap.swapIfInBounds i child) child
    else heap
  else heap
termination_by heap.size - i
decreasing_by
  have below := le_minChild key heap firstChild (min (firstChild + kArity) heap.size)
  rw [Array.size_swapIfInBounds]
  unfold firstChild kArity at *
  omega

/-- Moves an entry whose key has changed. -/
def sift (key : α → Nat) (heap : SrptHeap α) (pos : Nat) : SrptHeap α :=
  let (moved, up) := siftUp key heap pos
  if up then moved else siftDown key moved pos

/-- The position that the index has for a stream. -/
def index (heap : SrptHeap α) (streamId : UInt32) : Option Nat :=
  heap.findIdx? fun e => e.streamId = streamId

def insert (key : α → Nat) (heap : SrptHeap α) (streamId : UInt32) (value : α) : SrptHeap α :=
  (siftUp key (heap.push ⟨streamId, value⟩) heap.size).1

def find (heap : SrptHeap α) (streamId : UInt32) : Option α :=
  (heap.find? fun e => e.streamId = streamId).map Entry.value

/-- Changes the value that `find` or `peekMin` has returned a reference to. -/
def modify (heap : SrptHeap α) (streamId : UInt32) (f : α → α) : SrptHeap α :=
  heap.map fun e => if e.streamId = streamId then { e with value := f e.value } else e

def update (key : α → Nat) (heap : SrptHeap α) (streamId : UInt32) : SrptHeap α :=
  match index heap streamId with
  | some pos => sift key heap pos
  | none => heap

/-- Puts the last entry in the place of another one. -/
def removeAt (key : α → Nat) (heap : SrptHeap α) (pos : Nat) : SrptHeap α :=
  if pos = heap.size - 1 then heap.pop
  else sift key (heap.swapIfInBounds pos (heap.size - 1)).pop pos

def erase (key : α → Nat) (heap : SrptHeap α) (streamId : UInt32) : SrptHeap α :=
  match index heap streamId with
  | some pos => removeAt key heap pos
  | none => heap

def peekMin (heap : SrptHeap α) : Option (Entry α) := heap[0]?

/-! ## The entries of a heap -/

/-- No stream has two entries. -/
def Distinct (heap : SrptHeap α) : Prop := (heap.toList.map Entry.streamId).Nodup

def valuesOf (es : List (Entry α)) (streamId : UInt32) : List α :=
  (es.filter fun e => e.streamId = streamId).map Entry.value

/-- What the heap holds for a stream. -/
def values (heap : SrptHeap α) (streamId : UInt32) : List α := valuesOf heap.toList streamId

@[simp] theorem valuesOf_nil (streamId : UInt32) :
    valuesOf ([] : List (Entry α)) streamId = [] := rfl

@[simp] theorem valuesOf_cons (e : Entry α) (es : List (Entry α)) (streamId : UInt32) :
    valuesOf (e :: es) streamId =
      if e.streamId = streamId then e.value :: valuesOf es streamId else valuesOf es streamId := by
  unfold valuesOf
  by_cases same : e.streamId = streamId <;> simp [same]

theorem valuesOf_eq_nil {es : List (Entry α)} {streamId : UInt32} :
    valuesOf es streamId = [] ↔ streamId ∉ es.map Entry.streamId := by
  induction es with
  | nil => simp
  | cons e es ih =>
    rw [valuesOf_cons, List.map_cons, List.mem_cons, not_or, ← ih]
    split
    next same => simp [same]
    next other => simp [Ne.symm other]

/-- The order of entries does not matter to a stream that has one of them. -/
theorem valuesOf_of_perm {es fs : List (Entry α)} (nodup : (fs.map Entry.streamId).Nodup)
    (perm : es.Perm fs) (streamId : UInt32) : valuesOf es streamId = valuesOf fs streamId := by
  have same : (valuesOf es streamId).Perm (valuesOf fs streamId) := (perm.filter _).map _
  have once := List.nodup_iff_count_le_one.mp nodup streamId
  rw [List.count, List.countP_map, List.countP_eq_length_filter] at once
  have short : (valuesOf fs streamId).length ≤ 1 := by
    rw [valuesOf, List.length_map]
    exact once
  rcases values : valuesOf fs streamId with _ | ⟨v, _ | ⟨w, vs⟩⟩
  · rw [values] at same
    exact same.eq_nil
  · rw [values] at same
    exact List.perm_singleton.mp same
  · rw [values] at short
    simp at short

section

variable {heap other : SrptHeap α} {streamId : UInt32}

theorem swapIfInBounds_perm (heap : SrptHeap α) (i j : Nat) :
    (heap.swapIfInBounds i j).toList.Perm heap.toList := by
  rw [← Array.perm_iff_toList_perm, Array.swapIfInBounds_def]
  split
  · split
    · exact Array.swap_perm _ _
    · exact .refl _
  · exact .refl _

theorem siftUp_perm (key : α → Nat) (heap : SrptHeap α) (i : Nat) :
    (siftUp key heap i).1.toList.Perm heap.toList := by
  induction i using Nat.strongRecOn generalizing heap with
  | ind i ih =>
    rw [siftUp]
    split
    next pos =>
      dsimp only
      split
      next =>
        refine (ih _ ?_ _).trans (swapIfInBounds_perm heap i _)
        unfold kArity
        omega
      next => exact .refl _
    next => exact .refl _

theorem siftDown_perm (key : α → Nat) (heap : SrptHeap α) (i : Nat) :
    (siftDown key heap i).toList.Perm heap.toList := by
  generalize left : heap.size - i = n
  induction n using Nat.strongRecOn generalizing heap i with
  | ind n ih =>
    rw [siftDown]
    dsimp only
    split
    next more =>
      split
      next =>
        have below := le_minChild key heap (kArity * i + 1)
          (min (kArity * i + 1 + kArity) heap.size)
        refine (ih _ ?_ _ _ rfl).trans (swapIfInBounds_perm heap i _)
        rw [Array.size_swapIfInBounds]
        unfold kArity at *
        omega
      next => exact .refl _
    next => exact .refl _

theorem sift_perm (key : α → Nat) (heap : SrptHeap α) (pos : Nat) :
    (sift key heap pos).toList.Perm heap.toList := by
  unfold sift
  dsimp only
  split
  · exact siftUp_perm key heap pos
  · exact (siftDown_perm key _ pos).trans (siftUp_perm key heap pos)

theorem update_perm (key : α → Nat) (heap : SrptHeap α) (streamId : UInt32) :
    (update key heap streamId).toList.Perm heap.toList := by
  unfold update
  split
  · exact sift_perm key heap _
  · exact .refl _

theorem insert_perm (key : α → Nat) (heap : SrptHeap α) (streamId : UInt32) (value : α) :
    (insert key heap streamId value).toList.Perm (⟨streamId, value⟩ :: heap.toList) := by
  refine (siftUp_perm key _ _).trans ?_
  rw [Array.toList_push]
  exact List.perm_append_comm

theorem pop_perm {e : Entry α} (last : heap[heap.size - 1]? = some e) :
    (e :: heap.pop.toList).Perm heap.toList := by
  rw [← Array.getElem?_toList, ← Array.length_toList, ← List.getLast?_eq_getElem?] at last
  rw [Array.toList_pop]
  refine .trans ?_ (List.Perm.of_eq (List.dropLast_append_getLast? e last))
  exact @List.perm_append_comm _ [e] _

/-- Only the entry at the position leaves. -/
theorem removeAt_perm (key : α → Nat) {pos : Nat} {e : Entry α} (here : heap[pos]? = some e) :
    (e :: (removeAt key heap pos).toList).Perm heap.toList := by
  obtain ⟨inside, entry⟩ := Array.getElem?_eq_some_iff.mp here
  unfold removeAt
  split
  next isLast =>
    rw [isLast] at here
    exact pop_perm here
  next =>
    have last : (heap.swapIfInBounds pos (heap.size - 1))[
        (heap.swapIfInBounds pos (heap.size - 1)).size - 1]? = some e := by
      rw [Array.size_swapIfInBounds, Array.getElem?_eq_some_iff]
      exact ⟨by rw [Array.size_swapIfInBounds]; omega,
        (Array.getElem_swapIfInBounds_right inside _).trans entry⟩
    exact ((sift_perm key _ pos).cons _).trans
      ((pop_perm last).trans (swapIfInBounds_perm heap pos _))

theorem index_eq_some {pos : Nat} (found : index heap streamId = some pos) :
    ∃ e, heap[pos]? = some e ∧ e.streamId = streamId := by
  obtain ⟨inside, here, -⟩ := Array.findIdx?_eq_some_iff_getElem.mp found
  exact ⟨heap[pos], Array.getElem?_eq_getElem inside, by simpa using here⟩

theorem index_eq_none (missing : index heap streamId = none) : values heap streamId = [] := by
  have none := Array.findIdx?_eq_none_iff.mp missing
  rw [values, valuesOf_eq_nil, List.mem_map]
  rintro ⟨e, member, same⟩
  have differs := none e (Array.mem_toList_iff.mp member)
  simp [same] at differs

/-! ## What an operation does to a stream -/

theorem Distinct.of_perm (distinct : Distinct heap) (perm : other.toList.Perm heap.toList) :
    Distinct other :=
  (perm.map Entry.streamId).nodup_iff.mpr distinct

theorem Distinct.update (distinct : Distinct heap) (key : α → Nat) (streamId : UInt32) :
    Distinct (update key heap streamId) ∧
      ∀ id, values (SrptHeap.update key heap streamId) id = values heap id :=
  ⟨distinct.of_perm (update_perm key heap streamId),
    fun id => valuesOf_of_perm distinct (update_perm key heap streamId) id⟩

theorem Distinct.modify (distinct : Distinct heap) (streamId : UInt32) (f : α → α) :
    Distinct (modify heap streamId f) ∧ ∀ id, values (SrptHeap.modify heap streamId f) id =
      if id = streamId then (values heap id).map f else values heap id := by
  have ids : ∀ e : Entry α,
      (if e.streamId = streamId then { e with value := f e.value } else e).streamId =
        e.streamId := by
    intro e
    split <;> rfl
  constructor
  · unfold Distinct SrptHeap.modify
    rw [Array.toList_map, List.map_map]
    exact (List.map_congr_left fun e _ => ids e) ▸ distinct
  · intro id
    unfold values SrptHeap.modify
    rw [Array.toList_map]
    induction heap.toList with
    | nil => simp
    | cons e es ih =>
      rw [List.map_cons, valuesOf_cons, ids, valuesOf_cons, ih]
      by_cases here : e.streamId = id <;> by_cases same : id = streamId <;> simp_all

/-- What remains without an entry. -/
theorem Distinct.removeAt (distinct : Distinct heap) (key : α → Nat) {pos : Nat} {e : Entry α}
    (here : heap[pos]? = some e) :
    Distinct (removeAt key heap pos) ∧ ∀ id, values (SrptHeap.removeAt key heap pos) id =
      if id = e.streamId then [] else values heap id := by
  have perm := removeAt_perm key here
  have nodup := (perm.map Entry.streamId).nodup_iff.mpr distinct
  rw [List.map_cons, List.nodup_cons] at nodup
  refine ⟨nodup.2, fun id => ?_⟩
  split
  next same =>
    rw [same]
    exact valuesOf_eq_nil.mpr nodup.1
  next other =>
    have kept := valuesOf_of_perm distinct perm id
    rwa [valuesOf_cons, if_neg (Ne.symm other)] at kept

theorem Distinct.insert (distinct : Distinct heap) (key : α → Nat)
    (fresh : values heap streamId = []) (value : α) :
    Distinct (insert key heap streamId value) ∧
      ∀ id, values (SrptHeap.insert key heap streamId value) id =
        if id = streamId then [value] else values heap id := by
  have perm := insert_perm key heap streamId value
  have nodup : ((⟨streamId, value⟩ :: heap.toList).map Entry.streamId).Nodup := by
    rw [List.map_cons, List.nodup_cons]
    exact ⟨valuesOf_eq_nil.mp fresh, distinct⟩
  refine ⟨(perm.map Entry.streamId).nodup_iff.mpr nodup, fun id => ?_⟩
  rw [values, valuesOf_of_perm nodup perm, valuesOf_cons]
  split
  next same =>
    subst same
    rw [if_pos rfl]
    exact congrArg _ fresh
  next other => rw [if_neg (Ne.symm other), values]

theorem Distinct.erase (distinct : Distinct heap) (key : α → Nat) (streamId : UInt32) :
    Distinct (erase key heap streamId) ∧ ∀ id, values (SrptHeap.erase key heap streamId) id =
      if id = streamId then [] else values heap id := by
  unfold SrptHeap.erase
  split
  next pos found =>
    obtain ⟨e, here, rfl⟩ := index_eq_some found
    exact distinct.removeAt key here
  next missing =>
    refine ⟨distinct, fun id => ?_⟩
    split
    next same => rw [same, index_eq_none missing]
    next => rfl

theorem Distinct.values_of_mem (distinct : Distinct heap) {e : Entry α} (member : e ∈ heap.toList) :
    values heap e.streamId = [e.value] := by
  obtain ⟨before, after, split⟩ := List.append_of_mem member
  have perm : (e :: (before ++ after)).Perm heap.toList := by
    rw [split]
    exact List.perm_middle.symm
  have nodup := (perm.map Entry.streamId).nodup_iff.mpr distinct
  rw [List.map_cons, List.nodup_cons] at nodup
  have single := valuesOf_of_perm distinct perm e.streamId
  rw [valuesOf_cons, if_pos rfl, valuesOf_eq_nil.mpr nodup.1] at single
  exact single.symm

theorem Distinct.values_eq_singleton (distinct : Distinct heap) {value : α}
    (member : value ∈ values heap streamId) : values heap streamId = [value] := by
  obtain ⟨e, found, rfl⟩ := List.mem_map.mp member
  obtain ⟨listed, same⟩ := List.mem_filter.mp found
  obtain rfl : e.streamId = streamId := by simpa using same
  exact distinct.values_of_mem listed

theorem mem_of_peekMin {e : Entry α} (first : heap.peekMin = some e) : e ∈ heap.toList :=
  Array.mem_toList_iff.mpr (Array.mem_of_getElem? first)

/-- `find` returns the value of the stream. -/
theorem find_eq (heap : SrptHeap α) (streamId : UInt32) :
    find heap streamId = (values heap streamId).head? := by
  rw [find, values, valuesOf, List.head?_map, List.head?_filter, Array.find?_toList]

end

end SrptHeap

end FbThrift.FastThrift
