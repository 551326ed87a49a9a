import FbThrift.Lib.Parcels
import FbThrift.Lib.PrefixCode

/-!
# Batches of writes

A server connection collects the buffers that it sends into a batch, which a callback of the
event base flushes: at the end of the loop, after an interval, or early when the batch is large
enough.  File descriptors that are sent with a buffer must arrive no later than its last byte, so
that a batch with file descriptors is split behind each buffer that has some.  Every write to the
socket has an entry with the calls that are due when it is done.
-/

namespace FbThrift.Rocket

/-- `folly::SocketFds`. -/
abbrev SocketFds := List Nat

/-- The bytes of one write to the socket, with file descriptors or without. -/
abbrev SocketWrite := Parcel UInt8 SocketFds

/-- Send callbacks are known by a number. -/
structure WriteBatchContext where
  requestCompleteCount : Nat
  sendCallbacks : List Nat
  deriving DecidableEq, Repr

def WriteBatchContext.empty : WriteBatchContext := ⟨0, []⟩

/-- The settings of a batcher, in milliseconds, writes and bytes. -/
structure WriteBatcherConfig where
  batchingInterval : Nat
  batchingSize : Nat
  batchingByteSize : Nat
  deriving DecidableEq, Repr

/-- Which callback of a batcher is scheduled. -/
inductive Scheduled where
  | none
  | timeout
  | loop
  deriving DecidableEq, Repr

structure WriteBatcher where
  bufferedWrites : Option Bytes
  bufferedWritesCount : Nat
  totalBytesBuffered : Nat
  earlyFlushRequested : Bool
  bufferedWritesContext : WriteBatchContext
  fdsAndOffsets : List (SocketFds × Nat)
  scheduled : Scheduled
  deriving DecidableEq, Repr

namespace WriteBatcher

def init : WriteBatcher := ⟨none, 0, 0, false, .empty, [], .none⟩

def isEmpty (b : WriteBatcher) : Bool := b.bufferedWrites.isNone

/-- The bytes of the batch. -/
def buffered (b : WriteBatcher) : Bytes := b.bufferedWrites.getD []

/-- The callback goes into the batch. -/
def addCallback (b : WriteBatcher) (cb : Option Nat) : WriteBatcher :=
  { b with bufferedWritesContext :=
      { b.bufferedWritesContext with
        sendCallbacks := b.bufferedWritesContext.sendCallbacks ++ cb.toList } }

/-- Bytes are only counted for a byte limit or for observers. -/
def countBytes (config : WriteBatcherConfig) (b : WriteBatcher) (data : Bytes)
    (hasObservers : Bool) : WriteBatcher :=
  if config.batchingByteSize ≠ 0 ∨ hasObservers then
    { b with totalBytesBuffered := b.totalBytesBuffered + data.length }
  else b

/-- The first buffer of a batch schedules its flush. -/
def buffer (config : WriteBatcherConfig) (b : WriteBatcher) (data : Bytes) : WriteBatcher :=
  match b.bufferedWrites with
  | none =>
    { b with
      bufferedWrites := some data
      scheduled := if config.batchingInterval ≠ 0 then .timeout else .loop }
  | some buffered => { b with bufferedWrites := some (buffered ++ data) }

/-- The offset is that behind the buffer with the file descriptors. -/
def addFds (b : WriteBatcher) (fds : SocketFds) : WriteBatcher :=
  if fds = [] then b
  else { b with fdsAndOffsets := b.fdsAndOffsets ++ [(fds, b.buffered.length)] }

/-- A batch that is large enough is flushed in this iteration of the loop. -/
def flushEarly (config : WriteBatcherConfig) (b : WriteBatcher) : WriteBatcher :=
  let b := { b with bufferedWritesCount := b.bufferedWritesCount + 1 }
  if config.batchingInterval ≠ 0 ∧ (b.bufferedWritesCount = config.batchingSize ∨
        config.batchingByteSize ≠ 0 ∧ config.batchingByteSize ≤ b.totalBytesBuffered ∧
          b.earlyFlushRequested = false) then
    { b with earlyFlushRequested := true, scheduled := .loop }
  else b

def enqueueWrite (config : WriteBatcherConfig) (b : WriteBatcher) (data : Bytes)
    (cb : Option Nat) (fds : SocketFds) (hasObservers : Bool) : WriteBatcher :=
  let b := (b.addCallback cb).countBytes config data hasObservers
  ((b.buffer config data).addFds fds).flushEarly config

def enqueueRequestComplete (b : WriteBatcher) : WriteBatcher :=
  { b with bufferedWritesContext :=
      { b.bufferedWritesContext with
        requestCompleteCount := b.bufferedWritesContext.requestCompleteCount + 1 } }

/-- What is left of a batch when it is flushed. -/
def flushed (_ : WriteBatcher) : WriteBatcher := init

section

variable (config : WriteBatcherConfig) (b : WriteBatcher) (data : Bytes) (cb : Option Nat)
variable (fds : SocketFds) (hasObservers : Bool)

@[simp] theorem bufferedWrites_countBytes :
    (b.countBytes config data hasObservers).bufferedWrites = b.bufferedWrites := by
  rw [countBytes]
  split <;> rfl

@[simp] theorem bufferedWritesContext_countBytes :
    (b.countBytes config data hasObservers).bufferedWritesContext = b.bufferedWritesContext := by
  rw [countBytes]
  split <;> rfl

@[simp] theorem fdsAndOffsets_countBytes :
    (b.countBytes config data hasObservers).fdsAndOffsets = b.fdsAndOffsets := by
  rw [countBytes]
  split <;> rfl

@[simp] theorem scheduled_countBytes :
    (b.countBytes config data hasObservers).scheduled = b.scheduled := by
  rw [countBytes]
  split <;> rfl

@[simp] theorem bufferedWrites_buffer :
    (b.buffer config data).bufferedWrites = some (b.bufferedWrites.getD [] ++ data) := by
  rw [buffer]
  cases b.bufferedWrites <;> rfl

@[simp] theorem bufferedWritesContext_buffer :
    (b.buffer config data).bufferedWritesContext = b.bufferedWritesContext := by
  rw [buffer]
  cases b.bufferedWrites <;> rfl

@[simp] theorem fdsAndOffsets_buffer : (b.buffer config data).fdsAndOffsets = b.fdsAndOffsets := by
  rw [buffer]
  cases b.bufferedWrites <;> rfl

theorem scheduled_buffer (some : b.bufferedWrites ≠ none → b.scheduled ≠ .none) :
    (b.buffer config data).scheduled ≠ .none := by
  rw [buffer]
  cases same : b.bufferedWrites with
  | none =>
    dsimp only
    split <;> simp
  | some bytes => exact some (by simp [same])

@[simp] theorem bufferedWrites_addFds : (b.addFds fds).bufferedWrites = b.bufferedWrites := by
  rw [addFds]
  split <;> rfl

@[simp] theorem bufferedWritesContext_addFds :
    (b.addFds fds).bufferedWritesContext = b.bufferedWritesContext := by
  rw [addFds]
  split <;> rfl

@[simp] theorem fdsAndOffsets_addFds : (b.addFds fds).fdsAndOffsets =
    b.fdsAndOffsets ++ if fds = [] then [] else [(fds, b.buffered.length)] := by
  rw [addFds]
  split
  next => exact (List.append_nil _).symm
  next => rfl

@[simp] theorem scheduled_addFds : (b.addFds fds).scheduled = b.scheduled := by
  rw [addFds]
  split <;> rfl

@[simp] theorem bufferedWrites_flushEarly :
    (b.flushEarly config).bufferedWrites = b.bufferedWrites := by
  simp only [flushEarly]
  split <;> rfl

@[simp] theorem bufferedWritesContext_flushEarly :
    (b.flushEarly config).bufferedWritesContext = b.bufferedWritesContext := by
  simp only [flushEarly]
  split <;> rfl

@[simp] theorem fdsAndOffsets_flushEarly :
    (b.flushEarly config).fdsAndOffsets = b.fdsAndOffsets := by
  simp only [flushEarly]
  split <;> rfl

theorem scheduled_flushEarly (some : b.scheduled ≠ .none) :
    (b.flushEarly config).scheduled ≠ .none := by
  simp only [flushEarly]
  split
  next => simp
  next => exact some

/-! A write goes behind the others of the batch, with its callback and its descriptors. -/

@[simp] theorem bufferedWrites_enqueueWrite :
    (b.enqueueWrite config data cb fds hasObservers).bufferedWrites =
      some (b.buffered ++ data) := by
  simp [enqueueWrite, addCallback, buffered]

@[simp] theorem buffered_enqueueWrite :
    (b.enqueueWrite config data cb fds hasObservers).buffered = b.buffered ++ data := by
  rw [buffered, bufferedWrites_enqueueWrite]
  rfl

@[simp] theorem bufferedWritesContext_enqueueWrite :
    (b.enqueueWrite config data cb fds hasObservers).bufferedWritesContext =
      { b.bufferedWritesContext with
        sendCallbacks := b.bufferedWritesContext.sendCallbacks ++ cb.toList } := by
  simp [enqueueWrite, addCallback]

@[simp] theorem fdsAndOffsets_enqueueWrite :
    (b.enqueueWrite config data cb fds hasObservers).fdsAndOffsets = b.fdsAndOffsets ++
        if fds = [] then [] else [(fds, (b.buffered ++ data).length)] := by
  simp [enqueueWrite, addCallback, buffered]

theorem scheduled_enqueueWrite (some : b.bufferedWrites ≠ none → b.scheduled ≠ .none) :
    (b.enqueueWrite config data cb fds hasObservers).scheduled ≠ .none := by
  apply scheduled_flushEarly
  rw [scheduled_addFds]
  apply scheduled_buffer
  simpa [addCallback] using some

end

end WriteBatcher

/-! ## The writes of a batch -/

/-- A batch without file descriptors is one write. -/
def flushWrites (writes : Bytes) (context : WriteBatchContext) :
    List (SocketWrite × WriteBatchContext) :=
  [(⟨writes, none⟩, context)]

/-- The batch is split behind each buffer that has file descriptors.  The entry of the last
write has the calls of the batch, and the others are empty. -/
def flushWritesWithFds (writes : Bytes) (context : WriteBatchContext) (prevOffset : Nat) :
    List (SocketFds × Nat) → List (SocketWrite × WriteBatchContext)
  | [] => if writes = [] then [] else [(⟨writes, none⟩, context)]
  | (fds, fdsOffset) :: fdsAndOffsets =>
    let write := writes.take (fdsOffset - prevOffset)
    let writesQ := writes.drop (fdsOffset - prevOffset)
    if writesQ = [] then [(⟨write, some fds⟩, context)]
    else
      (⟨write, some fds⟩, .empty) :: flushWritesWithFds writesQ context fdsOffset fdsAndOffsets

/-- The writes that a flush gives to the socket, one behind the other. -/
def WriteBatcher.flushPendingWrites (b : WriteBatcher) : List (SocketWrite × WriteBatchContext) :=
  if b.fdsAndOffsets = [] then flushWrites b.buffered b.bufferedWritesContext
  else flushWritesWithFds b.buffered b.bufferedWritesContext 0 b.fdsAndOffsets

/-! ## Well-formed batches -/

/-- Offsets increase from one to the next, and none is behind the end. -/
def Ascending (prevOffset last : Nat) : List (SocketFds × Nat) → Prop
  | [] => prevOffset ≤ last
  | (_, offset) :: rest => prevOffset < offset ∧ Ascending offset last rest

theorem Ascending.le {prevOffset last : Nat} {fdsAndOffsets : List (SocketFds × Nat)}
    (ascending : Ascending prevOffset last fdsAndOffsets) : prevOffset ≤ last := by
  induction fdsAndOffsets generalizing prevOffset with
  | nil => exact ascending
  | cons first rest ih => exact Nat.le_of_lt (Nat.lt_of_lt_of_le ascending.1 (ih ascending.2))

theorem Ascending.mono {prevOffset last more : Nat} {fdsAndOffsets : List (SocketFds × Nat)}
    (ascending : Ascending prevOffset last fdsAndOffsets) (le : last ≤ more) :
    Ascending prevOffset more fdsAndOffsets := by
  induction fdsAndOffsets generalizing prevOffset with
  | nil => exact Nat.le_trans ascending le
  | cons first rest ih => exact ⟨ascending.1, ih ascending.2⟩

/-- A place behind all the others. -/
theorem Ascending.concat {prevOffset last more : Nat} {fdsAndOffsets : List (SocketFds × Nat)}
    (ascending : Ascending prevOffset last fdsAndOffsets) (lt : last < more) (fds : SocketFds) :
    Ascending prevOffset more (fdsAndOffsets ++ [(fds, more)]) := by
  induction fdsAndOffsets generalizing prevOffset with
  | nil => exact ⟨Nat.lt_of_le_of_lt ascending lt, Nat.le_refl _⟩
  | cons first rest ih => exact ⟨ascending.1, ih ascending.2⟩

/-- Nothing is behind the end. -/
theorem Ascending.eq_nil {last : Nat} {fdsAndOffsets : List (SocketFds × Nat)}
    (ascending : Ascending last last fdsAndOffsets) : fdsAndOffsets = [] := by
  cases fdsAndOffsets with
  | nil => rfl
  | cons first rest => exact absurd ascending.2.le (Nat.not_le.mpr ascending.1)

/-- A batch that is empty is as it was at the start, and a flush of one that is not is
scheduled. -/
structure WriteBatcher.Wf (b : WriteBatcher) : Prop where
  ascending : Ascending 0 b.buffered.length b.fdsAndOffsets
  empty : b.bufferedWrites = none → b = init
  scheduled : b.bufferedWrites ≠ none → b.scheduled ≠ .none

section

variable {writes : Bytes} {context : WriteBatchContext} {prevOffset : Nat}
variable {fdsAndOffsets : List (SocketFds × Nat)}

/-- A split loses no bytes. -/
theorem joined_flushWritesWithFds
    (ascending : Ascending prevOffset (prevOffset + writes.length) fdsAndOffsets) :
    Parcel.joined ((flushWritesWithFds writes context prevOffset fdsAndOffsets).map Prod.fst) =
      writes := by
  induction fdsAndOffsets generalizing writes prevOffset with
  | nil =>
    rw [flushWritesWithFds]
    split
    next none => exact none.symm
    next => exact List.append_nil writes
  | cons first rest ih =>
    obtain ⟨fds, fdsOffset⟩ := first
    simp only [flushWritesWithFds]
    split
    next last =>
      rw [List.map_cons, List.map_nil, Parcel.joined_cons, Parcel.joined_nil, List.append_nil]
      exact List.take_of_length_le (List.drop_eq_nil_iff.mp last)
    next more =>
      have within := ascending.2.le
      have left : fdsOffset + (writes.drop (fdsOffset - prevOffset)).length =
          prevOffset + writes.length := by
        have := ascending.1
        rw [List.length_drop]
        omega
      rw [List.map_cons, Parcel.joined_cons, ih (left ▸ ascending.2)]
      exact List.take_append_drop _ writes

/-- Each set of file descriptors is with the write that ends at its offset. -/
theorem marks_flushWritesWithFds
    (ascending : Ascending prevOffset (prevOffset + writes.length) fdsAndOffsets) :
    Parcel.marks prevOffset
        ((flushWritesWithFds writes context prevOffset fdsAndOffsets).map Prod.fst) =
      fdsAndOffsets := by
  induction fdsAndOffsets generalizing writes prevOffset with
  | nil =>
    rw [flushWritesWithFds]
    split <;> rfl
  | cons first rest ih =>
    obtain ⟨fds, fdsOffset⟩ := first
    have after := ascending.1
    have within := ascending.2.le
    have ends : prevOffset + (writes.take (fdsOffset - prevOffset)).length = fdsOffset := by
      rw [List.length_take]
      omega
    simp only [flushWritesWithFds]
    split
    next last =>
      have length := List.drop_eq_nil_iff.mp last
      have same : prevOffset + writes.length = fdsOffset := by omega
      have none : rest = [] := (same ▸ ascending.2 : Ascending fdsOffset fdsOffset rest).eq_nil
      simp only [List.map_cons, List.map_nil, Parcel.marks, ends, none]
      rfl
    next more =>
      have left : fdsOffset + (writes.drop (fdsOffset - prevOffset)).length =
          prevOffset + writes.length := by
        rw [List.length_drop]
        omega
      simp only [List.map_cons, Parcel.marks, ends, ih (left ▸ ascending.2)]
      rfl

theorem flushWritesWithFds_last (some : fdsAndOffsets = [] → writes ≠ []) :
    ∃ front write, flushWritesWithFds writes context prevOffset fdsAndOffsets =
      front ++ [(write, context)] ∧ ∀ slot ∈ front, slot.2 = .empty := by
  induction fdsAndOffsets generalizing writes prevOffset with
  | nil =>
    rw [flushWritesWithFds, if_neg (some rfl)]
    exact ⟨[], _, rfl, by simp⟩
  | cons first rest ih =>
    obtain ⟨fds, fdsOffset⟩ := first
    simp only [flushWritesWithFds]
    split
    next => exact ⟨[], _, rfl, by simp⟩
    next more =>
      obtain ⟨front, write, split, dummies⟩ := @ih _ fdsOffset fun _ => more
      refine ⟨_ :: front, write, by rw [split]; rfl, ?_⟩
      intro slot member
      rcases List.mem_cons.mp member with rfl | later
      · rfl
      · exact dummies slot later

end

namespace WriteBatcher

variable {b : WriteBatcher}

theorem joined_flushPendingWrites (wf : b.Wf) :
    Parcel.joined (b.flushPendingWrites.map Prod.fst) = b.buffered := by
  rw [flushPendingWrites]
  split
  next => exact List.append_nil _
  next => exact joined_flushWritesWithFds (by rw [Nat.zero_add]; exact wf.ascending)

theorem marks_flushPendingWrites (wf : b.Wf) :
    Parcel.marks 0 (b.flushPendingWrites.map Prod.fst) = b.fdsAndOffsets := by
  rw [flushPendingWrites]
  split
  next none => exact none.symm
  next => exact marks_flushWritesWithFds (by rw [Nat.zero_add]; exact wf.ascending)

@[simp] theorem buffered_init : init.buffered = [] := rfl

@[simp] theorem fdsAndOffsets_init : init.fdsAndOffsets = [] := rfl

@[simp] theorem bufferedWritesContext_init : init.bufferedWritesContext = .empty := rfl

theorem isEmpty_eq_true : b.isEmpty = true ↔ b.bufferedWrites = none := Option.isNone_iff_eq_none

theorem isEmpty_eq_false : b.isEmpty = false ↔ b.bufferedWrites ≠ none := by
  rw [Ne, ← isEmpty_eq_true, Bool.not_eq_true]

theorem Wf.eq_init (wf : b.Wf) (empty : b.isEmpty = true) : b = .init :=
  wf.empty (isEmpty_eq_true.mp empty)

theorem wf_init : init.Wf where
  ascending := Nat.le_refl 0
  empty _ := rfl
  scheduled some := absurd rfl some

theorem Wf.enqueueWrite (wf : b.Wf) (config : WriteBatcherConfig) (data : Bytes)
    (cb : Option Nat) (fds : SocketFds) (hasObservers : Bool) (whole : fds ≠ [] → data ≠ []) :
    (b.enqueueWrite config data cb fds hasObservers).Wf := by
  refine ⟨?_, by simp, fun _ => b.scheduled_enqueueWrite config data cb fds hasObservers
    wf.scheduled⟩
  rw [buffered_enqueueWrite, fdsAndOffsets_enqueueWrite, List.length_append]
  split
  next =>
    rw [List.append_nil]
    exact wf.ascending.mono (Nat.le_add_right _ _)
  next some =>
    have long := List.length_pos_of_ne_nil (whole some)
    exact wf.ascending.concat (by omega) fds

theorem Wf.enqueueRequestComplete (wf : b.Wf) (some : b.isEmpty = false) :
    b.enqueueRequestComplete.Wf where
  ascending := wf.ascending
  empty nothing := absurd nothing (isEmpty_eq_false.mp some)
  scheduled := wf.scheduled

theorem flushPendingWrites_last (b : WriteBatcher) :
    ∃ front write, b.flushPendingWrites = front ++ [(write, b.bufferedWritesContext)] ∧
      ∀ slot ∈ front, slot.2 = .empty := by
  rw [flushPendingWrites]
  split
  next => exact ⟨[], _, rfl, by simp⟩
  next some => exact flushWritesWithFds_last fun none => absurd none some

end WriteBatcher

end FbThrift.Rocket
