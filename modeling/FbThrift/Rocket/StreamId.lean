import Mathlib.Algebra.Group.Nat.Defs
import Mathlib.Data.Finset.Basic
import Mathlib.Data.Nat.Find

/-!
# Stream ids of a client

`makeStreamId` counts odd ids up to the largest one and then starts again, skipping the ids
of open streams.  Request-responses are kept in another set, that of the request queue, in
which they are tracked from when their write is scheduled until they are responded to.
-/

namespace FbThrift.Rocket

/-- `StreamId::maxClientStreamId`. -/
def maxClientStreamId : Nat := 2 ^ 31 - 1

/-- Ids are numbers of 32 bits. -/
def streamIdRange : Nat := 2 ^ 32

structure RocketClient where
  nextStreamId : Nat := 1
  hitMaxStreamId : Bool := false
  /-- The ids of the open streams. -/
  streams : Finset Nat := ∅
  /-- The ids of the request-responses that the queue tracks. -/
  requestResponseContexts : Finset Nat := ∅
  /-- The ids of the request-responses that wait in the write buffer, if there is one. -/
  writeBufferQueue : Option (List Nat) := none

namespace RocketClient

/-! ## The allocator -/

/-- The first id that is not an open stream.  After `2 ^ 31` steps the counter is back where
it was, and the loop of the source does not end. -/
def skipStreams (streams : Finset Nat) : Nat → Nat → Option Nat
  | 0, _ => none
  | fuel + 1, id =>
    if id ∈ streams then skipStreams streams fuel ((id + 2) % streamIdRange) else some id

/-- The loop of `makeStreamId`; `none` when it does not end.  Open streams are skipped only
after the counter has wrapped. -/
def candidate (c : RocketClient) : Option Nat :=
  if c.hitMaxStreamId then skipStreams c.streams (2 ^ 31) c.nextStreamId
  else some c.nextStreamId

/-- The counter goes on behind the id, or starts again behind the largest one. -/
def advance (c : RocketClient) (id : Nat) : RocketClient :=
  if id = maxClientStreamId then { c with nextStreamId := 1, hitMaxStreamId := true }
  else { c with nextStreamId := (id + 2) % streamIdRange }

def makeStreamId (c : RocketClient) : Option (Nat × RocketClient) :=
  c.candidate.map fun id => (id, c.advance id)

/-! ## Requests -/

/-- What happens to a client. -/
inductive Action where
  /-- The request is tracked when its write is scheduled, which waits as long as requests
  are buffered. -/
  | sendRequestResponse
  /-- Fire and forget, or a request whose write was not scheduled. -/
  | sendRequestFnf
  | sendRequestStreamChannel
  /-- A request-response was responded to, timed out or failed. -/
  | untrack (id : Nat)
  | freeStream (id : Nat)
  | startBufferingRequests
  | resolveWriteBuffer
  /-- The buffered requests fail. -/
  | failWriteBuffer
  deriving DecidableEq, Repr

/-- The actions that ask for an id. -/
def Action.allocates : Action → Bool
  | .sendRequestResponse | .sendRequestFnf | .sendRequestStreamChannel => true
  | _ => false

/-- What a request does with its id. -/
def useStreamId (c : RocketClient) (id : Nat) : Action → RocketClient
  | .sendRequestResponse =>
    match c.writeBufferQueue with
    | some queue => { c with writeBufferQueue := some (queue ++ [id]) }
    | none => { c with requestResponseContexts := insert id c.requestResponseContexts }
  | .sendRequestStreamChannel => { c with streams := insert id c.streams }
  | _ => c

/-- An action that asks for no id. -/
def perform (c : RocketClient) : Action → RocketClient
  | .untrack id => { c with requestResponseContexts := c.requestResponseContexts.erase id }
  | .freeStream id => { c with streams := c.streams.erase id }
  | .startBufferingRequests =>
    match c.writeBufferQueue with
    | some _ => c
    | none => { c with writeBufferQueue := some [] }
  | .resolveWriteBuffer =>
    match c.writeBufferQueue with
    | some queue =>
      { c with
        writeBufferQueue := none
        requestResponseContexts := c.requestResponseContexts ∪ queue.toFinset }
    | none => c
  | .failWriteBuffer => { c with writeBufferQueue := c.writeBufferQueue.map fun _ => [] }
  | _ => c

/-! ## Safety -/

/-- An odd id that no open stream and no tracked request-response uses. -/
def SafeId (c : RocketClient) (id : Nat) : Prop :=
  id % 2 = 1 ∧ id ≤ maxClientStreamId ∧ id ∉ c.streams ∧ id ∉ c.requestResponseContexts

/-- Every id that a run asks for is returned and safe in the state it was asked in. -/
def AllocationsSafe (c : RocketClient) : List Action → Prop
  | [] => True
  | action :: actions =>
    if action.allocates then
      ∃ id next, c.makeStreamId = some (id, next) ∧ c.SafeId id ∧
        AllocationsSafe (next.useStreamId id action) actions
    else AllocationsSafe (c.perform action) actions

/-- Before the counter has wrapped there is always room.  After it, some odd id from the
counter on is no open stream, and no tracked request-response is where the counter gets by
skipping open streams. -/
def HasRoom (c : RocketClient) : Prop :=
  c.hitMaxStreamId = false ∨
    (∃ id, id % 2 = 1 ∧ c.nextStreamId ≤ id ∧ id ≤ maxClientStreamId ∧ id ∉ c.streams) ∧
    ∀ id ∈ c.requestResponseContexts, c.nextStreamId ≤ id →
      (∀ below, below % 2 = 1 → c.nextStreamId ≤ below → below < id → below ∈ c.streams) →
      id ∈ c.streams

/-- There is room whenever a run asks for an id. -/
def RoomAlways (c : RocketClient) : List Action → Prop
  | [] => True
  | action :: actions =>
    if action.allocates then
      c.HasRoom ∧ ∀ id next, c.makeStreamId = some (id, next) →
        RoomAlways (next.useStreamId id action) actions
    else RoomAlways (c.perform action) actions

/-! ## The invariant -/

/-- An id that the allocator can have returned: before the counter has wrapped it is below
the counter. -/
def Used (c : RocketClient) (id : Nat) : Prop :=
  id % 2 = 1 ∧ id ≤ maxClientStreamId ∧ (c.hitMaxStreamId = false → id < c.nextStreamId)

/-- The counter is at an odd id, and all ids in use can have been returned. -/
structure Inv (c : RocketClient) : Prop where
  odd : c.nextStreamId % 2 = 1
  le : c.nextStreamId ≤ maxClientStreamId
  streams : ∀ id ∈ c.streams, c.Used id
  contexts : ∀ id ∈ c.requestResponseContexts, c.Used id
  buffered : ∀ queue, c.writeBufferQueue = some queue → ∀ id ∈ queue, c.Used id

theorem inv_init : Inv {} where
  odd := rfl
  le := by simp [maxClientStreamId]
  streams := by simp
  contexts := by simp
  buffered := by simp

variable {c next : RocketClient} {id : Nat} {action : Action}

theorem Inv.perform (inv : Inv c) (action : Action) : Inv (c.perform action) := by
  cases action with
  | untrack id =>
    exact ⟨inv.odd, inv.le, inv.streams,
      fun other member => inv.contexts other (Finset.mem_of_mem_erase member), inv.buffered⟩
  | freeStream id =>
    exact ⟨inv.odd, inv.le, fun other member => inv.streams other (Finset.mem_of_mem_erase member),
      inv.contexts, inv.buffered⟩
  | startBufferingRequests =>
    unfold RocketClient.perform
    cases buffer : c.writeBufferQueue with
    | some queue => exact inv
    | none =>
      refine ⟨inv.odd, inv.le, inv.streams, inv.contexts, ?_⟩
      intro queue same id member
      cases same
      cases member
  | resolveWriteBuffer =>
    unfold RocketClient.perform
    cases buffer : c.writeBufferQueue with
    | none => exact inv
    | some queue =>
      refine ⟨inv.odd, inv.le, inv.streams, ?_, nofun⟩
      intro id member
      rcases Finset.mem_union.mp member with member | member
      · exact inv.contexts id member
      · exact inv.buffered queue buffer id (List.mem_toFinset.mp member)
  | failWriteBuffer =>
    refine ⟨inv.odd, inv.le, inv.streams, inv.contexts, ?_⟩
    intro queue same id member
    obtain ⟨_, -, rfl⟩ := Option.map_eq_some_iff.mp same
    cases member
  | sendRequestResponse => exact inv
  | sendRequestFnf => exact inv
  | sendRequestStreamChannel => exact inv

theorem makeStreamId_eq_some :
    c.makeStreamId = some (id, next) ↔ c.candidate = some id ∧ next = c.advance id := by
  simp only [makeStreamId, Option.map_eq_some_iff, Prod.mk.injEq]
  constructor
  · rintro ⟨found, same, rfl, rfl⟩
    exact ⟨same, rfl⟩
  · rintro ⟨same, rfl⟩
    exact ⟨id, same, rfl, rfl⟩

theorem advance_streams (c : RocketClient) (id : Nat) : (c.advance id).streams = c.streams ∧
      (c.advance id).requestResponseContexts = c.requestResponseContexts ∧
      (c.advance id).writeBufferQueue = c.writeBufferQueue := by
  unfold advance
  split <;> exact ⟨rfl, rfl, rfl⟩

/-- A safe id keeps the counter odd and in range, and is then in use like those before. -/
theorem advance_used (found : c.candidate = some id) (odd : id % 2 = 1)
    (le : id ≤ maxClientStreamId) :
    (c.advance id).nextStreamId % 2 = 1 ∧ (c.advance id).nextStreamId ≤ maxClientStreamId ∧
      (c.advance id).Used id ∧ ∀ other, c.Used other → (c.advance id).Used other := by
  have bound : maxClientStreamId = 2147483647 := rfl
  unfold advance Used
  split
  · refine ⟨rfl, ?_, ⟨odd, le, nofun⟩, fun other used => ⟨used.1, used.2.1, nofun⟩⟩
    exact Nat.le_trans (by decide : 1 ≤ 2147483647) (Nat.le_of_eq bound.symm)
  · rename_i notLast
    have small : (id + 2) % streamIdRange = id + 2 := Nat.mod_eq_of_lt (by
      have range : streamIdRange = 4294967296 := rfl
      omega)
    simp only [small]
    refine ⟨by omega, by omega, ⟨odd, le, fun _ => by omega⟩, ?_⟩
    intro other used
    refine ⟨used.1, used.2.1, fun before => ?_⟩
    have first : c.candidate = some c.nextStreamId := by simp [candidate, before]
    have same : id = c.nextStreamId := by
      rw [first] at found
      exact (Option.some.inj found).symm
    have below := used.2.2 before
    omega

theorem Inv.useStreamId (inv : Inv c) (found : c.candidate = some id) (odd : id % 2 = 1)
    (le : id ≤ maxClientStreamId) (action : Action) :
    Inv ((c.advance id).useStreamId id action) := by
  obtain ⟨nextOdd, nextLe, used, kept⟩ := advance_used found odd le
  obtain ⟨streams, contexts, buffer⟩ := c.advance_streams id
  have advanced : Inv (c.advance id) := by
    refine ⟨nextOdd, nextLe, ?_, ?_, ?_⟩
    · rw [streams]
      exact fun other member => kept other (inv.streams other member)
    · rw [contexts]
      exact fun other member => kept other (inv.contexts other member)
    · rw [buffer]
      exact fun queue same other member => kept other (inv.buffered queue same other member)
  cases action with
  | sendRequestStreamChannel =>
    refine ⟨nextOdd, nextLe, ?_, advanced.contexts, advanced.buffered⟩
    intro other member
    rcases Finset.mem_insert.mp member with rfl | member
    · exact used
    · exact advanced.streams other member
  | sendRequestResponse =>
    unfold RocketClient.useStreamId
    cases queued : (c.advance id).writeBufferQueue with
    | none =>
      refine ⟨nextOdd, nextLe, advanced.streams, ?_, nofun⟩
      intro other member
      rcases Finset.mem_insert.mp member with rfl | member
      · exact used
      · exact advanced.contexts other member
    | some queue =>
      refine ⟨nextOdd, nextLe, advanced.streams, advanced.contexts, ?_⟩
      intro all same other member
      cases same
      rcases List.mem_append.mp member with member | member
      · exact advanced.buffered queue queued other member
      · rw [List.mem_singleton.mp member]
        exact used
  | sendRequestFnf => exact advanced
  | untrack => exact advanced
  | freeStream => exact advanced
  | startBufferingRequests => exact advanced
  | resolveWriteBuffer => exact advanced
  | failWriteBuffer => exact advanced

/-! ## The loop -/

/-- The loop ends at the first id that is not an open stream, counted without a wrap. -/
theorem skipStreams_of_first {streams : Finset Nat} (k fuel start : Nat) (enough : k < fuel)
    (small : start + 2 * k < streamIdRange) (free : start + 2 * k ∉ streams)
    (skipped : ∀ j < k, start + 2 * j ∈ streams) :
    skipStreams streams fuel start = some (start + 2 * k) := by
  induction k generalizing fuel start with
  | zero =>
    obtain ⟨fuel, rfl⟩ := Nat.exists_eq_succ_of_ne_zero (by omega : fuel ≠ 0)
    rw [Nat.mul_zero, Nat.add_zero] at free ⊢
    rw [skipStreams, if_neg free]
  | succ k ih =>
    obtain ⟨fuel, rfl⟩ := Nat.exists_eq_succ_of_ne_zero (by omega : fuel ≠ 0)
    have first : start ∈ streams := skipped 0 (by omega)
    have step : (start + 2) % streamIdRange = start + 2 := Nat.mod_eq_of_lt (by omega)
    have shift : ∀ j, start + 2 + 2 * j = start + 2 * (j + 1) := by omega
    rw [skipStreams, if_pos first, step,
      ih fuel (start + 2) (by omega) (by omega) (by rw [shift]; exact free)
        (fun j less => by rw [shift]; exact skipped (j + 1) (by omega)), shift]

/-- As long as only ids up to the largest one are open streams, the loop does not wrap. -/
theorem skipStreams_eq_some {streams : Finset Nat} (bounded : ∀ id ∈ streams, id ≤ maxClientStreamId)
    (fuel start : Nat) (small : start ≤ maxClientStreamId + 2)
    (found : skipStreams streams fuel start = some id) :
    ∃ k, id = start + 2 * k ∧ id ∉ streams ∧ ∀ j < k, start + 2 * j ∈ streams := by
  have range : streamIdRange = 4294967296 := rfl
  have bound : maxClientStreamId = 2147483647 := rfl
  induction fuel generalizing start with
  | zero => cases found
  | succ fuel ih =>
    rw [skipStreams] at found
    split at found
    next first =>
      have le := bounded start first
      rw [Nat.mod_eq_of_lt (by omega)] at found
      obtain ⟨k, same, free, skipped⟩ := ih (start + 2) (by omega) found
      refine ⟨k + 1, by omega, free, fun j less => ?_⟩
      cases j with
      | zero => exact first
      | succ j =>
        have member := skipped j (by omega)
        rw [show start + 2 * (j + 1) = start + 2 + 2 * j by omega]
        exact member
    next free =>
      cases found
      exact ⟨0, rfl, free, nofun⟩

theorem candidate_of_first (inv : Inv c) (wrapped : c.hitMaxStreamId = true)
    (odd : id % 2 = 1) (ge : c.nextStreamId ≤ id) (le : id ≤ maxClientStreamId)
    (free : id ∉ c.streams)
    (first : ∀ below, below % 2 = 1 → c.nextStreamId ≤ below → below < id →
      below ∈ c.streams) : c.candidate = some id := by
  have bound : maxClientStreamId = 2147483647 := rfl
  have range : streamIdRange = 4294967296 := rfl
  have nextOdd := inv.odd
  obtain ⟨k, same⟩ : ∃ k, id = c.nextStreamId + 2 * k :=
    ⟨(id - c.nextStreamId) / 2, by omega⟩
  rw [candidate, if_pos wrapped, same]
  refine skipStreams_of_first k _ _ ?_ (by omega) (same ▸ free) ?_
  · have power : 2 ^ 31 = 2147483648 := rfl
    omega
  · intro j less
    exact first _ (by omega) (by omega) (by omega)

/-- After a wrap the loop ends at such an id. -/
theorem first_of_candidate (inv : Inv c) (wrapped : c.hitMaxStreamId = true)
    (found : c.candidate = some id) :
    id % 2 = 1 ∧ c.nextStreamId ≤ id ∧ id ∉ c.streams ∧
      ∀ below, below % 2 = 1 → c.nextStreamId ≤ below → below < id → below ∈ c.streams := by
  rw [candidate, if_pos wrapped] at found
  have nextOdd := inv.odd
  have nextLe := inv.le
  obtain ⟨k, same, free, skipped⟩ := skipStreams_eq_some
    (fun id member => (inv.streams id member).2.1) _ _ (by omega) found
  refine ⟨by omega, by omega, free, fun below odd ge less => ?_⟩
  have step : below = c.nextStreamId + 2 * ((below - c.nextStreamId) / 2) := by omega
  rw [step]
  exact skipped _ (by omega)

/-! ## When ids are safe -/

theorem hasRoom_iff (inv : Inv c) : c.HasRoom ↔ ∃ id, c.candidate = some id ∧ c.SafeId id := by
  constructor
  · intro room
    cases wrapped : c.hitMaxStreamId with
    | false =>
      refine ⟨c.nextStreamId, by simp [candidate, wrapped], inv.odd, inv.le, ?_, ?_⟩
      · intro member
        exact absurd ((inv.streams _ member).2.2 wrapped) (Nat.lt_irrefl _)
      · intro member
        exact absurd ((inv.contexts _ member).2.2 wrapped) (Nat.lt_irrefl _)
    | true =>
      obtain ⟨room, tracked⟩ := room.resolve_left (by simp [wrapped])
      -- the least odd id from the counter on that is not an open stream
      classical
      obtain ⟨odd, ge, le, free⟩ := Nat.find_spec room
      have first : ∀ below, below % 2 = 1 → c.nextStreamId ≤ below →
          below < Nat.find room → below ∈ c.streams := by
        intro below odd ge less
        by_contra out
        exact Nat.find_min room less ⟨odd, ge, by omega, out⟩
      refine ⟨Nat.find room, candidate_of_first inv wrapped odd ge le free first, odd, le, free, ?_⟩
      intro member
      exact free (tracked _ member ge first)
  · rintro ⟨id, found, odd, le, free, untracked⟩
    cases wrapped : c.hitMaxStreamId with
    | false => exact .inl wrapped
    | true =>
      obtain ⟨-, ge, -, first⟩ := first_of_candidate inv wrapped found
      refine .inr ⟨⟨id, odd, ge, le, free⟩, ?_⟩
      intro other member above skipped
      by_contra out
      have otherOdd := (inv.contexts other member).1
      rcases Nat.lt_trichotomy other id with less | same | more
      · exact out (first other otherOdd above less)
      · exact untracked (same ▸ member)
      · exact free (skipped id odd ge more)

/-- In every run, all ids are returned and safe exactly when there is room whenever one is
asked for. -/
theorem allocationsSafe_iff_of_inv (inv : Inv c) (actions : List Action) :
    AllocationsSafe c actions ↔ RoomAlways c actions := by
  induction actions generalizing c with
  | nil => exact Iff.rfl
  | cons action actions ih =>
    unfold AllocationsSafe RoomAlways
    split
    · rw [hasRoom_iff inv]
      constructor
      · rintro ⟨id, next, made, safe, rest⟩
        obtain ⟨found, rfl⟩ := makeStreamId_eq_some.mp made
        refine ⟨⟨id, found, safe⟩, fun other next made => ?_⟩
        obtain ⟨again, rfl⟩ := makeStreamId_eq_some.mp made
        cases found.symm.trans again
        exact (ih (inv.useStreamId found safe.1 safe.2.1 action)).mp rest
      · rintro ⟨⟨id, found, safe⟩, rest⟩
        have made := makeStreamId_eq_some.mpr ⟨found, rfl⟩
        exact ⟨id, _, made, safe,
          (ih (inv.useStreamId found safe.1 safe.2.1 action)).mpr (rest id _ made)⟩
    · exact ih (inv.perform action)

/-- For every run of a client: every id it asks for is odd, at most the largest client id
and used by no open stream and no tracked request-response, if and only if there was room
for it in the state in which it was asked for. -/
theorem allocationsSafe_iff (actions : List Action) :
    AllocationsSafe {} actions ↔ RoomAlways {} actions :=
  allocationsSafe_iff_of_inv inv_init actions

/-- Requests that keep no id move the counter on until it is at the largest id. -/
theorem AllocationsSafe.of_fnf {c : RocketClient} {rest : List Action} (n : Nat)
    (before : c.hitMaxStreamId = false) (below : c.nextStreamId + 2 * n ≤ maxClientStreamId)
    (safe : AllocationsSafe c (List.replicate n .sendRequestFnf ++ rest)) :
    AllocationsSafe { c with nextStreamId := c.nextStreamId + 2 * n } rest := by
  have bound : maxClientStreamId = 2147483647 := rfl
  have range : streamIdRange = 4294967296 := rfl
  induction n generalizing c with
  | zero => exact safe
  | succ n ih =>
    obtain ⟨id, next, made, -, safe⟩ := safe
    obtain ⟨found, rfl⟩ := makeStreamId_eq_some.mp made
    simp only [candidate, before, Bool.false_eq_true, if_false, Option.some.injEq] at found
    rw [← found] at safe
    have step : c.advance c.nextStreamId = { c with nextStreamId := c.nextStreamId + 2 } := by
      rw [advance, if_neg (by omega), Nat.mod_eq_of_lt (by omega)]
    rw [step] at safe
    have later := ih (c := { c with nextStreamId := c.nextStreamId + 2 }) before
      (by simp only; omega) safe
    simp only at later
    rw [show c.nextStreamId + 2 + 2 * n = c.nextStreamId + 2 * (n + 1) by omega] at later
    exact later

/-- A request-response that is tracked while the counter wraps: its id is returned again. -/
theorem tracked_id_returned_again : ¬ AllocationsSafe {} (.sendRequestResponse ::
      (List.replicate (2 ^ 30 - 2) .sendRequestFnf ++ [.sendRequestFnf, .sendRequestFnf])) := by
  rintro ⟨id, next, made, -, safe⟩
  obtain ⟨found, rfl⟩ := makeStreamId_eq_some.mp made
  have one : id = 1 := (Option.some.inj found).symm
  rw [one] at safe
  have wrapping := AllocationsSafe.of_fnf (2 ^ 30 - 2) rfl (by decide) safe
  obtain ⟨id, next, made, -, safe⟩ := wrapping
  obtain ⟨found, rfl⟩ := makeStreamId_eq_some.mp made
  have last : id = maxClientStreamId := (Option.some.inj found).symm
  rw [last, advance, if_pos rfl] at safe
  obtain ⟨id, next, made, ⟨-, -, -, untracked⟩, -⟩ := safe
  obtain ⟨found, rfl⟩ := makeStreamId_eq_some.mp made
  have again : id = 1 := by
    have skip : skipStreams ∅ (2 ^ 31) 1 = some 1 :=
      skipStreams_of_first 0 (2 ^ 31) 1 (by decide) (by decide) (by simp) (by simp)
    exact (Option.some.inj (skip.symm.trans found)).symm
  rw [again] at untracked
  exact untracked (Finset.mem_insert_self 1 ∅)

end RocketClient

end FbThrift.Rocket
