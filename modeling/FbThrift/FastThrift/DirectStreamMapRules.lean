import FbThrift.FastThrift.DirectStreamMap
import Mathlib.Data.Finset.Card
import Mathlib.Data.Nat.Bitwise

/-!
# The map from streams is a finite map

What the slots hold is a finite map: keys stand once, at the end of a walk over filled slots, and
there is always a free slot for such walks to end at.
-/

namespace FbThrift.FastThrift

namespace DirectStreamMap

open LinearProbing

variable {K V : Type} [Inhabited K] [Inhabited V] {policy : IndexPolicy}
  {slots slots' : Array (Slot K V)} {map : DirectStreamMap K V} {key k : K} {value v : V}
  {p q idx left : Nat}

/-! ## Slots -/

theorem slotAt_set (inside : idx < slots.size) (s : Slot K V) (p : Nat) :
    slotAt (slots.setIfInBounds idx s) p = if p = idx then s else slotAt slots p := by
  unfold slotAt
  rw [Array.getD_eq_getD_getElem?, Array.getD_eq_getD_getElem?, Array.getElem?_setIfInBounds]
  by_cases here : idx = p
  · subst here
    rw [if_pos rfl, if_pos rfl, if_pos inside]
    rfl
  · rw [if_neg here, if_neg (Ne.symm here)]

theorem slotAt_replicate (n p : Nat) : slotAt (Array.replicate n ({} : Slot K V)) p = {} := by
  unfold slotAt
  rw [Array.getD_eq_getD_getElem?, Array.getElem?_replicate]
  split <;> rfl

/-- As many slots as a power of two. -/
def PowerOfTwo (slots : Array (Slot K V)) : Prop := ∃ bits, slots.size = 2 ^ bits

theorem PowerOfTwo.and_mask (power : PowerOfTwo slots) (n : Nat) :
    n &&& mask slots = n % slots.size := by
  obtain ⟨bits, size⟩ := power
  rw [mask, size, Nat.and_two_pow_sub_one_eq_mod]

theorem PowerOfTwo.size_pos (power : PowerOfTwo slots) : 0 < slots.size := by
  obtain ⟨bits, size⟩ := power
  rw [size]
  exact Nat.two_pow_pos bits

theorem PowerOfTwo.next_eq (power : PowerOfTwo slots) (inside : idx < slots.size) :
    (idx + 1) &&& mask slots = next slots.size idx := by
  rw [power.and_mask]
  unfold next
  split
  next last => rw [last, Nat.mod_self]
  next => exact Nat.mod_eq_of_lt (by omega)

/-! ## Entries -/

/-- There is an entry of a key with a value. -/
def Holds (slots : Array (Slot K V)) (key : K) (value : V) : Prop :=
  ∃ p < slots.size, slotAt slots p = ⟨key, value, .live⟩

/-- No key has two entries. -/
def Unique (slots : Array (Slot K V)) : Prop :=
  ∀ p < slots.size, ∀ q < slots.size, (slotAt slots p).tag = .live → (slotAt slots q).tag = .live →
    (slotAt slots p).first = (slotAt slots q).first → p = q

theorem holds_of_live (inside : p < slots.size) (live : (slotAt slots p).tag = .live) :
    Holds slots (slotAt slots p).first (slotAt slots p).second := by
  refine ⟨p, inside, ?_⟩
  rw [← live]

/-- The entries after one is moved into a free slot. -/
theorem slotAt_move (insideP : p < slots.size) (insideQ : q < slots.size) (r : Nat)
    (live : (slotAt ((slots.setIfInBounds p (slotAt slots q)).setIfInBounds q
      { slotAt slots q with second := default, tag := .empty }) r).tag = .live) :
    r ≠ q ∧ slotAt ((slots.setIfInBounds p (slotAt slots q)).setIfInBounds q
      { slotAt slots q with second := default, tag := .empty }) r =
        slotAt slots (if r = p then q else r) := by
  have insideQ' : q < (slots.setIfInBounds p (slotAt slots q)).size := by
    rwa [Array.size_setIfInBounds]
  rw [slotAt_set insideQ', slotAt_set insideP] at *
  split at live
  · cases live
  next other =>
    rw [if_neg other]
    refine ⟨other, ?_⟩
    split <;> rfl

theorem unique_move (unique : Unique slots) (insideP : p < slots.size) (insideQ : q < slots.size)
    : Unique ((slots.setIfInBounds p (slotAt slots q)).setIfInBounds q
      { slotAt slots q with second := default, tag := .empty }) := by
  intro a insideA b insideB liveA liveB same
  rw [Array.size_setIfInBounds, Array.size_setIfInBounds] at insideA insideB
  obtain ⟨otherA, fromA⟩ := slotAt_move insideP insideQ a liveA
  obtain ⟨otherB, fromB⟩ := slotAt_move insideP insideQ b liveB
  rw [fromA] at liveA same
  rw [fromB] at liveB same
  have origin := unique _ (by split <;> assumption) _ (by split <;> assumption) liveA liveB same
  split_ifs at origin with hereA hereB
  · rw [hereA, hereB]
  · exact absurd origin.symm otherB
  · exact absurd origin otherA
  · exact origin

theorem holds_move (insideP : p < slots.size) (insideQ : q < slots.size) (apart : p ≠ q)
    (free : (slotAt slots p).tag = .empty) (k : K) (v : V) :
    Holds ((slots.setIfInBounds p (slotAt slots q)).setIfInBounds q
      { slotAt slots q with second := default, tag := .empty }) k v ↔ Holds slots k v := by
  have insideQ' : q < (slots.setIfInBounds p (slotAt slots q)).size := by
    rwa [Array.size_setIfInBounds]
  constructor
  · rintro ⟨r, inside, entry⟩
    rw [Array.size_setIfInBounds, Array.size_setIfInBounds] at inside
    obtain ⟨-, same⟩ := slotAt_move insideP insideQ r (by rw [entry])
    rw [same] at entry
    exact ⟨_, by split <;> assumption, entry⟩
  · rintro ⟨r, inside, entry⟩
    unfold Holds
    rw [Array.size_setIfInBounds, Array.size_setIfInBounds]
    have filled : r ≠ p := by
      rintro rfl
      rw [entry] at free
      cases free
    by_cases moved : r = q
    · refine ⟨p, insideP, ?_⟩
      rw [slotAt_set insideQ', if_neg apart, slotAt_set insideP, if_pos rfl, ← moved, entry]
    · refine ⟨r, inside, ?_⟩
      rw [slotAt_set insideQ', if_neg moved, slotAt_set insideP, if_neg filled, entry]

/-- The entries after one is taken away. -/
theorem holds_free (unique : Unique slots) (inside : p < slots.size)
    (live : (slotAt slots p).tag = .live) (k : K) (v : V) :
    Holds (slots.setIfInBounds p { slotAt slots p with second := default, tag := .empty }) k v ↔
      k ≠ (slotAt slots p).first ∧ Holds slots k v := by
  unfold Holds
  rw [Array.size_setIfInBounds]
  constructor
  · rintro ⟨q, insideQ, entry⟩
    rw [slotAt_set inside] at entry
    split at entry
    · cases entry
    next other =>
      refine ⟨?_, q, insideQ, entry⟩
      rintro rfl
      exact other (unique q insideQ p inside (by rw [entry]) live (by rw [entry]))
  · rintro ⟨otherKey, q, insideQ, entry⟩
    refine ⟨q, insideQ, ?_⟩
    rw [slotAt_set inside, if_neg, entry]
    rintro rfl
    exact otherKey (by rw [entry])

/-- The entries after a value is written. -/
theorem holds_assign (unique : Unique slots) (inside : p < slots.size)
    (live : (slotAt slots p).tag = .live) (value : V) (k : K) (v : V) :
    Holds (slots.setIfInBounds p { slotAt slots p with second := value }) k v ↔
      k = (slotAt slots p).first ∧ v = value ∨ k ≠ (slotAt slots p).first ∧ Holds slots k v := by
  unfold Holds
  rw [Array.size_setIfInBounds]
  constructor
  · rintro ⟨q, insideQ, entry⟩
    rw [slotAt_set inside] at entry
    split at entry
    · rw [Slot.mk.injEq] at entry
      exact .inl ⟨entry.1.symm, entry.2.1.symm⟩
    next other =>
      refine .inr ⟨?_, q, insideQ, entry⟩
      rintro rfl
      exact other (unique q insideQ p inside (by rw [entry]) live (by rw [entry]))
  · rintro (⟨rfl, rfl⟩ | ⟨otherKey, q, insideQ, entry⟩)
    · exact ⟨p, inside, by rw [slotAt_set inside, if_pos rfl, ← live]⟩
    · refine ⟨q, insideQ, ?_⟩
      rw [slotAt_set inside, if_neg, entry]
      rintro rfl
      exact otherKey (by rw [entry])

theorem unique_free (unique : Unique slots) (inside : p < slots.size) :
    Unique (slots.setIfInBounds p { slotAt slots p with second := default, tag := .empty }) := by
  intro a insideA b insideB liveA liveB same
  rw [Array.size_setIfInBounds] at insideA insideB
  rw [slotAt_set inside] at liveA liveB same
  rw [slotAt_set inside] at same
  split at liveA
  · cases liveA
  next otherA =>
    split at liveB
    · cases liveB
    next otherB =>
      rw [if_neg otherA, if_neg otherB] at same
      exact unique a insideA b insideB liveA liveB same

theorem displaced_iff {n home gap cur : Nat} (insideHome : home < n) (insideGap : gap < n)
    (insideCur : cur < n) :
    displaced home gap cur = true ↔ distance n home gap < distance n home cur := by
  unfold displaced distance
  split_ifs <;> simp only [Bool.or_eq_true, Bool.and_eq_true, decide_eq_true_eq] <;> omega

/-! ## Walks -/

variable [StreamKey K]

theorem PowerOfTwo.apply_lt (power : PowerOfTwo slots) (policy : IndexPolicy) (key : K) :
    policy.apply key (mask slots) < slots.size := by
  cases policy with
  | streamIdIndex =>
    exact (power.and_mask _).trans_lt (Nat.mod_lt _ power.size_pos)
  | sequentialIndex =>
    exact (power.and_mask _).trans_lt (Nat.mod_lt _ power.size_pos)

/-- The natural slots of the entries. -/
def homes (policy : IndexPolicy) (slots : Array (Slot K V)) (p : Nat) : Option Nat :=
  if (slotAt slots p).tag = .live then some (policy.apply (slotAt slots p).first (mask slots))
  else none

theorem homes_eq_none : homes policy slots p = none ↔ (slotAt slots p).tag = .empty := by
  unfold homes
  cases (slotAt slots p).tag <;> simp

theorem homes_of_live (live : (slotAt slots p).tag = .live) :
    homes policy slots p = some (policy.apply (slotAt slots p).first (mask slots)) := if_pos live

theorem homes_set (inside : idx < slots.size) (s : Slot K V) :
    homes policy (slots.setIfInBounds idx s) = Function.update (homes policy slots) idx
      (if s.tag = .live then some (policy.apply s.first (mask slots)) else none) := by
  funext p
  have same : mask (slots.setIfInBounds idx s) = mask slots := by
    unfold mask
    rw [Array.size_setIfInBounds]
  rw [homes, slotAt_set inside, same, Function.update_apply]
  split <;> rfl

theorem homes_move (insideP : p < slots.size) (insideQ : q < slots.size)
    (live : (slotAt slots q).tag = .live) :
    homes policy ((slots.setIfInBounds p (slotAt slots q)).setIfInBounds q
      { slotAt slots q with second := default, tag := .empty }) =
    Function.update (Function.update (homes policy slots) p
      (some (policy.apply (slotAt slots q).first (mask slots)))) q none := by
  rw [homes_set (by rwa [Array.size_setIfInBounds]), homes_set insideP, if_pos live]
  rfl

theorem homes_free (inside : p < slots.size) :
    homes policy (slots.setIfInBounds p { slotAt slots p with second := default, tag := .empty }) =
      Function.update (homes policy slots) p none := by
  rw [homes_set inside]
  rfl

/-- The walk of a key stops at a slot: it is the first that is free or has the key. -/
structure Stops (policy : IndexPolicy) (slots : Array (Slot K V)) (key : K) (p : Nat) : Prop where
  inside : p < slots.size
  stop : (slotAt slots p).tag = .empty ∨ (slotAt slots p).first = key
  passed : ∀ q < slots.size, distance slots.size (policy.apply key (mask slots)) q <
      distance slots.size (policy.apply key (mask slots)) p →
    (slotAt slots q).tag ≠ .empty ∧ (slotAt slots q).first ≠ key

theorem exists_stops (policy : IndexPolicy) (key : K) (inside : p < slots.size)
    (free : (slotAt slots p).tag = .empty) : ∃ q, Stops policy slots key q := by
  obtain ⟨q, insideQ, stop, nearest⟩ := exists_nearest
    (fun q => (slotAt slots q).tag = .empty ∨ (slotAt slots q).first = key)
    (policy.apply key (mask slots)) inside (.inl free)
  exact ⟨q, insideQ, stop, fun r insideR less => not_or.mp (nearest r insideR less)⟩

/-- The walk goes on to where it stops. -/
theorem Stops.next (stops : Stops policy slots key p) (power : PowerOfTwo slots)
    (inside : idx < slots.size) (other : idx ≠ p)
    (ahead : distance slots.size (policy.apply key (mask slots)) idx ≤
      distance slots.size (policy.apply key (mask slots)) p) :
    (idx + 1) &&& mask slots < slots.size ∧
      distance slots.size (policy.apply key (mask slots)) ((idx + 1) &&& mask slots) =
        distance slots.size (policy.apply key (mask slots)) idx + 1 ∧
      distance slots.size (policy.apply key (mask slots)) idx + 1 ≤
        distance slots.size (policy.apply key (mask slots)) p ∧
      (slotAt slots idx).tag ≠ .empty ∧ (slotAt slots idx).first ≠ key := by
  have home := power.apply_lt policy key
  have less : distance slots.size (policy.apply key (mask slots)) idx <
      distance slots.size (policy.apply key (mask slots)) p :=
    lt_of_le_of_ne ahead fun same => other (distance_inj home inside stops.inside same)
  rw [power.next_eq inside]
  refine ⟨next_lt inside, distance_next home fun closed => other ?_, less,
    stops.passed idx inside less⟩
  exact (eq_of_next_eq home stops.inside closed ahead).symm

theorem Stops.not_holds (stops : Stops policy slots key p)
    (settled : Settled slots.size (homes policy slots))
    (free : (slotAt slots p).tag = .empty) (v : V) : ¬ Holds slots key v := by
  rintro ⟨q, inside, entry⟩
  have live : (slotAt slots q).tag = .live := by rw [entry]
  have first : (slotAt slots q).first = key := by rw [entry]
  have item : homes policy slots q = some _ := homes_of_live live
  rw [first] at item
  rcases (settled.distance_le inside item stops.inside (homes_eq_none.mpr free)).eq_or_lt with
    same | less
  · obtain ⟨home, -⟩ := settled q inside _ item
    rw [distance_inj home inside stops.inside same, free] at live
    cases live
  · exact (stops.passed q inside less).2 first

theorem Stops.holds_set (stops : Stops policy slots key p) (free : (slotAt slots p).tag = .empty)
    (value : V) (k : K) (v : V) : Holds (slots.setIfInBounds p ⟨key, value, .live⟩) k v ↔
      k = key ∧ v = value ∨ Holds slots k v := by
  unfold Holds
  rw [Array.size_setIfInBounds]
  constructor
  · rintro ⟨q, inside, entry⟩
    rw [slotAt_set stops.inside] at entry
    split at entry
    · cases entry
      exact .inl ⟨rfl, rfl⟩
    · exact .inr ⟨q, inside, entry⟩
  · rintro (⟨rfl, rfl⟩ | ⟨q, inside, entry⟩)
    · exact ⟨p, stops.inside, by rw [slotAt_set stops.inside, if_pos rfl]⟩
    · refine ⟨q, inside, ?_⟩
      rw [slotAt_set stops.inside, if_neg, entry]
      rintro rfl
      rw [entry] at free
      cases free

theorem Stops.unique_set (stops : Stops policy slots key p) (unique : Unique slots)
    (absent : ∀ v, ¬ Holds slots key v) (value : V) :
    Unique (slots.setIfInBounds p ⟨key, value, .live⟩) := by
  intro q insideQ r insideR liveQ liveR same
  rw [Array.size_setIfInBounds] at insideQ insideR
  rw [slotAt_set stops.inside] at liveQ liveR same
  rw [slotAt_set stops.inside] at same
  by_cases hereQ : q = p <;> by_cases hereR : r = p
  · rw [hereQ, hereR]
  · rw [if_neg hereR] at liveR
    rw [if_pos hereQ, if_neg hereR] at same
    have held := holds_of_live insideR liveR
    rw [← same] at held
    exact absurd held (absent _)
  · rw [if_neg hereQ] at liveQ
    rw [if_neg hereQ, if_pos hereR] at same
    have held := holds_of_live insideQ liveQ
    rw [same] at held
    exact absurd held (absent _)
  · rw [if_neg hereQ] at liveQ
    rw [if_neg hereR] at liveR
    rw [if_neg hereQ, if_neg hereR] at same
    exact unique q insideQ r insideR liveQ liveR same

/-- The walk behind a gap comes to an end, and leaves the entries as they were and no gap before
any of them. -/
theorem backshift_settles {fuel idx next stop : Nat} (power : PowerOfTwo slots)
    (gapped : Gapped slots.size (homes policy slots) idx next stop)
    (free : (slotAt slots idx).tag = .empty) (unique : Unique slots)
    (enough : distance slots.size next stop < fuel) :
    ∃ slots', backshift policy fuel slots idx next = some slots' ∧ slots'.size = slots.size ∧
      Settled slots'.size (homes policy slots') ∧ Unique slots' ∧
      ∀ k v, Holds slots' k v ↔ Holds slots k v := by
  induction fuel generalizing slots idx next with
  | zero => exact absurd enough (Nat.not_lt_zero _)
  | succ fuel ih =>
    rw [backshift]
    dsimp only
    split
    next live =>
      have here : homes policy slots next = some _ := homes_of_live live
      have nearer := gapped.distance_lt_of_next here
      have home := gapped.home_lt next gapped.cur_lt _ here
      rw [power.next_eq gapped.cur_lt]
      by_cases far : displaced (policy.apply (slotAt slots next).first (mask slots)) idx next
      · rw [if_pos far]
        have moved := gapped.shift here ((displaced_iff home gapped.gap_lt gapped.cur_lt).mp far)
        rw [← homes_move gapped.gap_lt gapped.cur_lt live] at moved
        obtain ⟨slots', run, size, settled, unique', holds⟩ := @ih
          ((slots.setIfInBounds idx (slotAt slots next)).setIfInBounds next
            { slotAt slots next with second := default, tag := .empty })
          next (LinearProbing.next slots.size next)
          (by
            obtain ⟨bits, size⟩ := power
            exact ⟨bits, by rw [Array.size_setIfInBounds, Array.size_setIfInBounds, size]⟩)
          (by rwa [Array.size_setIfInBounds, Array.size_setIfInBounds])
          (by rw [slotAt_set (by rw [Array.size_setIfInBounds]; exact gapped.cur_lt), if_pos rfl])
          (unique_move unique gapped.gap_lt gapped.cur_lt)
          (by
            rw [Array.size_setIfInBounds, Array.size_setIfInBounds]
            exact nearer.trans_le (Nat.le_of_lt_succ enough))
        refine ⟨slots', run, ?_, settled, unique', fun k v => ?_⟩
        · rw [size, Array.size_setIfInBounds, Array.size_setIfInBounds]
        · rw [holds, holds_move gapped.gap_lt gapped.cur_lt gapped.apart free]
      · rw [if_neg far]
        have near := fun less => far ((displaced_iff home gapped.gap_lt gapped.cur_lt).mpr less)
        exact ih power (gapped.skip here (Nat.le_of_not_lt near)) free unique
          (nearer.trans_le (Nat.le_of_lt_succ enough))
    next stopped =>
      refine ⟨slots, rfl, rfl, gapped.settled ?_, unique, fun _ _ => Iff.rfl⟩
      unfold homes
      exact if_neg stopped

variable [DecidableEq K]

theorem Stops.findFrom_eq (stops : Stops policy slots key p) (power : PowerOfTwo slots)
    (inside : idx < slots.size)
    (ahead : distance slots.size (policy.apply key (mask slots)) idx ≤
      distance slots.size (policy.apply key (mask slots)) p)
    (enough : slots.size ≤ distance slots.size (policy.apply key (mask slots)) idx + left) :
    findFrom slots key idx left = if (slotAt slots p).tag = .empty then none else some p := by
  induction left generalizing idx with
  | zero =>
    have := distance_lt (power.apply_lt policy key) inside
    omega
  | succ left ih =>
    rw [findFrom]
    by_cases here : idx = p
    · rw [here]
      split
      · rfl
      next live => rw [if_pos (stops.stop.resolve_left live)]
    · obtain ⟨insideNext, further, ahead, live, other⟩ := stops.next power inside here ahead
      rw [if_neg live, if_neg other]
      exact ih insideNext (by omega) (by omega)

theorem Stops.insertFrom_eq (stops : Stops policy map.slots key p) (power : PowerOfTwo map.slots)
    (inside : idx < map.slots.size)
    (ahead : distance map.slots.size (policy.apply key (mask map.slots)) idx ≤
      distance map.slots.size (policy.apply key (mask map.slots)) p)
    (enough : map.slots.size ≤
      distance map.slots.size (policy.apply key (mask map.slots)) idx + left) :
    insertFrom map key value idx left = if (slotAt map.slots p).tag = .empty then
        ({ slots := map.slots.setIfInBounds p ⟨key, value, .live⟩, size := map.size + 1 },
          some p, true)
      else (map, some p, false) := by
  induction left generalizing idx with
  | zero =>
    have := distance_lt (power.apply_lt policy key) inside
    omega
  | succ left ih =>
    rw [insertFrom]
    by_cases here : idx = p
    · rw [here]
      split
      · rfl
      next live => rw [if_pos (stops.stop.resolve_left live)]
    · obtain ⟨insideNext, further, ahead, live, other⟩ := stops.next power inside here ahead
      rw [if_neg live, if_neg other]
      exact ih insideNext (by omega) (by omega)

theorem Stops.find_eq (stops : Stops policy map.slots key p) (power : PowerOfTwo map.slots) :
    map.find policy key = if (slotAt map.slots p).tag = .empty then none else some p :=
  stops.findFrom_eq power (power.apply_lt policy key) (by rw [distance_self]; omega) (by omega)

theorem Stops.insertInternal_eq (stops : Stops policy map.slots key p)
    (power : PowerOfTwo map.slots) :
    map.insertInternal policy key value = if (slotAt map.slots p).tag = .empty then
        ({ slots := map.slots.setIfInBounds p ⟨key, value, .live⟩, size := map.size + 1 },
          some p, true)
      else (map, some p, false) :=
  stops.insertFrom_eq power (power.apply_lt policy key) (by rw [distance_self]; omega) (by omega)

/-! ## The finite map -/

/-- The slots hold a finite map, and more of them than the map has keys. -/
structure Represents (policy : IndexPolicy) (map : DirectStreamMap K V)
    (s : Finmap fun _ : K => V) : Prop where
  power : PowerOfTwo map.slots
  large : kInitialCapacity ≤ map.slots.size
  settled : Settled map.slots.size (homes policy map.slots)
  unique : Unique map.slots
  holds : ∀ k v, Holds map.slots k v ↔ s.lookup k = some v
  size : map.size = s.keys.card
  room : map.size < map.slots.size

theorem keys_insert {κ ν : Type} [DecidableEq κ] (s : Finmap fun _ : κ => ν) (key : κ) (value : ν) :
    (s.insert key value).keys = insert key s.keys := by
  ext k
  rw [Finset.mem_insert, Finmap.mem_keys, Finmap.mem_keys, Finmap.mem_insert]

/-- What `emplace` does to a finite map: a key that has a value keeps it. -/
def emplaced (s : Finmap fun _ : K => V) (key : K) (value : V) : Finmap fun _ : K => V :=
  if key ∈ s then s else s.insert key value

section

variable {s : Finmap fun _ : K => V}

theorem Represents.exists_free (ok : Represents policy map s) :
    ∃ p < map.slots.size, (slotAt map.slots p).tag = .empty := by
  by_contra! full
  have live : ∀ p < map.slots.size, (slotAt map.slots p).tag = .live := by
    intro p inside
    cases tag : (slotAt map.slots p).tag with
    | empty => exact absurd tag (full p inside)
    | live => rfl
  have injects : (Finset.range map.slots.size).card ≤ s.keys.card := by
    apply Finset.card_le_card_of_injOn fun p => (slotAt map.slots p).first
    · intro p inside
      have inside := Finset.mem_range.mp inside
      exact Finmap.mem_keys.mpr (Finmap.mem_of_lookup_eq_some
        ((ok.holds _ _).mp (holds_of_live inside (live p inside))))
    · intro p insideP q insideQ same
      have insideP := Finset.mem_range.mp insideP
      have insideQ := Finset.mem_range.mp insideQ
      exact ok.unique p insideP q insideQ (live p insideP) (live q insideQ) same
  rw [Finset.card_range, ← ok.size] at injects
  exact absurd ok.room (Nat.not_lt.mpr injects)

theorem Represents.exists_stops (ok : Represents policy map s) (key : K) :
    ∃ p, Stops policy map.slots key p := by
  obtain ⟨free, inside, empty⟩ := ok.exists_free
  exact DirectStreamMap.exists_stops policy key inside empty

theorem Represents.lookup_of_stops (ok : Represents policy map s)
    (stops : Stops policy map.slots key p) : s.lookup key =
      if (slotAt map.slots p).tag = .empty then none else some (slotAt map.slots p).second := by
  split
  next free =>
    rw [Option.eq_none_iff_forall_ne_some]
    intro v found
    exact stops.not_holds ok.settled free v ((ok.holds key v).mpr found)
  next filled =>
    have live : (slotAt map.slots p).tag = .live := by
      cases tag : (slotAt map.slots p).tag with
      | empty => exact absurd tag filled
      | live => rfl
    have here := (ok.holds _ _).mp (holds_of_live stops.inside live)
    rwa [stops.stop.resolve_left filled] at here

/-- `find` leads to the value of the key. -/
theorem Represents.value_eq (ok : Represents policy map s) (key : K) :
    map.value policy key = s.lookup key := by
  obtain ⟨p, stops⟩ := ok.exists_stops key
  rw [value, stops.find_eq ok.power, ok.lookup_of_stops stops]
  split <;> rfl

theorem Represents.insertInternal (ok : Represents policy map s)
    (room : map.size + 1 < map.slots.size) (key : K) (value : V) :
    Represents policy (map.insertInternal policy key value).1 (emplaced s key value) ∧
      (map.insertInternal policy key value).1.slots.size = map.slots.size ∧
      (map.insertInternal policy key value).2.1 ≠ none ∧
      (map.insertInternal policy key value).2.2 = decide (key ∉ s) := by
  obtain ⟨p, stops⟩ := ok.exists_stops key
  have lookup := ok.lookup_of_stops stops
  rw [stops.insertInternal_eq ok.power]
  unfold emplaced
  split
  next free =>
    rw [if_pos free] at lookup
    have absent : key ∉ s := Finmap.lookup_eq_none.mp lookup
    rw [if_neg absent]
    refine ⟨?_, Array.size_setIfInBounds, Option.some_ne_none p, (decide_eq_true absent).symm⟩
    refine
      { power := ?_
        large := ?_
        settled := ?_
        unique := stops.unique_set ok.unique (stops.not_holds ok.settled free) value
        holds := ?_
        size := ?_
        room := ?_ }
    · obtain ⟨bits, size⟩ := ok.power
      exact ⟨bits, Array.size_setIfInBounds.trans size⟩
    · exact ok.large.trans_eq Array.size_setIfInBounds.symm
    · rw [Array.size_setIfInBounds, homes_set stops.inside, if_pos rfl]
      refine ok.settled.insert (ok.power.apply_lt policy key) fun q inside less free => ?_
      exact (stops.passed q inside less).1 (homes_eq_none.mp free)
    · intro k v
      rw [stops.holds_set free, ok.holds]
      by_cases same : k = key
      · subst same
        rw [Finmap.lookup_insert, lookup]
        simp [eq_comm]
      · rw [Finmap.lookup_insert_of_ne s same]
        simp [same]
    · have unlisted : key ∉ s.keys := fun listed => absent (Finmap.mem_keys.mp listed)
      rw [keys_insert, Finset.card_insert_of_notMem unlisted]
      exact congrArg (· + 1) ok.size
    · exact room.trans_eq Array.size_setIfInBounds.symm
  next filled =>
    rw [if_neg filled] at lookup
    have present : key ∈ s := Finmap.mem_of_lookup_eq_some lookup
    rw [if_pos present]
    exact ⟨ok, rfl, Option.some_ne_none p, (decide_eq_false (not_not.mpr present)).symm⟩

/-! ## Growth -/

theorem represents_replicate {n : Nat} (power : ∃ bits, n = 2 ^ bits)
    (large : kInitialCapacity ≤ n) :
    Represents policy { slots := Array.replicate n ({} : Slot K V) } ∅ := by
  have empty : ∀ p, slotAt (Array.replicate n ({} : Slot K V)) p = {} := slotAt_replicate n
  refine
    { power := ?_
      large := ?_
      settled := ?_
      unique := ?_
      holds := ?_
      size := ?_
      room := ?_ }
  · obtain ⟨bits, size⟩ := power
    exact ⟨bits, Array.size_replicate.trans size⟩
  · exact large.trans_eq Array.size_replicate.symm
  · intro p inside home item
    rw [homes_eq_none.mpr (by rw [empty])] at item
    cases item
  · intro p inside q insideQ live
    rw [empty] at live
    cases live
  · intro k v
    rw [Finmap.lookup_empty]
    constructor
    · rintro ⟨p, inside, entry⟩
      rw [empty] at entry
      cases entry
    · nofun
  · rw [Finmap.keys_empty]
    rfl
  · rw [Array.size_replicate]
    exact (by decide : 0 < kInitialCapacity).trans_le large

/-- The entries of a table are those of a finite map that is added piece by piece. -/
theorem Represents.insertAll {t : Finmap fun _ : K => V} (ok : Represents policy map s)
    (part : ∀ k v, s.lookup k = some v → t.lookup k = some v) {l : List (Slot K V)}
    (entries : ∀ x ∈ l, x.tag = .live → t.lookup x.first = some x.second)
    (room : t.keys.card + 1 < map.slots.size) :
    ∃ map' s', l.foldl (fun grown x =>
        if x.tag = .live then (grown.insertInternal policy x.first x.second).1 else grown) map =
        map' ∧ Represents policy map' s' ∧ map'.slots.size = map.slots.size ∧
      ∀ k v, s'.lookup k = some v ↔ s.lookup k = some v ∨ ⟨k, v, .live⟩ ∈ l := by
  induction l generalizing map s with
  | nil => exact ⟨map, s, rfl, ok, rfl, by simp⟩
  | cons x l ih =>
    have rest : ∀ y ∈ l, y.tag = .live → t.lookup y.first = some y.second :=
      fun y listed => entries y (List.mem_cons_of_mem x listed)
    rw [List.foldl_cons]
    obtain ⟨k, v, tag⟩ := x
    cases tag with
    | empty =>
      rw [if_neg (by nofun)]
      obtain ⟨map', s', run, ok', size, lookup⟩ := ih ok part rest room
      exact ⟨map', s', run, ok', size, by simpa using lookup⟩
    | live =>
      rw [if_pos rfl]
      have there : t.lookup k = some v := entries _ List.mem_cons_self rfl
      have fewer : s.keys.card ≤ t.keys.card := by
        refine Finset.card_le_card fun k' listed => ?_
        obtain ⟨v', found⟩ := Finmap.mem_iff.mp (Finmap.mem_keys.mp listed)
        exact Finmap.mem_keys.mpr (Finmap.mem_of_lookup_eq_some (part k' v' found))
      obtain ⟨added, sizeAdded, -⟩ := ok.insertInternal (by rw [ok.size]; omega) k v
      have lookupAdded : ∀ k' v', (emplaced s k v).lookup k' = some v' ↔
          s.lookup k' = some v' ∨ k' = k ∧ v' = v := by
        intro k' v'
        unfold emplaced
        split
        next present =>
          obtain ⟨old, found⟩ := Finmap.mem_iff.mp present
          have same : old = v := Option.some.inj ((part k old found).symm.trans there)
          subst same
          refine ⟨.inl, fun either => either.elim id ?_⟩
          rintro ⟨rfl, rfl⟩
          exact found
        next absent =>
          by_cases same : k' = k
          · subst same
            rw [Finmap.lookup_insert, Finmap.lookup_eq_none.mpr absent]
            simp [eq_comm]
          · rw [Finmap.lookup_insert_of_ne s same]
            simp [same]
      obtain ⟨map', s', run, ok', size, lookup⟩ := ih added
        (fun k' v' found => ((lookupAdded k' v').mp found).elim (part k' v')
          fun ⟨sameKey, sameValue⟩ => by rw [sameKey, sameValue]; exact there)
        rest (by rw [sizeAdded]; exact room)
      refine ⟨map', s', run, ok', size.trans sizeAdded, fun k' v' => ?_⟩
      rw [lookup, lookupAdded]
      simp [or_assoc]

theorem Represents.grow (ok : Represents policy map s) : Represents policy (map.grow policy) s ∧
    (map.grow policy).slots.size = map.slots.size * 2 := by
  have fresh : Represents policy
      { slots := Array.replicate (map.slots.size * 2) ({} : Slot K V) } ∅ := by
    apply represents_replicate
    · obtain ⟨bits, size⟩ := ok.power
      exact ⟨bits + 1, by rw [size, Nat.pow_succ]⟩
    · have := ok.large
      omega
  have room := ok.room
  rw [ok.size] at room
  have listed : ∀ x, x ∈ map.slots.toList ↔ ∃ p < map.slots.size, slotAt map.slots p = x := by
    intro x
    rw [Array.mem_toList_iff, Array.mem_iff_getElem]
    refine exists_congr fun p => ?_
    unfold slotAt
    constructor
    · rintro ⟨inside, rfl⟩
      exact ⟨inside, by rw [Array.getD_eq_getD_getElem?, Array.getElem?_eq_getElem inside]; rfl⟩
    · rintro ⟨inside, rfl⟩
      exact ⟨inside, by rw [Array.getD_eq_getD_getElem?, Array.getElem?_eq_getElem inside]; rfl⟩
  obtain ⟨map', s', run, ok', size, lookup⟩ := @Represents.insertAll K V _ _ policy _ _ _ _ s fresh
    (fun k v found => by rw [Finmap.lookup_empty] at found; cases found) map.slots.toList
    (fun x member live => by
      obtain ⟨p, inside, rfl⟩ := (listed x).mp member
      exact (ok.holds _ _).mp (holds_of_live inside live))
    (by rw [Array.size_replicate]; have := ok.large; unfold kInitialCapacity at this; omega)
  have same : s' = s := by
    apply Finmap.ext_lookup
    intro k
    ext v
    rw [lookup, ← ok.holds, listed, Finmap.lookup_empty]
    simp [Holds]
  rw [DirectStreamMap.grow, ← Array.foldl_toList, run]
  subst same
  exact ⟨ok', size.trans Array.size_replicate⟩

theorem Represents.emplace (ok : Represents policy map s) (key : K) (value : V) :
    Represents policy (map.emplace policy key value).1 (emplaced s key value) ∧
      (map.emplace policy key value).2.1 ≠ none ∧
      (map.emplace policy key value).2.2 = decide (key ∉ s) := by
  have large := ok.large
  have room := ok.room
  unfold kInitialCapacity at large
  unfold DirectStreamMap.emplace
  split
  next full =>
    obtain ⟨grown, size⟩ := ok.grow
    have same : (map.grow policy).size = map.size := grown.size.trans ok.size.symm
    obtain ⟨added, -, result⟩ := grown.insertInternal (by rw [same, size]; omega) key value
    exact ⟨added, result⟩
  next few =>
    unfold kLoadNum kLoadDen at few
    obtain ⟨added, -, result⟩ := ok.insertInternal (by omega) key value
    exact ⟨added, result⟩

theorem Represents.clear (ok : Represents policy map s) : Represents policy map.clear ∅ := by
  have same : map.clear = { slots := Array.replicate map.slots.size ({} : Slot K V) } := by
    unfold DirectStreamMap.clear
    rw [← Array.map_const]
    rfl
  rw [same]
  exact represents_replicate ok.power ok.large

/-- The entry of a key is taken away, if there is one. -/
theorem Represents.erase (ok : Represents policy map s) (key : K) :
    ∃ map', map.erase policy key = some map' ∧ Represents policy map' (s.erase key) := by
  obtain ⟨p, stops⟩ := ok.exists_stops key
  have lookup := ok.lookup_of_stops stops
  rw [DirectStreamMap.erase, stops.find_eq ok.power]
  split
  next free =>
    rw [if_pos free] at lookup
    have absent : key ∉ s := Finmap.lookup_eq_none.mp lookup
    have same : s.erase key = s := by
      apply Finmap.ext_lookup
      intro k
      by_cases here : k = key
      · rw [here, Finmap.lookup_erase, lookup]
      · rw [Finmap.lookup_erase_ne here]
    rw [same]
    exact ⟨map, rfl, ok⟩
  next filled =>
    rw [if_neg filled] at lookup
    have first := stops.stop.resolve_left filled
    have live : (slotAt map.slots p).tag = .live := by
      cases tag : (slotAt map.slots p).tag with
      | empty => exact absurd tag filled
      | live => rfl
    have present : key ∈ s := Finmap.mem_of_lookup_eq_some lookup
    obtain ⟨stop, insideStop, freeStop⟩ := ok.exists_free
    have here : homes policy map.slots p = some _ := homes_of_live live
    have gapped := ok.settled.remove stops.inside (by rw [here]; nofun) insideStop
      (homes_eq_none.mpr freeStop)
    rw [← homes_free stops.inside] at gapped
    have sameSize : (map.slots.setIfInBounds p
        { slotAt map.slots p with second := default, tag := .empty }).size = map.slots.size :=
      Array.size_setIfInBounds
    obtain ⟨slots', run, size, settled, unique, holds⟩ := @backshift_settles K V _ _ policy
      (map.slots.setIfInBounds p { slotAt map.slots p with second := default, tag := .empty }) _
      map.slots.size p (next map.slots.size p) stop
      (by
        obtain ⟨bits, power⟩ := ok.power
        exact ⟨bits, sameSize.trans power⟩)
      (by rwa [sameSize]) (by rw [slotAt_set stops.inside, if_pos rfl])
      (unique_free ok.unique stops.inside)
      (by
        rw [sameSize]
        exact distance_lt (next_lt stops.inside) insideStop)
    rw [eraseIterator, eraseSlot, ok.power.next_eq stops.inside, run]
    refine ⟨_, rfl, ?_⟩
    rw [sameSize] at size
    refine
      { power := ?_
        large := ok.large.trans_eq size.symm
        settled := settled
        unique := unique
        holds := ?_
        size := ?_
        room := ?_ }
    · obtain ⟨bits, power⟩ := ok.power
      exact ⟨bits, size.trans power⟩
    · intro k v
      rw [holds, holds_free ok.unique stops.inside live, first, ok.holds]
      by_cases same : k = key
      · rw [same, Finmap.lookup_erase]
        simp
      · rw [Finmap.lookup_erase_ne same]
        simp [same]
    · rw [Finmap.keys_erase, Finset.card_erase_of_mem (Finmap.mem_keys.mpr present), ← ok.size]
    · exact (Nat.sub_le _ _).trans_lt (ok.room.trans_eq size.symm)

/-- A value may be written through an iterator. -/
theorem Represents.assign (ok : Represents policy map s) (found : map.find policy key = some p)
    (value : V) : Represents policy (map.assign p value) (s.insert key value) := by
  obtain ⟨q, stops⟩ := ok.exists_stops key
  have lookup := ok.lookup_of_stops stops
  rw [stops.find_eq ok.power] at found
  split at found
  · cases found
  next filled =>
    obtain rfl : q = p := Option.some.inj found
    rw [if_neg filled] at lookup
    have first := stops.stop.resolve_left filled
    have live : (slotAt map.slots q).tag = .live := by
      cases tag : (slotAt map.slots q).tag with
      | empty => exact absurd tag filled
      | live => rfl
    have present : key ∈ s := Finmap.mem_of_lookup_eq_some lookup
    have tag : ∀ r, (slotAt (map.assign q value).slots r).tag = (slotAt map.slots r).tag := by
      intro r
      rw [assign, slotAt_set stops.inside]
      split
      next here => rw [here]
      next => rfl
    have firsts : ∀ r,
        (slotAt (map.assign q value).slots r).first = (slotAt map.slots r).first := by
      intro r
      rw [assign, slotAt_set stops.inside]
      split
      next here => rw [here]
      next => rfl
    have size : (map.assign q value).slots.size = map.slots.size := Array.size_setIfInBounds
    have natural : homes policy (map.assign q value).slots = homes policy map.slots := by
      funext r
      unfold homes mask
      rw [tag, firsts, size]
    refine
      { power := ?_
        large := ok.large.trans_eq size.symm
        settled := ?_
        unique := ?_
        holds := ?_
        size := ?_
        room := ok.room.trans_eq size.symm }
    · obtain ⟨bits, power⟩ := ok.power
      exact ⟨bits, size.trans power⟩
    · rw [natural, size]
      exact ok.settled
    · intro a insideA b insideB liveA liveB same
      rw [size] at insideA insideB
      rw [tag] at liveA liveB
      rw [firsts, firsts] at same
      exact ok.unique a insideA b insideB liveA liveB same
    · intro k v
      have entries := holds_assign ok.unique stops.inside live value k v
      rw [first, ok.holds] at entries
      rw [show Holds (map.assign q value).slots k v ↔ _ from entries]
      by_cases same : k = key
      · rw [same, Finmap.lookup_insert]
        simp [eq_comm]
      · rw [Finmap.lookup_insert_of_ne s same]
        simp [same]
    · rw [keys_insert, Finset.insert_eq_of_mem (Finmap.mem_keys.mpr present)]
      exact ok.size

end

end DirectStreamMap

end FbThrift.FastThrift
