import FbThrift.FastThrift.DirectStreamMapRules

/-!
# Every sequence of operations on a map from streams

The table does what a finite map does, in which a key that has a value keeps it until it is
erased.
-/

namespace FbThrift.FastThrift

namespace DirectStreamMap

variable {K V : Type} [DecidableEq K] [Inhabited K] [StreamKey K] [Inhabited V]
  {policy : IndexPolicy} {map : DirectStreamMap K V} {s : Finmap fun _ : K => V}

inductive Op (K V : Type)
  | emplace (key : K) (value : V)
  | erase (key : K)
  | find (key : K)
  | clear

/-- An operation on the table. -/
def step (policy : IndexPolicy) (map : DirectStreamMap K V) : Op K V → Option (DirectStreamMap K V)
  | .emplace key value => some (map.emplace policy key value).1
  | .erase key => map.erase policy key
  | .find _ => some map
  | .clear => some map.clear

/-- The operation on a finite map. -/
def applied (s : Finmap fun _ : K => V) : Op K V → Finmap fun _ : K => V
  | .emplace key value => emplaced s key value
  | .erase key => s.erase key
  | .find _ => s
  | .clear => ∅

/-- The map that a constructor makes, with or without a capacity. -/
def constructed : Option Nat → DirectStreamMap K V
  | none => new
  | some cap => withCapacity cap

/-- The map after some operations. -/
def run (policy : IndexPolicy) (cap : Option Nat) (ops : List (Op K V)) :
    Option (DirectStreamMap K V) :=
  ops.foldlM (step policy) (constructed cap)

theorem nextPow2_power (n : Nat) : ∃ bits, nextPow2 n = 2 ^ bits := by
  unfold nextPow2
  split
  · exact ⟨4, rfl⟩
  · exact ⟨_, Nat.one_shiftLeft _⟩

theorem le_nextPow2 (n : Nat) : kInitialCapacity ≤ nextPow2 n := by
  unfold nextPow2
  split
  · exact Nat.le_refl _
  next above =>
    have less : n - 1 < 2 ^ ((n - 1).log2 + 1) := Nat.lt_log2_self
    rw [Nat.one_shiftLeft]
    omega

theorem represents_constructed (policy : IndexPolicy) (cap : Option Nat) :
    Represents policy (constructed cap : DirectStreamMap K V) ∅ := by
  cases cap with
  | none => exact represents_replicate ⟨4, rfl⟩ (Nat.le_refl _)
  | some cap => exact represents_replicate (nextPow2_power cap) (le_nextPow2 cap)

theorem Represents.step (ok : Represents policy map s) (op : Op K V) :
    ∃ map', DirectStreamMap.step policy map op = some map' ∧
      Represents policy map' (applied s op) := by
  cases op with
  | emplace key value => exact ⟨_, rfl, (ok.emplace key value).1⟩
  | erase key => exact ok.erase key
  | find key => exact ⟨map, rfl, ok⟩
  | clear => exact ⟨_, rfl, ok.clear⟩

theorem Represents.foldlM_step (ok : Represents policy map s) (ops : List (Op K V)) :
    ∃ map', ops.foldlM (DirectStreamMap.step policy) map = some map' ∧
      Represents policy map' (ops.foldl applied s) := by
  induction ops generalizing map s with
  | nil => exact ⟨map, rfl, ok⟩
  | cons op ops ih =>
    obtain ⟨next, first, ok⟩ := ok.step op
    rw [List.foldlM_cons, first]
    exact ih ok

/-- After any operations the table holds what a finite map does, every walk comes to a slot that is
free or has the key, a slot is free, and the walks behind gaps have come to an end. -/
theorem run_refines_finmap (policy : IndexPolicy) (cap : Option Nat) (ops : List (Op K V)) :
    ∃ map, run policy cap ops = some map ∧
      (∀ key, map.value policy key = (ops.foldl applied ∅).lookup key) ∧
      map.size = (ops.foldl applied ∅).keys.card ∧
      (∃ p < map.slots.size, (slotAt map.slots p).tag = .empty) ∧
      (∀ key, ∃ p, Stops policy map.slots key p) ∧
      ∀ key value, (map.emplace policy key value).2.1 ≠ none ∧
        (map.emplace policy key value).2.2 = decide (key ∉ ops.foldl applied ∅) := by
  obtain ⟨map, ran, ok⟩ := (represents_constructed policy cap).foldlM_step ops
  exact ⟨map, ran, ok.value_eq, ok.size, ok.exists_free, ok.exists_stops,
    fun key value => (ok.emplace key value).2⟩

/-- A second `emplace` of a key does not give it another value. -/
theorem not_find_last_emplace : ¬ ∀ (ops : List (Op UInt32 Nat)) (key : UInt32) (value : Nat),
    ((run .streamIdIndex none (ops ++ [.emplace key value])).bind
      fun map => map.value .streamIdIndex key) = some value := by
  intro last
  exact absurd (last [.emplace 1 10] 1 20) (by decide +kernel)

end DirectStreamMap

end FbThrift.FastThrift
