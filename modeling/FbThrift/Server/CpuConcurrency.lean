import FbThrift.Lib.Run
import Mathlib.Algebra.Order.Field.Rat
import Mathlib.Data.Rat.Floor
import Mathlib.Data.UInt
import Mathlib.Logic.Function.Basic
import Mathlib.Tactic.Linarith

/-!
# The CPU concurrency controller

`CPUConcurrencyController::cycleOnce` reads the load and the usage of the limit and sets the next
limit: it lowers the limit when the load reaches the target, installs an estimate once it has
enough samples, and else raises the limit when there is a reason to.  Limits are `uint32_t`.
Doubles are read as rationals, and a conversion to an integer type truncates.

The time only decides whether a cycle is in the refractory period, which each cycle is told.
-/

namespace FbThrift

namespace CPUConcurrencyController

inductive Mode where
  | disabled
  | dryRun
  | enabled
  deriving DecidableEq

inductive Method where
  | maxRequests
  | maxQps
  | concurrencyLimit
  | executionRate
  deriving DecidableEq

/-- `std::variant<int32_t, UseStaticLimit>`. -/
inductive UpperBound where
  | limit (n : Int32)
  | useStaticLimit

structure Config where
  mode : Mode
  method : Method
  cpuTarget : UInt8
  additiveMultiplier : ℚ
  decreaseMultiplier : ℚ
  increaseDistanceRatio : ℚ
  bumpOnError : Bool
  initialEstimateFactor : ℚ
  initialEstimatePercentile : ℚ
  collectionSampleSize : UInt32
  concurrencyUpperBound : UpperBound
  concurrencyLowerBound : UInt32
  cpuLoadSmoothingCoeff : ℚ

/-- What the controller reads of its server: the limits that others have set, and a flag. -/
structure Server where
  staticLimit : Method → UInt32
  enableEmaLoadSmoothing : Bool

/-- The controller.  The limits that it has set override the static ones of the server. -/
structure State where
  observable : Method → Option UInt32
  dryRunLimit : UInt32
  stableConcurrencySamples : List UInt32
  stableEstimate : Int
  smoothedLoad : ℚ
  recentShedRequest : Bool

/-- What one cycle reads: the load before it is clamped, the usage, whether a request was shed
since the last cycle, and whether the refractory period lasts, which the cycle asks twice. -/
structure Reading where
  load : Int
  usage : UInt32
  shed : Bool
  refractory : Bool
  refractoryLater : Bool

variable (server : Server) (config : Config)

/-- A rational converted to an integer. -/
def truncate (q : ℚ) : Int := if 0 ≤ q then ⌊q⌋ else ⌈q⌉

/-- `static_cast<uint32_t>`. -/
def toUInt32 (q : ℚ) : UInt32 := UInt32.ofInt (truncate q)

/-! ## The limits -/

/-- What the server attribute of the method resolves to. -/
def serverAttribute (s : State) : UInt32 :=
  (s.observable config.method).getD (server.staticLimit config.method)

def getConcurrencyUpperBoundInternal (s : State) : UInt32 :=
  match config.concurrencyUpperBound with
  | .limit n => UInt32.ofInt (max n.toInt 0)
  | .useStaticLimit => serverAttribute server config s

/-- The limit, or the upper bound while no limit is set. -/
def getLimit (s : State) : UInt32 :=
  let limit := if config.mode = .dryRun then s.dryRunLimit else serverAttribute server config s
  if limit ≠ 0 then limit else getConcurrencyUpperBoundInternal server config s

def setLimit (s : State) (newLimit : UInt32) : State :=
  match config.mode with
  | .dryRun => { s with dryRunLimit := newLimit }
  | .enabled =>
    { s with observable := Function.update s.observable config.method (some newLimit) }
  | .disabled => s

/-- The controller before anything was set. -/
def State.fresh : State where
  observable := fun _ => none
  dryRunLimit := 0
  stableConcurrencySamples := []
  stableEstimate := -1
  smoothedLoad := -1
  recentShedRequest := false

/-- `schedule` sets the limit to the upper bound. -/
def schedule : State :=
  setLimit config .fresh (getConcurrencyUpperBoundInternal server config .fresh)

/-! ## One cycle -/

/-- `getLoadInternal`. -/
def clampedLoad (raw : Int) : Int := max 0 (min raw 100)

/-- The load after the smoothing, and the smoothed load. -/
def smooth (s : State) (raw : Int) : Int × ℚ :=
  if server.enableEmaLoadSmoothing then
    let alpha := max 0 (min config.cpuLoadSmoothingCoeff 1)
    let smoothed : ℚ :=
      if s.smoothedLoad < 0 then raw else alpha * raw + (1 - alpha) * s.smoothedLoad
    (truncate smoothed, smoothed)
  else (raw, s.smoothedLoad)

/-- The load that a cycle compares with the target. -/
def loadOf (s : State) (r : Reading) : Int := (smooth server config s (clampedLoad r.load)).1

/-- The state with the readings of a cycle taken in. -/
def observed (s : State) (r : Reading) : State :=
  { s with
    smoothedLoad := (smooth server config s (clampedLoad r.load)).2
    recentShedRequest := s.recentShedRequest || r.shed }

/-- By how much an overloaded cycle lowers a limit. -/
def decrease (limit : UInt32) : UInt32 :=
  max (toUInt32 (limit.toNat * config.decreaseMultiplier)) 1

/-- By how much a cycle raises a limit. -/
def increase (limit : UInt32) : UInt32 :=
  max (toUInt32 (limit.toNat * config.additiveMultiplier)) 1

/-- One sample of the concurrency that would give the target. -/
def sample (usage : UInt32) (load : Int) : UInt32 :=
  toUInt32 (config.initialEstimateFactor * (usage.toNat / load * config.cpuTarget.toNat))

/-- The element that `std::nth_element` puts at the percentile. -/
def percentile (samples : List UInt32) : UInt32 :=
  (samples.mergeSort (· ≤ ·)).getD
    (truncate (samples.length * config.initialEstimatePercentile)).toNat 0

/-- `std::clamp`. -/
def clamp (n low high : UInt32) : UInt32 := if n < low then low else if high < n then high else n

/-- The load has reached the target. -/
def Overloaded (s : State) (r : Reading) : Prop :=
  (config.cpuTarget.toNat : Int) ≤ loadOf server config s r

instance (s : State) (r : Reading) : Decidable (Overloaded server config s r) :=
  inferInstanceAs (Decidable (_ ≤ _))

/-- The cycle has nothing to go by. -/
def Idle (s : State) (r : Reading) : Prop := r.usage = 0 ∨ loadOf server config s r ≤ 0

instance (s : State) (r : Reading) : Decidable (Idle server config s r) :=
  inferInstanceAs (Decidable (_ ∨ _))

/-- The cycle adds a sample. -/
def Collects (s : State) (r : Reading) : Prop :=
  r.refractory = false ∧ s.stableConcurrencySamples.length < config.collectionSampleSize.toNat

instance (s : State) (r : Reading) : Decidable (Collects config s r) :=
  inferInstanceAs (Decidable (_ ∧ _))

/-- The samples once the cycle has added its own. -/
def collected (s : State) (r : Reading) : List UInt32 :=
  s.stableConcurrencySamples ++ [sample config r.usage (loadOf server config s r)]

/-- The cycle adds the last sample. -/
def Completes (s : State) (r : Reading) : Prop :=
  Collects config s r ∧ config.collectionSampleSize.toNat ≤ (collected server config s r).length

instance (s : State) (r : Reading) : Decidable (Completes server config s r) :=
  inferInstanceAs (Decidable (_ ∧ _))

/-- The estimate that the last sample gives. -/
def estimate (s : State) (r : Reading) : UInt32 :=
  clamp (percentile config (collected server config s r)) config.concurrencyLowerBound
    (getConcurrencyUpperBoundInternal server config s)

def nearExistingLimit (usage limit : UInt32) : Bool :=
  !config.bumpOnError &&
    decide ((1 - config.increaseDistanceRatio) * limit.toNat ≤ (usage.toNat : ℚ))

/-- A reason to raise the limit. -/
def Pressed (s : State) (r : Reading) : Prop :=
  nearExistingLimit config r.usage (getLimit server config s) = true ∨
    (config.bumpOnError && (s.recentShedRequest || r.shed)) = true ∨
    (r.refractoryLater = false ∧ (getLimit server config s).toNat < s.stableEstimate)

instance (s : State) (r : Reading) : Decidable (Pressed server config s r) :=
  inferInstanceAs (Decidable (_ ∨ _ ∨ _))

/-- The state with the sample of a cycle below the target. -/
def sampled (s : State) (r : Reading) : State :=
  if Collects config s r then
    { observed server config s r with
      stableConcurrencySamples := collected server config s r }
  else observed server config s r

/-- `recentShedRequest_.exchange`, where the configuration lets it be asked. -/
def consumeShed (s : State) : State :=
  if config.bumpOnError then { s with recentShedRequest := false } else s

/-- What a cycle sets an overloaded limit to. -/
def lowered (limit : UInt32) : UInt32 :=
  max (limit - decrease config limit) config.concurrencyLowerBound

/-- What a cycle sets a limit with a reason to raise it to. -/
def raised (s : State) : UInt32 :=
  min (getConcurrencyUpperBoundInternal server config s)
    (getLimit server config s + increase config (getLimit server config s))

def cycleOnce (s : State) (r : Reading) : State :=
  if config.mode = .disabled then s
  else if Overloaded server config s r then
    setLimit config (observed server config s r) (lowered config (getLimit server config s))
  else if Idle server config s r then observed server config s r
  else if Completes server config s r then
    setLimit config
      { sampled server config s r with stableEstimate := (estimate server config s r).toNat }
      (estimate server config s r)
  else if Pressed server config s r then
    setLimit config (consumeShed config (sampled server config s r)) (raised server config s)
  else consumeShed config (sampled server config s r)

/-! ## What the conversions and the steps give -/

theorem toNat_max (a b : UInt32) : (max a b).toNat = max a.toNat b.toNat := by
  change (if a ≤ b then b else a).toNat = _
  split
  · exact (max_eq_right (UInt32.le_iff_toNat_le.1 ‹_›)).symm
  · exact (max_eq_left (Nat.le_of_not_le (mt UInt32.le_iff_toNat_le.2 ‹_›))).symm

theorem toNat_min (a b : UInt32) : (min a b).toNat = min a.toNat b.toNat := by
  change (if a ≤ b then a else b).toNat = _
  split
  · exact (min_eq_left (UInt32.le_iff_toNat_le.1 ‹_›)).symm
  · exact (min_eq_right (Nat.le_of_not_le (mt UInt32.le_iff_toNat_le.2 ‹_›))).symm

theorem toNat_toUInt32_le {q : ℚ} {n : Nat} (nonneg : 0 ≤ q) (le : q ≤ n) :
    (toUInt32 q).toNat ≤ n := by
  have floorLe : ⌊q⌋ ≤ (n : Int) := by exact_mod_cast (Int.floor_le q).trans le
  have floorNonneg : 0 ≤ ⌊q⌋ := Int.floor_nonneg.2 nonneg
  rw [toUInt32, truncate, if_pos nonneg, UInt32.ofInt, UInt32.toNat_ofNat']
  exact (Nat.mod_le _ _).trans (by omega)

theorem toNat_part_le {part : ℚ} (nonneg : 0 ≤ part) (le : part ≤ 1) (limit : UInt32) :
    (toUInt32 (limit.toNat * part)).toNat ≤ limit.toNat :=
  toNat_toUInt32_le (mul_nonneg (Nat.cast_nonneg _) nonneg)
    (mul_le_of_le_one_right (Nat.cast_nonneg _) le)

variable {server config} {s : State} {r : Reading} {l : UInt32}

/-- The configurations of which something is asked. -/
structure Config.Valid (server : Server) (config : Config) : Prop where
  lower_pos : 1 ≤ config.concurrencyLowerBound.toNat
  lower_le : config.concurrencyLowerBound ≤ getConcurrencyUpperBoundInternal server config .fresh
  additive : 0 ≤ config.additiveMultiplier ∧ config.additiveMultiplier ≤ 1
  multiplicative : 0 ≤ config.decreaseMultiplier ∧ config.decreaseMultiplier ≤ 1
  percentile : 0 ≤ config.initialEstimatePercentile ∧ config.initialEstimatePercentile < 1

theorem decrease_le (valid : config.Valid server) (pos : 1 ≤ l.toNat) :
    (decrease config l).toNat ≤ l.toNat := by
  rw [decrease, toNat_max]
  exact max_le (toNat_part_le valid.multiplicative.1 valid.multiplicative.2 l) pos

/-! ## Setting and reading back -/

theorem getLimit_setLimit (mode : config.mode ≠ .disabled) (pos : 1 ≤ l.toNat) :
    getLimit server config (setLimit config s l) = l := by
  have nonzero : l ≠ 0 := by
    rintro rfl
    exact absurd pos (by decide)
  cases active : config.mode with
  | disabled => exact absurd active mode
  | dryRun => simp [getLimit, setLimit, active, nonzero]
  | enabled => simp [getLimit, setLimit, active, serverAttribute, nonzero]

theorem upperBound_setLimit (s : State) (l : UInt32) :
    getConcurrencyUpperBoundInternal server config (setLimit config s l) =
        getConcurrencyUpperBoundInternal server config s ∨
      getConcurrencyUpperBoundInternal server config (setLimit config s l) = l := by
  rw [getConcurrencyUpperBoundInternal, getConcurrencyUpperBoundInternal]
  cases config.concurrencyUpperBound with
  | limit n => exact .inl rfl
  | useStaticLimit =>
    cases active : config.mode with
    | disabled => exact .inl (by simp [setLimit, active])
    | dryRun => exact .inl (by simp [setLimit, active, serverAttribute])
    | enabled => exact .inr (by simp [setLimit, active, serverAttribute])

/-- What a cycle that sets no limit may change. -/
structure SameLimits (s s' : State) : Prop where
  observable : s'.observable = s.observable
  dryRunLimit : s'.dryRunLimit = s.dryRunLimit
  estimate : s'.stableEstimate = s.stableEstimate
  samples : s.stableConcurrencySamples.length ≤ s'.stableConcurrencySamples.length

theorem SameLimits.upperBound {s' : State} (same : SameLimits s s') :
    getConcurrencyUpperBoundInternal server config s' =
      getConcurrencyUpperBoundInternal server config s := by
  rw [getConcurrencyUpperBoundInternal, getConcurrencyUpperBoundInternal, serverAttribute,
    serverAttribute, same.observable]

theorem SameLimits.getLimit_eq {s' : State} (same : SameLimits s s') :
    getLimit server config s' = getLimit server config s := by
  rw [getLimit, getLimit, same.upperBound, serverAttribute, serverAttribute, same.observable,
    same.dryRunLimit]

theorem sameLimits_observed : SameLimits s (observed server config s r) :=
  ⟨rfl, rfl, rfl, Nat.le_refl _⟩

theorem sameLimits_sampled : SameLimits s (sampled server config s r) := by
  rw [sampled]
  split
  · exact ⟨rfl, rfl, rfl, by simp [collected]⟩
  · exact sameLimits_observed

theorem SameLimits.consumeShed {s' : State} (same : SameLimits s s') :
    SameLimits s (consumeShed config s') := by
  rw [CPUConcurrencyController.consumeShed]
  split
  · exact ⟨same.observable, same.dryRunLimit, same.estimate, same.samples⟩
  · exact same

theorem setLimit_rest (config : Config) (s : State) (l : UInt32) :
    (setLimit config s l).stableEstimate = s.stableEstimate ∧
      (setLimit config s l).stableConcurrencySamples = s.stableConcurrencySamples := by
  rw [setLimit]
  cases config.mode <;> exact ⟨rfl, rfl⟩

/-! ## The cases of a cycle -/

/-- The cycle raises the limit. -/
def Raises (server : Server) (config : Config) (s : State) (r : Reading) : Prop :=
  config.mode ≠ .disabled ∧ ¬ Overloaded server config s r ∧ ¬ Idle server config s r ∧
    ¬ Completes server config s r ∧ Pressed server config s r

instance (s : State) (r : Reading) : Decidable (Raises server config s r) :=
  inferInstanceAs (Decidable (_ ∧ ¬ _ ∧ ¬ _ ∧ ¬ _ ∧ _))

/-- The cycle installs the first stable estimate. -/
def InstallsFirst (server : Server) (config : Config) (s : State) (r : Reading) : Prop :=
  ¬ Overloaded server config s r ∧ ¬ Idle server config s r ∧ Completes server config s r ∧
    s.stableEstimate = -1

/-- The sum that a raising cycle computes fits. -/
def Fits (server : Server) (config : Config) (s : State) (r : Reading) : Prop :=
  Raises server config s r →
    (getLimit server config s).toNat + (increase config (getLimit server config s)).toNat < 2 ^ 32

instance (s : State) (r : Reading) : Decidable (Fits server config s r) :=
  inferInstanceAs (Decidable (_ → _))

/-- What a cycle does. -/
inductive Cycled (server : Server) (config : Config) (s : State) (r : Reading) : State → Prop where
  | lowers (load : Overloaded server config s r) :
      Cycled server config s r
        (setLimit config (observed server config s r) (lowered config (getLimit server config s)))
  | installs (load : ¬ Overloaded server config s r) (idle : ¬ Idle server config s r)
      (completes : Completes server config s r) :
      Cycled server config s r (setLimit config { observed server config s r with
            stableConcurrencySamples := collected server config s r
            stableEstimate := (estimate server config s r).toNat }
          (estimate server config s r))
  | raises {s' : State} (raises : Raises server config s r) (same : SameLimits s s') :
      Cycled server config s r (setLimit config s' (raised server config s))
  | rests {s' : State} (load : ¬ Overloaded server config s r) (same : SameLimits s s') :
      Cycled server config s r s'

theorem cycled (mode : config.mode ≠ .disabled) (s : State) (r : Reading) :
    Cycled server config s r (cycleOnce server config s r) := by
  rw [cycleOnce, if_neg mode]
  split_ifs with load idle completes pressed
  · exact .lowers load
  · exact .rests load sameLimits_observed
  · have collects : sampled server config s r = _ := if_pos completes.1
    rw [collects]
    exact .installs load idle completes
  · exact .raises ⟨mode, load, idle, completes, pressed⟩ sameLimits_sampled.consumeShed
  · exact .rests load sameLimits_sampled.consumeShed

/-! ## The bounds -/

/-- The limit is between the lower bound and the upper bound of the moment, which is no more than
the upper bound that the controller started with.  There is no estimate without its samples. -/
structure Bounded (server : Server) (config : Config) (s : State) : Prop where
  lower : config.concurrencyLowerBound ≤ getLimit server config s
  upper : getLimit server config s ≤ getConcurrencyUpperBoundInternal server config s
  top : getConcurrencyUpperBoundInternal server config s ≤
    getConcurrencyUpperBoundInternal server config .fresh
  estimated : s.stableEstimate = -1 ∨
    config.collectionSampleSize.toNat ≤ s.stableConcurrencySamples.length

theorem Bounded.pos (valid : config.Valid server) (bounded : Bounded server config s) :
    1 ≤ (getLimit server config s).toNat :=
  valid.lower_pos.trans (UInt32.le_iff_toNat_le.1 bounded.lower)

theorem bounded_setLimit (valid : config.Valid server) (mode : config.mode ≠ .disabled)
    (lower : config.concurrencyLowerBound ≤ l)
    (upper : l ≤ getConcurrencyUpperBoundInternal server config s)
    (top : getConcurrencyUpperBoundInternal server config s ≤
      getConcurrencyUpperBoundInternal server config .fresh)
    (estimated : s.stableEstimate = -1 ∨
      config.collectionSampleSize.toNat ≤ s.stableConcurrencySamples.length) :
    Bounded server config (setLimit config s l) := by
  have pos : 1 ≤ l.toNat := valid.lower_pos.trans (UInt32.le_iff_toNat_le.1 lower)
  have readBack : getLimit server config (setLimit config s l) = l := getLimit_setLimit mode pos
  have estimated' : (setLimit config s l).stableEstimate = -1 ∨ config.collectionSampleSize.toNat ≤
        (setLimit config s l).stableConcurrencySamples.length := by
    rw [(setLimit_rest config s l).1, (setLimit_rest config s l).2]
    exact estimated
  rcases @upperBound_setLimit server config s l with same | moved
  · refine ⟨?_, ?_, same ▸ top, estimated'⟩
    · rw [readBack]
      exact lower
    · rw [readBack, same]
      exact upper
  · refine ⟨?_, ?_, ?_, estimated'⟩
    · rw [readBack]
      exact lower
    · rw [readBack, moved]
      exact UInt32.le_refl l
    · rw [moved]
      exact UInt32.le_trans upper top

theorem bounded_schedule (valid : config.Valid server) (mode : config.mode ≠ .disabled) :
    Bounded server config (schedule server config) :=
  bounded_setLimit valid mode valid.lower_le (UInt32.le_refl _) (UInt32.le_refl _) (.inl rfl)

theorem lowered_bounds (valid : config.Valid server) (bounded : Bounded server config s) :
    config.concurrencyLowerBound ≤ lowered config (getLimit server config s) ∧
      lowered config (getLimit server config s) ≤ getLimit server config s := by
  have part := decrease_le valid (bounded.pos valid)
  have lower := UInt32.le_iff_toNat_le.1 bounded.lower
  rw [UInt32.le_iff_toNat_le, UInt32.le_iff_toNat_le, lowered, toNat_max,
    UInt32.toNat_sub_of_le _ _ (UInt32.le_iff_toNat_le.2 part)]
  exact ⟨le_max_right _ _, max_le (Nat.sub_le _ _) lower⟩

theorem raised_bounds (bounded : Bounded server config s) (fits : (getLimit server config s).toNat +
      (increase config (getLimit server config s)).toNat < 2 ^ 32) :
    getLimit server config s ≤ raised server config s ∧
      raised server config s ≤ getConcurrencyUpperBoundInternal server config s := by
  have upper := UInt32.le_iff_toNat_le.1 bounded.upper
  rw [UInt32.le_iff_toNat_le, UInt32.le_iff_toNat_le, raised, toNat_min, UInt32.toNat_add,
    Nat.mod_eq_of_lt fits]
  exact ⟨le_min upper (Nat.le_add_right _ _), min_le_left _ _⟩

theorem clamp_bounds {low high : UInt32} (le : low ≤ high) (n : UInt32) :
    low ≤ clamp n low high ∧ clamp n low high ≤ high := by
  rw [UInt32.le_iff_toNat_le] at le
  rw [clamp]
  split_ifs with less more
  · exact ⟨UInt32.le_refl _, UInt32.le_iff_toNat_le.2 le⟩
  · exact ⟨UInt32.le_iff_toNat_le.2 le, UInt32.le_refl _⟩
  · exact ⟨UInt32.not_lt.1 less, UInt32.not_lt.1 more⟩

/-! ## What a cycle keeps -/

theorem Bounded.cycled {s' : State} (valid : config.Valid server)
    (mode : config.mode ≠ .disabled) (bounded : Bounded server config s)
    (fits : Fits server config s r) (cycled : Cycled server config s r s') :
    Bounded server config s' := by
  cases cycled with
  | lowers load =>
    obtain ⟨lower, le⟩ := lowered_bounds valid bounded
    exact bounded_setLimit valid mode lower (UInt32.le_trans le bounded.upper) bounded.top
      bounded.estimated
  | installs load idle completes =>
    obtain ⟨lower, upper⟩ := clamp_bounds (UInt32.le_trans bounded.lower bounded.upper)
      (percentile config (collected server config s r))
    exact bounded_setLimit valid mode lower upper bounded.top (.inr completes.2)
  | raises raises same =>
    obtain ⟨le, upper⟩ := raised_bounds bounded (fits raises)
    have kept := @SameLimits.upperBound server config _ _ same
    refine bounded_setLimit valid mode (UInt32.le_trans bounded.lower le) (kept ▸ upper)
      (kept ▸ bounded.top) ?_
    rw [same.estimate]
    exact bounded.estimated.imp_right fun enough => enough.trans same.samples
  | rests load same =>
    refine ⟨same.getLimit_eq ▸ bounded.lower, ?_, same.upperBound ▸ bounded.top, ?_⟩
    · rw [same.getLimit_eq, same.upperBound]
      exact bounded.upper
    · rw [same.estimate]
      exact bounded.estimated.imp_right fun enough => enough.trans same.samples

/-! ## Sound cycles -/

/-- What is asked of a cycle that takes the controller from one state to another. -/
structure Sound (server : Server) (config : Config) (s : State) (r : Reading) (s' : State) :
    Prop where
  adds : Fits server config s r
  subtracts : Overloaded server config s r →
    decrease config (getLimit server config s) ≤ getLimit server config s
  lower : config.concurrencyLowerBound ≤ getLimit server config s'
  upper : getLimit server config s' ≤ getConcurrencyUpperBoundInternal server config .fresh
  overloaded : Overloaded server config s r → getLimit server config s' ≤ getLimit server config s
  below : ¬ Overloaded server config s r → ¬ InstallsFirst server config s r →
    getLimit server config s ≤ getLimit server config s'

theorem Bounded.sound {s' : State} (valid : config.Valid server)
    (mode : config.mode ≠ .disabled) (bounded : Bounded server config s)
    (fits : Fits server config s r) (cycled : Cycled server config s r s') :
    Sound server config s r s' := by
  have next := bounded.cycled valid mode fits cycled
  have part : decrease config (getLimit server config s) ≤ getLimit server config s :=
    UInt32.le_iff_toNat_le.2 (decrease_le valid (bounded.pos valid))
  refine ⟨fits, fun _ => part, next.lower, UInt32.le_trans next.upper next.top, ?_, ?_⟩
  · intro overloaded
    cases cycled with
    | lowers load =>
      obtain ⟨lower, le⟩ := lowered_bounds valid bounded
      have pos := valid.lower_pos.trans (UInt32.le_iff_toNat_le.1 lower)
      rw [getLimit_setLimit mode pos]
      exact le
    | installs load => exact absurd overloaded load
    | raises raises => exact absurd overloaded raises.2.1
    | rests load => exact absurd overloaded load
  · intro below notFirst
    cases cycled with
    | lowers load => exact absurd load below
    | installs load idle completes =>
      -- A second estimate is not installed, as the samples are complete.
      rcases bounded.estimated with first | enough
      · exact absurd ⟨load, idle, completes, first⟩ notFirst
      · exact absurd completes.1.2 (Nat.not_lt.2 enough)
    | raises raises same =>
      obtain ⟨le, upper⟩ := raised_bounds bounded (fits raises)
      have pos := (bounded.pos valid).trans (UInt32.le_iff_toNat_le.1 le)
      rw [getLimit_setLimit mode pos]
      exact le
    | rests load same =>
      rw [same.getLimit_eq]
      exact UInt32.le_refl _

/-- A cycle of a controller that is not disabled is sound, and one of a disabled controller sets
nothing. -/
def SoundCycle (server : Server) (config : Config) (s : State) (r : Reading) : Prop :=
  if config.mode = .disabled then cycleOnce server config s r = s
  else Sound server config s r (cycleOnce server config s r)

/-- The cycles of a run are sound if and only if each sum that a raising cycle computes fits. -/
theorem soundCycles_iff_fit (valid : config.Valid server) (readings : List Reading) :
    Run (cycleOnce server config) (SoundCycle server config) (schedule server config) readings ↔
      Run (cycleOnce server config) (Fits server config) (schedule server config) readings := by
  by_cases mode : config.mode = .disabled
  · let anywhere : State → Prop := fun _ => True
    have start : anywhere (schedule server config) := trivial
    refine Run.iff_of_clean start (fun s r _ => ?_) fun _ _ _ _ => trivial
    rw [SoundCycle, if_pos mode, cycleOnce, if_pos mode]
    exact iff_of_true rfl fun raises => absurd mode raises.1
  · refine Run.iff_of_clean (bounded_schedule valid mode) (fun s r bounded => ?_) ?_
    · rw [SoundCycle, if_neg mode]
      exact ⟨fun sound => sound.adds, fun fits => bounded.sound valid mode fits (cycled mode s r)⟩
    · exact fun s r bounded fits => bounded.cycled valid mode fits (cycled mode s r)

/-- A server with the largest static limit. -/
def unlimited : Server where
  staticLimit := fun _ => 0xffffffff
  enableEmaLoadSmoothing := false

/-- The default configuration, enabled and with the static limit as its upper bound. -/
def statically : Config where
  mode := .enabled
  method := .maxQps
  cpuTarget := 90
  additiveMultiplier := 1 / 20
  decreaseMultiplier := 1 / 20
  increaseDistanceRatio := 1 / 5
  bumpOnError := false
  initialEstimateFactor := 1
  initialEstimatePercentile := 3 / 4
  collectionSampleSize := 500
  concurrencyUpperBound := .useStaticLimit
  concurrencyLowerBound := 1
  cpuLoadSmoothingCoeff := 1

theorem valid_statically : statically.Valid unlimited :=
  ⟨by decide, by decide, by norm_num [statically], by norm_num [statically],
    by norm_num [statically]⟩

/-- The limit of four thousand million that a busy server starts with is raised to less. -/
theorem not_all_sound : ¬ ∀ (server : Server) (config : Config), config.Valid server →
    ∀ readings, Run (cycleOnce server config) (SoundCycle server config)
      (schedule server config) readings := by
  intro all
  have run := all unlimited statically valid_statically [⟨50, 0xffffffff, false, true, true⟩]
  have sound := run.1
  rw [SoundCycle, if_neg (by decide)] at sound
  exact absurd sound.adds (by decide +kernel)

/-- A cycle that lowers the limit fits. -/
theorem soundCycles_iff_fit_overloaded : statically.Valid unlimited ∧
      (Run (cycleOnce unlimited statically) (SoundCycle unlimited statically)
          (schedule unlimited statically) [⟨95, 10, false, true, true⟩] ↔
        Run (cycleOnce unlimited statically) (Fits unlimited statically)
          (schedule unlimited statically) [⟨95, 10, false, true, true⟩]) :=
  ⟨valid_statically, soundCycles_iff_fit valid_statically _⟩

end CPUConcurrencyController

end FbThrift
