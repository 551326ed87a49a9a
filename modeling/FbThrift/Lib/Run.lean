import Mathlib.Algebra.Ring.Int.Defs
import Mathlib.Data.List.Basic

/-!
# Runs

A system answers events one after the other.  What may happen next depends on the state, and a
run is a list of events each of which may happen when it does.
-/

namespace FbThrift

variable {σ ε : Type}

/-- Each event is allowed in the state in which it happens. -/
def Run (step : σ → ε → σ) (allowed : σ → ε → Prop) : σ → List ε → Prop
  | _, [] => True
  | s, e :: es => allowed s e ∧ Run step allowed (step s e) es

namespace Run

variable {step : σ → ε → σ} {allowed also : σ → ε → Prop} {inv : σ → Prop} {s : σ} {es : List ε}

instance [∀ s e, Decidable (allowed s e)] : ∀ (s : σ) (es : List ε),
    Decidable (Run step allowed s es)
  | _, [] => inferInstanceAs (Decidable True)
  | s, e :: es =>
    have := instDecidable (step s e) es
    inferInstanceAs (Decidable (allowed s e ∧ Run step allowed (step s e) es))

/-- What holds at the start and is kept by each event that may happen holds at the end. -/
theorem invariant (run : Run step allowed s es) (start : inv s)
    (keeps : ∀ s e, inv s → allowed s e → inv (step s e)) : inv (es.foldl step s) := by
  induction es generalizing s with
  | nil => exact start
  | cons e es ih => exact ih run.2 (keeps s e start run.1)

theorem mono (run : Run step allowed s es) (weaker : ∀ s e, allowed s e → also s e) :
    Run step also s es := by
  induction es generalizing s with
  | nil => trivial
  | cons e es ih => exact ⟨weaker s e run.1, ih run.2⟩

theorem and (run : Run step allowed s es) (other : Run step also s es) :
    Run step (fun s e => allowed s e ∧ also s e) s es := by
  induction es generalizing s with
  | nil => trivial
  | cons e es ih => exact ⟨⟨run.1, other.1⟩, ih run.2 other.2⟩

theorem take (run : Run step allowed s es) (n : Nat) : Run step allowed s (es.take n) := by
  induction es generalizing s n with
  | nil => simpa using run
  | cons e es ih =>
    cases n with
    | zero => trivial
    | succ n => exact ⟨run.1, ih run.2 n⟩

theorem congr {this that : σ → ε → Prop} (run : Run step allowed s es) (start : inv s)
    (keeps : ∀ s e, inv s → allowed s e → inv (step s e))
    (same : ∀ s e, inv s → allowed s e → (this s e ↔ that s e)) :
    Run step this s es ↔ Run step that s es := by
  induction es generalizing s with
  | nil => exact Iff.rfl
  | cons e es ih => exact and_congr (same s e start run.1) (ih run.2 (keeps s e start run.1))

/-- Where an event that is not clean shows at once and clean ones keep an invariant, every state
of a run is good if and only if all its events are clean. -/
theorem clean_iff {clean : σ → ε → Prop} {good : σ → Prop} (run : Run step allowed s es)
    (start : inv s) (goodOf : ∀ s, inv s → good s)
    (keeps : ∀ s e, inv s → allowed s e → clean s e → inv (step s e))
    (shows : ∀ s e, inv s → allowed s e → good (step s e) → clean s e) :
    (∀ n, good ((es.take n).foldl step s)) ↔ Run step clean s es := by
  constructor
  · intro all
    induction es generalizing s with
    | nil => trivial
    | cons e es ih =>
      have first : clean s e := shows s e start run.1 (all 1)
      exact ⟨first, ih run.2 (keeps s e start run.1 first) fun n => all (n + 1)⟩
  · intro cleanRun n
    refine goodOf _ (((run.and cleanRun).take n).invariant start ?_)
    exact fun s e kept both => keeps s e kept both.1 both.2

/-- Where being sound is being clean in each state of an invariant that clean events keep, the
runs all of whose events are sound are those all of whose events are clean. -/
theorem iff_of_clean {sound clean : σ → ε → Prop} (start : inv s)
    (same : ∀ s e, inv s → (sound s e ↔ clean s e))
    (keeps : ∀ s e, inv s → clean s e → inv (step s e)) :
    Run step sound s es ↔ Run step clean s es := by
  induction es generalizing s with
  | nil => exact Iff.rfl
  | cons e es ih =>
    rw [Run, Run, same s e start]
    exact and_congr_right fun first => ih (keeps s e start first)

end Run

/-- A measure grows by no more than what each event allows. -/
theorem foldl_measure_le (measure : σ → Int) {step : σ → ε → σ} {bound : ε → Int}
    (each : ∀ s e, measure (step s e) ≤ measure s + bound e) (es : List ε) (s : σ) :
    measure (es.foldl step s) ≤ measure s + (es.map bound).sum := by
  induction es generalizing s with
  | nil => simp
  | cons e es ih =>
    have first := each s e
    have rest := ih (step s e)
    rw [List.foldl_cons, List.map_cons, List.sum_cons]
    omega

theorem sum_map_getD {ν : Type} (number : ε → Option ν) (value : ν → Int) (es : List ε) :
    (es.map fun e => ((number e).map value).getD 0).sum =
      ((es.filterMap number).map value).sum := by
  induction es with
  | nil => rfl
  | cons e es ih =>
    rw [List.map_cons, List.sum_cons, ih, List.filterMap_cons]
    cases number e with
    | none => exact Int.zero_add _
    | some v => rfl

end FbThrift
