import Mathlib.Data.List.Basic

/-!
# Computations that unwind

A computation changes a state and returns or stops with an error; the state it has reached stays
either way, as where destructors run while an exception passes.  A `Contract` relates the state in
which a computation starts to the state in which it returns or stops.  Contracts are closed under
sequencing and iteration, and what is acquired and released around a computation is seen by the
contract of the computation inside only.
-/

namespace FbThrift

variable {ε σ α β : Type}

/-- What the runs of a computation from the states that `starts` allows leave. -/
structure Contract (ε σ : Type) where
  starts : σ → Prop
  returns : σ → σ → Prop
  stops : ε → σ → σ → Prop
  refl : ∀ s, returns s s
  trans : ∀ {s t u}, returns s t → returns t u → returns s u
  starts_of_returns : ∀ {s t}, starts s → returns s t → starts t
  stops_of_returns : ∀ {s t u e}, returns s t → stops e t u → stops e s u

/-- What a run from `s` ends with meets the contract. -/
def Contract.Met (c : Contract ε σ) (s : σ) : EStateM.Result ε σ α → Prop
  | .ok _ t => c.returns s t
  | .error e t => c.stops e s t

/-- Every run of the computation meets the contract. -/
def Keeps (c : Contract ε σ) (x : EStateM ε σ α) : Prop := ∀ s, c.starts s → c.Met s (x s)

/-- A resource is acquired before the computation and released however it ends. -/
def guarded (acquire release : σ → σ) (x : EStateM ε σ α) : EStateM ε σ α := fun s =>
  match x (acquire s) with
  | .ok a t => .ok a (release t)
  | .error e t => .error e (release t)

namespace Keeps

variable {c d : Contract ε σ} {x : EStateM ε σ α} {f : α → EStateM ε σ β} {xs : List β}

theorem pure (a : α) : Keeps c (Pure.pure a : EStateM ε σ α) :=
  fun s _ => c.refl s

theorem bind (first : Keeps c x) (rest : ∀ a, Keeps c (f a)) : Keeps c (x >>= f) := by
  intro s starts
  have run := first s starts
  change c.Met s (EStateM.bind x f s)
  unfold EStateM.bind
  cases done : x s with
  | error e t =>
    rw [done] at run
    exact run
  | ok a t =>
    rw [done] at run
    have later := rest a t (c.starts_of_returns starts run)
    dsimp only
    cases ends : f a t with
    | error e u =>
      rw [ends] at later
      exact c.stops_of_returns run later
    | ok b u =>
      rw [ends] at later
      exact c.trans run later

theorem seq {y : EStateM ε σ β} (first : Keeps c x) (second : Keeps c y) :
    Keeps c (x >>= fun _ => y) :=
  first.bind fun _ => second

theorem throw {e : ε} (stops : ∀ s, c.starts s → c.stops e s s) :
    Keeps c (MonadExcept.throw e : EStateM ε σ α) :=
  fun s starts => stops s starts

/-- What follows may depend on the state in which the computation starts. -/
theorem reading {g : σ → EStateM ε σ α} (each : ∀ s, c.starts s → c.Met s (g s s)) :
    Keeps c (MonadState.get >>= g) :=
  fun s starts => each s starts

theorem undone {acquire release : σ → σ} {body : EStateM ε σ PUnit} (inside : Keeps c body)
    (starts : ∀ s, c.starts s → c.starts (acquire s))
    (returns : ∀ s t, c.starts s → c.returns (acquire s) t → c.returns s (release t))
    (stops : ∀ e s t, c.starts s → c.stops e (acquire s) t → c.stops e s t) :
    Keeps c (modify acquire >>= fun _ => body >>= fun _ => modify release) := by
  intro s begins
  have run := inside (acquire s) (starts s begins)
  have whole : (modify acquire >>= fun _ => body >>= fun _ => modify release) s =
      EStateM.bind body (fun _ => modify release) (acquire s) := rfl
  rw [whole, EStateM.bind]
  cases ends : body (acquire s) with
  | ok a t =>
    rw [ends] at run
    exact returns s t begins run
  | error e t =>
    rw [ends] at run
    exact stops e s t begins run

theorem modify {g : σ → σ} (changes : ∀ s, c.starts s → c.returns s (g s)) :
    Keeps c (modify g : EStateM ε σ PUnit) :=
  fun s starts => changes s starts

theorem ite {p : Prop} [Decidable p] {y : EStateM ε σ α} (yes : p → Keeps c x)
    (no : ¬ p → Keeps c y) : Keeps c (if p then x else y) := by
  split
  next holds => exact yes holds
  next fails => exact no fails

theorem forM {g : β → EStateM ε σ PUnit} (each : ∀ b ∈ xs, Keeps c (g b)) :
    Keeps c (xs.forM g) := by
  induction xs with
  | nil => exact pure _
  | cons b xs ih =>
    have rest : Keeps c (xs.forM g) := ih fun b' member => each b' (List.mem_cons_of_mem b member)
    exact (each b List.mem_cons_self).seq rest

theorem foldlM {g : α → β → EStateM ε σ α} (each : ∀ a, ∀ b ∈ xs, Keeps c (g a b)) (a : α) :
    Keeps c (xs.foldlM g a) := by
  induction xs generalizing a with
  | nil => exact pure a
  | cons b xs ih =>
    exact (each a b List.mem_cons_self).bind
      (ih fun a b' member => each a b' (List.mem_cons_of_mem b member))

theorem mapM {g : β → EStateM ε σ α} (each : ∀ b ∈ xs, Keeps c (g b)) : Keeps c (xs.mapM g) := by
  induction xs with
  | nil => exact pure []
  | cons b xs ih =>
    have rest : Keeps c (xs.mapM g) := ih fun b' member => each b' (List.mem_cons_of_mem b member)
    rw [List.mapM_cons]
    exact (each b List.mem_cons_self).bind fun a => rest.bind fun as => pure (a :: as)

theorem guarded {acquire release : σ → σ} (inside : Keeps d x)
    (starts : ∀ s, c.starts s → d.starts (acquire s))
    (returns : ∀ s t, c.starts s → d.returns (acquire s) t → c.returns s (release t))
    (stops : ∀ e s t, c.starts s → d.stops e (acquire s) t → c.stops e s (release t)) :
    Keeps c (guarded acquire release x) := by
  intro s begins
  have run := inside (acquire s) (starts s begins)
  unfold FbThrift.guarded
  cases ends : x (acquire s) with
  | ok a t =>
    rw [ends] at run
    exact returns s t begins run
  | error e t =>
    rw [ends] at run
    exact stops e s t begins run

end Keeps

end FbThrift
