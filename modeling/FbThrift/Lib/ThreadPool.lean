import Mathlib.Algebra.Ring.Int.Defs
import Mathlib.Algebra.Order.BigOperators.Group.List
import Mathlib.Data.List.Perm.Basic

/-!
# Threads that share a state

A pool is a shared state and the threads that work on it, each with the place it has come to.
In a step one thread reads and changes the shared state and becomes other threads: itself at
its next place, with those it starts, or none when it ends.  What the threads hold together is
a sum of weights, and a step changes the sum by what the one thread held and what it holds
afterwards.
-/

namespace FbThrift

structure ThreadPool (σ τ : Type) where
  shared : σ
  threads : List τ
  deriving DecidableEq

namespace ThreadPool

variable {σ τ : Type}

/-- A new thread starts. -/
def start (pool : ThreadPool σ τ) (shared : σ) (t : τ) : ThreadPool σ τ :=
  ⟨shared, t :: pool.threads⟩

/-- The thread in place `i` becomes `next`. -/
def replace (pool : ThreadPool σ τ) (i : Nat) (shared : σ) (next : List τ) : ThreadPool σ τ :=
  ⟨shared, pool.threads.take i ++ next ++ pool.threads.drop (i + 1)⟩

/-- What the threads hold together. -/
def total (weight : τ → Int) (pool : ThreadPool σ τ) : Int := (pool.threads.map weight).sum

variable {pool : ThreadPool σ τ} {i : Nat} {shared : σ} {t : τ} {next : List τ}
variable {weight : τ → Int}

@[simp] theorem start_shared : (pool.start shared t).shared = shared := rfl

@[simp] theorem replace_shared : (pool.replace i shared next).shared = shared := rfl

@[simp] theorem total_start : (pool.start shared t).total weight = weight t + pool.total weight :=
  List.sum_cons

theorem threads_split (here : pool.threads[i]? = some t) :
    pool.threads = pool.threads.take i ++ t :: pool.threads.drop (i + 1) := by
  obtain ⟨below, rfl⟩ := List.getElem?_eq_some_iff.mp here
  rw [← List.drop_eq_getElem_cons below, List.take_append_drop]

/-- A step changes the total by what its thread held before and holds afterwards. -/
theorem total_replace (here : pool.threads[i]? = some t) :
    (pool.replace i shared next).total weight =
      pool.total weight - weight t + (next.map weight).sum := by
  have before : pool.total weight = ((pool.threads.take i).map weight).sum +
      (weight t + ((pool.threads.drop (i + 1)).map weight).sum) := by
    rw [← List.sum_cons, ← List.map_cons, ← List.sum_append, ← List.map_append,
      ← threads_split here, total]
  rw [before, total, replace, List.map_append, List.map_append, List.sum_append, List.sum_append]
  omega

theorem total_sub (weight other : τ → Int) :
    pool.total (fun t => weight t - other t) = pool.total weight - pool.total other := by
  unfold total
  induction pool.threads with
  | nil => rfl
  | cons t threads ih =>
    simp only [List.map_cons, List.sum_cons]
    omega

theorem total_add (weight other : τ → Int) :
    pool.total (fun t => weight t + other t) = pool.total weight + pool.total other := by
  unfold total
  induction pool.threads with
  | nil => rfl
  | cons t threads ih =>
    simp only [List.map_cons, List.sum_cons]
    omega

theorem total_nonneg (nonneg : ∀ t, 0 ≤ weight t) : 0 ≤ pool.total weight :=
  List.sum_nonneg fun _ member => by
    obtain ⟨t, _, rfl⟩ := List.mem_map.mp member
    exact nonneg t

/-- A thread holds no more than all together. -/
theorem weight_le_total (nonneg : ∀ t, 0 ≤ weight t) (here : pool.threads[i]? = some t) :
    weight t ≤ pool.total weight := by
  have rest : 0 ≤ (pool.replace i pool.shared []).total weight := total_nonneg nonneg
  rw [total_replace here, List.map_nil, List.sum_nil] at rest
  omega

theorem total_of_threads_nil (none : pool.threads = []) : pool.total weight = 0 := by
  rw [total, none]
  rfl

/-- Where one thread holds all, the others hold nothing. -/
theorem weight_eq_zero_of_total_le (nonneg : ∀ t, 0 ≤ weight t)
    (here : pool.threads[i]? = some t) (all : pool.total weight ≤ weight t) :
    ∀ u ∈ (pool.replace i shared []).threads, weight u = 0 := by
  intro u member
  obtain ⟨j, there⟩ := List.mem_iff_getElem?.mp member
  have rest : (pool.replace i shared []).total weight = pool.total weight - weight t := by
    rw [total_replace here, List.map_nil, List.sum_nil, Int.add_zero]
  have fewer := weight_le_total nonneg there
  have := nonneg u
  omega

/-- A step changes what the threads have together by what its thread had and has. -/
theorem perm_flatMap_replace {β : Type} (f : τ → List β) (here : pool.threads[i]? = some t) :
    ((pool.replace i shared next).threads.flatMap f ++ f t).Perm
      (pool.threads.flatMap f ++ next.flatMap f) := by
  rw [threads_split here, replace]
  simp only [List.flatMap_append, List.flatMap_cons, List.append_assoc]
  refine List.Perm.append_left _ ?_
  rw [← List.append_assoc, ← List.append_assoc]
  refine (List.perm_append_comm.trans ?_)
  rw [List.append_assoc]
  exact List.Perm.append_left _ List.perm_append_comm

theorem mem_replace {u : τ} : u ∈ (pool.replace i shared next).threads ↔
    u ∈ (pool.replace i pool.shared []).threads ∨ u ∈ next := by
  simp only [replace, List.mem_append, List.not_mem_nil, or_false]
  tauto

theorem mem_of_mem_replace {u : τ} (member : u ∈ (pool.replace i shared []).threads) :
    u ∈ pool.threads := by
  simp only [replace, List.append_nil, List.mem_append] at member
  exact member.elim List.mem_of_mem_take List.mem_of_mem_drop

/-- What holds of each thread still does after a step if it holds of the new ones. -/
theorem forall_replace {p : τ → Prop} (all : ∀ t ∈ pool.threads, p t) (new : ∀ t ∈ next, p t) :
    ∀ t ∈ (pool.replace i shared next).threads, p t := by
  intro t member
  simp only [replace, List.mem_append] at member
  rcases member with (member | member) | member
  · exact all t (List.mem_of_mem_take member)
  · exact new t member
  · exact all t (List.mem_of_mem_drop member)

end ThreadPool

end FbThrift
