import FbThrift.Lib.Run
import Mathlib.Data.List.Count
import Mathlib.Data.List.Induction
import Mathlib.Logic.Function.Basic

/-!
# Endpoints

A party of a connection closes each of its directions itself or sees it closed, and frees the
connection.  Its log lists what it did and saw.  An endpoint is what is left of a log: the
directions that are open, and whether the connection is freed.
-/

namespace FbThrift

/-- What one party does to a direction and sees of it. -/
inductive Act (δ : Type) where
  | terminates (direction : δ)
  | sees (direction : δ)
  | seesEnd (direction : δ)
  | frees
  deriving DecidableEq, Repr

structure Endpoint (δ : Type) where
  isOpen : δ → Bool
  freed : Bool

namespace Endpoint

variable {δ : Type} {log acts : List (Act δ)} {d : δ} {e e' : Endpoint δ}

/-! ## Logs -/

/-- The party ended this direction or saw it end. -/
def Closed (log : List (Act δ)) (d : δ) : Prop := .terminates d ∈ log ∨ .seesEnd d ∈ log

instance [DecidableEq δ] (log : List (Act δ)) (d : δ) : Decidable (Closed log d) :=
  inferInstanceAs (Decidable (_ ∨ _))

/-- No direction ends twice before the eyes of the party, nothing of a direction is seen by the
party that ended it, and the connection is freed at most once. -/
structure Orderly [DecidableEq δ] (log : List (Act δ)) : Prop where
  endsOnce : ∀ d, log.count (.seesEnd d) ≤ 1
  silent : ∀ d before after, log = before ++ .terminates d :: after →
    .sees d ∉ after ∧ .seesEnd d ∉ after
  freesOnce : log.count .frees ≤ 1

theorem closed_append : Closed (log ++ acts) d ↔ Closed log d ∨ Closed acts d := by
  unfold Closed
  rw [List.mem_append, List.mem_append]
  exact or_or_or_comm

section

variable [DecidableEq δ]

theorem orderly_nil : Orderly ([] : List (Act δ)) where
  endsOnce _ := Nat.zero_le 1
  silent _ before _ split := by simp at split
  freesOnce := Nat.zero_le 1

theorem Orderly.of_append (orderly : Orderly (log ++ acts)) : Orderly log where
  endsOnce d :=
    Nat.le_trans ((List.sublist_append_left log acts).count_le _) (orderly.endsOnce d)
  silent d before after split := by
    have silent := orderly.silent d before (after ++ acts) (by rw [split]; simp)
    simp only [List.mem_append, not_or] at silent
    exact ⟨silent.1.1, silent.2.1⟩
  freesOnce := Nat.le_trans ((List.sublist_append_left log acts).count_le _) orderly.freesOnce

theorem Orderly.open_of_seesEnd (orderly : Orderly (log ++ [.seesEnd d])) : ¬ Closed log d := by
  rintro (terminated | seen)
  · obtain ⟨before, after, split⟩ := List.append_of_mem terminated
    have silent := orderly.silent d before (after ++ [.seesEnd d]) (by rw [split]; simp)
    exact silent.2 (by simp)
  · have once := orderly.endsOnce d
    have some := List.count_pos_iff.mpr seen
    rw [List.count_append, List.count_singleton_self] at once
    omega

theorem Orderly.fresh_of_frees (orderly : Orderly (log ++ [.frees])) : .frees ∉ log := by
  intro freed
  have once := orderly.freesOnce
  have some := List.count_pos_iff.mpr freed
  rw [List.count_append, List.count_singleton_self] at once
  omega

theorem count_concat_le {act other : Act δ} (once : log.count act ≤ 1)
    (first : other = act → act ∉ log) : (log ++ [other]).count act ≤ 1 := by
  rw [List.count_append, List.count_singleton]
  split
  · next same => exact (List.count_eq_zero.mpr (first (eq_of_beq same))).symm ▸ Nat.le_refl 1
  · exact once

/-- One more act keeps a log orderly when it is of a direction that is still open, or the first
to free the connection. -/
theorem Orderly.concat (orderly : Orderly log) {act : Act δ}
    (heard : ∀ d, act = .sees d ∨ act = .seesEnd d → ¬ Closed log d)
    (first : act = .frees → .frees ∉ log) : Orderly (log ++ [act]) where
  endsOnce d :=
    count_concat_le (orderly.endsOnce d) fun ends seen => heard d (.inr ends) (.inr seen)
  silent d before after split := by
    cases after using List.reverseRecOn with
    | nil => simp
    | append_singleton after last _ =>
      rw [← List.cons_append, ← List.append_assoc] at split
      obtain ⟨rest, same⟩ := List.append_inj' split rfl
      obtain ⟨notSees, notEnds⟩ := orderly.silent d before after rest
      have closed : Closed log d := .inl (by rw [rest]; simp)
      rw [List.singleton_inj] at same
      simp only [List.mem_append, List.mem_singleton, not_or]
      exact ⟨⟨notSees, fun same' => heard d (.inl (same.trans same'.symm)) closed⟩,
        notEnds, fun same' => heard d (.inr (same.trans same'.symm)) closed⟩
  freesOnce := count_concat_le orderly.freesOnce first

end

/-! ## What is left of a log -/

variable [DecidableEq δ]

/-- Nothing of a connection that is freed is open. -/
def after (e : Endpoint δ) : Act δ → Endpoint δ
  | .terminates d => { e with isOpen := Function.update e.isOpen d false }
  | .sees _ => e
  | .seesEnd d => { e with isOpen := Function.update e.isOpen d false }
  | .frees => ⟨fun _ => false, true⟩

def Permits (e : Endpoint δ) : Act δ → Prop
  | .terminates _ => True
  | .sees d => e.isOpen d
  | .seesEnd d => e.isOpen d
  | .frees => e.freed = false

instance (e : Endpoint δ) : ∀ act, Decidable (e.Permits act)
  | .terminates _ => inferInstanceAs (Decidable True)
  | .sees d => inferInstanceAs (Decidable (e.isOpen d = true))
  | .seesEnd d => inferInstanceAs (Decidable (e.isOpen d = true))
  | .frees => inferInstanceAs (Decidable (e.freed = false))

/-- Some acts, each permitted when it happens, lead from one endpoint to another. -/
def Follows (e : Endpoint δ) (acts : List (Act δ)) (e' : Endpoint δ) : Prop :=
  Run after Permits e acts ∧ acts.foldl after e = e'

theorem Follows.refl (e : Endpoint δ) : e.Follows [] e := ⟨trivial, rfl⟩

theorem Follows.sees (isOpen : e.isOpen d = true) : e.Follows [.sees d] e :=
  ⟨⟨isOpen, trivial⟩, rfl⟩

/-- The log is orderly, and this is what it leaves. -/
structure Tracks (log : List (Act δ)) (e : Endpoint δ) : Prop where
  orderly : Orderly log
  isOpen_iff : ∀ d, e.isOpen d = true ↔ ¬ Closed log d ∧ .frees ∉ log
  freed_iff : e.freed = true ↔ .frees ∈ log

theorem tracks_nil : Tracks ([] : List (Act δ)) ⟨fun _ => true, false⟩ where
  orderly := orderly_nil
  isOpen_iff d := by simp [Closed]
  freed_iff := by simp

theorem Tracks.concat (tracks : Tracks log e) {act : Act δ} (permitted : e.Permits act) :
    Tracks (log ++ [act]) (e.after act) := by
  have orderly : Orderly (log ++ [act]) := by
    refine tracks.orderly.concat ?_ ?_
    · rintro d (rfl | rfl)
      · exact ((tracks.isOpen_iff d).mp permitted).1
      · exact ((tracks.isOpen_iff d).mp permitted).1
    · rintro rfl freed
      exact absurd (tracks.freed_iff.mpr freed) (by simp [show e.freed = false from permitted])
  refine ⟨orderly, fun d => ?_, ?_⟩
  · have before := tracks.isOpen_iff d
    rw [closed_append, List.mem_append]
    cases act with
    | terminates d' | seesEnd d' =>
      by_cases same : d = d'
      · subst same
        simp [after, Closed]
      · simp only [after, Function.update_of_ne same, before]
        simp [Closed, same]
    | sees d' => simpa [after, Closed] using before
    | frees => simp [after]
  · rw [List.mem_append]
    cases act with
    | terminates d' | seesEnd d' | sees d' => simpa [after] using tracks.freed_iff
    | frees => simp [after]

theorem Tracks.append (tracks : Tracks log e) (follows : e.Follows acts e') :
    Tracks (log ++ acts) e' := by
  obtain ⟨run, rfl⟩ := follows
  induction acts generalizing log e with
  | nil => simpa using tracks
  | cons act acts ih =>
    have rest := ih (tracks.concat run.1) run.2
    rwa [List.append_assoc, List.singleton_append] at rest

end Endpoint

end FbThrift
