import Mathlib.Data.List.Basic
import Mathlib.Data.List.Perm.Basic
import Mathlib.Data.List.Count

/-!
# Interleavings and demultiplexing

Sequences of items share a channel: an interleaving keeps the order of each sequence and
nothing else.  The receiver is a machine that answers items with outputs.  When its state
falls into parts, one for each key, and an item only works on the part of its own key, the
part of a key and the outputs for it depend on the items with that key alone.
-/

namespace FbThrift

variable {α β κ σ τ ω : Type}

/-! ## Interleavings -/

/-- The items of the sequences one at a time, each sequence in its own order. -/
inductive Interleaving : List (List α) → List α → Prop where
  | done {xss : List (List α)} (empty : ∀ xs ∈ xss, xs = []) : Interleaving xss []
  | next {before after : List (List α)} {x : α} {xs ys : List α}
      (rest : Interleaving (before ++ xs :: after) ys) :
      Interleaving (before ++ (x :: xs) :: after) (x :: ys)

namespace Interleaving

variable {xss : List (List α)} {xs ys : List α}

theorem map (f : α → β) (interleaving : Interleaving xss ys) :
    Interleaving (xss.map (List.map f)) (ys.map f) := by
  induction interleaving with
  | done empty =>
    apply done
    intro zs listed
    obtain ⟨xs, member, rfl⟩ := List.mem_map.mp listed
    rw [empty xs member, List.map_nil]
  | next _ ih =>
    rw [List.map_append, List.map_cons] at ih ⊢
    exact next ih

theorem filter (p : α → Bool) (interleaving : Interleaving xss ys) :
    Interleaving (xss.map (List.filter p)) (ys.filter p) := by
  induction interleaving with
  | done empty =>
    apply done
    intro zs listed
    obtain ⟨xs, member, rfl⟩ := List.mem_map.mp listed
    rw [empty xs member, List.filter_nil]
  | @next _ _ x _ _ _ ih =>
    rw [List.map_append, List.map_cons] at ih ⊢
    cases kept : p x with
    | false =>
      rw [List.filter_cons_of_neg (by simp [kept]), List.filter_cons_of_neg (by simp [kept])]
      exact ih
    | true =>
      rw [List.filter_cons_of_pos kept, List.filter_cons_of_pos kept]
      exact next ih

theorem perm (interleaving : Interleaving xss ys) : ys.Perm xss.flatten := by
  induction interleaving with
  | done empty =>
    rw [List.flatten_eq_nil_iff.mpr empty]
  | next _ ih =>
    rw [List.flatten_append, List.flatten_cons] at ih ⊢
    exact (ih.cons _).trans List.perm_middle.symm

/-- An item of the channel is one of a sequence. -/
theorem mem_iff (interleaving : Interleaving xss ys) {y : α} : y ∈ ys ↔ ∃ xs ∈ xss, y ∈ xs := by
  rw [interleaving.perm.mem_iff, List.mem_flatten]

/-- A channel that one sequence has for itself. -/
theorem eq_of_nil {before after : List (List α)} (first : ∀ zs ∈ before, zs = [])
    (last : ∀ zs ∈ after, zs = []) (interleaving : Interleaving (before ++ xs :: after) ys) :
    ys = xs := by
  generalize split : before ++ xs :: after = xss at interleaving
  induction interleaving generalizing before after xs with
  | done empty =>
    rw [empty xs (by simp [← split])]
  | @next before' after' x xs' ys' rest ih =>
    -- the sequence that gives the item is the one that is not empty
    rcases List.append_eq_append_iff.mp split with ⟨zs, rfl, shared⟩ | ⟨zs, rfl, shared⟩
    · cases zs with
      | nil =>
        rw [List.nil_append] at shared
        cases shared
        rw [List.append_nil] at rest ih
        rw [ih first last rfl]
      | cons z zs =>
        cases shared
        cases last _ (by simp : (x :: xs') ∈ zs ++ (x :: xs') :: after')
    · cases zs with
      | nil =>
        rw [List.nil_append] at shared
        cases shared
        rw [List.append_nil] at first
        rw [ih first last rfl]
      | cons z zs =>
        cases shared
        cases first _ (by simp : (x :: xs') ∈ before' ++ (x :: xs') :: zs)

theorem filter_key [DecidableEq κ] {β : Type} {key : α → κ} {name : β → κ}
    {sequence : β → List α} {bs : List β} {b : β}
    (interleaving : Interleaving (bs.map sequence) ys) (distinct : (bs.map name).Nodup)
    (keyed : ∀ b ∈ bs, ∀ x ∈ sequence b, key x = name b) (member : b ∈ bs) :
    ys.filter (fun x => key x = name b) = sequence b := by
  obtain ⟨before, after, rfl⟩ := List.append_of_mem member
  have own : (sequence b).filter (fun x => key x = name b) = sequence b :=
    List.filter_eq_self.mpr fun x listed => by simpa using keyed b member x listed
  have others : ∀ c ∈ before ++ after, (sequence c).filter (fun x => key x = name b) = [] := by
    intro c listed
    rw [List.filter_eq_nil_iff]
    intro x inside same
    rw [List.map_append, List.map_cons, List.perm_middle.nodup_iff, List.nodup_cons] at distinct
    apply distinct.1
    rw [← List.map_append, ← of_decide_eq_true same, keyed c (by grind) x inside]
    exact List.mem_map_of_mem listed
  have parts := interleaving.filter fun x => key x = name b
  rw [List.map_append, List.map_append, List.map_cons, List.map_cons, own] at parts
  apply eq_of_nil _ _ parts
  · intro zs listed
    obtain ⟨_, inner, rfl⟩ := List.mem_map.mp listed
    obtain ⟨c, chosen, rfl⟩ := List.mem_map.mp inner
    exact others c (List.mem_append_left _ chosen)
  · intro zs listed
    obtain ⟨_, inner, rfl⟩ := List.mem_map.mp listed
    obtain ⟨c, chosen, rfl⟩ := List.mem_map.mp inner
    exact others c (List.mem_append_right _ chosen)

/-- One sequence after the other. -/
theorem flatten (xss : List (List α)) : Interleaving xss xss.flatten := by
  have skip : ∀ before : List (List α), (∀ zs ∈ before, zs = []) →
      Interleaving (before ++ xss) xss.flatten := by
    induction xss with
    | nil =>
      intro before empty
      exact done (by simpa using empty)
    | cons xs xss ih =>
      intro before empty
      induction xs with
      | nil =>
        have := ih (before ++ [[]]) (by grind)
        simpa using this
      | cons x xs step =>
        rw [List.flatten_cons, List.cons_append, ← List.flatten_cons]
        exact next step
  exact skip [] (by simp)

end Interleaving

/-! ## Machines -/

/-- The state behind the items and the outputs on the way. -/
def transduce (step : σ → α → σ × List ω) : σ → List α → σ × List ω
  | s, [] => (s, [])
  | s, x :: xs =>
    let (t, now) := step s x
    let (u, later) := transduce step t xs
    (u, now ++ later)

theorem transduce_append (step : σ → α → σ × List ω) (s : σ) (xs ys : List α) :
    transduce step s (xs ++ ys) = ((transduce step (transduce step s xs).1 ys).1,
        (transduce step s xs).2 ++ (transduce step (transduce step s xs).1 ys).2) := by
  induction xs generalizing s with
  | nil => rfl
  | cons x xs ih =>
    simp only [List.cons_append, transduce, ih, List.append_assoc]

/-- What holds of the first state and is kept by steps holds of the last state. -/
theorem transduce_keeps {step : σ → α → σ × List ω} {inv : σ → Prop} {xs : List α} {s : σ}
    (keeps : ∀ s, ∀ x ∈ xs, inv s → inv (step s x).1) (holds : inv s) :
    inv (transduce step s xs).1 := by
  induction xs generalizing s with
  | nil => exact holds
  | cons x xs ih =>
    have first := keeps s x (by simp) holds
    exact ih (fun s y member => keeps s y (List.mem_cons_of_mem x member)) first

section

variable [DecidableEq κ] {step : σ → α → σ × List ω} (part : κ → σ → τ)
variable (partStep : κ → τ → α → τ × List ω) {key : α → κ} {tag : ω → κ}

theorem transduce_part (own : ∀ s x, (part (key x) (step s x).1, (step s x).2) =
      partStep (key x) (part (key x) s) x)
    (others : ∀ s x k, k ≠ key x → part k (step s x).1 = part k s)
    (tagged : ∀ s x, ∀ o ∈ (step s x).2, tag o = key x) (k : κ) (xs : List α) (s : σ) :
    (part k (transduce step s xs).1, (transduce step s xs).2.filter fun o => tag o = k) =
      transduce (partStep k) (part k s) (xs.filter fun x => key x = k) := by
  induction xs generalizing s with
  | nil => rfl
  | cons x xs ih =>
    have rest := ih (step s x).1
    by_cases same : key x = k
    · subst same
      have mine : ((step s x).2.filter fun o => tag o = key x) = (step s x).2 :=
        List.filter_eq_self.mpr fun o listed => by simpa using tagged s x o listed
      rw [List.filter_cons_of_pos (by simp), transduce, transduce, ← own s x]
      simp only [List.filter_append, mine]
      rw [← rest]
    · have none : ((step s x).2.filter fun o => tag o = k) = [] := by
        rw [List.filter_eq_nil_iff]
        intro o listed found
        exact same ((tagged s x o listed).symm.trans (of_decide_eq_true found))
      rw [List.filter_cons_of_neg (by simp [same]), transduce,
        ← others s x k (Ne.symm same), ← rest]
      simp only [List.filter_append, none, List.nil_append]

theorem perm_of_filter_key [DecidableEq α] (key : α → κ) {xs ys : List α}
    (same : ∀ k, xs.filter (fun x => key x = k) = ys.filter fun x => key x = k) :
    xs.Perm ys := by
  rw [List.perm_iff_count]
  intro a
  have equal := congrArg (List.count a) (same (key a))
  rwa [List.count_filter (by simp), List.count_filter (by simp)] at equal

/-- When the items of each message alone make the machine tell the message, any interleaving
of the messages makes it tell each of them once. -/
theorem transduce_interleaving {μ γ : Type} [DecidableEq γ] {messages : List μ}
    {name : μ → κ} {sequence : μ → List α} {message : μ → γ} {tell : ω → γ} (label : γ → κ)
    {xs : List α} {s : σ} (interleaving : Interleaving (messages.map sequence) xs)
    (distinct : (messages.map name).Nodup)
    (keyed : ∀ m ∈ messages, ∀ x ∈ sequence m, key x = name m)
    (own : ∀ s x, (part (key x) (step s x).1, (step s x).2) = partStep (key x) (part (key x) s) x)
    (others : ∀ s x k, k ≠ key x → part k (step s x).1 = part k s)
    (tagged : ∀ s x, ∀ o ∈ (step s x).2, tag o = key x)
    (each : ∀ m ∈ messages,
      (transduce (partStep (name m)) (part (name m) s) (sequence m)).2.map tell = [message m])
    (labels : ∀ o, label (tell o) = tag o) (named : ∀ m, label (message m) = name m) :
    ((transduce step s xs).2.map tell).Perm (messages.map message) := by
  apply perm_of_filter_key label
  intro k
  have outputs := congrArg Prod.snd (transduce_part part partStep own others tagged k xs s)
  simp only [List.filter_map, Function.comp_def, labels, named] at outputs ⊢
  rw [outputs]
  by_cases sent : ∃ m ∈ messages, name m = k
  · obtain ⟨m, member, rfl⟩ := sent
    have alone : (messages.map fun m => [m]).flatten.filter (fun n => name n = name m) = [m] :=
      (Interleaving.flatten _).filter_key distinct (by simp) member
    rw [← List.flatMap_def, List.flatMap_singleton'] at alone
    rw [interleaving.filter_key distinct keyed member, each m member, alone]
    rfl
  · have silent : (xs.filter fun x => key x = k) = [] := by
      rw [List.filter_eq_nil_iff]
      intro x listed same
      obtain ⟨_, among, inside⟩ := interleaving.mem_iff.mp listed
      obtain ⟨m, member, rfl⟩ := List.mem_map.mp among
      exact sent ⟨m, member, (keyed m member x inside).symm.trans (of_decide_eq_true same)⟩
    have unsent : (messages.filter fun m => name m = k) = [] := by
      rw [List.filter_eq_nil_iff]
      intro m member same
      exact sent ⟨m, member, of_decide_eq_true same⟩
    rw [silent, unsent]
    rfl

end

end FbThrift
