import FbThrift.Lib.PrefixCode

/-!
# Framings of a stream

A `Framing` writes items behind each other so that a complete item can be taken off the
front of whatever has arrived.  A stream then has one sequence of complete items and one
rest, and a reader is right as soon as it keeps the equation "what arrived is the items
it gave out followed by what it holds".

`Turn` and `iterate` are loops that stop, go on or throw, with the rule that carries an
invariant from the first turn to the last.
-/

namespace FbThrift

/-! ## Complete items of a stream -/

/-- Items that can be told from the front of a stream. -/
structure Framing (α β : Type) where
  Valid : β → Prop
  encode : β → List α
  next : List α → Option (β × List α)
  encode_ne_nil : ∀ b, encode b ≠ []
  next_encode : ∀ {b} (rest : List α), Valid b → next (encode b ++ rest) = some (b, rest)
  of_next : ∀ {s b rest}, next s = some (b, rest) → Valid b ∧ s = encode b ++ rest

namespace Framing

variable {α β : Type} (framing : Framing α β)

/-- Items behind each other. -/
def encodeAll (items : List β) : List α := (items.map framing.encode).flatten

@[simp] theorem encodeAll_nil : framing.encodeAll [] = [] := rfl

@[simp] theorem encodeAll_cons (item : β) (items : List β) :
    framing.encodeAll (item :: items) = framing.encode item ++ framing.encodeAll items := rfl

@[simp] theorem encodeAll_append (items more : List β) :
    framing.encodeAll (items ++ more) = framing.encodeAll items ++ framing.encodeAll more := by
  simp [encodeAll]

theorem length_of_next {s rest : List α} {b : β} (found : framing.next s = some (b, rest)) :
    rest.length < s.length := by
  obtain ⟨-, rfl⟩ := framing.of_next found
  have := List.length_pos_of_ne_nil (framing.encode_ne_nil b)
  simp only [List.length_append]
  omega

/-- All complete items of a stream, and what is left behind them. -/
def split (s : List α) : List β × List α :=
  match _found : framing.next s with
  | none => ([], s)
  | some (b, rest) => (b :: (split rest).1, (split rest).2)
termination_by s.length
decreasing_by all_goals exact framing.length_of_next _found

theorem split_of_none {s : List α} (stuck : framing.next s = none) : framing.split s = ([], s) := by
  rw [split]
  split
  · rfl
  · rename_i found
    rw [stuck] at found
    cases found

theorem split_of_some {s rest : List α} {b : β} (found : framing.next s = some (b, rest)) :
    framing.split s = (b :: (framing.split rest).1, (framing.split rest).2) := by
  rw [split]
  split
  · rename_i stuck
    rw [found] at stuck
    cases stuck
  · rename_i found'
    rw [found] at found'
    cases found'
    rfl

theorem split_encodeAll {items : List β} {rest : List α} (valid : ∀ b ∈ items, framing.Valid b)
    (stuck : framing.next rest = none) :
    framing.split (framing.encodeAll items ++ rest) = (items, rest) := by
  induction items with
  | nil => exact framing.split_of_none stuck
  | cons item items ih =>
    have found : framing.next (framing.encodeAll (item :: items) ++ rest) =
        some (item, framing.encodeAll items ++ rest) := by
      rw [encodeAll_cons, List.append_assoc]
      exact framing.next_encode _ (valid item (by simp))
    rw [framing.split_of_some found, ih fun b member => valid b (by simp [member])]

/-- What was split off is valid and written in front of the rest, which has no complete
item. -/
theorem split_spec (s : List α) : s = framing.encodeAll (framing.split s).1 ++ (framing.split s).2 ∧
      (∀ b ∈ (framing.split s).1, framing.Valid b) ∧
      framing.next (framing.split s).2 = none := by
  induction s using split.induct framing with
  | case1 s stuck =>
    rw [framing.split_of_none stuck]
    exact ⟨by simp, by simp, stuck⟩
  | case2 s b rest found ih =>
    rw [framing.split_of_some found]
    obtain ⟨valid, same⟩ := framing.of_next found
    obtain ⟨restSame, restValid, stuck⟩ := ih
    refine ⟨?_, ?_, stuck⟩
    · rw [encodeAll_cons, List.append_assoc, ← restSame]
      exact same
    · intro c member
      rcases List.mem_cons.mp member with rfl | member
      · exact valid
      · exact restValid c member

/-- A cut of a stream between items splits the two parts apart. -/
theorem split_encodeAll_append {items : List β} (valid : ∀ b ∈ items, framing.Valid b)
    (s : List α) :
    framing.split (framing.encodeAll items ++ s) =
      (items ++ (framing.split s).1, (framing.split s).2) := by
  obtain ⟨same, restValid, stuck⟩ := framing.split_spec s
  have whole : framing.encodeAll items ++ s =
      framing.encodeAll (items ++ (framing.split s).1) ++ (framing.split s).2 := by
    rw [encodeAll_append, List.append_assoc, ← same]
  rw [whole]
  refine framing.split_encodeAll ?_ stuck
  intro b member
  rcases List.mem_append.mp member with member | member
  · exact valid b member
  · exact restValid b member

end Framing

/-! ## Loops -/

/-- What one turn of a loop did. -/
inductive Turn (σ : Type) where
  | again (s : σ)
  | stop (s : σ)
  | threw (s : σ)

/-- The state a turn left. -/
def Turn.state {σ : Type} : Turn σ → σ
  | .again s => s
  | .stop s => s
  | .threw s => s

section Loop

variable {σ : Type}

/-- The turns of a loop up to the first that does not go on: whether it returned, and the
state it left. -/
def iterate (body : σ → Turn σ) (size : σ → Nat)
    (shrinks : ∀ s t, body s = .again t → size t < size s) (s : σ) : Bool × σ :=
  match _turn : body s with
  | .again t => iterate body size shrinks t
  | .stop t => (true, t)
  | .threw t => (false, t)
termination_by size s
decreasing_by exact shrinks _ _ _turn

variable {body : σ → Turn σ} {size : σ → Nat}
variable {shrinks : ∀ s t, body s = .again t → size t < size s} {s t : σ}

theorem iterate_of_again (turn : body s = .again t) :
    iterate body size shrinks s = iterate body size shrinks t := by
  rw [iterate]
  split <;> simp_all

theorem iterate_of_stop (turn : body s = .stop t) : iterate body size shrinks s = (true, t) := by
  rw [iterate]
  split <;> simp_all

theorem iterate_of_threw (turn : body s = .threw t) : iterate body size shrinks s = (false, t) := by
  rw [iterate]
  split <;> simp_all

/-- What every turn keeps holds when the loop is over, with what a turn that stops
establishes when the loop returned and what a turn that throws establishes when not. -/
theorem iterate_spec {Inv Stopped Threw : σ → Prop}
    (step : ∀ s, Inv s → Inv (body s).state ∧ (∀ t, body s = .stop t → Stopped t) ∧
      ∀ t, body s = .threw t → Threw t)
    (holds : Inv s) :
    Inv (iterate body size shrinks s).2 ∧
      ((iterate body size shrinks s).1 = true → Stopped (iterate body size shrinks s).2) ∧
      ((iterate body size shrinks s).1 = false → Threw (iterate body size shrinks s).2) := by
  induction s using iterate.induct body size shrinks with
  | case1 s t turn ih =>
    have next := (step s holds).1
    rw [turn] at next
    rw [iterate_of_again turn]
    exact ih next
  | case2 s t turn =>
    obtain ⟨next, stopped, -⟩ := step s holds
    rw [turn] at next
    rw [iterate_of_stop turn]
    exact ⟨next, fun _ => stopped t turn, nofun⟩
  | case3 s t turn =>
    obtain ⟨next, -, threw⟩ := step s holds
    rw [turn] at next
    rw [iterate_of_threw turn]
    exact ⟨next, nofun, fun _ => threw t turn⟩

/-- A loop none of whose turns throws returns, in a state that the turn which stops establishes. -/
theorem iterate_stops {Inv Stopped : σ → Prop}
    (step : ∀ s, Inv s → (∀ t, body s = .again t → Inv t) ∧
      (∀ t, body s = .stop t → Stopped t) ∧ ∀ t, body s ≠ .threw t)
    (holds : Inv s) :
    ∃ t, iterate body size shrinks s = (true, t) ∧ Stopped t := by
  induction s using iterate.induct body size shrinks with
  | case1 s t turn ih =>
    rw [iterate_of_again turn]
    exact ih ((step s holds).1 t turn)
  | case2 s t turn => exact ⟨t, iterate_of_stop turn, (step s holds).2.1 t turn⟩
  | case3 s t turn => exact absurd turn ((step s holds).2.2 t)

theorem iterate_invariant {Inv : σ → Prop} (step : ∀ s, Inv s → Inv (body s).state)
    (holds : Inv s) : Inv (iterate body size shrinks s).2 :=
  have run := @iterate_spec σ body size shrinks s Inv (fun _ => True) (fun _ => True)
    (fun s holds => ⟨step s holds, fun _ _ => trivial, fun _ _ => trivial⟩) holds
  run.1

end Loop

end FbThrift
