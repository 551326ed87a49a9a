import FbThrift.Lib.Decoder

/-!
# How far a decoder reaches

A section of a frame is read by a decoder that also sees the bytes behind the section.  A walk
follows the decoder over the section alone: it takes the same counts and lengths from the bytes
and keeps nothing else.  Where the walk succeeds, or stops within the section, the decoder does
the same whatever comes behind.  Where the walk runs past the end, the decoder fails without more
bytes and goes on when enough zeros follow, so what it does depends on them.
-/

namespace FbThrift

namespace Decoder

/-- So many bytes of zero. -/
def zeros (k : Nat) : Bytes := List.replicate k 0

theorem zeros_add (k m : Nat) : zeros (k + m) = zeros k ++ zeros m :=
  List.replicate_add k m 0

@[simp] theorem length_zeros (k : Nat) : (zeros k).length = k := List.length_replicate

/-- The end of a walk: a failure that the section itself causes, or its end. -/
inductive Halt where
  | within
  | past
deriving DecidableEq

/-- Goes over the bytes of a section. -/
abbrev Walk (α : Type) := StateT Bytes (Except Halt) α

namespace Walk

/-- The walk of `readVarint`. -/
def varint (bits : Nat) : Walk Nat := fun input =>
  match readVarint bits input with
  | .ok p => .ok p
  | .error _ => .error (if input.length < varintMaxBytes bits then .past else .within)

/-- The walk of a reader of `n` bytes. -/
def skip (n : Nat) : Walk Unit := fun input =>
  if n ≤ input.length then .ok ((), input.drop n) else .error .past

/-- The walk of `n` readers, one after the other. -/
def times (w : Walk Unit) : Nat → Walk Unit
  | 0 => pure ()
  | n + 1 => do
    w
    times w n

end Walk

variable {α β γ δ : Type} {w : Walk β} {x : Decoder α} {g : β → Walk δ} {f : α → Decoder γ}
  {rel : β → α → Prop} {rel' : δ → γ → Prop} {input rest : Bytes} {a : α}

/-- The decoder reads the zeros that it asks for. -/
def OnZeros (x : Decoder α) : Prop :=
  ∃ a k, ∀ m, x (zeros (k + m)) = .ok (a, zeros m)

/-- The walk tells what the decoder does with bytes behind the section. -/
structure Follows (w : Walk β) (x : Decoder α) (rel : β → α → Prop) : Prop where
  ok : ∀ {input b rest}, w input = .ok (b, rest) →
    ∃ a, rel b a ∧ ∀ behind, x (input ++ behind) = .ok (a, rest ++ behind)
  within : ∀ {input}, w input = .error .within → ∃ err, ∀ behind, x (input ++ behind) = .error err
  past : ∀ {input}, w input = .error .past → (∃ err, x input = .error err) ∧
      ∃ a k, 0 < k ∧ ∀ m, x (input ++ zeros (k + m)) = .ok (a, zeros m)

/-! ## Sequences -/

theorem Walk.bind_of_ok {b : β} (ran : w input = .ok (b, rest)) : (w >>= g) input = g b rest := by
  change (w input >>= fun p => g p.1 p.2) = _
  rw [ran]
  rfl

theorem Walk.bind_of_error {halt : Halt} (ran : w input = .error halt) :
    (w >>= g) input = .error halt := by
  change (w input >>= fun p => g p.1 p.2) = _
  rw [ran]
  rfl

theorem OnZeros.pure (a : α) : OnZeros (pure a : Decoder α) :=
  ⟨a, 0, fun m => by rw [Nat.zero_add]; rfl⟩

theorem OnZeros.bind (first : OnZeros x) (second : ∀ a, OnZeros (f a)) : OnZeros (x >>= f) := by
  obtain ⟨a, k, ran⟩ := first
  obtain ⟨c, k', ran'⟩ := second a
  refine ⟨c, k + k', fun m => ?_⟩
  rw [Nat.add_assoc, Run.bind_of_ok (ran (k' + m)), ran' m]

theorem Follows.pure {b : β} (holds : rel b a) : Follows (pure b : Walk β) (pure a) rel where
  ok := by
    intro input b' rest ran
    cases ran
    exact ⟨a, holds, fun _ => rfl⟩
  within := nofun
  past := nofun

theorem Follows.bind (first : Follows w x rel)
    (second : ∀ b a, rel b a → Follows (g b) (f a) rel') (onZeros : ∀ a, OnZeros (f a)) :
    Follows (w >>= g) (x >>= f) rel' where
  ok := by
    intro input d rest ran
    cases walked : w input with
    | error halt =>
      rw [Walk.bind_of_error walked] at ran
      cases ran
    | ok p =>
      rw [Walk.bind_of_ok walked] at ran
      obtain ⟨a, related, reads⟩ := first.ok walked
      obtain ⟨c, related', reads'⟩ := (second p.1 a related).ok ran
      refine ⟨c, related', fun behind => ?_⟩
      rw [Run.bind_of_ok (reads behind), reads' behind]
  within := by
    intro input ran
    cases walked : w input with
    | error halt =>
      rw [Walk.bind_of_error walked] at ran
      cases ran
      obtain ⟨err, fails⟩ := first.within walked
      exact ⟨err, fun behind => Run.bind_of_error (fails behind)⟩
    | ok p =>
      rw [Walk.bind_of_ok walked] at ran
      obtain ⟨a, related, reads⟩ := first.ok walked
      obtain ⟨err, fails⟩ := (second p.1 a related).within ran
      refine ⟨err, fun behind => ?_⟩
      rw [Run.bind_of_ok (reads behind), fails behind]
  past := by
    intro input ran
    cases walked : w input with
    | error halt =>
      rw [Walk.bind_of_error walked] at ran
      cases ran
      obtain ⟨⟨err, fails⟩, a, k, positive, reads⟩ := first.past walked
      obtain ⟨c, k', reads'⟩ := onZeros a
      refine ⟨⟨err, Run.bind_of_error fails⟩, c, k + k', by omega, fun m => ?_⟩
      rw [Nat.add_assoc, Run.bind_of_ok (reads (k' + m)), reads' m]
    | ok p =>
      rw [Walk.bind_of_ok walked] at ran
      obtain ⟨a, related, reads⟩ := first.ok walked
      obtain ⟨⟨err, fails⟩, c, k, positive, reads'⟩ := (second p.1 a related).past ran
      have alone := reads []
      rw [List.append_nil, List.append_nil] at alone
      refine ⟨⟨err, ?_⟩, c, k, positive, fun m => ?_⟩
      · rw [Run.bind_of_ok alone, fails]
      · rw [Run.bind_of_ok (reads _), reads' m]

/-! ## Varints -/

theorem readVarintLoop_append {bits left shift result : Nat} {err : String}
    (fails : readVarintLoop bits left shift result input = .error err) :
    if input.length < left then
      ∃ n, ∀ behind, readVarintLoop bits left shift result (input ++ 0 :: behind) = .ok (n, behind)
    else ∃ err, ∀ behind, readVarintLoop bits left shift result (input ++ behind) = .error err := by
  induction left generalizing shift result input with
  | zero => exact ⟨_, fun _ => rfl⟩
  | succ left ih =>
    cases input with
    | nil => exact ⟨_, fun _ => rfl⟩
    | cons byte input =>
      rw [readVarintLoop, Run.bind_of_ok (t := input) (a := byte) rfl] at fails
      simp only [List.length_cons, Nat.add_lt_add_iff_right, List.cons_append]
      split at fails
      next => cases fails
      next continues =>
        have rest := ih fails
        split at rest
        next short =>
          obtain ⟨n, reads⟩ := rest
          rw [if_pos short]
          refine ⟨n, fun behind => ?_⟩
          rw [readVarintLoop, Run.bind_of_ok (t := input ++ 0 :: behind) (a := byte) rfl]
          rw [if_neg continues]
          exact reads behind
        next long =>
          obtain ⟨err, fails⟩ := rest
          rw [if_neg long]
          refine ⟨err, fun behind => ?_⟩
          rw [readVarintLoop, Run.bind_of_ok (t := input ++ behind) (a := byte) rfl]
          rw [if_neg continues]
          exact fails behind

theorem onZeros_readVarint {bits : Nat} (digit : 0 < varintMaxBytes bits) :
    OnZeros (readVarint bits) := by
  obtain ⟨left, max⟩ := Nat.exists_eq_succ_of_ne_zero digit.ne'
  refine ⟨0, 1, fun m => ?_⟩
  have front : zeros (1 + m) = 0 :: zeros m := zeros_add 1 m
  rw [front, readVarint, max]
  change readVarintLoop bits (left + 1) 0 0 (0 :: zeros m) = _
  rw [readVarintLoop, Run.bind_of_ok (t := zeros m) (a := 0) rfl]
  simp

theorem follows_varint (bits : Nat) : Follows (Walk.varint bits) (readVarint bits) Eq where
  ok := by
    intro input n rest ran
    unfold Walk.varint at ran
    split at ran
    next p read =>
      cases ran
      obtain ⟨bs, rfl, -, decodes⟩ := consumes_readVarint bits _ _ _ read
      refine ⟨n, rfl, fun behind => ?_⟩
      rw [List.append_assoc]
      exact decodes (rest ++ behind)
    next => cases ran
  within := by
    intro input ran
    unfold Walk.varint at ran
    split at ran
    next => cases ran
    next err fails =>
      have whole := readVarintLoop_append fails
      split at ran
      next => cases ran
      next long => rwa [if_neg long] at whole
  past := by
    intro input ran
    unfold Walk.varint at ran
    split at ran
    next => cases ran
    next err fails =>
      have whole := readVarintLoop_append fails
      split at ran
      next short =>
        rw [if_pos short] at whole
        obtain ⟨n, reads⟩ := whole
        exact ⟨⟨err, fails⟩, n, 1, Nat.one_pos, fun m => by rw [zeros_add]; exact reads (zeros m)⟩
      next => cases ran

theorem Walk.varint_shorter {bits n : Nat} (ran : Walk.varint bits input = .ok (n, rest)) :
    rest.length < input.length := by
  unfold Walk.varint at ran
  split at ran
  next p read =>
    cases ran
    obtain ⟨bs, rfl, long, -⟩ := consumes_readVarint bits _ _ _ read
    rw [List.length_append]
    omega
  next => cases ran

end Decoder

end FbThrift
