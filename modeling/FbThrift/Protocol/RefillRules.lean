import FbThrift.Protocol.CarefulReader

/-!
# Reading with refills as with all bytes at hand

`Agrees x c y` joins a read of the plain reader, of the careful reader and of the refilling
reader.  Where the careful reader succeeds the plain one does, and the refilling one answers the
same whatever the chunk is and however much the refiller returns.  Where only the plain one
succeeds there is a chunk with which the refilling one fails.  The length of the chunk is followed
exactly for a refiller that returns no more than it must, so that the joint reads compose.
-/

namespace FbThrift

open Decoder ProtocolReaderWithRefill

variable {α β : Type} {extra : Nat → Nat}

/-! ## Chunks -/

/-- The refiller returns no more than it must. -/
def Scant (extra : Nat → Nat) : Prop := ∀ i, extra i = 0

/-- The chunk has at least `n` bytes, and no more if the refiller is scant. -/
def Refilling.Holds (extra : Nat → Nat) (s : Refilling) (n : Nat) : Prop :=
  n ≤ s.length ∧ (Scant extra → s.length = n)

namespace Refilling

variable {s t : Refilling} {r : Reader}

theorem length_whole (s : Refilling) : s.whole.input.length = s.length + s.rest.length :=
  List.length_append

/-- The state of the reader is that of the chunk. -/
theorem reader_eq (s : Refilling) : s.reader = s.whole.withInput s.reader.input := rfl

end Refilling

/-- What is ensured: the bytes stay the same and the chunk holds `n` of them. -/
def Ensures (extra : Nat → Nat) (ensure : RefillM Unit) (s : Refilling) (n : Nat) : Prop :=
  ∃ t, ensure s = .ok ((), t) ∧ t.whole = s.whole ∧ t.Holds extra (max s.length n)

namespace Ensures

variable {s : Refilling} {n : Nat}

theorem nothing (enough : n ≤ s.length) : Ensures extra (pure ()) s n :=
  ⟨s, rfl, rfl, Nat.max_le.mpr ⟨Nat.le_refl _, enough⟩, fun _ => (Nat.max_eq_left enough).symm⟩

theorem buffer (small : n < 2 ^ 32) (inside : n ≤ s.whole.input.length) :
    Ensures extra (ensureBuffer extra n) s n := by
  rw [Refilling.length_whole] at inside
  have size : n % 2 ^ 32 = n := Nat.mod_eq_of_lt small
  unfold ensureBuffer Ensures
  simp only [size]
  split
  next enough => exact Ensures.nothing enough
  next short =>
    obtain ⟨more, isMore⟩ : ∃ more, more = n - s.length + extra s.refills := ⟨_, rfl⟩
    rw [← isMore]
    refine ⟨_, rfl, ?_, ?_, fun scant => ?_⟩
    · simp only [Refilling.whole, Reader.input_withInput, Reader.withInput_withInput,
        List.append_assoc, List.take_append_drop]
    · simp only [Refilling.length, Reader.input_withInput, List.length_append,
        List.length_take] at *
      omega
    · rw [scant] at isMore
      simp only [Refilling.length, Reader.input_withInput, List.length_append,
        List.length_take] at *
      omega

theorem reading {g : Refilling → RefillM Unit} (ensured : Ensures extra (g s) s n) :
    Ensures extra (get >>= g) s n := ensured

theorem bind {first : RefillM Unit} {next : Unit → RefillM Unit} {m : Nat} (le : m ≤ n)
    (ensured : Ensures extra first s m)
    (rest : ∀ t, t.whole = s.whole → t.Holds extra (max s.length m) →
      Ensures extra (next ()) t n) : Ensures extra (first >>= next) s n := by
  obtain ⟨t, done, whole, least, exact⟩ := ensured
  obtain ⟨u, done', whole', least', exact'⟩ := rest t whole ⟨least, exact⟩
  refine ⟨u, by rw [Run.bind_of_ok done, done'], whole'.trans whole, by omega, fun scant => ?_⟩
  rw [exact' scant, exact scant]
  omega

end Ensures

/-! ## Three readers -/

/-- What the plain, the careful and the refilling reader make of one read. -/
structure Agrees (extra : Nat → Nat) (x : ReadM α) (c : CarefulM α) (y : RefillM α) : Prop where
  /-- The careful reader reads what the plain one does. -/
  careful : ∀ {r h a r' h'}, c ⟨r, h⟩ = .ok (a, ⟨r', h'⟩) →
    x r = .ok (a, r') ∧ h.toNat + r'.input.length ≤ r.input.length + h'.toNat
  shrinks : ∀ {r a r'}, x r = .ok (a, r') → r'.input.length ≤ r.input.length
  /-- Where the careful reader succeeds the refilling one does. -/
  follows : ∀ {r h a r' h'}, c ⟨r, h⟩ = .ok (a, ⟨r', h'⟩) → ∀ s : Refilling, s.whole = r →
    h.toNat ≤ s.length → ∃ t, y s = .ok (a, t) ∧ t.whole = r' ∧
      t.Holds extra (max (s.length - (r.input.length - r'.input.length)) h'.toNat)
  /-- Where it fails there is a chunk with which the refilling one fails. -/
  fails : ∀ {r h a r' err}, x r = .ok (a, r') → c ⟨r, h⟩ = .error err →
    ∃ n ≤ r.input.length, Scant extra → ∀ s : Refilling, s.whole = r →
      s.length = max n h.toNat → ∃ err, y s = .error err

namespace Agrees

variable {x : ReadM α} {c : CarefulM α} {y : RefillM α}

theorem pure (a : α) : Agrees extra (pure a) (pure a) (pure a) where
  careful ok := by
    cases ok
    exact ⟨rfl, Nat.le_of_eq (Nat.add_comm _ _)⟩
  shrinks ok := by
    cases ok
    exact Nat.le_refl _
  follows ok s whole held := by
    cases ok
    rw [Nat.sub_self, Nat.sub_zero, Nat.max_eq_left held]
    exact ⟨s, rfl, whole, Nat.le_refl _, fun _ => rfl⟩
  fails _ failed := by cases failed

theorem throw (err : String) : Agrees extra (throw err : ReadM α) (throw err) (throw err) where
  careful ok := by cases ok
  shrinks ok := by cases ok
  follows ok := by cases ok
  fails ok := by cases ok

theorem bind {f : α → ReadM β} {g : α → CarefulM β} {k : α → RefillM β}
    (first : Agrees extra x c y) (second : ∀ a, Agrees extra (f a) (g a) (k a)) :
    Agrees extra (x >>= f) (c >>= g) (y >>= k) where
  careful ok := by
    obtain ⟨a, ⟨r₁, h₁⟩, done, more⟩ := Run.bind_ok ok
    obtain ⟨read, step⟩ := first.careful done
    obtain ⟨read', step'⟩ := (second a).careful more
    exact ⟨by rw [Run.bind_of_ok read, read'], by omega⟩
  shrinks ok := by
    obtain ⟨a, r₁, read, more⟩ := Run.bind_ok ok
    exact Nat.le_trans ((second a).shrinks more) (first.shrinks read)
  follows ok s whole held := by
    obtain ⟨a, ⟨r₁, h₁⟩, done, more⟩ := Run.bind_ok ok
    obtain ⟨t, reads, wholeT, leastT, exactT⟩ := first.follows done s whole held
    obtain ⟨u, reads', wholeU, leastU, exactU⟩ :=
      (second a).follows more t wholeT (by omega)
    have shrinks := first.shrinks (first.careful done).1
    obtain ⟨read', step'⟩ := (second a).careful more
    have shrinks' := (second a).shrinks read'
    refine ⟨u, by rw [Run.bind_of_ok reads, reads'], wholeU, by omega, fun scant => ?_⟩
    rw [exactU scant, exactT scant]
    omega
  fails ok failed := by
    rename_i r h b r₂ err
    obtain ⟨a, r₁, read, more⟩ := Run.bind_ok ok
    cases done : c ⟨r, h⟩ with
    | error err' =>
      obtain ⟨n, inside, fails⟩ := first.fails read done
      refine ⟨n, inside, fun scant s whole length => ?_⟩
      obtain ⟨err', failed'⟩ := fails scant s whole length
      exact ⟨err', Run.bind_of_error failed'⟩
    | ok pair =>
      obtain ⟨a', r₁', h₁⟩ := pair
      obtain ⟨read', step⟩ := first.careful done
      cases read.symm.trans read'
      rw [Run.bind_of_ok done] at failed
      obtain ⟨n, inside, fails⟩ := (second a).fails more failed
      have shrinks := first.shrinks read
      refine ⟨r.input.length - r₁.input.length + n, by omega,
        fun scant s whole length => ?_⟩
      obtain ⟨t, reads, wholeT, leastT, exactT⟩ := first.follows done s whole (by omega)
      have lengthT := exactT scant
      obtain ⟨err', failed'⟩ := fails scant t wholeT (by omega)
      exact ⟨err', by rw [Run.bind_of_ok reads, failed']⟩

theorem map (agrees : Agrees extra x c y) (g : α → β) :
    Agrees extra (g <$> x) (g <$> c) (g <$> y) :=
  agrees.bind fun a => .pure (g a)

theorem seq {x' : ReadM β} {c' : CarefulM β} {y' : RefillM β} (first : Agrees extra x c y)
    (second : Agrees extra x' c' y') :
    Agrees extra (x >>= fun _ => x') (c >>= fun _ => c') (y >>= fun _ => y') :=
  first.bind fun _ => second

theorem ite {p : Prop} [Decidable p] {x' : ReadM α} {c' : CarefulM α} {y' : RefillM α}
    (yes : Agrees extra x c y) (no : Agrees extra x' c' y') :
    Agrees extra (if p then x else x') (if p then c else c') (if p then y else y') := by
  split
  · exact yes
  · exact no

end Agrees

/-! ## Calls of the chunk -/

section Chunk

variable {x : ReadM α} {r r' : Reader} {a : α} {s : Refilling}

/-- A call succeeds on a chunk that holds what it takes. -/
theorem protocol_of_enough (reads : Local x) (ok : x s.whole = .ok (a, r'))
    (enough : s.whole.input.length ≤ s.length + r'.input.length) :
    ∃ t, protocol x s = .ok (a, t) ∧ t.whole = r' ∧
      t.length + s.whole.input.length = s.length + r'.input.length := by
  obtain ⟨left, read, split⟩ := reads.of_prefix ok (rfl : _ = s.reader.input ++ s.rest) enough
  refine ⟨{ s with reader := r'.withInput left }, ?_, ?_, ?_⟩
  · unfold protocol
    rw [s.reader_eq, read]
  · rw [Refilling.whole, Reader.withInput_withInput, Reader.input_withInput, ← split,
      Reader.withInput_input]
  · rw [Refilling.length_whole, split, List.length_append]
    change left.length + _ = _
    omega

/-- A call fails on a chunk that holds less. -/
theorem protocol_of_short (reads : Local x) (ok : x s.whole = .ok (a, r'))
    (short : s.length + r'.input.length < s.whole.input.length) :
    ∃ err, protocol x s = .error err := by
  obtain ⟨err, failed⟩ := reads.fails_of_prefix ok (rfl : _ = s.reader.input ++ s.rest) short
  refine ⟨err, ?_⟩
  unfold protocol
  rw [s.reader_eq, failed]

theorem Careful.readUnless_ok {refused : Reader → Bool → Bool} {h h' : Bool}
    (ok : readUnless refused x ⟨r, h⟩ = .ok (a, ⟨r', h'⟩)) :
    refused r h = false ∧ x r = .ok (a, r') ∧ h' = passed h r r' := by
  unfold readUnless at ok
  split at ok
  · cases ok
  next allowed =>
    cases read : x r with
    | error err =>
      rw [read] at ok
      cases ok
    | ok pair =>
      rw [read] at ok
      cases ok
      exact ⟨Bool.eq_false_iff.mpr allowed, rfl, rfl⟩

theorem Careful.toNat_passed {h : Bool} (le : r'.input.length ≤ r.input.length) :
    h.toNat + r'.input.length ≤ r.input.length + (passed h r r').toNat ∧
      (r'.input.length < r.input.length → passed h r r' = false) ∧
      (r'.input.length = r.input.length → passed h r r' = h) := by
  unfold passed
  refine ⟨?_, fun less => ?_, fun same => ?_⟩
  · by_cases same : r'.input.length = r.input.length
    · rw [same, beq_self_eq_true, Bool.and_true]
      omega
    · have one := Bool.toNat_le h
      rw [beq_false_of_ne same, Bool.and_false, Bool.toNat_false]
      omega
  · rw [beq_false_of_ne (Nat.ne_of_lt less), Bool.and_false]
  · rw [same, beq_self_eq_true, Bool.and_true]

end Chunk

namespace Agrees

variable {x : ReadM α} {ensure : RefillM Unit} {refused : Reader → Bool → Bool}

/-- What the read takes, and the byte ahead, are ensured before it. -/
theorem after {c : CarefulM α} (local_ : Local x)
    (careful : ∀ {r h a r' h'}, c ⟨r, h⟩ = .ok (a, ⟨r', h'⟩) →
      x r = .ok (a, r') ∧ h.toNat + r'.input.length ≤ r.input.length + h'.toNat)
    (provided : ∀ {r h a r' h'}, c ⟨r, h⟩ = .ok (a, ⟨r', h'⟩) → ∀ s : Refilling, s.whole = r →
      h.toNat ≤ s.length →
      Ensures extra ensure s (r.input.length - r'.input.length + h'.toNat))
    (missing : ∀ {r h a r' err}, x r = .ok (a, r') → c ⟨r, h⟩ = .error err →
      ∃ n ≤ r.input.length, Scant extra → ∀ s : Refilling, s.whole = r →
        s.length = max n h.toNat → ∃ err, (ensure >>= fun _ => protocol x) s = .error err) :
    Agrees extra x c (ensure >>= fun _ => protocol x) where
  careful := careful
  shrinks := local_.length_le
  follows ok s whole held := by
    obtain ⟨read, _⟩ := careful ok
    have shrinks := local_.length_le read
    obtain ⟨t, ensured, wholeT, least, exact⟩ := provided ok s whole held
    rw [← whole, ← wholeT] at read
    obtain ⟨u, done, wholeU, length⟩ := protocol_of_enough local_ read (by
      rw [wholeT, whole]
      omega)
    rw [wholeT, whole] at length
    refine ⟨u, by rw [Run.bind_of_ok ensured, done], wholeU, by omega, fun scant => ?_⟩
    have exactly := exact scant
    omega
  fails := missing

theorem reads (local_ : Local x)
    (provided : ∀ {r h a r'}, x r = .ok (a, r') → refused r h = false → ∀ s : Refilling,
      s.whole = r → h.toNat ≤ s.length →
      Ensures extra ensure s (r.input.length - r'.input.length))
    (missing : ∀ {r h a r'}, x r = .ok (a, r') → refused r h = true →
      ∃ n ≤ r.input.length, Scant extra → ∀ s : Refilling, s.whole = r →
        s.length = max n h.toNat → ∃ t, ensure s = .ok ((), t) ∧ t.whole = r ∧
          t.length + r'.input.length < r.input.length) :
    Agrees extra x (Careful.readUnless refused x) (ensure >>= fun _ => protocol x) := by
  refine .after local_ (fun ok => ?_) (fun {r h a r' h'} ok s whole held => ?_)
    fun {r h a r' err} ok failed => ?_
  · obtain ⟨_, read, rfl⟩ := Careful.readUnless_ok ok
    exact ⟨read, (Careful.toNat_passed (local_.length_le read)).1⟩
  · obtain ⟨allowed, read, rfl⟩ := Careful.readUnless_ok ok
    have shrinks := local_.length_le read
    obtain ⟨_, less, same⟩ := Careful.toNat_passed (h := h) shrinks
    have ensured := provided read allowed s whole held
    rcases Nat.lt_or_eq_of_le shrinks with below | equal
    · rw [less below]
      exact ensured
    · obtain ⟨t, done, wholeT, least, exact⟩ := ensured
      rw [same equal]
      refine ⟨t, done, wholeT, by omega, fun scant => ?_⟩
      have exactly := exact scant
      omega
  · cases refuses : refused r h with
    | false =>
      unfold Careful.readUnless at failed
      simp only [refuses, ok] at failed
      cases failed
    | true =>
      obtain ⟨n, inside, short⟩ := missing ok refuses
      refine ⟨n, inside, fun scant s whole length => ?_⟩
      obtain ⟨t, ensured, wholeT, below⟩ := short scant s whole length
      rw [← wholeT] at ok
      obtain ⟨err', failed'⟩ := protocol_of_short local_ ok (by rw [wholeT]; exact below)
      exact ⟨err', by rw [Run.bind_of_ok ensured, failed']⟩

theorem read (local_ : Local x)
    (provided : ∀ {r a r'}, x r = .ok (a, r') → ∀ s : Refilling, s.whole = r →
      Ensures extra ensure s (r.input.length - r'.input.length)) :
    Agrees extra x (Careful.read x) (ensure >>= fun _ => protocol x) :=
  .reads local_ (fun ok _ s whole _ => provided ok s whole) fun _ refuses => by cases refuses

theorem fixed {k : Nat} (local_ : Local x) (takes : Advances x k) (small : k < 2 ^ 32) :
    Agrees extra x (Careful.read x) (ensureBuffer extra k >>= fun _ => protocol x) := by
  refine .read local_ fun ok s whole => ?_
  have length := takes ok
  rw [← whole] at length ⊢
  rw [length, Nat.add_sub_cancel]
  exact .buffer small (by omega)

/-- What takes no bytes needs none. -/
theorem unmoved (local_ : Local x) (takes : Advances x 0) :
    Agrees extra x (Careful.read x) (protocol x) := by
  have agrees : Agrees extra x (Careful.read x)
      ((Pure.pure () : RefillM Unit) >>= fun _ => protocol x) :=
    .read local_ fun ok s whole => .nothing (by rw [takes ok]; omega)
  exact agrees

end Agrees

end FbThrift
