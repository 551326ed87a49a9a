import FbThrift.Lib.ThreadPool

/-!
# A function that is called once

`ServerPublisherStream::CallOnceFunction`: any number of threads may `call()`, the first of them
runs the function, and `callOrJoin()` waits for it when another thread is running it.  The state
is one word; the thread that joins leaves a baton in it for the thread that runs.  A thread takes
one atomic access at a time.
-/

namespace FbThrift

namespace CallOnceFunction

/-- The type bits of `storage_`. -/
inductive Storage where
  | ready
  | inProgress
  | waiting
  | done
  deriving DecidableEq, Repr

/-- `storage_` and the baton, with how often the function was called, whether it has returned
and whether a `callOrJoin` has returned. -/
structure Shared where
  storage : Storage
  posted : Bool
  called : Nat
  finished : Bool
  joined : Bool
  deriving DecidableEq, Repr

/-- The next step of a thread in `call`, or in `callOrJoin` if it `joins`. -/
inductive Caller where
  | load (joins : Bool)
  /-- About to exchange `READY` for `IN_PROGRESS`. -/
  | exchange (joins : Bool)
  | run (joins : Bool)
  /-- About to exchange `IN_PROGRESS` for `DONE`. -/
  | release (joins : Bool)
  | post (joins : Bool)
  /-- In `callOrJoin` after `call`, about to load. -/
  | join
  /-- About to exchange `IN_PROGRESS` for the baton. -/
  | announce
  | wait
  /-- After the wait, at an exchange that is made in a `DCHECK` only. -/
  | complete
  deriving DecidableEq, Repr

/-- What a thread does after `call`. -/
@[simp] def afterCall (joins : Bool) : List Caller := if joins then [.join] else []

/-- The next step of a thread, where `checked` says that the `DCHECK`s are compiled. -/
def Caller.advance (s : Shared) (checked : Bool) : Caller → Shared × List Caller
  | .load joins => (s, if s.storage = .ready then [.exchange joins] else afterCall joins)
  | .exchange joins =>
    if s.storage = .ready then
      ({ s with storage := .inProgress, called := s.called + 1 }, [.run joins])
    else (s, afterCall joins)
  | .run joins => ({ s with finished := true }, [.release joins])
  | .release joins =>
    if s.storage = .inProgress then ({ s with storage := .done }, afterCall joins)
    else (s, [.post joins])
  | .post joins => ({ s with posted := true }, afterCall joins)
  | .join =>
    if s.storage = .inProgress then (s, [.announce]) else ({ s with joined := true }, [])
  | .announce =>
    if s.storage = .inProgress then ({ s with storage := .waiting }, [.wait])
    else ({ s with joined := true }, [])
  | .wait => (s, if s.posted then [.complete] else [.wait])
  | .complete =>
    ({ s with storage := if checked then .done else s.storage, joined := true }, [])

abbrev State := ThreadPool Shared Caller

def State.initial : State := ⟨⟨.ready, false, 0, false, false⟩, []⟩

/-- A thread takes a step. -/
def State.advance (s : State) (i : Nat) (checked : Bool) : State :=
  match s.threads[i]? with
  | some t => s.replace i (t.advance s.shared checked).1 (t.advance s.shared checked).2
  | none => s

/-- A thread enters `callOrJoin` if it `joins`, else `call`. -/
def State.call (s : State) (joins : Bool) : State := s.start s.shared (.load joins)

/-! ## What the threads do -/

namespace Caller

@[simp] def running : Caller → Int
  | run _ => 1
  | _ => 0

@[simp] def releasing : Caller → Int
  | release _ => 1
  | _ => 0

@[simp] def posting : Caller → Int
  | post _ => 1
  | _ => 0

@[simp] def waiting : Caller → Int
  | wait => 1
  | _ => 0

@[simp] def completing : Caller → Int
  | complete => 1
  | _ => 0

/-- In `callOrJoin` after `call`. -/
@[simp] def past : Caller → Int
  | join | announce => 1
  | _ => 0

/-- In `call`, called by `callOrJoin`. -/
@[simp] def calling : Caller → Int
  | load joins | exchange joins | run joins | release joins | post joins => if joins then 1 else 0
  | _ => 0

/-- In `callOrJoin`. -/
def joining (t : Caller) : Int := t.calling + t.past + t.waiting + t.completing

end Caller

/-- The phases of the call, with how many threads run the function, are about to release it or
to post, wait, have waited, and are in `callOrJoin` after `call`. -/
inductive Phase : Shared → (running releasing posting waiting completing past : Int) → Prop where
  | ready {joined : Bool} : Phase ⟨.ready, false, 0, false, joined⟩ 0 0 0 0 0 0
  | running {joined : Bool} (past : Int) :
      Phase ⟨.inProgress, false, 1, false, joined⟩ 1 0 0 0 0 past
  | releasing {joined : Bool} (past : Int) :
      Phase ⟨.inProgress, false, 1, true, joined⟩ 0 1 0 0 0 past
  | runningAwaited {joined : Bool} : Phase ⟨.waiting, false, 1, false, joined⟩ 1 0 0 1 0 0
  | releasingAwaited {joined : Bool} : Phase ⟨.waiting, false, 1, true, joined⟩ 0 1 0 1 0 0
  | posting {joined : Bool} : Phase ⟨.waiting, false, 1, true, joined⟩ 0 0 1 1 0 0
  | posted {joined : Bool} (waiting completing past : Int) :
      Phase ⟨.waiting, true, 1, true, joined⟩ 0 0 0 waiting completing past
  | done {posted joined : Bool} (past : Int) :
      Phase ⟨.done, posted, 1, true, joined⟩ 0 0 0 0 0 past

/-- The invariant, while at most one thread is in `callOrJoin`: one that has returned from it
has found the function finished. -/
structure Consistent (s : State) : Prop where
  oneJoins : s.total Caller.joining ≤ 1
  joined : s.shared.joined → s.shared.finished
  phase : Phase s.shared (s.total Caller.running) (s.total Caller.releasing)
    (s.total Caller.posting) (s.total Caller.waiting) (s.total Caller.completing)
    (s.total Caller.past)

section

variable {s : State} {i : Nat} {t : Caller}

theorem calling_nonneg (t : Caller) : 0 ≤ t.calling := by
  cases t with
  | load joins | exchange joins | run joins | release joins | post joins =>
    cases joins <;> simp
  | _ => simp

theorem total_joining (s : State) :
    s.total Caller.joining = s.total Caller.calling + s.total Caller.past +
      s.total Caller.waiting + s.total Caller.completing := by
  unfold Caller.joining
  rw [ThreadPool.total_add (fun t : Caller => t.calling + t.past + t.waiting),
    ThreadPool.total_add (fun t : Caller => t.calling + t.past),
    ThreadPool.total_add Caller.calling]

theorem weights_le_total (here : s.threads[i]? = some t) :
    t.running ≤ s.total Caller.running ∧ t.releasing ≤ s.total Caller.releasing ∧
      t.posting ≤ s.total Caller.posting ∧ t.waiting ≤ s.total Caller.waiting ∧
      t.completing ≤ s.total Caller.completing ∧ t.past ≤ s.total Caller.past := by
  refine ⟨?_, ?_, ?_, ?_, ?_, ?_⟩ <;>
    exact ThreadPool.weight_le_total (fun u => by cases u <;> simp) here

end

theorem Consistent.initial : Consistent State.initial where
  oneJoins := by decide
  joined := by decide
  phase := .ready

/-- No step brings another thread into `callOrJoin`. -/
theorem joining_advance (shared : Shared) (checked : Bool) (t : Caller) :
    ((t.advance shared checked).2.map Caller.joining).sum ≤ t.joining := by
  cases t with
  | load joins | exchange joins | run joins | release joins | post joins =>
    cases joins <;> simp only [Caller.advance] <;> (try split) <;> simp [Caller.joining]
  | join | announce | wait | complete =>
    simp only [Caller.advance]
    (try split) <;> simp [Caller.joining]

section

variable {shared : Shared} {running releasing posting waiting completing past joining : Int}
variable {checked : Bool}

/-- A thread leaves `call` once the function was taken by some thread. -/
theorem Phase.afterCall (phase : Phase shared running releasing posting waiting completing past)
    (taken : shared.storage ≠ .ready) (joins : Bool)
    (oneJoins : (if joins then 1 else 0) + past + waiting + completing ≤ 1) :
    Phase shared running releasing posting waiting completing
      (past + ((afterCall joins).map Caller.past).sum) := by
  cases joins with
  | false => simpa using phase
  | true =>
    cases phase with
    | ready => exact absurd rfl taken
    | running past => exact .running _
    | releasing past => exact .releasing _
    | runningAwaited | releasingAwaited | posting => simp at oneJoins
    | posted => exact .posted _ _ _
    | done => exact .done _

/-- A step of a thread whose parts are among the totals leads to a phase of the new totals. -/
theorem Phase.advance (phase : Phase shared running releasing posting waiting completing past)
    (t : Caller)
    (parts : t.running ≤ running ∧ t.releasing ≤ releasing ∧ t.posting ≤ posting ∧
      t.waiting ≤ waiting ∧ t.completing ≤ completing ∧ t.past ≤ past)
    (oneJoins : t.calling + past + waiting + completing ≤ 1) :
    Phase (t.advance shared checked).1
      (running - t.running + ((t.advance shared checked).2.map Caller.running).sum)
      (releasing - t.releasing + ((t.advance shared checked).2.map Caller.releasing).sum)
      (posting - t.posting + ((t.advance shared checked).2.map Caller.posting).sum)
      (waiting - t.waiting + ((t.advance shared checked).2.map Caller.waiting).sum)
      (completing - t.completing + ((t.advance shared checked).2.map Caller.completing).sum)
      (past - t.past + ((t.advance shared checked).2.map Caller.past).sum) := by
  cases t with
  | load joins =>
    by_cases ready : shared.storage = .ready
    · simpa [Caller.advance, ready] using phase
    · have left := phase.afterCall ready joins oneJoins
      cases joins <;> simpa [Caller.advance, ready] using left
  | exchange joins =>
    by_cases ready : shared.storage = .ready
    · cases phase with
      | ready => simpa [Caller.advance] using .running _
      | _ => cases ready
    · have left := phase.afterCall ready joins oneJoins
      cases joins <;> simpa [Caller.advance, ready] using left
  | run joins => 
      cases phase <;> simp [Caller.advance] at parts ⊢
      · exact .releasing _
      · exact .releasingAwaited
  | release joins => 
      cases phase <;> cases joins <;> simp [Caller.advance] at parts ⊢
      · exact .done _
      · exact .done _
      · exact .posting
      · exact .posting
  | post joins =>
    cases phase <;> cases joins <;> simp [Caller.advance] at parts ⊢
    · exact .posted _ _ _
    · exact .posted _ _ _
  | join =>
    cases phase <;> simp [Caller.advance] at parts ⊢
    · exact .running _
    · exact .releasing _
    · exact .posted _ _ _
    · exact .done _
  | announce =>
    cases phase <;> simp [Caller.advance] at parts oneJoins ⊢
    · obtain rfl : past = 1 := by omega
      exact .runningAwaited
    · obtain rfl : past = 1 := by omega
      exact .releasingAwaited
    · exact .posted _ _ _
    · exact .done _
  | wait =>
    cases phase <;> simp [Caller.advance] at parts ⊢
    · exact .runningAwaited
    · exact .releasingAwaited
    · exact .posting
    · exact .posted _ _ _
  | complete =>
    cases phase <;> simp [Caller.advance] at parts oneJoins ⊢
    cases checked with
    | true =>
      obtain rfl : waiting = 0 := by omega
      obtain rfl : completing = 1 := by omega
      exact .done _
    | false => exact .posted _ _ _

/-- A thread that leaves `callOrJoin` has found the function finished. -/
theorem Phase.finished (phase : Phase shared running releasing posting waiting completing past)
    {t : Caller}
    (parts : t.running ≤ running ∧ t.releasing ≤ releasing ∧ t.posting ≤ posting ∧
      t.waiting ≤ waiting ∧ t.completing ≤ completing ∧ t.past ≤ past)
    (joined : shared.joined → shared.finished) :
    (t.advance shared checked).1.joined → (t.advance shared checked).1.finished := by
  cases t with
  | load joins => exact joined
  | exchange joins =>
    simp only [Caller.advance]
    split <;> exact joined
  | run joins => exact fun _ => rfl
  | release joins =>
    simp only [Caller.advance]
    split <;> exact joined
  | post joins => exact joined
  | join | announce | wait | complete =>
    cases phase <;> simp [Caller.advance] at parts joined ⊢ <;> exact joined

theorem Phase.called_le (phase : Phase shared running releasing posting waiting completing past) :
    shared.called ≤ 1 := by
  cases phase <;> simp

end

theorem Consistent.advance {s : State} (consistent : Consistent s) (i : Nat) (checked : Bool) :
    Consistent (s.advance i checked) := by
  unfold State.advance
  split
  next t here =>
    have parts := weights_le_total here
    have calling := ThreadPool.weight_le_total calling_nonneg here
    obtain ⟨oneJoins, joined, phase⟩ := consistent
    have oneJoins' := oneJoins
    rw [total_joining] at oneJoins'
    constructor
    · rw [ThreadPool.total_replace here]
      have fewer := joining_advance s.shared checked t
      omega
    · exact phase.finished parts joined
    · simp only [ThreadPool.total_replace here, ThreadPool.replace_shared]
      exact phase.advance t parts (by omega)
  next => exact consistent

theorem Consistent.call {s : State} (consistent : Consistent s) {joins : Bool}
    (alone : joins = true → s.total Caller.joining = 0) : Consistent (s.call joins) where
  oneJoins := by
    have oneJoins := consistent.oneJoins
    cases joins with
    | false => simpa [State.call, Caller.joining] using oneJoins
    | true => simp [State.call, Caller.joining, alone rfl]
  joined := consistent.joined
  phase := by simpa [State.call] using consistent.phase

/-- A thread that leaves `callOrJoin` is recorded. -/
theorem joining_cases (s : State) (i : Nat) (checked : Bool) :
    ((s.advance i checked).total Caller.joining = s.total Caller.joining ∧
        (s.advance i checked).shared.joined = s.shared.joined) ∨
      ((s.advance i checked).total Caller.joining = s.total Caller.joining - 1 ∧
        (s.advance i checked).shared.joined = true) := by
  unfold State.advance
  split
  next t here =>
    rw [ThreadPool.total_replace here, ThreadPool.replace_shared]
    cases t with
    | load joins | exchange joins | run joins | release joins | post joins =>
      left
      cases joins <;> simp only [Caller.advance] <;> (try split) <;>
        simp [Caller.joining]
    | join | announce =>
      simp only [Caller.advance]
      split
      · left
        simp [Caller.joining]
      · right
        simp [Caller.joining]
    | wait =>
      left
      simp only [Caller.advance]
      split <;> simp [Caller.joining]
    | complete =>
      right
      simp [Caller.advance, Caller.joining]
  next => exact .inl ⟨rfl, rfl⟩

theorem joining_nonneg (s : State) : 0 ≤ s.total Caller.joining :=
  ThreadPool.total_nonneg fun t => by
    have calling := calling_nonneg t
    cases t <;> simp [Caller.joining] at calling ⊢ <;> exact calling

theorem finished_advance (s : State) (i : Nat) (checked : Bool) :
    s.shared.finished → (s.advance i checked).shared.finished := by
  intro finished
  unfold State.advance
  split
  next t here =>
    cases t <;> simp only [Caller.advance, ThreadPool.replace_shared] <;> (try split) <;>
      exact finished
  next => exact finished

end CallOnceFunction

end FbThrift
