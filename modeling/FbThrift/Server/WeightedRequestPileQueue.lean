import FbThrift.Lib.Run
import FbThrift.Lib.ThreadPool
import Mathlib.Data.UInt
import Mathlib.Logic.Function.Basic

/-!
# The weighted request pile queue

`WeightedRequestPileQueue` is an unbounded queue with a control block, which adds up the weights
of the elements and rejects an element that would pass a limit.  Any number of threads are in
`enqueue`, `tryDequeue` or `tryDequeueWithCapacity`, and take one atomic access at a time.

`OneDimensionalControlBlock` has one counter and `TwoDimensionalControlBlock` has two.  Both load
their counters, compare them with their limits and exchange them one after the other; the counters
that were exchanged are rolled back when a later one was changed meanwhile.  A control block has
`n + 1` counters here.
-/

namespace FbThrift

namespace WeightedRequestPileQueue

variable {α : Type} {n : Nat}

/-- One number for each counter. -/
abbrev Weights (n : Nat) : Type := Fin (n + 1) → UInt64

structure Element (α : Type) (n : Nat) where
  data : α
  weight : Weights n

/-- The counter after one. -/
def following (k : Fin (n + 1)) : Option (Fin (n + 1)) :=
  if h : k.val + 1 < n + 1 then some ⟨k.val + 1, h⟩ else none

/-- The counter before one. -/
def preceding (k : Fin (n + 1)) : Option (Fin (n + 1)) :=
  if k.val = 0 then none else some ⟨k.val - 1, by omega⟩

/-- A capacity is less than a weight if it is in one dimension. -/
def lessThan (capacity weight : Weights n) : Bool := decide (∃ k, capacity k < weight k)

/-! ## Threads -/

/-- Where a thread has come to in `accept`; `old` are the counters that it has loaded. -/
inductive Accept (n : Nat) where
  | load (k : Fin (n + 1)) (old : Weights n)
  | compare (k : Fin (n + 1)) (old : Weights n)
  | exchange (k : Fin (n + 1)) (old : Weights n)
  | rollBack (k : Fin (n + 1))

inductive DequeueResult (α : Type) where
  | data (data : α)
  | overCapacity
  | noElement

/-- The next step of a thread. -/
inductive Thread (α : Type) (n : Nat) where
  /-- In `enqueue`, in `accept`. -/
  | accept (element : Element α n) (place : Accept n)
  /-- In `enqueue`, after `accept`. -/
  | push (element : Element α n)
  | tryDequeue
  /-- In `tryDequeue`, in `onDequeue`. -/
  | onDequeue (element : Element α n) (k : Fin (n + 1))
  | lock (capacity : Weights n)
  /-- About to look at `firstElementHolder_`. -/
  | look (capacity : Weights n)
  /-- About to try the queue. -/
  | pop (capacity : Weights n)
  | unlock (result : DequeueResult α)

/-- The queue, with the elements that were accepted, those that entered the queue and those that
were taken out of it, each in order, and those that `tryDequeueWithCapacity` returned. -/
structure Shared (α : Type) (n : Nat) where
  counters : Weights n
  limits : Weights n
  queue : List (Element α n)
  firstElementHolder : Option (Element α n)
  dequeueLock : Bool
  accepted : List (Element α n)
  entered : List (Element α n)
  left : List (Element α n)
  returned : List (Element α n × Weights n)

abbrev State (α : Type) (n : Nat) : Type := ThreadPool (Shared α n) (Thread α n)

/-- `accept` starts over, once the counters before one are rolled back. -/
def Accept.again (k : Fin (n + 1)) : Accept n :=
  match preceding k with
  | some k' => .rollBack k'
  | none => .load 0 0

def Shared.setCounter (s : Shared α n) (k : Fin (n + 1)) (value : UInt64) : Shared α n :=
  { s with counters := Function.update s.counters k value }

/-- A thread takes its next step: what it does to the queue, and what it becomes. -/
def Thread.step (s : Shared α n) (fails : Bool) : Thread α n → Shared α n × List (Thread α n)
  | .accept element (.load k old) =>
    let old := Function.update old k (s.counters k)
    (s, [.accept element (match following k with
        | some k' => .load k' old
        | none => .compare 0 old)])
  | .accept element (.compare k old) =>
    if s.limits k < old k + element.weight k then (s, [])
    else
      (s, [.accept element (match following k with
          | some k' => .compare k' old
          | none => .exchange 0 old)])
  | .accept element (.exchange k old) =>
    if !fails && s.counters k == old k then
      let s := s.setCounter k (old k + element.weight k)
      match following k with
      | some k' => (s, [.accept element (.exchange k' old)])
      | none => ({ s with accepted := s.accepted ++ [element] }, [.push element])
    else (s, [.accept element (.again k)])
  | .accept element (.rollBack k) =>
    (s.setCounter k (s.counters k - element.weight k), [.accept element (.again k)])
  | .push element =>
    ({ s with queue := s.queue ++ [element], entered := s.entered ++ [element] }, [])
  | .tryDequeue =>
    match s.queue with
    | [] => (s, [])
    | element :: queue =>
      ({ s with queue := queue, left := s.left ++ [element] }, [.onDequeue element 0])
  | .onDequeue element k =>
    (s.setCounter k (s.counters k - element.weight k), match following k with
      | some k' => [.onDequeue element k']
      | none => [])
  | .lock capacity =>
    if s.dequeueLock then (s, [.lock capacity])
    else ({ s with dequeueLock := true }, [.look capacity])
  | .look capacity =>
    match s.firstElementHolder with
    | some element =>
      if lessThan capacity element.weight then (s, [.unlock .overCapacity])
      else
        ({ s with
            firstElementHolder := none
            left := s.left ++ [element]
            returned := s.returned ++ [(element, capacity)] },
          [.unlock (.data element.data)])
    | none => (s, [.pop capacity])
  | .pop capacity =>
    match s.queue with
    | [] => (s, [.unlock .noElement])
    | element :: queue =>
      if lessThan capacity element.weight then
        ({ s with queue := queue, firstElementHolder := some element }, [.unlock .overCapacity])
      else
        ({ s with
            queue := queue
            left := s.left ++ [element]
            returned := s.returned ++ [(element, capacity)] },
          [.unlock (.data element.data)])
  | .unlock _ => ({ s with dequeueLock := false }, [])

/-! ## Runs -/

inductive Event (α : Type) (n : Nat) where
  | enqueue (element : α) (weights : Weights n)
  | tryDequeue
  | tryDequeueWithCapacity (capacity : Weights n)
  /-- A thread takes its next step; an exchange that is weak may fail. -/
  | step (i : Nat) (fails : Bool)

def step (s : State α n) : Event α n → State α n
  | .enqueue element weights => s.start s.shared (.accept ⟨element, weights⟩ (.load 0 0))
  | .tryDequeue => s.start s.shared .tryDequeue
  | .tryDequeueWithCapacity capacity => s.start s.shared (.lock capacity)
  | .step i fails =>
    match s.threads[i]? with
    | some t => s.replace i (t.step s.shared fails).1 (t.step s.shared fails).2
    | none => s

/-- Which of the two functions takes the elements out. -/
inductive Flavour where
  | plain
  | withCapacity
  deriving DecidableEq

/-- The calls that may be made: weights are non-zero, and one function dequeues. -/
def Allowed (flavour : Flavour) : Event α n → Prop
  | .enqueue _ weights => ∀ k, weights k ≠ 0
  | .tryDequeue => flavour = .plain
  | .tryDequeueWithCapacity _ => flavour = .withCapacity
  | .step _ _ => True

def State.initial (α : Type) (limits : Weights n) : State α n where
  shared := ⟨0, limits, [], none, false, [], [], [], []⟩
  threads := []

/-- An exchange succeeds that sets a counter to a sum that has wrapped around. -/
def Thread.Wraps (s : Shared α n) (fails : Bool) : Thread α n → Prop
  | .accept element (.exchange k old) =>
    fails = false ∧ s.counters k = old k ∧ 2 ^ 64 ≤ (old k).toNat + (element.weight k).toNat
  | _ => False

/-- The event sets no counter to a sum that has wrapped around. -/
def Unwrapped (s : State α n) : Event α n → Prop
  | .step i fails => ∀ t, s.threads[i]? = some t → ¬ t.Wraps s.shared fails
  | _ => True

/-! ## What is promised -/

/-- The elements in the queue and in `firstElementHolder_`. -/
def Shared.held (s : Shared α n) : List (Element α n) := s.firstElementHolder.toList ++ s.queue

/-- The weights of some elements, added up. -/
def weigh (k : Fin (n + 1)) (elements : List (Element α n)) : Nat :=
  (elements.map fun e => (e.weight k).toNat).sum

/-- An element that was accepted and has not entered the queue. -/
def Thread.pushing : Thread α n → List (Element α n)
  | .push element => [element]
  | _ => []

/-- What the queue promises of a state. -/
structure Sound (s : State α n) : Prop where
  /-- Elements leave in the order in which they entered, and none is lost or there twice. -/
  ordered : s.shared.entered = s.shared.left ++ s.shared.held
  /-- Elements that were accepted have entered, or are about to. -/
  accounted : s.shared.accepted.Perm (s.shared.entered ++ s.threads.flatMap Thread.pushing)
  /-- The counters are the sums of the weights of the elements when no call is in progress. -/
  counted : s.threads = [] → ∀ k, (s.shared.counters k).toNat = weigh k s.shared.held
  /-- The elements that were accepted and are still there stay within the limits. -/
  within : ∀ k, weigh k s.shared.held + weigh k (s.threads.flatMap Thread.pushing) ≤
    (s.shared.limits k).toNat
  /-- What is returned with a capacity fits it. -/
  fits : ∀ e ∈ s.shared.returned, ∀ k, e.1.weight k ≤ e.2 k

end WeightedRequestPileQueue

end FbThrift
