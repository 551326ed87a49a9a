import FbThrift.Lib.NotificationQueue
import FbThrift.Lib.Run
import Mathlib.Algebra.BigOperators.Group.List.Basic
import Mathlib.Data.UInt
import Mathlib.Logic.Function.Basic

/-!
# The round robin request pile

`RoundRobinRequestPile` keeps requests in buckets, which are filed by priority.  `enqueue` puts a
request into the bucket that the options select for it, unless a filter or a limit is against it;
`dequeue` goes to the first priority that has something and there to the bucket that has waited
longest.

A priority of one bucket has a queue of its own kind.  Any other keeps in `retrievalIndexQueues`
the buckets that have something, in the order in which they are to be visited.
-/

namespace FbThrift

variable {ρ : Type}

/-! ## Queues of one bucket -/

/-- `SingleBucketRequestPileQueue`; a limit of 0 is none. -/
structure SingleBucketRequestPileQueue (ρ : Type) where
  queue : List ρ
  limit : UInt64
  count : UInt64

namespace SingleBucketRequestPileQueue

/-- `enqueue`, and whether it takes the element. -/
def enqueue (elem : ρ) (q : SingleBucketRequestPileQueue ρ) :
    Bool × SingleBucketRequestPileQueue ρ :=
  if q.limit ≠ 0 then
    let prev := q.count
    let counted := { q with count := q.count + 1 }
    if q.limit ≤ prev then (false, { counted with count := counted.count - 1 })
    else (true, { counted with queue := q.queue ++ [elem] })
  else (true, { q with queue := q.queue ++ [elem] })

def tryDequeue (q : SingleBucketRequestPileQueue ρ) : Option ρ × SingleBucketRequestPileQueue ρ :=
  match q.queue with
  | [] => (none, q)
  | elem :: rest =>
    (some elem,
      { q with queue := rest, count := if q.limit ≠ 0 then q.count - 1 else q.count })

end SingleBucketRequestPileQueue

/-! ## Options -/

/-- What a rejection tells the client. -/
structure ServerRequestRejection where
  message : String
  deriving DecidableEq

structure RoundRobinRequestPileOptions (ρ : Type) where
  numBucketsPerPriority : List UInt32 := [1]
  /-- The limit of each bucket; 0 is none. -/
  numMaxRequests : UInt64 := 0
  /-- The limits of the buckets of each priority, in place of `numMaxRequests`. -/
  numMaxRequestsPerPriority : List UInt32 := []
  pileSelectionFunction : Option (ρ → UInt32 × UInt32) := none
  preEnqueueFilter : Option (ρ → Option ServerRequestRejection) := none

namespace RoundRobinRequestPileOptions

variable (opts : RoundRobinRequestPileOptions ρ)

def getNumMaxRequestsForPriority (priority : Nat) : UInt32 :=
  if !opts.numMaxRequestsPerPriority.isEmpty then
    opts.numMaxRequestsPerPriority.getD priority 0
  else opts.numMaxRequests.toUInt32

def numPriorities : Nat := opts.numBucketsPerPriority.length

def numBuckets (priority : Nat) : Nat := (opts.numBucketsPerPriority.getD priority 0).toNat

/-- The priority and the bucket of a request. -/
def select (request : ρ) : Nat × Nat :=
  match opts.pileSelectionFunction with
  | some f => ((f request).1.toNat, (f request).2.toNat)
  | none => (0, 0)

def filter (request : ρ) : Option ServerRequestRejection :=
  match opts.preEnqueueFilter with
  | some f => f request
  | none => none

/-- What the pile expects of its options. -/
structure Valid : Prop where
  limits : opts.numMaxRequestsPerPriority = [] ∨
    opts.numMaxRequestsPerPriority.length = opts.numPriorities
  buckets : ∀ i < opts.numPriorities, opts.numBuckets i ≠ 0
  selected : ∀ request, (opts.select request).1 < opts.numPriorities ∧
    (opts.select request).2 < opts.numBuckets (opts.select request).1

end RoundRobinRequestPileOptions

/-! ## The pile -/

namespace RoundRobinRequestPile

/-- The request that was not expired, and those handed to `processExpiredRequest`. -/
structure Consumer (ρ : Type) where
  carrier : Option ρ := none
  expired : List ρ := []

/-- A consumer is handed a request. -/
def Consumer.handle (requestExpirationDelegate : Bool) (expired : ρ → Bool) (c : Consumer ρ)
    (request : ρ) : Consumer ρ × TaskStatus :=
  if !requestExpirationDelegate then ({ c with carrier := some request }, .consumed)
  else if expired request then ({ c with expired := c.expired ++ [request] }, .discard)
  else ({ c with carrier := some request }, .consumed)

/-- What `dequeue` does: the request that it returns, those that it hands to the delegate, and the
priority and the bucket that they come from. -/
structure Dequeued (ρ : Type) where
  request : Option ρ := none
  expired : List ρ := []
  visited : Option (Nat × Nat) := none

end RoundRobinRequestPile

structure RoundRobinRequestPile (queues : NotificationQueue ρ) where
  opts : RoundRobinRequestPileOptions ρ
  requestQueues : Nat → Nat → queues.Queue
  retrievalIndexQueues : Nat → Option (List Nat)
  singleBucketRequestQueues : Nat → SingleBucketRequestPileQueue ρ
  requestExpirationDelegate : Bool

namespace RoundRobinRequestPile

variable {queues : NotificationQueue ρ}

def make (queues : NotificationQueue ρ) (opts : RoundRobinRequestPileOptions ρ)
    (requestExpirationDelegate : Bool) : RoundRobinRequestPile queues where
  opts := opts
  requestQueues _ _ := (queues.arm (queues.setMaxReadAtOnce 1 queues.new)).2
  retrievalIndexQueues i := if opts.numBuckets i = 1 then none else some []
  singleBucketRequestQueues i := ⟨[], (opts.getNumMaxRequestsForPriority i).toUInt64, 0⟩
  requestExpirationDelegate := requestExpirationDelegate

variable (pile : RoundRobinRequestPile queues)

def setRequestQueue (pri bucket : Nat) (queue : queues.Queue) : RoundRobinRequestPile queues :=
  { pile with
    requestQueues := Function.update pile.requestQueues pri
      (Function.update (pile.requestQueues pri) bucket queue) }

def setRetrievalIndexQueue (pri : Nat) (index : List Nat) : RoundRobinRequestPile queues :=
  { pile with
    retrievalIndexQueues := Function.update pile.retrievalIndexQueues pri (some index) }

def setSingleBucketRequestQueue (pri : Nat) (queue : SingleBucketRequestPileQueue ρ) :
    RoundRobinRequestPile queues :=
  { pile with
    singleBucketRequestQueues := Function.update pile.singleBucketRequestQueues pri queue }

/-- `dequeueImpl` on a bucket that was taken from an index queue, of which `index` is left. -/
def dequeueImpl (expired : ρ → Bool) (pri bucket : Nat) (index : List Nat) :
    Dequeued ρ × RoundRobinRequestPile queues :=
  let driven := queues.drive (Consumer.handle pile.requestExpirationDelegate expired) {}
    (pile.requestQueues pri bucket)
  let armed := queues.arm driven.2
  let rest := pile.setRequestQueue pri bucket armed.2
  let rest := rest.setRetrievalIndexQueue pri (if !armed.1 then index ++ [bucket] else index)
  (⟨driven.1.carrier, driven.1.expired, some (pri, bucket)⟩, rest)

def reachedMaxLimit : ServerRequestRejection :=
  ⟨"RequestPile enqueue error : reached max limit"⟩

/-- `enqueue`, and the rejection that it gives. -/
def enqueue (request : ρ) : Option ServerRequestRejection × RoundRobinRequestPile queues :=
  let pri := (pile.opts.select request).1
  let bucket := (pile.opts.select request).2
  match pile.opts.filter request with
  | some rejection => (some rejection, pile)
  | none =>
    match pile.retrievalIndexQueues pri with
    | none =>
      let pushed := (pile.singleBucketRequestQueues pri).enqueue request
      (if pushed.1 then none else some reachedMaxLimit,
        pile.setSingleBucketRequestQueue pri pushed.2)
    | some index =>
      let maxRequest := pile.opts.getNumMaxRequestsForPriority pri
      if maxRequest ≠ 0 then
        let pushed := queues.tryPush request maxRequest.toNat (pile.requestQueues pri bucket)
        let rest := pile.setRequestQueue pri bucket pushed.2
        match pushed.1 with
        | .failedLimitReached => (some reachedMaxLimit, rest)
        | .successAndArmed => (none, rest.setRetrievalIndexQueue pri (index ++ [bucket]))
        | .success => (none, rest)
      else
        let pushed := queues.push request (pile.requestQueues pri bucket)
        let rest := pile.setRequestQueue pri bucket pushed.2
        (none, if pushed.1 then rest.setRetrievalIndexQueue pri (index ++ [bucket]) else rest)

/-- The loop of `dequeue`, on the priorities that are left. -/
def dequeueFrom (expired : ρ → Bool) : List Nat → Dequeued ρ × RoundRobinRequestPile queues
  | [] => ({}, pile)
  | i :: priorities =>
    match pile.retrievalIndexQueues i with
    | none =>
      match (pile.singleBucketRequestQueues i).tryDequeue with
      | (some request, queue) =>
        (⟨some request, [], some (i, 0)⟩, pile.setSingleBucketRequestQueue i queue)
      | (none, _) => dequeueFrom expired priorities
    | some [] => dequeueFrom expired priorities
    | some (bucket :: index) => pile.dequeueImpl expired i bucket index

def dequeue (expired : ρ → Bool) : Dequeued ρ × RoundRobinRequestPile queues :=
  pile.dequeueFrom expired (List.range pile.opts.numPriorities)

/-- What one priority adds to `requestCount`. -/
def countOf (i : Nat) : UInt64 :=
  match pile.retrievalIndexQueues i with
  | none => UInt64.ofNat (pile.singleBucketRequestQueues i).queue.length
  | some [] => 0
  | some _ =>
    ((List.range (pile.opts.numBuckets i)).map fun j =>
      UInt64.ofNat (queues.view (pile.requestQueues i j)).elems.length).sum

def requestCount : UInt64 := ((List.range pile.opts.numPriorities).map pile.countOf).sum

end RoundRobinRequestPile

end FbThrift
