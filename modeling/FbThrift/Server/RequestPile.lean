import Mathlib.Data.List.Basic

/-!
# What a request pile gives

`RoundRobinRequestPile::dequeue` goes through its queues.  Requests that have expired are handed
to `processExpiredRequest` on the way, and the search goes on until a live request is there or
all queues were tried.  The order in which it finds the requests is left open, and it may find
nothing while another thread is still putting a request in.
-/

namespace FbThrift

namespace RequestPile

variable {ρ : Type}

/-- What `pile_.dequeue` comes to next: a request of the pile that has expired, one that it
returns, or nothing. -/
inductive Found where
  | expired (k : Nat)
  | live (k : Nat)
  | nothing
  deriving DecidableEq

/-- The request is in the pile. -/
def Found.There (pile : List ρ) : Found → Prop
  | expired k | live k => k < pile.length
  | nothing => True

instance (pile : List ρ) : ∀ found : Found, Decidable (found.There pile)
  | .expired k | .live k => inferInstanceAs (Decidable (k < pile.length))
  | .nothing => inferInstanceAs (Decidable True)

end RequestPile

end FbThrift
