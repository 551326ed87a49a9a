import Mathlib.Data.List.Basic

/-!
# Notification queues

A queue hands its elements to one consumer, in the order in which they were put in.  The consumer
arms it when nothing is left, and the push that finds it armed is told so.  A consumer that is
driven says of each element whether it consumed it; with `maxReadAtOnce` one it is driven until
it has consumed one.
-/

namespace FbThrift

variable {ρ κ : Type}

inductive TaskStatus where
  | consumed
  | discard
  deriving DecidableEq

inductive TryPushResult where
  | failedLimitReached
  | success
  | successAndArmed
  deriving DecidableEq

namespace NotificationQueue

/-- What can be told of a queue. -/
structure View (ρ : Type) where
  elems : List ρ
  armed : Bool
  maxReadAtOnce : Nat

/-- The consumer and the elements that are left when it has consumed one or none is left. -/
def drain (consumer : κ → ρ → κ × TaskStatus) : κ → List ρ → κ × List ρ
  | k, [] => (k, [])
  | k, r :: rs =>
    match consumer k r with
    | (k', .consumed) => (k', rs)
    | (k', .discard) => drain consumer k' rs

namespace View

def arm (v : View ρ) : View ρ := { v with armed := v.elems.isEmpty }

def push (r : ρ) (v : View ρ) : View ρ := { v with elems := v.elems ++ [r], armed := false }

/-- A push that fails when the limit is reached. -/
def tryPush (r : ρ) (limit : Nat) (v : View ρ) : TryPushResult × View ρ :=
  if limit ≤ v.elems.length then (.failedLimitReached, v)
  else (if v.armed then .successAndArmed else .success, v.push r)

end View

end NotificationQueue

open NotificationQueue in
/-- A notification queue: its operations, and what they do to what can be told of it. -/
structure NotificationQueue (ρ : Type) where
  Queue : Type
  view : Queue → View ρ
  new : Queue
  setMaxReadAtOnce : Nat → Queue → Queue
  arm : Queue → Bool × Queue
  push : ρ → Queue → Bool × Queue
  tryPush : ρ → Nat → Queue → TryPushResult × Queue
  drive : {κ : Type} → (κ → ρ → κ × TaskStatus) → κ → Queue → κ × Queue
  elems_new : (view new).elems = []
  view_setMaxReadAtOnce : ∀ n q, view (setMaxReadAtOnce n q) = { view q with maxReadAtOnce := n }
  arm_fst : ∀ q, (arm q).1 = (view q).elems.isEmpty
  view_arm : ∀ q, view (arm q).2 = (view q).arm
  push_fst : ∀ r q, (push r q).1 = (view q).armed
  view_push : ∀ r q, view (push r q).2 = (view q).push r
  tryPush_fst : ∀ r limit q, (tryPush r limit q).1 = ((view q).tryPush r limit).1
  view_tryPush : ∀ r limit q, view (tryPush r limit q).2 = ((view q).tryPush r limit).2
  drive_fst : ∀ {κ : Type} (consumer : κ → ρ → κ × TaskStatus) k q, (view q).maxReadAtOnce = 1 →
      (drive consumer k q).1 = (drain consumer k (view q).elems).1
  view_drive : ∀ {κ : Type} (consumer : κ → ρ → κ × TaskStatus) k q, (view q).maxReadAtOnce = 1 →
      view (drive consumer k q).2 =
        { view q with elems := (drain consumer k (view q).elems).2 }

namespace NotificationQueue

/-- A queue that is nothing but what can be told of it. -/
def ofView (ρ : Type) : NotificationQueue ρ where
  Queue := View ρ
  view := id
  new := ⟨[], false, 0⟩
  setMaxReadAtOnce n v := { v with maxReadAtOnce := n }
  arm v := (v.elems.isEmpty, v.arm)
  push r v := (v.armed, v.push r)
  tryPush r limit v := v.tryPush r limit
  drive consumer k v :=
    ((drain consumer k v.elems).1, { v with elems := (drain consumer k v.elems).2 })
  elems_new := rfl
  view_setMaxReadAtOnce _ _ := rfl
  arm_fst _ := rfl
  view_arm _ := rfl
  push_fst _ _ := rfl
  view_push _ _ := rfl
  tryPush_fst _ _ _ := rfl
  view_tryPush _ _ _ := rfl
  drive_fst _ _ _ _ := rfl
  view_drive _ _ _ _ := rfl

end NotificationQueue

end FbThrift
