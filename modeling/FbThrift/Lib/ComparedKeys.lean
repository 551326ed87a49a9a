import Mathlib.Data.List.Induction
import Mathlib.Data.List.Sort
import Mathlib.Order.Basic

/-!
# Orders by comparison and containers kept by them

`OrderedAt lt a` is what a strict total order gives at one value: it is not before itself, it is
comparable with every value, and it is before what comes after a value that it is before.  Stated
for one value it can be carried by an induction on nested values, whose sequences are compared by
their sizes and then at their first difference.

A `ComparedMap` is an association list in the order of a comparison, which is asked alone whether
two keys are the same.
-/

namespace FbThrift

variable {α β : Type} {lt : α → α → Prop} {lt' : β → β → Prop}

/-- What a strict total order gives at one value. -/
structure OrderedAt (lt : α → α → Prop) (a : α) : Prop where
  irrefl : ¬ lt a a
  total : ∀ b, lt a b ∨ a = b ∨ lt b a
  trans : ∀ b c, lt a b → lt b c → lt a c

/-- A comparison that is a strict total order. -/
def StrictTotal (lt : α → α → Prop) : Prop := ∀ a, OrderedAt lt a

theorem OrderedAt.ne {a b : α} (ordered : OrderedAt lt a) (less : lt a b) : a ≠ b := by
  rintro rfl
  exact ordered.irrefl less

theorem OrderedAt.asymm {a b : α} (ordered : OrderedAt lt a) (less : lt a b) : ¬ lt b a :=
  fun greater => ordered.irrefl (ordered.trans b a less greater)

theorem strictTotal_lt [LinearOrder α] : StrictTotal (fun a b : α => a < b) := fun a =>
  ⟨lt_irrefl a, fun b => lt_trichotomy a b, fun _ _ => lt_trans⟩

/-- Values are compared as what they are sent to. -/
theorem StrictTotal.of_injective {f : α → β} (order : StrictTotal lt')
    (injective : Function.Injective f) (same : ∀ a b, lt a b ↔ lt' (f a) (f b)) :
    StrictTotal lt := fun a =>
  { irrefl := fun less => (order (f a)).irrefl ((same a a).mp less)
    total := fun b => by
      rw [same, same, ← injective.eq_iff]
      exact (order (f a)).total (f b)
    trans := fun b c less later =>
      (same a c).mpr ((order (f a)).trans _ _ ((same a b).mp less) ((same b c).mp later)) }

/-! ## Orders of pairs and of sequences -/

/-- By the first components, and by the second where these are the same. -/
def Paired (lt : α → α → Prop) (lt' : β → β → Prop) (a b : α × β) : Prop :=
  (a.1 ≠ b.1 ∧ lt a.1 b.1) ∨ (a.1 = b.1 ∧ lt' a.2 b.2)

/-- By the first elements that differ. -/
def FirstDifference (lt : α → α → Prop) : List α → List α → Prop
  | a :: as, b :: bs => (a ≠ b ∧ lt a b) ∨ (a = b ∧ FirstDifference lt as bs)
  | _, _ => False

/-- The shorter sequence first, and sequences of one size by the first elements that differ. -/
def BySize (lt : α → α → Prop) (as bs : List α) : Prop :=
  as.length < bs.length ∨ (as.length = bs.length ∧ FirstDifference lt as bs)

theorem OrderedAt.paired {a : α × β} (first : OrderedAt lt a.1) (second : OrderedAt lt' a.2) :
    OrderedAt (Paired lt lt') a where
  irrefl := by
    rintro (⟨differ, -⟩ | ⟨-, less⟩)
    · exact differ rfl
    · exact second.irrefl less
  total b := by
    rcases first.total b.1 with less | same | greater
    · exact .inl (.inl ⟨first.ne less, less⟩)
    · rcases second.total b.2 with less | equal | greater
      · exact .inl (.inr ⟨same, less⟩)
      · exact .inr (.inl (Prod.ext same equal))
      · exact .inr (.inr (.inr ⟨same.symm, greater⟩))
    · by_cases same : a.1 = b.1
      · exact absurd (same ▸ greater) first.irrefl
      · exact .inr (.inr (.inl ⟨Ne.symm same, greater⟩))
  trans b c := by
    rintro (⟨-, less⟩ | ⟨same, less⟩) (⟨differ, later⟩ | ⟨equal, later⟩)
    · have before := first.trans b.1 c.1 less later
      exact .inl ⟨first.ne before, before⟩
    · rw [equal] at less
      exact .inl ⟨first.ne less, less⟩
    · rw [← same] at later
      exact .inl ⟨first.ne later, later⟩
    · exact .inr ⟨same.trans equal, second.trans b.2 c.2 less later⟩

theorem not_firstDifference_self {as : List α} : ¬ FirstDifference lt as as := by
  induction as with
  | nil => exact id
  | cons a as ih =>
    rintro (⟨differ, -⟩ | ⟨-, later⟩)
    · exact differ rfl
    · exact ih later

theorem firstDifference_total {as : List α} (ordered : ∀ a ∈ as, OrderedAt lt a) :
    ∀ bs : List α, as.length = bs.length →
      FirstDifference lt as bs ∨ as = bs ∨ FirstDifference lt bs as := by
  induction as with
  | nil => exact fun bs size => .inr (.inl (List.length_eq_zero_iff.mp size.symm).symm)
  | cons a as ih =>
    rintro (_ | ⟨b, bs⟩) size
    · cases size
    · have here := ordered a List.mem_cons_self
      rcases here.total b with less | same | greater
      · exact .inl (.inl ⟨here.ne less, less⟩)
      · subst same
        rcases ih (fun x member => ordered x (.tail _ member)) bs (Nat.succ.inj size) with
          less | equal | greater
        · exact .inl (.inr ⟨rfl, less⟩)
        · exact .inr (.inl (congrArg _ equal))
        · exact .inr (.inr (.inr ⟨rfl, greater⟩))
      · by_cases same : a = b
        · exact absurd (same ▸ greater) here.irrefl
        · exact .inr (.inr (.inl ⟨Ne.symm same, greater⟩))

theorem firstDifference_trans {as : List α} (ordered : ∀ a ∈ as, OrderedAt lt a) :
    ∀ bs cs : List α, FirstDifference lt as bs → FirstDifference lt bs cs →
      FirstDifference lt as cs := by
  induction as with
  | nil => exact fun _ _ differs _ => differs.elim
  | cons a as ih =>
    rintro (_ | ⟨b, bs⟩) (_ | ⟨c, cs⟩) first second
    · exact first.elim
    · exact first.elim
    · exact second.elim
    · have here := ordered a List.mem_cons_self
      rcases first with ⟨-, less⟩ | ⟨rfl, less⟩
      · rcases second with ⟨-, later⟩ | ⟨rfl, -⟩
        · have before := here.trans b c less later
          exact .inl ⟨here.ne before, before⟩
        · exact .inl ⟨here.ne less, less⟩
      · rcases second with later | ⟨rfl, later⟩
        · exact .inl later
        · exact .inr ⟨rfl, ih (fun x member => ordered x (.tail _ member)) bs cs less later⟩

theorem OrderedAt.bySize {as : List α} (ordered : ∀ a ∈ as, OrderedAt lt a) :
    OrderedAt (BySize lt) as where
  irrefl := by
    rintro (less | ⟨-, less⟩)
    · exact lt_irrefl _ less
    · exact not_firstDifference_self less
  total bs := by
    rcases lt_trichotomy as.length bs.length with less | size | greater
    · exact .inl (.inl less)
    · rcases firstDifference_total ordered bs size with less | same | greater
      · exact .inl (.inr ⟨size, less⟩)
      · exact .inr (.inl same)
      · exact .inr (.inr (.inr ⟨size.symm, greater⟩))
    · exact .inr (.inr (.inl greater))
  trans bs cs := by
    rintro (less | ⟨size, less⟩) (later | ⟨equal, later⟩)
    · exact .inl (less.trans later)
    · exact .inl (equal ▸ less)
    · exact .inl (size ▸ later)
    · exact .inr ⟨size.trans equal, firstDifference_trans ordered bs cs less later⟩

/-- Where values of lower rank come first, a value is ordered that is ordered among the values of
its rank, which are the images of a type that is compared in the same way. -/
theorem OrderedAt.of_rank {rank : α → Nat} {f : β → α} {x : β}
    (first : ∀ a b, rank a < rank b → lt a b) (last : ∀ a b, lt a b → rank a ≤ rank b)
    (onto : ∀ b, rank (f x) = rank b → ∃ y, f y = b)
    (same : ∀ y z, lt (f y) (f z) ↔ lt' y z) (ordered : OrderedAt lt' x) : OrderedAt lt (f x) where
  irrefl less := ordered.irrefl ((same x x).mp less)
  total b := by
    rcases lt_trichotomy (rank (f x)) (rank b) with less | level | greater
    · exact .inl (first _ _ less)
    · obtain ⟨y, rfl⟩ := onto b level
      rcases ordered.total y with less | rfl | greater
      · exact .inl ((same x y).mpr less)
      · exact .inr (.inl rfl)
      · exact .inr (.inr ((same y x).mpr greater))
    · exact .inr (.inr (first _ _ greater))
  trans b c less later := by
    rcases (last _ _ less).lt_or_eq with lower | level
    · exact first _ _ (lower.trans_le (last _ _ later))
    · rcases (last _ _ later).lt_or_eq with lower | level'
      · exact first _ _ (level.trans_lt lower)
      · obtain ⟨y, rfl⟩ := onto b level
        obtain ⟨z, rfl⟩ := onto c (level.trans level')
        exact (same x z).mpr (ordered.trans y z ((same x y).mp less) ((same y z).mp later))

/-! ## Containers -/

namespace ComparedMap

variable {K V : Type} (less : K → K → Bool)

/-- What is stored under a key: under one that is neither before nor after it. -/
def find (k : K) : List (K × V) → Option V
  | [] => none
  | (k', v) :: m => if less k' k then find k m else if less k k' then none else some v

/-- Puts an entry at the place of its key, unless the key is there. -/
def emplace (k : K) (v : V) : List (K × V) → List (K × V)
  | [] => [(k, v)]
  | (k', v') :: m =>
    if less k' k then (k', v') :: emplace k v m
    else if less k k' then (k, v) :: (k', v') :: m
    else (k', v') :: m

/-- Puts one entry after the other. -/
def ofList (es : List (K × V)) : List (K × V) :=
  es.foldl (fun m e => emplace less e.1 e.2 m) []

/-- Keys that increase. -/
def Increasing (m : List (K × V)) : Prop := m.Pairwise fun e e' => less e.1 e'.1

/-- What is stored under the first key that is the same as a key. -/
def storedFirst (same : K → K → Prop) [DecidableRel same] (k : K) (es : List (K × V)) : Option V :=
  (es.find? fun e => same e.1 k).map Prod.snd

variable {less} {k k' : K} {v v' : V} {m : List (K × V)}

theorem emplace_of_find (found : find less k m = some v') : emplace less k v m = m := by
  induction m with
  | nil => cases found
  | cons e m ih =>
    obtain ⟨k', w⟩ := e
    rw [find] at found
    rw [emplace]
    split at found
    next before => rw [if_pos before, ih found]
    next notBefore =>
      split at found
      next => cases found
      next notAfter => rw [if_neg notBefore, if_neg notAfter]

theorem mem_of_mem_emplace {e : K × V} (member : e ∈ emplace less k v m) : e = (k, v) ∨ e ∈ m := by
  induction m with
  | nil => exact .inl (List.mem_singleton.mp member)
  | cons f m ih =>
    obtain ⟨k', w⟩ := f
    rw [emplace] at member
    split at member
    next =>
      rcases List.mem_cons.mp member with rfl | later
      · exact .inr List.mem_cons_self
      · exact (ih later).imp_right (.tail _)
    next =>
      split at member
      next => exact List.mem_cons.mp member
      next => exact .inr member

theorem mem_emplace_of_mem {e : K × V} (member : e ∈ m) : e ∈ emplace less k v m := by
  induction m with
  | nil => cases member
  | cons f m ih =>
    obtain ⟨k', w⟩ := f
    rw [emplace]
    split
    next =>
      rcases List.mem_cons.mp member with rfl | later
      · exact List.mem_cons_self
      · exact .tail _ (ih later)
    next =>
      split
      next => exact .tail _ member
      next => exact member

theorem self_mem_emplace (unknown : find less k m = none) : (k, v) ∈ emplace less k v m := by
  induction m with
  | nil => exact List.mem_singleton_self _
  | cons e m ih =>
    obtain ⟨k', w⟩ := e
    rw [find] at unknown
    rw [emplace]
    split at unknown
    next before => exact if_pos before ▸ .tail _ (ih unknown)
    next notBefore =>
      split at unknown
      next after => rw [if_neg notBefore, if_pos after]; exact List.mem_cons_self
      next => cases unknown

section Order

variable (order : StrictTotal fun a b : K => less a b = true)

include order

theorem Increasing.emplace (increasing : Increasing less m) :
    Increasing less (emplace less k v m) := by
  induction m with
  | nil => exact List.pairwise_singleton _ _
  | cons e m ih =>
    obtain ⟨k', w⟩ := e
    obtain ⟨head, tail⟩ := List.pairwise_cons.mp increasing
    rw [ComparedMap.emplace]
    split
    next before =>
      refine List.pairwise_cons.mpr ⟨fun x member => ?_, ih tail⟩
      rcases mem_of_mem_emplace member with rfl | older
      · exact before
      · exact head x older
    next =>
      split
      next after =>
        refine List.pairwise_cons.mpr ⟨fun x member => ?_, increasing⟩
        rcases List.mem_cons.mp member with rfl | later
        · exact after
        · exact (order k).trans k' x.1 after (head x later)
      next => exact increasing

theorem increasing_ofList (es : List (K × V)) : Increasing less (ofList less es) := by
  induction es using List.reverseRecOn with
  | nil => exact List.Pairwise.nil
  | append_singleton es e ih =>
    rw [ofList, List.foldl_append]
    exact ih.emplace order

/-- In a container a key is found with what it is stored with. -/
theorem find_eq_some_iff (increasing : Increasing less m) :
    find less k m = some v ↔ (k, v) ∈ m := by
  induction m with
  | nil => exact iff_of_false (by simp [find]) List.not_mem_nil
  | cons e m ih =>
    obtain ⟨k', w⟩ := e
    obtain ⟨head, tail⟩ := List.pairwise_cons.mp increasing
    rw [find, List.mem_cons]
    split
    next before =>
      have other : (k, v) ≠ (k', w) := fun same =>
        (order k').ne before (congrArg Prod.fst same).symm
      rw [ih tail, or_iff_right other]
    next notBefore =>
      split
      next after =>
        refine iff_of_false (by simp) ?_
        rintro (same | later)
        · exact (order k).ne after (congrArg Prod.fst same)
        · exact (order k).irrefl ((order k).trans k' k after (head _ later))
      next notAfter =>
        have same : k = k' :=
          (((order k).total k').resolve_left notAfter).resolve_right notBefore
        subst same
        have fresh : (k, v) ∉ m := fun later => (order k).irrefl (head _ later)
        rw [or_iff_left fresh, Option.some.injEq, Prod.mk.injEq, eq_comm]
        exact (and_iff_right rfl).symm

theorem find_emplace [DecidableEq K] (increasing : Increasing less m) :
    find less k (emplace less k' v m) = (find less k m).or (if k' = k then some v else none) := by
  cases found : find less k' m with
  | some w =>
    rw [emplace_of_find found]
    by_cases same : k' = k
    · rw [← same, found, Option.some_or]
    · rw [if_neg same, Option.or_none]
  | none =>
    by_cases same : k' = k
    · subst same
      rw [if_pos rfl, found, Option.none_or]
      exact (find_eq_some_iff order (increasing.emplace order)).mpr (self_mem_emplace found)
    · rw [if_neg same, Option.or_none]
      ext x
      rw [find_eq_some_iff order (increasing.emplace order), find_eq_some_iff order increasing]
      refine ⟨fun member => ?_, mem_emplace_of_mem⟩
      exact (mem_of_mem_emplace member).resolve_left fun new =>
        same (congrArg Prod.fst new).symm

variable [DecidableEq K]

/-- A container built one entry after the other holds what comes first under each key. -/
theorem find_ofList (es : List (K × V)) :
    find less k (ofList less es) = storedFirst (· = ·) k es := by
  induction es using List.reverseRecOn with
  | nil => rfl
  | append_singleton es e ih =>
    have step : ofList less (es ++ [e]) = emplace less e.1 e.2 (ofList less es) := by
      rw [ofList, List.foldl_append]
      rfl
    rw [step, find_emplace order (increasing_ofList order es), ih, storedFirst, storedFirst,
      List.find?_append, Option.map_or]
    congr 1
    by_cases same : e.1 = k <;> simp [same]

/-- Containers are the same when they hold the same under each key. -/
theorem ofList_eq_iff {es es' : List (K × V)} : ofList less es = ofList less es' ↔
      ∀ k, storedFirst (· = ·) k es = storedFirst (· = ·) k es' := by
  refine ⟨fun same k => ?_, fun same => ?_⟩
  · rw [← find_ofList order, ← find_ofList order, same]
  · have : Std.Irrefl fun e e' : K × V => less e.1 e'.1 = true :=
      ⟨fun e => (order e.1).irrefl⟩
    have : Std.Antisymm fun e e' : K × V => less e.1 e'.1 = true :=
      ⟨fun e e' before after => absurd after ((order e.1).asymm before)⟩
    refine List.Pairwise.eq_of_mem_iff (increasing_ofList order es) (increasing_ofList order es')
      fun e => ?_
    rw [← find_eq_some_iff order (increasing_ofList order es), find_ofList order, same,
      ← find_ofList order, find_eq_some_iff order (increasing_ofList order es')]

end Order

end ComparedMap

end FbThrift
