import Mathlib.Data.List.Sort
import Mathlib.Data.List.Perm.Basic
import Mathlib.Order.Basic

/-!
# Canonical orders and concatenated codes

Items written in the order of their keys give the same code whatever order they are held in,
as long as their keys differ.  The code of a sequence is the concatenation of the codes of its
items, without a count or an end mark: it can be taken apart when the code of an item can be
split off and what follows the sequence does not begin like one more item.
-/

namespace FbThrift

open List (Forall₂)

/-! ## Lists up to order -/

/-- Related item by item once one of the lists is reordered. -/
abbrev UpToOrder {α β : Type} (R : α → β → Prop) : List α → List β → Prop :=
  Relation.Comp (Forall₂ R) List.Perm

section Order

variable {α β γ : Type}

theorem UpToOrder.of_perm {R : α → α → Prop} (self : ∀ a, R a a) {as bs : List α}
    (perm : as.Perm bs) : UpToOrder R as bs :=
  ⟨as, List.forall₂_same.mpr fun a _ => self a, perm⟩

variable {f : α → γ} {g : β → γ}

/-- Lists whose images are a permutation of each other match item by item up to order. -/
theorem upToOrder_of_map_perm {as : List α} {bs : List β}
    (perm : (as.map f).Perm (bs.map g)) : UpToOrder (fun a b => f a = g b) as bs := by
  have images : Forall₂ (fun c b => c = g b) (bs.map g) bs :=
    List.forall₂_map_left_iff.mpr (List.forall₂_same.mpr fun _ _ => rfl)
  obtain ⟨l, related, reordered⟩ := List.perm_comp_forall₂ perm images
  exact ⟨l, List.forall₂_map_left_iff.mp related, reordered⟩

/-- A permutation of images is the image of a permutation. -/
theorem exists_of_perm_map {l : List γ} {as : List α} (perm : l.Perm (as.map f)) :
    ∃ as' : List α, as'.Perm as ∧ l = as'.map f := by
  rw [← List.map_id l] at perm
  obtain ⟨as', related, reordered⟩ := upToOrder_of_map_perm perm
  refine ⟨as', reordered, ?_⟩
  rw [← List.forall₂_eq_eq_eq, List.forall₂_map_right_iff]
  exact related

theorem map_eq_of_forall₂ {R : α → β → Prop} {as : List α}
    {bs : List β} (related : Forall₂ R as bs)
    (same : ∀ a ∈ as, ∀ b ∈ bs, R a b → f a = g b) : as.map f = bs.map g := by
  induction related with
  | nil => rfl
  | cons first rest ih =>
    rw [List.map_cons, List.map_cons, same _ (by simp) _ (by simp) first,
      ih fun a left b right => same a (by simp [left]) b (by simp [right])]

theorem forall₂_imp_of_mem {R S : α → β → Prop} {as : List α} {bs : List β}
    (related : Forall₂ R as bs) (implies : ∀ a ∈ as, ∀ b ∈ bs, R a b → S a b) :
    Forall₂ S as bs := by
  induction related with
  | nil => exact .nil
  | cons first rest ih =>
    refine .cons (implies _ (by simp) _ (by simp) first) (ih fun a left b right => ?_)
    exact implies a (by simp [left]) b (by simp [right])

theorem exists_of_forall₂ {R : α → β → Prop} {as : List α} {bs : List β}
    (related : Forall₂ R as bs) {a : α} (member : a ∈ as) : ∃ b ∈ bs, R a b := by
  induction related with
  | nil => cases member
  | cons first rest ih =>
    rcases List.mem_cons.mp member with rfl | later
    · exact ⟨_, by simp, first⟩
    · obtain ⟨b, inside, holds⟩ := ih later
      exact ⟨b, by simp [inside], holds⟩

theorem UpToOrder.map_perm {R : α → β → Prop} {as : List α}
    {bs : List β} (reordered : UpToOrder R as bs)
    (same : ∀ a ∈ as, ∀ b ∈ bs, R a b → f a = g b) : (as.map f).Perm (bs.map g) := by
  obtain ⟨l, related, perm⟩ := reordered
  rw [map_eq_of_forall₂ related fun a left b right =>
    same a left b (perm.mem_iff.mp right)]
  exact perm.map g

theorem UpToOrder.perm {R : α → β → Prop} {as as' : List α} {bs bs' : List β}
    (left : as'.Perm as) (related : Forall₂ R as' bs') (right : bs'.Perm bs) :
    UpToOrder R as bs := by
  obtain ⟨l, related', perm⟩ := List.perm_comp_forall₂ left.symm related
  exact ⟨l, related', perm.trans right⟩

theorem upToOrder_singleton {R : α → β → Prop} {a : α} {b : β} : UpToOrder R [a] [b] ↔ R a b := by
  constructor
  · rintro ⟨l, related, perm⟩
    obtain ⟨c, inside, holds⟩ := exists_of_forall₂ related (List.mem_singleton_self a)
    rwa [List.mem_singleton.mp (perm.mem_iff.mp inside)] at holds
  · exact fun holds => ⟨[b], .cons holds .nil, .refl _⟩

end Order

/-! ## Sorting by key -/

section Sorting

variable {α κ : Type} [LinearOrder κ]

/-- The items in the order of their keys. -/
def sortedBy (key : α → κ) (items : List α) : List α :=
  items.insertionSort (key · ≤ key ·)

theorem sortedBy_perm (key : α → κ) (items : List α) : (sortedBy key items).Perm items :=
  List.perm_insertionSort _ items

theorem sortedBy_pairwise (key : α → κ) (items : List α) :
    (sortedBy key items).Pairwise (key · ≤ key ·) :=
  haveI : Std.Total (key · ≤ key · : α → α → Prop) := ⟨fun a b => le_total (key a) (key b)⟩
  haveI : IsTrans α (key · ≤ key ·) := ⟨fun _ _ _ => le_trans⟩
  List.pairwise_insertionSort _ items

variable {key : α → κ}

theorem sortedBy_eq_self {items : List α}
    (ascending : (items.map key).Pairwise (· < ·)) : sortedBy key items = items := by
  apply List.Pairwise.insertionSort_eq
  exact (List.pairwise_map.mp ascending).imp le_of_lt

/-- Two ascending lists of the same items with distinct keys are equal. -/
theorem eq_of_perm_of_pairwise {as bs : List α} (perm : as.Perm bs)
    (distinct : (as.map key).Nodup) (left : as.Pairwise (key · ≤ key ·))
    (right : bs.Pairwise (key · ≤ key ·)) : as = bs := by
  refine perm.eq_of_pairwise (fun a b member member' below above => ?_) left right
  exact List.inj_on_of_nodup_map distinct member (perm.mem_iff.mpr member')
    (le_antisymm below above)

theorem sortedBy_congr {as bs : List α} (perm : as.Perm bs)
    (distinct : (as.map key).Nodup) : sortedBy key as = sortedBy key bs := by
  have both : (sortedBy key as).Perm (sortedBy key bs) :=
    ((sortedBy_perm key as).trans perm).trans (sortedBy_perm key bs).symm
  refine eq_of_perm_of_pairwise both ?_ (sortedBy_pairwise key as) (sortedBy_pairwise key bs)
  exact (((sortedBy_perm key as).map key).nodup_iff).mpr distinct

theorem sortedBy_id_congr {as bs : List κ} (perm : as.Perm bs) :
    sortedBy id as = sortedBy id bs := by
  refine List.Perm.eq_of_pairwise (fun a b _ _ below above => le_antisymm below above)
    (sortedBy_pairwise id as) (sortedBy_pairwise id bs) ?_
  exact ((sortedBy_perm id as).trans perm).trans (sortedBy_perm id bs).symm

/-- The items of an ordered map filled one by one: an item whose key is taken is dropped. -/
def emplaceAll (key : α → κ) (items : List α) : List α :=
  items.foldl (fun map item => if map.any (key · = key item) then map else map ++ [item]) []

theorem emplaceAll_eq_self {items : List α} (distinct : (items.map key).Nodup) :
    emplaceAll key items = items := by
  suffices filled : ∀ map : List α, ((map ++ items).map key).Nodup →
      items.foldl (fun map item => if map.any (key · = key item) then map else map ++ [item])
        map = map ++ items by
    exact filled [] distinct
  clear distinct
  intro map distinct
  induction items generalizing map with
  | nil => simp
  | cons item items ih =>
    have fresh : map.any (key · = key item) = false := by
      rw [List.any_eq_false]
      intro other member taken
      rw [List.map_append, List.map_cons] at distinct
      exact (List.nodup_append.mp distinct).2.2 _ (List.mem_map_of_mem member) _
        (by simp) (of_decide_eq_true taken)
    rw [List.foldl_cons, fresh, if_neg (by simp), ih (map ++ [item]) (by simpa using distinct)]
    simp

end Sorting

/-! ## Taking concatenations apart -/

section Split

variable {α β σ : Type} {R : α → β → Prop} {code : α → List σ} {code' : β → List σ}
  {P : List σ → Prop} {as : List α} {bs : List β} {x y : List σ}

theorem rest_flatMap (step : ∀ a ∈ as, ∀ s, P s → P (code a ++ s)) (rest : P x) :
    P (as.flatMap code ++ x) := by
  induction as with
  | nil => exact rest
  | cons a as ih =>
    rw [List.flatMap_cons, List.append_assoc]
    exact step a (by simp) _ (ih fun a member => step a (by simp [member]))

/-- Sequences are taken apart item by item when their lengths agree, or when neither is
followed by what reads as an item of the other. -/
theorem flatMap_split (splits : ∀ a ∈ as, ∀ b ∈ bs, ∀ s t, P s → P t → code a ++ s = code' b ++ t →
      R a b ∧ s = t)
    (step : ∀ a ∈ as, ∀ s, P s → P (code a ++ s)) (rest : P x)
    (step' : ∀ b ∈ bs, ∀ s, P s → P (code' b ++ s)) (rest' : P y)
    (ends : as.length = bs.length ∨
      (∀ b ∈ bs, ∀ s, P s → x ≠ code' b ++ s) ∧ ∀ a ∈ as, ∀ s, P s → y ≠ code a ++ s)
    (same : as.flatMap code ++ x = bs.flatMap code' ++ y) : Forall₂ R as bs ∧ x = y := by
  induction as generalizing bs with
  | nil =>
    cases bs with
    | nil => exact ⟨.nil, same⟩
    | cons b bs =>
      rcases ends with length | ⟨noMore, _⟩
      · cases length
      · rw [List.flatMap_cons, List.append_assoc] at same
        have more : P (bs.flatMap code' ++ y) :=
          rest_flatMap (fun b member => step' b (by simp [member])) rest'
        exact (noMore b (by simp) _ more same).elim
  | cons a as ih =>
    have more : P (as.flatMap code ++ x) :=
      rest_flatMap (fun a member => step a (by simp [member])) rest
    cases bs with
    | nil =>
      rcases ends with length | ⟨_, noMore⟩
      · cases length
      · rw [List.flatMap_cons, List.append_assoc] at same
        exact (noMore a (by simp) _ more same.symm).elim
    | cons b bs =>
      have more' : P (bs.flatMap code' ++ y) :=
        rest_flatMap (fun b member => step' b (by simp [member])) rest'
      rw [List.flatMap_cons, List.flatMap_cons, List.append_assoc, List.append_assoc] at same
      obtain ⟨first, same⟩ := splits a (by simp) b (by simp) _ _ more more' same
      have still : as.length = bs.length ∨ (∀ b ∈ bs, ∀ s, P s → x ≠ code' b ++ s) ∧
            ∀ a ∈ as, ∀ s, P s → y ≠ code a ++ s := by
        rcases ends with length | ⟨noMore, noMore'⟩
        · exact .inl (Nat.succ.inj length)
        · exact .inr ⟨fun b member => noMore b (by simp [member]),
            fun a member => noMore' a (by simp [member])⟩
      obtain ⟨others, ends⟩ := ih
        (fun a left b right => splits a (by simp [left]) b (by simp [right]))
        (fun a member => step a (by simp [member]))
        (fun b member => step' b (by simp [member])) still same
      exact ⟨.cons first others, ends⟩

end Split

end FbThrift
