/-
  Lame/DisjointSets.lean
  ======================
  **Parent forests and the partitions they stand for.**

  A forest gives every element a parent and a weight that grows on the way up, so that
  climbing ends at a root.  Two operations act on it: `compress` moves an element directly
  below its root and changes no root, `link` hangs one root below another and merges their
  classes.  In a sized forest the weight of a root is the number of elements below it.

  `Linked pairs` is the equivalence that a list of pairs generates; a forest represents
  the list when having the same root is that equivalence.
-/
import Mathlib.Data.Finset.Lattice.Fold
import Mathlib.Data.Fintype.Card
import Mathlib.Logic.Relation
import Mathlib.Order.Lattice.Nat

namespace Lame.DisjointSets

/-! ## 1. Forests -/

structure Forest (α : Type) where
  parent : α → α
  weight : α → Nat
  weight_lt : ∀ x, parent x ≠ x → weight x < weight (parent x)

namespace Forest

variable {α : Type} [Fintype α] (forest : Forest α)

/-- How far it can be up from an element. -/
def height (x : α) : Nat := Finset.univ.sup forest.weight - forest.weight x

theorem height_parent_lt {x : α} (h : forest.parent x ≠ x) :
    forest.height (forest.parent x) < forest.height x := by
  have hlt := forest.weight_lt x h
  have hle : forest.weight (forest.parent x) ≤ Finset.univ.sup forest.weight :=
    Finset.le_sup (Finset.mem_univ _)
  unfold height
  omega

def root {α : Type} [Fintype α] [DecidableEq α] (forest : Forest α) (x : α) : α :=
  if forest.parent x = x then x else root forest (forest.parent x)
termination_by forest.height x
decreasing_by exact forest.height_parent_lt ‹_›

variable [DecidableEq α]

theorem root_of_parent_eq {x : α} (h : forest.parent x = x) : forest.root x = x := by
  rw [root, if_pos h]

theorem root_parent (x : α) : forest.root (forest.parent x) = forest.root x := by
  by_cases h : forest.parent x = x
  · rw [h]
  · conv_rhs => rw [root, if_neg h]

/-- Induction along the way up. -/
theorem climb {P : α → Prop} (hroot : ∀ x, forest.parent x = x → P x)
    (hup : ∀ x, forest.parent x ≠ x → P (forest.parent x) → P x) (x : α) : P x := by
  induction hheight : forest.height x using Nat.strong_induction_on generalizing x with
  | h height ih =>
      by_cases h : forest.parent x = x
      · exact hroot x h
      · exact hup x h (ih _ (hheight ▸ forest.height_parent_lt h) _ rfl)

theorem parent_root (x : α) : forest.parent (forest.root x) = forest.root x := by
  induction x using forest.climb with
  | hroot x h => rw [forest.root_of_parent_eq h, h]
  | hup x _ ih => rwa [forest.root_parent] at ih

theorem root_root (x : α) : forest.root (forest.root x) = forest.root x :=
  forest.root_of_parent_eq (forest.parent_root x)

theorem weight_le_root (x : α) : forest.weight x ≤ forest.weight (forest.root x) := by
  induction x using forest.climb with
  | hroot x h => rw [forest.root_of_parent_eq h]
  | hup x h ih =>
      rw [forest.root_parent] at ih
      exact Nat.le_trans (Nat.le_of_lt (forest.weight_lt x h)) ih

theorem weight_lt_root {x : α} (h : forest.parent x ≠ x) :
    forest.weight x < forest.weight (forest.root x) := by
  rw [← forest.root_parent]
  exact Nat.lt_of_lt_of_le (forest.weight_lt x h) (forest.weight_le_root _)

/-! ## 2. Compressing and linking -/

/-- The element moves directly below its root. -/
def compress (x : α) : Forest α where
  parent := Function.update forest.parent x (forest.root x)
  weight := forest.weight
  weight_lt := by
    intro y hy
    by_cases hyx : y = x
    · subst hyx
      rw [Function.update_self] at hy ⊢
      apply forest.weight_lt_root
      intro hroot
      exact hy (forest.root_of_parent_eq hroot)
    · rw [Function.update_of_ne hyx] at hy ⊢
      exact forest.weight_lt y hy

theorem root_compress (x y : α) : (forest.compress x).root y = forest.root y := by
  induction y using forest.climb with
  | hroot y h =>
      rw [forest.root_of_parent_eq h]
      apply root_of_parent_eq
      by_cases hyx : y = x
      · subst hyx
        exact (Function.update_self ..).trans (forest.root_of_parent_eq h)
      · exact (Function.update_of_ne hyx ..).trans h
  | hup y h ih =>
      by_cases hyx : y = x
      · subst hyx
        rw [← root_parent, show (forest.compress y).parent y = forest.root y from
          Function.update_self ..]
        apply root_of_parent_eq
        by_cases hroot : forest.root y = y
        · rw [hroot]
          exact (Function.update_self ..).trans hroot
        · exact (Function.update_of_ne hroot ..).trans (forest.parent_root y)
      · rw [← root_parent, show (forest.compress x).parent y = forest.parent y from
          Function.update_of_ne hyx .., ih, forest.root_parent]

/-- The root `x` is hung below the root `y`, which takes over its weight. -/
def link (x y : α) (hx : 0 < forest.weight x) (hy : 0 < forest.weight y)
    (hroot : forest.parent y = y) : Forest α where
  parent := Function.update forest.parent x y
  weight := Function.update forest.weight y (forest.weight y + forest.weight x)
  weight_lt := by
    intro z hz
    have hgrows : ∀ u, forest.weight u ≤
        Function.update forest.weight y (forest.weight y + forest.weight x) u := by
      intro u
      by_cases huy : u = y
      · rw [huy, Function.update_self]
        exact Nat.le_add_right _ _
      · rw [Function.update_of_ne huy]
    by_cases hzx : z = x
    · subst hzx
      rw [Function.update_self] at hz ⊢
      rw [Function.update_of_ne (fun h => hz h.symm), Function.update_self]
      omega
    · rw [Function.update_of_ne hzx] at hz ⊢
      have hzy : z ≠ y := by
        rintro rfl
        exact hz hroot
      rw [Function.update_of_ne hzy]
      exact Nat.lt_of_lt_of_le (forest.weight_lt z hz) (hgrows _)

theorem root_link {x y : α} (hx : 0 < forest.weight x) (hy : 0 < forest.weight y)
    (hxroot : forest.parent x = x) (hyroot : forest.parent y = y) (hne : x ≠ y) (z : α) :
    (forest.link x y hx hy hyroot).root z = if forest.root z = x then y else forest.root z := by
  have hparent_x : (forest.link x y hx hy hyroot).parent x = y := Function.update_self ..
  have hparent {u : α} (hu : u ≠ x) :
      (forest.link x y hx hy hyroot).parent u = forest.parent u := Function.update_of_ne hu ..
  have hy' : (forest.link x y hx hy hyroot).root y = y :=
    root_of_parent_eq _ ((hparent hne.symm).trans hyroot)
  induction z using forest.climb with
  | hroot z h =>
      rw [forest.root_of_parent_eq h]
      by_cases hzx : z = x
      · rw [if_pos hzx, hzx, ← root_parent, hparent_x, hy']
      · rw [if_neg hzx]
        exact root_of_parent_eq _ ((hparent hzx).trans h)
  | hup z h ih =>
      have hzx : z ≠ x := by
        rintro rfl
        exact h hxroot
      rw [← root_parent, hparent hzx, ih, forest.root_parent]

end Forest

/-! ## 3. Sizes -/

/-- A forest in which the weight of a root is the size of its class. -/
structure SizedForest (α : Type) [Fintype α] [DecidableEq α] extends Forest α where
  sized : ∀ x, parent x = x →
    weight x = (Finset.univ.filter fun y => toForest.root y = x).card

namespace SizedForest

variable {α : Type} [Fintype α] [DecidableEq α] (forest : SizedForest α)

theorem weight_pos {x : α} (h : forest.parent x = x) : 0 < forest.weight x := by
  rw [forest.sized x h]
  exact Finset.card_pos.mpr ⟨x, by simp [forest.root_of_parent_eq h]⟩

theorem weight_le_card (x : α) : forest.weight x ≤ Fintype.card α := by
  refine Nat.le_trans (forest.weight_le_root x) ?_
  rw [forest.sized _ (forest.parent_root x)]
  exact Finset.card_le_univ _

/-- Everyone on their own. -/
def singletons (α : Type) [Fintype α] [DecidableEq α] : SizedForest α where
  parent := id
  weight := fun _ => 1
  weight_lt := fun _ h => absurd rfl h
  sized := by
    intro x _
    have hroot (y : α) : Forest.root ⟨id, fun _ => 1, fun _ h => absurd rfl h⟩ y = y :=
      Forest.root_of_parent_eq _ rfl
    rw [Finset.filter_congr fun y _ => by rw [hroot], Finset.filter_eq', if_pos (Finset.mem_univ x),
      Finset.card_singleton]

theorem root_singletons (x : α) : (singletons α).root x = x :=
  Forest.root_of_parent_eq _ rfl

def compress (x : α) : SizedForest α where
  toForest := forest.toForest.compress x
  sized := by
    intro y hy
    simp only [Forest.root_compress]
    apply forest.sized
    by_cases hyx : y = x
    · subst hyx
      have hroot : forest.root y = y := (Function.update_self ..).symm.trans hy
      rw [← hroot]
      exact forest.parent_root y
    · exact (Function.update_of_ne hyx ..).symm.trans hy

theorem root_compress (x y : α) : (forest.compress x).root y = forest.root y :=
  forest.toForest.root_compress x y

def link (x y : α) (hx : forest.parent x = x) (hy : forest.parent y = y) (hne : x ≠ y) :
    SizedForest α where
  toForest := forest.toForest.link x y (forest.weight_pos hx) (forest.weight_pos hy) hy
  sized := by
    intro z hz
    simp only [forest.toForest.root_link (forest.weight_pos hx) (forest.weight_pos hy) hx hy hne]
    have hzx : z ≠ x := by
      rintro rfl
      exact hne ((Function.update_self ..).symm.trans hz).symm
    have hzroot : forest.parent z = z := (Function.update_of_ne hzx ..).symm.trans hz
    by_cases hzy : z = y
    · subst hzy
      have hclasses : (Finset.univ.filter fun u =>
          (if forest.root u = x then z else forest.root u) = z) =
          (Finset.univ.filter fun u => forest.root u = z) ∪
            Finset.univ.filter fun u => forest.root u = x := by
        ext u
        simp only [Finset.mem_filter, Finset.mem_univ, true_and, Finset.mem_union]
        by_cases hu : forest.root u = x
        · simp [hu]
        · simp [hu]
      have hdisjoint : Disjoint (Finset.univ.filter fun u => forest.root u = z)
          (Finset.univ.filter fun u => forest.root u = x) := by
        rw [Finset.disjoint_filter]
        intro u _ hu
        rw [hu]
        exact hzx
      rw [hclasses, Finset.card_union_of_disjoint hdisjoint, ← forest.sized z hzroot,
        ← forest.sized x hx]
      exact Function.update_self ..
    · have hclass : (Finset.univ.filter fun u =>
          (if forest.root u = x then y else forest.root u) = z) =
          Finset.univ.filter fun u => forest.root u = z := by
        ext u
        simp only [Finset.mem_filter, Finset.mem_univ, true_and]
        by_cases hu : forest.root u = x
        · simp [hu, Ne.symm hzy, Ne.symm hzx]
        · simp [hu]
      rw [hclass, ← forest.sized z hzroot]
      exact Function.update_of_ne hzy ..

theorem root_link {x y : α} (hx : forest.parent x = x) (hy : forest.parent y = y) (hne : x ≠ y)
    (z : α) :
    (forest.link x y hx hy hne).root z = if forest.root z = x then y else forest.root z :=
  forest.toForest.root_link (forest.weight_pos hx) (forest.weight_pos hy) hx hy hne z

end SizedForest

/-! ## 4. The partition -/

/-- The equivalence that the pairs generate. -/
def Linked {α : Type} (pairs : List (α × α)) : α → α → Prop :=
  Relation.EqvGen fun x y => (x, y) ∈ pairs

/-- The representatives tell apart exactly what the pairs do not link. -/
def Represents {α β : Type} (rep : α → β) (pairs : List (α × α)) : Prop :=
  ∀ x y, rep x = rep y ↔ Linked pairs x y

section Linked

variable {α β : Type} {pairs more : List (α × α)}

theorem Linked.mono (hsub : pairs ⊆ more) {x y : α} (h : Linked pairs x y) : Linked more x y :=
  Relation.EqvGen.mono (fun _ _ hmem => hsub hmem) _ _ h

theorem linked_nil_iff {x y : α} : Linked ([] : List (α × α)) x y ↔ x = y := by
  constructor
  · intro h
    induction h with
    | rel _ _ hmem => cases hmem
    | refl => rfl
    | symm _ _ _ ih => exact ih.symm
    | trans _ _ _ _ _ ih ih' => exact ih.trans ih'
  · rintro rfl
    exact .refl x

/-- What every pair keeps, linked elements share. -/
theorem Linked.eq_of_forall {f : α → β} (hpairs : ∀ x y, (x, y) ∈ pairs → f x = f y) {x y : α}
    (h : Linked pairs x y) : f x = f y := by
  induction h with
  | rel x y hmem => exact hpairs x y hmem
  | refl => rfl
  | symm _ _ _ ih => exact ih.symm
  | trans _ _ _ _ _ ih ih' => exact ih.trans ih'

variable [DecidableEq β] {rep next : α → β}

/-- **Merging two classes links two elements.** -/
theorem Represents.merge (h : Represents rep pairs) {x y : α} {root : β}
    (hroot : root = rep x ∨ root = rep y)
    (hnext : ∀ z, next z = if rep z = rep x ∨ rep z = rep y then root else rep z) :
    Represents next (pairs ++ [(x, y)]) := by
  have hold {u v : α} (huv : rep u = rep v) : Linked (pairs ++ [(x, y)]) u v :=
    ((h u v).mp huv).mono fun _ hmem => List.mem_append_left _ hmem
  have hpair : Linked (pairs ++ [(x, y)]) x y :=
    .rel x y (List.mem_append_right _ (List.mem_singleton_self _))
  intro u v
  constructor
  · -- merged elements meet in `x`
    have hmerged {w : α} (hw : rep w = rep x ∨ rep w = rep y) :
        Linked (pairs ++ [(x, y)]) w x := by
      rcases hw with hw | hw
      · exact hold hw
      · exact (hold hw).trans _ _ _ (hpair.symm)
    have hapart {w : α} (hw : ¬ (rep w = rep x ∨ rep w = rep y)) : rep w ≠ root := by
      rintro hwr
      rcases hroot with hr | hr
      · exact hw (.inl (hwr.trans hr))
      · exact hw (.inr (hwr.trans hr))
    intro huv
    rw [hnext, hnext] at huv
    by_cases hu : rep u = rep x ∨ rep u = rep y
    · by_cases hv : rep v = rep x ∨ rep v = rep y
      · exact (hmerged hu).trans _ _ _ ((hmerged hv).symm)
      · rw [if_pos hu, if_neg hv] at huv
        exact absurd huv.symm (hapart hv)
    · by_cases hv : rep v = rep x ∨ rep v = rep y
      · rw [if_neg hu, if_pos hv] at huv
        exact absurd huv (hapart hu)
      · rw [if_neg hu, if_neg hv] at huv
        exact hold huv
  · refine Linked.eq_of_forall fun u v hmem => ?_
    rw [hnext, hnext]
    rcases List.mem_append.mp hmem with hmem | hmem
    · rw [(h u v).mpr (.rel u v hmem)]
    · obtain ⟨rfl, rfl⟩ := Prod.mk.inj (List.mem_singleton.mp hmem)
      rw [if_pos (.inl rfl), if_pos (.inr rfl)]

end Linked

end Lame.DisjointSets
