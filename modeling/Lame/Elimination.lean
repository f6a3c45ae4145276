/-
  Lame/Elimination.lean
  =====================
  **Pairs are thinned out until none clash.**

  Items are removed one by one, each because it yields to another item that is still there.
  Then every removed item yields, step by step, to one that is kept (`Eliminated`).  Where
  clashing is transitive and no two items rank the same, what is kept is fixed by the items
  alone: the best of every group, whatever the order of the removals.
-/
import Mathlib.Data.List.Pairwise
import Mathlib.Data.List.Perm.Basic
import Mathlib.Logic.Relation
import Mathlib.Order.Lattice

namespace Lame.Elimination

open Relation

variable {α : Type} {Yields : α → α → Prop} {items kept removed : List α}

structure Eliminated (Yields : α → α → Prop) (items kept removed : List α) : Prop where
  perm : (kept ++ removed).Perm items
  yields : ∀ x ∈ removed, ∃ y ∈ kept, TransGen Yields x y

theorem eliminated_nil : Eliminated Yields [] [] [] where
  perm := .nil
  yields := by
    intro x hx
    cases hx

theorem Eliminated.mem_items (h : Eliminated Yields items kept removed) {x : α} :
    x ∈ items ↔ x ∈ kept ∨ x ∈ removed := by
  rw [← h.perm.mem_iff, List.mem_append]

/-- An item of those that were left yields to one that is kept. -/
theorem Eliminated.exists_kept (h : Eliminated Yields items kept removed) {x : α}
    (hx : x ∈ items) : ∃ y ∈ kept, ReflTransGen Yields x y := by
  rcases h.mem_items.mp hx with hx | hx
  · exact ⟨x, hx, .refl⟩
  · obtain ⟨y, hy, hyields⟩ := h.yields x hx
    exact ⟨y, hy, hyields.to_reflTransGen⟩

theorem Eliminated.perm_rest {rest tail out : List α}
    (h : Eliminated Yields tail kept removed) (hrest : (tail ++ out).Perm rest) :
    (kept ++ (out ++ removed)).Perm rest := by
  have hswap : (kept ++ (out ++ removed)).Perm (kept ++ (removed ++ out)) :=
    List.perm_append_comm.append_left kept
  rw [← List.append_assoc kept removed out] at hswap
  exact hswap.trans ((h.perm.append_right out).trans hrest)

/-- After `x` has thrown some items out, it is kept, and the others are thinned out. -/
theorem Eliminated.cons_kept {x : α} {rest tail out : List α}
    (h : Eliminated Yields tail kept removed) (hrest : (tail ++ out).Perm rest)
    (hout : ∀ y ∈ out, Yields y x) :
    Eliminated Yields (x :: rest) (x :: kept) (out ++ removed) where
  perm := (h.perm_rest hrest).cons x
  yields := by
    intro y hy
    rcases List.mem_append.mp hy with hy | hy
    · exact ⟨x, List.mem_cons_self, .single (hout y hy)⟩
    · obtain ⟨z, hz, hyields⟩ := h.yields y hy
      exact ⟨z, List.mem_cons_of_mem x hz, hyields⟩

/-- After `x` has thrown some items out, it yields itself. -/
theorem Eliminated.cons_removed {x winner : α} {rest tail out : List α}
    (h : Eliminated Yields tail kept removed) (hrest : (tail ++ out).Perm rest)
    (hout : ∀ y ∈ out, Yields y x) (hwinner : winner ∈ tail) (hx : Yields x winner) :
    Eliminated Yields (x :: rest) kept (out ++ x :: removed) where
  perm := by
    have hmiddle : (out ++ x :: removed).Perm (x :: (out ++ removed)) := List.perm_middle
    exact (hmiddle.append_left kept).trans
      (List.perm_middle.trans ((h.perm_rest hrest).cons x))
  yields := by
    obtain ⟨z, hz, hchain⟩ := h.exists_kept hwinner
    have hxz : TransGen Yields x z := .trans_left (.single hx) hchain
    intro y hy
    rw [List.mem_append, List.mem_cons] at hy
    rcases hy with hy | rfl | hy
    · exact ⟨z, hz, .head (hout y hy) hxz⟩
    · exact ⟨z, hz, hxz⟩
    · exact h.yields y hy

/-! ### The best of every group -/

/-- What makes the outcome independent of the order. -/
structure Ranked {κ : Type} [LinearOrder κ] (Clash : α → α → Prop) (rank : α → κ)
    (items : List α) : Prop where
  symm : ∀ x ∈ items, ∀ y ∈ items, Clash x y → Clash y x
  trans : ∀ x ∈ items, ∀ y ∈ items, ∀ z ∈ items, Clash x y → Clash y z → Clash x z
  ne : items.Pairwise fun x y => rank x ≠ rank y

section Best

variable {κ : Type} [LinearOrder κ] {Clash : α → α → Prop} {rank : α → κ}

theorem Ranked.of_perm (h : Ranked Clash rank items) {others : List α}
    (hperm : others.Perm items) : Ranked Clash rank others where
  symm := fun x hx y hy => h.symm x (hperm.mem_iff.mp hx) y (hperm.mem_iff.mp hy)
  trans := fun x hx y hy z hz =>
    h.trans x (hperm.mem_iff.mp hx) y (hperm.mem_iff.mp hy) z (hperm.mem_iff.mp hz)
  ne := hperm.symm.pairwise h.ne Ne.symm

theorem Ranked.eq_of_rank_eq (h : Ranked Clash rank items) {x y : α} (hx : x ∈ items)
    (hy : y ∈ items) (heq : rank x = rank y) : x = y := by
  by_contra hne
  have hsymm : Std.Symm fun x y => rank x ≠ rank y := ⟨fun _ _ => Ne.symm⟩
  exact h.ne.forall hx hy hne heq

theorem Ranked.nodup (h : Ranked Clash rank items) : items.Nodup :=
  h.ne.imp fun hne heq => hne (congrArg rank heq)

/-- Yielding is within the items, to one that clashes and ranks no higher. -/
def Faithful (Clash : α → α → Prop) (rank : α → κ) (items : List α)
    (Yields : α → α → Prop) : Prop :=
  ∀ x y, Yields x y → x ∈ items ∧ y ∈ items ∧ Clash x y ∧ rank y ≤ rank x

theorem Faithful.transGen (hyields : Faithful Clash rank items Yields)
    (hranked : Ranked Clash rank items) : Faithful Clash rank items (TransGen Yields) := by
  intro x y hchain
  induction hchain with
  | single hxy => exact hyields _ _ hxy
  | tail _ hyz ih =>
      obtain ⟨hx, hy, hclash, hle⟩ := ih
      obtain ⟨-, hz, hclash', hle'⟩ := hyields _ _ hyz
      exact ⟨hx, hz, hranked.trans _ hx _ hy _ hz hclash hclash', le_trans hle' hle⟩

/-- Kept are the best of the items they clash with. -/
theorem Eliminated.mem_kept_iff (h : Eliminated Yields items kept removed)
    (hyields : Faithful Clash rank items Yields) (hranked : Ranked Clash rank items)
    (hkept : kept.Pairwise fun x y => ¬ Clash x y) {x : α} :
    x ∈ kept ↔ x ∈ items ∧ ∀ y ∈ items, Clash x y → rank x ≤ rank y := by
  have hchain := hyields.transGen hranked
  have hmem {y : α} (hy : y ∈ kept) : y ∈ items := h.mem_items.mpr (.inl hy)
  have hapart {y z : α} (hy : y ∈ kept) (hz : z ∈ kept) (hne : y ≠ z) : ¬ Clash y z := by
    have hboth : kept.Pairwise fun x y => ¬ Clash x y ∧ ¬ Clash y x :=
      hkept.imp_of_mem fun hx hy hnot =>
        ⟨hnot, fun hclash => hnot (hranked.symm _ (hmem hy) _ (hmem hx) hclash)⟩
    have hsymm : Std.Symm fun x y => ¬ Clash x y ∧ ¬ Clash y x := ⟨fun _ _ => And.symm⟩
    exact (hboth.forall hy hz hne).1
  constructor
  · intro hx
    refine ⟨hmem hx, fun y hy hclash => ?_⟩
    rcases h.mem_items.mp hy with hykept | hygone
    · by_cases hxy : x = y
      · rw [hxy]
      · exact absurd hclash (hapart hx hykept hxy)
    · obtain ⟨z, hz, hyz⟩ := h.yields y hygone
      obtain ⟨-, -, hclash', hle⟩ := hchain y z hyz
      by_cases hxz : x = z
      · rwa [hxz]
      · exact absurd (hranked.trans x (hmem hx) y hy z (hmem hz) hclash hclash')
          (hapart hx hz hxz)
  · rintro ⟨hx, hbest⟩
    rcases h.mem_items.mp hx with hkept | hgone
    · exact hkept
    · obtain ⟨y, hy, hxy⟩ := h.yields x hgone
      obtain ⟨-, -, hclash, hle⟩ := hchain x y hxy
      rwa [hranked.eq_of_rank_eq hx (hmem hy) (le_antisymm (hbest y (hmem hy) hclash) hle)]

theorem Eliminated.nodup (h : Eliminated Yields items kept removed)
    (hranked : Ranked Clash rank items) : kept.Nodup :=
  (h.perm.nodup_iff.mpr hranked.nodup).sublist (List.sublist_append_left _ _)

end Best

end Lame.Elimination
