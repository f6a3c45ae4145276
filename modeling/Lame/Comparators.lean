/-
  Lame/Comparators.lean
  =====================
  **Networks of comparators.**

  A network exchanges pairs of places whose keys are out of order, whatever the keys are.  It
  sorts every list of a length if it sorts the lists of that length whose keys are all 0 or 1
  (`sorts`), as comparing a key with a bound is monotone and an exchange commutes with that.
-/
import Mathlib.Data.List.Sections
import Mathlib.Order.BooleanAlgebra.Basic
import Mathlib.Order.Lattice

namespace Lame.Comparators

variable {α κ : Type} [LinearOrder κ]

/-- The places `i` and `j` change their items where the keys are out of order. -/
def exchange (key : α → κ) (xs : List α) (i j : Nat) : List α :=
  match xs[i]?, xs[j]? with
  | some a, some b => if key b < key a then (xs.set i b).set j a else xs
  | _, _ => xs

def run (key : α → κ) (network : List (Nat × Nat)) (xs : List α) : List α :=
  network.foldl (fun xs c => exchange key xs c.1 c.2) xs

/-- The keys do not decrease. -/
def Sorted (key : α → κ) (xs : List α) : Prop := xs.Pairwise fun a b => key a ≤ key b

theorem exchange_perm (key : α → κ) (xs : List α) (i j : Nat) : (exchange key xs i j).Perm xs := by
  unfold exchange
  split
  · next a b ha hb =>
    split
    · obtain ⟨hi, rfl⟩ := List.getElem?_eq_some_iff.mp ha
      obtain ⟨hj, rfl⟩ := List.getElem?_eq_some_iff.mp hb
      exact List.set_set_perm hi hj
    · exact List.Perm.refl xs
  · exact List.Perm.refl xs

theorem run_perm (key : α → κ) (network : List (Nat × Nat)) (xs : List α) :
    (run key network xs).Perm xs := by
  induction network generalizing xs with
  | nil => exact List.Perm.refl xs
  | cons c network ih => exact (ih (exchange key xs c.1 c.2)).trans (exchange_perm key xs c.1 c.2)

/-! ### The 0-1 principle -/

/-- An exchange commutes with what is monotone in the key. -/
theorem map_exchange {β : Type} [LinearOrder β] {key : α → κ} {view : α → β}
    (hview : ∀ a b, key a ≤ key b → view a ≤ view b) (xs : List α) (i j : Nat) :
    (exchange key xs i j).map view = exchange id (xs.map view) i j := by
  unfold exchange
  rw [List.getElem?_map, List.getElem?_map]
  cases ha : xs[i]? with
  | none => rfl
  | some a =>
      cases hb : xs[j]? with
      | none => rfl
      | some b =>
          dsimp only [Option.map_some, id]
          by_cases hkey : key b < key a
          · rw [if_pos hkey, List.map_set, List.map_set]
            by_cases hlt : view b < view a
            · rw [if_pos hlt]
            · -- the items look the same, so it does not matter that they are exchanged
              have heq : view a = view b :=
                le_antisymm (not_lt.mp hlt) (hview b a (le_of_lt hkey))
              rw [if_neg hlt, heq]
              apply List.ext_getElem?
              intro k
              rw [List.getElem?_set, List.getElem?_set]
              grind
          · rw [if_neg hkey, if_neg (not_lt.mpr (hview a b (not_lt.mp hkey)))]

theorem map_run {β : Type} [LinearOrder β] {key : α → κ} {view : α → β}
    (hview : ∀ a b, key a ≤ key b → view a ≤ view b) (network : List (Nat × Nat)) (xs : List α) :
    (run key network xs).map view = run id network (xs.map view) := by
  induction network generalizing xs with
  | nil => rfl
  | cons c network ih =>
      show (run key network (exchange key xs c.1 c.2)).map view = _
      rw [ih, map_exchange hview]
      rfl

/-- The keys are in order if they are in order for every bound. -/
theorem sorted_of_bounds {key : α → κ} {xs : List α}
    (h : ∀ bound, Sorted id (xs.map fun a => decide (bound < key a))) : Sorted key xs := by
  rw [Sorted, List.pairwise_iff_getElem]
  intro i j hi hj hlt
  by_contra hkey
  have hpair := List.pairwise_iff_getElem.mp (h (key xs[j])) i j (by simpa using hi)
    (by simpa using hj) hlt
  rw [List.getElem_map, List.getElem_map] at hpair
  simp only [id, not_le.mp hkey, decide_true, lt_irrefl, decide_false] at hpair
  exact absurd hpair (by decide)

/-- The lists of this length of zeros and ones. -/
def bits (n : Nat) : List (List Bool) := (List.replicate n [false, true]).sections

theorem mem_bits {n : Nat} {bs : List Bool} (h : bs.length = n) : bs ∈ bits n := by
  rw [bits, List.mem_sections]
  induction n generalizing bs with
  | zero =>
      rw [List.length_eq_zero_iff.mp h]
      exact .nil
  | succ n ih =>
      cases bs with
      | nil => exact absurd h (Nat.zero_ne_add_one n)
      | cons b bs =>
          refine .cons ?_ (ih (Nat.succ.inj h))
          cases b with
          | false => exact List.mem_cons_self
          | true => exact List.mem_cons_of_mem _ List.mem_cons_self

/-- **A network sorts if it sorts zeros and ones.** -/
theorem sorts {network : List (Nat × Nat)} {n : Nat}
    (h : ∀ bs ∈ bits n, (run id network bs).Pairwise (· ≤ ·)) (key : α → κ) {xs : List α}
    (hlength : xs.length = n) : Sorted key (run key network xs) := by
  apply sorted_of_bounds
  intro bound
  have hview : ∀ a b, key a ≤ key b → decide (bound < key a) ≤ decide (bound < key b) := by
    intro a b hle hlt
    rw [decide_eq_true_eq] at hlt ⊢
    exact lt_of_lt_of_le hlt hle
  rw [map_run hview]
  apply h
  apply mem_bits
  rw [List.length_map, hlength]

end Lame.Comparators
