/-
  Lame/BitWords.lean
  ==================
  **Words of bits: built bit by bit, flipped, compared.**

  A word is filled by shifting bits in at its low end (`getLsbD_foldl_shiftIn`).  Two words
  are at the Hamming distance of their bits, and the words at distance `e` that differ in
  the low `n` bits only are those with the bits of one of the `descending e n` lists of
  positions flipped, which is how nested loops enumerate them.
-/
import Mathlib.Data.Finset.Sort
import Mathlib.Data.List.Induction
import Mathlib.InformationTheory.Hamming

namespace Lame.BitWords

variable {w : Nat}

/-! ## 1. Shifting bits in -/

def shiftIn (word : BitVec w) (bit : Bool) : BitVec w :=
  if bit then (word <<< 1) ||| 1#w else word <<< 1

theorem getLsbD_shiftIn {word : BitVec w} {bit : Bool} {k : Nat} (hk : k < w) :
    (shiftIn word bit).getLsbD k = if k = 0 then bit else word.getLsbD (k - 1) := by
  rcases k with _ | k
  · cases bit
    · simp [shiftIn]
    · simp [shiftIn, hk]
  · have hlow : k < w := Nat.lt_of_succ_lt hk
    cases bit
    · simp [shiftIn, hk, hlow]
    · simp [shiftIn, hk, hlow]

/-- The last bit that came in is the lowest. -/
theorem getLsbD_foldl_shiftIn {bits : List Bool} {word : BitVec w} {k : Nat} (hk : k < w) :
    (bits.foldl shiftIn word).getLsbD k =
      if k < bits.length then bits.getD (bits.length - 1 - k) false
      else word.getLsbD (k - bits.length) := by
  induction bits using List.reverseRecOn generalizing k with
  | nil => simp
  | append_singleton bits bit ih =>
      rw [List.foldl_append, List.foldl_cons, List.foldl_nil, getLsbD_shiftIn hk,
        List.length_append, List.length_singleton]
      rcases k with _ | k
      · simp
      · rw [if_neg (Nat.succ_ne_zero k), Nat.add_sub_cancel,
          ih (Nat.lt_of_succ_lt hk)]
        by_cases hlt : k < bits.length
        · rw [if_pos hlt, if_pos (Nat.succ_lt_succ hlt), List.getD_eq_getElem?_getD,
            List.getD_eq_getElem?_getD, List.getElem?_append_left (by omega)]
          congr 2
          omega
        · rw [if_neg hlt, if_neg (by omega)]
          congr 1
          omega

/-! ## 2. Distances and flipped bits -/

def distance (x y : BitVec w) : Nat :=
  hammingDist (fun b : Fin w => x.getLsbD b) fun b : Fin w => y.getLsbD b

/-- The positions at which two words differ. -/
def differing (x y : BitVec w) : Finset Nat :=
  (Finset.range w).filter fun b => x.getLsbD b ≠ y.getLsbD b

theorem mem_differing {x y : BitVec w} {b : Nat} :
    b ∈ differing x y ↔ b < w ∧ x.getLsbD b ≠ y.getLsbD b := by
  rw [differing, Finset.mem_filter, Finset.mem_range]

theorem card_differing (x y : BitVec w) : (differing x y).card = distance x y := by
  symm
  rw [distance, hammingDist]
  apply Finset.card_nbij Fin.val
  · intro b hb
    exact mem_differing.mpr ⟨b.isLt, (Finset.mem_filter.mp hb).2⟩
  · intro a _ b _ hab
    exact Fin.ext hab
  · intro b hb
    obtain ⟨hlt, hne⟩ := mem_differing.mp hb
    exact ⟨⟨b, hlt⟩, Finset.mem_coe.mpr (Finset.mem_filter.mpr ⟨Finset.mem_univ _, hne⟩), rfl⟩

theorem distance_comm (x y : BitVec w) : distance x y = distance y x := hammingDist_comm _ _

theorem distance_triangle (x y z : BitVec w) : distance x z ≤ distance x y + distance y z :=
  hammingDist_triangle _ _ _

/-- Flip the bits at these positions. -/
def flipBits (word : BitVec w) (positions : List Nat) : BitVec w :=
  positions.foldl (fun word j => word ^^^ (1#w <<< j)) word

theorem getLsbD_xor_bit {word : BitVec w} {j b : Nat} (hb : b < w) :
    (word ^^^ (1#w <<< j)).getLsbD b = (word.getLsbD b ^^ decide (b = j)) := by
  rw [BitVec.getLsbD_xor, BitVec.getLsbD_shiftLeft, BitVec.getLsbD_one]
  congr 1
  have hw : 0 < w := Nat.lt_of_le_of_lt (Nat.zero_le b) hb
  by_cases hj : b < j
  · simp [hj, Nat.ne_of_lt hj]
  · simp only [hb, hw, hj, decide_true, decide_false, Bool.not_false, Bool.true_and,
      decide_eq_decide]
    omega

theorem getLsbD_flipBits {word : BitVec w} {positions : List Nat} (hnodup : positions.Nodup)
    {b : Nat} (hb : b < w) :
    (flipBits word positions).getLsbD b = (word.getLsbD b ^^ decide (b ∈ positions)) := by
  induction positions generalizing word with
  | nil => simp [flipBits]
  | cons j positions ih =>
      rw [List.nodup_cons] at hnodup
      rw [flipBits, List.foldl_cons, ← flipBits, ih hnodup.2, getLsbD_xor_bit hb, Bool.xor_assoc]
      congr 1
      by_cases hj : b = j
      · simp [hj, hnodup.1]
      · simp [hj]

theorem flipBits_eq_iff {word x : BitVec w} {positions : List Nat} (hnodup : positions.Nodup)
    (hlt : ∀ p ∈ positions, p < w) :
    flipBits word positions = x ↔ differing word x = positions.toFinset := by
  constructor
  · rintro rfl
    ext b
    rw [mem_differing, List.mem_toFinset]
    constructor
    · rintro ⟨hb, hne⟩
      rw [getLsbD_flipBits hnodup hb] at hne
      by_contra hmem
      exact hne (by simp [hmem])
    · intro hmem
      refine ⟨hlt b hmem, ?_⟩
      rw [getLsbD_flipBits hnodup (hlt b hmem)]
      simp [hmem]
  · intro heq
    apply BitVec.eq_of_getLsbD_eq
    intro b hb
    have hmem : b ∈ positions ↔ word.getLsbD b ≠ x.getLsbD b := by
      rw [← List.mem_toFinset, ← heq, mem_differing]
      exact ⟨fun h => h.2, fun h => ⟨hb, h⟩⟩
    rw [getLsbD_flipBits hnodup hb]
    by_cases hne : word.getLsbD b = x.getLsbD b
    · rw [decide_eq_false fun hb => hmem.mp hb hne, Bool.xor_false, hne]
    · rw [decide_eq_true (hmem.mpr hne), Bool.xor_true]
      exact (Bool.eq_not_of_ne (Ne.symm hne)).symm

/-- The strictly descending lists of `e` numbers below `n`. -/
def descending : Nat → Nat → List (List Nat)
  | 0, _ => [[]]
  | e + 1, n => (List.range n).flatMap fun j => (descending e j).map (j :: ·)

theorem mem_descending {e n : Nat} {positions : List Nat} :
    positions ∈ descending e n ↔
      positions.length = e ∧ positions.Pairwise (· > ·) ∧ ∀ p ∈ positions, p < n := by
  induction e generalizing n positions with
  | zero =>
      rw [descending, List.mem_singleton, List.length_eq_zero_iff]
      constructor
      · rintro rfl
        exact ⟨rfl, .nil, by simp⟩
      · exact fun h => h.1
  | succ e ih =>
      simp only [descending, List.mem_flatMap, List.mem_map, List.mem_range, ih]
      constructor
      · rintro ⟨j, hj, rest, ⟨hlength, hpairwise, hlt⟩, rfl⟩
        refine ⟨by rw [List.length_cons, hlength], List.pairwise_cons.mpr ⟨hlt, hpairwise⟩, ?_⟩
        rw [List.forall_mem_cons]
        exact ⟨hj, fun p hp => Nat.lt_trans (hlt p hp) hj⟩
      · rintro ⟨hlength, hpairwise, hlt⟩
        rcases positions with _ | ⟨j, rest⟩
        · cases hlength
        · rw [List.pairwise_cons] at hpairwise
          rw [List.forall_mem_cons] at hlt
          exact ⟨j, hlt.1, rest, ⟨Nat.succ.inj hlength, hpairwise.2, hpairwise.1⟩, rfl⟩

theorem nodup_of_mem_descending {e n : Nat} {positions : List Nat}
    (h : positions ∈ descending e n) : positions.Nodup :=
  (mem_descending.mp h).2.1.imp fun hgt => Nat.ne_of_gt hgt

/-- Flipping `e` of the low `n` bits leads to the words at distance `e` that agree above. -/
theorem exists_flipBits_iff {word x : BitVec w} {e n : Nat} (hn : n ≤ w) :
    (∃ positions ∈ descending e n, flipBits word positions = x) ↔
      distance word x = e ∧ ∀ b ∈ differing word x, b < n := by
  constructor
  · rintro ⟨positions, hmem, hflip⟩
    have hnodup := nodup_of_mem_descending hmem
    obtain ⟨hlength, -, hlt⟩ := mem_descending.mp hmem
    have heq := (flipBits_eq_iff hnodup fun p hp => Nat.lt_of_lt_of_le (hlt p hp) hn).mp hflip
    constructor
    · rw [← card_differing, heq, List.toFinset_card_of_nodup hnodup, hlength]
    · intro b hb
      rw [heq, List.mem_toFinset] at hb
      exact hlt b hb
  · rintro ⟨hdistance, hlt⟩
    have hmem : (differing word x).sort (· ≥ ·) ∈ descending e n := by
      refine mem_descending.mpr ⟨?_, (Finset.sortedGT_sort _).pairwise, ?_⟩
      · rw [Finset.length_sort, card_differing, hdistance]
      · intro p hp
        exact hlt p ((Finset.mem_sort _).mp hp)
    refine ⟨_, hmem, (flipBits_eq_iff (nodup_of_mem_descending hmem) ?_).mpr ?_⟩
    · intro p hp
      exact (mem_differing.mp ((Finset.mem_sort _).mp hp)).1
    · rw [Finset.sort_toFinset]

end Lame.BitWords
