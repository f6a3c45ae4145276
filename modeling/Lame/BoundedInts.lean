/-
  Lame/BoundedInts.lean
  =====================
  **Interval bounds on 32-bit integers.**

  `Between low high x` bounds the signed value of `x`.  While the bounds stay
  inside the 32-bit range, sums and negations are those of `Int`, and a quotient by
  a positive number stays where its numerator is.
-/
import Mathlib.Data.Int.DivMod

namespace Lame.BoundedInts

structure Between (low high : Int) (x : Int32) : Prop where
  low_le : low ≤ x.toInt
  le_high : x.toInt ≤ high

variable {low high low' high' : Int} {x y : Int32}

theorem Between.mono (h : Between low high x) (hlow : low' ≤ low) (hhigh : high ≤ high') :
    Between low' high' x :=
  ⟨Int.le_trans hlow h.low_le, Int.le_trans h.le_high hhigh⟩

theorem between_ofInt {n : Int} (hlow : low ≤ n) (hhigh : n ≤ high) (hmin : -2147483648 ≤ low)
    (hmax : high < 2147483648) : Between low high (Int32.ofInt n) := by
  have hn : (Int32.ofInt n).toInt = n :=
    Int32.toInt_ofInt_of_le (Int.le_trans hmin hlow) (Int.lt_of_le_of_lt hhigh hmax)
  constructor
  · rw [hn]
    exact hlow
  · rw [hn]
    exact hhigh

/-- A failed comparison bounds from above. -/
theorem Between.of_not_lt (h : Between low high x) (hle : ¬ y < x) : Between low y.toInt x := by
  constructor
  · exact h.low_le
  · exact Int32.le_iff_toInt_le.mp (Int32.not_lt.mp hle)

theorem Between.of_le (h : Between low high x) (hle : y ≤ x) : Between y.toInt high x := by
  constructor
  · exact Int32.le_iff_toInt_le.mp hle
  · exact h.le_high

/-! ### Arithmetic -/

theorem toInt_add_of_between (hx : Between low high x) (hy : Between low' high' y)
    (hmin : -2147483648 ≤ low + low') (hmax : high + high' < 2147483648) :
    (x + y).toInt = x.toInt + y.toInt := by
  rw [Int32.toInt_add]
  apply Int.bmod_eq_of_le
  · exact Int.le_trans hmin (Int.add_le_add hx.low_le hy.low_le)
  · exact Int.lt_of_le_of_lt (Int.add_le_add hx.le_high hy.le_high) hmax

theorem Between.add (hx : Between low high x) (hy : Between low' high' y)
    (hmin : -2147483648 ≤ low + low') (hmax : high + high' < 2147483648) :
    Between (low + low') (high + high') (x + y) := by
  have hsum := toInt_add_of_between hx hy hmin hmax
  constructor
  · rw [hsum]
    exact Int.add_le_add hx.low_le hy.low_le
  · rw [hsum]
    exact Int.add_le_add hx.le_high hy.le_high

theorem Between.neg (hx : Between low high x) (hmin : -2147483648 ≤ -high)
    (hmax : -low < 2147483648) :
    Between (-high) (-low) (-x) := by
  have hneg : (-x).toInt = -x.toInt := by
    rw [Int32.toInt_neg]
    apply Int.bmod_eq_of_le
    · exact Int.le_trans hmin (Int.neg_le_neg hx.le_high)
    · exact Int.lt_of_le_of_lt (Int.neg_le_neg hx.low_le) hmax
  constructor
  · rw [hneg]
    exact Int.neg_le_neg hx.le_high
  · rw [hneg]
    exact Int.neg_le_neg hx.low_le

/-- A quotient by a positive number lies between zero and its numerator. -/
theorem Between.div (hx : Between low high x) (hlow : low ≤ 0) (hhigh : 0 ≤ high)
    (hy : 1 ≤ y.toInt) : Between low high (x / y) := by
  have hne : y ≠ -1 := by
    rintro rfl
    exact absurd hy (by decide)
  have hquotient := Int32.toInt_div_of_ne_right x y hne
  have hsize := Int.natAbs_tdiv_le_natAbs x.toInt y.toInt
  obtain ⟨hxlow, hxhigh⟩ := hx
  rcases Int.le_total 0 x.toInt with hsign | hsign
  · have hnonneg := Int.tdiv_nonneg hsign (Int.le_trans (by decide) hy)
    constructor
    · omega
    · omega
  · have hnonpos : x.toInt.tdiv y.toInt ≤ 0 := by
      have hflip := Int.tdiv_nonneg (Int.neg_nonneg_of_nonpos hsign)
        (Int.le_trans (by decide) hy)
      rw [Int.neg_tdiv] at hflip
      omega
    constructor
    · omega
    · omega

end Lame.BoundedInts
