/-
  Lame/BitLanes.lean
  ==================
  **Counting in many lanes at once.**

  A number holds one bit for each of many lanes.  Levels count per lane in unary: the lane's
  bit is set in level `k` once more than `k` have been counted.  One `&` and one `|` per
  level add a row of bits to the counts of all lanes.
-/
import Mathlib.Data.List.Induction
import Mathlib.Data.Nat.Bitwise

namespace Lame.BitLanes

/-- Rows side by side, `width` lanes each. -/
def concat (width : Nat) : List Nat → Nat
  | [] => 0
  | row :: rows => row ||| concat width rows <<< width

theorem testBit_concat {width i lane : Nat} {rows : List Nat}
    (hrows : ∀ row ∈ rows, row < 2 ^ width) (hlane : lane < width) :
    (concat width rows).testBit (i * width + lane) = (rows.getD i 0).testBit lane := by
  induction rows generalizing i with
  | nil => simp [concat]
  | cons row rows ih =>
      rw [List.forall_mem_cons] at hrows
      rw [concat, Nat.testBit_or, Nat.testBit_shiftLeft]
      rcases i with _ | i
      · rw [Nat.zero_mul, Nat.zero_add, decide_eq_false (Nat.not_le.mpr hlane), Bool.false_and,
          Bool.or_false, List.getD_cons_zero]
      · have hle : width ≤ (i + 1) * width + lane := by
          rw [Nat.add_mul, Nat.one_mul]
          omega
        have hsub : (i + 1) * width + lane - width = i * width + lane := by
          rw [Nat.add_mul, Nat.one_mul]
          omega
        have hrow : row < 2 ^ ((i + 1) * width + lane) :=
          Nat.lt_of_lt_of_le hrows.1 (Nat.pow_le_pow_right (by decide) hle)
        rw [Nat.testBit_lt_two_pow hrow, Bool.false_or, decide_eq_true hle, Bool.true_and, hsub,
          ih hrows.2, List.getD_cons_succ]

theorem concat_lt {width n : Nat} {rows : List Nat} (hrows : ∀ row ∈ rows, row < 2 ^ width)
    (hn : rows.length * width = n) : concat width rows < 2 ^ n := by
  subst hn
  induction rows with
  | nil => exact Nat.two_pow_pos _
  | cons row rows ih =>
      rw [List.forall_mem_cons] at hrows
      rw [concat, List.length_cons, Nat.add_mul, Nat.one_mul]
      apply Nat.or_lt_two_pow
      · exact Nat.lt_of_lt_of_le hrows.1
          (Nat.pow_le_pow_right (by decide) (Nat.le_add_left _ _))
      · rw [Nat.shiftLeft_eq, Nat.pow_add]
        exact Nat.mul_lt_mul_of_pos_right (ih hrows.2) (Nat.two_pow_pos _)

/-- Count one more in the lanes of `row`; `above` is the level before the first. -/
def countIn (row : Nat) : Nat → List Nat → List Nat
  | _, [] => []
  | above, level :: levels => (level ||| above &&& row) :: countIn row level levels

/-- The levels from `start` on, of the lanes' counts. -/
def Tally (lanes start : Nat) (count : Nat → Nat) (levels : List Nat) : Prop :=
  ∀ k < levels.length, ∀ lane < lanes,
    (levels.getD k 0).testBit lane = true ↔ start + k < count lane

variable {lanes start : Nat} {count : Nat → Nat} {levels : List Nat}

theorem tally_replicate (n : Nat) : Tally lanes 0 (fun _ => 0) (List.replicate n 0) := by
  intro k hk lane _
  rw [List.getD_replicate _ (by simpa using hk)]
  simp

theorem length_countIn {row above : Nat} : (countIn row above levels).length = levels.length := by
  induction levels generalizing above with
  | nil => rfl
  | cons level levels ih => rw [countIn, List.length_cons, List.length_cons, ih]

theorem Tally.countIn {row above : Nat} (h : Tally lanes start count levels)
    (habove : ∀ lane < lanes, above.testBit lane = true ↔ start ≤ count lane) :
    Tally lanes start (fun lane => count lane + (row.testBit lane).toNat)
      (countIn row above levels) := by
  induction levels generalizing start above with
  | nil =>
      intro k hk
      cases hk
  | cons level levels ih =>
      have hlevel : ∀ lane < lanes, level.testBit lane = true ↔ start < count lane :=
        fun lane hlane => h 0 (Nat.succ_pos _) lane hlane
      intro k hk lane hlane
      dsimp only
      rcases k with _ | k
      · rw [BitLanes.countIn, List.getD_cons_zero, Nat.testBit_or, Nat.testBit_and,
          Bool.or_eq_true, Bool.and_eq_true, hlevel lane hlane, habove lane hlane]
        cases row.testBit lane
        · simp
        · rw [Bool.toNat_true, and_iff_left rfl]
          omega
      · rw [BitLanes.countIn, List.getD_cons_succ]
        have hrest : Tally lanes (start + 1) count levels := by
          intro i hi lane hlane
          have hnext := h (i + 1) (Nat.succ_lt_succ hi) lane hlane
          rw [List.getD_cons_succ] at hnext
          rw [hnext]
          omega
        rw [ih hrest hlevel k (Nat.lt_of_succ_lt_succ hk) lane hlane]
        dsimp only
        omega

/-- Count rows, up to `n`. -/
def countAll (all n : Nat) (rows : List Nat) : List Nat :=
  rows.foldl (fun levels row => countIn row all levels) (List.replicate n 0)

theorem length_countAll {all n : Nat} {rows : List Nat} : (countAll all n rows).length = n := by
  induction rows using List.reverseRecOn with
  | nil => exact List.length_replicate
  | append_singleton rows row ih =>
      rw [countAll, List.foldl_append, List.foldl_cons, List.foldl_nil, length_countIn]
      exact ih

theorem tally_countAll {all n : Nat} (hall : ∀ lane < lanes, all.testBit lane = true)
    (rows : List Nat) :
    Tally lanes 0 (fun lane => rows.countP fun row => row.testBit lane)
      (countAll all n rows) := by
  induction rows using List.reverseRecOn with
  | nil => exact tally_replicate n
  | append_singleton rows row ih =>
      rw [countAll, List.foldl_append, List.foldl_cons, List.foldl_nil, ← countAll]
      have hcount : (fun lane => (rows ++ [row]).countP fun row => row.testBit lane) =
          fun lane => (rows.countP fun row => row.testBit lane) + (row.testBit lane).toNat := by
        funext lane
        rw [List.countP_append, List.countP_singleton]
        cases row.testBit lane
        · rfl
        · rfl
      rw [hcount]
      apply ih.countIn
      intro lane hlane
      exact iff_of_true (hall lane hlane) (Nat.zero_le _)

/-! ### Distances of many words -/

theorem shiftRight_and_one (word b : Nat) : word >>> b &&& 1 = (word.testBit b).toNat := by
  rw [Nat.toNat_testBit, Nat.and_one_is_mod, Nat.shiftRight_eq_div_pow]

/-- One bit of all words, a lane each. -/
def column (words : List Nat) (b : Nat) : Nat :=
  concat 1 (words.map fun word => word >>> b &&& 1)

theorem column_rows_lt (words : List Nat) (b : Nat) :
    ∀ row ∈ words.map fun word => word >>> b &&& 1, row < 2 ^ 1 := by
  intro row hrow
  obtain ⟨word, -, rfl⟩ := List.mem_map.mp hrow
  rw [shiftRight_and_one]
  exact Bool.toNat_lt _

theorem testBit_column {words : List Nat} {j : Nat} (hj : j < words.length) (b : Nat) :
    (column words b).testBit j = (words.getD j 0).testBit b := by
  have hbit : (column words b).testBit (j * 1 + 0) = _ :=
    testBit_concat (column_rows_lt words b) Nat.one_pos
  rw [Nat.mul_one, Nat.add_zero, List.getD_eq_getElem?_getD, List.getElem?_map,
    List.getElem?_eq_getElem hj, Option.map_some, Option.getD_some, shiftRight_and_one] at hbit
  rw [hbit, List.getD_eq_getElem?_getD, List.getElem?_eq_getElem hj, Option.getD_some]
  cases (words[j]).testBit b
  · rfl
  · rfl

theorem column_lt (words : List Nat) (b : Nat) : column words b < 2 ^ words.length :=
  concat_lt (column_rows_lt words b) (by rw [List.length_map, Nat.mul_one])

/-- For every bit, where the words of the block differ from those whose columns these are. -/
def mismatches (lanes : Nat) (columns block : List Nat) : List Nat :=
  (List.range columns.length).map fun b => concat lanes (block.map fun word =>
    columns.getD b 0 ^^^ (word >>> b &&& 1) * (2 ^ lanes - 1))

theorem testBit_mismatch {lanes column b : Nat} {block : List Nat} (hcolumn : column < 2 ^ lanes)
    {i lane : Nat} (hi : i < block.length) (hlane : lane < lanes) :
    (concat lanes (block.map fun word =>
      column ^^^ (word >>> b &&& 1) * (2 ^ lanes - 1))).testBit (i * lanes + lane) =
    (column.testBit lane ^^ (block.getD i 0).testBit b) := by
  rw [testBit_concat ?_ hlane]
  · rw [List.getD_eq_getElem?_getD, List.getElem?_map, List.getElem?_eq_getElem hi,
      Option.map_some, Option.getD_some, List.getD_eq_getElem?_getD,
      List.getElem?_eq_getElem hi, Option.getD_some, Nat.testBit_xor, shiftRight_and_one]
    cases (block[i]).testBit b
    · rw [Bool.toNat_false, Nat.zero_mul, Nat.zero_testBit]
    · rw [Bool.toNat_true, Nat.one_mul, Nat.testBit_two_pow_sub_one, decide_eq_true hlane]
  · intro row hrow
    obtain ⟨word, -, rfl⟩ := List.mem_map.mp hrow
    apply Nat.xor_lt_two_pow hcolumn
    rw [shiftRight_and_one]
    have hpos := Nat.two_pow_pos lanes
    cases word.testBit b
    · rwa [Bool.toNat_false, Nat.zero_mul]
    · rw [Bool.toNat_true, Nat.one_mul]
      omega

/-- All words of the block differ from all others in `n + 1` bits, the marked pairs apart. -/
def allApart (lanes n marked : Nat) (columns block : List Nat) : Bool :=
  ((countAll (2 ^ (block.length * lanes) - 1) (n + 1) (mismatches lanes columns block)).getD n 0 |||
    marked) == 2 ^ (block.length * lanes) - 1

theorem lt_countP_of_allApart {lanes n marked : Nat} {columns block : List Nat}
    (hcolumns : ∀ column ∈ columns, column < 2 ^ lanes)
    (h : allApart lanes n marked columns block = true) {i lane : Nat} (hi : i < block.length)
    (hlane : lane < lanes) (hunmarked : marked.testBit (i * lanes + lane) = false) :
    n < (List.range columns.length).countP fun b =>
      (columns.getD b 0).testBit lane ^^ (block.getD i 0).testBit b := by
  have hbound : i * lanes + lane < block.length * lanes := by
    have hle := Nat.mul_le_mul_right lanes (Nat.succ_le_of_lt hi)
    rw [Nat.succ_mul] at hle
    omega
  have hall : ∀ t < block.length * lanes,
      (2 ^ (block.length * lanes) - 1).testBit t = true := by
    intro t ht
    rw [Nat.testBit_two_pow_sub_one, decide_eq_true ht]
  have hbits := congrArg (Nat.testBit · (i * lanes + lane)) (beq_iff_eq.mp h)
  rw [Nat.testBit_or, hunmarked, Bool.or_false, hall _ hbound] at hbits
  have htally := (tally_countAll hall (mismatches lanes columns block) n
    (by rw [length_countAll]; exact Nat.lt_succ_self n) _ hbound).mp hbits
  rw [Nat.zero_add] at htally
  refine Nat.lt_of_lt_of_eq htally ?_
  dsimp only
  rw [mismatches, List.countP_map]
  apply List.countP_congr
  intro b hb
  have hcolumn : columns.getD b 0 < 2 ^ lanes := by
    rw [List.getD_eq_getElem?_getD, List.getElem?_eq_getElem (List.mem_range.mp hb),
      Option.getD_some]
    exact hcolumns _ (List.getElem_mem _)
  rw [Function.comp_apply, testBit_mismatch hcolumn hi hlane]

end Lame.BitLanes
