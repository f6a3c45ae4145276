/-
  Lame/PointSort.lean
  ===================
  **The points of a cluster, once around: `ptsort` and step 1 of `fit_quad`.**

  `ptsort` sorts up to five points by a network of comparators and more of them by a merge
  sort, which merges eight points at a time as long as neither half can run out.  `fit_quad`
  then drops a point that is at the place of the one before it.  That leaves one point for
  every place if no two places are seen under one angle; else points of two such places may
  stand in turns, and stay.
-/
import Lame.ByteMemory
import Lame.Comparators
import Lame.EdgeClusters
import Mathlib.Data.List.Destutter
import Mathlib.Tactic.IntervalCases

namespace Lame

open ByteMemory Comparators

variable {Θ : Type} [LinearOrder Θ]

/-! ## 1. The code -/

/-- `MAYBE_SWAP(arr, apos, bpos)` -/
def maybeSwap (theta : Pt → Θ) (arr : List Pt) (c : Nat × Nat) : Exec (List Pt) := do
  let a ← load arr c.1
  let b ← load arr c.2
  if theta a > theta b then
    let arr ← store arr c.1 b
    store arr c.2 a
  else return arr

/-- The sorting network for this number of points. -/
def network : Nat → List (Nat × Nat)
  | 2 => [(0, 1)]
  | 3 => [(0, 1), (1, 2), (0, 1)]
  | 4 => [(0, 1), (2, 3), (0, 2), (1, 3), (1, 2)]
  | 5 => [(0, 1), (3, 4), (1, 2), (0, 1), (0, 3), (2, 4), (1, 2), (2, 3), (1, 2)]
  | _ => []

/-- What the merge loops change. -/
structure Merging where
  pts : List Pt
  apos : Nat
  bpos : Nat
  outpos : Nat

/-- `MERGE(apos, bpos)` -/
def merge (theta : Pt → Θ) (as bs : List Pt) (m : Merging) : Exec Merging := do
  let a ← load as m.apos
  let b ← load bs m.bpos
  if theta a < theta b then
    let pts ← store m.pts m.outpos a
    return { m with pts := pts, outpos := m.outpos + 1, apos := m.apos + 1 }
  else
    let pts ← store m.pts m.outpos b
    return { m with pts := pts, outpos := m.outpos + 1, bpos := m.bpos + 1 }

/-- `while (apos + ahead < asz && bpos + ahead < bsz)`, with so many `MERGE`s in its body. -/
def mergeLoop (theta : Pt → Θ) (as bs : List Pt) (ahead merges : Nat) :
    Nat → Merging → Exec Merging
  | 0, _ => .error .outOfFuel
  | fuel + 1, m =>
      if m.apos + ahead < as.length ∧ m.bpos + ahead < bs.length then do
        let m ← (List.range merges).foldlM (fun m _ => merge theta as bs m) m
        mergeLoop theta as bs ahead merges fuel m
      else return m

/-- The part of `ptsort` behind the two calls of itself. -/
def mergeHalves (theta : Pt → Θ) (as bs pts : List Pt) : Exec (List Pt) := do
  let m ← mergeLoop theta as bs 8 8 (as.length + bs.length + 1) ⟨pts, 0, 0, 0⟩
  let m ← mergeLoop theta as bs 0 1 (as.length + bs.length + 1) m
  let pts ← if m.apos < as.length then storeAll m.pts m.outpos (as.drop m.apos) else pure m.pts
  if m.bpos < bs.length then storeAll pts m.outpos (bs.drop m.bpos) else pure pts

/-- `ptsort` with so many calls of itself at most inside one another. -/
def ptsortWithin (theta : Pt → Θ) : Nat → List Pt → Exec (List Pt)
  | 0, _ => .error .outOfFuel
  | fuel + 1, pts =>
      if pts.length ≤ 1 then return pts
      else if pts.length ≤ 5 then (network pts.length).foldlM (maybeSwap theta) pts
      else do
        let asz := pts.length / 2
        let as ← ptsortWithin theta fuel (pts.take asz)
        let bs ← ptsortWithin theta fuel (pts.drop asz)
        mergeHalves theta as bs pts

def ptsort (theta : Pt → Θ) (pts : List Pt) : Exec (List Pt) :=
  ptsortWithin theta (pts.length + 1) pts

/-- What the loop that removes duplicate points changes. -/
structure Compacting where
  pts : List Pt
  outpos : Nat

/-- The body of that loop; `last` points to the point before. -/
def compactPoint (c : Compacting) (i : Nat) : Exec Compacting := do
  let p ← load c.pts i
  let last ← load c.pts (i - 1)
  if p.x ≠ last.x ∨ p.y ≠ last.y then
    let pts ← if i ≠ c.outpos then store c.pts c.outpos p else pure c.pts
    return ⟨pts, c.outpos + 1⟩
  else return c

def removeDuplicates (pts : List Pt) : Exec (List Pt) := do
  let c ← (List.range' 1 (pts.length - 1)).foldlM compactPoint ⟨pts, 1⟩
  return c.pts.take c.outpos

/-- `fit_quad` up to the second test of `sz`, with the angles that it gives the points, for a
    cluster whose gradients point the right way. -/
def sortPoints (theta : Pt → Θ) (cluster : List Pt) : Exec (Option (List Pt)) := do
  if cluster.length < 4 then return none
  let pts ← ptsort theta cluster
  let pts ← removeDuplicates pts
  if pts.length < 4 then return none
  return some pts

/-! ## 2. Up to five points -/

theorem maybeSwap_eq (theta : Pt → Θ) {arr : List Pt} {c : Nat × Nat} (hfirst : c.1 < arr.length)
    (hsecond : c.2 < arr.length) :
    maybeSwap theta arr c = .ok (exchange theta arr c.1 c.2) := by
  rw [maybeSwap, exchange, load, load, List.getElem?_eq_getElem hfirst,
    List.getElem?_eq_getElem hsecond]
  dsimp only [ok_bind]
  by_cases hgt : theta arr[c.1] > theta arr[c.2]
  · rw [if_pos hgt, if_pos hgt, store, if_pos hfirst, ok_bind, store, if_pos]
    rwa [List.length_set]
  · rw [if_neg hgt, if_neg hgt]
    rfl

theorem maybeSwaps_eq (theta : Pt → Θ) {cs : List (Nat × Nat)} {arr : List Pt}
    (h : ∀ c ∈ cs, c.1 < arr.length ∧ c.2 < arr.length) :
    cs.foldlM (maybeSwap theta) arr = .ok (run theta cs arr) := by
  induction cs generalizing arr with
  | nil => rfl
  | cons c cs ih =>
      rw [List.forall_mem_cons] at h
      obtain ⟨⟨hfirst, hsecond⟩, hrest⟩ := h
      have hlength := (exchange_perm theta arr c.1 c.2).length_eq
      rw [List.foldlM_cons, maybeSwap_eq theta hfirst hsecond, ok_bind, ih]
      · rfl
      · rwa [hlength]

theorem network_inside {n : Nat} (h : n ≤ 5) : ∀ c ∈ network n, c.1 < n ∧ c.2 < n := by
  interval_cases n
  all_goals decide

theorem network_sorts {n : Nat} (hmore : 1 < n) (h : n ≤ 5) :
    ∀ bs ∈ bits n, (run id (network n) bs).Pairwise (· ≤ ·) := by
  interval_cases n
  all_goals decide +kernel

theorem small_sorts (theta : Pt → Θ) {pts : List Pt} (hmore : 1 < pts.length)
    (h : pts.length ≤ 5) : ∃ out, (network pts.length).foldlM (maybeSwap theta) pts = .ok out ∧
      out.Perm pts ∧ Sorted theta out := by
  refine ⟨_, maybeSwaps_eq theta (network_inside h), run_perm theta _ pts, ?_⟩
  exact sorts (network_sorts hmore h) theta rfl

/-! ## 3. Merging -/

/-- The second half goes first where the angles are the same. -/
def before (theta : Pt → Θ) (b a : Pt) : Bool := decide (theta b ≤ theta a)

/-- The places up to `outpos` have what the halves are merged to. -/
structure Merged (theta : Pt → Θ) (as bs : List Pt) (m : Merging) : Prop where
  apos_le : m.apos ≤ as.length
  bpos_le : m.bpos ≤ bs.length
  outpos : m.outpos = m.apos + m.bpos
  length : m.pts.length = as.length + bs.length
  merged : m.pts.take m.outpos ++ (bs.drop m.bpos).merge (as.drop m.apos) (before theta) =
    bs.merge as (before theta)

section Merge

variable {theta : Pt → Θ} {as bs : List Pt} {m : Merging}

theorem load_drop {pts : List Pt} {i : Nat} (h : i < pts.length) :
    ∃ p, load pts i = .ok p ∧ pts.drop i = p :: pts.drop (i + 1) := by
  refine ⟨pts[i], ?_, List.drop_eq_getElem_cons h⟩
  rw [load, List.getElem?_eq_getElem h]

theorem take_set_succ {pts : List Pt} {i : Nat} (h : i < pts.length) (p : Pt) :
    (pts.set i p).take (i + 1) = pts.take i ++ [p] := by
  rw [List.take_add_one, List.take_set_of_le (Nat.le_refl i), List.getElem?_set_self h]
  rfl

theorem Merged.merge (h : Merged theta as bs m) (ha : m.apos < as.length)
    (hb : m.bpos < bs.length) : ∃ after, Lame.merge theta as bs m = .ok after ∧
      Merged theta as bs after ∧ after.apos + after.bpos = m.apos + m.bpos + 1 ∧
      after.apos ≤ m.apos + 1 ∧ after.bpos ≤ m.bpos + 1 := by
  obtain ⟨a, hload_a, hdrop_a⟩ := load_drop ha
  obtain ⟨b, hload_b, hdrop_b⟩ := load_drop hb
  have hroom : m.outpos < m.pts.length := by
    rw [h.outpos, h.length]
    exact Nat.add_lt_add ha hb
  have hmerged := h.merged
  rw [hdrop_a, hdrop_b] at hmerged
  rw [Lame.merge, hload_a, ok_bind, hload_b, ok_bind]
  by_cases hlt : theta a < theta b
  · have hbefore : ¬ before theta b a = true := by
      rw [before, decide_eq_true_eq]
      exact not_le.mpr hlt
    rw [List.cons_merge_cons_neg _ _ _ hbefore, ← hdrop_b] at hmerged
    rw [if_pos hlt, store, if_pos hroom, ok_bind]
    refine ⟨_, rfl, ⟨ha, h.bpos_le, ?_, ?_, ?_⟩, ?_, Nat.le_refl _, Nat.le_succ _⟩
    · show m.outpos + 1 = m.apos + 1 + m.bpos
      rw [h.outpos]
      omega
    · exact (List.length_set).trans h.length
    · show (m.pts.set m.outpos a).take (m.outpos + 1) ++ _ = _
      rw [take_set_succ hroom, List.append_assoc]
      exact hmerged
    · show m.apos + 1 + m.bpos = _
      omega
  · have hbefore : before theta b a = true := by
      rw [before, decide_eq_true_eq]
      exact not_lt.mp hlt
    rw [List.cons_merge_cons_pos _ _ _ hbefore, ← hdrop_a] at hmerged
    rw [if_neg hlt, store, if_pos hroom, ok_bind]
    refine ⟨_, rfl, ⟨h.apos_le, hb, ?_, ?_, ?_⟩, ?_, Nat.le_succ _, Nat.le_refl _⟩
    · show m.outpos + 1 = m.apos + (m.bpos + 1)
      rw [h.outpos]
      omega
    · exact (List.length_set).trans h.length
    · show (m.pts.set m.outpos b).take (m.outpos + 1) ++ _ = _
      rw [take_set_succ hroom, List.append_assoc]
      exact hmerged
    · show m.apos + (m.bpos + 1) = _
      omega

/-- The body of the loop: as many points as neither half can run out of. -/
theorem Merged.merges (h : Merged theta as bs m) {n : Nat} (ha : m.apos + n ≤ as.length)
    (hb : m.bpos + n ≤ bs.length) :
    ∃ after, (List.range n).foldlM (fun m _ => Lame.merge theta as bs m) m = .ok after ∧
      Merged theta as bs after ∧ after.apos + after.bpos = m.apos + m.bpos + n ∧
      after.apos ≤ m.apos + n ∧ after.bpos ≤ m.bpos + n := by
  induction n with
  | zero => exact ⟨m, rfl, h, rfl, Nat.le_refl _, Nat.le_refl _⟩
  | succ n ih =>
      obtain ⟨middle, hfirst, hmiddle, hsum, hapos, hbpos⟩ := ih (by omega) (by omega)
      obtain ⟨after, hlast, hafter, hsum', hapos', hbpos'⟩ :=
        hmiddle.merge (by omega) (by omega)
      refine ⟨after, ?_, hafter, by omega, by omega, by omega⟩
      rw [List.range_succ, List.foldlM_append, hfirst, ok_bind, List.foldlM_cons, hlast]
      rfl

theorem Merged.mergeLoop {ahead merges fuel : Nat} (h : Merged theta as bs m) (hmerges : 0 < merges)
    (hahead : merges ≤ ahead + 1)
    (hfuel : (as.length - m.apos) + (bs.length - m.bpos) < fuel) :
    ∃ after, Lame.mergeLoop theta as bs ahead merges fuel m = .ok after ∧
      Merged theta as bs after ∧
      ¬ (after.apos + ahead < as.length ∧ after.bpos + ahead < bs.length) := by
  induction fuel generalizing m with
  | zero => exact absurd hfuel (Nat.not_lt_zero _)
  | succ fuel ih =>
      rw [Lame.mergeLoop]
      by_cases hroom : m.apos + ahead < as.length ∧ m.bpos + ahead < bs.length
      · obtain ⟨middle, hbody, hmiddle, hsum, -, -⟩ :=
          h.merges (n := merges) (by omega) (by omega)
        have hapos := hmiddle.apos_le
        have hbpos := hmiddle.bpos_le
        rw [if_pos hroom, hbody, ok_bind]
        exact ih hmiddle (by omega)
      · rw [if_neg hroom]
        exact ⟨m, rfl, h, hroom⟩

/-- What is left of a half fills the places that are left. -/
theorem storeAll_rest {pts rest : List Pt} {start : Nat} (hstart : start ≤ pts.length)
    (h : pts.length = start + rest.length) :
    storeAll pts start rest = .ok (pts.take start ++ rest) := by
  have hsplit := storeAll_split (pts.take start) (pts.drop start) [] rest
    (List.length_take_of_le hstart).symm (by rw [List.length_drop]; omega)
  rwa [List.append_nil, List.append_nil, List.take_append_drop] at hsplit

end Merge

theorem mergeHalves_eq (theta : Pt → Θ) {as bs pts : List Pt}
    (hlength : pts.length = as.length + bs.length) :
    mergeHalves theta as bs pts = .ok (bs.merge as (before theta)) := by
  have hstart : Merged theta as bs ⟨pts, 0, 0, 0⟩ :=
    ⟨Nat.zero_le _, Nat.zero_le _, rfl, hlength, rfl⟩
  obtain ⟨middle, hfast, hmiddle, -⟩ := @Merged.mergeLoop _ _ theta as bs _ 8 8
    (as.length + bs.length + 1) hstart (by decide) (by decide) (by simp)
  obtain ⟨last, hslow, ⟨hapos, hbpos, houtpos, hsize, hmerged⟩, hdone⟩ :=
    @Merged.mergeLoop _ _ theta as bs middle 0 1 (as.length + bs.length + 1) hmiddle (by decide)
      (by decide) (by omega)
  rw [mergeHalves, hfast, ok_bind, hslow, ok_bind]
  by_cases ha : last.apos < as.length
  · -- the second half has been used up
    have hb : last.bpos = bs.length := by omega
    rw [hb, List.drop_length, List.nil_merge] at hmerged
    rw [if_pos ha, storeAll_rest (by omega) (by rw [List.length_drop]; omega), ok_bind]
    dsimp only
    rw [if_neg (by omega), hmerged]
    rfl
  · have ha' : last.apos = as.length := by omega
    rw [ha', List.drop_length, List.merge_right] at hmerged
    rw [if_neg ha, pure_bind]
    dsimp only
    by_cases hb : last.bpos < bs.length
    · rw [if_pos hb, storeAll_rest (by omega) (by rw [List.length_drop]; omega), hmerged]
    · rw [List.drop_of_length_le (Nat.le_of_not_lt hb), List.append_nil,
        List.take_of_length_le (by omega)] at hmerged
      rw [if_neg hb, hmerged]
      rfl

theorem sorted_merge {theta : Pt → Θ} {as bs : List Pt} (has : Sorted theta as)
    (hbs : Sorted theta bs) : Sorted theta (bs.merge as (before theta)) := by
  have hmerge := @List.pairwise_merge _ (before theta)
    (by
      intro a b c hab hbc
      simp only [before, decide_eq_true_eq] at hab hbc ⊢
      exact le_trans hab hbc)
    (by
      intro a b
      simp only [before, Bool.or_eq_true, decide_eq_true_eq]
      exact le_total _ _)
    bs as (hbs.imp fun h => decide_eq_true h) (has.imp fun h => decide_eq_true h)
  exact hmerge.imp fun h => of_decide_eq_true h

theorem ptsortWithin_sorts (theta : Pt → Θ) {fuel : Nat} {pts : List Pt}
    (hfuel : pts.length < fuel) : ∃ out, ptsortWithin theta fuel pts = .ok out ∧
      out.Perm pts ∧ Sorted theta out := by
  induction fuel generalizing pts with
  | zero => exact absurd hfuel (Nat.not_lt_zero _)
  | succ fuel ih =>
      rw [ptsortWithin]
      by_cases hone : pts.length ≤ 1
      · rw [if_pos hone]
        refine ⟨pts, rfl, .refl pts, ?_⟩
        rcases pts with _ | ⟨p, _ | ⟨q, rest⟩⟩
        · exact .nil
        · exact List.pairwise_singleton _ p
        · simp only [List.length_cons] at hone
          omega
      · rw [if_neg hone]
        by_cases hsmall : pts.length ≤ 5
        · rw [if_pos hsmall]
          exact small_sorts theta (Nat.lt_of_not_le hone) hsmall
        · rw [if_neg hsmall]
          obtain ⟨as, hfirst, hperm_a, hsorted_a⟩ :=
            @ih (pts.take (pts.length / 2)) (by rw [List.length_take]; omega)
          obtain ⟨bs, hsecond, hperm_b, hsorted_b⟩ :=
            @ih (pts.drop (pts.length / 2)) (by rw [List.length_drop]; omega)
          have hlength : pts.length = as.length + bs.length := by
            rw [hperm_a.length_eq, hperm_b.length_eq, List.length_take, List.length_drop]
            omega
          refine ⟨_, ?_, ?_, sorted_merge hsorted_a hsorted_b⟩
          · dsimp only
            rw [hfirst, ok_bind, hsecond, ok_bind, mergeHalves_eq theta hlength]
          · have hhalves : (as ++ bs).Perm pts := by
              have happend := hperm_a.append hperm_b
              rwa [List.take_append_drop] at happend
            exact (List.merge_perm_append _).trans (List.perm_append_comm.trans hhalves)

/-- **`ptsort` sorts.** -/
theorem ptsort_sorts (theta : Pt → Θ) (pts : List Pt) :
    ∃ out, ptsort theta pts = .ok out ∧ out.Perm pts ∧ Sorted theta out :=
  ptsortWithin_sorts theta (Nat.lt_succ_self _)

/-! ## 4. Removing duplicates -/

/-- Where the point is. -/
def Pt.place (p : Pt) : Nat × Nat := (p.x, p.y)

theorem place_ne_iff {p q : Pt} : p.place ≠ q.place ↔ q.x ≠ p.x ∨ q.y ≠ p.y := by
  rw [Pt.place, Pt.place, Ne, Prod.mk.injEq, not_and_or]
  exact or_congr ne_comm ne_comm

/-- Without the points that are at the place of the one before. -/
def compact (pts : List Pt) : List Pt := pts.destutter fun p q => p.place ≠ q.place

section Compact

variable {pts : List Pt}

/-- The last point that was kept is at the place of the last point. -/
theorem destutter'_concat (first last p : Pt) (rest : List Pt)
    (hlast : (rest.getLastD first).place = last.place) :
    (rest ++ [p]).destutter' (fun p q => p.place ≠ q.place) first =
      if last.place ≠ p.place
        then rest.destutter' (fun p q => p.place ≠ q.place) first ++ [p]
        else rest.destutter' (fun p q => p.place ≠ q.place) first := by
  induction rest generalizing first with
  | nil =>
      rw [List.getLastD_nil] at hlast
      rw [List.nil_append, List.destutter'_singleton, List.destutter'_nil, hlast]
      rfl
  | cons q rest ih =>
      rw [List.getLastD_cons] at hlast
      rw [List.cons_append, List.destutter'_cons, List.destutter'_cons]
      by_cases hq : first.place = q.place
      · rw [if_neg (not_not.mpr hq), if_neg (not_not.mpr hq)]
        apply ih
        cases rest with
        | nil => exact hq.trans hlast
        | cons r rest =>
            rw [List.getLastD_cons] at hlast ⊢
            exact hlast
      · rw [if_pos hq, if_pos hq, ih q hlast]
        split
        · rfl
        · rfl

theorem compact_concat (front : List Pt) (last p : Pt) :
    compact (front ++ [last] ++ [p]) =
      if last.place ≠ p.place then compact (front ++ [last]) ++ [p]
      else compact (front ++ [last]) := by
  cases front with
  | nil => exact destutter'_concat last last p [] rfl
  | cons first front =>
      apply destutter'_concat first last p (front ++ [last])
      rw [List.getLastD_concat]

theorem exists_mem_destutter' (first : Pt) {p : Pt} (hp : p ∈ first :: pts) :
    ∃ q ∈ pts.destutter' (fun p q => p.place ≠ q.place) first, q.place = p.place := by
  induction pts generalizing first with
  | nil =>
      rw [List.mem_singleton.mp hp]
      exact ⟨first, List.mem_singleton_self first, rfl⟩
  | cons next pts ih =>
      rw [List.destutter'_cons]
      by_cases hnext : first.place = next.place
      · rw [if_neg (not_not.mpr hnext)]
        rcases List.mem_cons.mp hp with rfl | hp
        · exact ih p List.mem_cons_self
        · rcases List.mem_cons.mp hp with rfl | hp
          · exact ⟨first, List.mem_destutter' _ _ first, hnext⟩
          · exact ih first (List.mem_cons_of_mem _ hp)
      · rw [if_pos hnext]
        rcases List.mem_cons.mp hp with rfl | hp
        · exact ⟨p, List.mem_cons_self, rfl⟩
        · obtain ⟨q, hq, hplace⟩ := ih next hp
          exact ⟨q, List.mem_cons_of_mem _ hq, hplace⟩

theorem exists_mem_compact {p : Pt} (hp : p ∈ pts) : ∃ q ∈ compact pts, q.place = p.place := by
  cases pts with
  | nil => exact absurd hp List.not_mem_nil
  | cons first pts => exact exists_mem_destutter' first hp

/-- The loop has come to the point `k`. -/
structure Compacted (pts : List Pt) (k : Nat) (c : Compacting) : Prop where
  length : c.pts.length = pts.length
  outpos_le : c.outpos ≤ k
  kept : c.pts.take c.outpos = compact (pts.take k)
  /-- The point before, to which `last` points, is still in its place. -/
  rest : ∀ i, k ≤ i + 1 → c.pts[i]? = pts[i]?

theorem Compacted.point {k : Nat} {c : Compacting} (h : Compacted pts (k + 1) c)
    (hk : k + 1 < pts.length) :
    ∃ after, compactPoint c (k + 1) = .ok after ∧ Compacted pts (k + 2) after := by
  have hload {i : Nat} (hi : k ≤ i) (hlt : i < pts.length) : load c.pts i = .ok pts[i] := by
    rw [load, h.rest i (Nat.succ_le_succ hi), List.getElem?_eq_getElem hlt]
  have hbefore : pts.take (k + 1) = pts.take k ++ [pts[k]] := by
    rw [List.take_append_getElem]
  have htake : pts.take (k + 2) = pts.take (k + 1) ++ [pts[k + 1]] := by
    rw [List.take_append_getElem]
  have hcompact : compact (pts.take (k + 2)) =
      if pts[k].place ≠ pts[k + 1].place then compact (pts.take (k + 1)) ++ [pts[k + 1]]
      else compact (pts.take (k + 1)) := by
    rw [htake, hbefore, compact_concat]
  have hlength := h.length
  have houtpos := h.outpos_le
  rw [compactPoint, hload (Nat.le_succ k) hk, ok_bind, Nat.add_sub_cancel,
    hload (Nat.le_refl k) (Nat.lt_of_succ_lt hk), ok_bind]
  by_cases hplace : pts[k].place ≠ pts[k + 1].place
  · rw [if_pos hplace, ← h.kept] at hcompact
    rw [if_pos (place_ne_iff.mp hplace)]
    by_cases hout : k + 1 = c.outpos
    · rw [if_neg (not_not.mpr hout), pure_bind]
      refine ⟨_, rfl, hlength, Nat.succ_le_succ houtpos, ?_, fun i hi => h.rest i (by omega)⟩
      rw [hcompact]
      show c.pts.take (c.outpos + 1) = _
      rw [List.take_add_one, ← hout, h.rest (k + 1) (by omega), List.getElem?_eq_getElem hk]
      rfl
    · rw [if_pos hout, store, if_pos (by omega), ok_bind]
      refine ⟨_, rfl, ?_, Nat.succ_le_succ houtpos, ?_, fun i hi => ?_⟩
      · exact List.length_set.trans hlength
      · rw [hcompact]
        exact take_set_succ (by omega) _
      · show (c.pts.set c.outpos pts[k + 1])[i]? = _
        rw [List.getElem?_set_ne (by omega)]
        exact h.rest i (by omega)
  · rw [if_neg hplace, ← h.kept] at hcompact
    rw [if_neg (mt place_ne_iff.mpr hplace)]
    exact ⟨c, rfl, hlength, by omega, hcompact.symm, fun i hi => h.rest i (by omega)⟩

theorem Compacted.points {k n : Nat} {c : Compacting} (h : Compacted pts (k + 1) c)
    (hn : k + 1 + n ≤ pts.length) :
    ∃ after, (List.range' (k + 1) n).foldlM compactPoint c = .ok after ∧
      Compacted pts (k + 1 + n) after := by
  induction n generalizing k c with
  | zero => exact ⟨c, rfl, h⟩
  | succ n ih =>
      obtain ⟨middle, hpoint, hmiddle⟩ := h.point (by omega)
      obtain ⟨after, hrest, hafter⟩ := @ih (k + 1) middle hmiddle (by omega)
      refine ⟨after, ?_, ?_⟩
      · rw [List.range'_succ, List.foldlM_cons, hpoint, ok_bind, hrest]
      · rwa [show k + 1 + (n + 1) = k + 1 + 1 + n by omega]

theorem removeDuplicates_eq (hpos : 0 < pts.length) :
    removeDuplicates pts = .ok (compact pts) := by
  have hfirst : Compacted pts (0 + 1) ⟨pts, 1⟩ := by
    refine ⟨rfl, Nat.le_refl 1, ?_, fun i _ => rfl⟩
    cases pts with
    | nil => exact absurd hpos (Nat.lt_irrefl 0)
    | cons p pts => rfl
  obtain ⟨c, hloop, hcompacted⟩ := hfirst.points (n := pts.length - 1) (by omega)
  have htotal : 0 + 1 + (pts.length - 1) = pts.length := by omega
  have hkept := hcompacted.kept
  rw [htotal, List.take_length] at hkept
  rw [removeDuplicates]
  exact (bind_eq_ok.mpr ⟨c, hloop, congrArg Except.ok hkept⟩)

end Compact

/-! ## 5. Once around -/

/-- The points of the cluster in the order of their angles. -/
structure WrapsAround (theta : Pt → Θ) (cluster pts : List Pt) : Prop where
  sorted : Sorted theta pts
  sub : pts.Subperm cluster
  places : ∀ p ∈ cluster, ∃ q ∈ pts, q.place = p.place
  /-- No point is at the place of the one before it. -/
  moves : pts.IsChain fun p q => p.place ≠ q.place

/-- Where no two places are seen under one angle, the points go around strictly. -/
theorem WrapsAround.strict {theta : Pt → Θ} {cluster pts : List Pt}
    (h : WrapsAround theta cluster pts)
    (htheta : ∀ p ∈ cluster, ∀ q ∈ cluster, theta p = theta q → p.place = q.place) :
    pts.Pairwise fun p q => theta p < theta q := by
  have hmem : ∀ p ∈ pts, p ∈ cluster := fun p hp => h.sub.subset hp
  have hchain : pts.IsChain fun p q => theta p < theta q := by
    rw [List.isChain_iff_getElem]
    intro i hi
    have hle := List.pairwise_iff_getElem.mp h.sorted i (i + 1) (by omega) hi (Nat.lt_succ_self i)
    have hne := List.isChain_iff_getElem.mp h.moves i hi
    apply lt_of_le_of_ne hle
    intro heq
    exact hne (htheta _ (hmem _ (List.getElem_mem _)) _ (hmem _ (List.getElem_mem _)) heq)
  exact List.isChain_iff_pairwise.mp hchain

theorem sortPoints_wrapsAround (theta : Pt → Θ) (cluster : List Pt) :
    ∃ pts, WrapsAround theta cluster pts ∧
      sortPoints theta cluster = .ok (if pts.length < 4 then none else some pts) := by
  obtain ⟨sorted, hsort, hperm, hsorted⟩ := ptsort_sorts theta cluster
  have hsub : (compact sorted).Sublist sorted := List.destutter_sublist _ sorted
  have hle : (compact sorted).length ≤ cluster.length :=
    hsub.length_le.trans (Nat.le_of_eq hperm.length_eq)
  refine ⟨compact sorted, ⟨?_, ?_, ?_, ?_⟩, ?_⟩
  · exact hsorted.sublist hsub
  · exact hsub.subperm.trans hperm.subperm
  · intro p hp
    exact exists_mem_compact (hperm.mem_iff.mpr hp)
  · exact List.isChain_destutter _ sorted
  · rw [sortPoints]
    by_cases hfew : cluster.length < 4
    · rw [if_pos hfew, if_pos (Nat.lt_of_le_of_lt hle hfew)]
      rfl
    · have hpos : 0 < sorted.length := by
        rw [hperm.length_eq]
        exact Nat.lt_of_lt_of_le (by decide) (Nat.le_of_not_lt hfew)
      rw [if_neg hfew, hsort, ok_bind, removeDuplicates_eq hpos, ok_bind]
      split
      · rfl
      · rfl

/-- Six points, two of them at one place. -/
def sixPoints : List Pt :=
  [⟨5, 0, 0, 0⟩, ⟨1, 0, 0, 0⟩, ⟨4, 0, 0, 0⟩, ⟨1, 0, 0, 0⟩, ⟨3, 0, 0, 0⟩, ⟨2, 0, 0, 0⟩]

/-- Of four points at two places under one angle, all stay. -/
example : ((sortPoints (fun _ => 0) [⟨1, 0, 0, 0⟩, ⟨2, 0, 0, 0⟩, ⟨1, 0, 0, 0⟩, ⟨2, 0, 0, 0⟩]).map
    (Option.map List.length)).toOption = some (some 4) := by decide

end Lame
