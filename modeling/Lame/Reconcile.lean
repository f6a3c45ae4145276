/-
  Lame/Reconcile.lean
  ===================
  **No tag is reported twice: step 3 of `apriltag_detector_detect`.**

  The loops compare every detection with the later ones and destroy one of each pair that
  shows the same tag in the same place; the last detection takes the place of a destroyed
  one.  `innerLoop_spec` says what one detection does to those after it, and
  the loops thin the detections out as `Elimination.lean` has it.  Overlap is decided by
  floating-point geometry and is a parameter; finite doubles are rational numbers, and are
  only negated and compared here.
-/
import Lame.ByteMemory
import Lame.Elimination
import Lame.Segmentation
import Mathlib.Data.List.Lex
import Mathlib.Data.Rat.Defs
import Mathlib.Algebra.Order.Ring.Unbundled.Rat

namespace Lame

open ByteMemory Elimination

/-! ## 1. The code -/

abbrev Polygon := Fin 4 → Rat × Rat

structure Detection where
  family : Nat
  id : Int
  hamming : Int
  goodness : Rat
  decisionMargin : Rat
  p : Polygon
deriving DecidableEq

def preferSmaller (pref : Int) (q0 q1 : Rat) : Int :=
  if pref ≠ 0 then pref
  else if q0 < q1 then -1
  else if q1 < q0 then 1
  else 0

/-- Negative for the first detection. -/
def preference (det0 det1 : Detection) : Int :=
  let pref := preferSmaller 0 det0.hamming det1.hamming
  let pref := preferSmaller pref (-det0.decisionMargin) (-det1.decisionMargin)
  let pref := preferSmaller pref (-det0.goodness) (-det1.goodness)
  (List.finRange 4).foldl (fun pref i =>
    let pref := preferSmaller pref (det0.p i).1 (det1.p i).1
    preferSmaller pref (det0.p i).2 (det1.p i).2) pref

/-- `zarray_remove_index` with `shuffle` -/
def removeIndex {α : Type} (za : List α) (idx : Nat) : Exec (List α) :=
  if idx < za.length then
    if idx < za.length - 1 then do
      let last ← load za (za.length - 1)
      let za ← store za idx last
      return za.dropLast
    else return za.dropLast
  else .error .outOfBounds

structure Reconciling where
  detections : List Detection
  destroyed : List Detection

variable (overlaps : Polygon → Polygon → Bool)

/-- The loop over `i1`; the answer is whether `det0` is kept. -/
def innerLoop (det0 : Detection) (i0 : Nat) : Nat → Nat → Reconciling →
    Exec (Bool × Reconciling)
  | 0, _, _ => .error .outOfFuel
  | fuel + 1, i1, state =>
      if i1 < state.detections.length then do
        let det1 ← load state.detections i1
        if det0.id ≠ det1.id ∨ det0.family ≠ det1.family then
          innerLoop det0 i0 fuel (i1 + 1) state
        else if overlaps det0.p det1.p then
          if preference det0 det1 < 0 then
            let detections ← removeIndex state.detections i1
            innerLoop det0 i0 fuel i1 ⟨detections, state.destroyed ++ [det1]⟩
          else
            let detections ← removeIndex state.detections i0
            return (false, ⟨detections, state.destroyed ++ [det0]⟩)
        else innerLoop det0 i0 fuel (i1 + 1) state
      else return (true, state)

/-- The loop over `i0`. -/
def outerLoop : Nat → Nat → Reconciling → Exec Reconciling
  | 0, _, _ => .error .outOfFuel
  | fuel + 1, i0, state =>
      if i0 < state.detections.length then do
        let det0 ← load state.detections i0
        let (kept, state) ←
          innerLoop overlaps det0 i0 (state.detections.length + 1) (i0 + 1) state
        if kept then outerLoop fuel (i0 + 1) state else outerLoop fuel i0 state
      else return state

def reconcile (detections : List Detection) : Exec Reconciling :=
  outerLoop overlaps (detections.length + 1) 0 ⟨detections, []⟩

/-! ## 2. Preference is a lexicographic order -/

/-- What is compared, the weightiest first. -/
def Detection.rank (det : Detection) : List Rat :=
  [(det.hamming : Rat), -det.decisionMargin, -det.goodness] ++
    (List.finRange 4).flatMap fun i => [(det.p i).1, (det.p i).2]

theorem preferSmaller_of_ne {pref : Int} (h : pref ≠ 0) (q0 q1 : Rat) :
    preferSmaller pref q0 q1 = pref := if_pos h

theorem foldl_preferSmaller_of_ne {pref : Int} (h : pref ≠ 0) (pairs : List (Rat × Rat)) :
    pairs.foldl (fun pref q => preferSmaller pref q.1 q.2) pref = pref := by
  induction pairs with
  | nil => rfl
  | cons q pairs ih => rw [List.foldl_cons, preferSmaller_of_ne h, ih]

/-- The chain of preferences compares the lists. -/
theorem foldl_preferSmaller_neg_iff {qs rs : List Rat} (hlength : qs.length = rs.length) :
    (qs.zip rs).foldl (fun pref q => preferSmaller pref q.1 q.2) 0 < 0 ↔ qs < rs := by
  induction qs generalizing rs with
  | nil =>
      rcases rs with _ | ⟨r, rs⟩
      · simp
      · cases hlength
  | cons q qs ih =>
      rcases rs with _ | ⟨r, rs⟩
      · cases hlength
      · rw [List.zip_cons_cons, List.foldl_cons, List.cons_lt_cons_iff]
        rcases lt_trichotomy q r with hlt | rfl | hgt
        · have hpref : preferSmaller 0 q r = -1 := by simp [preferSmaller, hlt]
          rw [hpref, foldl_preferSmaller_of_ne (by decide)]
          exact iff_of_true (by decide) (.inl hlt)
        · have hpref : preferSmaller 0 q q = 0 := by simp [preferSmaller]
          rw [hpref, ih (Nat.succ.inj hlength)]
          simp
        · have hpref : preferSmaller 0 q r = 1 := by simp [preferSmaller, hgt, hgt.le]
          rw [hpref, foldl_preferSmaller_of_ne (by decide)]
          refine iff_of_false (by decide) ?_
          rintro (hlt | ⟨heq, -⟩)
          · exact lt_asymm hlt hgt
          · exact hgt.ne' heq

theorem preference_neg_iff (det0 det1 : Detection) :
    preference det0 det1 < 0 ↔ det0.rank < det1.rank := by
  rw [← foldl_preferSmaller_neg_iff (by simp [Detection.rank])]
  rfl

/-! ## 3. What the loops do -/

/-- The two detections show the same tag in the same place. -/
def Clash (det0 det1 : Detection) : Prop :=
  det0.id = det1.id ∧ det0.family = det1.family ∧ overlaps det0.p det1.p = true

/-- One of the detections found is destroyed for the sake of another. -/
def Yields (found : List Detection) (loser winner : Detection) : Prop :=
  loser ∈ found ∧ winner ∈ found ∧
    (Clash overlaps loser winner ∨ Clash overlaps winner loser) ∧ winner.rank ≤ loser.rank

theorem removeIndex_split {α : Type} (front rest : List α) (x : α) :
    ∃ moved, removeIndex (front ++ x :: rest) front.length = .ok (front ++ moved) ∧
      moved.Perm rest := by
  have hlt : front.length < (front ++ x :: rest).length := by
    rw [List.length_append, List.length_cons]
    omega
  rw [removeIndex, if_pos hlt]
  rcases List.eq_nil_or_concat' rest with rfl | ⟨init, last, rfl⟩
  · refine ⟨[], ?_, .nil⟩
    rw [if_neg (by simp), List.append_nil]
    exact congrArg Except.ok List.dropLast_concat
  · have hsplit : front ++ x :: (init ++ [last]) = (front ++ x :: init) ++ [last] := by simp
    have hlast : load (front ++ x :: (init ++ [last]))
        ((front ++ x :: (init ++ [last])).length - 1) = .ok last := by
      rw [hsplit]
      exact load_split (front ++ x :: init) [] last (by simp)
    refine ⟨last :: init, ?_, (List.perm_append_singleton last init).symm⟩
    rw [if_pos (by simp), hlast, ok_bind, store_split front _ x last rfl, ok_bind]
    refine congrArg Except.ok ?_
    rw [← List.cons_append, ← List.append_assoc, List.dropLast_concat]

section Loops

variable {overlaps} {found : List Detection}

/-- What one detection does to those after it: it destroys some that yield to it, and then
    is kept, apart from all others, or yields to one of them. -/
def Settles (overlaps : Polygon → Polygon → Bool) (found front others destroyed : List Detection)
    (det0 : Detection) (kept : Bool) (after : Reconciling) : Prop :=
  ∃ tail out, (tail ++ out).Perm others ∧ (∀ det ∈ out, Yields overlaps found det det0) ∧
    ((kept = true ∧ after = ⟨front ++ det0 :: tail, destroyed ++ out⟩ ∧
        ∀ det ∈ tail, ¬ Clash overlaps det0 det) ∨
     (kept = false ∧ after = ⟨front ++ tail, destroyed ++ out ++ [det0]⟩ ∧
        ∃ winner ∈ tail, Yields overlaps found det0 winner))

theorem Settles.destroy {front others rest destroyed : List Detection} {det0 det1 : Detection}
    {kept : Bool} {after : Reconciling}
    (h : Settles overlaps found front others (destroyed ++ [det1]) det0 kept after)
    (hothers : (det1 :: others).Perm rest) (hyields : Yields overlaps found det1 det0) :
    Settles overlaps found front rest destroyed det0 kept after := by
  obtain ⟨tail, out, hperm, hout, hor⟩ := h
  refine ⟨tail, det1 :: out, ?_, ?_, ?_⟩
  · exact List.perm_middle.trans ((hperm.cons det1).trans hothers)
  · rw [List.forall_mem_cons]
    exact ⟨hyields, hout⟩
  · rwa [List.append_assoc destroyed, List.singleton_append] at hor

theorem innerLoop_spec {front checked rest destroyed : List Detection} {det0 : Detection}
    {fuel : Nat} (hfuel : rest.length < fuel) (hdet0 : det0 ∈ found)
    (hrest : ∀ det ∈ rest, det ∈ found) (hchecked : ∀ det ∈ checked, ¬ Clash overlaps det0 det) :
    ∃ kept after, innerLoop overlaps det0 front.length fuel
        (front.length + 1 + checked.length)
        ⟨front ++ det0 :: (checked ++ rest), destroyed⟩ = .ok (kept, after) ∧
      Settles overlaps found front (checked ++ rest) destroyed det0 kept after := by
  induction fuel generalizing checked rest destroyed with
  | zero => omega
  | succ fuel ih =>
      rw [innerLoop]
      rcases rest with _ | ⟨det1, rest⟩
      · -- all are checked
        rw [List.append_nil, if_neg (by simp; omega)]
        exact ⟨true, _, rfl, checked, [], by rw [List.append_nil], by simp,
          .inl ⟨rfl, by rw [List.append_nil], hchecked⟩⟩
      · have hsplit : front ++ det0 :: (checked ++ det1 :: rest) =
            (front ++ det0 :: checked) ++ det1 :: rest := by simp
        have hindex : front.length + 1 + checked.length =
            (front ++ det0 :: checked).length := by
          rw [List.length_append, List.length_cons]
          omega
        have hload : load (front ++ det0 :: (checked ++ det1 :: rest))
            (front.length + 1 + checked.length) = .ok det1 := by
          rw [hsplit]
          exact load_split _ _ det1 hindex
        rw [List.length_cons] at hfuel
        rw [List.forall_mem_cons] at hrest
        rw [if_pos (by simp; omega)]
        dsimp only
        rw [hload, ok_bind]
        -- the next round, if they do not clash
        have hnext (hapart : ¬ Clash overlaps det0 det1) := @ih (checked ++ [det1]) rest destroyed
          (by omega) hrest.2 (by
            intro det hdet
            rcases List.mem_append.mp hdet with hdet | hdet
            · exact hchecked det hdet
            · rwa [List.mem_singleton.mp hdet])
        rw [List.length_append, List.length_singleton, ← Nat.add_assoc, List.append_assoc,
          List.singleton_append] at hnext
        by_cases hsame : det0.id ≠ det1.id ∨ det0.family ≠ det1.family
        · rw [if_pos hsame]
          refine hnext fun hclash => ?_
          rcases hsame with hid | hfamily
          · exact hid hclash.1
          · exact hfamily hclash.2.1
        · rw [if_neg hsame]
          push Not at hsame
          by_cases hoverlaps : overlaps det0.p det1.p = true
          · have hclash : Clash overlaps det0 det1 := ⟨hsame.1, hsame.2, hoverlaps⟩
            rw [if_pos hoverlaps]
            by_cases hpref : preference det0 det1 < 0
            · -- det1 is destroyed
              obtain ⟨moved, hremove, hmoved⟩ :=
                removeIndex_split (front ++ det0 :: checked) rest det1
              have hyields : Yields overlaps found det1 det0 := ⟨hrest.1, hdet0, .inr hclash,
                le_of_lt ((preference_neg_iff det0 det1).mp hpref)⟩
              obtain ⟨kept, after, hloop, hsettles⟩ :=
                @ih checked moved (destroyed ++ [det1]) (by rw [hmoved.length_eq]; omega)
                  (fun det hdet => hrest.2 det (hmoved.mem_iff.mp hdet)) hchecked
              rw [if_pos hpref, hsplit, hindex, hremove, ok_bind, ← hindex, List.append_assoc,
                List.cons_append]
              refine ⟨kept, after, hloop, hsettles.destroy ?_ hyields⟩
              exact List.perm_middle.symm.trans ((hmoved.cons det1).append_left checked)
            · -- det0 is destroyed
              obtain ⟨moved, hremove, hmoved⟩ :=
                removeIndex_split front (checked ++ det1 :: rest) det0
              have hyields : Yields overlaps found det0 det1 := ⟨hdet0, hrest.1, .inl hclash,
                not_lt.mp fun hlt => hpref ((preference_neg_iff det0 det1).mpr hlt)⟩
              rw [if_neg hpref, hremove, ok_bind]
              refine ⟨false, _, rfl, moved, [], by rwa [List.append_nil], by simp,
                .inr ⟨rfl, by rw [List.append_nil], det1, hmoved.mem_iff.mpr ?_, hyields⟩⟩
              exact List.mem_append_right _ List.mem_cons_self
          · rw [if_neg hoverlaps]
            exact hnext fun hclash => hoverlaps hclash.2.2

theorem outerLoop_spec {front rest destroyed : List Detection} {fuel : Nat}
    (hfuel : rest.length < fuel) (hrest : ∀ det ∈ rest, det ∈ found) :
    ∃ kept removed, outerLoop overlaps fuel front.length ⟨front ++ rest, destroyed⟩ =
        .ok ⟨front ++ kept, destroyed ++ removed⟩ ∧
      Eliminated (Yields overlaps found) rest kept removed ∧
      kept.Pairwise fun det0 det1 => ¬ Clash overlaps det0 det1 := by
  induction fuel generalizing front rest destroyed with
  | zero => omega
  | succ fuel ih =>
      rw [outerLoop]
      rcases rest with _ | ⟨det0, others⟩
      · rw [if_neg (by simp)]
        exact ⟨[], [], by rw [List.append_nil, List.append_nil]; rfl, eliminated_nil, .nil⟩
      · rw [List.length_cons] at hfuel
        rw [List.forall_mem_cons] at hrest
        obtain ⟨kept, after, hloop, tail, out, hperm, hout, hor⟩ :=
          @innerLoop_spec overlaps found front [] others destroyed det0
            ((front ++ det0 :: others).length + 1)
            (by rw [List.length_append, List.length_cons]; omega) hrest.1 hrest.2
            (List.forall_mem_nil _)
        rw [List.nil_append, List.length_nil, Nat.add_zero] at hloop
        rw [List.nil_append] at hperm
        have htail : ∀ det ∈ tail, det ∈ found := fun det hdet =>
          hrest.2 det (hperm.mem_iff.mp (List.mem_append_left _ hdet))
        have hshorter : tail.length < fuel := by
          have hlength := hperm.length_eq
          rw [List.length_append] at hlength
          omega
        rw [if_pos (by simp)]
        dsimp only
        rw [load_split front others det0 rfl, ok_bind, hloop, ok_bind]
        rcases hor with ⟨rfl, rfl, hapart⟩ | ⟨rfl, rfl, winner, hwinner, hyields⟩
        · obtain ⟨kept, removed, hrounds, heliminated, hpairwise⟩ :=
            @ih (front ++ [det0]) tail (destroyed ++ out) hshorter htail
          rw [List.length_append, List.length_singleton, List.append_assoc,
            List.singleton_append] at hrounds
          refine ⟨det0 :: kept, out ++ removed, ?_, heliminated.cons_kept hperm hout, ?_⟩
          · rw [if_pos rfl, hrounds, List.append_assoc, List.singleton_append, List.append_assoc]
          · refine List.pairwise_cons.mpr ⟨fun det hdet => ?_, hpairwise⟩
            exact hapart det (heliminated.mem_items.mpr (.inl hdet))
        · obtain ⟨kept, removed, hrounds, heliminated, hpairwise⟩ :=
            @ih front tail (destroyed ++ out ++ [det0]) hshorter htail
          refine ⟨kept, out ++ det0 :: removed, ?_,
            heliminated.cons_removed hperm hout hwinner hyields, hpairwise⟩
          rw [if_neg Bool.false_ne_true, hrounds, List.append_assoc (destroyed ++ out),
            List.singleton_append, List.append_assoc]

end Loops

theorem reconcile_holds (found : List Detection) :
    ∃ kept destroyed, reconcile overlaps found = .ok ⟨kept, destroyed⟩ ∧
      Eliminated (Yields overlaps found) found kept destroyed ∧
      kept.Pairwise fun det0 det1 => ¬ Clash overlaps det0 det1 := by
  obtain ⟨kept, destroyed, hloop, heliminated, hpairwise⟩ :=
    @outerLoop_spec overlaps found [] found [] (found.length + 1) (Nat.lt_succ_self _)
      (fun _ hdet => hdet)
  exact ⟨kept, destroyed, hloop, heliminated, hpairwise⟩

/-- **Reconciling keeps one of every tag**: the loops end; every detection is either kept or
    destroyed, once; of the kept ones no two clash, and every destroyed one yields, perhaps
    through others, to one that is kept. -/
theorem reconcile_spec (found : List Detection) :
    ∃ kept destroyed, reconcile overlaps found = .ok ⟨kept, destroyed⟩ ∧
      (kept ++ destroyed).Perm found ∧
      (kept.Pairwise fun det0 det1 => ¬ Clash overlaps det0 det1) ∧
      ∀ loser ∈ destroyed, ∃ winner ∈ kept,
        Relation.TransGen (Yields overlaps found) loser winner := by
  obtain ⟨kept, destroyed, hreconcile, heliminated, hpairwise⟩ := reconcile_holds overlaps found
  exact ⟨kept, destroyed, hreconcile, heliminated.perm, hpairwise, heliminated.yields⟩

/-! ## 4. Several threads -/

/-- `for (int i = 0; i < sz; i += chunksize)`: the `i0` and `i1` of the tasks. -/
def quadTasksFrom (sz chunksize : Nat) : Nat → Nat → List (Nat × Nat)
  | 0, _ => []
  | fuel + 1, i =>
      if i < sz then
        (i, min sz (i + chunksize)) :: quadTasksFrom sz chunksize fuel (i + chunksize)
      else []

def quadTasks (sz nthreads : Nat) : List (Nat × Nat) :=
  quadTasksFrom sz (ImageU8.chunksize sz nthreads) sz 0

/-- `quad_decode_task`; `decode` has what the families make of a quad. -/
def taskDetections (decode : Nat → List Detection) (task : Nat × Nat) : List Detection :=
  (List.range' task.1 (task.2 - task.1)).flatMap decode

/-- What the worker threads may have found, each adding under the mutex as it goes. -/
structure Found (decode : Nat → List Detection) (sz nthreads : Nat) (found : List Detection) :
    Prop where
  threads : 0 < nthreads
  order : found.Perm ((quadTasks sz nthreads).flatMap (taskDetections decode))

/-- The tasks have every quad once. -/
theorem flatMap_quadTasksFrom {β : Type} (decode : Nat → List β) {sz c : Nat} (hc : 0 < c)
    {fuel i : Nat} (hfuel : sz ≤ i + fuel) :
    ((quadTasksFrom sz c fuel i).flatMap fun task =>
      (List.range' task.1 (task.2 - task.1)).flatMap decode) =
    (List.range' i (sz - i)).flatMap decode := by
  induction fuel generalizing i with
  | zero =>
      rw [quadTasksFrom, show sz - i = 0 by omega]
      rfl
  | succ fuel ih =>
      rw [quadTasksFrom]
      by_cases hi : i < sz
      · rw [if_pos hi, List.flatMap_cons, ih (by omega), ← List.flatMap_append]
        congr 1
        by_cases hlast : sz ≤ i + c
        · rw [Nat.min_eq_left hlast, show sz - (i + c) = 0 by omega, List.range'_zero,
            List.append_nil]
        · rw [Nat.min_eq_right (by omega), Nat.add_sub_cancel_left, List.range'_append_1]
          congr 1
          omega
      · rw [if_neg hi, show sz - i = 0 by omega]
        rfl

theorem Found.perm {decode : Nat → List Detection} {sz nthreads : Nat} {found : List Detection}
    (h : Found decode sz nthreads found) : found.Perm ((List.range sz).flatMap decode) := by
  have hc : 0 < ImageU8.chunksize sz nthreads :=
    Nat.lt_of_lt_of_le Nat.one_pos (Nat.le_add_right _ _)
  have htasks := flatMap_quadTasksFrom decode hc (Nat.le_add_left sz 0)
  rw [Nat.sub_zero, ← List.range_eq_range'] at htasks
  rw [← htasks]
  exact h.order

theorem faithful_yields (found : List Detection)
    (hranked : Ranked (Clash overlaps) Detection.rank found) :
    Faithful (Clash overlaps) Detection.rank found (Yields overlaps found) := by
  rintro loser winner ⟨hloser, hwinner, hclash, hle⟩
  refine ⟨hloser, hwinner, ?_, hle⟩
  rcases hclash with hclash | hclash
  · exact hclash
  · exact hranked.symm _ hwinner _ hloser hclash

/-- Where overlapping is transitive and no two detections are the same, the tags reported do not
    depend on the threads: they are the best of those that show the same. -/
theorem reconcile_found (decode : Nat → List Detection) (sz nthreads : Nat)
    (hranked : Ranked (Clash overlaps) Detection.rank ((List.range sz).flatMap decode))
    {found : List Detection} (hfound : Found decode sz nthreads found) :
    ∃ kept destroyed, reconcile overlaps found = .ok ⟨kept, destroyed⟩ ∧ kept.Nodup ∧
      ∀ det, det ∈ kept ↔ (∃ quad < sz, det ∈ decode quad) ∧
        ∀ quad < sz, ∀ other ∈ decode quad, Clash overlaps det other → det.rank ≤ other.rank := by
  have hranked' := hranked.of_perm hfound.perm
  obtain ⟨kept, destroyed, hreconcile, heliminated, hpairwise⟩ := reconcile_holds overlaps found
  refine ⟨kept, destroyed, hreconcile, heliminated.nodup hranked', fun det => ?_⟩
  rw [heliminated.mem_kept_iff (faithful_yields overlaps found hranked') hranked' hpairwise]
  simp only [hfound.perm.mem_iff, List.mem_flatMap, List.mem_range]
  constructor
  · rintro ⟨hdet, hbest⟩
    exact ⟨hdet, fun quad hquad other hother => hbest other ⟨quad, hquad, hother⟩⟩
  · rintro ⟨hdet, hbest⟩
    exact ⟨hdet, fun other ⟨quad, hquad, hother⟩ => hbest quad hquad other hother⟩

/-- A detection of tag 3 with so many corrected bits, so far to the right. -/
def seen (hamming : Int) (x : Rat) : Detection where
  family := 0
  id := 3
  hamming := hamming
  goodness := 0
  decisionMargin := 40
  p := fun _ => (x, 0)

/-- Each overlaps the next only: what is kept depends on the order. -/
example : let near : Polygon → Polygon → Bool := fun p q =>
      (p 0).1 - (q 0).1 ≤ 1 ∧ (q 0).1 - (p 0).1 ≤ 1
    ((reconcile near [seen 0 0, seen 1 1, seen 2 2]).toOption.map (·.detections.length),
      (reconcile near [seen 1 1, seen 2 2, seen 0 0]).toOption.map (·.detections.length)) =
    (some 2, some 1) := by decide +kernel

end Lame
