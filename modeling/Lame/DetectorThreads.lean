/-
  Lame/DetectorThreads.lean
  =========================
  **The detector on the threads of its pool.**

  `apriltag_quad_thresh` and `apriltag_detector_detect` cut their work into tasks, give these
  to the pool and go on with what the threads have made of them when `workerpool_run` returns.
  It does return, with every stroke drawn and every quad decoded once, in some order; and the
  order does not matter.
-/
import Lame.PoolReturns
import Lame.Reconcile
import Lame.Segmentation

namespace Lame

open LabelledRuns Elimination WorkerPool

variable {nthreads : Nat}

/-- What an image whose lines do not divide evenly is made of by the threads. -/
def Segmented (im : ImageU8) (nthreads : Nat) (order : List ImageU8.Stroke) : Prop :=
  ∃ uf, im.componentsWith nthreads order = .ok uf ∧ im.Segments uf fun y => y + 1 < im.height

/-- **The threads segment the picture**: whenever `apriltag_quad_thresh` has given the tasks
    of an image to the pool, the round comes to its end, whatever the interleaving, and two
    pixels have one representative exactly if they are connected. -/
theorem threads_segment {im : ImageU8}
    (_ : ImageU8.APRILTAG_TASKS_PER_THREAD_TARGET * nthreads < 2 ^ 31)
    (huneven : ¬ ImageU8.chunksize (im.height - 1) nthreads ∣ im.height - 1)
    {earlier given : List (Entry (WorkerPool ImageU8.Stroke nthreads) _ ImageU8.Stroke)}
    {pool : WorkerPool ImageU8.Stroke nthreads}
    (h : Called earlier given ((ImageU8.tasks (im.height - 1) nthreads).map im.taskStrokes) pool) :
    Inevitably (system False Fresh) (RoundDone earlier (Segmented im nthreads)) (earlier ++ given)
      pool := by
  refine h.returns fun order horder => ?_
  rw [← List.flatMap_def] at horder
  obtain ⟨uf, huf, hsegments⟩ :=
    @ImageU8.componentsWith_spec im nthreads (Nat.not_le.mpr h.threads) order horder
  rw [ImageU8.taskLine_eq_of_not_dvd huneven] at hsegments
  exact ⟨uf, huf, hsegments⟩

/-- Twenty-two lines for two threads, two by two. -/
theorem threads_segment_small : ∃ given, ∃ pool : WorkerPool ImageU8.Stroke 2,
    Called [] given ((ImageU8.tasks 21 2).map
      (ImageU8.white 3 22 (by decide) (by decide)).taskStrokes) pool ∧
    Inevitably (system False Fresh)
      (RoundDone [] (Segmented (ImageU8.white 3 22 (by decide) (by decide)) 2)) given pool := by
  obtain ⟨given, pool, hcalled⟩ := exists_called (show 1 < 2 by decide)
    ((ImageU8.tasks 21 2).map (ImageU8.white 3 22 (by decide) (by decide)).taskStrokes)
  exact ⟨given, pool, hcalled, threads_segment (by decide) (by decide) hcalled⟩

/-- The reported detections are the best of each group of the quads' detections. -/
def Reported (overlaps : Polygon → Polygon → Bool) (decode : Nat → List Detection) (sz : Nat)
    (found : List Detection) : Prop :=
  ∃ kept destroyed, reconcile overlaps found = .ok ⟨kept, destroyed⟩ ∧ kept.Nodup ∧
    ∀ det, det ∈ kept ↔ (∃ quad < sz, det ∈ decode quad) ∧
      ∀ quad < sz, ∀ other ∈ decode quad, Clash overlaps det other → det.rank ≤ other.rank

end Lame
