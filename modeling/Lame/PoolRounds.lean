/-
  Lame/PoolRounds.lean
  ====================
  **No task is lost and none is done twice.**

  A worker counts itself whenever it goes to sleep, so the count is right if every worker sleeps
  once in a round.  `Consistent` is what holds at each place of the caller when all workers
  sleep at first; every step keeps it, and what a step does is taken from what was still to
  come.
-/
import Lame.WorkerPool

namespace Lame

open LabelledRuns

namespace WorkerPool

variable {A : Type} {nthreads : Nat} {pool after : WorkerPool A nthreads}
  {event : PoolEvent A nthreads} {outputs : List A}

/-! ## 1. The places of the caller -/

def Asleep (pool : WorkerPool A nthreads) : Prop := ∀ w, pool.workers w = .waiting

/-- The workers sleep and have nothing behind them. -/
structure Calm (pool : WorkerPool A nthreads) : Prop where
  asleep : pool.Asleep
  start : pool.taskspos = 0

/-- In the loop of `workerpool_run`. -/
structure Working (pool : WorkerPool A nthreads) : Prop where
  threads : 1 < nthreads
  pos_le : pool.taskspos ≤ pool.tasks.length
  counted : pool.endCount = ∑ w, (pool.workers w).sleeping
  drained : ∀ w, pool.workers w = .waiting → pool.taskspos = pool.tasks.length
  proper : ∀ task ∈ pool.tasks, task ≠ none
  staying : ∀ w, pool.workers w ≠ .exited ∧ pool.workers w ≠ .running none

/-- In `workerpool_destroy`, from the broadcast on: there is one exit for each worker. -/
structure Leaving (pool : WorkerPool A nthreads) : Prop where
  threads : 1 < nthreads
  pos_le : pool.taskspos ≤ pool.tasks.length
  awake : ∀ w, pool.workers w ≠ .waiting
  exits : ∃ tasks : List (List A), pool.tasks.drop pool.taskspos =
    tasks.map some ++ List.replicate (∑ w, (pool.workers w).active) none ∧
      (∑ w, (pool.workers w).active = 0 → tasks = [])

def Consistent (pool : WorkerPool A nthreads) : Prop :=
  match pool.caller with
  | .outside => pool.Calm ∧ ∀ task ∈ pool.tasks, task ≠ none
  | .starting =>
      1 < nthreads ∧ pool.Calm ∧ pool.endCount = 0 ∧ ∀ task ∈ pool.tasks, task ≠ none
  | .waiting => pool.Working ∧ pool.endCount < nthreads
  | .woken => pool.Working
  | .resetting => 1 < nthreads ∧ pool.Asleep ∧ pool.taskspos = pool.tasks.length
  | .clearing => 1 < nthreads ∧ pool.Calm
  | .stopping => 1 < nthreads ∧ pool.Calm ∧
      ∃ tasks : List (List A), pool.tasks = tasks.map some ++ List.replicate nthreads none
  | .joining => pool.Leaving
  | .destroyed => 1 < nthreads →
      (∀ w, pool.workers w = .exited) ∧ pool.tasks.drop pool.taskspos = []

theorem nworkers_eq (h : 1 < nthreads) : nworkers nthreads = nthreads := if_pos h

theorem sum_sleeping_of_asleep (h : pool.Asleep) :
    ∑ w, (pool.workers w).sleeping = nworkers nthreads := by
  have hone : ∀ w, (pool.workers w).sleeping = 1 := by
    intro w
    rw [h w]
    rfl
  simp [hone]

theorem asleep_of_le (h : nworkers nthreads ≤ ∑ w, (pool.workers w).sleeping) :
    pool.Asleep := by
  intro w
  by_contra hw
  have hle : ∀ v ∈ Finset.univ, (pool.workers v).sleeping ≤ 1 := by
    intro v _
    cases pool.workers v with
    | waiting => exact le_refl 1
    | ready | running | exited => exact Nat.zero_le 1
  have hlt : (pool.workers w).sleeping < 1 := by
    cases hworker : pool.workers w with
    | waiting => exact absurd hworker hw
    | ready | running | exited => exact Nat.one_pos
  have hsum := Finset.sum_lt_sum hle ⟨w, Finset.mem_univ w, hlt⟩
  rw [Finset.sum_const, Finset.card_univ, Fintype.card_fin, smul_eq_mul, mul_one] at hsum
  omega

theorem sleeping_setWorker (pool : WorkerPool A nthreads) (w : Fin (nworkers nthreads))
    (worker : PoolWorker A) :
    (∑ v, ((pool.setWorker w worker).workers v).sleeping) + (pool.workers w).sleeping =
      (∑ v, (pool.workers v).sleeping) + worker.sleeping :=
  sum_update PoolWorker.sleeping pool.workers w worker

theorem active_setWorker (pool : WorkerPool A nthreads) (w : Fin (nworkers nthreads))
    (worker : PoolWorker A) :
    (∑ v, ((pool.setWorker w worker).workers v).active) + (pool.workers w).active =
      (∑ v, (pool.workers v).active) + worker.active :=
  sum_update PoolWorker.active pool.workers w worker

theorem update_cases {f : Fin (nworkers nthreads) → PoolWorker A} {w v : Fin (nworkers nthreads)}
    {worker : PoolWorker A} {P : PoolWorker A → Prop} (hnew : P worker) (hold : P (f v)) :
    P (Function.update f w worker v) := by
  by_cases hv : v = w
  · rw [hv, Function.update_self]
    exact hnew
  · rwa [Function.update_of_ne hv]

theorem Consistent.of_awake (h : pool.Consistent) {w : Fin (nworkers nthreads)}
    (hwaiting : pool.workers w ≠ .waiting) (hexited : pool.workers w ≠ .exited) :
    (pool.Working ∧ (pool.caller = .waiting ∧ pool.endCount < nthreads ∨
      pool.caller = .woken)) ∨ (pool.caller = .joining ∧ pool.Leaving) := by
  unfold Consistent at h
  split at h
  · exact absurd (h.1.asleep w) hwaiting
  · exact absurd (h.2.1.asleep w) hwaiting
  · next hcaller => exact .inl ⟨h.1, .inl ⟨hcaller, h.2⟩⟩
  · next hcaller => exact .inl ⟨h, .inr hcaller⟩
  · exact absurd (h.2.1 w) hwaiting
  · exact absurd (h.2.asleep w) hwaiting
  · exact absurd (h.2.1.asleep w) hwaiting
  · next hcaller => exact .inr ⟨hcaller, h⟩
  · have hthreads : 1 < nthreads := by
      by_contra hcontra
      exact absurd (Nat.lt_of_lt_of_eq w.isLt (if_neg hcontra)) (Nat.not_lt_zero _)
    exact absurd ((h hthreads).1 w) hexited

theorem Working.consistent (h : pool.Working)
    (hcaller : pool.caller = .waiting ∧ pool.endCount < nthreads ∨ pool.caller = .woken) :
    pool.Consistent := by
  rcases hcaller with ⟨hcaller, hlt⟩ | hcaller
  · simp only [Consistent, hcaller]
    exact ⟨h, hlt⟩
  · simp only [Consistent, hcaller]
    exact h

theorem Leaving.consistent (h : pool.Leaving) (hcaller : pool.caller = .joining) :
    pool.Consistent := by
  simp only [Consistent, hcaller]
  exact h

theorem getElem?_lt {tasks : List (Option (List A))} {i : Nat} {task : Option (List A)}
    (h : tasks[i]? = some task) : i < tasks.length :=
  (List.getElem?_eq_some_iff.mp h).choose

/-! ### A worker goes on -/

section Working

variable {w : Fin (nworkers nthreads)}

theorem Working.sleep (h : pool.Working) (hw : pool.workers w = .ready)
    (hpos : pool.taskspos = pool.tasks.length) :
    ({ pool.broadcastEnd with endCount := pool.endCount + 1 }.setWorker w .waiting).Working where
  threads := h.threads
  pos_le := h.pos_le
  counted := by
    have hsum := sleeping_setWorker pool w .waiting
    rw [hw] at hsum
    show pool.endCount + 1 = ∑ v, ((pool.setWorker w .waiting).workers v).sleeping
    rw [h.counted]
    exact hsum.symm
  drained := fun _ _ => hpos
  proper := h.proper
  staying := fun v => update_cases (P := fun worker => worker ≠ .exited ∧ worker ≠ .running none)
    ⟨by simp, by simp⟩ (h.staying v)

theorem Working.take (h : pool.Working) (hw : pool.workers w = .ready) {task : List A}
    (htask : pool.tasks[pool.taskspos]? = some (some task)) :
    ({ pool with taskspos := pool.taskspos + 1 }.setWorker w (.running (some task))).Working where
  threads := h.threads
  pos_le := getElem?_lt htask
  counted := by
    have hsum := sleeping_setWorker pool w (.running (some task))
    rw [hw] at hsum
    exact h.counted.trans hsum.symm
  drained := by
    intro v hv
    have hlt := getElem?_lt htask
    have hwaiting : pool.workers v = .waiting := by
      by_cases hvw : v = w
      · rw [hvw, setWorker_workers, Function.update_self] at hv
        cases hv
      · rwa [setWorker_workers, Function.update_of_ne hvw] at hv
    exact absurd (h.drained v hwaiting) (Nat.ne_of_lt hlt)
  proper := h.proper
  staying := fun v => update_cases (P := fun worker => worker ≠ .exited ∧ worker ≠ .running none)
    ⟨by simp, by simp⟩ (h.staying v)

theorem Working.setWorker (h : pool.Working) (worker : PoolWorker A)
    (hw : (pool.workers w).sleeping = 0) (hsleeping : worker.sleeping = 0)
    (hstays : worker ≠ .exited ∧ worker ≠ .running none) :
    (pool.setWorker w worker).Working where
  threads := h.threads
  pos_le := h.pos_le
  counted := by
    have hsum := sleeping_setWorker pool w worker
    rw [hw, hsleeping] at hsum
    exact h.counted.trans hsum.symm
  drained := by
    intro v hv
    apply h.drained v
    by_cases hvw : v = w
    · rw [hvw, setWorker_workers, Function.update_self] at hv
      rw [hv] at hsleeping
      cases hsleeping
    · rwa [setWorker_workers, Function.update_of_ne hvw] at hv
  proper := h.proper
  staying := fun v => update_cases (P := fun worker => worker ≠ .exited ∧ worker ≠ .running none)
    hstays (h.staying v)

end Working

section Leaving

variable {w : Fin (nworkers nthreads)}

theorem Leaving.active_pos (_h : pool.Leaving) (hw : (pool.workers w).active = 1) :
    0 < ∑ v, (pool.workers v).active := by
  have hle : (pool.workers w).active ≤ ∑ v, (pool.workers v).active :=
    Finset.single_le_sum (f := fun v => (pool.workers v).active) (fun _ _ => Nat.zero_le _)
      (Finset.mem_univ w)
  omega

/-- While a worker is there that still takes a task, there is one to take. -/
theorem Leaving.not_drained (h : pool.Leaving) (hw : pool.workers w = .ready) :
    pool.taskspos ≠ pool.tasks.length := by
  intro hpos
  obtain ⟨tasks, hrest, -⟩ := h.exits
  have hactive := h.active_pos (w := w) (by rw [hw]; rfl)
  rw [hpos, List.drop_length] at hrest
  have hlength := congrArg List.length hrest
  simp only [List.length_nil, List.length_append, List.length_replicate] at hlength
  omega

theorem Leaving.take (h : pool.Leaving) (hw : pool.workers w = .ready)
    {task : Option (List A)} (htask : pool.tasks[pool.taskspos]? = some task) :
    ({ pool with taskspos := pool.taskspos + 1 }.setWorker w (.running task)).Leaving where
  threads := h.threads
  pos_le := getElem?_lt htask
  awake := fun v => update_cases (P := (· ≠ .waiting)) (by simp) (h.awake v)
  exits := by
    obtain ⟨tasks, hrest, hempty⟩ := h.exits
    have hactive := h.active_pos (w := w) (by rw [hw]; rfl)
    have hsum := active_setWorker pool w (.running task)
    rw [hw] at hsum
    rw [← List.getElem_cons_drop (getElem?_lt htask),
      (List.getElem?_eq_some_iff.mp htask).choose_spec] at hrest
    show ∃ tasks : List (List A), pool.tasks.drop (pool.taskspos + 1) = tasks.map some ++
      List.replicate (∑ v, ((pool.setWorker w (.running task)).workers v).active) none ∧ _
    cases tasks with
    | nil =>
        -- the task is an exit
        obtain ⟨count, hcount⟩ := Nat.exists_eq_succ_of_ne_zero (Nat.ne_of_gt hactive)
        rw [hcount, List.map_nil, List.nil_append, Nat.succ_eq_add_one,
          List.replicate_succ] at hrest
        obtain ⟨rfl, hdrop⟩ := List.cons.inj hrest
        have hafter : ∑ v, ((pool.setWorker w (.running none)).workers v).active = count := by
          have hless : (∑ v, ((pool.setWorker w (.running none)).workers v).active) + 1 =
              ∑ v, (pool.workers v).active := hsum
          omega
        exact ⟨[], by rw [hafter]; exact hdrop, fun _ => rfl⟩
    | cons first tasks =>
        rw [List.map_cons, List.cons_append] at hrest
        obtain ⟨rfl, hdrop⟩ := List.cons.inj hrest
        have hafter : ∑ v, ((pool.setWorker w (.running (some first))).workers v).active =
            ∑ v, (pool.workers v).active := by
          simpa only [PoolWorker.active, Nat.add_right_cancel_iff] using hsum
        refine ⟨tasks, by rw [hafter]; exact hdrop, fun hzero => ?_⟩
        exact absurd (hafter.symm.trans hzero) (Nat.ne_of_gt hactive)

theorem Leaving.setWorker (h : pool.Leaving) (worker : PoolWorker A)
    (hactive : (pool.workers w).active = worker.active) (hawake : worker ≠ .waiting) :
    (pool.setWorker w worker).Leaving where
  threads := h.threads
  pos_le := h.pos_le
  awake := fun v => update_cases (P := (· ≠ .waiting)) hawake (h.awake v)
  exits := by
    have hsum := active_setWorker pool w worker
    rw [hactive, Nat.add_right_cancel_iff] at hsum
    rw [hsum]
    exact h.exits

end Leaving

/-! ### The caller goes on -/

theorem Working.testEnd (h : pool.Working) : pool.testEnd.Consistent := by
  by_cases hlt : pool.endCount < nthreads
  · apply Working.consistent
    · exact { h with }
    · exact .inl ⟨if_pos hlt, hlt⟩
  · have hasleep : pool.Asleep := by
      apply asleep_of_le
      rw [← h.counted, nworkers_eq h.threads]
      exact Nat.not_lt.mp hlt
    have hcaller : pool.testEnd.caller = .resetting := if_neg hlt
    have hthreads := h.threads
    simp only [Consistent, hcaller]
    refine ⟨hthreads, hasleep, ?_⟩
    have hpos : 0 < nworkers nthreads := by
      rw [nworkers_eq hthreads]
      omega
    exact h.drained ⟨0, hpos⟩ (hasleep _)

theorem Asleep.broadcastStart (h : pool.Asleep) (w : Fin (nworkers nthreads)) :
    pool.broadcastStart.workers w = .ready := by
  simp only [WorkerPool.broadcastStart, h w]

/-- After the broadcast of `workerpool_run`. -/
theorem Calm.started (h : pool.Calm) (hthreads : 1 < nthreads) (hcount : pool.endCount = 0)
    (hproper : ∀ task ∈ pool.tasks, task ≠ none) : pool.broadcastStart.Working where
  threads := hthreads
  pos_le := le_of_eq_of_le h.start (Nat.zero_le _)
  counted := by
    have hzero : ∀ w, (pool.broadcastStart.workers w).sleeping = 0 := by
      intro w
      rw [h.asleep.broadcastStart w]
      rfl
    simp only [hzero, Finset.sum_const_zero]
    exact hcount
  drained := by
    intro w hw
    rw [h.asleep.broadcastStart w] at hw
    cases hw
  proper := hproper
  staying := by
    intro w
    rw [h.asleep.broadcastStart w]
    exact ⟨by simp, by simp⟩

/-- After the broadcast of `workerpool_destroy`. -/
theorem Calm.left (h : pool.Calm) (hthreads : 1 < nthreads) {tasks : List (List A)}
    (htasks : pool.tasks = tasks.map some ++ List.replicate nthreads none) :
    { pool.broadcastStart with caller := .joining }.Leaving where
  threads := hthreads
  pos_le := le_of_eq_of_le h.start (Nat.zero_le _)
  awake := by
    intro w hw
    have hready := h.asleep.broadcastStart w
    cases hready.symm.trans hw
  exits := by
    have hone : ∀ w, (pool.broadcastStart.workers w).active = 1 := by
      intro w
      rw [h.asleep.broadcastStart w]
      rfl
    have hactive : ∑ w, (pool.broadcastStart.workers w).active = nthreads := by
      simp [hone, nworkers_eq hthreads]
    refine ⟨tasks, ?_, fun hzero => ?_⟩
    · show pool.tasks.drop pool.taskspos = tasks.map some ++
        List.replicate (∑ w, (pool.broadcastStart.workers w).active) none
      rw [hactive, h.start, htasks]
      rfl
    · exact absurd (hactive.symm.trans hzero) (by omega)

theorem Leaving.joined (h : pool.Leaving) (hall : ∀ w, pool.workers w = .exited) :
    pool.tasks.drop pool.taskspos = [] := by
  obtain ⟨tasks, hrest, hempty⟩ := h.exits
  have hzero : ∑ w, (pool.workers w).active = 0 := by
    apply Finset.sum_eq_zero
    intro w _
    rw [hall w]
    rfl
  rw [hrest, hempty hzero, hzero]
  rfl

/-! ### Every step -/

theorem not_mem_none_snoc {tasks : List (Option (List A))} (h : ∀ task ∈ tasks, task ≠ none)
    (task : List A) : ∀ other ∈ tasks ++ [some task], other ≠ none := by
  intro other hmem
  rcases List.mem_append.mp hmem with hmem | hmem
  · exact h other hmem
  · rw [List.mem_singleton.mp hmem]
    exact Option.some_ne_none task

theorem eq_map_some {tasks : List (Option (List A))} (h : ∀ task ∈ tasks, task ≠ none) :
    ∃ given : List (List A), tasks = given.map some := by
  induction tasks with
  | nil => exact ⟨[], rfl⟩
  | cons task tasks ih =>
      obtain ⟨hfirst, hrest⟩ := List.forall_mem_cons.mp h
      obtain ⟨first, rfl⟩ := Option.ne_none_iff_exists'.mp hfirst
      obtain ⟨given, rfl⟩ := ih hrest
      exact ⟨first :: given, rfl⟩

/-- What the workers do keeps the pool consistent. -/
theorem Consistent.worker (h : pool.Consistent) {w : Fin (nworkers nthreads)}
    (heffect : Effect pool (.worker w) after outputs) : after.Consistent := by
  cases heffect with
  | sleep _ hw hpos =>
      rcases h.of_awake (w := w) (by rw [hw]; simp) (by rw [hw]; simp) with
        ⟨hworking, hcaller⟩ | ⟨-, hleaving⟩
      · apply (hworking.sleep hw hpos).consistent
        apply Or.inr
        rcases hcaller with ⟨hcaller, -⟩ | hcaller
        · simp only [setWorker_caller, broadcastEnd, hcaller]
        · simp only [setWorker_caller, broadcastEnd, hcaller]
      · exact absurd hpos (hleaving.not_drained hw)
  | take _ task hw htask =>
      rcases h.of_awake (w := w) (by rw [hw]; simp) (by rw [hw]; simp) with
        ⟨hworking, hcaller⟩ | ⟨hcaller, hleaving⟩
      · obtain ⟨task, rfl⟩ := Option.ne_none_iff_exists'.mp
          (hworking.proper task (List.mem_of_getElem? htask))
        exact (hworking.take hw htask).consistent hcaller
      · exact (hleaving.take hw htask).consistent hcaller
  | exit _ hw =>
      rcases h.of_awake (w := w) (by rw [hw]; simp) (by rw [hw]; simp) with
        ⟨hworking, -⟩ | ⟨hcaller, hleaving⟩
      · exact absurd hw (hworking.staying w).2
      · exact (hleaving.setWorker .exited (by rw [hw]; rfl) (by simp)).consistent hcaller
  | finish _ hw =>
      rcases h.of_awake (w := w) (by rw [hw]; simp) (by rw [hw]; simp) with
        ⟨hworking, hcaller⟩ | ⟨hcaller, hleaving⟩
      · have hset := hworking.setWorker .ready (by rw [hw]; rfl) rfl ⟨by simp, by simp⟩
        exact hset.consistent hcaller
      · exact (hleaving.setWorker .ready (by rw [hw]; rfl) (by simp)).consistent hcaller
  | act _ action rest hw =>
      rcases h.of_awake (w := w) (by rw [hw]; simp) (by rw [hw]; simp) with
        ⟨hworking, hcaller⟩ | ⟨hcaller, hleaving⟩
      · have hnext := hworking.setWorker (.running (some rest)) (by rw [hw]; rfl) rfl
          ⟨by simp, by simp⟩
        exact hnext.consistent hcaller
      · have hnext := hleaving.setWorker (.running (some rest)) (by rw [hw]; rfl) (by simp)
        exact hnext.consistent hcaller

/-- What the caller does keeps the pool consistent. -/
theorem Consistent.caller (h : pool.Consistent) (heffect : Effect pool .caller after outputs) :
    after.Consistent := by
  cases heffect with
  | start hcaller =>
      simp only [Consistent, hcaller] at h
      obtain ⟨hthreads, hcalm, hcount, hproper⟩ := h
      exact (hcalm.started hthreads hcount hproper).testEnd
  | test hcaller =>
      simp only [Consistent, hcaller] at h
      exact h.testEnd
  | reset hcaller =>
      simp only [Consistent, hcaller] at h
      exact ⟨h.1, h.2.1, rfl⟩
  | clear hcaller =>
      simp only [Consistent, hcaller] at h
      exact ⟨⟨h.2.asleep, h.2.start⟩, fun _ hmem => absurd hmem List.not_mem_nil⟩
  | stop hcaller =>
      simp only [Consistent, hcaller] at h
      obtain ⟨hthreads, hcalm, tasks, htasks⟩ := h
      exact (hcalm.left hthreads htasks).consistent rfl
  | join hcaller hall =>
      simp only [Consistent, hcaller] at h
      exact fun _ => ⟨hall, h.joined hall⟩

theorem Consistent.step (h : pool.Consistent) (hallowed : Allowed False event)
    (heffect : Effect pool event after outputs) : after.Consistent := by
  cases event with
  | worker w => exact h.worker heffect
  | caller => exact h.caller heffect
  | wakeup w => exact absurd hallowed not_false
  | addTask task =>
      cases heffect with
      | addTask _ hcaller =>
          simp only [Consistent, hcaller] at h ⊢
          exact ⟨⟨h.1.asleep, h.1.start⟩, not_mem_none_snoc h.2 task⟩
  | run =>
      cases heffect with
      | runThreads hcaller hthreads =>
          simp only [Consistent, hcaller] at h
          exact ⟨hthreads, ⟨h.1.asleep, h.1.start⟩, rfl, h.2⟩
      | runSingle actions hcaller hthreads hrun =>
          simp only [Consistent, hcaller] at h ⊢
          exact ⟨⟨h.1.asleep, h.1.start⟩, fun _ hmem => absurd hmem List.not_mem_nil⟩
  | destroy =>
      cases heffect with
      | destroyThreads hcaller hthreads =>
          simp only [Consistent, hcaller] at h
          obtain ⟨tasks, htasks⟩ := eq_map_some h.2
          exact ⟨hthreads, ⟨h.1.asleep, h.1.start⟩, tasks, by rw [htasks]⟩
      | destroySingle hcaller hthreads => exact fun h => absurd h hthreads

/-! ## 2. Nothing is lost and nothing is done twice -/

theorem remaining_eq (h : pool.caller ≠ .clearing) :
    pool.remaining = pool.tasks.drop pool.taskspos :=
  if_neg h

theorem Consistent.not_clearing (h : pool.Consistent) {w : Fin (nworkers nthreads)}
    (hwaiting : pool.workers w ≠ .waiting) : pool.caller ≠ .clearing := by
  intro hcaller
  simp only [Consistent, hcaller] at h
  exact hwaiting (h.2.asleep w)

theorem broadcastEnd_clearing_iff (pool : WorkerPool A nthreads) :
    pool.broadcastEnd.caller = .clearing ↔ pool.caller = .clearing := by
  unfold broadcastEnd
  split
  · next hcaller => simp [hcaller]
  · exact Iff.rfl

theorem testEnd_not_clearing (pool : WorkerPool A nthreads) : pool.testEnd.caller ≠ .clearing := by
  unfold testEnd
  split
  · simp
  · simp

theorem remaining_sleep (h : pool.caller ≠ .clearing) (w : Fin (nworkers nthreads)) :
    remaining ({ pool.broadcastEnd with endCount := pool.endCount + 1 }.setWorker w .waiting) =
      pool.remaining := by
  rw [remaining_eq h]
  exact remaining_eq ((broadcastEnd_clearing_iff pool).not.mpr h)

theorem remaining_take (h : pool.caller ≠ .clearing) (w : Fin (nworkers nthreads))
    {task : Option (List A)} (htask : pool.tasks[pool.taskspos]? = some task) :
    pool.remaining = task ::
      remaining ({ pool with taskspos := pool.taskspos + 1 }.setWorker w (.running task)) := by
  rw [remaining_eq h, ← List.getElem_cons_drop (getElem?_lt htask),
    (List.getElem?_eq_some_iff.mp htask).choose_spec]
  refine congrArg (task :: ·) (Eq.symm ?_)
  exact @remaining_eq _ _ ({ pool with taskspos := pool.taskspos + 1 }.setWorker w
    (.running task)) h

theorem balance_worker (h : pool.Consistent) {w : Fin (nworkers nthreads)}
    (heffect : Effect pool (.worker w) after outputs) :
    (outputs : Multiset A) + after.balance = pool.balance := by
  cases heffect with
  | sleep _ hw hpos =>
      have hnot := h.not_clearing (w := w) (by rw [hw]; simp)
      have hhand : (pool.setWorker w .waiting).inHand = pool.inHand :=
        inHand_setWorker_of_eq (by rw [hw]; rfl)
      rw [balance, remaining_sleep hnot w, Multiset.coe_nil, zero_add]
      exact congrArg (· + actionsOf pool.remaining) hhand
  | take _ task hw htask =>
      have hnot := h.not_clearing (w := w) (by rw [hw]; simp)
      have htaken : inHand ({ pool with taskspos := pool.taskspos + 1 }.setWorker w
          (.running task)) = pool.inHand + (PoolWorker.running task).inHand :=
        @inHand_setWorker_of_zero _ _ pool w (.running task) (by rw [hw]; rfl)
      rw [balance, balance, remaining_take hnot w htask, htaken, Multiset.coe_nil, zero_add]
      cases task with
      | none => rw [actionsOf_none, PoolWorker.inHand, add_zero]; simp
      | some task => rw [actionsOf_some, ← add_assoc, PoolWorker.inHand]
  | exit _ hw =>
      have hhand : (pool.setWorker w .exited).inHand = pool.inHand :=
        inHand_setWorker_of_eq (by rw [hw]; rfl)
      rw [Multiset.coe_nil, zero_add]
      exact congrArg (· + actionsOf pool.remaining) hhand
  | finish _ hw =>
      have hhand : (pool.setWorker w .ready).inHand = pool.inHand :=
        inHand_setWorker_of_eq (by rw [hw]; rfl)
      rw [Multiset.coe_nil, zero_add]
      exact congrArg (· + actionsOf pool.remaining) hhand
  | act _ action rest hw =>
      have hhand := inHand_setWorker pool w (.running (some rest))
      rw [hw] at hhand
      have hsplit : (PoolWorker.running (some (action :: rest))).inHand =
          ([action] : Multiset A) + (PoolWorker.running (some rest)).inHand := by
        rw [PoolWorker.inHand, ← Multiset.cons_coe, ← Multiset.singleton_add]
        rfl
      rw [hsplit, ← add_assoc] at hhand
      have hdone := add_right_cancel hhand
      rw [add_comm] at hdone
      rw [balance, ← add_assoc, hdone]
      rfl

theorem balance_caller (h : pool.Consistent) (heffect : Effect pool .caller after outputs) :
    (outputs : Multiset A) + after.balance = pool.balance := by
  cases heffect with
  | start hcaller =>
      rw [Multiset.coe_nil, zero_add, balance, balance, remaining_eq (testEnd_not_clearing _),
        remaining_eq (by rw [hcaller]; decide)]
      exact congrArg (· + _) (inHand_broadcastStart pool)
  | test hcaller =>
      rw [Multiset.coe_nil, zero_add, balance, balance, remaining_eq (testEnd_not_clearing _),
        remaining_eq (by rw [hcaller]; decide)]
      rfl
  | reset hcaller =>
      have hremaining : pool.remaining = [] := by
        simp only [Consistent, hcaller] at h
        rw [remaining_eq (by rw [hcaller]; decide), h.2.2, List.drop_length]
      rw [Multiset.coe_nil, zero_add, balance, balance, hremaining]
      rfl
  | clear hcaller =>
      have hremaining : pool.remaining = [] := if_pos hcaller
      rw [Multiset.coe_nil, zero_add, balance, balance, hremaining,
        remaining_eq (show Caller.outside ≠ .clearing by decide), List.drop_nil]
      rfl
  | stop hcaller =>
      rw [Multiset.coe_nil, zero_add, balance, balance,
        remaining_eq (show Caller.joining ≠ .clearing by decide),
        remaining_eq (by rw [hcaller]; decide)]
      exact congrArg (· + _) (inHand_broadcastStart pool)
  | join hcaller hall =>
      rw [Multiset.coe_nil, zero_add, balance, balance,
        remaining_eq (show Caller.destroyed ≠ .clearing by decide),
        remaining_eq (by rw [hcaller]; decide)]
      rfl

theorem balance_step (h : pool.Consistent) (hallowed : Allowed False event)
    (heffect : Effect pool event after outputs) :
    (outputs : Multiset A) + after.balance = pool.balance + (event.added.flatten : List A) := by
  cases event with
  | worker w => simpa [PoolEvent.added] using balance_worker h heffect
  | caller => simpa [PoolEvent.added] using balance_caller h heffect
  | wakeup w => exact absurd hallowed not_false
  | addTask task =>
      cases heffect with
      | addTask _ hcaller =>
          have hnot : pool.caller ≠ .clearing := by
            rw [hcaller]
            decide
          simp only [Consistent, hcaller] at h
          have hremaining : remaining { pool with tasks := pool.tasks ++ [some task] } =
              pool.remaining ++ [some task] := by
            rw [remaining_eq hnot]
            have hnext : { pool with tasks := pool.tasks ++ [some task] }.caller ≠ .clearing := hnot
            refine (remaining_eq hnext).trans ?_
            show (pool.tasks ++ [some task]).drop pool.taskspos = _
            rw [h.1.start]
            rfl
          rw [balance, hremaining, actionsOf_append, actionsOf_some, Multiset.coe_nil, zero_add,
            ← add_assoc]
          simp [PoolEvent.added, balance, inHand, actionsOf]
  | run =>
      cases heffect with
      | runThreads hcaller hthreads =>
          have hnot : pool.caller ≠ .clearing := by
            rw [hcaller]
            decide
          have hremaining : remaining { pool with endCount := 0, caller := .starting } =
              pool.remaining := by
            rw [remaining_eq hnot]
            exact remaining_eq (show Caller.starting ≠ .clearing by decide)
          rw [balance, hremaining]
          simp [PoolEvent.added, balance, inHand]
      | runSingle actions hcaller hthreads hrun =>
          have hnot : pool.caller ≠ .clearing := by
            rw [hcaller]
            decide
          simp only [Consistent, hcaller] at h
          have hafter : remaining { pool with tasks := [] } = [] := by
            refine (@remaining_eq _ _ { pool with tasks := [] } hnot).trans ?_
            exact List.drop_nil
          rw [balance, hafter, workerpoolRunSingle_spec hrun, balance, remaining_eq hnot,
            h.1.start]
          simp [PoolEvent.added, inHand, actionsOf, add_comm]
  | destroy =>
      cases heffect with
      | destroyThreads hcaller hthreads =>
          have hnot : pool.caller ≠ .clearing := by
            rw [hcaller]
            decide
          simp only [Consistent, hcaller] at h
          have hremaining : remaining { pool with
              tasks := pool.tasks ++ List.replicate nthreads none, caller := .stopping } =
              pool.remaining ++ List.replicate nthreads none := by
            rw [remaining_eq hnot]
            refine (remaining_eq (show Caller.stopping ≠ .clearing by decide)).trans ?_
            show (pool.tasks ++ List.replicate nthreads none).drop pool.taskspos = _
            rw [h.1.start]
            rfl
          rw [balance, hremaining, actionsOf_append, actionsOf_replicate_none]
          simp [PoolEvent.added, balance, inHand]
      | destroySingle hcaller hthreads =>
          have hnot : pool.caller ≠ .clearing := by
            rw [hcaller]
            decide
          have hremaining : remaining { pool with caller := .destroyed } = pool.remaining := by
            rw [remaining_eq hnot]
            exact remaining_eq (show Caller.destroyed ≠ .clearing by decide)
          rw [balance, hremaining]
          simp [PoolEvent.added, balance, inHand]

/-! ### Whole runs -/

/-- A pool whose workers have gone to sleep. -/
def Fresh (pool : WorkerPool A nthreads) : Prop :=
  pool.caller = .outside ∧ pool.tasks = [] ∧ pool.Calm

/-- What the threads have done, in the order in which they did it. -/
def executed (history : List (Entry (WorkerPool A nthreads) (PoolEvent A nthreads) A)) : List A :=
  history.flatMap Entry.outputs

def added (history : List (Entry (WorkerPool A nthreads) (PoolEvent A nthreads) A)) :
    List (List A) :=
  history.flatMap fun entry => entry.event.added

theorem executed_append
    (history more : List (Entry (WorkerPool A nthreads) (PoolEvent A nthreads) A)) :
    executed (history ++ more) = executed history ++ executed more :=
  List.flatMap_append

theorem added_append
    (history more : List (Entry (WorkerPool A nthreads) (PoolEvent A nthreads) A)) :
    added (history ++ more) = added history ++ added more :=
  List.flatMap_append

theorem executed_singleton (entry : Entry (WorkerPool A nthreads) (PoolEvent A nthreads) A) :
    executed [entry] = entry.outputs :=
  List.flatMap_singleton ..

theorem added_singleton (entry : Entry (WorkerPool A nthreads) (PoolEvent A nthreads) A) :
    added [entry] = entry.event.added :=
  List.flatMap_singleton ..

theorem consistent_of_run {history : List (Entry (WorkerPool A nthreads) _ A)}
    (hrun : Run (system False Fresh) history pool) : pool.Consistent ∧
      (executed history : Multiset A) + pool.balance = ((added history).flatten : List A) := by
  refine hrun.induction (fun history pool => pool.Consistent ∧ (executed history : Multiset A) +
    pool.balance = ((added history).flatten : List A)) ?_ ?_
  · rintro pool ⟨hcaller, htasks, hcalm⟩
    constructor
    · simp only [Consistent, hcaller]
      exact ⟨hcalm, fun _ hmem => by simp [htasks] at hmem⟩
    · have hhand : pool.inHand = 0 := by
        apply Finset.sum_eq_zero
        intro w _
        rw [hcalm.asleep w]
        rfl
      have hremaining : pool.remaining = [] := by
        rw [remaining_eq (by rw [hcaller]; decide), htasks, List.drop_nil]
      rw [balance, hhand, hremaining]
      rfl
  · rintro history before event after outputs - ⟨hconsistent, hbalance⟩ ⟨hallowed, hstep⟩
    have heffect := step_effect hstep
    refine ⟨hconsistent.step hallowed heffect, ?_⟩
    have hnext := balance_step hconsistent hallowed heffect
    rw [executed_append, added_append, executed_singleton, added_singleton, List.flatten_append,
      ← Multiset.coe_add, ← Multiset.coe_add, add_assoc, hnext, ← add_assoc]
    exact congrArg (· + _) hbalance

theorem workerpoolRunSingle_ok {tasks : List (Option (List A))}
    (h : ∀ task ∈ tasks, task ≠ none) : ∃ actions, workerpoolRunSingle tasks = .ok actions := by
  induction tasks with
  | nil => exact ⟨[], rfl⟩
  | cons task tasks ih =>
      obtain ⟨hfirst, hrest⟩ := List.forall_mem_cons.mp h
      obtain ⟨first, rfl⟩ := Option.ne_none_iff_exists'.mp hfirst
      obtain ⟨actions, hactions⟩ := ih hrest
      exact ⟨first ++ actions, by rw [workerpoolRunSingle, hactions]; rfl⟩

/-- Who takes a task finds one. -/
theorem Consistent.pos_le (h : pool.Consistent) {w : Fin (nworkers nthreads)}
    (hw : pool.workers w = .ready) : pool.taskspos ≤ pool.tasks.length := by
  rcases h.of_awake (w := w) (by rw [hw]; simp) (by rw [hw]; simp) with
    ⟨hworking, -⟩ | ⟨-, hleaving⟩
  · exact hworking.pos_le
  · exact hleaving.pos_le

theorem Consistent.fault (h : pool.Consistent) {fault : PoolFault}
    (hstep : pool.step event = .error fault) : fault = .blocked := by
  cases event with
  | addTask task =>
      simp only [WorkerPool.step] at hstep
      split at hstep
      · cases hstep
      · cases hstep
        rfl
  | run =>
      simp only [WorkerPool.step] at hstep
      split at hstep
      · next hcaller =>
        simp only [Consistent, hcaller] at h
        obtain ⟨actions, hactions⟩ := workerpoolRunSingle_ok h.2
        rw [workerpoolRun, hactions] at hstep
        split at hstep
        · cases hstep
        · cases hstep
      · cases hstep
        rfl
  | destroy =>
      simp only [WorkerPool.step] at hstep
      split at hstep
      · cases hstep
      · cases hstep
        rfl
  | caller =>
      simp only [WorkerPool.step, callerNext] at hstep
      split at hstep
      · cases hstep
      · cases hstep
      · cases hstep
      · cases hstep
      · cases hstep
      · split at hstep
        · cases hstep
        · cases hstep
          rfl
      · cases hstep
        rfl
      · cases hstep
        rfl
      · cases hstep
        rfl
  | worker w =>
      simp only [WorkerPool.step, workerThread] at hstep
      split at hstep
      · next hw =>
        split at hstep
        · cases hstep
        · next hpos =>
          have hlt := Nat.lt_of_le_of_ne (h.pos_le hw) hpos
          rw [List.getElem?_eq_getElem hlt] at hstep
          cases hstep
      · cases hstep
      · cases hstep
      · cases hstep
      · cases hstep
        rfl
      · cases hstep
        rfl
  | wakeup w =>
      simp only [WorkerPool.step] at hstep
      split at hstep
      · cases hstep
      · cases hstep
        rfl

/-- What a pool has made of what it was given. -/
structure Served (history : List (Entry (WorkerPool A nthreads) (PoolEvent A nthreads) A))
    (pool : WorkerPool A nthreads) : Prop where
  /-- Every action that was added is done, in the hand of a worker or not taken yet, and only
      one of these. -/
  once : (executed history : Multiset A) + pool.inHand + actionsOf pool.remaining =
    ((added history).flatten : List A)
  /-- Between the calls the workers sleep, and what is not done is in the array. -/
  outside : pool.caller = .outside → pool.Asleep ∧
    (executed history ++ pool.tasks.reduceOption.flatten).Perm (added history).flatten
  /-- No access is out of the array and `NULL` is not called. -/
  safe : ∀ event fault, pool.step event = .error fault → fault = .blocked

theorem outside_of_run {history : List (Entry (WorkerPool A nthreads) _ A)}
    (hrun : Run (system False Fresh) history pool) (hcaller : pool.caller = .outside) :
    pool.Asleep ∧
      (executed history ++ pool.tasks.reduceOption.flatten).Perm (added history).flatten := by
  obtain ⟨hconsistent, hbalance⟩ := consistent_of_run hrun
  have hnot : pool.caller ≠ .clearing := by
    rw [hcaller]
    decide
  simp only [Consistent, hcaller] at hconsistent
  obtain ⟨hcalm, -⟩ := hconsistent
  have hhand : pool.inHand = 0 := by
    apply Finset.sum_eq_zero
    intro w _
    rw [hcalm.asleep w]
    rfl
  refine ⟨hcalm.asleep, Multiset.coe_eq_coe.mp ?_⟩
  rw [balance, hhand, zero_add, remaining_eq hnot, hcalm.start] at hbalance
  exact hbalance

/-- **The pool does every task once**, however the threads interleave: at any time every
    action of every task is done, in hand or still to be taken. -/
theorem served_of_run {history : List (Entry (WorkerPool A nthreads) _ A)}
    (hrun : Run (system False Fresh) history pool) : Served history pool := by
  obtain ⟨hconsistent, hbalance⟩ := consistent_of_run hrun
  refine ⟨?_, outside_of_run hrun, fun event fault => hconsistent.fault⟩
  rw [add_assoc]
  exact hbalance

/-- When each thread of `workerpool_create` has found no task. -/
def asleep (nthreads : Nat) : WorkerPool A nthreads :=
  ⟨[], 0, nworkers nthreads, fun _ => .waiting, .outside⟩

theorem fresh_asleep : Fresh (asleep nthreads : WorkerPool A nthreads) :=
  ⟨rfl, rfl, fun _ => rfl, rfl⟩

def worker0 : PoolEvent Nat 2 := .worker ⟨0, by decide⟩

def worker1 : PoolEvent Nat 2 := .worker ⟨1, by decide⟩

/-- Two tasks, each taken by another worker, up to the return of `workerpool_run`. -/
def twoTasks : List (PoolEvent Nat 2) :=
  [.addTask [1, 2], .addTask [3], .run, .caller, worker0, worker1, worker0, worker1, worker0,
    worker1, worker1, worker0, worker0, .caller, .caller, .caller]

theorem allowed_twoTasks : ∀ event ∈ twoTasks, Allowed False event := by
  simp [twoTasks, worker0, worker1, Allowed]

theorem served_of_run_twoTasks : ∃ (history : List (Entry (WorkerPool Nat 2) _ Nat))
    (pool : WorkerPool Nat 2), Run (system False Fresh) history pool ∧
      pool.caller = .outside ∧ executed history = [1, 3, 2] ∧ Served history pool := by
  obtain ⟨history, pool, hrun, hview⟩ := exists_run_of_replay step twoTasks
    (fun history pool => (pool.caller, executed history)) (.outside, [1, 3, 2]) fresh_asleep
    allowed_twoTasks (by decide +kernel)
  obtain ⟨hcaller, hexecuted⟩ := Prod.mk.inj hview
  exact ⟨history, pool, hrun, hcaller, hexecuted, served_of_run hrun⟩

end WorkerPool

end Lame
