/-
  Lame/PoolReturns.lean
  =====================
  **Every call of the pool returns.**

  While the caller waits, some worker has not counted itself and can go on; and every step of
  a worker or of the caller lowers `rank`.  So whichever threads go next, `workerpool_run` and
  `workerpool_destroy` come to their end.
-/
import Lame.PoolRounds

namespace Lame

open LabelledRuns

namespace WorkerPool

variable {A : Type} {nthreads : Nat} {pool after : WorkerPool A nthreads}
  {event : PoolEvent A nthreads} {outputs : List A}

/-! ## 1. What falls at every step -/

/-- How many steps a worker can make before it takes the next task, and a bit more. -/
def workerWeight : PoolWorker A → Nat
  | .ready => 2
  | .running none => 1
  | .running (some rest) => 3 + rest.length
  | .waiting | .exited => 0

def taskWeight : Option (List A) → Nat
  | none => 0
  | some task => 2 + task.length

def callerWeight (nthreads : Nat) : Caller → Nat
  | .starting => 2 * nworkers nthreads + 4
  | .woken => 4
  | .waiting => 3
  | .resetting => 2
  | .stopping => 2 * nworkers nthreads + 2
  | .clearing | .joining => 1
  | .outside | .destroyed => 0

def weight (pool : WorkerPool A nthreads) : Nat := ∑ w, workerWeight (pool.workers w)

def rank (pool : WorkerPool A nthreads) : Nat :=
  callerWeight nthreads pool.caller + pool.weight + (pool.remaining.map taskWeight).sum

theorem weight_setWorker (pool : WorkerPool A nthreads) (w : Fin (nworkers nthreads))
    (worker : PoolWorker A) :
    (pool.setWorker w worker).weight + workerWeight (pool.workers w) =
      pool.weight + workerWeight worker :=
  sum_update workerWeight pool.workers w worker

theorem weight_of_asleep (h : pool.Asleep) : pool.weight = 0 := by
  apply Finset.sum_eq_zero
  intro w _
  rw [h w]
  rfl

theorem weight_broadcastStart (h : pool.Asleep) :
    pool.broadcastStart.weight = 2 * nworkers nthreads := by
  have htwo : ∀ w, workerWeight (pool.broadcastStart.workers w) = 2 := by
    intro w
    rw [h.broadcastStart w]
    rfl
  simp [weight, htwo, Nat.mul_comm]

theorem callerWeight_testEnd (pool : WorkerPool A nthreads) :
    callerWeight nthreads pool.testEnd.caller ≤ 3 := by
  unfold testEnd
  split
  · exact le_refl 3
  · exact Nat.le_succ 2

theorem callerWeight_broadcastEnd (pool : WorkerPool A nthreads) :
    callerWeight nthreads pool.broadcastEnd.caller ≤ callerWeight nthreads pool.caller + 1 := by
  unfold broadcastEnd
  split
  · next hcaller =>
    rw [hcaller]
    exact le_refl 4
  · exact Nat.le_succ _

theorem remaining_testEnd (h : pool.caller ≠ .clearing) :
    pool.testEnd.remaining = pool.remaining := by
  rw [remaining_eq h]
  exact remaining_eq (testEnd_not_clearing pool)

theorem rank_worker (h : pool.Consistent) {w : Fin (nworkers nthreads)}
    (heffect : Effect pool (.worker w) after outputs) : after.rank < pool.rank := by
  cases heffect with
  | sleep _ hw hpos =>
      have hnot := h.not_clearing (w := w) (by rw [hw]; simp)
      have hweight := weight_setWorker pool w .waiting
      have hcaller := callerWeight_broadcastEnd pool
      rw [hw] at hweight
      rw [rank, rank, remaining_sleep hnot w]
      show callerWeight nthreads pool.broadcastEnd.caller + (pool.setWorker w .waiting).weight +
        _ < _
      simp only [workerWeight] at hweight
      omega
  | take _ task hw htask =>
      have hnot := h.not_clearing (w := w) (by rw [hw]; simp)
      have hweight := weight_setWorker pool w (.running task)
      rw [hw] at hweight
      rw [rank, rank, remaining_take hnot w htask, List.map_cons, List.sum_cons]
      show callerWeight nthreads pool.caller + (pool.setWorker w (.running task)).weight + _ < _
      cases task with
      | none =>
          simp only [workerWeight, taskWeight] at hweight ⊢
          omega
      | some task =>
          simp only [workerWeight, taskWeight] at hweight ⊢
          omega
  | exit _ hw =>
      have hweight := weight_setWorker pool w .exited
      rw [hw] at hweight
      simp only [workerWeight] at hweight
      show callerWeight nthreads pool.caller + (pool.setWorker w .exited).weight +
        (pool.remaining.map taskWeight).sum < pool.rank
      rw [rank]
      omega
  | finish _ hw =>
      have hweight := weight_setWorker pool w .ready
      rw [hw] at hweight
      simp only [workerWeight, List.length_nil] at hweight
      show callerWeight nthreads pool.caller + (pool.setWorker w .ready).weight +
        (pool.remaining.map taskWeight).sum < pool.rank
      rw [rank]
      omega
  | act _ action rest hw =>
      have hweight := weight_setWorker pool w (.running (some rest))
      rw [hw] at hweight
      simp only [workerWeight, List.length_cons] at hweight
      show callerWeight nthreads pool.caller + (pool.setWorker w (.running (some rest))).weight +
        (pool.remaining.map taskWeight).sum < pool.rank
      rw [rank]
      omega

theorem rank_caller (h : pool.Consistent) (heffect : Effect pool .caller after outputs) :
    after.rank < pool.rank := by
  cases heffect with
  | start hcaller =>
      have hnot : pool.broadcastStart.caller ≠ .clearing := by
        show pool.caller ≠ .clearing
        rw [hcaller]
        decide
      have hafter := callerWeight_testEnd pool.broadcastStart
      simp only [Consistent, hcaller] at h
      have hweight := weight_broadcastStart h.2.1.asleep
      have hzero := weight_of_asleep h.2.1.asleep
      rw [rank, remaining_testEnd hnot, rank, hcaller, hzero]
      show callerWeight nthreads pool.broadcastStart.testEnd.caller +
        pool.broadcastStart.weight + (pool.remaining.map taskWeight).sum <
        2 * nworkers nthreads + 4 + 0 + _
      omega
  | test hcaller =>
      have hafter := callerWeight_testEnd pool
      rw [rank, remaining_testEnd (by rw [hcaller]; decide), rank, hcaller]
      show callerWeight nthreads pool.testEnd.caller + pool.weight + _ < 4 + pool.weight + _
      omega
  | reset hcaller =>
      rw [rank, rank, hcaller]
      show 1 + pool.weight + 0 < 2 + pool.weight + _
      omega
  | clear hcaller =>
      rw [rank, rank, hcaller]
      show 0 + pool.weight + ((List.drop pool.taskspos []).map taskWeight).sum <
        1 + pool.weight + _
      rw [List.drop_nil, List.map_nil, List.sum_nil]
      omega
  | stop hcaller =>
      simp only [Consistent, hcaller] at h
      have hweight := weight_broadcastStart h.2.1.asleep
      have hzero := weight_of_asleep h.2.1.asleep
      have hremaining : pool.remaining = pool.tasks.drop pool.taskspos :=
        remaining_eq (by rw [hcaller]; decide)
      rw [rank, rank, hcaller, hzero, hremaining]
      show 1 + pool.broadcastStart.weight + ((pool.tasks.drop pool.taskspos).map taskWeight).sum <
        2 * nworkers nthreads + 2 + 0 + _
      omega
  | join hcaller hall =>
      have hremaining : pool.remaining = pool.tasks.drop pool.taskspos :=
        remaining_eq (by rw [hcaller]; decide)
      rw [rank, rank, hcaller, hremaining]
      show 0 + pool.weight + ((pool.tasks.drop pool.taskspos).map taskWeight).sum <
        1 + pool.weight + _
      omega

/-! ## 2. Some thread can go on -/

/-- A worker that neither sleeps nor has left can go on. -/
theorem Consistent.worker_goes (h : pool.Consistent) {w : Fin (nworkers nthreads)}
    (hwaiting : pool.workers w ≠ .waiting) (hexited : pool.workers w ≠ .exited) :
    ∃ after outputs, pool.step (.worker w) = .ok (after, outputs) := by
  cases hstep : pool.step (.worker w) with
  | ok result => exact ⟨result.1, result.2, rfl⟩
  | error fault =>
      obtain rfl := h.fault hstep
      simp only [WorkerPool.step, workerThread] at hstep
      split at hstep
      · split at hstep
        · cases hstep
        · split at hstep
          · cases hstep
          · cases hstep
      · cases hstep
      · cases hstep
      · cases hstep
      · next hw => exact absurd hw hwaiting
      · next hw => exact absurd hw hexited

/-- Some thread can go on until the call returns. -/
theorem Consistent.progress (h : pool.Consistent) (houtside : pool.caller ≠ .outside)
    (hdestroyed : pool.caller ≠ .destroyed) : ∃ event after outputs,
      Allowed False event ∧ pool.step event = .ok (after, outputs) := by
  have hcan : (∃ after outputs, pool.callerNext = .ok (after, outputs)) ∨
      ∃ w, pool.workers w ≠ .waiting ∧ pool.workers w ≠ .exited := by
    cases hcaller : pool.caller with
    | outside => exact absurd hcaller houtside
    | destroyed => exact absurd hcaller hdestroyed
    | starting | woken | resetting | clearing | stopping =>
        apply Or.inl
        simp only [callerNext, hcaller]
        exact ⟨_, _, rfl⟩
    | waiting =>
        -- not all of them can have counted themselves
        simp only [Consistent, hcaller] at h
        obtain ⟨hworking, hlt⟩ := h
        apply Or.inr
        by_contra hcontra
        push Not at hcontra
        have hasleep : pool.Asleep := by
          intro w
          by_contra hw
          exact (hworking.staying w).1 (hcontra w hw)
        rw [hworking.counted, sum_sleeping_of_asleep hasleep,
          nworkers_eq hworking.threads] at hlt
        exact absurd hlt (lt_irrefl _)
    | joining =>
        simp only [Consistent, hcaller] at h
        by_cases hall : ∀ w, pool.workers w = .exited
        · apply Or.inl
          simp only [callerNext, hcaller, hall]
          exact ⟨_, _, if_pos fun _ => trivial⟩
        · obtain ⟨w, hw⟩ := not_forall.mp hall
          exact .inr ⟨w, h.awake w, hw⟩
  rcases hcan with ⟨after, outputs, hnext⟩ | ⟨w, hwaiting, hexited⟩
  · exact ⟨.caller, after, outputs, trivial, hnext⟩
  · obtain ⟨after, outputs, hnext⟩ := h.worker_goes hwaiting hexited
    exact ⟨.worker w, after, outputs, trivial, hnext⟩

/-- Within a call only the threads of the pool and the caller go on. -/
theorem Effect.within (heffect : Effect pool event after outputs)
    (houtside : pool.caller ≠ .outside) (hallowed : Allowed False event) :
    event = .caller ∨ ∃ w, event = .worker w := by
  cases heffect with
  | addTask _ hcaller => exact absurd hcaller houtside
  | runThreads hcaller => exact absurd hcaller houtside
  | runSingle _ hcaller => exact absurd hcaller houtside
  | destroyThreads hcaller => exact absurd hcaller houtside
  | destroySingle hcaller => exact absurd hcaller houtside
  | start | test | reset | clear | stop | join => exact .inl rfl
  | sleep w | take w | exit w | finish w | act w => exact .inr ⟨w, rfl⟩
  | wakeup => exact absurd hallowed not_false

theorem Effect.returnsTo (heffect : Effect pool event after outputs)
    (houtside : pool.caller ≠ .outside) : after.caller.returnsTo = pool.caller.returnsTo := by
  cases heffect with
  | addTask _ hcaller => exact absurd hcaller houtside
  | runThreads hcaller => exact absurd hcaller houtside
  | runSingle _ hcaller => exact absurd hcaller houtside
  | destroyThreads hcaller => exact absurd hcaller houtside
  | destroySingle hcaller => exact absurd hcaller houtside
  | start hcaller | test hcaller =>
      rw [hcaller]
      unfold testEnd
      split
      · rfl
      · rfl
  | reset hcaller | clear hcaller | stop hcaller | join hcaller =>
      rw [hcaller]
      rfl
  | sleep w =>
      show pool.broadcastEnd.caller.returnsTo = _
      unfold broadcastEnd
      split
      · next hcaller =>
        rw [hcaller]
        rfl
      · rfl
  | take | exit | finish | act | wakeup => rfl

/-- `workerpool_run` leaves no task behind. -/
theorem Effect.cleared (heffect : Effect pool event after outputs)
    (houtside : pool.caller ≠ .outside) (hafter : after.caller = .outside) : after.tasks = [] := by
  cases heffect with
  | addTask _ hcaller => exact absurd hcaller houtside
  | runThreads hcaller => exact absurd hcaller houtside
  | runSingle _ hcaller => exact absurd hcaller houtside
  | destroyThreads hcaller => exact absurd hcaller houtside
  | destroySingle hcaller => exact absurd hcaller houtside
  | start | test =>
      unfold testEnd at hafter
      split at hafter
      · cases hafter
      · cases hafter
  | reset | stop | join => cases hafter
  | clear => rfl
  | sleep w =>
      change pool.broadcastEnd.caller = .outside at hafter
      unfold broadcastEnd at hafter
      split at hafter
      · cases hafter
      · exact absurd hafter houtside
  | take | exit | finish | act | wakeup => exact absurd hafter houtside

theorem Consistent.threads (h : pool.Consistent) (houtside : pool.caller ≠ .outside)
    (hdestroyed : pool.caller ≠ .destroyed) : 1 < nthreads := by
  cases hcaller : pool.caller with
  | outside => exact absurd hcaller houtside
  | destroyed => exact absurd hcaller hdestroyed
  | starting | resetting | clearing | stopping =>
      simp only [Consistent, hcaller] at h
      exact h.1
  | waiting =>
      simp only [Consistent, hcaller] at h
      exact h.1.threads
  | woken | joining =>
      simp only [Consistent, hcaller] at h
      exact h.threads

/-- When all threads are joined, everything is done. -/
theorem Consistent.balance_destroyed (h : pool.Consistent) (hcaller : pool.caller = .destroyed)
    (hthreads : 1 < nthreads) : pool.balance = 0 := by
  have hremaining := @remaining_eq _ _ pool (by rw [hcaller]; decide)
  simp only [Consistent, hcaller] at h
  obtain ⟨hall, hdrop⟩ := h hthreads
  have hhand : pool.inHand = 0 := by
    apply Finset.sum_eq_zero
    intro w _
    rw [hall w]
    rfl
  rw [balance, hhand, hremaining, hdrop]
  rfl

/-- What is reached at the end of a call, after the history that had led into it. -/
structure Returned (earlier : List (Entry (WorkerPool A nthreads) (PoolEvent A nthreads) A))
    (caller : Caller) (history : List (Entry (WorkerPool A nthreads) (PoolEvent A nthreads) A))
    (pool : WorkerPool A nthreads) : Prop where
  caller : pool.caller = caller.returnsTo
  /-- Nothing is added during the call. -/
  during : ∃ more, history = earlier ++ more ∧ added more = []
  /-- Everything that was added before it is done, once. -/
  done : (executed history).Perm (added history).flatten

/-- On the way there: a run, in the same call, and behind `zarray_clear` once outside. -/
structure Within (earlier : List (Entry (WorkerPool A nthreads) (PoolEvent A nthreads) A))
    (caller : Caller) (history : List (Entry (WorkerPool A nthreads) (PoolEvent A nthreads) A))
    (pool : WorkerPool A nthreads) : Prop where
  run : Run (system False Fresh) history pool
  caller : pool.caller.returnsTo = caller.returnsTo
  during : ∃ more, history = earlier ++ more ∧ added more = []
  cleared : pool.caller = .outside → pool.tasks = []

section Within

variable {earlier history : List (Entry (WorkerPool A nthreads) (PoolEvent A nthreads) A)}
  {caller : Caller}

/-- The call has returned as soon as the caller is back. -/
theorem Within.returned (h : Within earlier caller history pool) (hthreads : 1 < nthreads)
    (hback : pool.caller = .outside ∨ pool.caller = .destroyed) :
    Returned earlier caller history pool := by
  have hsame := h.caller
  rcases hback with hcaller | hcaller
  · have hdone := (outside_of_run h.run hcaller).2
    rw [h.cleared hcaller, List.reduceOption_nil, List.flatten_nil, List.append_nil] at hdone
    rw [hcaller] at hsame
    exact ⟨hcaller.trans hsame, h.during, hdone⟩
  · obtain ⟨hconsistent, hbalance⟩ := consistent_of_run h.run
    rw [hconsistent.balance_destroyed hcaller hthreads, add_zero] at hbalance
    rw [hcaller] at hsame
    exact ⟨hcaller.trans hsame, h.during, Multiset.coe_eq_coe.mp hbalance⟩

theorem Within.step (h : Within earlier caller history pool) (houtside : pool.caller ≠ .outside)
    (hallowed : Allowed False event) (hstep : pool.step event = .ok (after, outputs)) :
    Within earlier caller (history ++ [⟨pool, event, outputs, after⟩]) after ∧
      after.rank < pool.rank := by
  have heffect := step_effect hstep
  have hconsistent := (consistent_of_run h.run).1
  have hevent := heffect.within houtside hallowed
  have hadded : event.added = [] := by
    rcases hevent with rfl | ⟨w, rfl⟩
    · rfl
    · rfl
  refine ⟨⟨h.run.step ⟨hallowed, hstep⟩, (heffect.returnsTo houtside).trans h.caller, ?_,
    heffect.cleared houtside⟩, ?_⟩
  · obtain ⟨more, rfl, hmore⟩ := h.during
    refine ⟨more ++ [⟨pool, event, outputs, after⟩], List.append_assoc .., ?_⟩
    rw [added_append, added_singleton, hadded, List.append_nil]
    exact hmore
  · rcases hevent with rfl | ⟨w, rfl⟩
    · exact rank_caller hconsistent heffect
    · exact rank_worker hconsistent heffect

theorem Within.inevitably (h : Within earlier caller history pool) (hthreads : 1 < nthreads) :
    Inevitably (system False Fresh) (Returned earlier caller) history pool := by
  have hbusy : ∀ history last, Within earlier caller history last →
      ¬ Returned earlier caller history last →
      last.caller ≠ .outside ∧ last.caller ≠ .destroyed := by
    intro history last hwithin hnot
    constructor
    · intro hcaller
      exact hnot (hwithin.returned hthreads (.inl hcaller))
    · intro hcaller
      exact hnot (hwithin.returned hthreads (.inr hcaller))
  refine inevitably_of_rank rank ?_ ?_ h
  · intro history last hwithin hnot
    obtain ⟨hout, hdestr⟩ := hbusy history last hwithin hnot
    exact (consistent_of_run hwithin.run).1.progress hout hdestr
  · rintro history before event after outputs hwithin hnot ⟨hallowed, hstep⟩
    exact hwithin.step (hbusy history before hwithin hnot).1 hallowed hstep

theorem within_of_run {history : List (Entry (WorkerPool A nthreads) _ A)}
    (hrun : Run (system False Fresh) history pool) (houtside : pool.caller ≠ .outside) :
    Within history pool.caller history pool where
  run := hrun
  caller := rfl
  during := ⟨[], (List.append_nil _).symm, rfl⟩
  cleared := fun h => absurd h houtside

end Within

/-- **Every call returns, and then everything is done**: from any place within
    `workerpool_run` or `workerpool_destroy` and whichever threads go next, the call ends, and
    every task added so far has been executed, once. -/
theorem call_returns {history : List (Entry (WorkerPool A nthreads) _ A)}
    (hrun : Run (system False Fresh) history pool) (houtside : pool.caller ≠ .outside)
    (hdestroyed : pool.caller ≠ .destroyed) :
    Inevitably (system False Fresh) (Returned history pool.caller) history pool :=
  (within_of_run hrun houtside).inevitably
    ((consistent_of_run hrun).1.threads houtside hdestroyed)

theorem call_returns_twoTasks : ∃ (history : List (Entry (WorkerPool Nat 2) _ Nat))
    (pool : WorkerPool Nat 2), Run (system False Fresh) history pool ∧
      pool.caller = .starting ∧
      Inevitably (system False Fresh) (Returned history .starting) history pool := by
  obtain ⟨history, pool, hrun, hview⟩ := exists_run_of_replay step (twoTasks.take 3)
    (fun _ pool => pool.caller) .starting fresh_asleep
    (fun event hmem => allowed_twoTasks event (List.mem_of_mem_take hmem)) (by decide +kernel)
  have hreturns := call_returns hrun (by rw [hview]; decide) (by rw [hview]; decide)
  rw [hview] at hreturns
  exact ⟨history, pool, hrun, hview, hreturns⟩

/-! ## 3. One round -/

/-- When a round begins behind everything that was given before, what is done in it are its own
    tasks. -/
theorem round_perm {earlier round : List (Entry (WorkerPool A nthreads) _ A)}
    {first : WorkerPool A nthreads} (hfirst : Run (system False Fresh) earlier first)
    (hcaller : first.caller = .outside) (htasks : first.tasks = [])
    (hdone : (executed (earlier ++ round)).Perm (added (earlier ++ round)).flatten) :
    (executed round).Perm (added round).flatten := by
  have hbefore := (outside_of_run hfirst hcaller).2
  rw [htasks, List.reduceOption_nil, List.flatten_nil, List.append_nil] at hbefore
  rw [executed_append, added_append, List.flatten_append] at hdone
  exact (List.perm_append_left_iff _).mp (hdone.trans (hbefore.symm.append_right _))

/-- Behind a history after which nothing was left, the caller has added the tasks and called
    `workerpool_run`. -/
structure Called (earlier given : List (Entry (WorkerPool A nthreads) (PoolEvent A nthreads) A))
    (tasks : List (List A)) (pool : WorkerPool A nthreads) : Prop where
  before : ∃ first, Run (system False Fresh) earlier first ∧ first.caller = .outside ∧
    first.tasks = []
  run : Run (system False Fresh) (earlier ++ given) pool
  caller : pool.caller = .starting
  given : added given = tasks

/-- The caller is back, and what has been done since is good. -/
def RoundDone (earlier : List (Entry (WorkerPool A nthreads) (PoolEvent A nthreads) A))
    (Good : List A → Prop) (history : List (Entry (WorkerPool A nthreads) (PoolEvent A nthreads) A))
    (last : WorkerPool A nthreads) : Prop :=
  last.caller = .outside ∧ ∃ round, history = earlier ++ round ∧ Good (executed round)

/-- The threads inevitably do the tasks of the round in some order, and nothing else in it. -/
theorem Called.returns {earlier given : List (Entry (WorkerPool A nthreads) _ A)}
    {tasks : List (List A)} (h : Called earlier given tasks pool) {Good : List A → Prop}
    (hgood : ∀ order : List A, order.Perm tasks.flatten → Good order) :
    Inevitably (system False Fresh) (RoundDone earlier Good) (earlier ++ given) pool := by
  obtain ⟨⟨first, hfirst, hcaller, htasks⟩, hrun, hcalled, rfl⟩ := h
  have houtside : pool.caller ≠ .outside := by
    rw [hcalled]
    decide
  have hthreads := (consistent_of_run hrun).1.threads houtside (by rw [hcalled]; decide)
  have hreturns := (within_of_run hrun houtside).inevitably hthreads
  rw [hcalled] at hreturns
  refine hreturns.mono fun history last hreturned => ?_
  obtain ⟨hback, ⟨more, rfl, hmore⟩, hdone⟩ := hreturned
  refine ⟨hback, given ++ more, List.append_assoc .., hgood _ ?_⟩
  rw [List.append_assoc] at hdone
  have hround := round_perm hfirst hcaller htasks hdone
  rwa [added_append, hmore, List.append_nil] at hround

theorem Called.threads {earlier given : List (Entry (WorkerPool A nthreads) _ A)}
    {tasks : List (List A)} (h : Called earlier given tasks pool) : 1 < nthreads :=
  (consistent_of_run h.run).1.threads (by rw [h.caller]; decide) (by rw [h.caller]; decide)

/-- A pool can be given any tasks. -/
theorem exists_called (hthreads : 1 < nthreads) (tasks : List (List A)) :
    ∃ given, ∃ pool : WorkerPool A nthreads, Called [] given tasks pool := by
  have hadd : ∃ given, Run (system False Fresh) given
      (⟨tasks.map some, 0, nworkers nthreads, fun _ => .waiting, .outside⟩ :
        WorkerPool A nthreads) ∧ added given = tasks := by
    induction tasks using List.reverseRecOn with
    | nil => exact ⟨[], .start fresh_asleep, rfl⟩
    | append_singleton tasks task ih =>
        obtain ⟨given, hrun, hadded⟩ := ih
        have hallowed : Allowed False (.addTask task : PoolEvent A nthreads) := trivial
        rw [List.map_append]
        refine ⟨_, hrun.step ⟨hallowed, rfl⟩, ?_⟩
        rw [added_append, added_singleton, hadded]
        rfl
  obtain ⟨given, hrun, hadded⟩ := hadd
  have hcalled : WorkerPool.step (⟨tasks.map some, 0, nworkers nthreads, fun _ => .waiting,
      .outside⟩ : WorkerPool A nthreads) .run = .ok (⟨tasks.map some, 0, 0, fun _ => .waiting,
        .starting⟩, []) := by
    simp [WorkerPool.step, workerpoolRun, hthreads]
  have hallowed : Allowed False (.run : PoolEvent A nthreads) := trivial
  have hrun := hrun.step ⟨hallowed, hcalled⟩
  refine ⟨_, _, ⟨_, .start fresh_asleep, rfl, rfl⟩, hrun, rfl, (added_append given _).trans ?_⟩
  rw [added_singleton, hadded]
  exact List.append_nil tasks

end WorkerPool

end Lame
