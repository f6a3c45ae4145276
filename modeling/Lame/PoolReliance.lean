/-
  Lame/PoolReliance.lean
  ======================
  **What `workerpool_run` relies on.**

  A worker that is still awake when the caller sets `end_count` to zero, or that wakes up by
  itself, counts itself once too often.  The caller then returns while another worker is at
  work, or a task is done again.
-/
import Lame.PoolRounds

namespace Lame

open LabelledRuns

namespace WorkerPool

variable {A : Type} {nthreads : Nat} {pool after : WorkerPool A nthreads}
  {event : PoolEvent A nthreads} {outputs : List A}

/-! ## 1. Pools and what can come of them -/

/-- Nothing is to be done, and the workers have gone to sleep or are about to. -/
structure Idle (pool : WorkerPool A nthreads) : Prop where
  caller : pool.caller = .outside
  tasks : pool.tasks = []
  taskspos : pool.taskspos = 0
  workers : ∀ w, pool.workers w = .ready ∨ pool.workers w = .waiting

/-- Whenever the caller is back, what was added is done, once, or is in the array. -/
def Reliable (wakeups : Prop) (start : WorkerPool A nthreads) : Prop :=
  ∀ history pool, Run (system wakeups (· = start)) history pool → pool.caller = .outside →
    (executed history ++ pool.tasks.reduceOption.flatten).Perm (added history).flatten

/-- The threads can come to this pool, having done these actions of these tasks. -/
def Can (wakeups : Prop) (start : WorkerPool A nthreads) (actions : List A)
    (given : List (List A)) (pool : WorkerPool A nthreads) : Prop :=
  ∃ history, Run (system wakeups (· = start)) history pool ∧ executed history = actions ∧
    added history = given

section Can

variable {wakeups : Prop} {start : WorkerPool A nthreads} {actions : List A}
  {given : List (List A)}

theorem can_start (wakeups : Prop) (start : WorkerPool A nthreads) :
    Can wakeups start [] [] start :=
  ⟨[], .start rfl, rfl, rfl⟩

theorem Can.step (h : Can wakeups start actions given pool) (hallowed : Allowed wakeups event)
    (hstep : pool.step event = .ok (after, outputs)) :
    Can wakeups start (actions ++ outputs) (given ++ event.added) after := by
  obtain ⟨history, hrun, rfl, rfl⟩ := h
  refine ⟨_, hrun.step ⟨hallowed, hstep⟩, ?_, ?_⟩
  · rw [executed_append, executed_singleton]
  · rw [added_append, added_singleton]

/-- A step of which nobody hears. -/
theorem Can.silent (h : Can wakeups start actions given pool) (hallowed : Allowed wakeups event)
    (hadded : event.added = []) (hstep : pool.step event = .ok (after, [])) :
    Can wakeups start actions given after := by
  have hnext := h.step hallowed hstep
  rwa [hadded, List.append_nil, List.append_nil] at hnext

/-- Workers go to sleep, one after the other. -/
theorem Can.sleep_all {tasks : List (Option (List A))} {taskspos : Nat}
    (hpos : taskspos = tasks.length) (ws : List (Fin (nworkers nthreads)))
    {workers : Fin (nworkers nthreads) → PoolWorker A} {endCount : Nat} {caller : Caller}
    (hcaller : caller = .waiting ∨ caller = .woken) (hnodup : ws.Nodup)
    (hready : ∀ w ∈ ws, workers w = .ready)
    (h : Can wakeups start actions given ⟨tasks, taskspos, endCount, workers, caller⟩) :
    ∃ caller', (caller' = .woken ∨ ws = [] ∧ caller' = caller) ∧ Can wakeups start actions given
      ⟨tasks, taskspos, endCount + ws.length,
        fun v => if v ∈ ws then .waiting else workers v, caller'⟩ := by
  induction ws generalizing workers endCount caller with
  | nil => exact ⟨caller, .inr ⟨rfl, rfl⟩, by simpa using h⟩
  | cons w ws ih =>
      obtain ⟨hw, hready⟩ := List.forall_mem_cons.mp hready
      obtain ⟨hnotin, hnodup⟩ := List.nodup_cons.mp hnodup
      have hstep : WorkerPool.step (⟨tasks, taskspos, endCount, workers, caller⟩ :
          WorkerPool A nthreads) (.worker w) = .ok (⟨tasks, taskspos, endCount + 1,
            Function.update workers w .waiting, .woken⟩, []) := by
        rcases hcaller with rfl | rfl
        · simp [WorkerPool.step, workerThread, hw, hpos, setWorker, broadcastEnd]
        · simp [WorkerPool.step, workerThread, hw, hpos, setWorker, broadcastEnd]
      have hrest : ∀ v ∈ ws, Function.update workers w .waiting v = .ready := by
        intro v hv
        have hne : v ≠ w := by
          rintro rfl
          exact hnotin hv
        rw [Function.update_of_ne hne]
        exact hready v hv
      obtain ⟨caller', hcaller', hcan⟩ :=
        ih (.inr rfl) hnodup hrest
          (h.silent (show Allowed wakeups (.worker w) from trivial) rfl hstep)
      have hworkers : (fun v => if v ∈ ws then .waiting else
          Function.update workers w .waiting v) =
          fun v => if v ∈ w :: ws then .waiting else workers v := by
        funext v
        by_cases hv : v = w
        · simp [hv]
        · simp [hv]
      rw [hworkers, Nat.add_assoc, Nat.add_comm 1] at hcan
      refine ⟨caller', .inl ?_, hcan⟩
      rcases hcaller' with hwoken | ⟨-, hwoken⟩
      · exact hwoken
      · exact hwoken

/-- The count is reached, so the caller starts the array anew. -/
theorem Can.end_round {tasks : List (Option (List A))} {taskspos endCount : Nat}
    {workers : Fin (nworkers nthreads) → PoolWorker A} (hcount : nthreads ≤ endCount)
    (h : Can wakeups start actions given ⟨tasks, taskspos, endCount, workers, .woken⟩) :
    Can wakeups start actions given ⟨tasks, 0, endCount, workers, .clearing⟩ := by
  have htest : WorkerPool.step (⟨tasks, taskspos, endCount, workers, .woken⟩ :
      WorkerPool A nthreads) .caller = .ok (⟨tasks, taskspos, endCount, workers, .resetting⟩,
        []) := by
    simp [WorkerPool.step, callerNext, testEnd, Nat.not_lt.mpr hcount]
  have hreset : WorkerPool.step (⟨tasks, taskspos, endCount, workers, .resetting⟩ :
      WorkerPool A nthreads) .caller = .ok (⟨tasks, 0, endCount, workers, .clearing⟩, []) := rfl
  exact (h.silent (show Allowed wakeups .caller from trivial) rfl htest).silent
    (show Allowed wakeups .caller from trivial) rfl hreset

/-- All workers but one go to sleep. -/
theorem Can.sleep_others {tasks : List (Option (List A))} {taskspos endCount : Nat}
    (hpos : taskspos = tasks.length) (hthreads : 1 < nthreads)
    {workers : Fin (nworkers nthreads) → PoolWorker A} (one : Fin (nworkers nthreads))
    (hready : ∀ w, w ≠ one → workers w = .ready)
    (h : Can wakeups start actions given ⟨tasks, taskspos, endCount, workers, .waiting⟩) :
    Can wakeups start actions given ⟨tasks, taskspos, endCount + (nthreads - 1),
      fun v => if v = one then workers one else .waiting, .woken⟩ := by
  have hnodup : (List.finRange (nworkers nthreads)).Nodup := List.nodup_finRange _
  have hmem : ∀ w, w ∈ (List.finRange (nworkers nthreads)).erase one ↔ w ≠ one := by
    intro w
    rw [hnodup.mem_erase_iff]
    exact and_iff_left (List.mem_finRange w)
  have hlength : ((List.finRange (nworkers nthreads)).erase one).length = nthreads - 1 := by
    rw [List.length_erase_of_mem (List.mem_finRange one), List.length_finRange,
      nworkers_eq hthreads]
  obtain ⟨caller', hcaller', hcan⟩ := h.sleep_all hpos _ (.inl rfl) (hnodup.erase one)
    fun w hw => hready w ((hmem w).mp hw)
  have hwoken : caller' = .woken := by
    rcases hcaller' with hwoken | ⟨hnil, -⟩
    · exact hwoken
    · rw [hnil, List.length_nil] at hlength
      omega
  have hworkers : (fun v => if v ∈ (List.finRange (nworkers nthreads)).erase one then .waiting
      else workers v) = fun v => if v = one then workers one else .waiting := by
    funext v
    by_cases hv : v = one
    · simp [hmem, hv]
    · simp [hmem, hv]
  rwa [hworkers, hlength, hwoken] at hcan

end Can

/-! ## 2. Workers that are awake -/

theorem broadcastStart_eq {tasks : List (Option (List A))} {taskspos endCount : Nat}
    {workers : Fin (nworkers nthreads) → PoolWorker A} {caller : Caller}
    (h : ∀ w, workers w = .ready ∨ workers w = .waiting) :
    broadcastStart ⟨tasks, taskspos, endCount, workers, caller⟩ =
      ⟨tasks, taskspos, endCount, fun _ => .ready, caller⟩ := by
  have hworkers : (broadcastStart ⟨tasks, taskspos, endCount, workers, caller⟩).workers =
      fun _ => .ready := by
    funext w
    rcases h w with hw | hw
    · simp only [broadcastStart, hw]
    · simp only [broadcastStart, hw]
  rw [← hworkers]
  rfl

theorem exists_other (hthreads : 1 < nthreads) (w : Fin (nworkers nthreads)) :
    ∃ other, other ≠ w := by
  have htwo : 1 < nworkers nthreads := by rwa [nworkers_eq hthreads]
  by_cases hw : w = ⟨0, Nat.zero_lt_of_lt htwo⟩
  · refine ⟨⟨1, htwo⟩, fun heq => ?_⟩
    rw [hw] at heq
    exact absurd (Fin.mk.inj heq) Nat.one_ne_zero
  · exact ⟨_, Ne.symm hw⟩

/-- A worker that is awake can do a task before `workerpool_run`, count itself before the
    broadcast that wakes it, and do the task again. -/
theorem Idle.twice {start : WorkerPool A nthreads} (wakeups : Prop) (hthreads : 1 < nthreads)
    (hidle : start.Idle) {early : Fin (nworkers nthreads)} (hearly : start.workers early = .ready)
    (action : A) : ∃ pool, Can wakeups start [action, action] [[action]] pool ∧
      pool.caller = .outside ∧ pool.tasks = [] := by
  obtain ⟨tasks, taskspos, endCount, workers, caller⟩ := start
  obtain ⟨rfl, rfl, rfl, hworkers⟩ := hidle
  change workers early = .ready at hearly
  have hworker (w) : Allowed wakeups (.worker w : PoolEvent A nthreads) := trivial
  have hcaller : Allowed wakeups (.caller : PoolEvent A nthreads) := trivial
  -- the task is done before the call
  have hadded := (can_start wakeups (⟨[], 0, endCount, workers, .outside⟩ :
    WorkerPool A nthreads)).step (show Allowed wakeups (.addTask [action]) from trivial) rfl
  have htaken : Can wakeups _ [] [[action]] ⟨[some [action]], 1, endCount,
      Function.update workers early (.running (some [action])), .outside⟩ :=
    hadded.silent (hworker early) rfl
      (by simp [WorkerPool.step, workerThread, hearly, setWorker])
  have hcalled : Can wakeups _ [] [[action]] ⟨[some [action]], 1, 0,
      Function.update workers early (.running (some [action])), .starting⟩ :=
    htaken.silent (show Allowed wakeups .run from trivial) rfl
      (by simp [WorkerPool.step, workerpoolRun, hthreads])
  have hacted : Can wakeups _ [action] [[action]] ⟨[some [action]], 1, 0,
      Function.update workers early (.running (some [])), .starting⟩ :=
    hcalled.step (hworker early) (by simp [WorkerPool.step, workerThread, setWorker])
  have hfinished : Can wakeups _ [action] [[action]] ⟨[some [action]], 1, 0,
      Function.update workers early .ready, .starting⟩ :=
    hacted.silent (hworker early) rfl (by simp [WorkerPool.step, workerThread, setWorker])
  have hcounted : Can wakeups _ [action] [[action]] ⟨[some [action]], 1, 1,
      Function.update workers early .waiting, .starting⟩ :=
    hfinished.silent (hworker early) rfl
      (by simp [WorkerPool.step, workerThread, setWorker, broadcastEnd])
  -- the broadcast, and all others go to sleep
  have hawake : ∀ w, Function.update workers early .waiting w = .ready ∨
      Function.update workers early .waiting w = (.waiting : PoolWorker A) := fun w =>
    update_cases (P := fun worker => worker = .ready ∨ worker = .waiting) (.inr rfl) (hworkers w)
  have hstarted : Can wakeups _ [action] [[action]] ⟨[some [action]], 1, 1,
      fun _ => .ready, .waiting⟩ :=
    hcounted.silent hcaller rfl
      (by simp [WorkerPool.step, callerNext, broadcastStart_eq hawake, testEnd, hthreads])
  have hasleep := hstarted.sleep_others rfl hthreads early fun _ _ => rfl
  -- the task is still in the array
  have hreset := hasleep.end_round (by omega)
  have hagain : Can wakeups _ [action] [[action]] ⟨[some [action]], 1, 1 + (nthreads - 1),
      Function.update (fun v => if v = early then .ready else .waiting) early
        (.running (some [action])), .clearing⟩ :=
    hreset.silent (hworker early) rfl (by simp [WorkerPool.step, workerThread, setWorker])
  have hcleared := hagain.silent hcaller rfl rfl
  have htwice : Can wakeups _ [action, action] [[action]] ⟨[], 1, 1 + (nthreads - 1),
      Function.update (fun v => if v = early then .ready else .waiting) early
        (.running (some [])), .outside⟩ :=
    hcleared.step (hworker early) (by simp [WorkerPool.step, workerThread, setWorker])
  exact ⟨_, htwice, rfl, rfl⟩

/-- A worker that wakes up without a broadcast counts itself twice, and the caller returns
    although a task is not done. -/
theorem Idle.early {start : WorkerPool A nthreads} {wakeups : Prop} (hwakeups : wakeups)
    (hthreads : 1 < nthreads) (hidle : start.Idle) (hasleep : start.Asleep) (action : A) :
    ∃ pool, Can wakeups start [] [[action]] pool ∧ pool.caller = .outside ∧ pool.tasks = [] := by
  obtain ⟨tasks, taskspos, endCount, workers, caller⟩ := start
  obtain ⟨rfl, rfl, rfl, hworkers⟩ := hidle
  have hworker (w) : Allowed wakeups (.worker w : PoolEvent A nthreads) := trivial
  have hcaller : Allowed wakeups (.caller : PoolEvent A nthreads) := trivial
  have hpos : 0 < nworkers nthreads := by
    rw [nworkers_eq hthreads]
    exact Nat.zero_lt_of_lt hthreads
  obtain ⟨woken, hwoken⟩ := exists_other hthreads ⟨0, hpos⟩
  generalize (⟨0, hpos⟩ : Fin (nworkers nthreads)) = busy at hwoken
  have hadded := (can_start wakeups (⟨[], 0, endCount, workers, .outside⟩ :
    WorkerPool A nthreads)).step (show Allowed wakeups (.addTask [action]) from trivial) rfl
  have hcalled : Can wakeups _ [] [[action]] ⟨[some [action]], 0, 0, workers, .starting⟩ :=
    hadded.silent (show Allowed wakeups .run from trivial) rfl
      (by simp [WorkerPool.step, workerpoolRun, hthreads])
  have hstarted : Can wakeups _ [] [[action]] ⟨[some [action]], 0, 0, fun _ => .ready,
      .waiting⟩ :=
    hcalled.silent hcaller rfl (by
      simp [WorkerPool.step, callerNext, broadcastStart_eq hworkers, testEnd,
        Nat.zero_lt_of_lt hthreads])
  have htaken : Can wakeups _ [] [[action]] ⟨[some [action]], 1, 0,
      Function.update (fun _ => .ready) busy (.running (some [action])), .waiting⟩ :=
    hstarted.silent (hworker busy) rfl (by simp [WorkerPool.step, workerThread, setWorker])
  have hasleep := htaken.sleep_others rfl hthreads busy fun w hw => by
    rw [Function.update_of_ne hw]
  -- one of the sleepers wakes up and counts itself again
  have hawake : Can wakeups _ [] [[action]] ⟨[some [action]], 1, 0 + (nthreads - 1),
      Function.update (fun v => if v = busy then .running (some [action]) else .waiting) woken
        .ready, .woken⟩ :=
    hasleep.silent (show Allowed wakeups (.wakeup woken) from hwakeups) rfl
      (by simp [WorkerPool.step, setWorker, hwoken])
  have hcounted : Can wakeups _ [] [[action]] ⟨[some [action]], 1, nthreads - 1 + 1,
      Function.update (fun v => if v = busy then .running (some [action]) else .waiting) woken
        .waiting, .woken⟩ :=
    hawake.silent (hworker woken) rfl
      (by simp [WorkerPool.step, workerThread, setWorker, broadcastEnd])
  have hreset := hcounted.end_round (by omega)
  exact ⟨_, hreset.silent hcaller rfl rfl, rfl, rfl⟩

/-- **When a pool can be relied on**: exactly if its workers have all gone to sleep and none
    wakes up without being asked to. -/
theorem reliable_iff [Nonempty A] {wakeups : Prop} (hthreads : 1 < nthreads)
    {start : WorkerPool A nthreads} (hidle : start.Idle) :
    Reliable wakeups start ↔ ¬ wakeups ∧ start.Asleep := by
  obtain ⟨action⟩ := ‹Nonempty A›
  constructor
  · intro hreliable
    have hasleep : start.Asleep := by
      intro w
      refine (hidle.workers w).resolve_left fun hearly => ?_
      obtain ⟨pool, ⟨history, hrun, hexecuted, hadded⟩, hcaller, htasks⟩ :=
        hidle.twice wakeups hthreads hearly action
      have hperm := hreliable history pool hrun hcaller
      rw [hexecuted, hadded, htasks] at hperm
      exact absurd hperm.length_eq (by simp)
    refine ⟨fun hwakeups => ?_, hasleep⟩
    obtain ⟨pool, ⟨history, hrun, hexecuted, hadded⟩, hcaller, htasks⟩ :=
      hidle.early hwakeups hthreads hasleep action
    have hperm := hreliable history pool hrun hcaller
    rw [hexecuted, hadded, htasks] at hperm
    exact absurd hperm.length_eq (by simp)
  · rintro ⟨hwakeups, hasleep⟩ history pool hrun hcaller
    have hfresh : Run (system False Fresh) history pool := by
      refine hrun.mono ?_ ?_
      · rintro _ rfl
        exact ⟨hidle.caller, hidle.tasks, hasleep, hidle.taskspos⟩
      · rintro before event after outputs ⟨hallowed, hstep⟩
        refine ⟨?_, hstep⟩
        cases event with
        | wakeup w => exact hwakeups hallowed
        | _ => trivial
    exact (outside_of_run hfresh hcaller).2

theorem idle_create : (create nthreads : WorkerPool A nthreads).Idle where
  caller := rfl
  tasks := rfl
  taskspos := rfl
  workers := fun _ => .inl rfl

/-- `workerpool_create` does not wait for its threads. -/
theorem reliable_iff_create : ¬ Reliable False (create 2 : WorkerPool Nat 2) := by
  intro hreliable
  have hasleep := ((reliable_iff (by decide) idle_create).mp hreliable).2
  cases hasleep ⟨0, by decide⟩

end WorkerPool

end Lame
