/-
  Lame/WorkerPool.lean
  ====================
  **The threads of the detector: `workerpool.c`.**

  The worker threads share the array of tasks, `taskspos` and `end_count` under one mutex; a
  caller adds tasks and waits in `workerpool_run` until `end_count` says that all workers are
  done.  What happens between taking the mutex and giving it up is one step, and so is every
  access of the caller outside of it; any thread may go next.  A task is the list of its own
  atomic actions.

  `Effect` says what a step can do, and `balance` is what is still to come: the actions in the
  hands of the workers and those of the tasks that nobody has taken.
-/
import Lame.LabelledRuns
import Mathlib.Algebra.BigOperators.Fin
import Mathlib.Algebra.Order.BigOperators.Group.Finset
import Mathlib.Algebra.Order.Group.Multiset
import Mathlib.Data.List.ReduceOption

namespace Lame

open LabelledRuns

/-! ## 1. The pool -/

/-- With one thread the caller runs the tasks itself. -/
def nworkers (nthreads : Nat) : Nat := if 1 < nthreads then nthreads else 0

/-- Where a worker thread is. -/
inductive PoolWorker (A : Type) where
  /-- Before the lock and the test of `taskspos`. -/
  | ready
  /-- In `pthread_cond_wait` on `startcond`. -/
  | waiting
  /-- Behind the unlock, with what is left of its task; `none` is a task without function. -/
  | running (task : Option (List A))
  | exited
  deriving DecidableEq

/-- What is left of the task a worker is at. -/
def PoolWorker.inHand {A : Type} : PoolWorker A → Multiset A
  | .running (some rest) => rest
  | _ => 0

def PoolWorker.sleeping {A : Type} : PoolWorker A → Nat
  | .waiting => 1
  | _ => 0

/-- A worker that still takes a task. -/
def PoolWorker.active {A : Type} : PoolWorker A → Nat
  | .ready | .running (some _) => 1
  | _ => 0

/-- Where the thread is that calls the pool. -/
inductive Caller where
  | outside
  /-- In `workerpool_run`, before the lock. -/
  | starting
  /-- In `pthread_cond_wait` on `endcond`. -/
  | waiting
  /-- Before it tests `end_count` again. -/
  | woken
  /-- Behind the unlock, before `taskspos = 0`. -/
  | resetting
  /-- Before `zarray_clear`. -/
  | clearing
  /-- In `workerpool_destroy`, before the lock. -/
  | stopping
  | joining
  | destroyed
  deriving DecidableEq

/-- Where the call ends that the caller is in. -/
def Caller.returnsTo : Caller → Caller
  | .stopping | .joining | .destroyed => .destroyed
  | _ => .outside

/-- `struct workerpool` -/
structure WorkerPool (A : Type) (nthreads : Nat) where
  tasks : List (Option (List A))
  taskspos : Nat
  endCount : Nat
  workers : Fin (nworkers nthreads) → PoolWorker A
  caller : Caller

inductive PoolEvent (A : Type) (nthreads : Nat) where
  | addTask (task : List A)
  | run
  | destroy
  /-- The caller goes on with its call. -/
  | caller
  | worker (w : Fin (nworkers nthreads))
  /-- A worker's `pthread_cond_wait` returns without a broadcast. -/
  | wakeup (w : Fin (nworkers nthreads))

def PoolEvent.added {A : Type} {nthreads : Nat} : PoolEvent A nthreads → List (List A)
  | .addTask task => [task]
  | _ => []

inductive PoolFault where
  /-- The thread cannot go on here. -/
  | blocked
  /-- `idx < za->size` does not hold in `zarray_get_volatile`. -/
  | assertion
  /-- A call of `NULL`. -/
  | nullCall
  deriving DecidableEq

namespace WorkerPool

variable {A : Type} {nthreads : Nat}

/-- `workerpool_create` -/
def create (nthreads : Nat) : WorkerPool A nthreads := ⟨[], 0, 0, fun _ => .ready, .outside⟩

def setWorker (pool : WorkerPool A nthreads) (w : Fin (nworkers nthreads)) (worker : PoolWorker A) :
    WorkerPool A nthreads :=
  { pool with workers := Function.update pool.workers w worker }

/-- `pthread_cond_broadcast(&wp->startcond)` -/
def broadcastStart (pool : WorkerPool A nthreads) : WorkerPool A nthreads :=
  { pool with workers := fun w => match pool.workers w with
      | .waiting => .ready
      | worker => worker }

/-- `pthread_cond_broadcast(&wp->endcond)` -/
def broadcastEnd (pool : WorkerPool A nthreads) : WorkerPool A nthreads :=
  { pool with caller := match pool.caller with
      | .waiting => .woken
      | caller => caller }

/-- `worker_thread`, from one release of the mutex to the next or to the next action. -/
def workerThread (pool : WorkerPool A nthreads) (w : Fin (nworkers nthreads)) :
    Except PoolFault (WorkerPool A nthreads × List A) :=
  match pool.workers w with
  | .ready =>
      if pool.taskspos = pool.tasks.length then
        .ok ({ pool.broadcastEnd with endCount := pool.endCount + 1 }.setWorker w .waiting, [])
      else
        match pool.tasks[pool.taskspos]? with
        | none => .error .assertion
        | some task =>
            .ok ({ pool with taskspos := pool.taskspos + 1 }.setWorker w (.running task), [])
  | .running none => .ok (pool.setWorker w .exited, [])
  | .running (some []) => .ok (pool.setWorker w .ready, [])
  | .running (some (action :: rest)) => .ok (pool.setWorker w (.running (some rest)), [action])
  | .waiting | .exited => .error .blocked

/-- `workerpool_run_single` -/
def workerpoolRunSingle : List (Option (List A)) → Except PoolFault (List A)
  | [] => .ok []
  | none :: _ => .error .nullCall
  | some task :: tasks => do
      let actions ← workerpoolRunSingle tasks
      return task ++ actions

/-- The test of the loop in `workerpool_run`: wait, or unlock and go on. -/
def testEnd (pool : WorkerPool A nthreads) : WorkerPool A nthreads :=
  { pool with caller := if pool.endCount < nthreads then .waiting else .resetting }

/-- What `workerpool_run` and `workerpool_destroy` do next. -/
def callerNext (pool : WorkerPool A nthreads) :
    Except PoolFault (WorkerPool A nthreads × List A) :=
  match pool.caller with
  | .starting => .ok (pool.broadcastStart.testEnd, [])
  | .woken => .ok (pool.testEnd, [])
  | .resetting => .ok ({ pool with taskspos := 0, caller := .clearing }, [])
  | .clearing => .ok ({ pool with tasks := [], caller := .outside }, [])
  | .stopping => .ok ({ pool.broadcastStart with caller := .joining }, [])
  | .joining =>
      if ∀ w, pool.workers w matches .exited then
        .ok ({ pool with caller := .destroyed }, [])
      else .error .blocked
  | .outside | .waiting | .destroyed => .error .blocked

/-- `workerpool_run`, up to the lock. -/
def workerpoolRun (pool : WorkerPool A nthreads) :
    Except PoolFault (WorkerPool A nthreads × List A) :=
  if 1 < nthreads then .ok ({ pool with endCount := 0, caller := .starting }, [])
  else do
    let actions ← workerpoolRunSingle pool.tasks
    return ({ pool with tasks := [] }, actions)

/-- `workerpool_destroy`, up to the lock. -/
def workerpoolDestroy (pool : WorkerPool A nthreads) : WorkerPool A nthreads :=
  if 1 < nthreads then
    { pool with tasks := pool.tasks ++ List.replicate nthreads none, caller := .stopping }
  else { pool with caller := .destroyed }

def step (pool : WorkerPool A nthreads) :
    PoolEvent A nthreads → Except PoolFault (WorkerPool A nthreads × List A)
  | .addTask task =>
      if pool.caller = .outside then .ok ({ pool with tasks := pool.tasks ++ [some task] }, [])
      else .error .blocked
  | .run => if pool.caller = .outside then pool.workerpoolRun else .error .blocked
  | .destroy =>
      if pool.caller = .outside then .ok (pool.workerpoolDestroy, []) else .error .blocked
  | .caller => pool.callerNext
  | .worker w => pool.workerThread w
  | .wakeup w =>
      if pool.workers w matches .waiting then .ok (pool.setWorker w .ready, [])
      else .error .blocked

/-- With or without wake-ups that nobody asked for. -/
def Allowed (wakeups : Prop) : PoolEvent A nthreads → Prop
  | .wakeup _ => wakeups
  | _ => True

def system (wakeups : Prop) (initial : WorkerPool A nthreads → Prop) :
    System (WorkerPool A nthreads) (PoolEvent A nthreads) A :=
  System.ofStep initial (Allowed wakeups) step

/-! ## 2. What a step does -/

section Fields

variable (pool : WorkerPool A nthreads) (w : Fin (nworkers nthreads)) (worker : PoolWorker A)

@[simp] theorem setWorker_tasks : (pool.setWorker w worker).tasks = pool.tasks := rfl

@[simp] theorem setWorker_taskspos : (pool.setWorker w worker).taskspos = pool.taskspos := rfl

@[simp] theorem setWorker_endCount : (pool.setWorker w worker).endCount = pool.endCount := rfl

@[simp] theorem setWorker_caller : (pool.setWorker w worker).caller = pool.caller := rfl

@[simp] theorem setWorker_workers :
    (pool.setWorker w worker).workers = Function.update pool.workers w worker := rfl

end Fields

/-- The steps, one by one. -/
inductive Effect (pool : WorkerPool A nthreads) :
    PoolEvent A nthreads → WorkerPool A nthreads → List A → Prop where
  | addTask (task : List A) (h : pool.caller = .outside) :
      Effect pool (.addTask task) { pool with tasks := pool.tasks ++ [some task] } []
  | runThreads (h : pool.caller = .outside) (hthreads : 1 < nthreads) :
      Effect pool .run { pool with endCount := 0, caller := .starting } []
  | runSingle (actions : List A) (h : pool.caller = .outside) (hthreads : ¬ 1 < nthreads)
      (hrun : workerpoolRunSingle pool.tasks = .ok actions) :
      Effect pool .run { pool with tasks := [] } actions
  | destroyThreads (h : pool.caller = .outside) (hthreads : 1 < nthreads) :
      Effect pool .destroy { pool with
        tasks := pool.tasks ++ List.replicate nthreads none, caller := .stopping } []
  | destroySingle (h : pool.caller = .outside) (hthreads : ¬ 1 < nthreads) :
      Effect pool .destroy { pool with caller := .destroyed } []
  | start (h : pool.caller = .starting) : Effect pool .caller pool.broadcastStart.testEnd []
  | test (h : pool.caller = .woken) : Effect pool .caller pool.testEnd []
  | reset (h : pool.caller = .resetting) :
      Effect pool .caller { pool with taskspos := 0, caller := .clearing } []
  | clear (h : pool.caller = .clearing) :
      Effect pool .caller { pool with tasks := [], caller := .outside } []
  | stop (h : pool.caller = .stopping) :
      Effect pool .caller { pool.broadcastStart with caller := .joining } []
  | join (h : pool.caller = .joining) (hall : ∀ w, pool.workers w = .exited) :
      Effect pool .caller { pool with caller := .destroyed } []
  | sleep (w : Fin (nworkers nthreads)) (hw : pool.workers w = .ready)
      (hpos : pool.taskspos = pool.tasks.length) :
      Effect pool (.worker w)
        ({ pool.broadcastEnd with endCount := pool.endCount + 1 }.setWorker w .waiting) []
  | take (w : Fin (nworkers nthreads)) (task : Option (List A)) (hw : pool.workers w = .ready)
      (htask : pool.tasks[pool.taskspos]? = some task) :
      Effect pool (.worker w)
        ({ pool with taskspos := pool.taskspos + 1 }.setWorker w (.running task)) []
  | exit (w : Fin (nworkers nthreads)) (hw : pool.workers w = .running none) :
      Effect pool (.worker w) (pool.setWorker w .exited) []
  | finish (w : Fin (nworkers nthreads)) (hw : pool.workers w = .running (some [])) :
      Effect pool (.worker w) (pool.setWorker w .ready) []
  | act (w : Fin (nworkers nthreads)) (action : A) (rest : List A)
      (hw : pool.workers w = .running (some (action :: rest))) :
      Effect pool (.worker w) (pool.setWorker w (.running (some rest))) [action]
  | wakeup (w : Fin (nworkers nthreads)) (hw : pool.workers w = .waiting) :
      Effect pool (.wakeup w) (pool.setWorker w .ready) []

variable {pool after : WorkerPool A nthreads} {event : PoolEvent A nthreads} {outputs : List A}

theorem workerThread_effect {w : Fin (nworkers nthreads)}
    (h : pool.workerThread w = .ok (after, outputs)) : Effect pool (.worker w) after outputs := by
  unfold workerThread at h
  split at h
  · next hw =>
    split at h
    · next hpos =>
      cases h
      exact .sleep w hw hpos
    · split at h
      · cases h
      · next task htask =>
        cases h
        exact .take w task hw htask
  · next hw =>
    cases h
    exact .exit w hw
  · next hw =>
    cases h
    exact .finish w hw
  · next action rest hw =>
    cases h
    exact .act w action rest hw
  · cases h
  · cases h

theorem callerNext_effect (h : pool.callerNext = .ok (after, outputs)) :
    Effect pool .caller after outputs := by
  unfold callerNext at h
  split at h
  · next hcaller =>
    cases h
    exact .start hcaller
  · next hcaller =>
    cases h
    exact .test hcaller
  · next hcaller =>
    cases h
    exact .reset hcaller
  · next hcaller =>
    cases h
    exact .clear hcaller
  · next hcaller =>
    cases h
    exact .stop hcaller
  · next hcaller =>
    split at h
    · next hall =>
      cases h
      refine .join hcaller fun w => ?_
      have hw := hall w
      split at hw
      · assumption
      · cases hw
    · cases h
  · cases h
  · cases h
  · cases h

theorem workerpoolRun_effect (hcaller : pool.caller = .outside)
    (h : pool.workerpoolRun = .ok (after, outputs)) : Effect pool .run after outputs := by
  unfold workerpoolRun at h
  split at h
  · next hthreads =>
    cases h
    exact .runThreads hcaller hthreads
  · next hthreads =>
    cases hrun : workerpoolRunSingle pool.tasks with
    | error fault =>
        rw [hrun] at h
        cases h
    | ok actions =>
        rw [hrun] at h
        cases h
        exact .runSingle _ hcaller hthreads hrun

theorem step_effect (h : pool.step event = .ok (after, outputs)) :
    Effect pool event after outputs := by
  cases event with
  | addTask task =>
      simp only [step] at h
      split at h
      · next hcaller =>
        cases h
        exact .addTask task hcaller
      · cases h
  | run =>
      simp only [step] at h
      split at h
      · next hcaller => exact workerpoolRun_effect hcaller h
      · cases h
  | destroy =>
      simp only [step, workerpoolDestroy] at h
      split at h
      · next hcaller =>
        split at h
        · next hthreads =>
          cases h
          exact .destroyThreads hcaller hthreads
        · next hthreads =>
          cases h
          exact .destroySingle hcaller hthreads
      · cases h
  | caller => exact callerNext_effect h
  | worker w => exact workerThread_effect h
  | wakeup w =>
      simp only [step] at h
      split at h
      · next hw =>
        cases h
        exact .wakeup w hw
      · cases h

/-! ## 3. What is still to come -/

/-- One worker changes, the others stay as they are. -/
theorem sum_update {M : Type} [AddCommMonoid M] (f : PoolWorker A → M)
    (workers : Fin (nworkers nthreads) → PoolWorker A) (w : Fin (nworkers nthreads))
    (worker : PoolWorker A) :
    (∑ v, f (Function.update workers w worker v)) + f (workers w) =
      (∑ v, f (workers v)) + f worker := by
  have hothers : ∑ v ∈ Finset.univ.erase w, f (Function.update workers w worker v) =
      ∑ v ∈ Finset.univ.erase w, f (workers v) := by
    apply Finset.sum_congr rfl
    intro v hv
    rw [Function.update_of_ne (Finset.ne_of_mem_erase hv)]
  rw [← Finset.add_sum_erase _ _ (Finset.mem_univ w), hothers, Function.update_self,
    ← Finset.add_sum_erase _ (fun v => f (workers v)) (Finset.mem_univ w)]
  ac_rfl

def inHand (pool : WorkerPool A nthreads) : Multiset A := ∑ w, (pool.workers w).inHand

/-- The tasks that nobody has taken; what is cleared next has been taken. -/
def remaining (pool : WorkerPool A nthreads) : List (Option (List A)) :=
  if pool.caller = .clearing then [] else pool.tasks.drop pool.taskspos

def actionsOf (tasks : List (Option (List A))) : Multiset A := tasks.reduceOption.flatten

/-- The actions that are still to come. -/
def balance (pool : WorkerPool A nthreads) : Multiset A :=
  pool.inHand + actionsOf pool.remaining

theorem inHand_setWorker (pool : WorkerPool A nthreads) (w : Fin (nworkers nthreads))
    (worker : PoolWorker A) :
    (pool.setWorker w worker).inHand + (pool.workers w).inHand = pool.inHand + worker.inHand :=
  sum_update PoolWorker.inHand pool.workers w worker

theorem inHand_setWorker_of_eq {pool : WorkerPool A nthreads} {w : Fin (nworkers nthreads)}
    {worker : PoolWorker A} (h : (pool.workers w).inHand = worker.inHand) :
    (pool.setWorker w worker).inHand = pool.inHand := by
  have hsum := inHand_setWorker pool w worker
  rw [h] at hsum
  exact add_right_cancel hsum

theorem inHand_setWorker_of_zero {pool : WorkerPool A nthreads} {w : Fin (nworkers nthreads)}
    {worker : PoolWorker A} (h : (pool.workers w).inHand = 0) :
    (pool.setWorker w worker).inHand = pool.inHand + worker.inHand := by
  have hsum := inHand_setWorker pool w worker
  rwa [h, add_zero] at hsum

theorem inHand_broadcastStart (pool : WorkerPool A nthreads) :
    pool.broadcastStart.inHand = pool.inHand := by
  apply Finset.sum_congr rfl
  intro w _
  simp only [broadcastStart]
  split
  · next hw =>
    rw [hw]
    rfl
  · rfl

theorem actionsOf_append (tasks tasks' : List (Option (List A))) :
    actionsOf (tasks ++ tasks') = actionsOf tasks + actionsOf tasks' := by
  simp [actionsOf, List.reduceOption_append]

theorem actionsOf_some (task : List A) (tasks : List (Option (List A))) :
    actionsOf (some task :: tasks) = task + actionsOf tasks := by
  simp [actionsOf]

theorem actionsOf_none (tasks : List (Option (List A))) :
    actionsOf (none :: tasks) = actionsOf tasks := by
  simp [actionsOf]

theorem actionsOf_replicate_none (n : Nat) :
    actionsOf (List.replicate n (none : Option (List A))) = 0 := by
  simp [actionsOf, List.reduceOption_replicate_none]

theorem workerpoolRunSingle_spec {tasks : List (Option (List A))} {actions : List A}
    (h : workerpoolRunSingle tasks = .ok actions) : (actions : Multiset A) = actionsOf tasks := by
  induction tasks generalizing actions with
  | nil =>
      cases h
      rfl
  | cons task tasks ih =>
      cases task with
      | none => cases h
      | some task =>
          cases hrest : workerpoolRunSingle tasks with
          | error fault =>
              rw [workerpoolRunSingle, hrest] at h
              cases h
          | ok rest =>
              rw [workerpoolRunSingle, hrest] at h
              cases h
              rw [actionsOf_some, ← ih hrest]
              rfl

end WorkerPool

end Lame
