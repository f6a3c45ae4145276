/-
  Lame/LabelledRuns.lean
  ======================
  **Labelled transition systems with recorded runs.**

  A system has initial states and labelled steps that emit outputs.  A run keeps
  its history, one entry per step with the state before, the event, the outputs
  and the state after, so that properties of a step may speak about what happened
  earlier.  The induction over runs is packaged once: `Run.invariant` for facts
  about the state, `Run.induction` for facts that relate state and history.

  `replay` executes a list of events of a system whose step is a function; it is
  how concrete runs are built.
-/
import Mathlib.Data.List.Induction

namespace Lame.LabelledRuns

structure System (State Event Output : Type) where
  Initial : State → Prop
  Step : State → Event → State → List Output → Prop

structure Entry (State Event Output : Type) where
  before : State
  event : Event
  outputs : List Output
  after : State

variable {State Event Output Fault : Type}

/-- `Run system history state`: the system can reach `state` with that history. -/
inductive Run (system : System State Event Output) :
    List (Entry State Event Output) → State → Prop where
  | start {state : State} (h : system.Initial state) : Run system [] state
  | step {history : List (Entry State Event Output)} {before after : State} {event : Event}
      {outputs : List Output} (hrun : Run system history before)
      (hstep : system.Step before event after outputs) :
      Run system (history ++ [⟨before, event, outputs, after⟩]) after

def Reachable (system : System State Event Output) (state : State) : Prop :=
  ∃ history, Run system history state

variable {system : System State Event Output}

theorem split_snoc {history earlier later : List (Entry State Event Output)}
    {latest entry : Entry State Event Output}
    (h : history ++ [latest] = earlier ++ entry :: later) :
    (history = earlier ∧ latest = entry ∧ later = []) ∨
      ∃ middle, later = middle ++ [latest] ∧ history = earlier ++ entry :: middle := by
  rcases List.eq_nil_or_concat later with rfl | ⟨middle, last, rfl⟩
  · obtain ⟨rfl, hentry⟩ := List.append_inj' h rfl
    exact .inl ⟨rfl, List.singleton_inj.mp hentry, rfl⟩
  · rw [List.concat_eq_append, ← List.cons_append, ← List.append_assoc] at h
    obtain ⟨rfl, hlast⟩ := List.append_inj' h rfl
    obtain rfl := List.singleton_inj.mp hlast
    exact .inr ⟨middle, List.concat_eq_append, rfl⟩

/-- `entry` is the last one of its kind in the history, and `later` what came after
    it. -/
def LastEntry (Kind : Entry State Event Output → Prop)
    (history : List (Entry State Event Output)) (entry : Entry State Event Output)
    (later : List (Entry State Event Output)) : Prop :=
  (∃ earlier, history = earlier ++ entry :: later) ∧ Kind entry ∧ ∀ other ∈ later, ¬ Kind other

section LastEntry

variable {Kind : Entry State Event Output → Prop}
  {history later : List (Entry State Event Output)} {entry latest : Entry State Event Output}

theorem LastEntry.mem (h : LastEntry Kind history entry later) : entry ∈ history := by
  obtain ⟨⟨earlier, rfl⟩, -⟩ := h
  exact List.mem_append_right _ List.mem_cons_self

theorem LastEntry.snoc (h : LastEntry Kind history entry later) (hlatest : ¬ Kind latest) :
    LastEntry Kind (history ++ [latest]) entry (later ++ [latest]) := by
  obtain ⟨⟨earlier, rfl⟩, hkind, hlater⟩ := h
  refine ⟨⟨earlier, by simp⟩, hkind, fun other hmem => ?_⟩
  rcases List.mem_append.mp hmem with hmem | hmem
  · exact hlater other hmem
  · rwa [List.mem_singleton.mp hmem]

theorem LastEntry.of_kind (hlatest : Kind latest) :
    LastEntry Kind (history ++ [latest]) latest [] :=
  ⟨⟨history, rfl⟩, hlatest, fun _ hmem => absurd hmem List.not_mem_nil⟩

/-- An entry of the kind at the end is the last one. -/
theorem LastEntry.eq_of_kind (h : LastEntry Kind (history ++ [latest]) entry later)
    (hlatest : Kind latest) : entry = latest ∧ later = [] := by
  obtain ⟨⟨earlier, hsplit⟩, -, hlater⟩ := h
  rcases split_snoc hsplit with ⟨-, rfl, rfl⟩ | ⟨middle, rfl, rfl⟩
  · exact ⟨rfl, rfl⟩
  · exact absurd hlatest (hlater _ (List.mem_append_right _ (List.mem_singleton_self _)))

/-- Behind an entry of another kind the last one is where it was. -/
theorem LastEntry.of_snoc (h : LastEntry Kind (history ++ [latest]) entry later)
    (hlatest : ¬ Kind latest) :
    ∃ middle, later = middle ++ [latest] ∧ LastEntry Kind history entry middle := by
  obtain ⟨⟨earlier, hsplit⟩, hkind, hlater⟩ := h
  rcases split_snoc hsplit with ⟨-, rfl, -⟩ | ⟨middle, rfl, rfl⟩
  · exact absurd hkind hlatest
  · exact ⟨middle, rfl, ⟨earlier, rfl⟩, hkind,
      fun other hmem => hlater other (List.mem_append_left _ hmem)⟩

theorem exists_lastEntry (h : ∃ entry ∈ history, Kind entry) :
    ∃ entry later, LastEntry Kind history entry later := by
  induction history using List.reverseRecOn with
  | nil => simp at h
  | append_singleton history latest ih =>
      by_cases hlatest : Kind latest
      · exact ⟨latest, [], .of_kind hlatest⟩
      · obtain ⟨entry, hmem, hkind⟩ := h
        have hbefore : entry ∈ history := by
          rcases List.mem_append.mp hmem with hmem | hmem
          · exact hmem
          · rw [List.mem_singleton.mp hmem] at hkind
            exact absurd hkind hlatest
        obtain ⟨last, later, hlast⟩ := ih ⟨entry, hbefore, hkind⟩
        exact ⟨last, later ++ [latest], hlast.snoc hlatest⟩

end LastEntry

/-- A relation between history and state that holds initially and is preserved by
    every step of a run holds of every run. -/
theorem Run.induction (Holds : List (Entry State Event Output) → State → Prop)
    (hinit : ∀ state, system.Initial state → Holds [] state)
    (hstep : ∀ history before event after outputs, Run system history before →
      Holds history before → system.Step before event after outputs →
      Holds (history ++ [⟨before, event, outputs, after⟩]) after)
    {history : List (Entry State Event Output)} {state : State}
    (hrun : Run system history state) : Holds history state := by
  induction hrun with
  | start h => exact hinit _ h
  | step hrun hnext ih => exact hstep _ _ _ _ _ hrun ih hnext

/-- A state predicate that holds initially and is preserved by every step holds of
    every reachable state. -/
theorem Reachable.invariant (Holds : State → Prop)
    (hinit : ∀ state, system.Initial state → Holds state)
    (hstep : ∀ before event after outputs, Holds before →
      system.Step before event after outputs → Holds after)
    {state : State} (h : Reachable system state) : Holds state := by
  obtain ⟨history, hrun⟩ := h
  exact hrun.induction (fun _ state => Holds state) hinit
    (fun _ _ _ _ _ _ hholds hnext => hstep _ _ _ _ hholds hnext)

/-- Every entry of a run is a step from the end of the run before it. -/
theorem Run.split {earlier later : List (Entry State Event Output)}
    {entry : Entry State Event Output} {state : State}
    (hrun : Run system (earlier ++ entry :: later) state) :
    Run system earlier entry.before ∧
      system.Step entry.before entry.event entry.after entry.outputs := by
  generalize hhistory : earlier ++ entry :: later = history at hrun
  induction hrun generalizing later with
  | start => exact absurd hhistory (by simp)
  | @step history before after event outputs hrun hnext ih =>
      rcases split_snoc hhistory.symm with ⟨rfl, rfl, -⟩ | ⟨middle, -, rfl⟩
      · exact ⟨hrun, hnext⟩
      · exact ih rfl

theorem Run.mono {other : System State Event Output}
    (hinit : ∀ state, system.Initial state → other.Initial state)
    (hstep : ∀ before event after outputs, system.Step before event after outputs →
      other.Step before event after outputs)
    {history : List (Entry State Event Output)} {state : State}
    (hrun : Run system history state) : Run other history state := by
  induction hrun with
  | start h => exact .start (hinit _ h)
  | step _ hnext ih => exact ih.step (hstep _ _ _ _ hnext)

/-- When a step out of a good state stays good exactly if the step is fine, a run stays
    good exactly if all its steps are fine. -/
theorem Run.forall_good_iff {Good : State → Prop} {Fine : State → Event → Prop}
    (hinit : ∀ state, system.Initial state → Good state)
    (hstep : ∀ before event after outputs, Good before →
      system.Step before event after outputs → (Good after ↔ Fine before event))
    {history : List (Entry State Event Output)} {state : State}
    (hrun : Run system history state) :
    (∀ entry ∈ history, Good entry.after) ↔ ∀ entry ∈ history, Fine entry.before entry.event := by
  -- carried along: a run that was good throughout ends in a good state
  have hboth : ((∀ entry ∈ history, Good entry.after) ↔
      ∀ entry ∈ history, Fine entry.before entry.event) ∧
      ((∀ entry ∈ history, Good entry.after) → Good state) := by
    induction hrun with
    | start h => exact ⟨by simp, fun _ => hinit _ h⟩
    | @step history before after event outputs hrun hnext ih =>
        obtain ⟨ihiff, ihgood⟩ := ih
        constructor
        · rw [List.forall_mem_append, List.forall_mem_append, List.forall_mem_singleton,
            List.forall_mem_singleton, ← ihiff]
          apply and_congr_right
          intro hearlier
          exact hstep before event after outputs (ihgood hearlier) hnext
        · intro hall
          exact hall _ (List.mem_append_right _ (List.mem_singleton_self _))
  exact hboth.1

/-! ### Goals that stay within reach -/

/-- From the state some steps with allowed events lead to a goal. -/
inductive Possibly (system : System State Event Output) (Allowed : Event → Prop)
    (Goal : State → Prop) : State → Prop where
  | here {state : State} (h : Goal state) : Possibly system Allowed Goal state
  | step {before after : State} {event : Event} {outputs : List Output}
      (hallowed : Allowed event) (hstep : system.Step before event after outputs)
      (h : Possibly system Allowed Goal after) : Possibly system Allowed Goal before

section Possibly

variable {Allowed : Event → Prop} {Goal : State → Prop} {state : State}

/-- A run can be continued to the goal. -/
theorem Possibly.exists_run (h : Possibly system Allowed Goal state)
    {history : List (Entry State Event Output)} (hrun : Run system history state) :
    ∃ more last, Run system (history ++ more) last ∧ (∀ entry ∈ more, Allowed entry.event) ∧
      Goal last := by
  induction h generalizing history with
  | @here state hgoal =>
      refine ⟨[], state, ?_, fun _ hmem => absurd hmem List.not_mem_nil, hgoal⟩
      rwa [List.append_nil]
  | @step before after event outputs hallowed hstep _ ih =>
      obtain ⟨more, last, hlast, hmore, hgoal⟩ := ih (hrun.step hstep)
      refine ⟨⟨before, event, outputs, after⟩ :: more, last, ?_, ?_, hgoal⟩
      · rwa [List.append_cons]
      · intro entry hmem
        rcases List.mem_cons.mp hmem with rfl | hmem
        · exact hallowed
        · exact hmore entry hmem

end Possibly

/-! ### Goals that cannot be missed -/

/-- Whatever steps are taken, they go on until the goal is reached, and it is reached. -/
inductive Inevitably (system : System State Event Output)
    (Goal : List (Entry State Event Output) → State → Prop) :
    List (Entry State Event Output) → State → Prop where
  | here {history : List (Entry State Event Output)} {state : State}
      (h : Goal history state) : Inevitably system Goal history state
  | step {history : List (Entry State Event Output)} {state : State}
      (hcan : ∃ event after outputs, system.Step state event after outputs)
      (hall : ∀ event after outputs, system.Step state event after outputs →
        Inevitably system Goal (history ++ [⟨state, event, outputs, after⟩]) after) :
      Inevitably system Goal history state

section Inevitably

variable {Goal Next : List (Entry State Event Output) → State → Prop}
  {history : List (Entry State Event Output)} {state : State}

theorem Inevitably.mono (h : Inevitably system Goal history state)
    (himp : ∀ history state, Goal history state → Next history state) :
    Inevitably system Next history state := by
  induction h with
  | here hgoal => exact .here (himp _ _ hgoal)
  | step hcan _ ih => exact .step hcan ih

/-- A rank that falls at every step, and no end before the goal. -/
theorem inevitably_of_rank {Holds : List (Entry State Event Output) → State → Prop}
    (rank : State → Nat)
    (hcan : ∀ history state, Holds history state → ¬ Goal history state →
      ∃ event after outputs, system.Step state event after outputs)
    (hall : ∀ history before event after outputs, Holds history before →
      ¬ Goal history before → system.Step before event after outputs →
      Holds (history ++ [⟨before, event, outputs, after⟩]) after ∧ rank after < rank before)
    (h : Holds history state) : Inevitably system Goal history state := by
  induction hrank : rank state using Nat.strongRecOn generalizing history state with
  | ind measure ih =>
      by_cases hgoal : Goal history state
      · exact .here hgoal
      · refine .step (hcan _ _ h hgoal) fun event after outputs hstep => ?_
        obtain ⟨hafter, hlt⟩ := hall _ _ _ _ _ h hgoal hstep
        exact ih (rank after) (hrank ▸ hlt) hafter rfl

end Inevitably

/-! ### Systems whose step is a function -/

/-- The system of a step function that may fault: an enabled event steps unless it
    faults. -/
def System.ofStep (initial : State → Prop) (enabled : Event → Prop)
    (step : State → Event → Except Fault (State × List Output)) :
    System State Event Output where
  Initial := initial
  Step before event after outputs := enabled event ∧ step before event = .ok (after, outputs)

/-- Execute events in order and record every step. -/
def replay (step : State → Event → Except Fault (State × List Output)) :
    State → List Event → Except Fault (List (Entry State Event Output) × State)
  | state, [] => .ok ([], state)
  | state, event :: events =>
      match step state event with
      | .error fault => .error fault
      | .ok (after, outputs) =>
          match replay step after events with
          | .error fault => .error fault
          | .ok (entries, last) => .ok (⟨state, event, outputs, after⟩ :: entries, last)

theorem Run.append_replay {initial : State → Prop} {enabled : Event → Prop}
    {step : State → Event → Except Fault (State × List Output)}
    {earlier entries : List (Entry State Event Output)} {state last : State}
    {events : List Event} (hrun : Run (System.ofStep initial enabled step) earlier state)
    (henabled : ∀ event ∈ events, enabled event)
    (hreplay : replay step state events = .ok (entries, last)) :
    Run (System.ofStep initial enabled step) (earlier ++ entries) last := by
  induction events generalizing earlier entries state with
  | nil =>
      obtain ⟨rfl, rfl⟩ := Prod.mk.inj (Except.ok.inj hreplay)
      simpa using hrun
  | cons event events ih =>
      obtain ⟨hevent, hevents⟩ := List.forall_mem_cons.mp henabled
      simp only [replay] at hreplay
      split at hreplay
      · cases hreplay
      · next after outputs hstep =>
        split at hreplay
        · cases hreplay
        · next rest final hrest =>
          obtain ⟨rfl, rfl⟩ := Prod.mk.inj (Except.ok.inj hreplay)
          have hnext := ih (Run.step hrun ⟨hevent, hstep⟩) hevents hrest
          rwa [List.append_assoc, List.singleton_append] at hnext

/-- A replay of enabled events from an initial state is a run. -/
theorem run_of_replay {initial : State → Prop} {enabled : Event → Prop}
    {step : State → Event → Except Fault (State × List Output)}
    {entries : List (Entry State Event Output)} {state last : State} {events : List Event}
    (hinit : initial state) (henabled : ∀ event ∈ events, enabled event)
    (hreplay : replay step state events = .ok (entries, last)) :
    Run (System.ofStep initial enabled step) entries last := by
  have hrun := (Run.start hinit : Run (System.ofStep initial enabled step) [] state)
  simpa using hrun.append_replay henabled hreplay

/-- A concrete run, known by what `view` shows of its history and last state. -/
theorem exists_run_of_replay {View : Type} {initial : State → Prop} {enabled : Event → Prop}
    (step : State → Event → Except Fault (State × List Output)) {state : State}
    (events : List Event) (view : List (Entry State Event Output) → State → View)
    (value : View) (hinit : initial state) (henabled : ∀ event ∈ events, enabled event)
    (hreplay : (replay step state events).toOption.map (fun result => view result.1 result.2) =
      some value) :
    ∃ history last, Run (System.ofStep initial enabled step) history last ∧
      view history last = value := by
  cases hresult : replay step state events with
  | error fault => simp [hresult, Except.toOption] at hreplay
  | ok result =>
      rw [hresult] at hreplay
      exact ⟨result.1, result.2, run_of_replay hinit henabled hresult,
        Option.some.inj hreplay⟩

end Lame.LabelledRuns
