/-
  Lame/AiWatchdog.lean
  ====================
  **The AI watchdog and the thread that would run it.**

  `QueryHeartbeatAI` reverts to Remote mode when the AI has been silent for
  `AI_TIMEOUT_INTERVAL`.  It is the loop of `aiHeartbeatThread`, which the class
  declares and the destructor joins, but `Run` does not start.  The fallback is
  enabled in a timed-out state exactly when that thread runs, so under the threads
  of `Run` it never is, and only a datagram can end AI mode.
-/
import Lame.RobotSteps

namespace Lame

open ByteMemory LabelledRuns

def Event.isDatagram : Event → Bool
  | .datagram .. => true
  | _ => false

namespace Robot

variable {imencode : Mat → Nat → Option (List UInt8)} {threads : List Thread}

/-! ## 1. The fallback -/

/-- AI mode with an AI that has been silent for too long. -/
structure TimedOut (robot : Robot) : Prop where
  isRunning : robot.isRunning = true
  mode : robot.currentMode = .ai
  silent : robot.now - robot.lastAIHeartbeatReceivedTime > AI_TIMEOUT_INTERVAL

variable (imencode threads) in
/-- Some loop of the given threads can switch to Remote mode and tell the base
    station. -/
def FallbackAvailable (robot : Robot) : Prop :=
  ∃ event next outputs, (∃ thread ∈ threads, event.thread = some thread) ∧
    event.isDatagram = false ∧ step imencode robot event = .ok (next, outputs) ∧
    next.currentMode = .remote ∧
    .udp Message.remoteSwitch.frame robot.baseStationAddr ∈ outputs

theorem Effect.currentMode_eq {robot next : Robot} {event : Event} {outputs : List Output}
    (h : Effect imencode robot event next outputs) (hquiet : event.isDatagram = false)
    (hthread : event.thread ≠ some .aiHeartbeat) : next.currentMode = robot.currentMode := by
  cases h with
  | datagram => cases hquiet
  | aiHeartbeatTimeout => exact absurd rfl hthread
  | _ => rfl

/-- **The fallback needs its thread.** -/
theorem fallbackAvailable_iff {robot : Robot} (hrunning : robot.Running)
    (htimedOut : robot.TimedOut) :
    FallbackAvailable imencode threads robot ↔ Thread.aiHeartbeat ∈ threads := by
  constructor
  · rintro ⟨event, after, outputs, ⟨thread, hmem, hthread⟩, hquiet, hstep, hremote, -⟩
    by_cases hwatchdog : event.thread = some .aiHeartbeat
    · rw [hwatchdog] at hthread
      rwa [Option.some.inj hthread]
    · obtain ⟨next, cells, rfl, -, heffect⟩ := step_cases imencode hrunning hstep
      have hsame := heffect.currentMode_eq hquiet hwatchdog
      rw [htimedOut.mode] at hsame
      exact absurd (hsame.symm.trans hremote) (by decide)
  · intro hmem
    obtain ⟨next, outputs, cells, hstep, -, heffect⟩ := step_spec imencode hrunning .aiHeartbeat
    refine ⟨.aiHeartbeat, _, outputs, ⟨_, hmem, rfl⟩, rfl, hstep, ?_⟩
    have hmode := htimedOut.mode
    have hsilent := htimedOut.silent
    cases heffect with
    | aiHeartbeatTimeout => exact ⟨rfl, List.mem_cons_self⟩
    | aiHeartbeatIdle hidle => exact absurd hmode hidle
    | aiHeartbeatQuery _ halive => omega

theorem running_of_reachable {robot : Robot}
    (h : Reachable (system imencode threads) robot) : robot.Running := by
  obtain ⟨history, hrun⟩ := h
  exact running_of_run hrun

/-- **No watchdog.**  Under the threads `Run` starts, no timed-out state has a
    fallback. -/
theorem not_fallbackAvailable {robot : Robot}
    (hreach : Reachable (system imencode startedThreads) robot) (htimedOut : robot.TimedOut) :
    ¬ FallbackAvailable imencode startedThreads robot := by
  rw [fallbackAvailable_iff (running_of_reachable hreach) htimedOut]
  decide

/-- The switch to AI mode, then six seconds without an AI. -/
theorem exists_timedOut : ∃ robot : Robot,
    Reachable (system (fun _ _ => none) startedThreads) robot ∧ robot.TimedOut := by
  obtain ⟨history, robot, hrun, hview⟩ := exists_started_run (fun _ _ => none)
    [datagramOf (.noPayload AI_SWITCH_OPCODE) BASE_STATION, .tick 6]
    (fun (_ : List Record) robot => (robot.isRunning, robot.currentMode, robot.now,
      robot.lastAIHeartbeatReceivedTime)) (true, .ai, 6, 0) (by decide) (by decide)
  simp only [Prod.mk.injEq] at hview
  obtain ⟨hrunning, hmode, hnow, htime⟩ := hview
  exact ⟨robot, ⟨history, hrun⟩, hrunning, hmode, by rw [hnow, htime]; decide⟩

theorem not_fallbackAvailable_after_six_seconds : ∃ robot : Robot,
    Reachable (system (fun _ _ => none) startedThreads) robot ∧ robot.TimedOut ∧
      ¬ FallbackAvailable (fun _ _ => none) startedThreads robot := by
  obtain ⟨robot, hreach, htimedOut⟩ := exists_timedOut
  exact ⟨robot, hreach, htimedOut, not_fallbackAvailable hreach htimedOut⟩

theorem not_always_fallbackAvailable :
    ¬ ∀ (imencode : Mat → Nat → Option (List UInt8)) (robot : Robot),
      Reachable (system imencode startedThreads) robot → robot.TimedOut →
      FallbackAvailable imencode startedThreads robot := by
  intro hclaim
  obtain ⟨robot, hreach, htimedOut⟩ := exists_timedOut
  have hmem := (fallbackAvailable_iff (running_of_reachable hreach) htimedOut).mp
    (hclaim _ robot hreach htimedOut)
  exact absurd hmem (by decide)

/-! ## 2. Stuck until a datagram arrives -/

/-- The robot from a given state on, with nothing arriving at its socket. -/
def quiet (imencode : Mat → Nat → Option (List UInt8)) (robot : Robot) :
    System Robot Event Output :=
  System.ofStep (· = robot)
    (fun event => event.isDatagram = false ∧ ∀ thread ∈ event.thread, thread ∈ startedThreads)
    (step imencode)

/-- However long it runs by itself, a robot in AI mode stays in AI mode. -/
theorem currentMode_of_quiet {robot later : Robot} (hrunning : robot.Running)
    (hmode : robot.currentMode = .ai) (h : Reachable (quiet imencode robot) later) :
    later.currentMode = .ai := by
  have hinvariant : later.Running ∧ later.currentMode = .ai := by
    refine h.invariant (fun later => later.Running ∧ later.currentMode = .ai)
      (by rintro _ rfl; exact ⟨hrunning, hmode⟩) ?_
    rintro before event after outputs ⟨hbefore, hai⟩ ⟨⟨hquiet, hthreads⟩, hstep⟩
    obtain ⟨next, cells, rfl, hcells, heffect⟩ := step_cases imencode hbefore hstep
    refine ⟨⟨heffect.isRunning_eq.trans hbefore.isRunning, hcells⟩, ?_⟩
    refine (heffect.currentMode_eq hquiet fun hwatchdog => ?_).trans hai
    exact absurd (hthreads _ hwatchdog) (by decide)
  exact hinvariant.2

end Robot

end Lame
