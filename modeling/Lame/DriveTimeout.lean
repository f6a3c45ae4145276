/-
  Lame/DriveTimeout.lean
  ======================
  **How old a drive command can be when `Execute` writes it.**

  In Remote mode `Execute` replays `latestDrivePayload` until
  `lastDrivePayloadReceivedTime` is more than two seconds old.  The command is
  written by DRIVE only, the time by DRIVE and by REMOTE_SWITCH, so a switch makes
  an old command young again.  `Remembers` ties the two fields to the history of
  the run; from it follows exactly when a run replays no command older than the
  timeout.
-/
import Lame.RobotSteps

namespace Lame

open ByteMemory LabelledRuns

namespace Robot

variable {imencode : Mat → Nat → Option (List UInt8)} {threads : List Thread}

/-! ## 1. The two fields that carry a command -/

theorem Effect.command_cases {robot next : Robot} {event : Event} {outputs : List Output}
    (h : Effect imencode robot event next outputs) :
    (event.requested = some DRIVE_OPCODE ∧ next.lastDrivePayloadReceivedTime = robot.now ∧
      ∀ left right, event.carried = some (left, right) →
        next.latestDrivePayload.left = left ∧ next.latestDrivePayload.right = right) ∨
    (event.requested = some REMOTE_SWITCH_OPCODE ∧
      next.lastDrivePayloadReceivedTime = robot.now ∧
      next.latestDrivePayload = robot.latestDrivePayload) ∨
    (event.requested ≠ some DRIVE_OPCODE ∧ event.requested ≠ some REMOTE_SWITCH_OPCODE ∧
      next.lastDrivePayloadReceivedTime = robot.lastDrivePayloadReceivedTime ∧
      next.latestDrivePayload = robot.latestDrivePayload) := by
  cases h with
  | @datagram bytes sender leftovers link _ _ hhandles =>
      have hother {opcode : UInt8} (hop : requestedOpcode bytes = some opcode)
          (hdrive : opcode ≠ DRIVE_OPCODE) (hswitch : opcode ≠ REMOTE_SWITCH_OPCODE) :
          requestedOpcode bytes ≠ some DRIVE_OPCODE ∧
            requestedOpcode bytes ≠ some REMOTE_SWITCH_OPCODE := by
        rw [hop]
        exact ⟨fun h => hdrive (Option.some.inj h), fun h => hswitch (Option.some.inj h)⟩
      cases hhandles with
      | drive payload hop hcarried => exact .inl ⟨hop, heardFrom_now _ _, hcarried⟩
      | remoteSwitch hop => exact .inr (.inl ⟨hop, by simp, by simp⟩)
      | ignored hop =>
          exact .inr (.inr ⟨fun h => hop _ h (by decide), fun h => hop _ h (by decide),
            by simp, by simp⟩)
      | queryCameraImage id hop =>
          rcases hop with ⟨-, hop⟩ | ⟨-, hop⟩ <;>
            exact .inr (.inr ⟨(hother hop (by decide) (by decide)).1,
              (hother hop (by decide) (by decide)).2, by simp, by simp⟩)
      | encoder hop =>
          rcases hop with hop | hop <;>
            exact .inr (.inr ⟨(hother hop (by decide) (by decide)).1,
              (hother hop (by decide) (by decide)).2, by simp, by simp⟩)
      | queryHeartbeat hop | queryHeartbeatAi hop | aiSwitch hop | directSwitch hop
      | setCameraQuality _ _ hop =>
          exact .inr (.inr ⟨(hother hop (by decide) (by decide)).1,
            (hother hop (by decide) (by decide)).2, by simp, by simp⟩)
  | _ => exact .inr (.inr ⟨by simp [Event.requested], by simp [Event.requested], rfl, rfl⟩)

theorem Event.requested_of_carried {event : Event} {values : Int8 × Int8}
    (h : event.carried = some values) : event.requested = some DRIVE_OPCODE := by
  cases event with
  | datagram bytes sender leftovers link => exact (carriedDrive_eq_some h).1
  | _ => cases h

/-- `drive` is the last DRIVE of the history, and `later` what came after it. -/
abbrev LastDrive : List Record → Record → List Record → Prop :=
  LastEntry fun record => record.event.requested = some DRIVE_OPCODE

/-- How the history of a run determines the stored command and its time. -/
structure Remembers (history : List Record) (robot : Robot) : Prop where
  /-- Before the first DRIVE the robot holds the zeroed command. -/
  never : (∀ record ∈ history, record.event.requested ≠ some DRIVE_OPCODE) →
    robot.latestDrivePayload = ZERO_DRIVE
  /-- The stored command is the one of the last DRIVE. -/
  command : ∀ drive later, LastDrive history drive later →
    ∀ left right, drive.event.carried = some (left, right) →
      robot.latestDrivePayload.left = left ∧ robot.latestDrivePayload.right = right
  /-- The time is that of the last DRIVE or of a switch after it, -/
  time : ∀ drive later, LastDrive history drive later →
    robot.lastDrivePayloadReceivedTime = drive.before.now ∨
      ∃ switch ∈ later, switch.event.requested = some REMOTE_SWITCH_OPCODE ∧
        robot.lastDrivePayloadReceivedTime = switch.before.now
  /-- and no switch is later. -/
  switch_le : ∀ switch ∈ history, switch.event.requested = some REMOTE_SWITCH_OPCODE →
    switch.before.now ≤ robot.lastDrivePayloadReceivedTime

theorem Remembers.snoc {history : List Record} {robot next after : Robot} {event : Event}
    {outputs : List Output} (h : Remembers history robot)
    (hpast : ∀ record ∈ history, record.before.now ≤ robot.now)
    (heffect : Effect imencode robot event next outputs) :
    Remembers (history ++ [⟨robot, event, outputs, after⟩]) next := by
  have hrenewed (htime : next.lastDrivePayloadReceivedTime = robot.now) :
      ∀ switch ∈ history ++ [⟨robot, event, outputs, after⟩],
        switch.before.now ≤ next.lastDrivePayloadReceivedTime := by
    intro switch hmem
    rw [htime]
    rcases List.mem_append.mp hmem with hmem | hmem
    · exact hpast switch hmem
    · obtain rfl := List.mem_singleton.mp hmem
      exact Int.le_refl _
  have hkept (hnot : event.requested ≠ some DRIVE_OPCODE)
      (hcommand : next.latestDrivePayload = robot.latestDrivePayload) :
      ((∀ record ∈ history ++ [⟨robot, event, outputs, after⟩],
        record.event.requested ≠ some DRIVE_OPCODE) → next.latestDrivePayload = ZERO_DRIVE) ∧
      ∀ drive later, LastDrive (history ++ [⟨robot, event, outputs, after⟩]) drive later →
        ∀ left right, drive.event.carried = some (left, right) →
          next.latestDrivePayload.left = left ∧ next.latestDrivePayload.right = right := by
    rw [hcommand]
    refine ⟨fun hnone => h.never fun record hmem => hnone record (List.mem_append_left _ hmem), ?_⟩
    intro drive later hlast
    obtain ⟨middle, -, hbefore⟩ := hlast.of_snoc hnot
    exact h.command drive middle hbefore
  rcases heffect.command_cases with
    ⟨hop, htime, hcommand⟩ | ⟨hop, htime, hcommand⟩ | ⟨hdrive, hswitch, htime, hcommand⟩
  · -- a DRIVE is the last one, with nothing after it
    refine ⟨fun hnone => absurd hop (hnone ⟨robot, event, outputs, after⟩ (by simp)), ?_, ?_,
      fun switch hmem _ => hrenewed htime switch hmem⟩
    · intro drive later hlast
      rw [(hlast.eq_of_kind hop).1]
      exact hcommand
    · intro drive later hlast
      rw [(hlast.eq_of_kind hop).1]
      exact .inl htime
  · -- a REMOTE_SWITCH renews the time of the command that is there
    have hnot : event.requested ≠ some DRIVE_OPCODE := by
      rw [hop]
      decide
    obtain ⟨hnever, hstored⟩ := hkept hnot hcommand
    refine ⟨hnever, hstored, ?_, fun switch hmem _ => hrenewed htime switch hmem⟩
    intro drive later hlast
    obtain ⟨middle, rfl, -⟩ := hlast.of_snoc hnot
    exact .inr ⟨_, List.mem_append_right _ (List.mem_singleton_self _), hop, htime⟩
  · obtain ⟨hnever, hstored⟩ := hkept hdrive hcommand
    refine ⟨hnever, hstored, ?_, ?_⟩
    · intro drive later hlast
      obtain ⟨middle, rfl, hbefore⟩ := hlast.of_snoc hdrive
      rw [htime]
      rcases h.time drive middle hbefore with hsame | ⟨switch, hmem, hrequest⟩
      · exact .inl hsame
      · exact .inr ⟨switch, List.mem_append_left _ hmem, hrequest⟩
    · intro switch hmem hrequest
      rw [htime]
      rcases List.mem_append.mp hmem with hmem | hmem
      · exact h.switch_le switch hmem hrequest
      · rw [List.mem_singleton.mp hmem] at hrequest
        exact absurd hrequest hswitch

theorem remembers_of_run {history : List Record} {robot : Robot}
    (hrun : Run (system imencode threads) history robot) : Remembers history robot := by
  refine induction_of_effect Remembers ?_ ?_ ?_ hrun
  · rintro robot ⟨ai_port, now, threads, hstarted⟩
    obtain ⟨-, rfl, -⟩ := run_eq_some_iff.mp hstarted
    refine ⟨fun _ => rfl, ?_, ?_, by simp⟩ <;> rintro drive later ⟨⟨earlier, hsplit⟩, -⟩ <;>
      simp at hsplit
  · exact fun _ _ _ h => ⟨h.never, h.command, h.time, h.switch_le⟩
  · exact fun _ _ _ _ _ hbefore h heffect _ => h.snoc (now_le_of_run hbefore) heffect

/-! ## 2. The timeout -/

/-- Every Remote frame that moves a track repeats a DRIVE handled at most two
    seconds before. -/
def FreshDrives (history : List Record) : Prop :=
  ∀ earlier record later, history = earlier ++ record :: later →
    ∀ js leftovers, record.event = .execute js leftovers →
    record.before.currentMode = .remote →
    ∀ payload : DrivePayload, .serial (Message.drive payload).frame ∈ record.outputs →
    payload.left ≠ 0 ∨ payload.right ≠ 0 →
    ∃ drive ∈ earlier, drive.event.carried = some (payload.left, payload.right) ∧
      drive.before.now ≤ record.before.now ∧ record.before.now - drive.before.now ≤ 2

/-- Some Remote iteration of `Execute` comes more than two seconds after the last
    DRIVE, which moves a track, and at most two seconds after a switch. -/
def RefreshesStale (history : List Record) : Prop :=
  ∃ earlier record later, history = earlier ++ record :: later ∧
    (∃ js leftovers, record.event = .execute js leftovers) ∧
    record.before.currentMode = .remote ∧
    ∃ drive since, LastDrive earlier drive since ∧
      (∃ left right, drive.event.carried = some (left, right) ∧ (left ≠ 0 ∨ right ≠ 0)) ∧
      record.before.now - drive.before.now > 2 ∧
      ∃ switch ∈ since, switch.event.requested = some REMOTE_SWITCH_OPCODE ∧
        record.before.now - switch.before.now ≤ 2

theorem Effect.remote_outputs {robot next : Robot} {event : Event} {outputs : List Output}
    (h : Effect imencode robot event next outputs) {js : Joystick} {leftovers : DrivePayload}
    (hevent : event = .execute js leftovers) (hmode : robot.currentMode = .remote) :
    outputs = [.serial (Message.drive robot.remotePayload).frame] := by
  cases h with
  | executeRemote => rfl
  | executeDirect _ _ hdirect => rw [hmode] at hdirect; cases hdirect
  | executeIdle _ _ hidle =>
      rcases hidle with ⟨hdirect, -⟩ | hai
      · rw [hmode] at hdirect; cases hdirect
      · rw [hmode] at hai; cases hai
  | _ => cases hevent

theorem drive_frame_injective {first second : DrivePayload}
    (h : (Message.drive first).frame = (Message.drive second).frame) : first = second := by
  have hbody : (Message.drive first).body = (Message.drive second).body := by
    rw [← Message.decoded_frame, h, Message.decoded_frame]
  have hparse := congrArg (fun bytes => parseDrivePayload (some (bytes.drop 3)) ZERO_DRIVE) hbody
  exact Except.ok.inj hparse

theorem remotePayload_of_moving {robot : Robot}
    (h : robot.remotePayload.left ≠ 0 ∨ robot.remotePayload.right ≠ 0) :
    robot.now - robot.lastDrivePayloadReceivedTime ≤ 2 ∧
      robot.remotePayload = robot.latestDrivePayload := by
  rw [remotePayload] at h ⊢
  split at h
  · simp at h
  · next hfresh => exact ⟨Int.not_lt.mp hfresh, if_neg hfresh⟩

/-- A run whose DRIVE datagrams carry both tracks and that refreshes no stale command
    keeps to the timeout. -/
theorem freshDrives_of_not_refreshesStale {history : List Record} {robot : Robot}
    (hrun : Run (system imencode threads) history robot)
    (hcarried : ∀ record ∈ history, record.event.requested = some DRIVE_OPCODE →
      record.event.carried ≠ none)
    (hstale : ¬ RefreshesStale history) : FreshDrives history := by
  rintro earlier record later rfl js leftovers hevent hmode payload hwritten hmoves
  obtain ⟨next, heffect⟩ := effect_of_run hrun
  obtain ⟨hbefore, -⟩ := hrun.split
  have hremembers := remembers_of_run hbefore
  have hpast := now_le_of_run hbefore
  rw [heffect.remote_outputs hevent hmode, List.mem_singleton, Output.serial.injEq] at hwritten
  obtain rfl := drive_frame_injective hwritten
  obtain ⟨hfresh, hcommand⟩ := remotePayload_of_moving hmoves
  rw [hcommand] at hmoves ⊢
  by_cases hdrive : ∃ drive ∈ earlier, drive.event.requested = some DRIVE_OPCODE
  · obtain ⟨drive, since, hlast⟩ := exists_lastEntry hdrive
    have hmem := hlast.mem
    obtain ⟨⟨left, right⟩, hvalues⟩ := Option.ne_none_iff_exists'.mp
      (hcarried drive (List.mem_append_left _ hmem) hlast.2.1)
    obtain ⟨hleft, hright⟩ := hremembers.command drive since hlast left right hvalues
    rw [hleft, hright] at hmoves ⊢
    refine ⟨drive, hmem, hvalues, hpast drive hmem, ?_⟩
    rcases hremembers.time drive since hlast with hsame | ⟨switch, hswitch, hrequest, htime⟩
    · rwa [← hsame]
    · by_contra hold
      exact hstale ⟨earlier, record, later, rfl, ⟨js, leftovers, hevent⟩, hmode, drive, since,
        hlast, ⟨left, right, hvalues, hmoves⟩, by omega, switch, hswitch, hrequest, by omega⟩
  · -- no DRIVE at all: the stored command is the zeroed one
    have hzero := hremembers.never fun record hmem hrequest => hdrive ⟨record, hmem, hrequest⟩
    rw [hzero] at hmoves
    rcases hmoves with hmoves | hmoves <;> exact absurd rfl hmoves

/-- A refreshed stale command is replayed. -/
theorem not_freshDrives_of_refreshesStale {history : List Record} {robot : Robot}
    (hrun : Run (system imencode threads) history robot) (hstale : RefreshesStale history) :
    ¬ FreshDrives history := by
  intro hfresh
  obtain ⟨earlier, record, later, rfl, ⟨js, leftovers, hevent⟩, hmode, drive, since, hlast,
    ⟨left, right, hvalues, hmoves⟩, hold, switch, hswitch, hrequest, hrecent⟩ := hstale
  obtain ⟨next, heffect⟩ := effect_of_run hrun
  obtain ⟨hbefore, -⟩ := hrun.split
  have hremembers := remembers_of_run hbefore
  obtain ⟨hleft, hright⟩ := hremembers.command drive since hlast left right hvalues
  obtain ⟨⟨front, rfl⟩, hdrive, hsince⟩ := hlast
  have htime := hremembers.switch_le switch
    (List.mem_append_right _ (List.mem_cons_of_mem _ hswitch)) hrequest
  have hpayload : record.before.remotePayload = record.before.latestDrivePayload :=
    if_neg (by omega)
  obtain ⟨other, hmem, hother, -, hyoung⟩ := hfresh _ record later rfl js leftovers hevent hmode
    record.before.remotePayload
    (by rw [heffect.remote_outputs hevent hmode]; exact List.mem_singleton_self _)
    (by rw [hpayload, hleft, hright]; exact hmoves)
  -- every DRIVE of the history is the last one or older than it
  have hother := Event.requested_of_carried hother
  rcases List.mem_append.mp hmem with hmem | hmem
  · have := now_le_of_run hbefore.split.1 other hmem
    omega
  · rcases List.mem_cons.mp hmem with rfl | hmem
    · omega
    · exact hsince other hmem hother

/-- **The drive timeout**: in a run whose DRIVE datagrams carry both tracks, no
    command older than two seconds is replayed exactly when no Remote iteration
    falls into the two seconds after a switch that found an old command. -/
theorem freshDrives_iff {history : List Record} {robot : Robot}
    (hrun : Run (system imencode threads) history robot)
    (hcarried : ∀ record ∈ history, record.event.requested = some DRIVE_OPCODE →
      record.event.carried ≠ none) :
    FreshDrives history ↔ ¬ RefreshesStale history :=
  ⟨fun hfresh hstale => not_freshDrives_of_refreshesStale hrun hstale hfresh,
    freshDrives_of_not_refreshesStale hrun hcarried⟩

/-! ## 3. A stale command replayed -/

/-- A DRIVE, a hundred seconds of silence, the switch, one iteration of `Execute`. -/
def staleEvents : List Event :=
  [datagramOf (.drive ⟨50, 0, 0, 0, 0⟩) BASE_STATION, .tick 100,
    datagramOf .remoteSwitch BASE_STATION, .execute ⟨[], none, none⟩ ZERO_DRIVE]

theorem exists_stale_run : ∃ (history : List Record) (robot : Robot),
    Run (system (fun _ _ => none) startedThreads) history robot ∧
      (∀ record ∈ history, record.event.requested = some DRIVE_OPCODE →
        record.event.carried ≠ none) ∧ RefreshesStale history := by
  obtain ⟨history, robot, hrun, hviews⟩ := exists_started_run (fun _ _ => none) staleEvents
    (fun (history : List Record) _ => history.map fun record =>
      (record.event, record.before.now, record.before.currentMode))
    [(datagramOf (.drive ⟨50, 0, 0, 0, 0⟩) BASE_STATION, 0, .direct), (.tick 100, 0, .direct),
      (datagramOf .remoteSwitch BASE_STATION, 100, .direct),
      (.execute ⟨[], none, none⟩ ZERO_DRIVE, 100, .remote)]
    (by decide) (by decide)
  obtain ⟨drive, history, rfl, hdrive, hviews⟩ := List.map_eq_cons_iff.mp hviews
  obtain ⟨tick, history, rfl, htick, hviews⟩ := List.map_eq_cons_iff.mp hviews
  obtain ⟨switch, history, rfl, hswitch, hviews⟩ := List.map_eq_cons_iff.mp hviews
  obtain ⟨execute, history, rfl, hexecute, hviews⟩ := List.map_eq_cons_iff.mp hviews
  obtain rfl := List.map_eq_nil_iff.mp hviews
  simp only [Prod.mk.injEq] at hdrive htick hswitch hexecute
  obtain ⟨hdrive, hdriveTime, -⟩ := hdrive
  obtain ⟨htick, -, -⟩ := htick
  obtain ⟨hswitch, hswitchTime, -⟩ := hswitch
  obtain ⟨hexecute, hexecuteTime, hmode⟩ := hexecute
  refine ⟨_, robot, hrun, ?_, [drive, tick, switch], execute, [], rfl, ⟨_, _, hexecute⟩, hmode,
    drive, [tick, switch],
    ⟨⟨[], rfl⟩, show drive.event.requested = _ by rw [hdrive]; decide, ?_⟩,
    ⟨50, 0, by rw [hdrive]; decide, by decide⟩, by rw [hdriveTime, hexecuteTime]; decide,
    switch, by simp, by rw [hswitch]; decide, by rw [hswitchTime, hexecuteTime]; decide⟩
  · intro record hmem hrequest
    simp only [List.mem_cons, List.not_mem_nil, or_false] at hmem
    rcases hmem with rfl | rfl | rfl | rfl
    · rw [hdrive]; decide
    · rw [htick] at hrequest; cases hrequest
    · rw [hswitch] at hrequest; exact absurd hrequest (by decide)
    · rw [hexecute] at hrequest; cases hrequest
  · intro record hmem
    simp only [List.mem_cons, List.not_mem_nil, or_false] at hmem
    change record.event.requested ≠ _
    rcases hmem with rfl | rfl
    · rw [htick]; decide
    · rw [hswitch]; decide

theorem freshDrives_iff_stale_run : ∃ (history : List Record) (robot : Robot),
    Run (system (fun _ _ => none) startedThreads) history robot ∧
      RefreshesStale history ∧ ¬ FreshDrives history := by
  obtain ⟨history, robot, hrun, hcarried, hstale⟩ := exists_stale_run
  exact ⟨history, robot, hrun, hstale,
    fun hfresh => (freshDrives_iff hrun hcarried).mp hfresh hstale⟩

/-- The robot drives on at 50 although the command is a hundred seconds old. -/
theorem not_freshDrives_of_run : ¬ ∀ (imencode : Mat → Nat → Option (List UInt8))
    (history : List Record) (robot : Robot),
    Run (system imencode startedThreads) history robot → FreshDrives history := by
  intro hclaim
  obtain ⟨history, robot, hrun, -, hstale⟩ := exists_stale_run
  exact not_freshDrives_of_refreshesStale hrun hstale (hclaim _ history robot hrun)

end Robot

end Lame
