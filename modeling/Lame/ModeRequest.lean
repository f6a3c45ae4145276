/-
  Lame/ModeRequest.lean
  =====================
  **A mode request from the list box to the robot and back.**

  The mode is chosen by `GetDriveMode`, its datagram by `ConnectingWorker`, its
  effect by the robot's `switch`.  For Remote the three tables agree: the robot
  switches and its acknowledgement sets the flag.  For AI the datagram is AI_INIT,
  which the robot has no `case` for, so nothing happens and nothing is answered.
-/
import Lame.MainWindow
import Lame.RobotSteps

namespace Lame

open ByteMemory LabelledRuns PacketHandler

namespace MainWindow

/-! ## 1. The base station's side -/

/-- `GetDriveMode` can store the mode for some selection. -/
def Selectable (mode : DriveMode) : Prop :=
  ∃ (selectedIndex : Int) (old : DriveMode), getDriveMode selectedIndex old = (true, mode)

/-- The item "Direct Drive" is not in the list. -/
theorem selectable_iff (mode : DriveMode) : Selectable mode ↔ mode = .remote ∨ mode = .ai := by
  constructor
  · rintro ⟨selectedIndex, old, hmode⟩
    rw [getDriveMode] at hmode
    split at hmode
    · cases hmode
    · next hrange =>
      have hindex : selectedIndex = 0 ∨ selectedIndex = 1 := by
        simp only [ROBOT_MODE_ITEMS, List.length_cons, List.length_nil] at hrange
        omega
      rcases hindex with rfl | rfl
      · exact .inl (Prod.mk.inj hmode).2.symm
      · exact .inr (Prod.mk.inj hmode).2.symm
  · rintro (rfl | rfl)
    · exact ⟨0, .direct, rfl⟩
    · exact ⟨1, .direct, rfl⟩

theorem modeRequest_remote : modeRequest .remote = .ok Message.remoteSwitch.frame :=
  Request.packet_eq .remoteSwitch

theorem modeRequest_ai : modeRequest .ai = .ok Message.aiInit.frame :=
  Request.packet_eq .aiInit

def Acknowledges (buffer : List UInt8) : Prop :=
  ∀ (window : MainWindow) (now : Int), ∃ result,
    window.packetReceiveCallback buffer now = .ok result ∧
      result.window.receivedDriveModeAck = true

theorem acknowledges_switchModeAck : Acknowledges Message.switchModeAck.frame := by
  intro window now
  rw [packetReceiveCallback, getPacketOpcode_frame rfl, ok_bind]
  exact ⟨_, rfl, rfl⟩

/-! ## 2. The robot's side -/

variable (imencode : Mat → Nat → Option (List UInt8))

/-- The robot handles the request for a mode that comes from the base station: it
    ends up in that mode and sends the base station an acknowledgement. -/
def TakesEffect (robot : Robot) (base : SockAddr) (mode : DriveMode) : Prop :=
  ∃ bytes, modeRequest mode = .ok bytes ∧
    ∀ (leftovers : Leftovers) (link : ImageLink), ∃ after outputs,
      robot.step imencode (.datagram bytes base leftovers link) = .ok (after, outputs) ∧
      after.currentMode = mode ∧
      ∃ reply, .udp reply (some base) ∈ outputs ∧ Acknowledges reply

variable {imencode}

theorem not_takesEffect_ai {robot : Robot} (hrunning : robot.Running) (base : SockAddr) :
    ¬ TakesEffect imencode robot base .ai := by
  rintro ⟨bytes, hbytes, hhandled⟩
  obtain rfl := Except.ok.inj (modeRequest_ai.symm.trans hbytes)
  obtain ⟨after, outputs, hstep, -, reply, hreply, -⟩ :=
    hhandled ⟨ZERO_DRIVE, ⟨0⟩⟩ ⟨true, true⟩
  obtain ⟨next, cells, -, -, heffect⟩ := Robot.step_cases imencode hrunning hstep
  have hunknown : ∀ opcode ∈ requestedOpcode Message.aiInit.frame, opcode ∉ HANDLED_OPCODES := by
    rw [Message.requestedOpcode_frame rfl]
    intro opcode hmem
    rw [← Option.some.inj hmem]
    decide
  cases heffect with
  | datagram hhandles =>
      rw [(hhandles.of_ignored hunknown).2] at hreply
      cases hreply

/-- A Remote request takes effect when its sender is not the AI's socket. -/
theorem takesEffect_remote {robot : Robot} (hrunning : robot.Running) {base : SockAddr}
    (hbase : robot.isFromAi base = false) : TakesEffect imencode robot base .remote := by
  refine ⟨_, modeRequest_remote, fun leftovers link => ?_⟩
  obtain ⟨next, outputs, cells, hstep, -, heffect⟩ := Robot.step_spec imencode hrunning
    (.datagram Message.remoteSwitch.frame base leftovers link)
  refine ⟨_, outputs, hstep, ?_⟩
  cases heffect with
  | datagram hhandles =>
      obtain ⟨hmode, houtputs⟩ := hhandles.of_remoteSwitch (Message.requestedOpcode_frame rfl)
      have hheard : (robot.heardFrom base).baseStationAddr = some base := by
        rw [Robot.heardFrom, if_neg (by rw [hbase]; decide)]
      rw [hheard] at houtputs
      refine ⟨hmode, _, ?_, acknowledges_switchModeAck⟩
      rw [houtputs]
      exact List.mem_singleton_self _

/-- From the AI's own socket the acknowledgement goes to whoever is known as the base
    station, which that socket never is. -/
theorem not_takesEffect_remote {history : List Robot.Record} {robot : Robot}
    {threads : List Thread} (hrun : Run (Robot.system imencode threads) history robot)
    {base : SockAddr} (hai : robot.isFromAi base = true) :
    ¬ TakesEffect imencode robot base .remote := by
  rintro ⟨bytes, hbytes, hhandled⟩
  obtain rfl := Except.ok.inj (modeRequest_remote.symm.trans hbytes)
  obtain ⟨after, outputs, hstep, -, reply, hreply, -⟩ :=
    hhandled ⟨ZERO_DRIVE, ⟨0⟩⟩ ⟨true, true⟩
  obtain ⟨next, cells, -, -, heffect⟩ :=
    Robot.step_cases imencode (Robot.running_of_run hrun) hstep
  cases heffect with
  | datagram hhandles =>
      rw [(hhandles.of_remoteSwitch (Message.requestedOpcode_frame rfl)).2, Robot.heardFrom,
        if_pos hai, List.mem_singleton] at hreply
      have hknown := Robot.baseStationAddr_of_run hrun base (Output.udp.inj hreply).2.symm
      rw [hai] at hknown
      cases hknown

/-- **Which mode requests take effect**: of the selectable modes, Remote, requested
    from a socket that is not the AI's. -/
theorem takesEffect_iff {history : List Robot.Record} {robot : Robot} {threads : List Thread}
    (hrun : Run (Robot.system imencode threads) history robot) {mode : DriveMode}
    (hmode : Selectable mode) (base : SockAddr) :
    TakesEffect imencode robot base mode ↔ mode = .remote ∧ robot.isFromAi base = false := by
  have hrunning := Robot.running_of_run hrun
  rcases (selectable_iff mode).mp hmode with rfl | rfl
  · refine ⟨fun htakes => ⟨rfl, ?_⟩, fun h => takesEffect_remote hrunning h.2⟩
    by_contra hai
    exact not_takesEffect_remote hrun (by simpa using hai) htakes
  · exact ⟨fun htakes => absurd htakes (not_takesEffect_ai hrunning base),
      fun h => by cases h.1⟩

theorem exists_started : ∃ robot : Robot,
    Run (Robot.system (fun _ _ => none) Robot.startedThreads) [] robot ∧
      robot.isFromAi BASE_STATION = false :=
  ⟨{ Robot.create 6000 0 with isRunning := true },
    .start (Robot.started_create 6000 0), by decide⟩

theorem takesEffect_iff_started : ∃ robot : Robot,
    TakesEffect (fun _ _ => none) robot BASE_STATION .remote := by
  obtain ⟨robot, hrun, hbase⟩ := exists_started
  exact ⟨robot, (takesEffect_iff hrun ((selectable_iff .remote).mpr (.inl rfl))
    BASE_STATION).mpr ⟨rfl, hbase⟩⟩

/-- The AI entry of the list has no effect on a robot that has just started. -/
theorem not_forall_takesEffect : ¬ ∀ (imencode : Mat → Nat → Option (List UInt8))
    (history : List Robot.Record) (robot : Robot) (mode : DriveMode) (base : SockAddr),
    Run (Robot.system imencode Robot.startedThreads) history robot → Selectable mode →
    robot.isFromAi base = false → TakesEffect imencode robot base mode := by
  intro hclaim
  obtain ⟨robot, hrun, hbase⟩ := exists_started
  exact not_takesEffect_ai (Robot.running_of_run hrun) BASE_STATION
    (hclaim _ _ robot .ai BASE_STATION hrun ((selectable_iff .ai).mpr (.inr rfl)) hbase)

end MainWindow

end Lame
