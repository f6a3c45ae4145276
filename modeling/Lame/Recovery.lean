/-
  Lame/Recovery.lean
  ==================
  **No dead end for the operator.**

  As long as the window receives, a session for Remote mode can be established from every
  reachable state, whatever the connection thread is doing and whatever the network still
  holds, and then any command reaches the serial line.  The continuation consists of
  presses of Go, one command, steps of the connection thread and deliveries.
-/
import Lame.OperatorControl
import Lame.Session

namespace Lame

open ByteMemory LabelledRuns PacketHandler MainWindow

namespace Robot

variable {imencode : Mat → Nat → Option (List UInt8)} {robot next : Robot}
  {datagram : List UInt8} {addr : SockAddr} {link : ImageLink} {outputs : List Output}

/-! ## 1. The robot's side -/

theorem Handles.of_queryHeartbeat (h : Handles imencode robot datagram addr link next outputs)
    (hop : requestedOpcode datagram = some QUERY_HEARTBEAT_OPCODE)
    (hbase : robot.isFromAi addr = false) :
    next = robot.heardFrom addr ∧ outputs = [.udp Message.reportHeartbeat.frame (some addr)] := by
  have hother {opcode : UInt8} (h : requestedOpcode datagram = some opcode)
      (hne : opcode ≠ QUERY_HEARTBEAT_OPCODE) : False :=
    hne (Option.some.inj (h.symm.trans hop))
  cases h with
  | queryHeartbeat => exact ⟨rfl, rfl⟩
  | queryHeartbeatAi _ hai => cases hbase.symm.trans hai
  | ignored hunknown => exact absurd (by decide) (hunknown _ hop)
  | queryCameraImage id hop' =>
      rcases hop' with ⟨-, hop'⟩ | ⟨-, hop'⟩
      · exact (hother hop' (by decide)).elim
      · exact (hother hop' (by decide)).elim
  | encoder hop' =>
      rcases hop' with hop' | hop'
      · exact (hother hop' (by decide)).elim
      · exact (hother hop' (by decide)).elim
  | aiSwitch hop' | remoteSwitch hop' | directSwitch hop' | setCameraQuality _ _ hop'
  | drive _ hop' => exact (hother hop' (by decide)).elim

theorem Handles.of_drive (h : Handles imencode robot datagram addr link next outputs)
    (hop : requestedOpcode datagram = some DRIVE_OPCODE) :
    next.currentMode = robot.currentMode ∧ next.now = robot.now ∧
      next.lastDrivePayloadReceivedTime = robot.now ∧ outputs = [] := by
  have hother {opcode : UInt8} (h : requestedOpcode datagram = some opcode)
      (hne : opcode ≠ DRIVE_OPCODE) : False :=
    hne (Option.some.inj (h.symm.trans hop))
  have hheard : (robot.heardFrom addr).currentMode = robot.currentMode := by
    rw [heardFrom]
    split
    · rfl
    · rfl
  cases h with
  | drive => exact ⟨hheard, heardFrom_now robot addr, heardFrom_now robot addr, rfl⟩
  | ignored hunknown => exact absurd (by decide) (hunknown _ hop)
  | queryCameraImage id hop' =>
      rcases hop' with ⟨-, hop'⟩ | ⟨-, hop'⟩
      · exact (hother hop' (by decide)).elim
      · exact (hother hop' (by decide)).elim
  | encoder hop' =>
      rcases hop' with hop' | hop'
      · exact (hother hop' (by decide)).elim
      · exact (hother hop' (by decide)).elim
  | aiSwitch hop' | remoteSwitch hop' | directSwitch hop' | setCameraQuality _ _ hop'
  | queryHeartbeat hop' | queryHeartbeatAi hop' => exact (hother hop' (by decide)).elim

end Robot

namespace World

variable {imencode : Mat → Nat → Option (List UInt8)} {endpoints : Endpoints}

/-! ## 2. One exchange -/

/-- What the operator, the connection thread and the network do. -/
def Operated : WorldEvent → Prop
  | .go _ _ | .worker | .command _ | .deliver _ _ _ _ => True
  | _ => False

theorem enabled_of_operated {event : WorldEvent} (h : Operated event) : Enabled event := by
  cases event with
  | robot => exact h.elim
  | _ => exact trivial

variable (imencode endpoints) in
abbrev Can (Goal : World → Prop) : World → Prop :=
  Possibly (system imencode endpoints) Operated Goal

theorem can_step {Goal : World → Prop} {before after : World} {event : WorldEvent}
    {logs : List Log} (hstep : step imencode endpoints before event = .ok (after, logs))
    (hoperated : Operated event) (h : Can imencode endpoints Goal after) :
    Can imencode endpoints Goal before :=
  .step hoperated ⟨enabled_of_operated hoperated, hstep⟩ h

theorem can_work {Goal : World → Prop} {world : World} {worker : Worker}
    {result : WindowStep} (hthread : world.window.connectionThread = some worker)
    (hresult : world.window.connectingWorker worker = .ok result)
    (h : Can imencode endpoints Goal (windowStep endpoints world result).1) :
    Can imencode endpoints Goal world := by
  have hstep : step imencode endpoints world .worker =
      .ok (windowStep endpoints world result) := by
    rw [step, hthread]
    dsimp only
    rw [hresult]
    rfl
  exact can_step hstep trivial h

/-- The window receives, the robot runs, and it tells the base station from the AI. -/
structure Ready (endpoints : Endpoints) (window : MainWindow) (robot : Robot) : Prop where
  receiving : window.receiving = true
  running : robot.Running
  known : robot.isFromAi endpoints.base = false

def NOTHING : Leftovers := ⟨ZERO_DRIVE, ⟨0⟩⟩

def UP : ImageLink := ⟨true, true⟩

/-- The request under way is handled, and its answer received. -/
theorem can_exchange {Goal : World → Prop} {world : World}
    (hreceiving : world.window.receiving = true) {i : Nat} {request reply : List UInt8}
    (hi : world.sent[i]? = some ⟨endpoints.base, endpoints.robot, request⟩) {robot : Robot}
    (hrobot : world.robot.step imencode (.datagram request endpoints.base NOTHING UP) =
      .ok (robot, [.udp reply (some endpoints.base)]))
    {window : MainWindow} {logs : List Log}
    (hwindow : world.window.packetReceiveCallback reply 0 = .ok ⟨window, [], logs⟩)
    (hgoal : ∀ sent, Can imencode endpoints Goal ⟨window, robot, sent⟩) :
    Can imencode endpoints Goal world := by
  have hdeliver : step imencode endpoints world (.deliver i 0 NOTHING UP) =
      .ok (⟨world.window, robot, world.sent ++ [⟨endpoints.robot, endpoints.base, reply⟩]⟩,
        []) := by
    rw [step, hi]
    dsimp only
    rw [if_pos rfl, robotStep, hrobot]
    rfl
  have hreply : step imencode endpoints
      ⟨world.window, robot, world.sent ++ [⟨endpoints.robot, endpoints.base, reply⟩]⟩
      (.deliver world.sent.length 0 NOTHING UP) =
      .ok (⟨window, robot,
        (world.sent ++ [⟨endpoints.robot, endpoints.base, reply⟩]) ++ []⟩, logs) := by
    rw [step]
    dsimp only
    rw [List.getElem?_concat_length]
    dsimp only
    rw [if_neg endpoints.distinct, if_pos ⟨rfl, hreceiving⟩, hwindow]
    rfl
  exact can_step hdeliver trivial (can_step hreply trivial (hgoal _))

/-! ## 3. The handshake -/

/-- What the window sends goes to the robot. -/
def Aims (endpoints : Endpoints) (window : MainWindow) : Prop :=
  ∀ buffer, packetSocketSend buffer window.robotPacketEndpoint = .ok ⟨buffer, endpoints.robot⟩

theorem aims_of_robotEndpoint {window : MainWindow} {ip : UInt32}
    (haddr : endpoints.robot = ⟨AF_INET, ip, PKT_PORT⟩)
    (hendpoint : window.robotPacketEndpoint = some (robotEndpoint (.v4 ip))) :
    Aims endpoints window := by
  intro buffer
  rw [hendpoint, haddr]
  rfl

/-- The window is about to establish a session for Remote mode. -/
structure Aimed (endpoints : Endpoints) (window : MainWindow) (robot : Robot) : Prop
    extends Ready endpoints window robot where
  idle : window.isConnected = false
  mode : window.currentDriveMode = .remote
  aims : Aims endpoints window

/-- A session for Remote mode that the robot is in, too. -/
structure Joined (endpoints : Endpoints) (world : World) : Prop
    extends Ready endpoints world.window world.robot where
  connected : world.window.isConnected = true
  mode : world.window.currentDriveMode = .remote
  aims : Aims endpoints world.window
  robotMode : world.robot.currentMode = .remote

theorem isFromAi_of_step {robot next : Robot} (hrunning : robot.Running) {event : Event}
    {outputs : List Output} (hstep : robot.step imencode event = .ok (next, outputs))
    (addr : SockAddr) : next.isFromAi addr = robot.isFromAi addr := by
  obtain ⟨next, cells, rfl, -, heffect⟩ := Robot.step_cases imencode hrunning hstep
  rw [Robot.isFromAi_with_read_buffer, Robot.isFromAi, Robot.isFromAi, heffect.aiAddr_eq]

/-- The robot answers the base station's query. -/
theorem exists_reportHeartbeat {robot : Robot} (hrunning : robot.Running) {base : SockAddr}
    (hbase : robot.isFromAi base = false) :
    ∃ next, robot.step imencode (.datagram Message.queryHeartbeat.frame base NOTHING UP) =
      .ok (next, [.udp Message.reportHeartbeat.frame (some base)]) := by
  obtain ⟨next, outputs, cells, hstep, -, heffect⟩ := Robot.step_spec imencode hrunning
    (.datagram Message.queryHeartbeat.frame base NOTHING UP)
  cases heffect with
  | datagram hhandles =>
      obtain ⟨-, rfl⟩ :=
        hhandles.of_queryHeartbeat (Message.requestedOpcode_frame rfl) hbase
      exact ⟨_, hstep⟩

/-- The robot switches to Remote mode and acknowledges it. -/
theorem exists_switchModeAck {robot : Robot} (hrunning : robot.Running) {base : SockAddr}
    (hbase : robot.isFromAi base = false) :
    ∃ next, robot.step imencode (.datagram Message.remoteSwitch.frame base NOTHING UP) =
      .ok (next, [.udp Message.switchModeAck.frame (some base)]) ∧
      next.currentMode = .remote := by
  obtain ⟨next, outputs, cells, hstep, -, heffect⟩ := Robot.step_spec imencode hrunning
    (.datagram Message.remoteSwitch.frame base NOTHING UP)
  cases heffect with
  | datagram hhandles =>
      obtain ⟨hmode, rfl⟩ := hhandles.of_remoteSwitch (Message.requestedOpcode_frame rfl)
      have hheard : (robot.heardFrom base).baseStationAddr = some base := by
        rw [Robot.heardFrom, if_neg (by rw [hbase]; decide)]
      rw [hheard] at hstep
      exact ⟨_, hstep, hmode⟩

theorem receive_reportHeartbeat (window : MainWindow) :
    window.packetReceiveCallback Message.reportHeartbeat.frame 0 =
      .ok ⟨{ window with lastHeartbeatReceived := some 0 }, [], [.reportHeartbeatReceived 0]⟩ := by
  rw [packetReceiveCallback, getPacketOpcode_frame rfl, ok_bind]
  rfl

theorem receive_switchModeAck (window : MainWindow) :
    window.packetReceiveCallback Message.switchModeAck.frame 0 =
      .ok ⟨{ window with receivedDriveModeAck := true }, [], []⟩ := by
  rw [packetReceiveCallback, getPacketOpcode_frame rfl, ok_bind]
  rfl

section Work

variable {window : MainWindow}

theorem work_query (haims : Aims endpoints window) {setDriveModeState : Bool}
    (h : window.lastHeartbeatReceived = none) :
    window.connectingWorker (.looping true setDriveModeState) =
      .ok ⟨window, [⟨Message.queryHeartbeat.frame, endpoints.robot⟩], []⟩ := by
  have hpacket : getQueryHeartbeatPacket = .ok Message.queryHeartbeat.frame :=
    Request.packet_eq .queryHeartbeat
  rw [connectingWorker, if_pos rfl, if_neg (not_not_intro h), hpacket, ok_bind, haims]
  rfl

theorem work_heard {setDriveModeState : Bool} (h : window.lastHeartbeatReceived ≠ none) :
    window.connectingWorker (.looping true setDriveModeState) =
      .ok ⟨{ window with connectionThread := some (.looping false true) }, [], []⟩ := by
  rw [connectingWorker, if_pos rfl, if_pos h]
  rfl

theorem work_request (haims : Aims endpoints window) (h : window.currentDriveMode = .remote) :
    window.connectingWorker (.looping false true) =
      .ok ⟨{ window with connectionThread := some .requested },
        [⟨Message.remoteSwitch.frame, endpoints.robot⟩], []⟩ := by
  have hpacket : modeRequest window.currentDriveMode = .ok Message.remoteSwitch.frame := by
    rw [h, modeRequest_remote]
  rw [connectingWorker, if_neg (by decide), if_pos rfl, hpacket, ok_bind, haims]
  rfl

theorem work_declare (h : window.receivedDriveModeAck = true) :
    window.connectingWorker .requested =
      .ok ⟨{ window with isConnected := true, connectionThread := some .done }, [],
        [.modeSwitched]⟩ := by
  rw [connectingWorker, if_pos h]
  rfl

theorem work_again (h : window.receivedDriveModeAck = false) :
    window.connectingWorker .requested =
      .ok ⟨{ window with connectionThread := some (.looping false true) }, [], []⟩ := by
  rw [connectingWorker, if_neg (by rw [h]; decide)]
  rfl

end Work

/-- The datagram that an aimed window sends last. -/
theorem getElem?_sent (world : World) (window : MainWindow) (bytes : List UInt8)
    (logs : List Log) :
    (windowStep endpoints world
      ⟨window, [⟨bytes, endpoints.robot⟩], logs⟩).1.sent[world.sent.length]? =
      some ⟨endpoints.base, endpoints.robot, bytes⟩ :=
  List.getElem?_concat_length

/-- From the mode request to the session. -/
theorem can_request {world : World} (h : Aimed endpoints world.window world.robot)
    (hthread : world.window.connectionThread = some (.looping false true)) :
    Can imencode endpoints (Joined endpoints) world := by
  obtain ⟨robot, hrobot, hmode⟩ := @exists_switchModeAck imencode _ h.running _ h.known
  apply can_work hthread (work_request h.aims h.mode)
  refine can_exchange h.receiving (getElem?_sent world _ _ _) hrobot (receive_switchModeAck _)
    fun sent => ?_
  apply can_work rfl (work_declare rfl)
  exact .here ⟨⟨h.receiving, h.running.step hrobot,
    (isFromAi_of_step h.running hrobot _).trans h.known⟩, rfl, h.mode, h.aims, hmode⟩

theorem can_hear {world : World} (h : Aimed endpoints world.window world.robot)
    {setDriveModeState : Bool}
    (hthread : world.window.connectionThread = some (.looping true setDriveModeState))
    (hheard : world.window.lastHeartbeatReceived ≠ none) :
    Can imencode endpoints (Joined endpoints) world := by
  apply can_work hthread (work_heard hheard)
  exact can_request ⟨⟨h.receiving, h.running, h.known⟩, h.idle, h.mode, h.aims⟩ rfl

/-- From the query to the session. -/
theorem can_query {world : World} (h : Aimed endpoints world.window world.robot)
    {setDriveModeState : Bool}
    (hthread : world.window.connectionThread = some (.looping true setDriveModeState)) :
    Can imencode endpoints (Joined endpoints) world := by
  by_cases hheard : world.window.lastHeartbeatReceived = none
  · obtain ⟨robot, hrobot⟩ := @exists_reportHeartbeat imencode _ h.running _ h.known
    have hknown := (isFromAi_of_step h.running hrobot endpoints.base).trans h.known
    apply can_work hthread (work_query h.aims hheard)
    refine can_exchange h.receiving (getElem?_sent world _ _ _) hrobot
      (receive_reportHeartbeat _) fun sent => ?_
    exact can_hear ⟨⟨h.receiving, h.running.step hrobot, hknown⟩, h.idle, h.mode, h.aims⟩
      hthread (Option.some_ne_none 0)
  · exact can_hear h hthread hheard

theorem can_start {world : World} (h : Aimed endpoints world.window world.robot)
    (hthread : world.window.connectionThread = some .starting) :
    Can imencode endpoints (Joined endpoints) world := by
  apply can_work hthread rfl
  have hloop : some (Worker.looping (!world.window.isConnected) world.window.isConnected) =
      some (.looping true false) := by rw [h.idle]; rfl
  exact can_query ⟨⟨h.receiving, h.running, h.known⟩, h.idle, h.mode, h.aims⟩ hloop

/-! ## 4. From any state -/

/-- The window and address of a press for Remote mode. -/
theorem can_press {Goal : World → Prop} {world : World} (ip : UInt32)
    (h : ∀ window, Pressed world.window 0 (some (.v4 ip)) window →
      ∀ sent, Can imencode endpoints Goal ⟨window, world.robot, sent⟩) :
    Can imencode endpoints Goal world := by
  have hstep : step imencode endpoints world (.go 0 (some (.v4 ip))) =
      .ok (windowStep endpoints world (world.window.goButtonClicked 0 (some (.v4 ip)))) := rfl
  exact can_step hstep trivial (h _ (goButtonClicked_pressed world.window 0 (some (.v4 ip))) _)

/-- A press while the connection thread is gone starts it. -/
theorem can_restart {world : World} {ip : UInt32}
    (haddr : endpoints.robot = ⟨AF_INET, ip, PKT_PORT⟩)
    (h : Ready endpoints world.window world.robot)
    (haims : Aims endpoints world.window) (hdead : world.window.connectionThread = none) :
    Can imencode endpoints (Joined endpoints) world := by
  apply can_press ip
  intro window hpressed sent
  cases hpressed with
  | updateStarts =>
      exact can_start ⟨⟨h.receiving, h.running, h.known⟩, rfl, rfl, haims⟩ rfl
  | connectStarts hidle hip =>
      cases hip
      exact can_start ⟨⟨h.receiving, h.running, h.known⟩, hidle, rfl,
        aims_of_robotEndpoint haddr rfl⟩ rfl
  | updateRefused _ _ halive | connectRefused _ _ _ halive => exact absurd hdead halive
  | noMode _ hmode | noModeIdle _ _ hmode => cases hmode
  | noAddress _ hip => cases hip

/-- The session, wherever the connection thread of an aimed window stands. -/
theorem can_join {world : World} {ip : UInt32}
    (haddr : endpoints.robot = ⟨AF_INET, ip, PKT_PORT⟩)
    (h : Aimed endpoints world.window world.robot) :
    Can imencode endpoints (Joined endpoints) world := by
  cases hthread : world.window.connectionThread with
  | none => exact can_restart haddr h.toReady h.aims hthread
  | some worker =>
      cases worker with
      | starting => exact can_start h hthread
      | looping queryHeartbeatState setDriveModeState =>
          cases queryHeartbeatState with
          | true => exact can_query h hthread
          | false =>
              cases setDriveModeState with
              | true => exact can_request h hthread
              | false =>
                  apply can_work hthread rfl
                  exact can_restart haddr ⟨h.receiving, h.running, h.known⟩ h.aims rfl
      | requested =>
          cases hflag : world.window.receivedDriveModeAck with
          | false =>
              apply can_work hthread (work_again hflag)
              exact can_request ⟨⟨h.receiving, h.running, h.known⟩, h.idle, h.mode,
                h.aims⟩ rfl
          | true =>
              -- a success that need not mean anything; the next press asks again
              apply can_work hthread (work_declare hflag)
              apply can_work rfl rfl
              exact can_restart haddr ⟨h.receiving, h.running, h.known⟩ h.aims rfl
      | done =>
          apply can_work hthread rfl
          exact can_restart haddr ⟨h.receiving, h.running, h.known⟩ h.aims rfl

/-- A press outside a session aims the window. -/
theorem can_aim {world : World} {ip : UInt32}
    (haddr : endpoints.robot = ⟨AF_INET, ip, PKT_PORT⟩)
    (h : Ready endpoints world.window world.robot) (hidle : world.window.isConnected = false) :
    Can imencode endpoints (Joined endpoints) world := by
  apply can_press ip
  intro window hpressed sent
  apply can_join haddr
  cases hpressed with
  | noMode hconnected | updateRefused hconnected | updateStarts hconnected =>
      cases hidle.symm.trans hconnected
  | noAddress _ hip => cases hip
  | noModeIdle _ _ hmode => cases hmode
  | connectRefused _ hip | connectStarts _ hip =>
      cases hip
      exact ⟨⟨h.receiving, h.running, h.known⟩, hidle, rfl, aims_of_robotEndpoint haddr rfl⟩

/-- One press ends a session, the next one aims the window. -/
theorem can_joined {world : World} {ip : UInt32}
    (haddr : endpoints.robot = ⟨AF_INET, ip, PKT_PORT⟩)
    (h : Ready endpoints world.window world.robot) :
    Can imencode endpoints (Joined endpoints) world := by
  cases hconnected : world.window.isConnected with
  | false => exact can_aim haddr h hconnected
  | true =>
      apply can_press ip
      intro window hpressed sent
      apply can_aim haddr
      · exact ⟨hpressed.receiving.trans h.receiving, h.running, h.known⟩
      · cases hpressed with
        | updateRefused | updateStarts => rfl
        | noMode _ hmode => cases hmode
        | noAddress hidle | noModeIdle hidle | connectRefused hidle | connectStarts hidle =>
            cases hidle.symm.trans hconnected

/-! ## 5. A command -/

/-- The robot is in Remote mode with this command, and it is fresh. -/
structure Commanded (speeds : Drive) (world : World) : Prop where
  running : world.robot.Running
  mode : world.robot.currentMode = .remote
  stored : world.robot.latestDrivePayload = drivePayload speeds
  fresh : world.robot.now - world.robot.lastDrivePayloadReceivedTime ≤ 2

theorem sendCommand_drive {window : MainWindow} (speeds : Drive) (haims : Aims endpoints window)
    (hconnected : window.isConnected = true) (hmode : window.currentDriveMode = .remote) :
    window.sendCommand (.drive speeds) = .ok ⟨window,
      [⟨(Message.drive (drivePayload speeds)).frame, endpoints.robot⟩], []⟩ := by
  have hallowed : (Command.drive speeds).allowed window = true := by
    rw [Command.allowed, hconnected, hmode]
    rfl
  have hpacket : (Command.drive speeds).request.packet =
      .ok (Message.drive (drivePayload speeds)).frame := Request.packet_eq (.drive speeds)
  rw [sendCommand, if_neg (by rw [hallowed]; decide), hpacket, ok_bind, haims]
  rfl

theorem exists_drive_step {robot : Robot} (hrunning : robot.Running)
    (hmode : robot.currentMode = .remote) (speeds : Drive) (base : SockAddr) :
    ∃ next, robot.step imencode
        (.datagram (Message.drive (drivePayload speeds)).frame base NOTHING UP) =
        .ok (next, []) ∧ next.Running ∧ next.currentMode = .remote ∧
      next.latestDrivePayload = drivePayload speeds ∧
      next.now - next.lastDrivePayloadReceivedTime ≤ 2 := by
  obtain ⟨next, outputs, cells, hstep, -, heffect⟩ := Robot.step_spec imencode hrunning
    (.datagram (Message.drive (drivePayload speeds)).frame base NOTHING UP)
  have hstored := Robot.latestDrivePayload_of_drive hrunning hstep
  cases heffect with
  | datagram hhandles =>
      obtain ⟨hkept, hnow, hreceived, rfl⟩ :=
        hhandles.of_drive (Message.requestedOpcode_frame rfl)
      refine ⟨_, hstep, hrunning.step hstep, hkept.trans hmode, hstored, ?_⟩
      dsimp only
      rw [hnow, hreceived, Int.sub_self]
      decide

theorem can_command (speeds : Drive) {world : World} (h : Joined endpoints world) :
    Can imencode endpoints (Commanded speeds) world := by
  obtain ⟨robot, hrobot, hrunning, hmode, hstored, hfresh⟩ :=
    @exists_drive_step imencode _ h.running h.robotMode speeds endpoints.base
  have hcommand : step imencode endpoints world (.command (.drive speeds)) =
      .ok (windowStep endpoints world ⟨world.window,
        [⟨(Message.drive (drivePayload speeds)).frame, endpoints.robot⟩], []⟩) := by
    rw [step, sendCommand_drive speeds h.aims h.connected h.mode]
    rfl
  apply can_step hcommand trivial
  have hdeliver : step imencode endpoints (windowStep endpoints world ⟨world.window,
        [⟨(Message.drive (drivePayload speeds)).frame, endpoints.robot⟩], []⟩).1
      (.deliver world.sent.length 0 NOTHING UP) =
      .ok (⟨world.window, robot, (windowStep endpoints world ⟨world.window,
        [⟨(Message.drive (drivePayload speeds)).frame, endpoints.robot⟩],
        []⟩).1.sent ++ []⟩, []) := by
    rw [step, getElem?_sent]
    dsimp only
    rw [if_pos rfl, robotStep]
    dsimp only [windowStep]
    rw [hrobot]
    rfl
  exact can_step hdeliver trivial (.here ⟨hrunning, hmode, hstored, hfresh⟩)

/-- The iteration of `Execute` that carries the command out. -/
theorem execute_commanded {speeds : Drive} {world : World} (h : Commanded speeds world)
    (js : Joystick) (leftovers : DrivePayload) :
    ∃ robot, world.robot.step imencode (.execute js leftovers) =
      .ok (robot, [.serial (Message.drive (drivePayload speeds)).frame]) := by
  obtain ⟨next, outputs, cells, hstep, -, heffect⟩ :=
    Robot.step_spec imencode h.running (.execute js leftovers)
  have hpayload : world.robot.remotePayload = drivePayload speeds := by
    rw [Robot.remotePayload, if_neg (Int.not_lt.mpr h.fresh), h.stored]
  rw [heffect.remote_outputs rfl h.mode, hpayload] at hstep
  exact ⟨_, hstep⟩

end World

end Lame
