/-
  Lame/OperatorControl.lean
  =========================
  **What the operator has to do with what the robot does.**

  Base station, robot and network of `World.lean`, followed from a press or a command
  to the serial line.  `authored_of_step` says who put a datagram on the network, and
  `Controlled` is the invariant that follows: every drive and every switch request under
  way was sent by the window, the stored command is the one of the last DRIVE that was
  handled, its clock runs since the last DRIVE or REMOTE_SWITCH, and Remote mode was
  asked for.
-/
import Lame.ModeRequest
import Lame.ModeSwitch
import Lame.RemoteDrive
import Lame.SerialFraming

namespace Lame

open ByteMemory LabelledRuns PacketHandler MainWindow

/-! ## 1. One datagram of the robot -/

namespace Robot

variable {imencode : Mat → Nat → Option (List UInt8)} {robot next : Robot}
  {datagram : List UInt8} {addr : SockAddr} {link : ImageLink} {event : Event}
  {outputs : List Output}

/-- The mode is changed by the three switch requests only. -/
theorem Handles.currentMode_cases (h : Handles imencode robot datagram addr link next outputs) :
    (requestedOpcode datagram = some AI_SWITCH_OPCODE ∧ next.currentMode = .ai) ∨
    (requestedOpcode datagram = some REMOTE_SWITCH_OPCODE ∧ next.currentMode = .remote) ∨
    (requestedOpcode datagram = some DIRECT_SWITCH_OPCODE ∧ next.currentMode = .direct) ∨
    next.currentMode = robot.currentMode := by
  have hheard : (robot.heardFrom addr).currentMode = robot.currentMode := by
    rw [heardFrom]
    split
    · rfl
    · rfl
  cases h with
  | aiSwitch hop => exact .inl ⟨hop, rfl⟩
  | remoteSwitch hop => exact .inr (.inl ⟨hop, rfl⟩)
  | directSwitch hop => exact .inr (.inr (.inl ⟨hop, rfl⟩))
  | _ => exact .inr (.inr (.inr hheard))

/-- The robot's own loops, the watchdog apart, leave mode and command alone. -/
theorem Effect.loop_keeps (h : Effect imencode robot event next outputs)
    (hquiet : ∀ bytes sender leftovers link, event ≠ .datagram bytes sender leftovers link)
    (hthread : event.thread ≠ some .aiHeartbeat) :
    next.currentMode = robot.currentMode ∧
      next.latestDrivePayload = robot.latestDrivePayload := by
  cases h with
  | datagram => exact absurd rfl (hquiet _ _ _ _)
  | aiHeartbeatTimeout => exact absurd rfl hthread
  | _ => exact ⟨rfl, rfl⟩

end Robot

namespace World

variable {imencode : Mat → Nat → Option (List UInt8)} {endpoints : Endpoints}

/-! ## 2. Authors -/

/-- Who puts a datagram on the network in a step, and why. -/
inductive Author (endpoints : Endpoints) (world : World) : WorldEvent → List UInt8 → Prop where
  | command (command : Command) (hallowed : command.allowed world.window = true) :
      Author endpoints world (.command command) command.request.message.frame
  | heartbeat : Author endpoints world .worker Message.queryHeartbeat.frame
  | mode {bytes : List UInt8}
      (hthread : world.window.connectionThread = some (.looping false true))
      (hbytes : modeRequest world.window.currentDriveMode = .ok bytes) :
      Author endpoints world .worker bytes
  | answer {i : Nat} {now : Int} {leftovers : Leftovers} {link : ImageLink}
      {request : Datagram} {bytes : List UInt8} (hi : world.sent[i]? = some request)
      (hdest : request.dest = endpoints.robot)
      (hanswers : Robot.Answers request.bytes bytes) :
      Author endpoints world (.deliver i now leftovers link) bytes

/-- The step added datagrams of these authors only. -/
def Authored (endpoints : Endpoints) (world after : World) (event : WorldEvent) : Prop :=
  ∃ new, after.sent = world.sent ++ new ∧
    ∀ datagram ∈ new, Author endpoints world event datagram.bytes

theorem authored_of_same {world after : World} {event : WorldEvent}
    (h : after.sent = world.sent) : Authored endpoints world after event :=
  ⟨[], by rw [h, List.append_nil], by simp⟩

theorem authored_of_windowStep {world : World} {event : WorldEvent} {result : WindowStep}
    (h : ∀ send ∈ result.sends, Author endpoints world event send.buffer) :
    Authored endpoints world (windowStep endpoints world result).1 event := by
  refine ⟨_, rfl, fun datagram hmem => ?_⟩
  obtain ⟨send, hsend, rfl⟩ := List.mem_map.mp hmem
  exact h send hsend

theorem author_of_worker {world : World} {worker : Worker} {result : WindowStep}
    (hthread : world.window.connectionThread = some worker)
    (h : world.window.connectingWorker worker = .ok result) :
    ∀ send ∈ result.sends, Author endpoints world .worker send.buffer := by
  intro send hmem
  cases worker with
  | starting | done =>
      cases h
      cases hmem
  | looping queryHeartbeatState setDriveModeState =>
      cases queryHeartbeatState with
      | true =>
          rw [connectingWorker, if_pos rfl] at h
          split at h
          · cases h
            cases hmem
          · obtain ⟨buffer, hbuffer, h⟩ := bind_eq_ok.mp h
            obtain ⟨sent, hsent, h⟩ := bind_eq_ok.mp h
            cases h
            rw [List.mem_singleton.mp hmem, (packetSocketSend_eq_ok hsent).1]
            rw [← Except.ok.inj ((Request.packet_eq .queryHeartbeat).symm.trans hbuffer)]
            exact .heartbeat
      | false =>
          cases setDriveModeState with
          | true =>
              obtain ⟨buffer, hbuffer, h⟩ := bind_eq_ok.mp h
              obtain ⟨sent, hsent, h⟩ := bind_eq_ok.mp h
              cases h
              rw [List.mem_singleton.mp hmem, (packetSocketSend_eq_ok hsent).1]
              exact .mode hthread hbuffer
          | false =>
              cases h
              cases hmem
  | requested =>
      rw [connectingWorker] at h
      split at h
      · cases h
        cases hmem
      · cases h
        cases hmem

theorem author_of_command {world : World} {command : Command} {result : WindowStep}
    (h : world.window.sendCommand command = .ok result) :
    ∀ send ∈ result.sends, Author endpoints world (.command command) send.buffer := by
  intro send hmem
  rw [sendCommand] at h
  split at h
  · cases h
    cases hmem
  · next hallowed =>
    obtain ⟨buffer, hbuffer, h⟩ := bind_eq_ok.mp h
    obtain ⟨sent, hsent, h⟩ := bind_eq_ok.mp h
    cases h
    rw [List.mem_singleton.mp hmem, (packetSocketSend_eq_ok hsent).1]
    rw [← Except.ok.inj ((Request.packet_eq command.request).symm.trans hbuffer)]
    exact .command command (by simpa using hallowed)

/-- **Every datagram has an author.** -/
theorem authored_of_step {world after : World} (hrunning : world.robot.Running)
    {event : WorldEvent} {logs : List Log} (henabled : Enabled event)
    (h : step imencode endpoints world event = .ok (after, logs)) :
    Authored endpoints world after event := by
  cases event with
  | go selectedIndex addr =>
      obtain ⟨hsends, -⟩ := goButtonClicked_spec world.window selectedIndex addr
      obtain ⟨rfl, rfl⟩ := Prod.mk.inj (Except.ok.inj h)
      exact authored_of_windowStep (by rw [hsends]; simp)
  | windowClosing =>
      obtain ⟨rfl, rfl⟩ := Prod.mk.inj (Except.ok.inj h)
      exact authored_of_same rfl
  | worker =>
      rw [step] at h
      split at h
      · obtain ⟨rfl, rfl⟩ := Prod.mk.inj (Except.ok.inj h)
        exact authored_of_same rfl
      · next worker hthread =>
        obtain ⟨result, hresult, h⟩ := bind_eq_ok.mp h
        obtain ⟨rfl, rfl⟩ := Prod.mk.inj (Except.ok.inj h)
        exact authored_of_windowStep (author_of_worker hthread hresult)
  | command command =>
      obtain ⟨result, hresult, h⟩ := bind_eq_ok.mp h
      obtain ⟨rfl, rfl⟩ := Prod.mk.inj (Except.ok.inj h)
      exact authored_of_windowStep (author_of_command hresult)
  | receiveFailed =>
      rw [step] at h
      split at h
      · obtain ⟨rfl, rfl⟩ := Prod.mk.inj (Except.ok.inj h)
        exact authored_of_windowStep (by simp [receiveFailed])
      · obtain ⟨rfl, rfl⟩ := Prod.mk.inj (Except.ok.inj h)
        exact authored_of_same rfl
  | deliver i now leftovers link =>
      rw [step] at h
      split at h
      · obtain ⟨rfl, rfl⟩ := Prod.mk.inj (Except.ok.inj h)
        exact authored_of_same rfl
      · next request hi =>
        split at h
        · next hdest =>
          obtain ⟨-, hmoves⟩ := robotStep_spec hrunning h
          obtain ⟨next, outputs, heffect, hsent⟩ := hmoves.effect
          refine ⟨_, hsent, fun datagram hmem => ?_⟩
          obtain ⟨dest, hudp⟩ := udp_of_mem_fromRobot hmem
          cases heffect with
          | datagram hhandles => exact .answer hi hdest (hhandles.udp hudp)
        · split at h
          · obtain ⟨result, hresult, h⟩ := bind_eq_ok.mp h
            obtain ⟨rfl, rfl⟩ := Prod.mk.inj (Except.ok.inj h)
            obtain ⟨hsends, -⟩ := packetReceiveCallback_spec hresult
            exact authored_of_windowStep (by rw [hsends]; simp)
          · obtain ⟨rfl, rfl⟩ := Prod.mk.inj (Except.ok.inj h)
            exact authored_of_same rfl
  | robot event =>
      obtain ⟨-, hmoves⟩ := robotStep_spec hrunning h
      obtain ⟨next, outputs, heffect, hsent⟩ := hmoves.effect
      refine ⟨_, hsent, fun datagram hmem => ?_⟩
      rw [fromRobot_eq_none_of_effect heffect henabled.2
        fun hthread => absurd (henabled.1 _ hthread) (by decide)] at hmem
      cases hmem

/-! ## 3. Control -/

/-- The operator drives in an established session of Remote mode. -/
def Commands (record : Record) (sent : DrivePayload) : Prop :=
  ∃ speeds, record.event = .command (.drive speeds) ∧
    record.before.window.isConnected = true ∧
    record.before.window.currentDriveMode = .remote ∧ sent = drivePayload speeds

/-- The connection thread sends its mode request while Remote mode is selected. -/
def RequestsRemote (record : Record) : Prop :=
  record.event = .worker ∧ record.before.window.currentDriveMode = .remote ∧
    record.before.window.connectionThread = some (.looping false true)

/-- An answer of the robot asks for nothing. -/
theorem answers_unhandled {request reply : List UInt8} (h : Robot.Answers request reply)
    {opcode : UInt8} (hop : requestedOpcode reply = some opcode) : opcode ∉ HANDLED_OPCODES := by
  rcases h with rfl | rfl | ⟨rfl, -⟩
  · rw [Message.requestedOpcode_frame rfl] at hop
    cases hop
    decide
  · rw [Message.requestedOpcode_frame rfl] at hop
    cases hop
    decide
  · rw [Message.requestedOpcode_frame rfl] at hop
    cases hop
    decide

theorem modeRequest_handled {mode : DriveMode} {bytes : List UInt8}
    (h : modeRequest mode = .ok bytes) {opcode : UInt8}
    (hop : requestedOpcode bytes = some opcode) (hhandled : opcode ∈ HANDLED_OPCODES) :
    opcode = REMOTE_SWITCH_OPCODE ∧ mode = .remote := by
  cases mode with
  | direct =>
      obtain rfl := Except.ok.inj h
      cases hop
  | remote =>
      obtain rfl := Except.ok.inj (modeRequest_remote.symm.trans h)
      rw [Message.requestedOpcode_frame rfl] at hop
      cases hop
      exact ⟨rfl, rfl⟩
  | ai =>
      obtain rfl := Except.ok.inj (modeRequest_ai.symm.trans h)
      rw [Message.requestedOpcode_frame rfl] at hop
      cases hop
      exact absurd hhandled (by decide)

/-- What the robot acts on: a command of the operator, or the handshake. -/
theorem Author.handled {world : World} {event : WorldEvent} {bytes : List UInt8}
    (h : Author endpoints world event bytes) {opcode : UInt8}
    (hop : requestedOpcode bytes = some opcode) (hhandled : opcode ∈ HANDLED_OPCODES) :
    (∃ command : Command, event = .command command ∧ command.allowed world.window = true ∧
      bytes = command.request.message.frame ∧ opcode = command.request.message.opcode) ∨
    event = .worker ∧ opcode = QUERY_HEARTBEAT_OPCODE ∨
    event = .worker ∧ opcode = REMOTE_SWITCH_OPCODE ∧
      world.window.currentDriveMode = .remote ∧
      world.window.connectionThread = some (.looping false true) := by
  cases h with
  | command command hallowed =>
      rw [Message.requestedOpcode_frame command.request.lacksEndByte_message] at hop
      exact .inl ⟨command, rfl, hallowed, rfl, (Option.some.inj hop).symm⟩
  | heartbeat =>
      rw [Message.requestedOpcode_frame rfl] at hop
      exact .inr (.inl ⟨rfl, (Option.some.inj hop).symm⟩)
  | mode hthread hbytes =>
      obtain ⟨hopcode, hmode⟩ := modeRequest_handled hbytes hop hhandled
      exact .inr (.inr ⟨rfl, hopcode, hmode, hthread⟩)
  | answer _ _ hanswers => exact absurd hhandled (answers_unhandled hanswers hop)

theorem Author.of_drive {world : World} {event : WorldEvent} {bytes : List UInt8}
    (h : Author endpoints world event bytes)
    (hop : requestedOpcode bytes = some DRIVE_OPCODE) :
    ∃ speeds, event = .command (.drive speeds) ∧ world.window.isConnected = true ∧
      world.window.currentDriveMode = .remote ∧
      bytes = (Message.drive (drivePayload speeds)).frame := by
  rcases h.handled hop (by decide) with
    ⟨command, hevent, hallowed, hbytes, hopcode⟩ | ⟨-, hopcode⟩ | ⟨-, hopcode, -⟩
  · cases command with
    | drive speeds =>
        rw [Command.allowed, Bool.and_eq_true_iff, beq_iff_eq] at hallowed
        exact ⟨speeds, hevent, hallowed.1, hallowed.2, hbytes⟩
    | queryHeartbeat | requestImage | requestImage1 | qualityValueChanged
    | cameraLocationValueChanged => cases hopcode
  · cases hopcode
  · cases hopcode

theorem Author.of_remoteSwitch {world : World} {event : WorldEvent} {bytes : List UInt8}
    (h : Author endpoints world event bytes)
    (hop : requestedOpcode bytes = some REMOTE_SWITCH_OPCODE) :
    event = .worker ∧ world.window.currentDriveMode = .remote ∧
      world.window.connectionThread = some (.looping false true) := by
  rcases h.handled hop (by decide) with
    ⟨command, -, -, -, hopcode⟩ | ⟨-, hopcode⟩ | ⟨hevent, -, hasks⟩
  · cases command <;> cases hopcode
  · cases hopcode
  · exact ⟨hevent, hasks⟩

/-- The base station asks for no encoder. -/
theorem Author.not_forwards {world : World} {event : WorldEvent} {bytes : List UInt8}
    (h : Author endpoints world event bytes) : ¬ Robot.Forwards (requestedOpcode bytes) := by
  intro hforwards
  have hnone {opcode : UInt8} (hop : requestedOpcode bytes = some opcode)
      (hencoder : opcode = ENABLE_ENCODER_OPCODE ∨ opcode = DISABLE_ENCODER_OPCODE) : False := by
    have hhandled : opcode ∈ HANDLED_OPCODES := by
      rcases hencoder with rfl | rfl
      · decide
      · decide
    rcases h.handled hop hhandled with ⟨command, -, -, -, rfl⟩ | ⟨-, rfl⟩ | ⟨-, rfl, -⟩
    · cases command <;> rcases hencoder with hencoder | hencoder <;> cases hencoder
    · rcases hencoder with hencoder | hencoder <;> cases hencoder
    · rcases hencoder with hencoder | hencoder <;> cases hencoder
  rcases hforwards with hop | hop
  · exact hnone hop (.inl rfl)
  · exact hnone hop (.inr rfl)

/-- How a step moves the robot: not at all, by one of its loops, or by a datagram. -/
inductive RobotMoved (imencode : Mat → Nat → Option (List UInt8)) (endpoints : Endpoints)
    (record : Record) : Prop where
  | stays (hnone : handledOpcode endpoints record = none)
      (hsame : record.after.robot = record.before.robot)
  | loops {event : Event} {outputs : List Output} (hnone : handledOpcode endpoints record = none)
      (henabled : Enabled (.robot event))
      (hstep : record.before.robot.step imencode event = .ok (record.after.robot, outputs))
  | receives {i : Nat} {now : Int} {request : Datagram} {leftovers : Leftovers}
      {link : ImageLink} {outputs : List Output}
      (hevent : record.event = .deliver i now leftovers link)
      (hi : record.before.sent[i]? = some request) (hdest : request.dest = endpoints.robot)
      (hstep : record.before.robot.step imencode
        (.datagram request.bytes request.source leftovers link) =
          .ok (record.after.robot, outputs))

theorem handledOpcode_deliver {record : Record} {i : Nat} {now : Int} {leftovers : Leftovers}
    {link : ImageLink} {request : Datagram}
    (hevent : record.event = .deliver i now leftovers link)
    (hi : record.before.sent[i]? = some request) :
    handledOpcode endpoints record =
      if request.dest = endpoints.robot then requestedOpcode request.bytes else none := by
  rw [handledOpcode, hevent, arriving, hi, Option.bind_some]

theorem handledOpcode_of_dest {record : Record} {i : Nat} {now : Int} {leftovers : Leftovers}
    {link : ImageLink} {request : Datagram}
    (hevent : record.event = .deliver i now leftovers link)
    (hi : record.before.sent[i]? = some request) (hdest : request.dest = endpoints.robot) :
    handledOpcode endpoints record = requestedOpcode request.bytes :=
  (handledOpcode_deliver hevent hi).trans (if_pos hdest)

theorem robotMoved_of_step {world after : World} {event : WorldEvent} {logs : List Log}
    (henabled : Enabled event) (h : step imencode endpoints world event = .ok (after, logs)) :
    RobotMoved imencode endpoints ⟨world, event, logs, after⟩ := by
  cases event with
  | go | windowClosing =>
      obtain ⟨rfl, rfl⟩ := Prod.mk.inj (Except.ok.inj h)
      exact .stays rfl rfl
  | worker =>
      rw [step] at h
      split at h
      · obtain ⟨rfl, rfl⟩ := Prod.mk.inj (Except.ok.inj h)
        exact .stays rfl rfl
      · obtain ⟨result, -, h⟩ := bind_eq_ok.mp h
        obtain ⟨rfl, rfl⟩ := Prod.mk.inj (Except.ok.inj h)
        exact .stays rfl rfl
  | command command =>
      obtain ⟨result, -, h⟩ := bind_eq_ok.mp h
      obtain ⟨rfl, rfl⟩ := Prod.mk.inj (Except.ok.inj h)
      exact .stays rfl rfl
  | receiveFailed =>
      rw [step] at h
      split at h
      · obtain ⟨rfl, rfl⟩ := Prod.mk.inj (Except.ok.inj h)
        exact .stays rfl rfl
      · obtain ⟨rfl, rfl⟩ := Prod.mk.inj (Except.ok.inj h)
        exact .stays rfl rfl
  | deliver i now leftovers link =>
      rw [step] at h
      split at h
      · next hi =>
        obtain ⟨rfl, rfl⟩ := Prod.mk.inj (Except.ok.inj h)
        exact .stays (by rw [handledOpcode, arriving, hi]; rfl) rfl
      · next request hi =>
        split at h
        · next hdest =>
          obtain ⟨⟨robot, outputs⟩, hstep, h⟩ := bind_eq_ok.mp h
          obtain ⟨rfl, rfl⟩ := Prod.mk.inj (Except.ok.inj h)
          exact .receives rfl hi hdest hstep
        · next hdest =>
          have hnone {after : World} {logs : List Log} : handledOpcode endpoints
              ⟨world, .deliver i now leftovers link, logs, after⟩ = none :=
            (handledOpcode_deliver rfl hi).trans (if_neg hdest)
          split at h
          · obtain ⟨result, -, h⟩ := bind_eq_ok.mp h
            obtain ⟨rfl, rfl⟩ := Prod.mk.inj (Except.ok.inj h)
            exact .stays hnone rfl
          · obtain ⟨rfl, rfl⟩ := Prod.mk.inj (Except.ok.inj h)
            exact .stays hnone rfl
  | robot event =>
      obtain ⟨⟨robot, outputs⟩, hstep, h⟩ := bind_eq_ok.mp h
      obtain ⟨rfl, rfl⟩ := Prod.mk.inj (Except.ok.inj h)
      exact .loops rfl henabled hstep

/-- The robot handles, with this opcode, a datagram that the sender put on the network. -/
def Reaches (endpoints : Endpoints) (sender handling : Record) (opcode : UInt8) : Prop :=
  handledOpcode endpoints handling = some opcode ∧
    ∃ i now leftovers link, handling.event = .deliver i now leftovers link ∧ Sends sender i

/-- The robot handles a DRIVE. -/
def HandlesDrive (endpoints : Endpoints) (record : Record) : Prop :=
  handledOpcode endpoints record = some DRIVE_OPCODE

/-- The robot handles a DRIVE or a REMOTE_SWITCH, which restarts the timeout. -/
def Renews (endpoints : Endpoints) (record : Record) : Prop :=
  HandlesDrive endpoints record ∨ HandlesSwitch endpoints record .remote

/-- What the robot has stored: the command the operator gave with the last DRIVE that was
    handled, or zero before the first. -/
inductive Stored (endpoints : Endpoints) (history : List Record) : DrivePayload → Prop where
  | never (hnone : ∀ record ∈ history, ¬ HandlesDrive endpoints record) :
      Stored endpoints history ZERO_DRIVE
  | received {command handling : Record} {since : List Record} {sent : DrivePayload}
      (hlast : LastEntry (HandlesDrive endpoints) history handling since)
      (hcommand : command ∈ history) (hgives : Commands command sent)
      (hreaches : Reaches endpoints command handling DRIVE_OPCODE) :
      Stored endpoints history sent

/-- Remote mode was asked for, and the request has reached the robot. -/
def Asked (endpoints : Endpoints) (history : List Record) : Prop :=
  ∃ request ∈ history, RequestsRemote request ∧
    ∃ handling ∈ history, Reaches endpoints request handling REMOTE_SWITCH_OPCODE

theorem Stored.snoc {history : List Record} {record : Record} {stored : DrivePayload}
    (h : Stored endpoints history stored) (hother : ¬ HandlesDrive endpoints record) :
    Stored endpoints (history ++ [record]) stored := by
  cases h with
  | never hnone =>
      refine .never fun other hmem => ?_
      rcases List.mem_append.mp hmem with hmem | hmem
      · exact hnone other hmem
      · rwa [List.mem_singleton.mp hmem]
  | received hlast hcommand hgives hreaches =>
      exact .received (hlast.snoc hother) (List.mem_append_left _ hcommand) hgives hreaches

theorem Asked.snoc {history : List Record} {record : Record} (h : Asked endpoints history) :
    Asked endpoints (history ++ [record]) := by
  obtain ⟨request, hrequest, hasks, handling, hhandling, hreaches⟩ := h
  exact ⟨request, List.mem_append_left _ hrequest, hasks, handling,
    List.mem_append_left _ hhandling, hreaches⟩

/-- Every drive and switch request under way, the stored command with its time, and the
    mode go back to something the window did. -/
structure Controlled (endpoints : Endpoints) (history : List Record) (world : World) :
    Prop where
  drives : ∀ i datagram, world.sent[i]? = some datagram →
    requestedOpcode datagram.bytes = some DRIVE_OPCODE →
    ∃ record ∈ history, Sends record i ∧ ∃ sent, Commands record sent ∧
      datagram.bytes = (Message.drive sent).frame
  switches : ∀ i datagram, world.sent[i]? = some datagram →
    requestedOpcode datagram.bytes = some REMOTE_SWITCH_OPCODE →
    ∃ record ∈ history, Sends record i ∧ RequestsRemote record
  encoders : ∀ datagram ∈ world.sent, ¬ Robot.Forwards (requestedOpcode datagram.bytes)
  stored : Stored endpoints history world.robot.latestDrivePayload
  renewed : ∀ renewal since, LastEntry (Renews endpoints) history renewal since →
    world.robot.lastDrivePayloadReceivedTime = renewal.before.robot.now
  mode : world.robot.currentMode = .direct ∨
    world.robot.currentMode = .remote ∧ Asked endpoints history

/-- A step that handles neither of the two keeps command and time. -/
theorem RobotMoved.keeps {record : Record} (hrunning : record.before.robot.Running)
    (h : RobotMoved imencode endpoints record) (hother : ¬ Renews endpoints record) :
    record.after.robot.latestDrivePayload = record.before.robot.latestDrivePayload ∧
      record.after.robot.lastDrivePayloadReceivedTime =
        record.before.robot.lastDrivePayloadReceivedTime := by
  have hkept {event : Event} {outputs : List Output}
      (hstep : record.before.robot.step imencode event = .ok (record.after.robot, outputs))
      (hdrive : event.requested ≠ some DRIVE_OPCODE)
      (hswitch : event.requested ≠ some REMOTE_SWITCH_OPCODE) :
      record.after.robot.latestDrivePayload = record.before.robot.latestDrivePayload ∧
        record.after.robot.lastDrivePayloadReceivedTime =
          record.before.robot.lastDrivePayloadReceivedTime := by
    obtain ⟨next, cells, hnext, -, heffect⟩ := Robot.step_cases imencode hrunning hstep
    rw [hnext]
    rcases heffect.command_cases with ⟨hop, -⟩ | ⟨hop, -⟩ | ⟨-, -, htime, hcommand⟩
    · exact absurd hop hdrive
    · exact absurd hop hswitch
    · exact ⟨hcommand, htime⟩
  cases h with
  | stays _ hsame => exact ⟨by rw [hsame], by rw [hsame]⟩
  | @loops event outputs _ henabled hstep =>
      have hquiet : event.requested = none := by
        cases event with
        | datagram => exact absurd rfl (henabled.2 _ _ _ _)
        | _ => rfl
      exact hkept hstep (by rw [hquiet]; simp) (by rw [hquiet]; simp)
  | receives hevent hi hdest hstep =>
      have hop := handledOpcode_of_dest hevent hi hdest
      exact hkept hstep (fun hdrive => hother (.inl (hop.trans hdrive)))
        fun hswitch => hother (.inr (hop.trans hswitch))

theorem Controlled.stored_of_step {history : List Record} {record : Record}
    (h : Controlled endpoints history record.before) (hrunning : record.before.robot.Running)
    (hmoved : RobotMoved imencode endpoints record) :
    Stored endpoints (history ++ [record]) record.after.robot.latestDrivePayload := by
  by_cases hdrive : HandlesDrive endpoints record
  · cases hmoved with
    | stays hnone | loops hnone => cases hnone.symm.trans hdrive
    | @receives i now request leftovers link outputs hevent hi hdest hstep =>
        have hop : requestedOpcode request.bytes = some DRIVE_OPCODE :=
          (handledOpcode_of_dest hevent hi hdest).symm.trans hdrive
        obtain ⟨command, hmem, hsends, sent, hgives, hframe⟩ := h.drives i request hi hop
        rw [hframe] at hstep
        rw [Robot.latestDrivePayload_of_drive hrunning hstep]
        exact .received (.of_kind hdrive) (List.mem_append_left _ hmem) hgives
          ⟨hdrive, i, now, leftovers, link, hevent, hsends⟩
  · have hkept : record.after.robot.latestDrivePayload =
        record.before.robot.latestDrivePayload := by
      by_cases hswitch : HandlesSwitch endpoints record .remote
      · cases hmoved with
        | stays hnone | loops hnone => cases hnone.symm.trans hswitch
        | receives hevent hi hdest hstep =>
            have hop := (handledOpcode_of_dest hevent hi hdest).symm
            obtain ⟨next, cells, hnext, -, heffect⟩ := Robot.step_cases imencode hrunning hstep
            rw [hnext]
            rcases heffect.command_cases with ⟨hrequest, -⟩ | ⟨-, -, hkept⟩ | ⟨-, -, -, hkept⟩
            · exact absurd (hop.symm.trans hrequest) hdrive
            · exact hkept
            · exact hkept
      · exact (hmoved.keeps hrunning (not_or.mpr ⟨hdrive, hswitch⟩)).1
    rw [hkept]
    exact h.stored.snoc hdrive

theorem Controlled.renewed_of_step {history : List Record} {record : Record}
    (h : Controlled endpoints history record.before) (hrunning : record.before.robot.Running)
    (hmoved : RobotMoved imencode endpoints record) {renewal : Record} {since : List Record}
    (hlast : LastEntry (Renews endpoints) (history ++ [record]) renewal since) :
    record.after.robot.lastDrivePayloadReceivedTime = renewal.before.robot.now := by
  by_cases hrenews : Renews endpoints record
  · rw [(hlast.eq_of_kind hrenews).1]
    cases hmoved with
    | stays hnone | loops hnone =>
        rcases hrenews with hop | hop
        · cases hnone.symm.trans hop
        · cases hnone.symm.trans hop
    | @receives i now request leftovers link outputs hevent hi hdest hstep =>
        have hop := (handledOpcode_of_dest hevent hi hdest).symm
        obtain ⟨next, cells, hnext, -, heffect⟩ := Robot.step_cases imencode hrunning hstep
        rw [hnext]
        rcases heffect.command_cases with ⟨-, htime, -⟩ | ⟨-, htime, -⟩ | ⟨hdrive, hswitch, -⟩
        · exact htime
        · exact htime
        · rcases hrenews with hrequest | hrequest
          · exact absurd (hop.trans hrequest) hdrive
          · exact absurd (hop.trans hrequest) hswitch
  · obtain ⟨middle, -, hbefore⟩ := hlast.of_snoc hrenews
    rw [(hmoved.keeps hrunning hrenews).2]
    exact h.renewed renewal middle hbefore

theorem Controlled.mode_of_step {history : List Record} {record : Record}
    (hrun : Run (system imencode endpoints) history record.before)
    (h : Controlled endpoints history record.before)
    (hmoved : RobotMoved imencode endpoints record) :
    record.after.robot.currentMode = .direct ∨
      record.after.robot.currentMode = .remote ∧ Asked endpoints (history ++ [record]) := by
  have hrunning := running_of_run hrun
  have hkeeps : record.before.robot.currentMode = .direct ∨
      record.before.robot.currentMode = .remote ∧ Asked endpoints (history ++ [record]) :=
    h.mode.imp_right (And.imp_right fun hasked => hasked.snoc)
  cases hmoved with
  | stays _ hsame =>
      rw [hsame]
      exact hkeeps
  | loops _ henabled hstep =>
      obtain ⟨next, cells, hnext, -, heffect⟩ := Robot.step_cases imencode hrunning hstep
      obtain ⟨hkept, -⟩ := heffect.loop_keeps henabled.2 fun hthread =>
        absurd (henabled.1 _ hthread) (by decide)
      rw [hnext]
      dsimp only
      rw [hkept]
      exact hkeeps
  | @receives i now request leftovers link outputs hevent hi hdest hstep =>
      obtain ⟨next, cells, hnext, -, heffect⟩ := Robot.step_cases imencode hrunning hstep
      rw [hnext]
      dsimp only
      cases heffect with
      | datagram hhandles =>
          rcases hhandles.currentMode_cases with
            ⟨hop, -⟩ | ⟨hop, hmode⟩ | ⟨-, hmode⟩ | hmode
          · exact absurd hop (requestedOpcode_ne_aiSwitch hrun hi)
          · obtain ⟨sender, hmem, hsends, hasks⟩ := h.switches i request hi hop
            have hhandled := (handledOpcode_of_dest hevent hi hdest).trans hop
            exact .inr ⟨hmode, sender, List.mem_append_left _ hmem, hasks, record,
              List.mem_append_right _ (List.mem_singleton_self _), hhandled, i, now,
              leftovers, link, hevent, hsends⟩
          · exact .inl hmode
          · rw [hmode]
            exact hkeeps

/-- **Nothing happens by itself.** -/
theorem controlled_of_run {history : List Record} {world : World}
    (hrun : Run (system imencode endpoints) history world) :
    Controlled endpoints history world := by
  refine hrun.induction (Controlled endpoints) ?_ ?_
  · rintro world ⟨-, ⟨ai_port, now, threads, hstarted⟩, hnone⟩
    obtain ⟨-, hrobot, -⟩ := Robot.run_eq_some_iff.mp hstarted
    refine ⟨by simp [hnone], by simp [hnone], by simp [hnone], ?_, ?_, .inl (by rw [hrobot]; rfl)⟩
    · rw [hrobot]
      exact .never (by simp)
    · intro renewal since hlast
      have hmem := hlast.mem
      cases hmem
  · intro history before event after outputs hbefore h ⟨henabled, hstep⟩
    have hrunning := running_of_run hbefore
    obtain ⟨new, hsent, hauthor⟩ := authored_of_step hrunning henabled hstep
    have hmoved := robotMoved_of_step henabled hstep
    -- what is under way was so before, or is new
    have hnew {i : Nat} {datagram : Datagram} (hi : after.sent[i]? = some datagram) :
        before.sent[i]? = some datagram ∨
          Author endpoints before event datagram.bytes ∧
            Sends ⟨before, event, outputs, after⟩ i := by
      have hlt : i < after.sent.length := (List.getElem?_eq_some_iff.mp hi).1
      rw [hsent] at hi
      by_cases hold : i < before.sent.length
      · rw [List.getElem?_append_left hold] at hi
        exact .inl hi
      · rw [List.getElem?_append_right (Nat.le_of_not_lt hold)] at hi
        exact .inr ⟨hauthor datagram (List.mem_of_getElem? hi), Nat.le_of_not_lt hold, hlt⟩
    have hlast : (⟨before, event, outputs, after⟩ : Record) ∈
        history ++ [⟨before, event, outputs, after⟩] :=
      List.mem_append_right _ (List.mem_singleton_self _)
    refine ⟨fun i datagram hi hop => ?_, fun i datagram hi hop => ?_,
      fun datagram hmem => ?_, h.stored_of_step hrunning hmoved,
      fun renewal since => h.renewed_of_step hrunning hmoved, h.mode_of_step hbefore hmoved⟩
    · rcases hnew hi with hi | ⟨hauthor, hsends⟩
      · obtain ⟨record, hmem, hrecord⟩ := h.drives i datagram hi hop
        exact ⟨record, List.mem_append_left _ hmem, hrecord⟩
      · obtain ⟨speeds, hevent, hconnected, hmode, hbytes⟩ := hauthor.of_drive hop
        exact ⟨_, hlast, hsends, _, ⟨speeds, hevent, hconnected, hmode, rfl⟩, hbytes⟩
    · rcases hnew hi with hi | ⟨hauthor, hsends⟩
      · obtain ⟨record, hmem, hrecord⟩ := h.switches i datagram hi hop
        exact ⟨record, List.mem_append_left _ hmem, hrecord⟩
      · exact ⟨_, hlast, hsends, hauthor.of_remoteSwitch hop⟩
    · rw [hsent] at hmem
      rcases List.mem_append.mp hmem with hmem | hmem
      · exact h.encoders datagram hmem
      · exact (hauthor datagram hmem).not_forwards

/-! ## 4. The serial line -/

/-- What the robot does in a step of the two parties. -/
def robotEvent (endpoints : Endpoints) (record : Record) : Option Event :=
  match record.event with
  | .deliver i _ leftovers link =>
      (record.before.sent[i]?).bind fun datagram =>
        if datagram.dest = endpoints.robot then
          some (.datagram datagram.bytes datagram.source leftovers link)
        else none
  | .robot event => some event
  | _ => none

/-- The robot writes these bytes to the serial line. -/
def Writes (imencode : Mat → Nat → Option (List UInt8)) (endpoints : Endpoints)
    (record : Record) (bytes : List UInt8) : Prop :=
  ∃ event robot outputs, robotEvent endpoints record = some event ∧
    record.before.robot.step imencode event = .ok (robot, outputs) ∧ .serial bytes ∈ outputs

/-- The joysticks of the robot itself drive it. -/
def DrivesDirect (record : Record) (bytes : List UInt8) : Prop :=
  record.before.robot.currentMode = .direct ∧
    ∃ js leftovers, record.event = .robot (.execute js leftovers) ∧ 1 ≤ js.ids.length ∧
      bytes = (Message.drive (Robot.directPayload js leftovers)).frame

/-- `Execute` replays a command: as it is, or with the tracks stopped when more than two
    seconds have passed since the time `renewed`. -/
def replayed (stored : DrivePayload) (now renewed : Int) : DrivePayload :=
  if now - renewed > 2 then { stored with left := 0, right := 0 } else stored

/-- The operator drives the robot: Remote mode was asked for, and an iteration of `Execute`
    replays what the robot has stored, timed from the last DRIVE or REMOTE_SWITCH that was
    handled. -/
structure DrivesRemote (endpoints : Endpoints) (earlier : List Record) (record : Record)
    (bytes : List UInt8) : Prop where
  mode : record.before.robot.currentMode = .remote
  executes : ∃ js leftovers, record.event = .robot (.execute js leftovers)
  asked : Asked endpoints earlier
  command : ∃ stored renewal since, Stored endpoints earlier stored ∧
    LastEntry (Renews endpoints) earlier renewal since ∧
    bytes = (Message.drive
      (replayed stored record.before.robot.now renewal.before.robot.now)).frame

/-- Without a joystick of its own the robot does nothing in Direct mode. -/
theorem execute_idle {robot : Robot} {js : Joystick} {leftovers : DrivePayload}
    (hmode : robot.currentMode = .direct) (hnone : js.ids.length < 1) :
    robot.execute js leftovers = .ok (robot, []) := by
  rw [Robot.execute, hmode]
  dsimp only
  rw [if_pos hnone]
  rfl

theorem drives_of_execute {earlier : List Record} {record : Record}
    (h : Controlled endpoints earlier record.before) (hrunning : record.before.robot.Running)
    {js : Joystick} {leftovers : DrivePayload} {robot : Robot} {outputs : List Output}
    (hevent : record.event = .robot (.execute js leftovers))
    (hstep : record.before.robot.step imencode (.execute js leftovers) = .ok (robot, outputs))
    {bytes : List UInt8} (hmem : .serial bytes ∈ outputs) :
    DrivesDirect record bytes ∨ DrivesRemote endpoints earlier record bytes := by
  obtain ⟨next, cells, -, -, heffect⟩ := Robot.step_cases imencode hrunning hstep
  cases heffect with
  | executeIdle => cases hmem
  | executeDirect _ _ hmode =>
      refine .inl ⟨hmode, js, leftovers, hevent, ?_,
        Output.serial.inj (List.mem_singleton.mp hmem)⟩
      by_contra hnone
      rw [Robot.step, if_pos hrunning.isRunning,
        execute_idle hmode (Nat.lt_of_not_le hnone)] at hstep
      cases hstep
  | executeRemote _ _ hmode =>
      have hasked : Asked endpoints earlier := by
        rcases h.mode with hdirect | ⟨-, hasked⟩
        · rw [hmode] at hdirect
          cases hdirect
        · exact hasked
      have hrenews : ∃ renewal ∈ earlier, Renews endpoints renewal := by
        obtain ⟨request, -, -, handling, hhandling, hop, -⟩ := hasked
        exact ⟨handling, hhandling, .inr hop⟩
      obtain ⟨renewal, since, hlast⟩ := exists_lastEntry hrenews
      refine .inr ⟨hmode, ⟨js, leftovers, hevent⟩, hasked, _, renewal, since, h.stored, hlast, ?_⟩
      rw [Output.serial.inj (List.mem_singleton.mp hmem), Robot.remotePayload,
        h.renewed renewal since hlast, replayed]

/-- A handshake, one command, and the iteration that carries it out. -/
def firstCommand : List WorldEvent :=
  firstPress ++ [.command (.drive ⟨50, -50, 1, 2, 3⟩),
    .deliver 4 0 ⟨ZERO_DRIVE, ⟨0⟩⟩ ⟨true, true⟩, .robot (.execute ⟨[], none, none⟩ ZERO_DRIVE)]

/-- The event and what the robot's own step writes. -/
def writing (record : Record) : Option Event × List Output :=
  (robotEvent HOSTS record, match robotEvent HOSTS record with
    | none => []
    | some event => match record.before.robot.step (fun _ _ => none) event with
      | .error _ => []
      | .ok (_, outputs) => outputs)

end World

end Lame
