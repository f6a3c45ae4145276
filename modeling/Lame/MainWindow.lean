/-
  Lame/MainWindow.lean
  ====================
  **The base station: the connection logic of `MainWindow.xaml.cs`.**

  Four parties share the fields of the window: the GUI thread with
  `GoButtonClicked`, the socket's completion callback `PacketReceiveCallback`, the
  connection thread `ConnectingWorker`, and the senders that only run while
  connected.  A handler of the GUI and a callback are one step each.  The
  connection thread is a program of its own, stopped at the places where the
  others may run: before its first statement, at the head of its loop, between
  sending the mode request and looking at the flag, and in its last sleep.

  The list selection and the result of parsing the IP text are inputs of a press,
  so the callback's deferred change of the selection is covered by the next press.
  The text may parse to an address of either family.  An exception that ends the
  process is `Fault.outOfBounds`.
-/
import Lame.PacketHandler
import Lame.Robot

namespace Lame

open ByteMemory PacketHandler

/-! ## 1. State -/

def PKT_PORT : UInt16 := 10000

/-- The items of `robotModeListBox` in `MainWindow.xaml`. -/
def ROBOT_MODE_ITEMS : List String := ["Remote Drive", "AI"]

/-- Where a live connection thread stands. -/
inductive Worker where
  /-- `Start` has been called, no statement has run. -/
  | starting
  /-- At the head of the loop, with its two local flags. -/
  | looping (queryHeartbeatState setDriveModeState : Bool)
  /-- The mode request is sent, `receivedDriveModeAck` not yet read. -/
  | requested
  /-- `done`, asleep. -/
  | done
deriving DecidableEq, Repr

/-- What `IPAddress.TryParse` stores, of either address family. -/
inductive IPAddress where
  | v4 (address : UInt32)
  | v6 (address : BitVec 128) (scopeId : UInt32)
deriving DecidableEq, Repr

structure IPEndPoint where
  address : IPAddress
  port : UInt16
deriving DecidableEq, Repr

structure MainWindow where
  currentDriveMode : DriveMode
  robotPacketEndpoint : Option IPEndPoint
  /-- `none` unless the thread `IsAlive`. -/
  connectionThread : Option Worker
  isConnected : Bool
  receivedDriveModeAck : Bool
  /-- `none` is `DateTime.MinValue`. -/
  lastHeartbeatReceived : Option Int
  /-- A `BeginReceive` is outstanding. -/
  receiving : Bool
deriving DecidableEq, Repr

inductive Log where
  -- "Connection closed - Robot code is not running or has crashed!"
  | connectionClosed
  -- "ReportHeartbeat received at …"
  | reportHeartbeatReceived (now : Int)
  -- "LAME detected AI timeout and has reverted to manual control."
  | aiTimeout
  -- "Mode switched successfully."
  | modeSwitched
  -- "Invalid connection state detected. Connection thread exiting."
  | invalidConnectionState
  -- "Invalid drive mode selected."
  | invalidDriveMode
  -- "Updating drive mode to …"
  | updatingDriveMode (mode : DriveMode)
  -- "Invalid IP address!"
  | invalidIpAddress
  -- "Starting connection sequence with BLER (…) with drive mode: …"
  | startingConnection (addr : IPAddress) (mode : DriveMode)
  -- "Already attempting to connect to BLER, ignoring additional press."
  | alreadyConnecting
deriving DecidableEq, Repr

structure Send where
  buffer : List UInt8
  endpoint : SockAddr
deriving DecidableEq, Repr

/-- What a step leaves behind: the window, what it sent, what it logged. -/
structure WindowStep where
  window : MainWindow
  sends : List Send
  logs : List Log
deriving DecidableEq, Repr

namespace MainWindow

def create : MainWindow where
  currentDriveMode := .direct
  robotPacketEndpoint := none
  connectionThread := none
  isConnected := false
  receivedDriveModeAck := false
  lastHeartbeatReceived := none
  receiving := true

/-! ## 2. The GUI thread -/

/-- `GetDriveMode`: false, or true with the mode stored. -/
def getDriveMode (selectedIndex : Int) (mode : DriveMode) : Bool × DriveMode :=
  if selectedIndex < 0 ∨ selectedIndex ≥ ROBOT_MODE_ITEMS.length then (false, mode)
  else match ROBOT_MODE_ITEMS[selectedIndex.toNat]? with
    | none => (false, mode)
    | some item =>
        if item = "Direct Drive" then (true, .direct)
        else if item = "Remote Drive" then (true, .remote)
        else if item = "AI" then (true, .ai)
        else (false, mode)

def startConnection (window : MainWindow) : Bool × MainWindow × List Log :=
  if window.connectionThread ≠ none then (false, window, [.alreadyConnecting])
  else (true, { window with connectionThread := some .starting }, [])

/-- `GoButtonClicked`; `addr` is the parsed IP text. -/
def goButtonClicked (window : MainWindow) (selectedIndex : Int) (addr : Option IPAddress) :
    WindowStep :=
  if window.isConnected then
    let (ok, mode) := getDriveMode selectedIndex window.currentDriveMode
    let window := { window with currentDriveMode := mode }
    if !ok then ⟨window, [], [.invalidDriveMode]⟩
    else
      let window := { window with isConnected := false }
      let (_, window, logs) := window.startConnection
      ⟨window, [], .updatingDriveMode mode :: logs⟩
  else match addr with
    | none => ⟨window, [], [.invalidIpAddress]⟩
    | some addr =>
        let (ok, mode) := getDriveMode selectedIndex window.currentDriveMode
        let window := { window with robotPacketEndpoint := some ⟨addr, PKT_PORT⟩
                                    currentDriveMode := mode }
        if !ok then ⟨window, [], [.invalidDriveMode]⟩
        else
          let (started, window, logs) := window.startConnection
          ⟨window, [], if started then logs ++ [.startingConnection addr mode] else logs⟩

/-- `WindowClosing`, as far as it concerns the connection. -/
def windowClosing (window : MainWindow) : MainWindow :=
  { window with connectionThread := none }

/-! ## 3. The receive callback -/

/-- `EndReceive` throws a `SocketException`. -/
def receiveFailed (window : MainWindow) : WindowStep :=
  ⟨{ window with connectionThread := none, receiving := false }, [], [.connectionClosed]⟩

/-- `PacketReceiveCallback` with a datagram. -/
def packetReceiveCallback (window : MainWindow) (buffer : List UInt8) (now : Int) :
    Exec WindowStep := do
  let opcode ← getPacketOpcode buffer (Int32.ofNat buffer.length)
  if opcode = REPORT_HEARTBEAT_OPCODE then
    return ⟨{ window with lastHeartbeatReceived := some now }, [],
      [.reportHeartbeatReceived now]⟩
  else if opcode = REMOTE_SWITCH_OPCODE then
    return ⟨{ window with currentDriveMode := .remote }, [], [.aiTimeout]⟩
  else if opcode = SWITCH_MODE_ACK_OPCODE then
    return ⟨{ window with receivedDriveModeAck := true }, [], []⟩
  else return ⟨window, [], []⟩

/-! ## 4. The connection thread -/

/-- `packetSocket.Send`.  The constructor `UdpClient(PKT_PORT)` makes an IPv4 socket,
    which throws for an endpoint of the other family and for a null reference. -/
def packetSocketSend (buffer : List UInt8) : Option IPEndPoint → Exec Send
  | some ⟨.v4 address, port⟩ => return ⟨buffer, ⟨AF_INET, address, port⟩⟩
  | _ => throw .outOfBounds

/-- The datagram that `ConnectingWorker` sends for a drive mode. -/
def modeRequest : DriveMode → Exec (List UInt8)
  | .remote => getRemoteSwitchPacket
  | .ai => getAiInitPacket
  | .direct => return []

/-- `ConnectingWorker`, from where it stands to the next place where it stops. -/
def connectingWorker (window : MainWindow) : Worker → Exec WindowStep
  | .starting =>
      return ⟨{ window with
        lastHeartbeatReceived := none
        receivedDriveModeAck := false
        connectionThread := some (.looping (!window.isConnected) window.isConnected) }, [], []⟩
  | .looping queryHeartbeatState setDriveModeState =>
      if queryHeartbeatState then
        if window.lastHeartbeatReceived ≠ none then
          return ⟨{ window with connectionThread := some (.looping false true) }, [], []⟩
        else do
          let buffer ← getQueryHeartbeatPacket
          let send ← packetSocketSend buffer window.robotPacketEndpoint
          return ⟨window, [send], []⟩
      else if setDriveModeState then do
        let buffer ← modeRequest window.currentDriveMode
        let send ← packetSocketSend buffer window.robotPacketEndpoint
        return ⟨{ window with connectionThread := some .requested }, [send], []⟩
      else
        return ⟨{ window with connectionThread := none }, [], [.invalidConnectionState]⟩
  | .requested =>
      if window.receivedDriveModeAck then
        return ⟨{ window with isConnected := true, connectionThread := some .done }, [],
          [.modeSwitched]⟩
      else
        return ⟨{ window with connectionThread := some (.looping false true) }, [], []⟩
  | .done => return ⟨{ window with connectionThread := none }, [], []⟩

/-! ## 5. The senders of a connected window -/

/-- What `QueryHeartbeatEvent`, `ReadJoystickValues`, the two request buttons and the
    two sliders send. -/
inductive Command where
  | queryHeartbeat
  | drive (speeds : Drive)
  | requestImage
  | requestImage1
  | qualityValueChanged (cq : CameraQuality)
  | cameraLocationValueChanged (cl : CameraLocation)
deriving DecidableEq, Repr

def Command.request : Command → Request
  | .queryHeartbeat => .queryHeartbeat
  | .drive speeds => .drive speeds
  | .requestImage => .queryCameraImage
  | .requestImage1 => .queryCamera1Image
  | .qualityValueChanged cq => .setCameraQuality cq
  | .cameraLocationValueChanged cl => .setCameraLocation cl

/-- Whether the sender's guard lets the command through. -/
def Command.allowed (window : MainWindow) : Command → Bool
  | .queryHeartbeat => window.isConnected && window.robotPacketEndpoint.isSome
  | .drive _ => window.isConnected && window.currentDriveMode == .remote
  | _ => window.isConnected

def sendCommand (window : MainWindow) (command : Command) : Exec WindowStep :=
  if !command.allowed window then return ⟨window, [], []⟩
  else do
    let buffer ← command.request.packet
    let send ← packetSocketSend buffer window.robotPacketEndpoint
    return ⟨window, [send], []⟩

/-! ## 6. What a step changes -/

/-- What the base station puts into a datagram: nothing, or a packet of the handler. -/
def Built (buffer : List UInt8) : Prop :=
  buffer = [] ∨ ∃ request : Request, buffer = request.message.frame

theorem Built.of_packet (request : Request) {buffer : List UInt8}
    (h : request.packet = .ok buffer) : Built buffer :=
  .inr ⟨request, Except.ok.inj (h.symm.trans request.packet_eq)⟩

/-- A send that does not throw goes out unchanged, to the IPv4 address of the endpoint. -/
theorem packetSocketSend_eq_ok {buffer : List UInt8} {endpoint : Option IPEndPoint}
    {send : Send} (h : packetSocketSend buffer endpoint = .ok send) :
    send.buffer = buffer ∧ ∃ address port, endpoint = some ⟨.v4 address, port⟩ ∧
      send.endpoint = ⟨AF_INET, address, port⟩ := by
  unfold packetSocketSend at h
  split at h
  · next address port =>
    cases h
    exact ⟨rfl, address, port, rfl, rfl⟩
  · cases h

theorem Built.of_modeRequest {mode : DriveMode} {buffer : List UInt8}
    (h : modeRequest mode = .ok buffer) : Built buffer := by
  cases mode with
  | direct => exact .inl (Except.ok.inj h).symm
  | remote => exact .of_packet .remoteSwitch h
  | ai => exact .of_packet .aiInit h

/-- How a step moves the connection thread and the flag it waits for; `acked` is what
    may set the flag. -/
inductive Moves (acked : Prop) (before after : MainWindow) : Prop where
  | started (hbefore : before.connectionThread = none)
      (hafter : after.connectionThread = some .starting)
  | ended (hafter : after.connectionThread = none)
  | reset (hbefore : before.connectionThread = some .starting)
      (hflag : after.receivedDriveModeAck = false)
  | continued (halive : after.connectionThread ≠ none → before.connectionThread ≠ none)
      (hstarting : before.connectionThread = some .starting →
        after.connectionThread = some .starting)
      (hflag : after.receivedDriveModeAck = true → before.receivedDriveModeAck = true ∨ acked)

theorem Moves.refl (acked : Prop) (window : MainWindow) : Moves acked window window :=
  .continued id id .inl

theorem Moves.mono {acked acked' : Prop} {before after : MainWindow}
    (h : Moves acked before after) (himp : acked → acked') : Moves acked' before after := by
  cases h with
  | started hbefore hafter => exact .started hbefore hafter
  | ended hafter => exact .ended hafter
  | reset hbefore hflag => exact .reset hbefore hflag
  | continued halive hstarting hflag =>
      exact .continued halive hstarting fun hset => (hflag hset).imp_right himp

/-- A thread past its first statements leaves the flag alone. -/
theorem Moves.of_past {acked : Prop} {before after : MainWindow} {worker : Worker}
    (hthread : before.connectionThread = some worker) (hpast : worker ≠ .starting)
    (hflag : after.receivedDriveModeAck = before.receivedDriveModeAck) :
    Moves acked before after := by
  refine .continued (fun _ => ?_) (fun hstart => ?_) fun hset => .inl (hflag ▸ hset)
  · rw [hthread]
    exact Option.some_ne_none worker
  · exact absurd (Option.some.inj (hthread.symm.trans hstart)) hpast

theorem startConnection_spec {before window : MainWindow}
    (hthread : window.connectionThread = before.connectionThread)
    (hflag : window.receivedDriveModeAck = before.receivedDriveModeAck) :
    .modeSwitched ∉ window.startConnection.2.2 ∧
      Moves False before window.startConnection.2.1 := by
  rw [startConnection]
  by_cases hdead : window.connectionThread = none
  · rw [if_neg (not_not_intro hdead)]
    exact ⟨List.not_mem_nil, .started (hthread.symm.trans hdead) rfl⟩
  · rw [if_pos hdead]
    refine ⟨by simp, .continued (fun _ => ?_) (fun h => hthread.trans h) fun h => .inl ?_⟩
    · rwa [← hthread]
    · rwa [← hflag]

theorem goButtonClicked_spec (window : MainWindow) (selectedIndex : Int)
    (addr : Option IPAddress) :
    (window.goButtonClicked selectedIndex addr).sends = [] ∧
      .modeSwitched ∉ (window.goButtonClicked selectedIndex addr).logs ∧
      Moves False window (window.goButtonClicked selectedIndex addr).window := by
  unfold goButtonClicked
  generalize getDriveMode selectedIndex window.currentDriveMode = choice
  obtain ⟨ok, mode⟩ := choice
  by_cases hconnected : window.isConnected = true
  · rw [if_pos hconnected]
    cases ok with
    | false => exact ⟨rfl, by simp, .continued id id .inl⟩
    | true =>
        obtain ⟨hlogs, hmoves⟩ := @startConnection_spec window
          { window with currentDriveMode := mode, isConnected := false } rfl rfl
        exact ⟨rfl, by simpa using hlogs, hmoves⟩
  · rw [if_neg hconnected]
    cases addr with
    | none => exact ⟨rfl, by simp, .continued id id .inl⟩
    | some addr =>
        cases ok with
        | false => exact ⟨rfl, by simp, .continued id id .inl⟩
        | true =>
            obtain ⟨hlogs, hmoves⟩ := @startConnection_spec window
              { window with
                robotPacketEndpoint := some ⟨addr, PKT_PORT⟩
                currentDriveMode := mode } rfl rfl
            refine ⟨rfl, ?_, hmoves⟩
            dsimp only [Bool.not_true]
            rw [if_neg (by decide)]
            dsimp only
            split
            · simpa using hlogs
            · exact hlogs

/-- The callback sets the flag on an acknowledgement only, and goes on receiving. -/
theorem packetReceiveCallback_spec {window : MainWindow} {buffer : List UInt8} {now : Int}
    {result : WindowStep} (h : window.packetReceiveCallback buffer now = .ok result) :
    result.sends = [] ∧ .modeSwitched ∉ result.logs ∧
      result.window.receiving = window.receiving ∧
      Moves (getPacketOpcode buffer (Int32.ofNat buffer.length) = .ok SWITCH_MODE_ACK_OPCODE)
        window result.window := by
  rw [packetReceiveCallback] at h
  obtain ⟨opcode, hopcode, h⟩ := bind_eq_ok.mp h
  split at h
  · cases h
    exact ⟨rfl, by simp, rfl, .continued id id .inl⟩
  · split at h
    · cases h
      exact ⟨rfl, by simp, rfl, .continued id id .inl⟩
    · split at h
      · next hack =>
        cases h
        exact ⟨rfl, by simp, rfl, .continued id id fun _ => .inr (hack ▸ hopcode)⟩
      · cases h
        exact ⟨rfl, by simp, rfl, .continued id id .inl⟩

/-- The connection thread declares success only when it finds the flag set. -/
theorem connectingWorker_spec {window : MainWindow} {worker : Worker} {result : WindowStep}
    (hthread : window.connectionThread = some worker)
    (h : window.connectingWorker worker = .ok result) :
    (∀ send ∈ result.sends, Built send.buffer) ∧
      (.modeSwitched ∈ result.logs → worker = .requested ∧
        window.receivedDriveModeAck = true ∧ result.window.isConnected = true ∧
        result.window.currentDriveMode = window.currentDriveMode) ∧
      result.window.receiving = window.receiving ∧ Moves False window result.window := by
  cases worker with
  | starting =>
      cases h
      exact ⟨by simp, by simp, rfl, .reset hthread rfl⟩
  | looping queryHeartbeatState setDriveModeState =>
      have hpast : Worker.looping queryHeartbeatState setDriveModeState ≠ .starting := by
        intro h
        cases h
      cases queryHeartbeatState with
      | true =>
          rw [connectingWorker, if_pos rfl] at h
          split at h
          · cases h
            exact ⟨by simp, by simp, rfl, Moves.of_past hthread hpast rfl⟩
          · obtain ⟨buffer, hbuffer, h⟩ := bind_eq_ok.mp h
            obtain ⟨sent, hsent, h⟩ := bind_eq_ok.mp h
            cases h
            refine ⟨fun send hmem => ?_, by simp, rfl, Moves.of_past hthread hpast rfl⟩
            rw [List.mem_singleton.mp hmem, (packetSocketSend_eq_ok hsent).1]
            exact .of_packet .queryHeartbeat hbuffer
      | false =>
          cases setDriveModeState with
          | true =>
              obtain ⟨buffer, hbuffer, h⟩ := bind_eq_ok.mp h
              obtain ⟨sent, hsent, h⟩ := bind_eq_ok.mp h
              cases h
              refine ⟨fun send hmem => ?_, by simp, rfl, Moves.of_past hthread hpast rfl⟩
              rw [List.mem_singleton.mp hmem, (packetSocketSend_eq_ok hsent).1]
              exact .of_modeRequest hbuffer
          | false =>
              cases h
              exact ⟨by simp, by simp, rfl, .ended rfl⟩
  | requested =>
      rw [connectingWorker] at h
      split at h
      · next hset =>
        cases h
        exact ⟨by simp, fun _ => ⟨rfl, hset, rfl, rfl⟩, rfl,
          Moves.of_past hthread (by decide) rfl⟩
      · cases h
        exact ⟨by simp, by simp, rfl, Moves.of_past hthread (by decide) rfl⟩
  | done =>
      cases h
      exact ⟨by simp, by simp, rfl, .ended rfl⟩

theorem sendCommand_spec {window : MainWindow} {command : Command} {result : WindowStep}
    (h : window.sendCommand command = .ok result) :
    (∀ send ∈ result.sends, Built send.buffer) ∧ result.logs = [] ∧
      result.window = window := by
  rw [sendCommand] at h
  split at h
  · cases h
    exact ⟨by simp, rfl, rfl⟩
  · obtain ⟨buffer, hbuffer, h⟩ := bind_eq_ok.mp h
    obtain ⟨sent, hsent, h⟩ := bind_eq_ok.mp h
    cases h
    refine ⟨fun send hmem => ?_, rfl, rfl⟩
    rw [List.mem_singleton.mp hmem, (packetSocketSend_eq_ok hsent).1]
    exact .of_packet command.request hbuffer

end MainWindow

end Lame
