/-
  Lame/Robot.lean
  ===============
  **The robot: `BLER.cpp` as a transition system.**

  A step is one iteration of one of the robot's thread loops, a datagram arriving
  at the socket being an iteration of the UDP loop, or an advance of the clock.
  Everything an iteration reads from outside the process is part of the event:
  the datagram and its sender, the joystick readings, camera frames, the outcome
  of opening and connecting a TCP client, and the contents of locals the code
  leaves uninitialised.  The state keeps the fields of `BLER`, the global JPEG
  quality `params[1]`, the clock, and the UDP loop's `read_buffer`, which
  survives from one iteration to the next.

  `baseStationAddr` is not initialised by the constructor; `none` stands for its
  indeterminate contents.  The JPEG encoder of the vision library is a parameter.
-/
import Lame.Messages
import Lame.LabelledRuns

namespace Lame

open ByteMemory LabelledRuns

/-! ## 1. Constants and state -/

def READ_BUFFER_SIZE : Nat := 64
def AI_TIMEOUT_INTERVAL : Int := 5
def XBOX_DEADZONE : Int8 := 20
def BASE_IMAGE_PORT : UInt16 := 11000

def AF_INET : UInt16 := 2
def INADDR_LOOPBACK : UInt32 := 0x7F000001

/-- `struct sockaddr_in`, with the values before `htonl` and `htons`. -/
structure SockAddr where
  sin_family : UInt16
  s_addr : UInt32
  sin_port : UInt16
deriving DecidableEq, Repr

inductive DriveMode where
  | direct
  | remote
  | ai
deriving DecidableEq, Repr

/-- `cv::Mat`: the pixels, none when `data` is null. -/
abbrev Mat := List UInt8

inductive Thread where
  | serialRead
  | udpRead
  | execute
  | aiHeartbeat
  | cameraRead
  | cameraSend
deriving DecidableEq, Repr

structure Robot where
  isRunning : Bool
  aiConnected : Bool
  baseStationAddr : Option SockAddr
  aiAddr : SockAddr
  currentMode : DriveMode
  latestCameraFrame : Mat
  latestCamera1Frame : Mat
  latestDrivePayload : DrivePayload
  lastDrivePayloadReceivedTime : Int
  lastAIHeartbeatReceivedTime : Int
  quality : Nat
  read_buffer : List UInt8
  now : Int
deriving DecidableEq, Repr

/-- What an iteration sends.  `none` is an address that was never assigned. -/
inductive Output where
  | udp (bytes : List UInt8) (dest : Option SockAddr)
  | serial (bytes : List UInt8)
  | image (dest : Option SockAddr) (header data : List UInt8)
deriving DecidableEq, Repr

/-- The contents of the locals that `ReceivePacketsFromUdp` does not initialise. -/
structure Leftovers where
  localPayload : DrivePayload
  localCamPayload : CameraQualityPayload
deriving DecidableEq, Repr

/-- The outcomes of `TcpClient::Open` and `TcpClient::Connect`. -/
structure ImageLink where
  opened : Bool
  connected : Bool
deriving DecidableEq, Repr

/-- The joystick service: the connected ids, and what `GetLeftY` and `GetRightY`
    deliver (`none` when the call returns false). -/
structure Joystick where
  ids : List Int
  leftY : Option Int32
  rightY : Option Int32
deriving DecidableEq, Repr

inductive Event where
  | tick (seconds : Nat)
  | udpReadFailed
  | datagram (bytes : List UInt8) (sender : SockAddr) (leftovers : Leftovers)
      (link : ImageLink)
  | serialRead
  | execute (js : Joystick) (leftovers : DrivePayload)
  | cameraRead (img img1 : Mat)
  | cameraSend (link : ImageLink)
  | aiHeartbeat
deriving DecidableEq, Repr

def Event.thread : Event → Option Thread
  | .tick _ => none
  | .udpReadFailed => some .udpRead
  | .datagram .. => some .udpRead
  | .serialRead => some .serialRead
  | .execute .. => some .execute
  | .cameraRead .. => some .cameraRead
  | .cameraSend _ => some .cameraSend
  | .aiHeartbeat => some .aiHeartbeat

/-! ## 2. Start-up -/

def ZERO_DRIVE : DrivePayload := ⟨0, 0, 0, 0, 0⟩

namespace Robot

/-- The constructor `BLER::BLER`, at clock value `now`. -/
def create (ai_port : Int) (now : Int) : Robot where
  isRunning := false
  aiConnected := false
  baseStationAddr := none
  aiAddr := ⟨AF_INET, INADDR_LOOPBACK, UInt16.ofInt ai_port⟩
  currentMode := .direct
  latestCameraFrame := []
  latestCamera1Frame := []
  latestDrivePayload := ZERO_DRIVE
  lastDrivePayloadReceivedTime := now
  lastAIHeartbeatReceivedTime := now
  quality := 15
  read_buffer := List.replicate READ_BUFFER_SIZE 0
  now := now

/-- `BLER::Run`: the threads it starts, `none` when it returns false. -/
def run (robot : Robot) (socketOpened serialOpened joysticksInitialized : Bool) :
    Option (Robot × List Thread) :=
  if !socketOpened then none
  else if !serialOpened then none
  else if !joysticksInitialized then none
  else some ({ robot with isRunning := true },
    [.serialRead, .udpRead, .execute, .cameraRead, .cameraSend])

/-! ## 3. Sending -/

def sendPacketSerial (buffer : List UInt8) (length : Nat) : List Output :=
  [.serial (buffer.take length)]

def sendPacketUdp (buffer : List UInt8) (length : Nat) (addr : Option SockAddr) :
    List Output :=
  [.udp (buffer.take length) addr]

/-- `firstPkt` of `SendCameraImage`. -/
def imageHeader (size : Nat) (id : Nat) : List UInt8 :=
  [0xAA, UInt8.ofNat (size >>> 24), UInt8.ofNat (size >>> 16), UInt8.ofNat (size >>> 8),
    UInt8.ofNat size, UInt8.ofNat id, 0x7F]

variable (imencode : Mat → Nat → Option (List UInt8))

def sendCameraImage (robot : Robot) (id : Nat) (link : ImageLink) : List Output :=
  let img := if id = 0 then robot.latestCameraFrame else robot.latestCamera1Frame
  if img = [] then []
  else match imencode img robot.quality with
    | none => []
    | some raw_compressed_data =>
        if !link.opened then []
        else
          let img_addr := robot.baseStationAddr.map fun addr =>
            { addr with sin_port := BASE_IMAGE_PORT }
          if !link.connected then []
          else [.image img_addr (imageHeader raw_compressed_data.length id)
            raw_compressed_data]

/-! ## 4. The UDP loop -/

def ZERO_PKT : List UInt8 := List.replicate 16 0

def isFromAi (robot : Robot) (addr : SockAddr) : Bool :=
  addr.sin_family == AF_INET && addr.s_addr == INADDR_LOOPBACK &&
    addr.sin_port == robot.aiAddr.sin_port

/-- The `switch` on the opcode.  `none` is the `default` branch, which continues
    with the next iteration and leaves `read_buffer` as it is. -/
def dispatch (robot : Robot) (addr : SockAddr) (is_from_ai : Bool) (header : HeaderResult)
    (bytes_read : Nat) (leftovers : Leftovers) (link : ImageLink) :
    Exec (Option (Robot × List Output)) :=
  if header.opcode = QUERY_HEARTBEAT_OPCODE then do
    let (pkt, bytes_written) ← createReportHeartbeatPacket ZERO_PKT 16
    let sent := sendPacketUdp pkt bytes_written (some addr)
    if is_from_ai then
      return some ({ robot with aiConnected := true
                                lastAIHeartbeatReceivedTime := robot.now }, sent)
    else return some (robot, sent)
  else if header.opcode = AI_SWITCH_OPCODE then do
    let robot := { robot with currentMode := DriveMode.ai }
    let (pkt, bytes_written) ← createSwitchModeAckPacket ZERO_PKT 16
    let sent := sendPacketUdp pkt bytes_written (some addr)
    if !robot.aiConnected then return some (robot, sent)
    else
      let (pkt, bytes_written) ← createAiInitPacket ZERO_PKT 16
      return some (robot, sent ++ sendPacketUdp pkt bytes_written (some addr))
  else if header.opcode = REMOTE_SWITCH_OPCODE then do
    let robot := { robot with lastDrivePayloadReceivedTime := robot.now
                              currentMode := DriveMode.remote }
    let (pkt, bytes_written) ← createSwitchModeAckPacket ZERO_PKT 16
    return some (robot, sendPacketUdp pkt bytes_written robot.baseStationAddr)
  else if header.opcode = DIRECT_SWITCH_OPCODE then
    return some ({ robot with currentMode := DriveMode.direct }, [])
  else if header.opcode = QUERY_CAMERA_IMAGE_OPCODE then
    return some (robot, sendCameraImage imencode robot 0 link)
  else if header.opcode = QUERY_CAMERA1_IMAGE_OPCODE then
    return some (robot, sendCameraImage imencode robot 1 link)
  else if header.opcode = SET_CAMERA_QUALITY_OPCODE then do
    let localCamPayload ← parseQualityPayload header.payload leftovers.localCamPayload
    let quality := localCamPayload.quality.toNat
    return some ({ robot with quality := if quality > 100 then 100 else quality }, [])
  else if header.opcode = DRIVE_OPCODE then do
    let localPayload ← parseDrivePayload header.payload leftovers.localPayload
    return some ({ robot with latestDrivePayload := localPayload
                              lastDrivePayloadReceivedTime := robot.now }, [])
  else if header.opcode = ENABLE_ENCODER_OPCODE then
    return some (robot, sendPacketSerial header.buffer bytes_read)
  else if header.opcode = DISABLE_ENCODER_OPCODE then
    return some (robot, sendPacketSerial header.buffer bytes_read)
  else return none

/-- One iteration of `ReceivePacketsFromUdp` whose `Read` returns a datagram.  The
    socket delivers at most `READ_BUFFER_SIZE` bytes of it. -/
def receivePacketsFromUdp (robot : Robot) (datagram : List UInt8) (addr : SockAddr)
    (leftovers : Leftovers) (link : ImageLink) : Exec (Robot × List Output) := do
  let received := datagram.take READ_BUFFER_SIZE
  let bytes_read := received.length
  let read_buffer := received ++ robot.read_buffer.drop bytes_read
  let is_from_ai := robot.isFromAi addr
  let robot := if !is_from_ai then { robot with baseStationAddr := some addr } else robot
  let header ← readPacketHeader read_buffer (UInt8.ofNat bytes_read) 0 none
  let robot := { robot with read_buffer := header.buffer }
  if header.ret = 0 then return (robot, [])
  else
    match ← dispatch imencode robot addr is_from_ai header bytes_read leftovers link with
    | none => return (robot, [])
    | some (robot, sent) =>
        return ({ robot with read_buffer := List.replicate READ_BUFFER_SIZE 0 }, sent)

/-! ## 5. The other loops -/

/-- `DriveMode::Direct`: only `left` and `right` of the payload are assigned. -/
def directPayload (js : Joystick) (leftovers : DrivePayload) : DrivePayload :=
  let left := (js.leftY.getD 0).toInt8
  let right := (js.rightY.getD 0).toInt8
  { leftovers with
    left := if left > -XBOX_DEADZONE ∧ left < XBOX_DEADZONE then 0 else left
    right := if right > -XBOX_DEADZONE ∧ right < XBOX_DEADZONE then 0 else right }

/-- `DriveMode::Remote`: the stored command, stopped after two seconds. -/
def remotePayload (robot : Robot) : DrivePayload :=
  if robot.now - robot.lastDrivePayloadReceivedTime > 2 then
    { robot.latestDrivePayload with left := 0, right := 0 }
  else robot.latestDrivePayload

def execute (robot : Robot) (js : Joystick) (leftovers : DrivePayload) :
    Exec (Robot × List Output) := do
  let buffer := List.replicate 64 0
  match robot.currentMode with
  | .direct =>
      if js.ids.length < 1 then return (robot, [])
      else
        let (buffer, bytes_written) ← createDrivePacket buffer 64 (directPayload js leftovers)
        return (robot, sendPacketSerial buffer bytes_written)
  | .remote =>
      let (buffer, bytes_written) ← createDrivePacket buffer 64 robot.remotePayload
      return (robot, sendPacketSerial buffer bytes_written)
  | .ai => return (robot, [])

def queryHeartbeatAI (robot : Robot) : Exec (Robot × List Output) := do
  let (queryBuffer, queryHeartbeatWritten) ← createQueryHeartbeatPacket ZERO_PKT 16
  let (remoteBuffer, remoteWritten) ← createRemoteSwitchPacket ZERO_PKT 16
  if robot.currentMode ≠ .ai then return (robot, [])
  else
    let query := sendPacketUdp queryBuffer queryHeartbeatWritten (some robot.aiAddr)
    if robot.now - robot.lastAIHeartbeatReceivedTime > AI_TIMEOUT_INTERVAL then
      return ({ robot with currentMode := .remote },
        sendPacketUdp remoteBuffer remoteWritten robot.baseStationAddr ++ query)
    else return (robot, query)

/-- One iteration of `CameraReadThread`; a camera that is not open delivers `[]`. -/
def cameraRead (robot : Robot) (img img1 : Mat) : Robot :=
  { robot with
    latestCameraFrame := if img = [] then robot.latestCameraFrame else img
    latestCamera1Frame := if img1 = [] then robot.latestCamera1Frame else img1 }

/-! ## 6. The transition system -/

def step (robot : Robot) : Event → Exec (Robot × List Output)
  | .tick seconds => .ok ({ robot with now := robot.now + seconds }, [])
  | .udpReadFailed => .ok (robot, [])
  | .datagram bytes sender leftovers link =>
      if robot.isRunning then
        receivePacketsFromUdp imencode robot bytes sender leftovers link
      else .ok (robot, [])
  | .serialRead => .ok (robot, [])
  | .execute js leftovers =>
      if robot.isRunning then robot.execute js leftovers else .ok (robot, [])
  | .cameraRead img img1 =>
      .ok (if robot.isRunning then robot.cameraRead img img1 else robot, [])
  | .cameraSend link =>
      .ok (robot, if robot.isRunning then sendCameraImage imencode robot 1 link else [])
  | .aiHeartbeat => if robot.isRunning then robot.queryHeartbeatAI else .ok (robot, [])

def startedThreads : List Thread :=
  [.serialRead, .udpRead, .execute, .cameraRead, .cameraSend]

/-- A robot right after a successful `BLER::Run`. -/
def Started (robot : Robot) : Prop :=
  ∃ ai_port now threads, (create ai_port now).run true true true = some (robot, threads)

/-- The robot with the given threads running: only their loops iterate. -/
def system (threads : List Thread) : System Robot Event Output :=
  System.ofStep Started (fun event => ∀ thread ∈ event.thread, thread ∈ threads)
    (step imencode)

theorem run_eq_some_iff {robot started : Robot} {threads : List Thread}
    {socketOpened serialOpened joysticksInitialized : Bool} :
    robot.run socketOpened serialOpened joysticksInitialized = some (started, threads) ↔
      (socketOpened && serialOpened && joysticksInitialized) = true ∧
        started = { robot with isRunning := true } ∧ threads = startedThreads := by
  cases socketOpened <;> cases serialOpened <;> cases joysticksInitialized <;>
    simp [run, startedThreads, eq_comm]

end Robot

end Lame
