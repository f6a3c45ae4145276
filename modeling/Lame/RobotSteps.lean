/-
  Lame/RobotSteps.lean
  ====================
  **What one step of the robot can do, said once.**

  `Handles` lists the effects of one iteration of the UDP loop on a datagram, one
  case per `case` of the source's `switch`; `Effect` adds the other loops and the
  clock.  `step_spec` proves that an iteration never leaves its buffer and that
  its effect is one of these; every property of runs is derived from it.  The
  contents of `read_buffer` are left out of both relations: they reach nothing
  but the next read.
-/
import Lame.Robot

namespace Lame

open ByteMemory LabelledRuns SectionStuffing

/-! ## 1. Requests -/

/-- What the socket delivers of a datagram. -/
def delivered (datagram : List UInt8) : List UInt8 := datagram.take READ_BUFFER_SIZE

/-- The opcode a datagram is dispatched on, `none` when `ReadPacketHeader` refuses
    it. -/
def requestedOpcode (datagram : List UInt8) : Option UInt8 :=
  if PKT_MIN_SIZE ≤ (delivered datagram).length ∧ Accepted (delivered datagram) then
    some (decodedOpcode (delivered datagram))
  else none

/-- The values of `left` and `right` in a DRIVE datagram whose payload reaches
    that far. -/
def carriedDrive (datagram : List UInt8) : Option (Int8 × Int8) :=
  if requestedOpcode datagram = some DRIVE_OPCODE then
    match decoded (delivered datagram) with
    | _ :: _ :: _ :: left :: right :: _ :: _ => some (left.toInt8, right.toInt8)
    | _ => none
  else none

theorem carriedDrive_eq_some {datagram : List UInt8} {left right : Int8}
    (h : carriedDrive datagram = some (left, right)) :
    requestedOpcode datagram = some DRIVE_OPCODE ∧
      ∃ header opcode size first second next rest,
        decoded (delivered datagram) =
          header :: opcode :: size :: first :: second :: next :: rest ∧
        left = first.toInt8 ∧ right = second.toInt8 := by
  rw [carriedDrive] at h
  split at h
  · next hop =>
    split at h
    · next hdecoded =>
      cases h
      exact ⟨hop, _, _, _, _, _, _, _, hdecoded, rfl, rfl⟩
    · cases h
  · cases h

def Event.requested : Event → Option UInt8
  | .datagram bytes .. => requestedOpcode bytes
  | _ => none

theorem Event.exists_datagram {event : Event} {opcode : UInt8}
    (h : event.requested = some opcode) :
    ∃ bytes sender leftovers link, event = .datagram bytes sender leftovers link ∧
      requestedOpcode bytes = some opcode := by
  cases event with
  | datagram bytes sender leftovers link => exact ⟨bytes, sender, leftovers, link, rfl, h⟩
  | _ => cases h

def Event.carried : Event → Option (Int8 × Int8)
  | .datagram bytes .. => carriedDrive bytes
  | _ => none

/-- The opcodes that have a `case` in `ReceivePacketsFromUdp`. -/
def HANDLED_OPCODES : List UInt8 :=
  [QUERY_HEARTBEAT_OPCODE, AI_SWITCH_OPCODE, REMOTE_SWITCH_OPCODE, DIRECT_SWITCH_OPCODE,
    QUERY_CAMERA_IMAGE_OPCODE, QUERY_CAMERA1_IMAGE_OPCODE, SET_CAMERA_QUALITY_OPCODE,
    DRIVE_OPCODE, ENABLE_ENCODER_OPCODE, DISABLE_ENCODER_OPCODE]

theorem length_delivered_le (datagram : List UInt8) : (delivered datagram).length ≤ 64 := by
  rw [delivered, List.length_take]
  exact Nat.min_le_left _ _

theorem Message.delivered_frame (message : Message) :
    delivered message.frame = message.frame := by
  have hbounds := message.frameLength_bounds
  exact List.take_of_length_le (by simp only [length_frame, READ_BUFFER_SIZE]; omega)

/-- A message the builders complete reaches the dispatch under its own opcode. -/
theorem Message.requestedOpcode_frame {message : Message}
    (hend : message.lacksEndByte = false) :
    requestedOpcode message.frame = some message.opcode := by
  have hbounds := message.frameLength_bounds
  rw [requestedOpcode, message.delivered_frame, if_pos]
  · rw [decodedOpcode, message.decoded_frame]
    rfl
  · rw [length_frame]
    exact ⟨by simp only [PKT_MIN_SIZE]; omega, message.accepted_frame_iff.mpr hend⟩

def BASE_STATION : SockAddr := ⟨AF_INET, 0xC0A80002, 5000⟩

def datagramOf (message : Message) (sender : SockAddr) : Event :=
  .datagram message.frame sender ⟨ZERO_DRIVE, ⟨0⟩⟩ ⟨true, true⟩

namespace Robot

/-! ## 2. The effect of a datagram -/

/-- The robot after it has noted the sender of a datagram. -/
def heardFrom (robot : Robot) (addr : SockAddr) : Robot :=
  if robot.isFromAi addr then robot else { robot with baseStationAddr := some addr }

section HeardFrom

variable (robot : Robot) (addr : SockAddr)

@[simp] theorem heardFrom_isRunning : (robot.heardFrom addr).isRunning = robot.isRunning := by
  rw [heardFrom]; split <;> rfl

@[simp] theorem heardFrom_aiConnected :
    (robot.heardFrom addr).aiConnected = robot.aiConnected := by
  rw [heardFrom]; split <;> rfl

@[simp] theorem heardFrom_latestDrivePayload :
    (robot.heardFrom addr).latestDrivePayload = robot.latestDrivePayload := by
  rw [heardFrom]; split <;> rfl

@[simp] theorem heardFrom_lastDrivePayloadReceivedTime :
    (robot.heardFrom addr).lastDrivePayloadReceivedTime =
      robot.lastDrivePayloadReceivedTime := by
  rw [heardFrom]; split <;> rfl

@[simp] theorem heardFrom_now : (robot.heardFrom addr).now = robot.now := by
  rw [heardFrom]; split <;> rfl

@[simp] theorem heardFrom_aiAddr : (robot.heardFrom addr).aiAddr = robot.aiAddr := by
  rw [heardFrom]; split <;> rfl

end HeardFrom

variable (imencode : Mat → Nat → Option (List UInt8))

/-- What one iteration of the UDP loop does with a datagram. -/
inductive Handles (robot : Robot) (datagram : List UInt8) (addr : SockAddr)
    (link : ImageLink) : Robot → List Output → Prop where
  | ignored (hop : ∀ opcode ∈ requestedOpcode datagram, opcode ∉ HANDLED_OPCODES) :
      Handles robot datagram addr link (robot.heardFrom addr) []
  | queryHeartbeat (hop : requestedOpcode datagram = some QUERY_HEARTBEAT_OPCODE)
      (hbase : robot.isFromAi addr = false) :
      Handles robot datagram addr link (robot.heardFrom addr)
        [.udp Message.reportHeartbeat.frame (some addr)]
  | queryHeartbeatAi (hop : requestedOpcode datagram = some QUERY_HEARTBEAT_OPCODE)
      (hai : robot.isFromAi addr = true) :
      Handles robot datagram addr link
        { robot.heardFrom addr with aiConnected := true
                                    lastAIHeartbeatReceivedTime :=
                                      (robot.heardFrom addr).now }
        [.udp Message.reportHeartbeat.frame (some addr)]
  | aiSwitch (hop : requestedOpcode datagram = some AI_SWITCH_OPCODE) :
      Handles robot datagram addr link { robot.heardFrom addr with currentMode := .ai }
        (.udp Message.switchModeAck.frame (some addr) ::
          if (robot.heardFrom addr).aiConnected then
            [.udp Message.aiInit.frame (some addr)]
          else [])
  | remoteSwitch (hop : requestedOpcode datagram = some REMOTE_SWITCH_OPCODE) :
      Handles robot datagram addr link
        { robot.heardFrom addr with lastDrivePayloadReceivedTime := (robot.heardFrom addr).now
                                    currentMode := .remote }
        [.udp Message.switchModeAck.frame (robot.heardFrom addr).baseStationAddr]
  | directSwitch (hop : requestedOpcode datagram = some DIRECT_SWITCH_OPCODE) :
      Handles robot datagram addr link { robot.heardFrom addr with currentMode := .direct } []
  | queryCameraImage (id : Nat)
      (hop : id = 0 ∧ requestedOpcode datagram = some QUERY_CAMERA_IMAGE_OPCODE ∨
        id = 1 ∧ requestedOpcode datagram = some QUERY_CAMERA1_IMAGE_OPCODE) :
      Handles robot datagram addr link (robot.heardFrom addr)
        (sendCameraImage imencode (robot.heardFrom addr) id link)
  | setCameraQuality (quality : Nat) (hle : quality ≤ 100)
      (hop : requestedOpcode datagram = some SET_CAMERA_QUALITY_OPCODE) :
      Handles robot datagram addr link { robot.heardFrom addr with quality := quality } []
  | drive (payload : DrivePayload) (hop : requestedOpcode datagram = some DRIVE_OPCODE)
      (hcarried : ∀ left right, carriedDrive datagram = some (left, right) →
        payload.left = left ∧ payload.right = right) :
      Handles robot datagram addr link
        { robot.heardFrom addr with latestDrivePayload := payload
                                    lastDrivePayloadReceivedTime :=
                                      (robot.heardFrom addr).now } []
  | encoder (hop : requestedOpcode datagram = some ENABLE_ENCODER_OPCODE ∨
        requestedOpcode datagram = some DISABLE_ENCODER_OPCODE) :
      Handles robot datagram addr link (robot.heardFrom addr)
        [.serial (decodedCells (delivered datagram))]

/-! ## 3. The UDP loop has these effects -/

theorem sendPacketUdp_created {message : Message} {pkt : List UInt8}
    (htake : pkt.take message.frameLength = message.frame) (addr : Option SockAddr) :
    sendPacketUdp pkt message.frameLength addr = [.udp message.frame addr] := by
  rw [sendPacketUdp, htake]

theorem exists_parseDrivePayload (bytes : List UInt8) (h : 5 ≤ bytes.length)
    (old : DrivePayload) :
    ∃ payload, parseDrivePayload (some bytes) old = .ok payload ∧
      ∀ left right rest, bytes = left :: right :: rest →
        payload.left = left.toInt8 ∧ payload.right = right.toInt8 := by
  match bytes, h with
  | left :: right :: actuator :: scooper :: vibrator :: rest, _ =>
      refine ⟨_, rfl, fun _ _ _ hbytes => ?_⟩
      cases hbytes
      exact ⟨rfl, rfl⟩

theorem exists_parseQualityPayload (bytes : List UInt8) (h : 1 ≤ bytes.length)
    (old : CameraQualityPayload) :
    ∃ payload, parseQualityPayload (some bytes) old = .ok payload := by
  match bytes, h with
  | quality :: rest, _ => exact ⟨_, rfl⟩

/-- The header `ReadPacketHeader` leaves for an accepted datagram, with `cells`
    behind the delivered bytes. -/
def headerOf (datagram cells : List UInt8) : HeaderResult where
  buffer := decodedCells (delivered datagram) ++ cells
  ret := (decoded (delivered datagram)).length
  opcode := decodedOpcode (delivered datagram)
  payload :=
    if (decoded (delivered datagram)).length = PKT_MIN_SIZE then none
    else some ((decodedCells (delivered datagram) ++ cells).drop PKT_PAYLOAD_START_INDEX)

/-- The DRIVE payload an accepted datagram leads to: its own bytes as far as they
    reach, then whatever stands behind them. -/
theorem exists_drive_payload {datagram cells : List UInt8}
    (hcells : (delivered datagram).length + cells.length = 64) (old : DrivePayload) :
    ∃ payload, parseDrivePayload (headerOf datagram cells).payload old = .ok payload ∧
      ∀ left right, carriedDrive datagram = some (left, right) →
        payload.left = left ∧ payload.right = right := by
  have hlen : (decodedCells (delivered datagram) ++ cells).length = 64 := by simpa using hcells
  obtain ⟨tail, htail⟩ := decoded_prefix (delivered datagram)
  by_cases hmin : (decoded (delivered datagram)).length = PKT_MIN_SIZE
  · refine ⟨old, by rw [headerOf, if_pos hmin]; rfl, fun left right hcarried => ?_⟩
    obtain ⟨-, _, _, _, _, _, _, _, hdecoded, -⟩ := carriedDrive_eq_some hcarried
    simp [hdecoded, PKT_MIN_SIZE] at hmin
  · obtain ⟨payload, hparse, hbytes⟩ := exists_parseDrivePayload
      ((decodedCells (delivered datagram) ++ cells).drop PKT_PAYLOAD_START_INDEX)
      (by simp only [List.length_drop, hlen, PKT_PAYLOAD_START_INDEX]; omega) old
    refine ⟨payload, by rw [headerOf, if_neg hmin]; exact hparse,
      fun left right hcarried => ?_⟩
    obtain ⟨-, _, _, _, _, _, _, _, hdecoded, rfl, rfl⟩ := carriedDrive_eq_some hcarried
    rw [hdecoded] at htail
    exact hbytes _ _ _ (by rw [← htail]; rfl)

theorem exists_quality_payload {datagram cells : List UInt8}
    (hcells : (delivered datagram).length + cells.length = 64) (old : CameraQualityPayload) :
    ∃ cam, parseQualityPayload (headerOf datagram cells).payload old = .ok cam := by
  have hlen : (decodedCells (delivered datagram) ++ cells).length = 64 := by simpa using hcells
  by_cases hmin : (decoded (delivered datagram)).length = PKT_MIN_SIZE
  · exact ⟨old, by rw [headerOf, if_pos hmin]; rfl⟩
  · obtain ⟨cam, hparse⟩ := exists_parseQualityPayload
      ((decodedCells (delivered datagram) ++ cells).drop PKT_PAYLOAD_START_INDEX)
      (by simp only [List.length_drop, hlen, PKT_PAYLOAD_START_INDEX]; omega) old
    exact ⟨cam, by rw [headerOf, if_neg hmin]; exact hparse⟩

/-- **The dispatch** of an accepted datagram. -/
theorem dispatch_spec (robot : Robot) (datagram cells : List UInt8) (addr : SockAddr)
    (leftovers : Leftovers) (link : ImageLink)
    (hcells : (delivered datagram).length + cells.length = 64)
    (haccepted : requestedOpcode datagram = some (headerOf datagram cells).opcode) :
    (dispatch imencode (robot.heardFrom addr) addr (robot.isFromAi addr)
        (headerOf datagram cells) (delivered datagram).length leftovers link = .ok none ∧
      (headerOf datagram cells).opcode ∉ HANDLED_OPCODES) ∨
    ∃ next outputs,
      dispatch imencode (robot.heardFrom addr) addr (robot.isFromAi addr)
        (headerOf datagram cells) (delivered datagram).length leftovers link =
        .ok (some (next, outputs)) ∧
      Handles imencode robot datagram addr link next outputs := by
  obtain ⟨report, hreport, hreportSent⟩ :=
    Message.reportHeartbeat.create_sent 16 16 (by decide) (by decide)
  obtain ⟨ack, hack, hackSent⟩ :=
    Message.switchModeAck.create_sent 16 16 (by decide) (by decide)
  obtain ⟨start, hstart, hstartSent⟩ :=
    Message.aiInit.create_sent 16 16 (by decide) (by decide)
  change createReportHeartbeatPacket ZERO_PKT 16 = _ at hreport
  change createSwitchModeAckPacket ZERO_PKT 16 = _ at hack
  change createAiInitPacket ZERO_PKT 16 = _ at hstart
  have hforward : sendPacketSerial (headerOf datagram cells).buffer
      (delivered datagram).length = [.serial (decodedCells (delivered datagram))] := by
    rw [sendPacketSerial, headerOf, ← length_decodedCells, List.take_left]
  rw [dispatch]
  by_cases hheartbeat : (headerOf datagram cells).opcode = QUERY_HEARTBEAT_OPCODE
  · rw [if_pos hheartbeat, hreport, ok_bind]
    rw [hheartbeat] at haccepted
    cases hai : robot.isFromAi addr with
    | true =>
        refine .inr ⟨_, _, rfl, ?_⟩
        rw [sendPacketUdp_created hreportSent]
        exact .queryHeartbeatAi haccepted hai
    | false =>
        refine .inr ⟨_, _, rfl, ?_⟩
        rw [sendPacketUdp_created hreportSent]
        exact .queryHeartbeat haccepted hai
  rw [if_neg hheartbeat]
  by_cases hai : (headerOf datagram cells).opcode = AI_SWITCH_OPCODE
  · rw [if_pos hai, hack, ok_bind, hstart]
    dsimp only
    rw [hai] at haccepted
    have hhandles := @Handles.aiSwitch imencode robot datagram addr link haccepted
    by_cases hconnected : (robot.heardFrom addr).aiConnected = true
    · rw [if_neg (by rw [hconnected]; decide)]
      refine .inr ⟨_, _, rfl, ?_⟩
      rw [if_pos hconnected] at hhandles
      rw [sendPacketUdp_created hackSent, sendPacketUdp_created hstartSent]
      exact hhandles
    · rw [if_pos (by rw [Bool.not_eq_true] at hconnected; rw [hconnected]; decide)]
      refine .inr ⟨_, _, rfl, ?_⟩
      rw [if_neg hconnected] at hhandles
      rw [sendPacketUdp_created hackSent]
      exact hhandles
  rw [if_neg hai]
  by_cases hremote : (headerOf datagram cells).opcode = REMOTE_SWITCH_OPCODE
  · rw [if_pos hremote, hack, ok_bind]
    rw [hremote] at haccepted
    refine .inr ⟨_, _, rfl, ?_⟩
    rw [sendPacketUdp_created hackSent]
    exact .remoteSwitch haccepted
  rw [if_neg hremote]
  by_cases hdirect : (headerOf datagram cells).opcode = DIRECT_SWITCH_OPCODE
  · rw [if_pos hdirect]
    exact .inr ⟨_, _, rfl, .directSwitch (hdirect ▸ haccepted)⟩
  rw [if_neg hdirect]
  by_cases himage : (headerOf datagram cells).opcode = QUERY_CAMERA_IMAGE_OPCODE
  · rw [if_pos himage]
    exact .inr ⟨_, _, rfl, .queryCameraImage 0 (.inl ⟨rfl, himage ▸ haccepted⟩)⟩
  rw [if_neg himage]
  by_cases himage1 : (headerOf datagram cells).opcode = QUERY_CAMERA1_IMAGE_OPCODE
  · rw [if_pos himage1]
    exact .inr ⟨_, _, rfl, .queryCameraImage 1 (.inr ⟨rfl, himage1 ▸ haccepted⟩)⟩
  rw [if_neg himage1]
  by_cases hquality : (headerOf datagram cells).opcode = SET_CAMERA_QUALITY_OPCODE
  · obtain ⟨cam, hparse⟩ := exists_quality_payload hcells leftovers.localCamPayload
    rw [if_pos hquality, hparse]
    refine .inr ⟨_, _, rfl, .setCameraQuality _ ?_ (hquality ▸ haccepted)⟩
    split <;> omega
  rw [if_neg hquality]
  by_cases hdrive : (headerOf datagram cells).opcode = DRIVE_OPCODE
  · rw [if_pos hdrive]
    obtain ⟨payload, hparse, hcarried⟩ :=
      exists_drive_payload hcells leftovers.localPayload
    rw [hparse]
    exact .inr ⟨_, _, rfl, .drive payload (hdrive ▸ haccepted) hcarried⟩
  rw [if_neg hdrive]
  by_cases henable : (headerOf datagram cells).opcode = ENABLE_ENCODER_OPCODE
  · rw [if_pos henable, hforward]
    exact .inr ⟨_, _, rfl, .encoder (.inl (henable ▸ haccepted))⟩
  rw [if_neg henable]
  by_cases hdisable : (headerOf datagram cells).opcode = DISABLE_ENCODER_OPCODE
  · rw [if_pos hdisable, hforward]
    exact .inr ⟨_, _, rfl, .encoder (.inr (hdisable ▸ haccepted))⟩
  rw [if_neg hdisable]
  refine .inl ⟨rfl, ?_⟩
  simp only [HANDLED_OPCODES, List.mem_cons, List.not_mem_nil, not_or]
  exact ⟨hheartbeat, hai, hremote, hdirect, himage, himage1, hquality, hdrive, henable,
    hdisable, id⟩

theorem isFromAi_with_read_buffer (robot : Robot) (cells : List UInt8) (addr : SockAddr) :
    isFromAi { robot with read_buffer := cells } addr = robot.isFromAi addr := rfl

theorem heardFrom_with_read_buffer (robot : Robot) (cells : List UInt8) (addr : SockAddr) :
    heardFrom { robot with read_buffer := cells } addr =
      { robot.heardFrom addr with read_buffer := cells } := by
  rw [heardFrom, isFromAi_with_read_buffer, heardFrom]
  split <;> rfl

theorem Handles.of_read_buffer {robot next : Robot} {cells datagram : List UInt8}
    {addr : SockAddr} {link : ImageLink} {outputs : List Output}
    (h : Handles imencode { robot with read_buffer := cells } datagram addr link next outputs) :
    Handles imencode robot datagram addr link
      { next with read_buffer := (robot.heardFrom addr).read_buffer } outputs := by
  cases h with
  | ignored hop => rw [heardFrom_with_read_buffer]; exact .ignored hop
  | queryHeartbeat hop hbase =>
      rw [heardFrom_with_read_buffer]; exact .queryHeartbeat hop hbase
  | queryHeartbeatAi hop hai =>
      rw [heardFrom_with_read_buffer]; exact .queryHeartbeatAi hop hai
  | aiSwitch hop => rw [heardFrom_with_read_buffer]; exact .aiSwitch hop
  | remoteSwitch hop => rw [heardFrom_with_read_buffer]; exact .remoteSwitch hop
  | directSwitch hop => rw [heardFrom_with_read_buffer]; exact .directSwitch hop
  | queryCameraImage id hop =>
      rw [heardFrom_with_read_buffer]; exact .queryCameraImage id hop
  | setCameraQuality quality hle hop =>
      rw [heardFrom_with_read_buffer]; exact .setCameraQuality quality hle hop
  | drive payload hop hcarried =>
      rw [heardFrom_with_read_buffer]; exact .drive payload hop hcarried
  | encoder hop => rw [heardFrom_with_read_buffer]; exact .encoder hop

def withBuffer (robot : Robot) (cells : List UInt8) : Robot :=
  { robot with read_buffer := cells }

theorem heardFrom_withBuffer (robot : Robot) (cells : List UInt8) (addr : SockAddr) :
    (robot.withBuffer cells).heardFrom addr = (robot.heardFrom addr).withBuffer cells :=
  heardFrom_with_read_buffer robot cells addr

theorem isFromAi_withBuffer (robot : Robot) (cells : List UInt8) (addr : SockAddr) :
    (robot.withBuffer cells).isFromAi addr = robot.isFromAi addr := rfl

/-- What stands in `read_buffer` behind the bytes a datagram delivers. -/
def cellsBehind (robot : Robot) (datagram : List UInt8) : List UInt8 :=
  robot.read_buffer.drop (delivered datagram).length

/-- The delivered cells after `ReadPacketHeader` has refused them: decoded in place
    unless they are too few to be looked at. -/
def refusedCells (datagram : List UInt8) : List UInt8 :=
  if PKT_MIN_SIZE ≤ (delivered datagram).length then decodedCells (delivered datagram)
  else delivered datagram

/-- The end of an iteration: an opcode without a `case` leaves the buffer as the
    header check left it, every other one clears it. -/
def concluded (checked : Robot) : Option (Robot × List Output) → Robot × List Output
  | none => (checked, [])
  | some (next, sent) => (next.withBuffer (List.replicate READ_BUFFER_SIZE 0), sent)

/-- One iteration, from the delivered bytes and the cells behind them on. -/
theorem receivePacketsFromUdp_eq (robot : Robot) (datagram : List UInt8) (addr : SockAddr)
    (leftovers : Leftovers) (link : ImageLink) :
    receivePacketsFromUdp imencode robot datagram addr leftovers link =
      (readPacketHeader (delivered datagram ++ robot.cellsBehind datagram)
        (UInt8.ofNat (delivered datagram).length) 0 none >>= fun header =>
      let checked := (robot.heardFrom addr).withBuffer header.buffer
      if header.ret = 0 then .ok (checked, [])
      else
        (dispatch imencode checked addr (robot.isFromAi addr) header
          (delivered datagram).length leftovers link).map (concluded checked)) := by
  have hheard : (if !robot.isFromAi addr then { robot with baseStationAddr := some addr }
      else robot) = robot.heardFrom addr := by
    rw [heardFrom]
    cases robot.isFromAi addr <;> rfl
  rw [receivePacketsFromUdp, hheard]
  dsimp only
  rw [← delivered, ← cellsBehind]
  congr 1
  funext header
  by_cases hret : header.ret = 0
  · rw [if_pos hret, if_pos hret]
    rfl
  · rw [if_neg hret, if_neg hret, ← withBuffer]
    cases dispatch imencode ((robot.heardFrom addr).withBuffer header.buffer) addr
        (robot.isFromAi addr) header (delivered datagram).length leftovers link with
    | error fault => rfl
    | ok result => cases result <;> rfl

theorem readPacketHeader_refused {datagram : List UInt8} (cells : List UInt8)
    (hop : requestedOpcode datagram = none) :
    readPacketHeader (delivered datagram ++ cells) (UInt8.ofNat (delivered datagram).length) 0
      none = .ok ⟨refusedCells datagram ++ cells, 0, 0, none⟩ := by
  have hdelivered := length_delivered_le datagram
  by_cases hlow : PKT_MIN_SIZE ≤ (delivered datagram).length
  · have hrej : ¬ Accepted (delivered datagram) := by
      intro haccepted
      rw [requestedOpcode, if_pos ⟨hlow, haccepted⟩] at hop
      cases hop
    rw [readPacketHeader_eq _ _ hlow (by omega), if_neg hrej, refusedCells, if_pos hlow]
  · have hlength : (UInt8.ofNat (delivered datagram).length).toNat < PKT_MIN_SIZE := by
      rw [UInt8.toNat_ofNat_of_lt' (by simp only [UInt8.size]; omega)]
      exact Nat.lt_of_not_le hlow
    rw [readPacketHeader_short hlength, refusedCells, if_neg hlow]

theorem readPacketHeader_accepted {datagram : List UInt8} {opcode : UInt8} (cells : List UInt8)
    (hop : requestedOpcode datagram = some opcode) :
    readPacketHeader (delivered datagram ++ cells) (UInt8.ofNat (delivered datagram).length) 0
        none = .ok (headerOf datagram cells) ∧
      (headerOf datagram cells).ret ≠ 0 ∧ (headerOf datagram cells).opcode = opcode := by
  have hdelivered := length_delivered_le datagram
  rw [requestedOpcode] at hop
  split at hop
  · next haccepted =>
    refine ⟨?_, ?_, Option.some.inj hop⟩
    · rw [readPacketHeader_eq _ _ haccepted.1 (by omega), if_pos haccepted.2]
      rfl
    · have htwo := haccepted.2.two_le
      simp only [headerOf]
      omega
  · cases hop

/-- A refused datagram is forgotten but for its sender and the bytes in the buffer. -/
theorem receive_refused (robot : Robot) {datagram : List UInt8} (addr : SockAddr)
    (leftovers : Leftovers) (link : ImageLink) (hop : requestedOpcode datagram = none) :
    receivePacketsFromUdp imencode robot datagram addr leftovers link =
      .ok ((robot.heardFrom addr).withBuffer
        (refusedCells datagram ++ robot.cellsBehind datagram), []) := by
  rw [receivePacketsFromUdp_eq, readPacketHeader_refused _ hop]
  rfl

/-- The robot at the dispatch of an accepted datagram. -/
def checked (robot : Robot) (datagram : List UInt8) (addr : SockAddr) : Robot :=
  (robot.heardFrom addr).withBuffer (headerOf datagram (robot.cellsBehind datagram)).buffer

/-- An accepted datagram is dispatched on its opcode. -/
theorem receive_accepted (robot : Robot) {datagram : List UInt8} {opcode : UInt8}
    (addr : SockAddr) (leftovers : Leftovers) (link : ImageLink)
    (hop : requestedOpcode datagram = some opcode) :
    receivePacketsFromUdp imencode robot datagram addr leftovers link =
      (dispatch imencode (robot.checked datagram addr) addr (robot.isFromAi addr)
        (headerOf datagram (robot.cellsBehind datagram)) (delivered datagram).length leftovers
        link).map (concluded (robot.checked datagram addr)) := by
  obtain ⟨hread, hret, -⟩ := readPacketHeader_accepted (robot.cellsBehind datagram) hop
  rw [receivePacketsFromUdp_eq, hread, ok_bind]
  dsimp only
  rw [if_neg hret, checked]

/-- A DRIVE stores what its payload parses to. -/
theorem receive_drive (robot : Robot) {datagram : List UInt8} (addr : SockAddr)
    (leftovers : Leftovers) (link : ImageLink) {payload : DrivePayload}
    (hop : requestedOpcode datagram = some DRIVE_OPCODE)
    (hparse : parseDrivePayload (headerOf datagram (robot.cellsBehind datagram)).payload
      leftovers.localPayload = .ok payload) :
    receivePacketsFromUdp imencode robot datagram addr leftovers link =
      .ok ({ robot.heardFrom addr with
        latestDrivePayload := payload
        lastDrivePayloadReceivedTime := robot.now
        read_buffer := List.replicate READ_BUFFER_SIZE 0 }, []) := by
  obtain ⟨-, -, hopcode⟩ := readPacketHeader_accepted (robot.cellsBehind datagram) hop
  rw [receive_accepted imencode robot addr leftovers link hop, ← heardFrom_now robot addr,
    dispatch, hopcode, if_neg (by decide), if_neg (by decide), if_neg (by decide),
    if_neg (by decide), if_neg (by decide), if_neg (by decide), if_neg (by decide),
    if_pos rfl, hparse]
  rfl

theorem receive_setCameraQuality (robot : Robot) {datagram : List UInt8} (addr : SockAddr)
    (leftovers : Leftovers) (link : ImageLink) {payload : CameraQualityPayload}
    (hop : requestedOpcode datagram = some SET_CAMERA_QUALITY_OPCODE)
    (hparse : parseQualityPayload (headerOf datagram (robot.cellsBehind datagram)).payload
      leftovers.localCamPayload = .ok payload) :
    receivePacketsFromUdp imencode robot datagram addr leftovers link =
      .ok ({ robot.heardFrom addr with
        quality := if payload.quality.toNat > 100 then 100 else payload.quality.toNat
        read_buffer := List.replicate READ_BUFFER_SIZE 0 }, []) := by
  obtain ⟨-, -, hopcode⟩ := readPacketHeader_accepted (robot.cellsBehind datagram) hop
  rw [receive_accepted imencode robot addr leftovers link hop, dispatch, hopcode,
    if_neg (by decide), if_neg (by decide), if_neg (by decide), if_neg (by decide),
    if_neg (by decide), if_neg (by decide), if_pos rfl, hparse]
  rfl

theorem length_cells {robot : Robot} (hbuffer : robot.read_buffer.length = 64)
    (datagram : List UInt8) :
    (delivered datagram).length + (robot.cellsBehind datagram).length = 64 := by
  have hdelivered := length_delivered_le datagram
  rw [cellsBehind, List.length_drop, hbuffer]
  omega

theorem length_refusedCells (datagram : List UInt8) :
    (refusedCells datagram).length = (delivered datagram).length := by
  rw [refusedCells]
  split
  · exact length_decodedCells _
  · rfl

/-- **An iteration of the UDP loop** stays inside its buffer and has one of the
    listed effects, whatever arrives. -/
theorem receivePacketsFromUdp_spec (robot : Robot) (hbuffer : robot.read_buffer.length = 64)
    (datagram : List UInt8) (addr : SockAddr) (leftovers : Leftovers) (link : ImageLink) :
    ∃ next outputs cells,
      receivePacketsFromUdp imencode robot datagram addr leftovers link =
        .ok ({ next with read_buffer := cells }, outputs) ∧ cells.length = 64 ∧
      Handles imencode robot datagram addr link next outputs := by
  have hcells := length_cells hbuffer datagram
  cases hop : requestedOpcode datagram with
  | none =>
      refine ⟨_, _, _, receive_refused imencode robot addr leftovers link hop, ?_,
        .ignored (by simp [hop])⟩
      rw [List.length_append, length_refusedCells, hcells]
  | some opcode =>
      obtain ⟨-, -, hopcode⟩ := readPacketHeader_accepted (robot.cellsBehind datagram) hop
      have hdispatch := dispatch_spec imencode
        (robot.withBuffer (headerOf datagram (robot.cellsBehind datagram)).buffer) datagram
        (robot.cellsBehind datagram) addr leftovers link hcells (by rw [hop, hopcode])
      rw [heardFrom_withBuffer, isFromAi_withBuffer, ← checked] at hdispatch
      rw [receive_accepted imencode robot addr leftovers link hop]
      rcases hdispatch with ⟨hnone, hunknown⟩ | ⟨next, outputs, hsome, hhandles⟩
      · rw [hnone]
        refine ⟨_, _, (headerOf datagram (robot.cellsBehind datagram)).buffer, rfl,
          by simpa [headerOf] using hcells, .ignored fun known hmem => ?_⟩
        rw [hop, Option.mem_some_iff] at hmem
        rwa [← hmem, ← hopcode]
      · rw [hsome]
        exact ⟨{ next with read_buffer := (robot.heardFrom addr).read_buffer }, outputs,
          List.replicate READ_BUFFER_SIZE 0, rfl, List.length_replicate,
          hhandles.of_read_buffer⟩

/-! ## 4. The effect of a step -/

inductive Effect (robot : Robot) : Event → Robot → List Output → Prop where
  | tick (seconds : Nat) :
      Effect robot (.tick seconds) { robot with now := robot.now + seconds } []
  | udpReadFailed : Effect robot .udpReadFailed robot []
  | datagram {bytes : List UInt8} {sender : SockAddr} {leftovers : Leftovers}
      {link : ImageLink} {next : Robot} {outputs : List Output}
      (h : Handles imencode robot bytes sender link next outputs) :
      Effect robot (.datagram bytes sender leftovers link) next outputs
  | serialRead : Effect robot .serialRead robot []
  | executeIdle (js : Joystick) (leftovers : DrivePayload)
      (hmode : robot.currentMode = .direct ∧ js.ids.length < 1 ∨ robot.currentMode = .ai) :
      Effect robot (.execute js leftovers) robot []
  | executeDirect (js : Joystick) (leftovers : DrivePayload)
      (hmode : robot.currentMode = .direct) :
      Effect robot (.execute js leftovers) robot
        [.serial (Message.drive (directPayload js leftovers)).frame]
  | executeRemote (js : Joystick) (leftovers : DrivePayload)
      (hmode : robot.currentMode = .remote) :
      Effect robot (.execute js leftovers) robot
        [.serial (Message.drive robot.remotePayload).frame]
  | cameraRead (img img1 : Mat) :
      Effect robot (.cameraRead img img1) (robot.cameraRead img img1) []
  | cameraSend (link : ImageLink) :
      Effect robot (.cameraSend link) robot (sendCameraImage imencode robot 1 link)
  | aiHeartbeatIdle (hmode : robot.currentMode ≠ .ai) : Effect robot .aiHeartbeat robot []
  | aiHeartbeatQuery (hmode : robot.currentMode = .ai)
      (halive : robot.now - robot.lastAIHeartbeatReceivedTime ≤ AI_TIMEOUT_INTERVAL) :
      Effect robot .aiHeartbeat robot
        [.udp Message.queryHeartbeat.frame (some robot.aiAddr)]
  | aiHeartbeatTimeout (hmode : robot.currentMode = .ai)
      (hdead : robot.now - robot.lastAIHeartbeatReceivedTime > AI_TIMEOUT_INTERVAL) :
      Effect robot .aiHeartbeat { robot with currentMode := .remote }
        [.udp Message.remoteSwitch.frame robot.baseStationAddr,
          .udp Message.queryHeartbeat.frame (some robot.aiAddr)]

theorem execute_spec (robot : Robot) (js : Joystick) (leftovers : DrivePayload) :
    ∃ outputs, robot.execute js leftovers = .ok (robot, outputs) ∧
      Effect imencode robot (.execute js leftovers) robot outputs := by
  have hdrive (payload : DrivePayload) :
      ∃ buffer, createDrivePacket (List.replicate 64 0) 64 payload =
          .ok (buffer, (Message.drive payload).frameLength) ∧
        buffer.take (Message.drive payload).frameLength = (Message.drive payload).frame :=
    (Message.drive payload).create_sent 64 64
      (Nat.le_trans (Message.drive payload).frameLength_bounds.2 (by decide)) (by decide)
  rw [execute]
  cases hmode : robot.currentMode with
  | direct =>
      dsimp only
      by_cases hids : js.ids.length < 1
      · rw [if_pos hids]
        exact ⟨[], rfl, .executeIdle js leftovers (.inl ⟨hmode, hids⟩)⟩
      · obtain ⟨buffer, hcreate, hsent⟩ := hdrive (directPayload js leftovers)
        rw [if_neg hids, hcreate, ok_bind]
        refine ⟨_, rfl, ?_⟩
        rw [sendPacketSerial, hsent]
        exact .executeDirect js leftovers hmode
  | remote =>
      obtain ⟨buffer, hcreate, hsent⟩ := hdrive robot.remotePayload
      dsimp only
      rw [hcreate, ok_bind]
      refine ⟨_, rfl, ?_⟩
      rw [sendPacketSerial, hsent]
      exact .executeRemote js leftovers hmode
  | ai => exact ⟨[], rfl, .executeIdle js leftovers (.inr hmode)⟩

theorem queryHeartbeatAI_spec (robot : Robot) :
    ∃ next outputs, robot.queryHeartbeatAI = .ok (next, outputs) ∧
      next.read_buffer = robot.read_buffer ∧
      Effect imencode robot .aiHeartbeat next outputs := by
  obtain ⟨query, hquery, hquerySent⟩ :=
    Message.queryHeartbeat.create_sent 16 16 (by decide) (by decide)
  obtain ⟨remote, hremote, hremoteSent⟩ :=
    Message.remoteSwitch.create_sent 16 16 (by decide) (by decide)
  change createQueryHeartbeatPacket ZERO_PKT 16 = _ at hquery
  change createRemoteSwitchPacket ZERO_PKT 16 = _ at hremote
  rw [queryHeartbeatAI, hquery, ok_bind, hremote]
  dsimp only [ok_bind]
  by_cases hmode : robot.currentMode = .ai
  · rw [if_neg (not_not_intro hmode), sendPacketUdp_created hquerySent,
      sendPacketUdp_created hremoteSent]
    by_cases hdead : robot.now - robot.lastAIHeartbeatReceivedTime > AI_TIMEOUT_INTERVAL
    · rw [if_pos hdead]
      exact ⟨_, _, rfl, rfl, .aiHeartbeatTimeout hmode hdead⟩
    · rw [if_neg hdead]
      exact ⟨_, _, rfl, rfl, .aiHeartbeatQuery hmode (Int.not_lt.mp hdead)⟩
  · rw [if_pos hmode]
    exact ⟨_, _, rfl, rfl, .aiHeartbeatIdle hmode⟩

/-- A robot whose loops run, with its receive buffer at its declared size. -/
structure Running (robot : Robot) : Prop where
  isRunning : robot.isRunning = true
  buffer : robot.read_buffer.length = 64

/-- **One step of a running robot** never faults and has one of the listed
    effects. -/
theorem step_spec {robot : Robot} (h : robot.Running) (event : Event) :
    ∃ next outputs cells,
      step imencode robot event = .ok ({ next with read_buffer := cells }, outputs) ∧
      cells.length = 64 ∧ Effect imencode robot event next outputs := by
  cases event with
  | tick seconds => exact ⟨_, _, _, rfl, h.buffer, .tick seconds⟩
  | udpReadFailed => exact ⟨_, _, _, rfl, h.buffer, .udpReadFailed⟩
  | datagram bytes sender leftovers link =>
      obtain ⟨next, outputs, cells, hreceive, hcells, hhandles⟩ :=
        receivePacketsFromUdp_spec imencode robot h.buffer bytes sender leftovers link
      exact ⟨next, outputs, cells, by rw [step, if_pos h.isRunning, hreceive], hcells,
        .datagram hhandles⟩
  | serialRead => exact ⟨_, _, _, rfl, h.buffer, .serialRead⟩
  | execute js leftovers =>
      obtain ⟨outputs, hexecute, heffect⟩ := execute_spec imencode robot js leftovers
      exact ⟨_, _, _, by rw [step, if_pos h.isRunning, hexecute], h.buffer, heffect⟩
  | cameraRead img img1 =>
      exact ⟨_, _, _, by rw [step, if_pos h.isRunning]; rfl, h.buffer, .cameraRead img img1⟩
  | cameraSend link =>
      exact ⟨_, _, _, by rw [step, if_pos h.isRunning], h.buffer, .cameraSend link⟩
  | aiHeartbeat =>
      obtain ⟨next, outputs, hquery, hbuffer, heffect⟩ := queryHeartbeatAI_spec imencode robot
      exact ⟨next, outputs, robot.read_buffer,
        by rw [step, if_pos h.isRunning, hquery, ← hbuffer], h.buffer, heffect⟩

theorem step_cases {robot after : Robot} (h : robot.Running) {event : Event}
    {outputs : List Output} (hstep : step imencode robot event = .ok (after, outputs)) :
    ∃ next cells, after = { next with read_buffer := cells } ∧ cells.length = 64 ∧
      Effect imencode robot event next outputs := by
  obtain ⟨next, outputs', cells, hspec, hcells, heffect⟩ := step_spec imencode h event
  obtain ⟨rfl, rfl⟩ := Prod.mk.inj (Except.ok.inj (hstep.symm.trans hspec))
  exact ⟨next, cells, rfl, hcells, heffect⟩

/-! ## 5. Runs -/

variable {imencode}

/-- An image goes out whole, behind its header, or not at all. -/
theorem sendCameraImage_cases (imencode : Mat → Nat → Option (List UInt8))
    (robot : Robot) (id : Nat) (link : ImageLink) :
    sendCameraImage imencode robot id link = [] ∨
      ∃ dest data, sendCameraImage imencode robot id link =
        [.image dest (imageHeader data.length id) data] := by
  rw [sendCameraImage]
  dsimp only
  generalize (if id = 0 then robot.latestCameraFrame else robot.latestCamera1Frame) = img
  by_cases himg : img = []
  · exact .inl (if_pos himg)
  · rw [if_neg himg]
    cases imencode img robot.quality with
    | none => exact .inl rfl
    | some data =>
        obtain ⟨opened, connected⟩ := link
        cases opened <;> cases connected
        · exact .inl rfl
        · exact .inl rfl
        · exact .inl rfl
        · exact .inr ⟨_, data, rfl⟩

/-- What the UDP loop can answer to a datagram: acknowledgements go out for switch
    requests only. -/
def Answers (datagram reply : List UInt8) : Prop :=
  reply = Message.reportHeartbeat.frame ∨ reply = Message.aiInit.frame ∨
    (reply = Message.switchModeAck.frame ∧
      (requestedOpcode datagram = some REMOTE_SWITCH_OPCODE ∨
        requestedOpcode datagram = some AI_SWITCH_OPCODE))

section Handles

variable {robot next : Robot} {datagram : List UInt8} {addr : SockAddr} {link : ImageLink}
  {outputs : List Output}

theorem Handles.udp {reply : List UInt8} {dest : Option SockAddr}
    (h : Handles imencode robot datagram addr link next outputs)
    (hmem : .udp reply dest ∈ outputs) : Answers datagram reply := by
  cases h with
  | queryHeartbeat | queryHeartbeatAi =>
      exact .inl (Output.udp.inj (List.mem_singleton.mp hmem)).1
  | aiSwitch hop =>
      rcases List.mem_cons.mp hmem with hmem | hmem
      · exact .inr (.inr ⟨(Output.udp.inj hmem).1, .inr hop⟩)
      · split at hmem
        · exact .inr (.inl (Output.udp.inj (List.mem_singleton.mp hmem)).1)
        · cases hmem
  | remoteSwitch hop =>
      exact .inr (.inr ⟨(Output.udp.inj (List.mem_singleton.mp hmem)).1, .inl hop⟩)
  | queryCameraImage id =>
      rcases sendCameraImage_cases imencode (robot.heardFrom addr) id link with
        hnone | ⟨dest, data, hone⟩
      · rw [hnone] at hmem
        cases hmem
      · rw [hone, List.mem_singleton] at hmem
        cases hmem
  | encoder => cases List.mem_singleton.mp hmem
  | ignored | directSwitch | setCameraQuality | drive => cases hmem

theorem Handles.isRunning_eq (h : Handles imencode robot datagram addr link next outputs) :
    next.isRunning = robot.isRunning := by
  cases h <;> simp

theorem Handles.now_eq (h : Handles imencode robot datagram addr link next outputs) :
    next.now = robot.now := by
  cases h <;> simp

theorem Handles.aiAddr_eq (h : Handles imencode robot datagram addr link next outputs) :
    next.aiAddr = robot.aiAddr := by
  cases h <;> simp

/-- Whatever a datagram says, its sender is noted. -/
theorem Handles.baseStationAddr_eq
    (h : Handles imencode robot datagram addr link next outputs) :
    next.baseStationAddr = (robot.heardFrom addr).baseStationAddr := by
  cases h <;> rfl

/-- A REMOTE_SWITCH always switches and is always acknowledged. -/
theorem Handles.of_remoteSwitch (h : Handles imencode robot datagram addr link next outputs)
    (hswitch : requestedOpcode datagram = some REMOTE_SWITCH_OPCODE) :
    next.currentMode = .remote ∧
      outputs = [.udp Message.switchModeAck.frame (robot.heardFrom addr).baseStationAddr] := by
  cases h with
  | remoteSwitch => exact ⟨rfl, rfl⟩
  | ignored hop => exact absurd (by decide) (hop _ hswitch)
  | queryCameraImage id hop =>
      rcases hop with ⟨-, hop⟩ | ⟨-, hop⟩ <;> cases hop.symm.trans hswitch
  | encoder hop => rcases hop with hop | hop <;> cases hop.symm.trans hswitch
  | queryHeartbeat hop | queryHeartbeatAi hop | aiSwitch hop | directSwitch hop
  | setCameraQuality _ _ hop | drive _ hop => cases hop.symm.trans hswitch

/-- An AI_SWITCH is acknowledged, and answered with AI_INIT while the AI is connected. -/
theorem Handles.of_aiSwitch (h : Handles imencode robot datagram addr link next outputs)
    (hswitch : requestedOpcode datagram = some AI_SWITCH_OPCODE) :
    outputs = .udp Message.switchModeAck.frame (some addr) ::
      if (robot.heardFrom addr).aiConnected then [.udp Message.aiInit.frame (some addr)]
      else [] := by
  cases h with
  | aiSwitch => rfl
  | ignored hop => exact absurd (by decide) (hop _ hswitch)
  | queryCameraImage id hop =>
      rcases hop with ⟨-, hop⟩ | ⟨-, hop⟩ <;> cases hop.symm.trans hswitch
  | encoder hop => rcases hop with hop | hop <;> cases hop.symm.trans hswitch
  | queryHeartbeat hop | queryHeartbeatAi hop | remoteSwitch hop | directSwitch hop
  | setCameraQuality _ _ hop | drive _ hop => cases hop.symm.trans hswitch

/-- A datagram that is refused or has no `case` has no effect beyond the sender's
    address. -/
theorem Handles.of_ignored (h : Handles imencode robot datagram addr link next outputs)
    (hnot : ∀ opcode ∈ requestedOpcode datagram, opcode ∉ HANDLED_OPCODES) :
    next = robot.heardFrom addr ∧ outputs = [] := by
  have hno {known : UInt8} (hop : requestedOpcode datagram = some known)
      (hknown : known ∈ HANDLED_OPCODES) : False := hnot known hop hknown
  cases h with
  | ignored => exact ⟨rfl, rfl⟩
  | queryCameraImage id hop =>
      rcases hop with ⟨-, hop⟩ | ⟨-, hop⟩ <;> exact (hno hop (by decide)).elim
  | encoder hop => rcases hop with hop | hop <;> exact (hno hop (by decide)).elim
  | queryHeartbeat hop | queryHeartbeatAi hop | aiSwitch hop | remoteSwitch hop
  | directSwitch hop | setCameraQuality _ _ hop | drive _ hop =>
      exact (hno hop (by decide)).elim

end Handles

section Effect

variable {robot next : Robot} {event : Event} {outputs : List Output}

theorem Effect.isRunning_eq (h : Effect imencode robot event next outputs) :
    next.isRunning = robot.isRunning := by
  cases h with
  | datagram hhandles => exact hhandles.isRunning_eq
  | _ => rfl

theorem Effect.aiAddr_eq (h : Effect imencode robot event next outputs) :
    next.aiAddr = robot.aiAddr := by
  cases h with
  | datagram hhandles => exact hhandles.aiAddr_eq
  | _ => rfl

theorem Effect.now_le (h : Effect imencode robot event next outputs) : robot.now ≤ next.now := by
  cases h with
  | tick seconds => exact Int.le_add_of_nonneg_right (Int.natCast_nonneg seconds)
  | datagram hhandles => exact Int.le_of_eq hhandles.now_eq.symm
  | _ => exact Int.le_refl _

end Effect

abbrev Record := Entry Robot Event Output

variable {threads : List Thread}

theorem Started.running {robot : Robot} (h : robot.Started) : robot.Running := by
  obtain ⟨ai_port, now, threads, hrun⟩ := h
  obtain ⟨-, rfl, -⟩ := run_eq_some_iff.mp hrun
  exact ⟨rfl, List.length_replicate⟩

theorem Running.step {robot after : Robot} (h : robot.Running) {event : Event}
    {outputs : List Output} (hstep : step imencode robot event = .ok (after, outputs)) :
    after.Running := by
  obtain ⟨next, cells, rfl, hcells, heffect⟩ := step_cases imencode h hstep
  exact ⟨heffect.isRunning_eq.trans h.isRunning, hcells⟩

theorem started_create (ai_port now : Int) :
    Started { create ai_port now with isRunning := true } :=
  ⟨ai_port, now, startedThreads, rfl⟩

/-- A run of a robot that has just been started. -/
theorem exists_started_run {View : Type} (imencode : Mat → Nat → Option (List UInt8))
    (events : List Event) (view : List Record → Robot → View) (value : View)
    (hthreads : ∀ event ∈ events, ∀ thread ∈ event.thread, thread ∈ startedThreads)
    (hreplay : (replay (step imencode) { create 6000 0 with isRunning := true }
      events).toOption.map (fun result => view result.1 result.2) = some value) :
    ∃ history robot, Run (system imencode startedThreads) history robot ∧
      view history robot = value :=
  exists_run_of_replay _ events view value (started_create 6000 0) hthreads hreplay

theorem running_of_run {history : List Record} {robot : Robot}
    (hrun : Run (system imencode threads) history robot) : robot.Running := by
  refine hrun.induction (fun _ robot => robot.Running) (fun _ h => Started.running h) ?_
  exact fun _ _ _ _ _ _ hrunning hnext => hrunning.step hnext.2

/-- What a relation between history and state has to survive to hold of every run
    of the robot: the listed effects, and a new `read_buffer`. -/
theorem induction_of_effect (Holds : List Record → Robot → Prop)
    (hinit : ∀ robot, robot.Started → Holds [] robot)
    (hbuffer : ∀ history robot cells, Holds history robot →
      Holds history { robot with read_buffer := cells })
    (hstep : ∀ history before event after outputs,
      Run (system imencode threads) history before → Holds history before →
      Effect imencode before event after outputs → ∀ cells,
      Holds (history ++ [⟨before, event, outputs, { after with read_buffer := cells }⟩]) after)
    {history : List Record} {robot : Robot}
    (hrun : Run (system imencode threads) history robot) : Holds history robot := by
  refine hrun.induction Holds hinit ?_
  intro history before event after outputs hbefore hholds ⟨_, hnext⟩
  obtain ⟨next, cells, rfl, -, heffect⟩ :=
    step_cases imencode (running_of_run hbefore) hnext
  exact hbuffer _ _ cells (hstep _ _ _ _ _ hbefore hholds heffect cells)

theorem effect_of_run {earlier later : List Record} {record : Record} {robot : Robot}
    (hrun : Run (system imencode threads) (earlier ++ record :: later) robot) :
    ∃ next, Effect imencode record.before record.event next record.outputs := by
  obtain ⟨hbefore, _, hstep⟩ := hrun.split
  obtain ⟨next, _, _, _, heffect⟩ := step_cases imencode (running_of_run hbefore) hstep
  exact ⟨next, heffect⟩

theorem now_le_of_run {history : List Record} {robot : Robot}
    (hrun : Run (system imencode threads) history robot) :
    ∀ record ∈ history, record.before.now ≤ robot.now := by
  refine induction_of_effect (fun history robot => ∀ record ∈ history,
    record.before.now ≤ robot.now) (by simp) (fun _ _ _ h => h) ?_ hrun
  intro history before event after outputs _ hpast heffect cells record hmem
  rcases List.mem_append.mp hmem with hmem | hmem
  · exact Int.le_trans (hpast record hmem) heffect.now_le
  · rw [List.mem_singleton.mp hmem]
    exact heffect.now_le

/-- The address of the AI is never taken for the base station's. -/
theorem baseStationAddr_of_run {history : List Record} {robot : Robot}
    (hrun : Run (system imencode threads) history robot) :
    ∀ addr, robot.baseStationAddr = some addr → robot.isFromAi addr = false := by
  refine induction_of_effect (fun _ robot => ∀ addr, robot.baseStationAddr = some addr →
    robot.isFromAi addr = false) ?_ (fun _ _ _ h => h) ?_ hrun
  · rintro robot ⟨ai_port, now, threads, hstarted⟩ addr haddr
    obtain ⟨-, rfl, -⟩ := run_eq_some_iff.mp hstarted
    cases haddr
  · intro history before event after outputs _ hbefore heffect _ addr haddr
    cases heffect with
    | @datagram bytes sender leftovers link _ _ hhandles =>
        rw [hhandles.baseStationAddr_eq] at haddr
        rw [isFromAi, hhandles.aiAddr_eq, ← isFromAi]
        cases hai : before.isFromAi sender with
        | true =>
            rw [heardFrom, if_pos hai] at haddr
            exact hbefore addr haddr
        | false =>
            rw [heardFrom, if_neg (by rw [hai]; decide)] at haddr
            rwa [← Option.some.inj haddr]
    | _ => exact hbefore addr haddr

end Robot

end Lame
