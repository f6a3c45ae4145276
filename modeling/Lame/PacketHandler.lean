/-
  Lame/PacketHandler.lean
  =======================
  **The base station's wrapper `BaseStationPacket/PacketHandler.cpp`.**

  The wrapper compiles `Packet.h` into a .NET class.  Its getters build a message
  in a zeroed array of 128 bytes and return the bytes written; `Request` lists
  them, and `Request.packet_eq` says that each returns the frame of its message.
  Its parsers copy a report into a managed object.  All three test the result of
  `ReadPacketHeader` against 1, which is none of its values.

  Taking the address of element 0 of an empty managed array throws, which is
  `Fault.outOfBounds` here.
-/
import Lame.Messages

namespace Lame

open ByteMemory

/-! ## 1. Managed objects -/

structure Drive where
  left : Int32
  right : Int32
  actuator : Int32
  scooper : Int32
  vibrator : Int32
deriving DecidableEq, Repr

structure Location where
  x : Int32
  y : Int32
  heading : Int32
deriving DecidableEq, Repr

structure Encoder where
  front_left : Int32
  front_right : Int32
  back_left : Int32
  back_right : Int32
  left_actuator : Int32
  right_actuator : Int32
deriving DecidableEq, Repr

structure CameraQuality where
  quality : Int32
deriving DecidableEq, Repr

structure CameraLocation where
  id : Int32
  angle : Int32
deriving DecidableEq, Repr

namespace PacketHandler

/-- The function `_clamp`. -/
def clampInt32 (val max min : Int32) : Int32 :=
  if val > max then max else if val < min then min else val

/-- Conversion of an `Int32` to `uint8_t`. -/
def toByte (val : Int32) : UInt8 := val.toUInt32.toUInt8

/-! ## 2. The getters -/

def ZERO_BUFFER : List UInt8 := List.replicate 128 0

/-- The getters' common body: build, then copy the bytes written. -/
def getPacket (func : List UInt8 → UInt8 → Exec (List UInt8 × Nat)) : Exec (List UInt8) := do
  let (buffer, bytes_written) ← func ZERO_BUFFER 128
  return buffer.take bytes_written

def getNoPayloadPacket (func : List UInt8 → UInt8 → Exec (List UInt8 × Nat)) :
    Exec (List UInt8) :=
  getPacket func

def getQueryHeartbeatPacket := getNoPayloadPacket createQueryHeartbeatPacket
def getReportHeartbeatPacket := getNoPayloadPacket createReportHeartbeatPacket
def getRemoteSwitchPacket := getNoPayloadPacket createRemoteSwitchPacket
def getAiInitPacket := getNoPayloadPacket createAiInitPacket
def getQueryLocationPacket := getNoPayloadPacket createQueryLocationPacket
def getQueryEncoderPacket := getNoPayloadPacket createQueryEncoderPacket
def getQueryCameraImagePacket := getNoPayloadPacket createQueryCameraImagePacket
def getQueryCamera1ImagePacket := getNoPayloadPacket createQueryCamera1ImagePacket
def getEnableEncoderPacket := getNoPayloadPacket createEnableEncoderPacket
def getDisableEncoderPacket := getNoPayloadPacket createDisableEncoderPacket

def drivePayload (drive : Drive) : DrivePayload where
  left := drive.left.toInt8
  right := drive.right.toInt8
  actuator := drive.actuator.toInt8
  scooper := drive.scooper.toInt8
  vibrator := drive.vibrator.toInt8

def getDrivePacket (drive : Drive) : Exec (List UInt8) :=
  getPacket fun buffer length => createDrivePacket buffer length (drivePayload drive)

def getSetCameraQualityPacket (cq : CameraQuality) : Exec (List UInt8) :=
  getPacket fun buffer length =>
    createSetQualityCameraPacket buffer length ⟨toByte (clampInt32 cq.quality 100 0)⟩

def getSetCameraLocationPacket (cl : CameraLocation) : Exec (List UInt8) :=
  getPacket fun buffer length =>
    createSetCameraLocationPacket buffer length ⟨toByte cl.id, cl.angle.toInt8⟩

/-! ## 3. The parsers -/

/-- A parser's result, the object behind its reference argument, and the array it
    decoded in place. -/
structure ParseResult (Report : Type) where
  ret : Bool
  report : Report
  buffer : List UInt8
deriving DecidableEq, Repr

/-- `&buffer[0]`, then `ReadPacketHeader`. -/
def readHeader (buffer : List UInt8) (length : Int32) : Exec HeaderResult :=
  if buffer = [] then .error .outOfBounds
  else readPacketHeader buffer (toByte length) 0 none

/-- `GetPacketOpcode`: the opcode is 0 when the packet is refused. -/
def getPacketOpcode (buffer : List UInt8) (length : Int32) : Exec UInt8 := do
  let header ← readHeader buffer length
  return header.opcode

def parseNoPayloadPacket (buffer : List UInt8) (length : Int32) (opcode : UInt8) :
    Exec (ParseResult Unit) := do
  let header ← readHeader buffer length
  let parse_success := header.ret == 1
  if !parse_success then return ⟨false, (), header.buffer⟩
  else return ⟨header.opcode == opcode, (), header.buffer⟩

def parseReportHeartbeatPacket (buffer : List UInt8) (length : Int32) :
    Exec (ParseResult Unit) :=
  parseNoPayloadPacket buffer length REPORT_HEARTBEAT_OPCODE

def parseReportLocationPacket (buffer : List UInt8) (length : Int32) (loc : Location) :
    Exec (ParseResult Location) := do
  let header ← readHeader buffer length
  let parse_success := header.ret == 1
  if !parse_success then return ⟨false, loc, header.buffer⟩
  else if header.payload = none then return ⟨false, loc, header.buffer⟩
  else if header.opcode ≠ REPORT_LOCATION_OPCODE then return ⟨false, loc, header.buffer⟩
  else
    let loc_payload ← parseLocationPayload header.payload ⟨0, 0, 0⟩
    return { ret := true
             report := { x := loc_payload.x.toInt32
                         y := loc_payload.y.toInt32
                         heading := loc_payload.heading.toInt32 }
             buffer := header.buffer }

def parseReportEncoderPacket (buffer : List UInt8) (length : Int32) (enc : Encoder) :
    Exec (ParseResult Encoder) := do
  let header ← readHeader buffer length
  let parse_success := header.ret == 1
  if !parse_success then return ⟨false, enc, header.buffer⟩
  else if header.payload = none then return ⟨false, enc, header.buffer⟩
  else if header.opcode ≠ REPORT_ENCODER_OPCODE then return ⟨false, enc, header.buffer⟩
  else
    let enc_payload ← parseEncoderPayload header.payload ⟨0, 0, 0, 0, 0, 0⟩
    return { ret := true
             report := { back_left := enc_payload.back_left.toInt32
                         back_right := enc_payload.back_right.toInt32
                         front_left := enc_payload.front_left.toInt32
                         front_right := enc_payload.front_right.toInt32
                         left_actuator := enc_payload.left_actuator.toInt32
                         right_actuator := enc_payload.right_actuator.toInt32 }
             buffer := header.buffer }

/-! ## 4. What the getters return -/

inductive Request where
  | queryHeartbeat
  | reportHeartbeat
  | remoteSwitch
  | aiInit
  | queryLocation
  | queryEncoder
  | queryCameraImage
  | queryCamera1Image
  | enableEncoder
  | disableEncoder
  | drive (sent : Drive)
  | setCameraQuality (cq : CameraQuality)
  | setCameraLocation (cl : CameraLocation)
deriving DecidableEq, Repr

namespace Request

def packet : Request → Exec (List UInt8)
  | .queryHeartbeat => getQueryHeartbeatPacket
  | .reportHeartbeat => getReportHeartbeatPacket
  | .remoteSwitch => getRemoteSwitchPacket
  | .aiInit => getAiInitPacket
  | .queryLocation => getQueryLocationPacket
  | .queryEncoder => getQueryEncoderPacket
  | .queryCameraImage => getQueryCameraImagePacket
  | .queryCamera1Image => getQueryCamera1ImagePacket
  | .enableEncoder => getEnableEncoderPacket
  | .disableEncoder => getDisableEncoderPacket
  | .drive sent => getDrivePacket sent
  | .setCameraQuality cq => getSetCameraQualityPacket cq
  | .setCameraLocation cl => getSetCameraLocationPacket cl

/-- The message the getter builds. -/
def message : Request → Message
  | .queryHeartbeat => .queryHeartbeat
  | .reportHeartbeat => .reportHeartbeat
  | .remoteSwitch => .remoteSwitch
  | .aiInit => .aiInit
  | .queryLocation => .queryLocation
  | .queryEncoder => .queryEncoder
  | .queryCameraImage => .queryCameraImage
  | .queryCamera1Image => .queryCamera1Image
  | .enableEncoder => .enableEncoder
  | .disableEncoder => .disableEncoder
  | .drive sent => .drive (drivePayload sent)
  | .setCameraQuality cq => .setQualityCamera ⟨toByte (clampInt32 cq.quality 100 0)⟩
  | .setCameraLocation cl => .setCameraLocation ⟨toByte cl.id, cl.angle.toInt8⟩

theorem packet_eq_create (request : Request) :
    request.packet = getPacket request.message.create := by
  cases request <;> rfl

/-- **Every getter returns the frame of its message.** -/
theorem packet_eq (request : Request) : request.packet = .ok request.message.frame := by
  have hbounds := request.message.frameLength_bounds
  obtain ⟨pkt, hcreate, hsent⟩ := request.message.create_sent 128 128
    (Nat.le_trans hbounds.2 (by decide)) (by decide)
  rw [packet_eq_create, getPacket, ZERO_BUFFER, hcreate, ok_bind]
  dsimp only
  rw [hsent]
  rfl

theorem lacksEndByte_message (request : Request) : request.message.lacksEndByte = false := by
  cases request <;> rfl

end Request

theorem toByte_ofNat (n : Nat) : toByte (Int32.ofNat n) = UInt8.ofNat n := by
  simp [toByte]

theorem readHeader_frame (message : Message) :
    readHeader message.frame (Int32.ofNat message.frameLength) =
      readPacketHeader message.frame (UInt8.ofNat message.frameLength) 0 none := by
  have hne : message.frame ≠ [] := by
    intro hnil
    have hlen := message.length_frame
    have hbounds := message.frameLength_bounds
    rw [hnil, List.length_nil] at hlen
    omega
  rw [readHeader, if_neg hne, toByte_ofNat]

/-- `GetPacketOpcode` recognises every message that its builder completes. -/
theorem getPacketOpcode_frame {message : Message} (hend : message.lacksEndByte = false) :
    getPacketOpcode message.frame (Int32.ofNat message.frame.length) = .ok message.opcode := by
  obtain ⟨last, hread⟩ := message.read_frame hend [] 0 none
  rw [List.append_nil] at hread
  rw [getPacketOpcode, Message.length_frame, readHeader_frame, hread]
  rfl

/-! ## 5. What the parsers answer -/

/-- The wrapper can read the header of every frame, accepted or not. -/
theorem exists_readHeader_frame (message : Message) :
    ∃ header, readHeader message.frame (Int32.ofNat message.frameLength) = .ok header := by
  have hbounds := message.frameLength_bounds
  have hread := readPacketHeader_eq message.frame []
    (by rw [Message.length_frame]; exact Nat.le_trans (by decide) hbounds.1)
    (by rw [Message.length_frame]; omega) 0 none
  rw [List.append_nil, Message.length_frame] at hread
  exact ⟨_, (readHeader_frame message).trans hread⟩

/-- `ReadPacketHeader` returns the length of a decoded packet or 0, never 1: a
    packet of one byte would start with its end byte. -/
theorem readPacketHeader_ret_ne_one {buffer : List UInt8} {length opcode : UInt8}
    {payload : Option (List UInt8)} {header : HeaderResult}
    (h : readPacketHeader buffer length opcode payload = .ok header) : header.ret ≠ 1 := by
  intro hone
  rw [readPacketHeader] at h
  split at h
  · cases h
    cases hone
  · obtain ⟨⟨cells, size⟩, -, h⟩ := bind_eq_ok.mp h
    obtain ⟨first, hfirst, h⟩ := bind_eq_ok.mp h
    split at h
    · cases h
      cases hone
    · next hheader =>
      obtain ⟨last, hlast, h⟩ := bind_eq_ok.mp h
      split at h
      · cases h
        cases hone
      · next hend =>
        obtain ⟨second, -, h⟩ := bind_eq_ok.mp h
        obtain rfl := Except.ok.inj h
        have hsize : size.toNat = 1 := hone
        rw [hsize] at hlast
        rw [not_not.mp hheader] at hfirst
        rw [not_not.mp hend] at hlast
        exact absurd (Except.ok.inj (hfirst.symm.trans hlast)) (by decide)

theorem readHeader_ret_ne_one {buffer : List UInt8} {length : Int32} {header : HeaderResult}
    (h : readHeader buffer length = .ok header) : header.ret ≠ 1 := by
  rw [readHeader] at h
  split at h
  · cases h
  · exact readPacketHeader_ret_ne_one h

inductive Report where
  | heartbeat
  | location (payload : LocationPayload)
  | encoder (payload : EncoderPayload)
deriving DecidableEq, Repr

namespace Report

def message : Report → Message
  | .heartbeat => .reportHeartbeat
  | .location payload => .reportLocation payload
  | .encoder payload => .reportEncoder payload

/-- The parsers, each with its answer on an array: true and the fields it stores. -/
def ParsedAs (buffer : List UInt8) (length : Int32) : Report → Prop
  | .heartbeat => ∃ cells, parseReportHeartbeatPacket buffer length = .ok ⟨true, (), cells⟩
  | .location payload => ∀ old, ∃ cells, parseReportLocationPacket buffer length old =
      .ok ⟨true, ⟨payload.x.toInt32, payload.y.toInt32, payload.heading.toInt32⟩, cells⟩
  | .encoder payload => ∀ old, ∃ cells, parseReportEncoderPacket buffer length old =
      .ok ⟨true, ⟨payload.front_left.toInt32, payload.front_right.toInt32,
        payload.back_left.toInt32, payload.back_right.toInt32,
        payload.left_actuator.toInt32, payload.right_actuator.toInt32⟩, cells⟩

end Report

inductive Parser where
  | reportHeartbeat
  | reportLocation
  | reportEncoder
deriving DecidableEq, Repr

namespace Parser

def of : Report → Parser
  | .heartbeat => .reportHeartbeat
  | .location _ => .reportLocation
  | .encoder _ => .reportEncoder

/-- What the parser returns; `loc` and `enc` are the objects it may replace. -/
def answer (loc : Location) (enc : Encoder) (buffer : List UInt8) (length : Int32) :
    Parser → Exec Bool
  | .reportHeartbeat => do return (← parseReportHeartbeatPacket buffer length).ret
  | .reportLocation => do return (← parseReportLocationPacket buffer length loc).ret
  | .reportEncoder => do return (← parseReportEncoderPacket buffer length enc).ret

/-- Whenever the header can be read, the answer is no. -/
theorem answer_eq_false {buffer : List UInt8} {length : Int32} {header : HeaderResult}
    (h : readHeader buffer length = .ok header) (loc : Location) (enc : Encoder)
    (parser : Parser) : parser.answer loc enc buffer length = .ok false := by
  have hret : (!(header.ret == 1)) = true := by simpa using readHeader_ret_ne_one h
  cases parser with
  | reportHeartbeat =>
      rw [answer, parseReportHeartbeatPacket, parseNoPayloadPacket, h, ok_bind, if_pos hret]
      rfl
  | reportLocation =>
      rw [answer, parseReportLocationPacket, h, ok_bind, if_pos hret]
      rfl
  | reportEncoder =>
      rw [answer, parseReportEncoderPacket, h, ok_bind, if_pos hret]
      rfl

end Parser

namespace Report

theorem ParsedAs.answer {report : Report} {buffer : List UInt8} {length : Int32}
    (h : report.ParsedAs buffer length) (loc : Location) (enc : Encoder) :
    (Parser.of report).answer loc enc buffer length = .ok true := by
  cases report with
  | heartbeat =>
      obtain ⟨cells, hparse⟩ := h
      rw [Parser.of, Parser.answer, hparse]
      rfl
  | location payload =>
      obtain ⟨cells, hparse⟩ := h loc
      rw [Parser.of, Parser.answer, hparse]
      rfl
  | encoder payload =>
      obtain ⟨cells, hparse⟩ := h enc
      rw [Parser.of, Parser.answer, hparse]
      rfl

/-- Build the report in a zeroed array of `n` cells; its own parser returns the
    report, the two others refuse it. -/
def Undone (report : Report) (n : Nat) (length : UInt8) : Prop :=
  ∃ buffer ret, report.message.create (List.replicate n 0) length = .ok (buffer, ret) ∧
    report.ParsedAs (buffer.take ret) (Int32.ofNat ret) ∧
    ∀ parser ≠ Parser.of report, ∀ loc enc,
      parser.answer loc enc (buffer.take ret) (Int32.ofNat ret) = .ok false

end Report

theorem answer_frame (report : Report) {n : Nat} {length : UInt8}
    (hlength : report.message.frameLength ≤ length.toNat) (hn : length.toNat ≤ n) :
    ∃ buffer ret, report.message.create (List.replicate n 0) length = .ok (buffer, ret) ∧
      ∀ parser loc enc,
        Parser.answer loc enc (buffer.take ret) (Int32.ofNat ret) parser = .ok false := by
  obtain ⟨buffer, hcreate, hsent⟩ := report.message.create_sent n length hlength hn
  obtain ⟨header, hread⟩ := exists_readHeader_frame report.message
  refine ⟨buffer, _, hcreate, fun parser loc enc => ?_⟩
  rw [hsent]
  exact Parser.answer_eq_false hread loc enc parser

/-- **No report is ever parsed**: in every zeroed buffer that is long enough the
    builder succeeds and all three parsers return false. -/
theorem not_undone (report : Report) (n : Nat) (length : UInt8)
    (hlength : report.message.frameLength ≤ length.toNat) (hn : length.toNat ≤ n) :
    ¬ report.Undone n length ∧
      ∃ buffer ret, report.message.create (List.replicate n 0) length = .ok (buffer, ret) ∧
        ∀ parser loc enc,
          Parser.answer loc enc (buffer.take ret) (Int32.ofNat ret) parser = .ok false := by
  obtain ⟨buffer, ret, hcreate, hanswer⟩ := answer_frame report hlength hn
  refine ⟨?_, buffer, ret, hcreate, hanswer⟩
  rintro ⟨buffer', ret', hcreate', hparsed, -⟩
  obtain ⟨rfl, rfl⟩ := Prod.mk.inj (Except.ok.inj (hcreate.symm.trans hcreate'))
  have htrue := hparsed.answer ⟨0, 0, 0⟩ ⟨0, 0, 0, 0, 0, 0⟩
  exact absurd (Except.ok.inj ((hanswer _ _ _).symm.trans htrue)) (by decide)

theorem not_undone_encoder :
    ¬ (Report.encoder ⟨1, -1, 256, 0, 32767, -32768⟩).Undone 32 32 :=
  (not_undone (.encoder ⟨1, -1, 256, 0, 32767, -32768⟩) 32 32 (by decide) (by decide)).1

/-- The heartbeat report, which is accepted by `ReadPacketHeader`, is refused. -/
theorem not_forall_undone :
    ¬ ∀ (report : Report) (n : Nat) (length : UInt8),
      report.message.frameLength ≤ length.toNat → length.toNat ≤ n →
      (∀ payload, report = .location payload → -180 ≤ payload.heading ∧ payload.heading ≤ 180) →
      report.Undone n length := by
  intro hclaim
  obtain ⟨buffer, ret, hcreate, hparsed, -⟩ :=
    hclaim .heartbeat 16 16 (by decide) (by decide) (by simp)
  obtain ⟨buffer', ret', hcreate', hanswer⟩ :=
    answer_frame .heartbeat (by decide : _ ≤ (16 : UInt8).toNat) (Nat.le_refl 16)
  obtain ⟨rfl, rfl⟩ := Prod.mk.inj (Except.ok.inj (hcreate.symm.trans hcreate'))
  have htrue := hparsed.answer ⟨0, 0, 0⟩ ⟨0, 0, 0, 0, 0, 0⟩
  exact absurd (Except.ok.inj ((hanswer _ _ _).symm.trans htrue)) (by decide)

end PacketHandler

end Lame
