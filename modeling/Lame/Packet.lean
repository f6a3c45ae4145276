/-
  Lame/Packet.lean
  ================
  **The packet layer of `Robot/include/Packet.h`.**

  The header is compiled into the robot and into the base station's wrapper.  It
  builds raw packets `0xAB, opcode, size, payload…, 0x7F`, pushes them through
  `encodeCOBS`, and reads them back with `ReadPacketHeader` and one `Parse…`
  function per payload.  All builders share one shape (a size guard, a block of
  assignments, a call of `encodeCOBS`), stated once as `createPacket`; each
  builder is that shape at its own guard, bytes and encoded length, exactly as
  the source has them.

  A `uint8_t *` out-parameter that points into the buffer is the list of the
  cells from there on, and `NULL` is `none`.  Buffers are never `NULL` here.
-/
import Lame.Cobs
import Lame.HighLowBytes

namespace Lame

open ByteMemory HighLowBytes

/-! ## 1. Constants -/

def PKT_HEADER_BYTE : UInt8 := 0xAB
def PKT_END_BYTE : UInt8 := 0x7F
def PKT_MIN_SIZE : Nat := 4
def PKT_HDR_INDEX : Nat := 0
def PKT_OP_INDEX : Nat := 1
def PKT_PAYLOAD_START_INDEX : Nat := 3

def DRIVE_OPCODE : UInt8 := 0x99
def DIRECT_SWITCH_OPCODE : UInt8 := 0x90
def AI_SWITCH_OPCODE : UInt8 := 0x91
def REMOTE_SWITCH_OPCODE : UInt8 := 0x92
def SWITCH_MODE_ACK_OPCODE : UInt8 := 0x93
def AI_INIT_OPCODE : UInt8 := 0x02
def QUERY_LOCATION_OPCODE : UInt8 := 0x44
def REPORT_LOCATION_OPCODE : UInt8 := 0x45
def QUERY_ENCODER_OPCODE : UInt8 := 0x50
def REPORT_ENCODER_OPCODE : UInt8 := 0x47
def ENABLE_ENCODER_OPCODE : UInt8 := 0x4A
def DISABLE_ENCODER_OPCODE : UInt8 := 0x4B
def QUERY_CAMERA_IMAGE_OPCODE : UInt8 := 0x13
def QUERY_CAMERA1_IMAGE_OPCODE : UInt8 := 0x15
def SET_CAMERA_QUALITY_OPCODE : UInt8 := 0x16
def SET_CAMERA_LOCATION_OPCODE : UInt8 := 0x17
def QUERY_HEARTBEAT_OPCODE : UInt8 := 0x14
def REPORT_HEARTBEAT_OPCODE : UInt8 := 0x44

/-! ## 2. Payload structs -/

structure DrivePayload where
  left : Int8
  right : Int8
  vibrator : Int8
  actuator : Int8
  scooper : Int8
deriving DecidableEq, Repr

structure LocationPayload where
  x : Int16
  y : Int16
  heading : Int16
deriving DecidableEq, Repr

structure EncoderPayload where
  front_left : Int16
  front_right : Int16
  back_left : Int16
  back_right : Int16
  left_actuator : Int16
  right_actuator : Int16
deriving DecidableEq, Repr

structure CameraQualityPayload where
  quality : UInt8
deriving DecidableEq, Repr

structure CameraLocationPayload where
  id : UInt8
  angle : Int8
deriving DecidableEq, Repr

/-- The macro `__CLAMP(val, max, min)`. -/
def clamp (val max min : Int16) : Int16 :=
  let val := if val > max then max else val
  if val < min then min else val

/-! ## 3. Reading a packet -/

/-- What `ReadPacketHeader` leaves behind: the buffer it decoded in place, its
    return value, and its two out-parameters. -/
structure HeaderResult where
  buffer : List UInt8
  ret : Nat
  opcode : UInt8
  payload : Option (List UInt8)
deriving DecidableEq, Repr

/-- `opcode` and `payload` are the values the out-parameters hold before the
    call; a rejected buffer leaves them alone. -/
def readPacketHeader (buffer : List UInt8) (length : UInt8) (opcode : UInt8)
    (payload : Option (List UInt8)) : Exec HeaderResult :=
  if length.toNat < PKT_MIN_SIZE then return ⟨buffer, 0, opcode, payload⟩
  else do
    let (buffer, length) ← decodeCOBS buffer length
    let header ← load buffer PKT_HDR_INDEX
    if header ≠ PKT_HEADER_BYTE then return ⟨buffer, 0, opcode, payload⟩
    else
      let last ← loadInt buffer (length.toNat - 1 : Int)
      if last ≠ PKT_END_BYTE then return ⟨buffer, 0, opcode, payload⟩
      else
        let opcode ← load buffer PKT_OP_INDEX
        return ⟨buffer, length.toNat, opcode,
          if length.toNat = PKT_MIN_SIZE then none
          else some (buffer.drop PKT_PAYLOAD_START_INDEX)⟩

/-! ## 4. Serialize functions -/

/-- The common body of the builders: return 0 when `length` is below `guard`,
    else assign `raw` from index 0 on and encode `encoded` bytes. -/
def createPacket (guard : Nat) (raw : List UInt8) (encoded : Nat) (buffer : List UInt8)
    (length : UInt8) : Exec (List UInt8 × Nat) :=
  if length.toNat < guard then return (buffer, 0)
  else do
    let buffer ← storeAll buffer PKT_HDR_INDEX raw
    encodeCOBS buffer (UInt8.ofNat encoded)

def createNoPayloadPacket (buffer : List UInt8) (length : UInt8) (opcode : UInt8) :
    Exec (List UInt8 × Nat) :=
  createPacket (PKT_MIN_SIZE + 2) [PKT_HEADER_BYTE, opcode, 0, PKT_END_BYTE] PKT_MIN_SIZE
    buffer length

def createQueryHeartbeatPacket (buffer : List UInt8) (length : UInt8) :=
  createNoPayloadPacket buffer length QUERY_HEARTBEAT_OPCODE

def createReportHeartbeatPacket (buffer : List UInt8) (length : UInt8) :=
  createNoPayloadPacket buffer length REPORT_HEARTBEAT_OPCODE

def createSwitchModeAckPacket (buffer : List UInt8) (length : UInt8) :=
  createNoPayloadPacket buffer length SWITCH_MODE_ACK_OPCODE

def createRemoteSwitchPacket (buffer : List UInt8) (length : UInt8) :=
  createNoPayloadPacket buffer length REMOTE_SWITCH_OPCODE

def createAiInitPacket (buffer : List UInt8) (length : UInt8) :=
  createNoPayloadPacket buffer length AI_INIT_OPCODE

def createQueryLocationPacket (buffer : List UInt8) (length : UInt8) :=
  createNoPayloadPacket buffer length QUERY_LOCATION_OPCODE

def createQueryEncoderPacket (buffer : List UInt8) (length : UInt8) :=
  createNoPayloadPacket buffer length QUERY_ENCODER_OPCODE

def createEnableEncoderPacket (buffer : List UInt8) (length : UInt8) :=
  createNoPayloadPacket buffer length ENABLE_ENCODER_OPCODE

def createDisableEncoderPacket (buffer : List UInt8) (length : UInt8) :=
  createNoPayloadPacket buffer length DISABLE_ENCODER_OPCODE

def createQueryCameraImagePacket (buffer : List UInt8) (length : UInt8) :=
  createNoPayloadPacket buffer length QUERY_CAMERA_IMAGE_OPCODE

def createQueryCamera1ImagePacket (buffer : List UInt8) (length : UInt8) :=
  createNoPayloadPacket buffer length QUERY_CAMERA1_IMAGE_OPCODE

def createDrivePacket (buffer : List UInt8) (length : UInt8) (payload : DrivePayload) :
    Exec (List UInt8 × Nat) :=
  createPacket (PKT_MIN_SIZE + 5)
    [PKT_HEADER_BYTE, DRIVE_OPCODE, 5, payload.left.toUInt8, payload.right.toUInt8,
      payload.actuator.toUInt8, payload.scooper.toUInt8, payload.vibrator.toUInt8,
      PKT_END_BYTE]
    (PKT_MIN_SIZE + 5) buffer length

def createSetQualityCameraPacket (buffer : List UInt8) (length : UInt8)
    (payload : CameraQualityPayload) : Exec (List UInt8 × Nat) :=
  createPacket (PKT_MIN_SIZE + 1)
    [PKT_HEADER_BYTE, SET_CAMERA_QUALITY_OPCODE, 1, payload.quality, PKT_END_BYTE]
    (PKT_MIN_SIZE + 1) buffer length

def createSetCameraLocationPacket (buffer : List UInt8) (length : UInt8)
    (payload : CameraLocationPayload) : Exec (List UInt8 × Nat) :=
  createPacket (PKT_MIN_SIZE + 2)
    [PKT_HEADER_BYTE, SET_CAMERA_LOCATION_OPCODE, 2, payload.id, payload.angle.toUInt8,
      PKT_END_BYTE]
    (PKT_MIN_SIZE + 2) buffer length

-- The two builders below assign no end byte: the cell behind the payload keeps
-- whatever the caller's buffer holds there.

def createReportLocationPacket (buffer : List UInt8) (length : UInt8)
    (payload : LocationPayload) : Exec (List UInt8 × Nat) :=
  let heading := clamp payload.heading 180 (-180)
  createPacket (PKT_MIN_SIZE + 3 * 2 + 2)
    [PKT_HEADER_BYTE, REPORT_LOCATION_OPCODE, 3 * 2,
      highByte payload.x, lowByte payload.x, highByte payload.y, lowByte payload.y,
      highByte heading, lowByte heading]
    (PKT_MIN_SIZE + 3 * 2) buffer length

def createSetLocationPacket (buffer : List UInt8) (length : UInt8)
    (payload : LocationPayload) : Exec (List UInt8 × Nat) :=
  createReportLocationPacket buffer length payload

def createReportEncoderPacket (buffer : List UInt8) (length : UInt8)
    (payload : EncoderPayload) : Exec (List UInt8 × Nat) :=
  createPacket (PKT_MIN_SIZE + 6 * 2 + 2)
    [PKT_HEADER_BYTE, REPORT_ENCODER_OPCODE, 6 * 2,
      highByte payload.front_left, lowByte payload.front_left,
      highByte payload.front_right, lowByte payload.front_right,
      highByte payload.back_left, lowByte payload.back_left,
      highByte payload.back_right, lowByte payload.back_right,
      highByte payload.left_actuator, lowByte payload.left_actuator,
      highByte payload.right_actuator, lowByte payload.right_actuator]
    (PKT_MIN_SIZE + 6 * 2) buffer length

/-! ## 5. Deserialize functions

Each takes the struct it fills in, because a `NULL` payload leaves it alone. -/

def parseDrivePayload (payload : Option (List UInt8)) (drive : DrivePayload) :
    Exec DrivePayload :=
  match payload with
  | none => return drive
  | some bytes => do
      let left ← load bytes 0
      let right ← load bytes 1
      let actuator ← load bytes 2
      let scooper ← load bytes 3
      let vibrator ← load bytes 4
      return { left := left.toInt8, right := right.toInt8, actuator := actuator.toInt8,
               scooper := scooper.toInt8, vibrator := vibrator.toInt8 }

/-- `(payload[i] << 8) | payload[i + 1]`. -/
def loadInt16 (bytes : List UInt8) (i : Nat) : Exec Int16 := do
  let hi ← load bytes i
  let lo ← load bytes (i + 1)
  return joinBytes hi lo

def parseLocationPayload (payload : Option (List UInt8)) (loc : LocationPayload) :
    Exec LocationPayload :=
  match payload with
  | none => return loc
  | some bytes => do
      let x ← loadInt16 bytes 0
      let y ← loadInt16 bytes 2
      let heading ← loadInt16 bytes 4
      return { x := x, y := y, heading := heading }

def parseEncoderPayload (payload : Option (List UInt8)) (enc : EncoderPayload) :
    Exec EncoderPayload :=
  match payload with
  | none => return enc
  | some bytes => do
      let front_left ← loadInt16 bytes 0
      let front_right ← loadInt16 bytes 2
      let back_left ← loadInt16 bytes 4
      let back_right ← loadInt16 bytes 6
      let left_actuator ← loadInt16 bytes 8
      let right_actuator ← loadInt16 bytes 10
      return { front_left := front_left, front_right := front_right, back_left := back_left,
               back_right := back_right, left_actuator := left_actuator,
               right_actuator := right_actuator }

def parseQualityPayload (payload : Option (List UInt8)) (cam : CameraQualityPayload) :
    Exec CameraQualityPayload :=
  match payload with
  | none => return cam
  | some bytes => do
      let quality ← load bytes 0
      return { quality := quality }

def parseCameraLocationPayload (payload : Option (List UInt8)) (clp : CameraLocationPayload) :
    Exec CameraLocationPayload :=
  match payload with
  | none => return clp
  | some bytes => do
      let id ← load bytes 0
      let angle ← load bytes 1
      return { id := id, angle := angle.toInt8 }

end Lame
