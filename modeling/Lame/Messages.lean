/-
  Lame/Messages.lean
  ==================
  **The messages of `Packet.h`: what each builder writes, and what comes back.**

  `Message` lists the builders with their payloads.  `create_zeroed` is the one
  fact about them the rest of the development needs: in a zeroed buffer a builder
  returns the COBS frame of `Message.body`.  For the report builders the last
  byte of that body is the buffer's zero instead of the end byte, so the frame is
  well stuffed and yet refused by `ReadPacketHeader`.
-/
import Lame.PacketFormat

namespace Lame

open ByteMemory HighLowBytes SectionStuffing

/-! ## 1. The builders -/

/-- A call of a builder: `CreateNoPayloadPacket` at any opcode, its wrappers, and
    the payload builders. -/
inductive Message where
  | noPayload (opcode : UInt8)
  | queryHeartbeat
  | reportHeartbeat
  | switchModeAck
  | remoteSwitch
  | aiInit
  | queryLocation
  | queryEncoder
  | enableEncoder
  | disableEncoder
  | queryCameraImage
  | queryCamera1Image
  | drive (payload : DrivePayload)
  | setQualityCamera (payload : CameraQualityPayload)
  | setCameraLocation (payload : CameraLocationPayload)
  | reportLocation (payload : LocationPayload)
  | setLocation (payload : LocationPayload)
  | reportEncoder (payload : EncoderPayload)
deriving DecidableEq, Repr

namespace Message

def create : Message → List UInt8 → UInt8 → Exec (List UInt8 × Nat)
  | .noPayload opcode, buffer, length => createNoPayloadPacket buffer length opcode
  | .queryHeartbeat, buffer, length => createQueryHeartbeatPacket buffer length
  | .reportHeartbeat, buffer, length => createReportHeartbeatPacket buffer length
  | .switchModeAck, buffer, length => createSwitchModeAckPacket buffer length
  | .remoteSwitch, buffer, length => createRemoteSwitchPacket buffer length
  | .aiInit, buffer, length => createAiInitPacket buffer length
  | .queryLocation, buffer, length => createQueryLocationPacket buffer length
  | .queryEncoder, buffer, length => createQueryEncoderPacket buffer length
  | .enableEncoder, buffer, length => createEnableEncoderPacket buffer length
  | .disableEncoder, buffer, length => createDisableEncoderPacket buffer length
  | .queryCameraImage, buffer, length => createQueryCameraImagePacket buffer length
  | .queryCamera1Image, buffer, length => createQueryCamera1ImagePacket buffer length
  | .drive payload, buffer, length => createDrivePacket buffer length payload
  | .setQualityCamera payload, buffer, length =>
      createSetQualityCameraPacket buffer length payload
  | .setCameraLocation payload, buffer, length =>
      createSetCameraLocationPacket buffer length payload
  | .reportLocation payload, buffer, length => createReportLocationPacket buffer length payload
  | .setLocation payload, buffer, length => createSetLocationPacket buffer length payload
  | .reportEncoder payload, buffer, length => createReportEncoderPacket buffer length payload

/-- The opcode byte the builder writes. -/
def opcode : Message → UInt8
  | .noPayload opcode => opcode
  | .queryHeartbeat => QUERY_HEARTBEAT_OPCODE
  | .reportHeartbeat => REPORT_HEARTBEAT_OPCODE
  | .switchModeAck => SWITCH_MODE_ACK_OPCODE
  | .remoteSwitch => REMOTE_SWITCH_OPCODE
  | .aiInit => AI_INIT_OPCODE
  | .queryLocation => QUERY_LOCATION_OPCODE
  | .queryEncoder => QUERY_ENCODER_OPCODE
  | .enableEncoder => ENABLE_ENCODER_OPCODE
  | .disableEncoder => DISABLE_ENCODER_OPCODE
  | .queryCameraImage => QUERY_CAMERA_IMAGE_OPCODE
  | .queryCamera1Image => QUERY_CAMERA1_IMAGE_OPCODE
  | .drive _ => DRIVE_OPCODE
  | .setQualityCamera _ => SET_CAMERA_QUALITY_OPCODE
  | .setCameraLocation _ => SET_CAMERA_LOCATION_OPCODE
  | .reportLocation _ | .setLocation _ => REPORT_LOCATION_OPCODE
  | .reportEncoder _ => REPORT_ENCODER_OPCODE

def locationBytes (payload : LocationPayload) : List UInt8 :=
  let heading := clamp payload.heading 180 (-180)
  [highByte payload.x, lowByte payload.x, highByte payload.y, lowByte payload.y,
    highByte heading, lowByte heading]

/-- The payload bytes, in wire order. -/
def payloadBytes : Message → List UInt8
  | .drive payload =>
      [payload.left.toUInt8, payload.right.toUInt8, payload.actuator.toUInt8,
        payload.scooper.toUInt8, payload.vibrator.toUInt8]
  | .setQualityCamera payload => [payload.quality]
  | .setCameraLocation payload => [payload.id, payload.angle.toUInt8]
  | .reportLocation payload | .setLocation payload => locationBytes payload
  | .reportEncoder payload =>
      [highByte payload.front_left, lowByte payload.front_left,
        highByte payload.front_right, lowByte payload.front_right,
        highByte payload.back_left, lowByte payload.back_left,
        highByte payload.back_right, lowByte payload.back_right,
        highByte payload.left_actuator, lowByte payload.left_actuator,
        highByte payload.right_actuator, lowByte payload.right_actuator]
  | _ => []

def payloadSize (message : Message) : Nat := message.payloadBytes.length

/-- The builders that leave the end byte out. -/
def lacksEndByte : Message → Bool
  | .reportLocation _ | .setLocation _ | .reportEncoder _ => true
  | _ => false

/-- The length below which the builder returns 0. -/
def guard : Message → Nat
  | .drive _ => PKT_MIN_SIZE + 5
  | .setQualityCamera _ => PKT_MIN_SIZE + 1
  | .setCameraLocation _ => PKT_MIN_SIZE + 2
  | .reportLocation _ | .setLocation _ => PKT_MIN_SIZE + 3 * 2 + 2
  | .reportEncoder _ => PKT_MIN_SIZE + 6 * 2 + 2
  | _ => PKT_MIN_SIZE + 2

def raw (message : Message) : List UInt8 :=
  PKT_HEADER_BYTE :: message.opcode :: UInt8.ofNat message.payloadSize ::
    (message.payloadBytes ++ if message.lacksEndByte then [] else [PKT_END_BYTE])

/-- Every builder is the common one at its own guard, bytes and encoded length. -/
theorem create_eq (message : Message) (buffer : List UInt8) (length : UInt8) :
    message.create buffer length =
      createPacket message.guard message.raw (message.payloadSize + 4) buffer length := by
  cases message <;> rfl

/-- What stands in the end byte's place in a zeroed buffer. -/
def endByte (message : Message) : UInt8 :=
  if message.lacksEndByte then 0 else PKT_END_BYTE

/-- The raw packet the builder hands to `encodeCOBS` in a zeroed buffer. -/
def body (message : Message) : List UInt8 :=
  PKT_HEADER_BYTE :: message.opcode :: UInt8.ofNat message.payloadSize ::
    (message.payloadBytes ++ [message.endByte])

def frameLength (message : Message) : Nat := message.payloadSize + 6

def frame (message : Message) : List UInt8 := stuff message.body ++ [0]

@[simp] theorem length_body (message : Message) :
    message.body.length = message.payloadSize + 4 := by
  simp [body, payloadSize]

theorem payloadSize_le (message : Message) : message.payloadSize ≤ 12 := by
  cases message <;> simp [payloadSize, payloadBytes, locationBytes]

theorem guard_le_frameLength (message : Message) :
    message.guard ≤ message.frameLength := by
  cases message <;> simp [guard, frameLength, payloadSize, payloadBytes, locationBytes,
    PKT_MIN_SIZE]

theorem length_raw_le (message : Message) :
    message.raw.length ≤ message.payloadSize + 4 := by
  rw [raw]
  split <;> simp [payloadSize]

theorem raw_padded (message : Message) :
    message.raw ++ List.replicate (message.payloadSize + 4 - message.raw.length) 0 =
      message.body := by
  cases hlacks : message.lacksEndByte <;>
    simp [raw, body, endByte, payloadSize, hlacks]

@[simp] theorem length_frame (message : Message) :
    message.frame.length = message.frameLength := by
  simp [frame, frameLength, length_stuff]

end Message

/-! ## 2. Building in a zeroed buffer -/

/-- The common builder on a zeroed buffer: cells behind the assigned ones keep
    their zeros and are encoded with them. -/
theorem createPacket_zeroed {guard encoded n : Nat} {length : UInt8} (raw : List UInt8)
    (hguard : guard ≤ length.toNat) (hraw : raw.length ≤ encoded) (hencoded : encoded ≤ 253)
    (hn : encoded + 2 ≤ n) :
    createPacket guard raw encoded (List.replicate n 0) length =
      .ok (stuff (raw ++ List.replicate (encoded - raw.length) 0) ++
          0 :: List.replicate (n - encoded - 2) 0, encoded + 2) := by
  have hcells : List.replicate n (0 : UInt8) =
      [] ++ List.replicate raw.length 0 ++ List.replicate (n - raw.length) 0 := by
    rw [List.nil_append, List.replicate_append_replicate]
    congr 1
    omega
  have hstored : storeAll (List.replicate n 0) PKT_HDR_INDEX raw =
      .ok (raw ++ List.replicate (n - raw.length) 0) := by
    rw [hcells]
    exact storeAll_split [] _ _ raw rfl (by simp)
  have hsplit : raw ++ List.replicate (n - raw.length) 0 =
      (raw ++ List.replicate (encoded - raw.length) 0) ++
        0 :: 0 :: List.replicate (n - encoded - 2) 0 := by
    have htail : (0 : UInt8) :: 0 :: List.replicate (n - encoded - 2) 0 =
        List.replicate (n - encoded) 0 := by
      rw [← List.replicate_succ, ← List.replicate_succ]
      congr 1
      omega
    rw [htail, List.append_assoc, List.replicate_append_replicate]
    congr 2
    omega
  have hlen : (raw ++ List.replicate (encoded - raw.length) 0).length = encoded := by
    simp
    omega
  have hencode := encodeCOBS_stuff (raw ++ List.replicate (encoded - raw.length) 0)
    (List.replicate (n - encoded - 2) 0) 0 (by omega)
  rw [hlen] at hencode
  rw [createPacket, if_neg (Nat.not_lt.mpr hguard), hstored, ok_bind, hsplit]
  exact hencode

/-- **What a builder produces** in a zeroed buffer that is long enough. -/
theorem Message.create_zeroed (message : Message) {n : Nat} {length : UInt8}
    (hlength : message.frameLength ≤ length.toNat) (hn : length.toNat ≤ n) :
    message.create (List.replicate n 0) length =
      .ok (message.frame ++ List.replicate (n - message.frameLength) 0,
        message.frameLength) := by
  have hguard := message.guard_le_frameLength
  have hsize := message.payloadSize_le
  have hframe : message.frameLength = message.payloadSize + 4 + 2 := rfl
  rw [message.create_eq, createPacket_zeroed message.raw (by omega) message.length_raw_le
    (by omega) (by omega), message.raw_padded, hframe, Nat.sub_sub]
  simp [frame]

theorem Message.create_sent (message : Message) (n : Nat) (length : UInt8)
    (hlength : message.frameLength ≤ length.toNat) (hn : length.toNat ≤ n) :
    ∃ pkt, message.create (List.replicate n 0) length = .ok (pkt, message.frameLength) ∧
      pkt.take message.frameLength = message.frame := by
  refine ⟨_, message.create_zeroed hlength hn, ?_⟩
  rw [← length_frame, List.take_left]

/-! ## 3. Reading a frame back -/

namespace Message

theorem decoded_frame (message : Message) : decoded message.frame = message.body :=
  decoded_stuff (by have := message.payloadSize_le; simp; omega)

theorem decodedCells_frame (message : Message) :
    ∃ last, decodedCells message.frame = message.body ++ [last, 0] :=
  decodedCells_stuff (by have := message.payloadSize_le; simp; omega)

theorem getLast?_body (message : Message) :
    message.body.getLast? = some message.endByte := by
  have hsplit : message.body = (PKT_HEADER_BYTE :: message.opcode ::
      UInt8.ofNat message.payloadSize :: message.payloadBytes) ++ [message.endByte] := rfl
  rw [hsplit, List.getLast?_concat]

/-- A frame passes the check exactly when its builder wrote the end byte. -/
theorem accepted_frame_iff (message : Message) :
    Accepted message.frame ↔ message.lacksEndByte = false := by
  rw [Accepted, decoded_frame, getLast?_body]
  cases hlacks : message.lacksEndByte with
  | false => exact ⟨fun _ => rfl, fun _ => ⟨rfl, by simp [endByte, hlacks]⟩⟩
  | true =>
      refine ⟨fun h => ?_, fun h => absurd h (by decide)⟩
      have hend := h.2
      simp only [endByte, hlacks, if_true, Option.some.injEq] at hend
      exact absurd hend (by decide)

theorem frameLength_bounds (message : Message) :
    6 ≤ message.frameLength ∧ message.frameLength ≤ 18 := by
  have hsize := message.payloadSize_le
  simp only [frameLength]
  omega

/-- **Reading a frame back**, whatever stands behind it in the array. -/
theorem read_frame {message : Message} (hend : message.lacksEndByte = false)
    (back : List UInt8) (opcode : UInt8) (payload : Option (List UInt8)) :
    ∃ last, readPacketHeader (message.frame ++ back) (UInt8.ofNat message.frameLength)
        opcode payload =
      .ok { buffer := message.body ++ last :: 0 :: back
            ret := message.payloadSize + 4
            opcode := message.opcode
            payload :=
              if message.payloadSize = 0 then none
              else some (message.payloadBytes ++ PKT_END_BYTE :: last :: 0 :: back) } := by
  have hbounds := message.frameLength_bounds
  have hread := readPacketHeader_eq message.frame back
    (by simp only [length_frame, PKT_MIN_SIZE]; omega)
    (by simp only [length_frame]; omega) opcode payload
  obtain ⟨last, hcells⟩ := message.decodedCells_frame
  have hop : decodedOpcode message.frame = message.opcode := by
    rw [decodedOpcode, decoded_frame]
    rfl
  rw [length_frame, if_pos (message.accepted_frame_iff.mpr hend), hcells, hop,
    decoded_frame, length_body] at hread
  refine ⟨last, hread.trans ?_⟩
  by_cases hzero : message.payloadSize = 0
  · simp [hzero, PKT_MIN_SIZE]
  · simp [hzero, PKT_MIN_SIZE, PKT_PAYLOAD_START_INDEX, body, endByte, hend]

theorem read_frame_rejected {message : Message} (hend : message.lacksEndByte = true)
    (back : List UInt8) (opcode : UInt8) (payload : Option (List UInt8)) :
    readPacketHeader (message.frame ++ back) (UInt8.ofNat message.frameLength)
        opcode payload =
      .ok ⟨decodedCells message.frame ++ back, 0, opcode, payload⟩ := by
  have hbounds := message.frameLength_bounds
  have hread := readPacketHeader_eq message.frame back
    (by simp only [length_frame, PKT_MIN_SIZE]; omega)
    (by simp only [length_frame]; omega) opcode payload
  have hrej : ¬ Accepted message.frame := by
    rw [accepted_frame_iff, hend]
    decide
  rwa [length_frame, if_neg hrej] at hread

/-! ## 4. The round trip of every builder -/

/-- The matching `Parse…` function returns the struct that was encoded, whatever
    the struct it fills in held before. -/
def Recovers : Message → Option (List UInt8) → Prop
  | .drive sent, payload => ∀ old, parseDrivePayload payload old = .ok sent
  | .setQualityCamera sent, payload => ∀ old, parseQualityPayload payload old = .ok sent
  | .setCameraLocation sent, payload =>
      ∀ old, parseCameraLocationPayload payload old = .ok sent
  | .reportLocation sent, payload | .setLocation sent, payload =>
      ∀ old, parseLocationPayload payload old =
        .ok { sent with heading := clamp sent.heading 180 (-180) }
  | .reportEncoder sent, payload => ∀ old, parseEncoderPayload payload old = .ok sent
  | _, _ => True

theorem parseDrivePayload_bytes (sent old : DrivePayload) (back : List UInt8) :
    parseDrivePayload (some ((Message.drive sent).payloadBytes ++ back)) old = .ok sent := rfl

theorem parseLocationPayload_bytes (sent old : LocationPayload) (back : List UInt8) :
    parseLocationPayload (some (locationBytes sent ++ back)) old =
      .ok { sent with heading := clamp sent.heading 180 (-180) } := by
  have h : parseLocationPayload (some (locationBytes sent ++ back)) old =
      .ok { x := joinBytes (highByte sent.x) (lowByte sent.x)
            y := joinBytes (highByte sent.y) (lowByte sent.y)
            heading := joinBytes (highByte (clamp sent.heading 180 (-180)))
              (lowByte (clamp sent.heading 180 (-180))) } := rfl
  simpa using h

theorem parseEncoderPayload_bytes (sent old : EncoderPayload) (back : List UInt8) :
    parseEncoderPayload (some ((Message.reportEncoder sent).payloadBytes ++ back)) old =
      .ok sent := by
  have h : parseEncoderPayload (some ((Message.reportEncoder sent).payloadBytes ++ back)) old =
      .ok { front_left := joinBytes (highByte sent.front_left) (lowByte sent.front_left)
            front_right := joinBytes (highByte sent.front_right) (lowByte sent.front_right)
            back_left := joinBytes (highByte sent.back_left) (lowByte sent.back_left)
            back_right := joinBytes (highByte sent.back_right) (lowByte sent.back_right)
            left_actuator :=
              joinBytes (highByte sent.left_actuator) (lowByte sent.left_actuator)
            right_actuator :=
              joinBytes (highByte sent.right_actuator) (lowByte sent.right_actuator) } := rfl
  simpa using h

/-- The payload bytes of every message parse back. -/
theorem recovers_payloadBytes (message : Message) (back : List UInt8) :
    message.Recovers (some (message.payloadBytes ++ back)) := by
  cases message with
  | drive sent => exact fun old => parseDrivePayload_bytes sent old back
  | setQualityCamera sent => exact fun _ => rfl
  | setCameraLocation sent => exact fun _ => rfl
  | reportLocation sent => exact fun old => parseLocationPayload_bytes sent old back
  | setLocation sent => exact fun old => parseLocationPayload_bytes sent old back
  | reportEncoder sent => exact fun old => parseEncoderPayload_bytes sent old back
  | _ => trivial

theorem recovers_of_payloadSize_zero {message : Message} (h : message.payloadSize = 0)
    (payload : Option (List UInt8)) : message.Recovers payload := by
  cases message <;> trivial

/-- Build in a zeroed array of `n` cells, read the frame, parse the payload. -/
def RoundTrips (message : Message) (n : Nat) (length : UInt8) : Prop :=
  ∃ buffer ret, message.create (List.replicate n 0) length = .ok (buffer, ret) ∧
    ∀ (opcode : UInt8) (payload : Option (List UInt8)), ∃ header,
      readPacketHeader (buffer.take ret) (UInt8.ofNat ret) opcode payload = .ok header ∧
      header.ret = 4 + message.payloadSize ∧ header.opcode = message.opcode ∧
      (header.payload = none ↔ message.payloadSize = 0) ∧ message.Recovers header.payload

theorem roundTrips_of_endByte {message : Message} (hend : message.lacksEndByte = false)
    {n : Nat} {length : UInt8} (hlength : message.frameLength ≤ length.toNat)
    (hn : length.toNat ≤ n) : message.RoundTrips n length := by
  refine ⟨_, _, message.create_zeroed hlength hn, fun opcode payload => ?_⟩
  obtain ⟨last, hread⟩ := read_frame hend [] opcode payload
  have htake : (message.frame ++ List.replicate (n - message.frameLength) 0).take
      message.frameLength = message.frame ++ [] := by
    rw [← length_frame, List.take_left, List.append_nil]
  refine ⟨_, by rw [htake]; exact hread, Nat.add_comm _ _, rfl, ?_, ?_⟩
  · simp
  · dsimp only
    split
    · next hzero => exact recovers_of_payloadSize_zero hzero none
    · exact message.recovers_payloadBytes _

theorem not_roundTrips_of_lacksEndByte {message : Message}
    (hend : message.lacksEndByte = true) {n : Nat} {length : UInt8}
    (hlength : message.frameLength ≤ length.toNat) (hn : length.toNat ≤ n) :
    ¬ message.RoundTrips n length := by
  rintro ⟨buffer, ret, hcreate, hread⟩
  rw [message.create_zeroed hlength hn] at hcreate
  obtain ⟨rfl, rfl⟩ := Prod.mk.inj (Except.ok.inj hcreate)
  obtain ⟨header, hheader, hret, -⟩ := hread 0 none
  have hrejected := read_frame_rejected hend [] 0 none
  rw [List.append_nil] at hrejected
  rw [← length_frame, List.take_left, length_frame, hrejected] at hheader
  rw [← Except.ok.inj hheader] at hret
  simp at hret
  omega

/-- **Round trip of the builders.**  In any zeroed buffer that is long enough the
    message comes back exactly when its builder writes the end byte. -/
theorem roundTrips_iff (message : Message) (n : Nat) (length : UInt8)
    (hlength : message.frameLength ≤ length.toNat) (hn : length.toNat ≤ n) :
    message.RoundTrips n length ↔ message.lacksEndByte = false := by
  cases hend : message.lacksEndByte with
  | false => exact ⟨fun _ => rfl, fun _ => roundTrips_of_endByte hend hlength hn⟩
  | true =>
      refine ⟨fun h => ?_, fun h => absurd h (by decide)⟩
      exact absurd h (not_roundTrips_of_lacksEndByte hend hlength hn)

theorem roundTrips_iff_drive :
    (Message.drive ⟨-128, 0, 127, -1, 5⟩).RoundTrips 64 64 :=
  (roundTrips_iff (.drive ⟨-128, 0, 127, -1, 5⟩) 64 64 (by decide) (by decide)).mpr rfl

/-- The report of a robot standing at the origin is refused by its own reader. -/
theorem not_roundTrips_reportLocation :
    ¬ ∀ (message : Message) (n : Nat) (length : UInt8),
      message.frameLength ≤ length.toNat → length.toNat ≤ n →
      message.RoundTrips n length := by
  intro hclaim
  have hlong : (Message.reportLocation ⟨0, 0, 0⟩).frameLength ≤ (12 : UInt8).toNat := by
    decide
  exact not_roundTrips_of_lacksEndByte rfl hlong (Nat.le_refl _)
    (hclaim (.reportLocation ⟨0, 0, 0⟩) 12 12 hlong (Nat.le_refl _))

end Message

end Lame
