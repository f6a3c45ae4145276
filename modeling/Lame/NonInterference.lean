/-
  Lame/NonInterference.lean
  =========================
  **What the UDP loop takes from outside the datagram it handles.**

  `read_buffer` outlives an iteration and the two payload structs of the `switch`
  are uninitialised.  `dispatch_agree` says that neither reaches the robot except
  through the two `Parse…` calls.  A payload is parsed from wherever the decoded
  bytes end, and not at all when the packet has none; so a DRIVE or a
  SET_CAMERA_QUALITY without payload stores leftover stack, and a DRIVE of fewer
  than eight bytes stores what earlier datagrams left in the buffer.
-/
import Lame.RobotSteps

namespace Lame

open ByteMemory LabelledRuns SectionStuffing

namespace Robot

/-! ## 1. Robots that differ in the receive buffer -/

/-- The robots agree on every field but `read_buffer`. -/
def Agree (first second : Robot) : Prop :=
  second = first.withBuffer second.read_buffer

theorem agree_withBuffer (robot : Robot) (cells cells' : List UInt8) :
    (robot.withBuffer cells).Agree (robot.withBuffer cells') := rfl

theorem Agree.baseStationAddr_eq {first second : Robot} (h : first.Agree second) :
    second.baseStationAddr = first.baseStationAddr := by
  rw [h]
  rfl

variable (imencode : Mat → Nat → Option (List UInt8))

/-- Both robots take the datagram in, reach states that agree, and send the same. -/
def SameReaction (first second : Robot) (datagram : List UInt8) (addr : SockAddr)
    (link : ImageLink) (leftovers leftovers' : Leftovers) : Prop :=
  ∃ next next' outputs,
    receivePacketsFromUdp imencode first datagram addr leftovers link = .ok (next, outputs) ∧
    receivePacketsFromUdp imencode second datagram addr leftovers' link =
      .ok (next', outputs) ∧
    next.Agree next'

/-- **The dispatch** sees the receive buffer and the uninitialised structs through the
    forwarded bytes and the parsed payloads only. -/
theorem dispatch_agree (robot : Robot) (cells : List UInt8) (addr : SockAddr)
    (is_from_ai : Bool) (header header' : HeaderResult) (bytes_read : Nat)
    (leftovers leftovers' : Leftovers) (link : ImageLink)
    (hop : header'.opcode = header.opcode)
    (hsent : header'.buffer.take bytes_read = header.buffer.take bytes_read)
    (hquality : header.opcode = SET_CAMERA_QUALITY_OPCODE →
      parseQualityPayload header'.payload leftovers'.localCamPayload =
        parseQualityPayload header.payload leftovers.localCamPayload)
    (hdrive : header.opcode = DRIVE_OPCODE →
      parseDrivePayload header'.payload leftovers'.localPayload =
        parseDrivePayload header.payload leftovers.localPayload) :
    dispatch imencode (robot.withBuffer cells) addr is_from_ai header' bytes_read leftovers'
        link =
      (dispatch imencode robot addr is_from_ai header bytes_read leftovers link).map
        (Option.map fun result => (result.1.withBuffer cells, result.2)) := by
  have hforward : sendPacketSerial header'.buffer bytes_read =
      sendPacketSerial header.buffer bytes_read := by
    rw [sendPacketSerial, sendPacketSerial, hsent]
  rw [dispatch, dispatch, hop]
  by_cases hheartbeat : header.opcode = QUERY_HEARTBEAT_OPCODE
  · rw [if_pos hheartbeat, if_pos hheartbeat]
    cases createReportHeartbeatPacket ZERO_PKT 16 with
    | error fault => rfl
    | ok pkt => cases is_from_ai <;> rfl
  rw [if_neg hheartbeat, if_neg hheartbeat]
  by_cases hai : header.opcode = AI_SWITCH_OPCODE
  · rw [if_pos hai, if_pos hai]
    cases createSwitchModeAckPacket ZERO_PKT 16 with
    | error fault => rfl
    | ok pkt =>
        have hconnected : (robot.withBuffer cells).aiConnected = robot.aiConnected := rfl
        dsimp only [ok_bind]
        rw [hconnected]
        cases robot.aiConnected with
        | false => rfl
        | true => cases createAiInitPacket ZERO_PKT 16 <;> rfl
  rw [if_neg hai, if_neg hai]
  by_cases hremote : header.opcode = REMOTE_SWITCH_OPCODE
  · rw [if_pos hremote, if_pos hremote]
    cases createSwitchModeAckPacket ZERO_PKT 16 <;> rfl
  rw [if_neg hremote, if_neg hremote]
  by_cases hdirect : header.opcode = DIRECT_SWITCH_OPCODE
  · rw [if_pos hdirect, if_pos hdirect]
    rfl
  rw [if_neg hdirect, if_neg hdirect]
  by_cases himage : header.opcode = QUERY_CAMERA_IMAGE_OPCODE
  · rw [if_pos himage, if_pos himage]
    rfl
  rw [if_neg himage, if_neg himage]
  by_cases himage1 : header.opcode = QUERY_CAMERA1_IMAGE_OPCODE
  · rw [if_pos himage1, if_pos himage1]
    rfl
  rw [if_neg himage1, if_neg himage1]
  by_cases hcamera : header.opcode = SET_CAMERA_QUALITY_OPCODE
  · rw [if_pos hcamera, if_pos hcamera, hquality hcamera]
    cases parseQualityPayload header.payload leftovers.localCamPayload <;> rfl
  rw [if_neg hcamera, if_neg hcamera]
  by_cases hcommand : header.opcode = DRIVE_OPCODE
  · rw [if_pos hcommand, if_pos hcommand, hdrive hcommand]
    cases parseDrivePayload header.payload leftovers.localPayload <;> rfl
  rw [if_neg hcommand, if_neg hcommand]
  by_cases henable : header.opcode = ENABLE_ENCODER_OPCODE
  · rw [if_pos henable, if_pos henable, hforward]
    rfl
  rw [if_neg henable, if_neg henable]
  by_cases hdisable : header.opcode = DISABLE_ENCODER_OPCODE
  · rw [if_pos hdisable, if_pos hdisable, hforward]
    rfl
  rw [if_neg hdisable, if_neg hdisable]
  rfl

/-! ## 2. Datagrams that bring their own payload -/

/-- What a DRIVE or a SET_CAMERA_QUALITY needs so that the parsed bytes are its own:
    a payload, and for a DRIVE the eight bytes up to its fifth value. -/
def OwnPayload (datagram : List UInt8) : Prop :=
  (requestedOpcode datagram = some DRIVE_OPCODE →
    (decoded (delivered datagram)).length ≠ PKT_MIN_SIZE ∧ 8 ≤ (delivered datagram).length) ∧
  (requestedOpcode datagram = some SET_CAMERA_QUALITY_OPCODE →
    (decoded (delivered datagram)).length ≠ PKT_MIN_SIZE)

instance (datagram : List UInt8) : Decidable (OwnPayload datagram) :=
  inferInstanceAs (Decidable (_ ∧ _))

theorem exists_own_drive {front : List UInt8} (h : 8 ≤ front.length) :
    ∃ payload, ∀ (cells : List UInt8) (old : DrivePayload),
      parseDrivePayload (some ((front ++ cells).drop PKT_PAYLOAD_START_INDEX)) old =
        .ok payload := by
  match front, h with
  | _ :: _ :: _ :: left :: right :: actuator :: scooper :: vibrator :: rest, _ =>
      exact ⟨_, fun _ _ => rfl⟩

theorem exists_own_quality {front : List UInt8} (h : 4 ≤ front.length) :
    ∃ payload, ∀ (cells : List UInt8) (old : CameraQualityPayload),
      parseQualityPayload (some ((front ++ cells).drop PKT_PAYLOAD_START_INDEX)) old =
        .ok payload := by
  match front, h with
  | _ :: _ :: _ :: quality :: rest, _ => exact ⟨_, fun _ _ => rfl⟩

theorem four_le_delivered {datagram : List UInt8} {opcode : UInt8}
    (hop : requestedOpcode datagram = some opcode) : 4 ≤ (delivered datagram).length := by
  rw [requestedOpcode] at hop
  split at hop
  · next haccepted => exact haccepted.1
  · cases hop

theorem payload_headerOf {datagram : List UInt8} (cells : List UInt8)
    (hlong : (decoded (delivered datagram)).length ≠ PKT_MIN_SIZE) :
    (headerOf datagram cells).payload =
      some ((decodedCells (delivered datagram) ++ cells).drop PKT_PAYLOAD_START_INDEX) :=
  if_neg hlong

theorem sameReaction_of_ownPayload {first second : Robot} (hagree : first.Agree second)
    (hbuffer : first.read_buffer.length = 64) {datagram : List UInt8}
    (hown : OwnPayload datagram) (addr : SockAddr) (link : ImageLink)
    (leftovers leftovers' : Leftovers) :
    SameReaction imencode first second datagram addr link leftovers leftovers' := by
  rw [hagree]
  generalize second.read_buffer = cells
  cases hop : requestedOpcode datagram with
  | none =>
      refine ⟨_, _, _, receive_refused imencode first addr leftovers link hop,
        receive_refused imencode _ addr leftovers' link hop, ?_⟩
      rw [heardFrom_withBuffer]
      exact agree_withBuffer _ _ _
  | some opcode =>
      obtain ⟨hdrive, hquality⟩ := hown
      have hfour := four_le_delivered hop
      obtain ⟨-, -, hopcode⟩ := readPacketHeader_accepted (first.cellsBehind datagram) hop
      have hdispatch := dispatch_agree imencode (first.checked datagram addr)
        (headerOf datagram ((first.withBuffer cells).cellsBehind datagram)).buffer addr
        (first.isFromAi addr) (headerOf datagram (first.cellsBehind datagram))
        (headerOf datagram ((first.withBuffer cells).cellsBehind datagram))
        (delivered datagram).length leftovers leftovers' link rfl ?_ ?_ ?_
      · have hchecked : (first.withBuffer cells).checked datagram addr =
            (first.checked datagram addr).withBuffer
              (headerOf datagram ((first.withBuffer cells).cellsBehind datagram)).buffer := by
          rw [checked, heardFrom_withBuffer]
          rfl
        rw [SameReaction, receive_accepted imencode first addr leftovers link hop,
          receive_accepted imencode (first.withBuffer cells) addr leftovers' link hop, hchecked,
          isFromAi_withBuffer, hdispatch]
        obtain ⟨next, outputs, cells', hspec, -⟩ :=
          receivePacketsFromUdp_spec imencode first hbuffer datagram addr leftovers link
        rw [receive_accepted imencode first addr leftovers link hop] at hspec
        cases hresult : dispatch imencode (first.checked datagram addr) addr
            (first.isFromAi addr) (headerOf datagram (first.cellsBehind datagram))
            (delivered datagram).length leftovers link with
        | error fault =>
            rw [hresult] at hspec
            cases hspec
        | ok result =>
            cases result with
            | none => exact ⟨_, _, _, rfl, rfl, agree_withBuffer _ _ _⟩
            | some result => exact ⟨_, _, _, rfl, rfl, rfl⟩
      · rw [headerOf, headerOf, ← length_decodedCells, List.take_left, List.take_left]
      · intro hcamera
        obtain ⟨payload, hparse⟩ := exists_own_quality
          (show 4 ≤ (decodedCells (delivered datagram)).length by rwa [length_decodedCells])
        have hlong := hquality (by rw [hop, ← hopcode, hcamera])
        rw [payload_headerOf _ hlong, payload_headerOf _ hlong, hparse, hparse]
      · intro hcommand
        obtain ⟨hlong, height⟩ := hdrive (by rw [hop, ← hopcode, hcommand])
        obtain ⟨payload, hparse⟩ := exists_own_drive
          (show 8 ≤ (decodedCells (delivered datagram)).length by rwa [length_decodedCells])
        rw [payload_headerOf _ hlong, payload_headerOf _ hlong, hparse, hparse]

/-! ## 3. Two situations with different leftovers

A datagram of 64 bytes that begins with two zeros is refused and stays in the
buffer as it is, so anything may stand there when the next datagram comes in. -/

theorem decoded_of_zeros {cells : List UInt8} (hcells : cells ≠ []) :
    decoded (0 :: 0 :: cells) = [] ∧ decodedCells (0 :: 0 :: cells) = 0 :: 0 :: cells := by
  obtain ⟨front, last, rfl⟩ : ∃ front last, cells = front ++ [last] :=
    ⟨_, _, (List.dropLast_append_getLast hcells).symm⟩
  have hsplit : (0 : UInt8) :: 0 :: (front ++ [last]) = 0 :: ((0 :: front) ++ [last]) := rfl
  rw [hsplit, decoded_split, decodedCells_split]
  simp [unstuff, residue]

theorem receive_zeros (robot : Robot) (hbuffer : robot.read_buffer.length = 64)
    {cells : List UInt8} (hcells : cells.length = 62) (addr : SockAddr) (leftovers : Leftovers)
    (link : ImageLink) :
    receivePacketsFromUdp imencode robot (0 :: 0 :: cells) addr leftovers link =
      .ok ((robot.heardFrom addr).withBuffer (0 :: 0 :: cells), []) := by
  have hne : cells ≠ [] := by
    rintro rfl
    cases hcells
  have hdelivered : delivered (0 :: 0 :: cells) = 0 :: 0 :: cells :=
    List.take_of_length_le (by simp [hcells, READ_BUFFER_SIZE])
  obtain ⟨hdecoded, hkept⟩ := decoded_of_zeros hne
  have hop : requestedOpcode (0 :: 0 :: cells) = none := by
    refine if_neg fun haccepted => ?_
    rw [hdelivered] at haccepted
    have htwo := haccepted.2.two_le
    rw [hdecoded] at htwo
    cases htwo
  have hrefused : refusedCells (0 :: 0 :: cells) = 0 :: 0 :: cells := by
    rw [refusedCells, hdelivered, hkept, ite_self]
  have hbehind : robot.cellsBehind (0 :: 0 :: cells) = [] := by
    rw [cellsBehind, hdelivered, List.drop_of_length_le (by simp [hbuffer, hcells])]
  rw [receive_refused imencode robot addr leftovers link hop, hrefused, hbehind,
    List.append_nil]

/-- A started robot that has heard from the base station. -/
def HEARD : Robot :=
  { create 6000 0 with isRunning := true, baseStationAddr := some BASE_STATION }

/-- The robot behind a refused datagram full of one byte. -/
def heardCells (cell : UInt8) : Robot := HEARD.withBuffer (0 :: 0 :: List.replicate 62 cell)

theorem reachable_heardCells {threads : List Thread} (hudp : .udpRead ∈ threads)
    (cell : UInt8) : Reachable (system imencode threads) (heardCells cell) := by
  have hstep : (system imencode threads).Step { create 6000 0 with isRunning := true }
      (.datagram (0 :: 0 :: List.replicate 62 cell) BASE_STATION ⟨ZERO_DRIVE, ⟨0⟩⟩ ⟨true, true⟩)
      (heardCells cell) [] := by
    refine ⟨?_, ?_⟩
    · intro thread hmem
      obtain rfl := Option.some.inj hmem
      exact hudp
    · rw [step, if_pos rfl,
        receive_zeros imencode _ List.length_replicate List.length_replicate]
      rfl
  exact ⟨_, Run.step (Run.start (started_create 6000 0)) hstep⟩

theorem agree_heardCells (cell cell' : UInt8) : (heardCells cell).Agree (heardCells cell') :=
  agree_withBuffer _ _ _

/-- The reaction to a datagram is the same in every two reachable situations that
    agree up to the receive buffer, for all contents of uninitialised locals. -/
def NonInterfering (threads : List Thread) (datagram : List UInt8) : Prop :=
  ∀ first second, Reachable (system imencode threads) first →
    Reachable (system imencode threads) second → first.Agree second →
    ∀ addr link leftovers leftovers',
      SameReaction imencode first second datagram addr link leftovers leftovers'

variable {imencode} {threads : List Thread} {datagram : List UInt8}

theorem SameReaction.eq {first second next next' : Robot} {addr : SockAddr} {link : ImageLink}
    {leftovers leftovers' : Leftovers} {outputs outputs' : List Output}
    (h : SameReaction imencode first second datagram addr link leftovers leftovers')
    (hfirst : receivePacketsFromUdp imencode first datagram addr leftovers link =
      .ok (next, outputs))
    (hsecond : receivePacketsFromUdp imencode second datagram addr leftovers' link =
      .ok (next', outputs')) :
    next'.latestDrivePayload = next.latestDrivePayload ∧ next'.quality = next.quality := by
  obtain ⟨_, _, _, hone, htwo, hagree⟩ := h
  obtain ⟨rfl, -⟩ := Prod.mk.inj (Except.ok.inj (hfirst.symm.trans hone))
  obtain ⟨rfl, -⟩ := Prod.mk.inj (Except.ok.inj (hsecond.symm.trans htwo))
  rw [hagree]
  exact ⟨rfl, rfl⟩

/-- A DRIVE without payload stores the uninitialised struct. -/
theorem not_nonInterfering_drive (hudp : .udpRead ∈ threads)
    (hop : requestedOpcode datagram = some DRIVE_OPCODE)
    (hnone : (decoded (delivered datagram)).length = PKT_MIN_SIZE) :
    ¬ NonInterfering imencode threads datagram := by
  intro hclaim
  have hreach := reachable_heardCells imencode hudp 0
  have hreceive (leftovers : Leftovers) := receive_drive imencode (heardCells 0) BASE_STATION
    leftovers ⟨true, true⟩ hop (by rw [headerOf, if_pos hnone]; rfl)
  have hsame := (hclaim _ _ hreach hreach (agree_heardCells 0 0) BASE_STATION ⟨true, true⟩
    ⟨⟨0, 0, 0, 0, 0⟩, ⟨0⟩⟩ ⟨⟨100, 100, 0, 0, 0⟩, ⟨0⟩⟩).eq (hreceive _) (hreceive _)
  exact absurd hsame.1 (by decide)

/-- So does a SET_CAMERA_QUALITY without payload. -/
theorem not_nonInterfering_setCameraQuality (hudp : .udpRead ∈ threads)
    (hop : requestedOpcode datagram = some SET_CAMERA_QUALITY_OPCODE)
    (hnone : (decoded (delivered datagram)).length = PKT_MIN_SIZE) :
    ¬ NonInterfering imencode threads datagram := by
  intro hclaim
  have hreach := reachable_heardCells imencode hudp 0
  have hreceive (leftovers : Leftovers) := receive_setCameraQuality imencode (heardCells 0)
    BASE_STATION leftovers ⟨true, true⟩ hop (by rw [headerOf, if_pos hnone]; rfl)
  have hsame := (hclaim _ _ hreach hreach (agree_heardCells 0 0) BASE_STATION ⟨true, true⟩
    ⟨ZERO_DRIVE, ⟨0⟩⟩ ⟨ZERO_DRIVE, ⟨90⟩⟩).eq (hreceive _) (hreceive _)
  exact absurd hsame.2 (by decide)

theorem exists_parse_vibrator {bytes : List UInt8} {cell : UInt8}
    (hcell : bytes[4]? = some cell) (old : DrivePayload) :
    ∃ payload, parseDrivePayload (some bytes) old = .ok payload ∧
      payload.vibrator = cell.toInt8 := by
  obtain ⟨hlong, -⟩ := List.getElem?_eq_some_iff.mp hcell
  match bytes, hlong with
  | _ :: _ :: _ :: _ :: vibrator :: rest, _ =>
      obtain rfl := Option.some.inj hcell
      exact ⟨_, rfl, rfl⟩

/-- The fifth value of a short DRIVE is what an earlier datagram left behind. -/
theorem not_nonInterfering_drive_short (hudp : .udpRead ∈ threads)
    (hop : requestedOpcode datagram = some DRIVE_OPCODE)
    (hlong : (decoded (delivered datagram)).length ≠ PKT_MIN_SIZE)
    (hshort : (delivered datagram).length < 8) : ¬ NonInterfering imencode threads datagram := by
  intro hclaim
  have hfour := four_le_delivered hop
  have hreceive (cell : UInt8) : ∃ next outputs,
      receivePacketsFromUdp imencode (heardCells cell) datagram BASE_STATION
        ⟨ZERO_DRIVE, ⟨0⟩⟩ ⟨true, true⟩ = .ok (next, outputs) ∧
      next.latestDrivePayload.vibrator = cell.toInt8 := by
    have hbehind : (heardCells cell).cellsBehind datagram =
        List.replicate (64 - (delivered datagram).length) cell := by
      obtain ⟨k, hk⟩ := Nat.exists_eq_add_of_le' (Nat.le_trans (by decide : 2 ≤ 4) hfour)
      rw [cellsBehind, hk]
      change (List.replicate 62 cell).drop k = _
      rw [List.drop_replicate]
      congr 1
      omega
    have hcell : ((decodedCells (delivered datagram) ++
        (heardCells cell).cellsBehind datagram).drop PKT_PAYLOAD_START_INDEX)[4]? =
          some cell := by
      rw [hbehind, List.getElem?_drop, List.getElem?_append_right (by
        rw [length_decodedCells]
        exact Nat.le_of_lt_succ hshort)]
      simp only [List.getElem?_replicate, length_decodedCells, PKT_PAYLOAD_START_INDEX]
      exact if_pos (by omega)
    obtain ⟨payload, hparse, hvibrator⟩ := exists_parse_vibrator hcell ZERO_DRIVE
    exact ⟨_, _, receive_drive imencode (heardCells cell) BASE_STATION ⟨ZERO_DRIVE, ⟨0⟩⟩
      ⟨true, true⟩ hop (by rw [payload_headerOf _ hlong]; exact hparse), hvibrator⟩
  obtain ⟨next, outputs, hfirst, hone⟩ := hreceive 1
  obtain ⟨next', outputs', hsecond, htwo⟩ := hreceive 2
  have hsame := (hclaim _ _ (reachable_heardCells imencode hudp 1)
    (reachable_heardCells imencode hudp 2) (agree_heardCells 1 2) BASE_STATION ⟨true, true⟩ _
    _).eq hfirst hsecond
  rw [hsame.1, hone] at htwo
  exact absurd htwo (by decide)

/-- **Non-interference of the UDP handler**: what the robot does with a datagram is
    determined by the datagram exactly when a DRIVE or SET_CAMERA_QUALITY brings the
    payload that is parsed. -/
theorem nonInterfering_iff (imencode : Mat → Nat → Option (List UInt8))
    (threads : List Thread) (hudp : .udpRead ∈ threads) (datagram : List UInt8) :
    NonInterfering imencode threads datagram ↔ OwnPayload datagram := by
  constructor
  · intro hclaim
    constructor
    · intro hop
      have hlong : (decoded (delivered datagram)).length ≠ PKT_MIN_SIZE := by
        intro hnone
        exact not_nonInterfering_drive hudp hop hnone hclaim
      refine ⟨hlong, ?_⟩
      by_contra hshort
      exact not_nonInterfering_drive_short hudp hop hlong (Nat.lt_of_not_le hshort) hclaim
    · intro hop hnone
      exact not_nonInterfering_setCameraQuality hudp hop hnone hclaim
  · intro hown first second hfirst _ hagree addr link leftovers leftovers'
    obtain ⟨history, hrun⟩ := hfirst
    exact sameReaction_of_ownPayload imencode hagree (running_of_run hrun).buffer hown addr link
      leftovers leftovers'

theorem nonInterfering_iff_drive :
    NonInterfering (fun _ _ => none) startedThreads (Message.drive ⟨100, -100, 0, 7, 0⟩).frame :=
  (nonInterfering_iff (fun _ _ => none) startedThreads (by decide)
    (Message.drive ⟨100, -100, 0, 7, 0⟩).frame).mpr (by decide)

/-- A DRIVE packet without payload makes the robot drive with leftover stack. -/
theorem not_nonInterfering_empty_drive :
    ¬ ∀ (imencode : Mat → Nat → Option (List UInt8)) (datagram : List UInt8),
      NonInterfering imencode startedThreads datagram := by
  intro hclaim
  exact not_nonInterfering_drive (by decide) (by decide) (by decide)
    (hclaim (fun _ _ => none) (Message.noPayload DRIVE_OPCODE).frame)

end Robot

end Lame
