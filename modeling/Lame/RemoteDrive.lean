/-
  Lame/RemoteDrive.lean
  =====================
  **Remote driving from the base station to the serial line.**

  A drive command is encoded by `PacketHandler`, decoded and parsed by the UDP
  loop, stored, stopped after two seconds without a new one, and encoded again
  by `Execute`.  `latestDrivePayload_of_run` follows the whole payload through the
  history of a run; reading the serial frame back then gives the last command
  that was handled, with the tracks stopped when it is too old.
-/
import Lame.DriveTimeout
import Lame.PacketHandler

namespace Lame

open ByteMemory LabelledRuns PacketHandler

/-! ## 1. One command through the UDP loop -/

/-- The values a `signed byte` can hold, the range the base station sends. -/
def SByte (val : Int32) : Prop := -128 ≤ val.toInt ∧ val.toInt ≤ 127

structure Drive.InRange (drive : Drive) : Prop where
  left : SByte drive.left
  right : SByte drive.right
  actuator : SByte drive.actuator
  scooper : SByte drive.scooper
  vibrator : SByte drive.vibrator

theorem SByte.toInt_toInt8 {val : Int32} (h : SByte val) : val.toInt8.toInt = val.toInt := by
  rw [Int32.toInt_toInt8]
  exact Int.bmod_eq_of_le h.1 (Int.lt_of_le_of_lt h.2 (by decide))

theorem SByte.toInt8_eq_zero_iff {val : Int32} (h : SByte val) : val.toInt8 = 0 ↔ val = 0 := by
  rw [← Int8.toInt_inj, h.toInt_toInt8, ← Int32.toInt_inj]
  rfl

theorem getDrivePacket_eq (drive : Drive) :
    getDrivePacket drive = .ok (Message.drive (drivePayload drive)).frame :=
  Request.packet_eq (.drive drive)

namespace Robot

variable {imencode : Mat → Nat → Option (List UInt8)} {threads : List Thread}

/-- The payload of a drive frame parses back in the robot's buffer. -/
theorem parse_drive_frame (sent old : DrivePayload) (cells : List UInt8) :
    parseDrivePayload (headerOf (Message.drive sent).frame cells).payload old = .ok sent := by
  obtain ⟨last, hcells⟩ := (Message.drive sent).decodedCells_frame
  have hpayload : (headerOf (Message.drive sent).frame cells).payload =
      some ((Message.drive sent).payloadBytes ++ (PKT_END_BYTE :: last :: 0 :: cells)) := by
    rw [headerOf, Message.delivered_frame, Message.decoded_frame, hcells]
    rfl
  rw [hpayload, Message.parseDrivePayload_bytes]

/-- A drive frame replaces the whole stored command. -/
theorem latestDrivePayload_of_drive {robot after : Robot} (hrunning : robot.Running)
    {sent : DrivePayload} {sender : SockAddr} {leftovers : Leftovers} {link : ImageLink}
    {outputs : List Output}
    (hstep : step imencode robot
      (.datagram (Message.drive sent).frame sender leftovers link) = .ok (after, outputs)) :
    after.latestDrivePayload = sent := by
  have hop : requestedOpcode (Message.drive sent).frame = some DRIVE_OPCODE :=
    Message.requestedOpcode_frame rfl
  rw [step, if_pos hrunning.isRunning, receive_drive imencode robot sender leftovers link hop
    (parse_drive_frame sent _ _)] at hstep
  rw [← (Prod.mk.inj (Except.ok.inj hstep)).1]

/-! ## 2. The stored command over a run -/

/-- `sent` is the drive of the most recent DRIVE, or zero when there is none. -/
inductive Latest (history : List Record) : Drive → Prop where
  | never (hnone : ∀ record ∈ history, record.event.requested ≠ some DRIVE_OPCODE) :
      Latest history ⟨0, 0, 0, 0, 0⟩
  | handled {drive : Record} {later : List Record} {bytes : List UInt8} {sender : SockAddr}
      {leftovers : Leftovers} {link : ImageLink} {sent : Drive}
      (hlast : LastDrive history drive later)
      (hevent : drive.event = .datagram bytes sender leftovers link)
      (hbytes : getDrivePacket sent = .ok bytes) : Latest history sent

theorem latest_snoc {history : List Record} {latest : Record} {sent : Drive}
    (h : Latest (history ++ [latest]) sent)
    (hother : latest.event.requested ≠ some DRIVE_OPCODE) : Latest history sent := by
  cases h with
  | never hnone => exact .never fun record hmem => hnone record (List.mem_append_left _ hmem)
  | handled hlast hevent hbytes =>
      obtain ⟨middle, -, hbefore⟩ := hlast.of_snoc hother
      exact .handled hbefore hevent hbytes

/-- The stored command is the latest one, in all five fields. -/
theorem latestDrivePayload_of_run {history : List Record} {robot : Robot}
    (hrun : Run (system imencode threads) history robot) :
    ∀ sent, Latest history sent → robot.latestDrivePayload = drivePayload sent := by
  refine hrun.induction (fun history robot => ∀ sent, Latest history sent →
    robot.latestDrivePayload = drivePayload sent) ?_ ?_
  · rintro robot ⟨ai_port, now, threads, hstarted⟩ sent hlatest
    obtain ⟨-, rfl, -⟩ := run_eq_some_iff.mp hstarted
    cases hlatest with
    | never => rfl
    | handled hlast =>
        have hmem := hlast.mem
        cases hmem
  · intro history before event after outputs hbefore ih hnext sent hlatest
    have hrunning := running_of_run hbefore
    by_cases hop : event.requested = some DRIVE_OPCODE
    · cases hlatest with
      | never hnone => exact absurd hop (hnone ⟨before, event, outputs, after⟩ (by simp))
      | handled hlast hevent hbytes =>
          obtain ⟨rfl, -⟩ := hlast.eq_of_kind hop
          have hframe := Except.ok.inj (hbytes.symm.trans (getDrivePacket_eq sent))
          have hstep := hnext.2
          rw [show event = _ from hevent, hframe] at hstep
          exact latestDrivePayload_of_drive hrunning hstep
    · obtain ⟨next, cells, rfl, -, heffect⟩ := step_cases imencode hrunning hnext.2
      have hkept : next.latestDrivePayload = before.latestDrivePayload := by
        rcases heffect.command_cases with ⟨hdrive, -⟩ | ⟨-, -, hkept⟩ | ⟨-, -, -, hkept⟩
        · exact absurd hdrive hop
        · exact hkept
        · exact hkept
      exact hkept.trans (ih sent (latest_snoc hlatest hop))

/-- Every DRIVE of the history is a packet of `GetDrivePacket` with values in range;
    the other datagrams are arbitrary. -/
def BuiltDrives (history : List Record) : Prop :=
  ∀ record ∈ history, record.event.requested = some DRIVE_OPCODE →
    ∃ bytes sender leftovers link sent,
      record.event = .datagram bytes sender leftovers link ∧
      getDrivePacket sent = .ok bytes ∧ sent.InRange

theorem exists_latest {history : List Record} (hbuilt : BuiltDrives history) :
    ∃ sent, Latest history sent ∧ sent.InRange := by
  by_cases hdrive : ∃ record ∈ history, record.event.requested = some DRIVE_OPCODE
  · obtain ⟨drive, later, hlast⟩ := exists_lastEntry hdrive
    obtain ⟨bytes, sender, leftovers, link, sent, hevent, hbytes, hrange⟩ :=
      hbuilt drive hlast.mem hlast.2.1
    exact ⟨sent, .handled hlast hevent hbytes, hrange⟩
  · have hzero : SByte 0 := ⟨by decide, by decide⟩
    exact ⟨_, .never fun record hmem hop => hdrive ⟨record, hmem, hop⟩,
      ⟨hzero, hzero, hzero, hzero, hzero⟩⟩

/-! ## 3. What the microcontroller reads -/

/-- The iteration writes one frame, and reading it gives the command `sent`, with the
    tracks stopped when no command has come for more than two seconds. -/
def Emits (robot : Robot) (outputs : List Output) (sent : Drive) : Prop :=
  ∃ bytes header payload, outputs = [.serial bytes] ∧
    readPacketHeader bytes (UInt8.ofNat bytes.length) 0 none = .ok header ∧
    header.ret ≠ 0 ∧ header.opcode = DRIVE_OPCODE ∧
    (∀ old, parseDrivePayload header.payload old = .ok payload) ∧
    payload.actuator.toInt = sent.actuator.toInt ∧
    payload.scooper.toInt = sent.scooper.toInt ∧
    payload.vibrator.toInt = sent.vibrator.toInt ∧
    (robot.now - robot.lastDrivePayloadReceivedTime ≤ 2 →
      payload.left.toInt = sent.left.toInt ∧ payload.right.toInt = sent.right.toInt) ∧
    (payload.left = 0 ∧ payload.right = 0 ↔
      robot.now - robot.lastDrivePayloadReceivedTime > 2 ∨ sent.left = 0 ∧ sent.right = 0)

theorem read_drive_frame (sent : DrivePayload) :
    ∃ header, readPacketHeader (Message.drive sent).frame
        (UInt8.ofNat (Message.drive sent).frame.length) 0 none = .ok header ∧
      header.ret ≠ 0 ∧ header.opcode = DRIVE_OPCODE ∧
      ∀ old, parseDrivePayload header.payload old = .ok sent := by
  have hend : (Message.drive sent).lacksEndByte = false := rfl
  obtain ⟨last, hread⟩ := Message.read_frame hend [] 0 none
  rw [List.append_nil, ← Message.length_frame] at hread
  refine ⟨_, hread, Nat.succ_ne_zero _, rfl, fun old => ?_⟩
  exact Message.parseDrivePayload_bytes sent old _

theorem emits_of_latestDrivePayload {robot : Robot} {sent : Drive} (hrange : sent.InRange)
    (hstored : robot.latestDrivePayload = drivePayload sent) :
    robot.Emits [.serial (Message.drive robot.remotePayload).frame] sent := by
  obtain ⟨header, hread, hret, hop, hparse⟩ := read_drive_frame robot.remotePayload
  refine ⟨_, header, _, rfl, hread, hret, hop, hparse, ?_⟩
  have hleft := hrange.left.toInt8_eq_zero_iff
  have hright := hrange.right.toInt8_eq_zero_iff
  rw [remotePayload, hstored]
  by_cases hold : robot.now - robot.lastDrivePayloadReceivedTime > 2
  · rw [if_pos hold]
    refine ⟨hrange.actuator.toInt_toInt8, hrange.scooper.toInt_toInt8,
      hrange.vibrator.toInt_toInt8, ?_, ?_⟩
    · intro hfresh
      exact absurd hold (Int.not_lt.mpr hfresh)
    · constructor
      · intro _
        exact .inl hold
      · intro _
        exact ⟨rfl, rfl⟩
  · rw [if_neg hold]
    refine ⟨hrange.actuator.toInt_toInt8, hrange.scooper.toInt_toInt8,
      hrange.vibrator.toInt_toInt8, ?_, ?_⟩
    · intro _
      exact ⟨hrange.left.toInt_toInt8, hrange.right.toInt_toInt8⟩
    · constructor
      · intro hstopped
        exact .inr ⟨hleft.mp hstopped.1, hright.mp hstopped.2⟩
      · intro hzero
        obtain ⟨hl, hr⟩ := hzero.resolve_left hold
        exact ⟨hleft.mpr hl, hright.mpr hr⟩

/-- **Faithful remote drive.**  In every run whose DRIVE datagrams come from
    `GetDrivePacket`, each Remote iteration of `Execute` writes one frame, and it
    carries the command of the most recent DRIVE. -/
theorem remoteDrive_faithful {history : List Record} {robot : Robot}
    (hrun : Run (system imencode threads) history robot) (hbuilt : BuiltDrives history) :
    ∀ earlier record later, history = earlier ++ record :: later →
    ∀ js leftovers, record.event = .execute js leftovers →
    record.before.currentMode = .remote →
    (∃ sent, Latest earlier sent ∧ sent.InRange) ∧
      ∀ sent, Latest earlier sent → sent.InRange → record.before.Emits record.outputs sent := by
  rintro earlier record later rfl js leftovers hevent hmode
  obtain ⟨hbefore, -⟩ := hrun.split
  obtain ⟨next, heffect⟩ := effect_of_run hrun
  constructor
  · exact exists_latest fun drive hmem => hbuilt drive (List.mem_append_left _ hmem)
  · intro sent hlatest hrange
    rw [heffect.remote_outputs hevent hmode]
    exact emits_of_latestDrivePayload hrange (latestDrivePayload_of_run hbefore sent hlatest)

/-- A switch to Remote mode, a DRIVE, one iteration of `Execute`. -/
def remoteEvents : List Event :=
  [datagramOf .remoteSwitch BASE_STATION, datagramOf (.drive ⟨50, -50, 1, 2, 3⟩) BASE_STATION,
    .execute ⟨[], none, none⟩ ZERO_DRIVE]

theorem remoteDrive_faithful_run : ∃ (history : List Record) (robot : Robot),
    Run (system (fun _ _ => none) startedThreads) history robot ∧
      ∃ earlier record later, history = earlier ++ record :: later ∧
        Latest earlier ⟨50, -50, 2, 3, 1⟩ ∧
        record.before.Emits record.outputs ⟨50, -50, 2, 3, 1⟩ := by
  obtain ⟨history, robot, hrun, hviews⟩ := exists_started_run (fun _ _ => none) remoteEvents
    (fun (history : List Record) _ => history.map fun record =>
      (record.event, record.before.currentMode))
    [(datagramOf .remoteSwitch BASE_STATION, .direct),
      (datagramOf (.drive ⟨50, -50, 1, 2, 3⟩) BASE_STATION, .remote),
      (.execute ⟨[], none, none⟩ ZERO_DRIVE, .remote)]
    (by decide) (by decide)
  obtain ⟨switch, history, rfl, hswitch, hviews⟩ := List.map_eq_cons_iff.mp hviews
  obtain ⟨drive, history, rfl, hdrive, hviews⟩ := List.map_eq_cons_iff.mp hviews
  obtain ⟨execute, history, rfl, hexecute, hviews⟩ := List.map_eq_cons_iff.mp hviews
  obtain rfl := List.map_eq_nil_iff.mp hviews
  obtain ⟨hswitch, -⟩ := Prod.mk.inj hswitch
  obtain ⟨hdrive, -⟩ := Prod.mk.inj hdrive
  obtain ⟨hexecute, hmode⟩ := Prod.mk.inj hexecute
  have hbytes : getDrivePacket ⟨50, -50, 2, 3, 1⟩ =
      .ok (Message.drive ⟨50, -50, 1, 2, 3⟩).frame := getDrivePacket_eq ⟨50, -50, 2, 3, 1⟩
  have hrange : Drive.InRange ⟨50, -50, 2, 3, 1⟩ :=
    ⟨⟨by decide, by decide⟩, ⟨by decide, by decide⟩, ⟨by decide, by decide⟩,
      ⟨by decide, by decide⟩, ⟨by decide, by decide⟩⟩
  have hbuilt : BuiltDrives [switch, drive, execute] := by
    intro record hmem hrequest
    simp only [List.mem_cons, List.not_mem_nil, or_false] at hmem
    rcases hmem with rfl | rfl | rfl
    · rw [hswitch] at hrequest
      exact absurd hrequest (by decide)
    · exact ⟨_, _, _, _, _, hdrive, hbytes, hrange⟩
    · rw [hexecute] at hrequest
      cases hrequest
  have hlatest : Latest [switch, drive] ⟨50, -50, 2, 3, 1⟩ := by
    have hlast : LastDrive ([switch] ++ [drive]) drive [] :=
      .of_kind (show drive.event.requested = _ by rw [hdrive]; decide)
    exact .handled hlast hdrive hbytes
  exact ⟨_, robot, hrun, [switch, drive], execute, [], rfl, hlatest,
    (remoteDrive_faithful hrun hbuilt [switch, drive] execute [] rfl _ _ hexecute hmode).2 _
      hlatest hrange⟩

end Robot

end Lame
