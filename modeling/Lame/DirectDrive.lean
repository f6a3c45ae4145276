/-
  Lame/DirectDrive.lean
  =====================
  **Direct mode: what the joystick determines of a drive frame.**

  `Execute` fills two of the five fields of its `DrivePayload`, the tracks, and
  leaves `vibrator`, `actuator` and `scooper` as the stack has them; all five are
  encoded.  The other two places that build a drive command from nothing, the
  constructor of `BLER` and `GetDrivePacket`, clear it first.  So two iterations
  with the same readings write the same frame exactly when the stack held the
  same three bytes both times.
-/
import Lame.RemoteDrive

namespace Lame

open ByteMemory LabelledRuns

namespace Robot

/-! ## 1. The tracks -/

/-- What a reading of the joystick asks of its track: nothing when the read failed or
    the stick is strictly inside the dead zone. -/
def deadzoned : Option Int32 → Int
  | none => 0
  | some reading =>
      if -XBOX_DEADZONE.toInt < reading.toInt ∧ reading.toInt < XBOX_DEADZONE.toInt then 0
      else reading.toInt

/-- The readings the joystick library delivers, from one end of the stick to the other. -/
def InReach (js : Joystick) : Prop :=
  ∀ reading, js.leftY = some reading ∨ js.rightY = some reading →
    -100 ≤ reading.toInt ∧ reading.toInt ≤ 100

theorem toInt_deadzone {reading : Option Int32}
    (hreach : ∀ value ∈ reading, -100 ≤ value.toInt ∧ value.toInt ≤ 100) :
    (if (reading.getD 0).toInt8 > -XBOX_DEADZONE ∧ (reading.getD 0).toInt8 < XBOX_DEADZONE
      then 0 else (reading.getD 0).toInt8 : Int8).toInt = deadzoned reading := by
  cases reading with
  | none => rfl
  | some value =>
      obtain ⟨hlow, hhigh⟩ := hreach value rfl
      have htoInt : value.toInt8.toInt = value.toInt :=
        SByte.toInt_toInt8 ⟨by omega, by omega⟩
      have hneg : (-XBOX_DEADZONE).toInt = -XBOX_DEADZONE.toInt := by decide
      simp only [Option.getD_some, deadzoned, gt_iff_lt, Int8.lt_iff_toInt_lt, htoInt, hneg]
      split
      · rfl
      · exact htoInt

theorem directPayload_tracks {js : Joystick} (hreach : InReach js) (leftovers : DrivePayload) :
    (directPayload js leftovers).left.toInt = deadzoned js.leftY ∧
      (directPayload js leftovers).right.toInt = deadzoned js.rightY := by
  constructor
  · apply toInt_deadzone
    intro reading hread
    exact hreach reading (.inl hread)
  · apply toInt_deadzone
    intro reading hread
    exact hreach reading (.inr hread)

/-! ## 2. The other three fields -/

/-- The fields `Execute` does not assign. -/
def SameUnassigned (first second : DrivePayload) : Prop :=
  first.vibrator = second.vibrator ∧ first.actuator = second.actuator ∧
    first.scooper = second.scooper

theorem directPayload_eq_iff (js : Joystick) (first second : DrivePayload) :
    directPayload js first = directPayload js second ↔ SameUnassigned first second := by
  constructor
  · intro heq
    change SameUnassigned (directPayload js first) (directPayload js second)
    rw [heq]
    exact ⟨rfl, rfl, rfl⟩
  · rintro ⟨hvibrator, hactuator, hscooper⟩
    simp only [directPayload, hvibrator, hactuator, hscooper]

/-! ## 3. An iteration of Direct mode -/

variable (imencode : Mat → Nat → Option (List UInt8))

theorem execute_direct {robot : Robot} (hrunning : robot.Running)
    (hmode : robot.currentMode = .direct) (js : Joystick) (leftovers : DrivePayload) :
    step imencode robot (.execute js leftovers) =
      .ok (robot, if js.ids = [] then []
        else [.serial (Message.drive (directPayload js leftovers)).frame]) := by
  rw [step, if_pos hrunning.isRunning, execute, hmode]
  dsimp only
  by_cases hids : js.ids = []
  · rw [if_pos hids, if_pos (by simp [hids])]
    rfl
  · rw [if_neg hids, if_neg (by simpa using hids)]
    obtain ⟨buffer, hcreate, hsent⟩ := (Message.drive (directPayload js leftovers)).create_sent
      64 64 (Nat.le_trans (Message.drive _).frameLength_bounds.2 (by decide)) (by decide)
    rw [show createDrivePacket (List.replicate 64 0) 64 (directPayload js leftovers) = _ from
      hcreate, ok_bind, sendPacketSerial, hsent]
    rfl

/-- One frame is written, and reading it back gives the tracks the joystick asks for. -/
def Commands (js : Joystick) (outputs : List Output) : Prop :=
  ∃ bytes header payload, outputs = [.serial bytes] ∧
    readPacketHeader bytes (UInt8.ofNat bytes.length) 0 none = .ok header ∧
    header.ret ≠ 0 ∧ header.opcode = DRIVE_OPCODE ∧
    (∀ old, parseDrivePayload header.payload old = .ok payload) ∧
    payload.left.toInt = deadzoned js.leftY ∧ payload.right.toInt = deadzoned js.rightY

/-- The iteration writes the same whatever of the two the stack held, nothing without
    a joystick and the frame of the readings with one. -/
def Determined (robot : Robot) (js : Joystick) (first second : DrivePayload) : Prop :=
  ∃ after outputs,
    step imencode robot (.execute js first) = .ok (after, outputs) ∧
    step imencode robot (.execute js second) = .ok (after, outputs) ∧
    (js.ids = [] → outputs = []) ∧ (js.ids ≠ [] → Commands js outputs)

theorem commands_direct {js : Joystick} (hreach : InReach js) (leftovers : DrivePayload) :
    Commands js [.serial (Message.drive (directPayload js leftovers)).frame] := by
  obtain ⟨header, hread, hret, hop, hparse⟩ := read_drive_frame (directPayload js leftovers)
  exact ⟨_, header, _, rfl, hread, hret, hop, hparse, directPayload_tracks hreach leftovers⟩

/-- **Direct mode.**  In every reachable state, two iterations with the same readings
    write the same frame, with the tracks of the readings, exactly when there is no
    joystick or the stack held the same three bytes. -/
theorem determined_iff (threads : List Thread) (robot : Robot)
    (hreach : Reachable (system imencode threads) robot) (hmode : robot.currentMode = .direct)
    (js : Joystick) (hjs : InReach js) (first second : DrivePayload) :
    robot.Determined imencode js first second ↔
      js.ids = [] ∨ SameUnassigned first second := by
  obtain ⟨history, hrun⟩ := hreach
  have hrunning := running_of_run hrun
  have hfirst := execute_direct imencode hrunning hmode js first
  have hsecond := execute_direct imencode hrunning hmode js second
  by_cases hids : js.ids = []
  · rw [if_pos hids] at hfirst hsecond
    constructor
    · intro _
      exact .inl hids
    · intro _
      refine ⟨robot, [], hfirst, hsecond, ?_, ?_⟩
      · intro _
        rfl
      · intro hsome
        exact absurd hids hsome
  · rw [if_neg hids] at hfirst hsecond
    constructor
    · -- equal frames carry equal payloads, so the unassigned fields agree
      rintro ⟨after, outputs, hone, htwo, -, -⟩
      obtain ⟨-, rfl⟩ := Prod.mk.inj (Except.ok.inj (hfirst.symm.trans hone))
      obtain ⟨-, hframes⟩ := Prod.mk.inj (Except.ok.inj (hsecond.symm.trans htwo))
      have hframe := Output.serial.inj (List.singleton_inj.mp hframes)
      exact .inr ((directPayload_eq_iff js first second).mp (drive_frame_injective hframe).symm)
    · intro hsame
      rw [← (directPayload_eq_iff js first second).mpr (hsame.resolve_left hids)] at hsecond
      refine ⟨robot, _, hfirst, hsecond, ?_, ?_⟩
      · intro hnone
        exact absurd hnone hids
      · intro _
        exact commands_direct hjs first

/-- Both sticks at half way, in front of a stack of zeros each time. -/
theorem determined_iff_zeros :
    ({ create 6000 0 with isRunning := true } : Robot).Determined (fun _ _ => none)
      ⟨[0], some 50, some 50⟩ ZERO_DRIVE ZERO_DRIVE :=
  (determined_iff (fun _ _ => none) startedThreads _ ⟨[], Run.start (started_create 6000 0)⟩ rfl
    ⟨[0], some 50, some 50⟩
    (by rintro reading (hread | hread) <;> cases hread <;> decide) ZERO_DRIVE ZERO_DRIVE).mpr
    (.inr ⟨rfl, rfl, rfl⟩)

/-- The same sticks in front of two stacks: the vibrator stands still or runs. -/
theorem not_determined_vibrator :
    ¬ ∀ (imencode : Mat → Nat → Option (List UInt8)) (robot : Robot),
      Reachable (system imencode startedThreads) robot → robot.currentMode = .direct →
      ∀ js, InReach js → ∀ first second, robot.Determined imencode js first second := by
  intro hclaim
  have hrunning := running_of_run (Run.start (started_create 6000 0) :
    Run (system (fun _ _ => none) startedThreads) [] _)
  obtain ⟨after, outputs, hone, htwo, -, -⟩ := hclaim (fun _ _ => none) _
    ⟨[], Run.start (started_create 6000 0)⟩ rfl ⟨[0], some 50, some 50⟩
    (by rintro reading (hread | hread) <;> cases hread <;> decide)
    ZERO_DRIVE ⟨0, 0, 1, 0, 0⟩
  rw [execute_direct _ hrunning rfl] at hone htwo
  obtain ⟨-, rfl⟩ := Prod.mk.inj (Except.ok.inj hone)
  obtain ⟨-, hframes⟩ := Prod.mk.inj (Except.ok.inj htwo)
  exact absurd hframes (by decide)

end Robot

end Lame
