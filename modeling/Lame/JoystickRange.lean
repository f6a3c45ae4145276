/-
  Lame/JoystickRange.lean
  =======================
  **The values of the joystick thread stay in range, whatever the sliders do.**

  `InRange` bounds the captured locals, and `Bounded` is the invariant: every local is
  in its range in front of every statement, except that a preset may stand one step
  above 100 between its increment and its wrap test.  An override may come at any of
  these places.  One lemma per block of the loop shows that its statements keep the
  ranges; `drives_in_range` is the result for all runs, down to the bytes that the
  robot parses.
-/
import Lame.BoundedInts
import Lame.JoystickLoop
import Lame.RemoteDrive

namespace Lame

open ByteMemory LabelledRuns BoundedInts

/-! ## 1. The ranges -/

structure Drive.Bounded (drive : Drive) : Prop where
  left : Between (-100) 100 drive.left
  right : Between (-100) 100 drive.right
  actuator : Between (-100) 100 drive.actuator
  scooper : Between 0 100 drive.scooper
  vibrator : Between 0 100 drive.vibrator

namespace JoystickLoop

/-- What the joystick library and the sliders are assumed to deliver. -/
def Event.InRange : Event → Prop
  | .statement inputs =>
      (∀ val ∈ inputs.stick, Between (-100) 100 val) ∧
        ∀ val ∈ inputs.trigger, Between 0 100 val
  | .overrideSpeeds dispSlider vibSlider =>
      (-1 ≤ dispSlider ∧ dispSlider ≤ 100) ∧ -1 ≤ vibSlider ∧ vibSlider ≤ 100
  | .showValues => True

/-- The ranges of the locals, for the given maxima of the two presets. -/
structure InRange (js : JoystickLoop) (scooperMax vibratorMax : Int) : Prop where
  leftY : Between (-100) 100 js.leftY
  rightY : Between (-100) 100 js.rightY
  leftTrigger : Between 0 100 js.leftTrigger
  rightTrigger : Between 0 100 js.rightTrigger
  actuator_speed : Between (-100) 100 js.actuator_speed
  speed_divisor : Between 1 5 js.speed_divisor
  scooper_speed : Between 0 scooperMax js.scooper_speed
  vibrator_speed : Between 0 vibratorMax js.vibrator_speed
  speeds : js.speeds.Bounded

/-- An increment may exceed 100 until the wrap. -/
def Statement.scooperMax : Statement → Int
  | .scooper .ifAboveMax | .scooper .wrap => 110
  | _ => 100

def Statement.vibratorMax : Statement → Int
  | .vibrator .ifAboveMax | .vibrator .wrap => 110
  | _ => 100

theorem Statement.le_scooperMax (statement : Statement) : 100 ≤ statement.scooperMax := by
  unfold Statement.scooperMax
  split
  · decide
  · decide
  · exact Int.le_refl _

theorem Statement.le_vibratorMax (statement : Statement) : 100 ≤ statement.vibratorMax := by
  unfold Statement.vibratorMax
  split
  · decide
  · decide
  · exact Int.le_refl _

structure Bounded (js : JoystickLoop) : Prop where
  inRange : js.InRange js.next.scooperMax js.next.vibratorMax
  buffer : js.next = .sending .send → PacketHandler.getDrivePacket js.speeds = .ok js.buffer

theorem InRange.mono {js : JoystickLoop} {scooperMax vibratorMax scooperMax' vibratorMax' : Int}
    (h : js.InRange scooperMax vibratorMax) (hscooper : scooperMax ≤ scooperMax')
    (hvibrator : vibratorMax ≤ vibratorMax') : js.InRange scooperMax' vibratorMax' :=
  { h with
    scooper_speed := h.scooper_speed.mono (Int.le_refl _) hscooper
    vibrator_speed := h.vibrator_speed.mono (Int.le_refl _) hvibrator }

/-- Ranges with both presets below 100 are good in front of any statement. -/
theorem InRange.bounded {js : JoystickLoop} (h : js.InRange 100 100)
    (hsend : js.next ≠ .sending .send) : js.Bounded := by
  constructor
  · exact h.mono (Statement.le_scooperMax _) (Statement.le_vibratorMax _)
  · intro hnext
    exact absurd hnext hsend

theorem between_getD {low high : Int} {val : Option Int32} {old : Int32}
    (hold : Between low high old) (hval : ∀ new ∈ val, Between low high new) :
    Between low high (val.getD old) := by
  cases val with
  | none => exact hold
  | some new => exact hval new rfl

theorem between_zero {low high : Int} (hlow : low ≤ 0) (hhigh : 0 ≤ high) :
    Between low high 0 :=
  ⟨hlow, hhigh⟩

/-! ## 2. The statements keep the ranges -/

variable {js after : JoystickLoop} {inputs : Inputs} {outputs : List Output}

theorem runLoop_inRange {statement : LoopStatement} (h : js.InRange 100 100)
    (hrun : js.runLoop inputs statement = .ok (after, outputs)) : after.InRange 100 100 := by
  obtain ⟨next, jsID, enumerate_js, ids, rfl, -⟩ := runLoop_frame hrun
  exact { h with }

theorem runRead_inRange {statement : ReadStatement} (h : js.InRange 100 100)
    (hinputs : (Event.statement inputs).InRange) :
    (js.runRead inputs statement).InRange 100 100 := by
  obtain ⟨hstick, htrigger⟩ := hinputs
  cases statement with
  | declareActuator => exact { h with actuator_speed := between_zero (by decide) (by decide) }
  | getLeftY => exact { h with leftY := between_getD h.leftY hstick }
  | getRightY => exact { h with rightY := between_getD h.rightY hstick }
  | getLeftTrigger => exact { h with leftTrigger := between_getD h.leftTrigger htrigger }
  | getRightTrigger => exact { h with rightTrigger := between_getD h.rightTrigger htrigger }
  | declareA | declareX | declarePov | getButtonA | getButtonX | getDpad => exact { h with }

theorem runDeadzone_inRange {statement : DeadzoneStatement} (h : js.InRange 100 100)
    (hrun : js.runDeadzone statement = .ok after) : after.InRange 100 100 := by
  obtain ⟨next, leftY, rightY, rfl, -, hleft, hright⟩ := runDeadzone_frame hrun
  have hzero : Between (-100) 100 0 := between_zero (by decide) (by decide)
  have hleftY : Between (-100) 100 leftY := by
    rcases hleft with rfl | rfl
    · exact h.leftY
    · exact hzero
  have hrightY : Between (-100) 100 rightY := by
    rcases hright with rfl | rfl
    · exact h.rightY
    · exact hzero
  exact { h with leftY := hleftY, rightY := hrightY }

theorem runActuator_inRange {statement : ActuatorStatement} (h : js.InRange 100 100) :
    (js.runActuator statement).InRange 100 100 := by
  cases statement with
  | ifBoth | ifLeft | ifRight =>
      rw [runActuator]
      split
      · exact { h with }
      · exact { h with }
  | stop => exact { h with actuator_speed := between_zero (by decide) (by decide) }
  | lower =>
      have hneg : Between (-100) 0 (-js.leftTrigger) :=
        h.leftTrigger.neg (by decide) (by decide)
      exact { h with actuator_speed := hneg.mono (by decide) (by decide) }
  | raise => exact { h with actuator_speed := h.rightTrigger.mono (by decide) (by decide) }

/-- The scooper exceeds 100 between its increment and its test at most. -/
theorem runScooper_inRange {statement : ScooperStatement}
    (h : js.InRange (Statement.scooper statement).scooperMax 100) :
    (js.runScooper inputs statement).InRange
      (js.runScooper inputs statement).next.scooperMax 100 := by
  cases statement with
  | ifPressed | ifZero =>
      rw [runScooper]
      split
      · exact { h with }
      · exact { h with }
  | setMin =>
      have hmin : Between 0 100 SCOOPER_MIN := ⟨by decide, by decide⟩
      exact { h with scooper_speed := hmin }
  | increment =>
      have hinc : Between 10 10 SCOOPER_INC := ⟨by decide, by decide⟩
      have hsum : Between 10 110 (js.scooper_speed + SCOOPER_INC) :=
        h.scooper_speed.add hinc (by decide) (by decide)
      have hrange : Between 0 110 (js.scooper_speed + SCOOPER_INC) :=
        hsum.mono (by decide) (by decide)
      exact { h with scooper_speed := hrange }
  | ifAboveMax =>
      rw [runScooper]
      split
      · exact { h with }
      · next hmax =>
        have hrange : Between 0 100 js.scooper_speed :=
          (h.scooper_speed.of_not_lt hmax).mono (by decide) (by decide)
        exact { h with scooper_speed := hrange }
  | wrap =>
      have hzero : Between 0 100 0 := between_zero (by decide) (by decide)
      exact { h with scooper_speed := hzero }
  | toggled => exact { h with }

theorem runVibrator_inRange {statement : VibratorStatement}
    (h : js.InRange 100 (Statement.vibrator statement).vibratorMax) :
    (js.runVibrator inputs statement).InRange 100
      (js.runVibrator inputs statement).next.vibratorMax := by
  cases statement with
  | ifPressed =>
      rw [runVibrator]
      split
      · exact { h with }
      · exact { h with }
  | increment =>
      have hinc : Between 10 10 VIB_INC := ⟨by decide, by decide⟩
      have hsum : Between 10 110 (js.vibrator_speed + VIB_INC) :=
        h.vibrator_speed.add hinc (by decide) (by decide)
      have hrange : Between 0 110 (js.vibrator_speed + VIB_INC) :=
        hsum.mono (by decide) (by decide)
      exact { h with vibrator_speed := hrange }
  | ifAboveMax =>
      rw [runVibrator]
      split
      · exact { h with }
      · next hmax =>
        have hrange : Between 0 100 js.vibrator_speed :=
          (h.vibrator_speed.of_not_lt hmax).mono (by decide) (by decide)
        exact { h with vibrator_speed := hrange }
  | wrap =>
      have hzero : Between 0 100 0 := between_zero (by decide) (by decide)
      exact { h with vibrator_speed := hzero }
  | toggled => exact { h with }

theorem between_clamp {val min max : Int32} (hle : min ≤ max) :
    Between min.toInt max.toInt (clamp val min max) := by
  have hbounds := Int32.le_iff_toInt_le.mp hle
  unfold clamp
  split
  · exact ⟨Int.le_refl _, hbounds⟩
  · next hmin =>
    split
    · exact ⟨hbounds, Int.le_refl _⟩
    · next hmax =>
      constructor
      · exact Int32.le_iff_toInt_le.mp (Int32.not_lt.mp hmin)
      · exact Int32.le_iff_toInt_le.mp (Int32.not_lt.mp hmax)

theorem eq_of_divide {x y quotient : Int32} (h : divide x y = .ok quotient) :
    quotient = x / y := by
  unfold divide at h
  split at h
  · cases h
  · split at h
    · cases h
    · exact (Except.ok.inj h).symm

/-- A divisor of at least one divides everything. -/
theorem divide_eq {x y : Int32} (hy : 1 ≤ y.toInt) : divide x y = .ok (x / y) := by
  have hzero : y ≠ 0 := by
    rintro rfl
    exact absurd hy (by decide)
  have hminus : ¬ (x = Int32.minValue ∧ y = -1) := by
    rintro ⟨-, rfl⟩
    exact absurd hy (by decide)
  rw [divide, if_neg hzero, if_neg hminus]

theorem runScale_inRange {statement : ScaleStatement} (h : js.InRange 100 100)
    (hrun : js.runScale statement = .ok after) : after.InRange 100 100 := by
  cases runScale_scaled hrun with
  | moved => exact { h with }
  | divisor =>
      have hle : (1 : Int32) ≤ MAX_SPEED_DIVISOR := by decide
      exact { h with speed_divisor := between_clamp hle }
  | right _ hquotient =>
      have hright := h.rightY.div (by decide) (by decide) h.speed_divisor.low_le
      rw [← eq_of_divide hquotient] at hright
      exact { h with rightY := hright }
  | left _ hquotient =>
      have hleft := h.leftY.div (by decide) (by decide) h.speed_divisor.low_le
      rw [← eq_of_divide hquotient] at hleft
      exact { h with leftY := hleft }

theorem newDrive_bounded : NEW_DRIVE.Bounded := by
  have hzero : Between (-100) 100 0 := between_zero (by decide) (by decide)
  have hpositive : Between 0 100 0 := between_zero (by decide) (by decide)
  exact ⟨hzero, hzero, hzero, hpositive, hpositive⟩

theorem prepared_inRange (h : js.InRange 100 100) (hprepared : js.Prepared after) :
    after.InRange 100 100 := by
  cases hprepared with
  | packet => exact { h with }
  | filled _ hspeeds =>
      refine { h with speeds := ?_ }
      rcases hspeeds with rfl | rfl | rfl | rfl | rfl | rfl | rfl
      · exact h.speeds
      · exact newDrive_bounded
      · exact { h.speeds with left := h.leftY }
      · exact { h.speeds with right := h.rightY }
      · exact { h.speeds with actuator := h.actuator_speed }
      · exact { h.speeds with scooper := h.scooper_speed }
      · exact { h.speeds with vibrator := h.vibrator_speed }

/-! ## 3. The callbacks and the step -/

theorem between_truncate {value : Rat} (hlow : -1 ≤ value) (hhigh : value ≤ 100) :
    Between (-1) 100 (truncate value) := by
  have hden : (0 : Int) < value.den := Int.natCast_pos.mpr value.den_pos
  have hnum_low : -1 * (value.den : Int) ≤ value.num := by
    have hcross := (Rat.le_iff _ _).mp hlow
    rwa [show (-1 : Rat).num = -1 from rfl, show (-1 : Rat).den = 1 from rfl,
      Int.natCast_one, Int.mul_one] at hcross
  have hnum_high : value.num ≤ 100 * (value.den : Int) := by
    have hcross := (Rat.le_iff _ _).mp hhigh
    rwa [show (100 : Rat).num = 100 from rfl, show (100 : Rat).den = 1 from rfl,
      Int.natCast_one, Int.mul_one] at hcross
  apply between_ofInt
  · have hmono := Int.tdiv_le_tdiv hden hnum_low
    rwa [Int.mul_tdiv_cancel _ (Int.ne_of_gt hden)] at hmono
  · have hmono := Int.tdiv_le_tdiv hden hnum_high
    rwa [Int.mul_tdiv_cancel _ (Int.ne_of_gt hden)] at hmono
  · decide
  · decide

/-- An override writes a slider value, so it keeps whatever maxima hold. -/
theorem overrideSpeeds_inRange {scooperMax vibratorMax : Int} {dispSlider vibSlider : Rat}
    (h : js.InRange scooperMax vibratorMax) (hscooper : 100 ≤ scooperMax)
    (hvibrator : 100 ≤ vibratorMax)
    (hevent : (Event.overrideSpeeds dispSlider vibSlider).InRange) :
    (js.overrideSpeeds dispSlider vibSlider).InRange scooperMax vibratorMax := by
  obtain ⟨⟨hdisp_low, hdisp_high⟩, hvib_low, hvib_high⟩ := hevent
  have hdisp := between_truncate hdisp_low hdisp_high
  have hvib := between_truncate hvib_low hvib_high
  have hfirst : InRange (if 0 ≤ truncate dispSlider then
      { js with scooper_speed := truncate dispSlider } else js) scooperMax vibratorMax := by
    split
    · next hset =>
      exact { h with scooper_speed := (hdisp.of_le hset).mono (Int.le_refl _) hscooper }
    · exact h
  rw [overrideSpeeds]
  split
  · next hset =>
    have hvibrator_speed := (hvib.of_le hset).mono (Int.le_refl _) hvibrator
    exact { hfirst with vibrator_speed := hvibrator_speed }
  · exact hfirst

theorem overrideSpeeds_frame (js : JoystickLoop) (dispSlider vibSlider : Rat) :
    (js.overrideSpeeds dispSlider vibSlider).next = js.next ∧
      (js.overrideSpeeds dispSlider vibSlider).speeds = js.speeds ∧
      (js.overrideSpeeds dispSlider vibSlider).buffer = js.buffer := by
  rw [overrideSpeeds]
  split
  · split
    · exact ⟨rfl, rfl, rfl⟩
    · exact ⟨rfl, rfl, rfl⟩
  · split
    · exact ⟨rfl, rfl, rfl⟩
    · exact ⟨rfl, rfl, rfl⟩

/-- The ranges in front of a given statement. -/
theorem Bounded.inRange_at {statement : Statement} (h : js.Bounded)
    (hnext : js.next = statement) :
    js.InRange statement.scooperMax statement.vibratorMax := by
  rw [← hnext]
  exact h.inRange

/-- **One statement keeps the invariant**, and what it sends is a built packet. -/
theorem runStatement_bounded (h : js.Bounded) (hinputs : (Event.statement inputs).InRange)
    (hrun : js.runStatement inputs = .ok (after, outputs)) :
    after.Bounded ∧ ∀ buffer, .send buffer ∈ outputs →
      PacketHandler.getDrivePacket js.speeds = .ok buffer := by
  rw [runStatement] at hrun
  split at hrun
  · next statement hnext =>
    have hrange : js.InRange 100 100 := h.inRange_at hnext
    refine ⟨(runLoop_inRange hrange hrun).bounded (runLoop_passes hrun).ne_send, ?_⟩
    intro buffer hmem
    exact absurd hmem (runLoop_silent hrun buffer)
  · next statement hnext =>
    cases hrun
    have hrange : js.InRange 100 100 := h.inRange_at hnext
    exact ⟨(runRead_inRange hrange hinputs).bounded (runRead_passes statement).ne_send, by simp⟩
  · next statement hnext =>
    obtain ⟨reached, hreached, hrun⟩ := bind_eq_ok.mp hrun
    cases hrun
    have hrange : js.InRange 100 100 := h.inRange_at hnext
    exact ⟨(runDeadzone_inRange hrange hreached).bounded (runDeadzone_passes hreached).ne_send,
      by simp⟩
  · next statement hnext =>
    cases hrun
    have hrange : js.InRange 100 100 := h.inRange_at hnext
    exact ⟨(runActuator_inRange hrange).bounded (runActuator_passes statement).ne_send, by simp⟩
  · next statement hnext =>
    cases hrun
    have hrange := h.inRange_at hnext
    refine ⟨⟨(runScooper_inRange hrange).mono (Int.le_refl _) (Statement.le_vibratorMax _), ?_⟩,
      by simp⟩
    intro hsend
    exact absurd hsend (runScooper_ne_send statement)
  · next statement hnext =>
    cases hrun
    have hrange := h.inRange_at hnext
    refine ⟨⟨(runVibrator_inRange hrange).mono (Statement.le_scooperMax _) (Int.le_refl _), ?_⟩,
      by simp⟩
    intro hsend
    exact absurd hsend (runVibrator_ne_send statement)
  · next statement hnext =>
    obtain ⟨reached, hreached, hrun⟩ := bind_eq_ok.mp hrun
    cases hrun
    have hrange : js.InRange 100 100 := h.inRange_at hnext
    exact ⟨(runScale_inRange hrange hreached).bounded (runScale_passes hreached).ne_send,
      by simp⟩
  · next statement hnext =>
    have hrange : js.InRange 100 100 := h.inRange_at hnext
    obtain ⟨hprepared, hsent⟩ := runSend_prepared hrun
    have hkept := prepared_inRange hrange hprepared
    constructor
    · constructor
      · exact hkept.mono (Statement.le_scooperMax _) (Statement.le_vibratorMax _)
      · intro hsend
        cases hprepared with
        | packet hbuffer => exact hbuffer
        | filled hcalm => exact absurd hsend (ne_send_of_calm hcalm)
    · intro buffer hmem
      obtain ⟨rfl, rfl⟩ := hsent buffer hmem
      exact h.buffer hnext
  · cases hrun
    exact ⟨h, by simp⟩

/-! ## 4. No division by zero -/

theorem runLoop_divides (statement : LoopStatement) :
    js.runLoop inputs statement ≠ .error .divideByZero := by
  cases statement with
  | whileNotClosing | ifEnumerate | ifNoIDs | ifDisconnected =>
      rw [runLoop]
      split
      · exact ok_ne_error
      · exact ok_ne_error
  | takeFirstID =>
      rw [runLoop]
      split
      · intro h
        cases h
      · exact ok_ne_error
  | sleep | getIDs | clearEnumerate | showID | setEnumerate | showNone => exact ok_ne_error

theorem abs_divides (x : Int32) : abs x ≠ .error .divideByZero := by
  unfold abs
  split
  · intro h
    cases h
  · exact ok_ne_error

theorem runDeadzone_divides (statement : DeadzoneStatement) :
    js.runDeadzone statement ≠ .error .divideByZero := by
  intro h
  cases statement with
  | ifLeft | ifRight =>
      rcases bind_eq_error.mp h with habs | ⟨magnitude, -, h⟩
      · exact abs_divides _ habs
      · split at h
        · cases h
        · cases h
  | clearLeft | clearRight => cases h

theorem runScale_divides (hdivisor : 1 ≤ js.speed_divisor.toInt) (statement : ScaleStatement) :
    js.runScale statement ≠ .error .divideByZero := by
  cases statement with
  | ifNorth | ifSouth =>
      rw [runScale]
      split
      · exact ok_ne_error
      · exact ok_ne_error
  | divideRight | divideLeft =>
      rw [runScale, divide_eq hdivisor]
      exact ok_ne_error
  | slower | faster | invokeOverride | invokeShow => exact ok_ne_error

theorem runSend_divides (statement : SendStatement) :
    js.runSend inputs statement ≠ .error .divideByZero := by
  cases statement with
  | ifNotRemote =>
      rw [runSend]
      split
      · exact ok_ne_error
      · exact ok_ne_error
  | getDrivePacket =>
      rw [runSend, getDrivePacket_eq]
      exact ok_ne_error
  | newDrive | setLeft | setRight | setActuator | setScooper | setVibrator | setLastPacket
  | send => exact ok_ne_error

/-- Neither the scaling nor the displayed percentage divides by zero. -/
theorem step_divides (hdivisor : 1 ≤ js.speed_divisor.toInt) (event : Event) :
    js.step event ≠ .error .divideByZero := by
  cases event with
  | statement inputs =>
      rw [step, runStatement]
      split
      · exact runLoop_divides _
      · exact ok_ne_error
      · intro h
        rcases bind_eq_error.mp h with h | ⟨reached, -, h⟩
        · exact runDeadzone_divides _ h
        · cases h
      · exact ok_ne_error
      · exact ok_ne_error
      · exact ok_ne_error
      · intro h
        rcases bind_eq_error.mp h with h | ⟨reached, -, h⟩
        · exact runScale_divides hdivisor _ h
        · cases h
      · exact runSend_divides _
      · exact ok_ne_error
  | overrideSpeeds dispSlider vibSlider => exact ok_ne_error
  | showValues =>
      rw [step, showValues]
      split
      · exact ok_ne_error
      · rw [divide_eq hdivisor]
        exact ok_ne_error

/-! ## 5. Every run -/

theorem start_bounded (scooperStart vibratorStart : Int) :
    (start scooperStart vibratorStart).Bounded := by
  have hsym : Between (-100) 100 0 := between_zero (by decide) (by decide)
  have hpos : Between 0 100 0 := between_zero (by decide) (by decide)
  have hdivisor : Between 1 5 DEFAULT_SPEED_DIVISOR := ⟨by decide, by decide⟩
  refine InRange.bounded ?_ nofun
  exact ⟨hsym, hsym, hpos, hpos, hsym, hdivisor, hpos, hpos, newDrive_bounded⟩

theorem step_bounded {event : Event} (h : js.Bounded) (hevent : event.InRange)
    (hstep : js.step event = .ok (after, outputs)) :
    after.Bounded ∧ ∀ buffer, .send buffer ∈ outputs →
      PacketHandler.getDrivePacket js.speeds = .ok buffer := by
  cases event with
  | statement inputs => exact runStatement_bounded h hevent hstep
  | overrideSpeeds dispSlider vibSlider =>
      cases hstep
      obtain ⟨hnext, hspeeds, hbuffer⟩ := overrideSpeeds_frame js dispSlider vibSlider
      have hrange := overrideSpeeds_inRange h.inRange (Statement.le_scooperMax _)
        (Statement.le_vibratorMax _) hevent
      constructor
      · constructor
        · rwa [hnext]
        · rw [hnext, hspeeds, hbuffer]
          exact h.buffer
      · simp
  | showValues =>
      obtain ⟨captured, rfl, hsilent⟩ := showValues_frame hstep
      refine ⟨⟨{ h.inRange with }, h.buffer⟩, ?_⟩
      intro buffer hmem
      exact absurd hmem (hsilent buffer)

theorem bounded_of_run {scooperStart vibratorStart : Int} {history : List Record}
    (hrun : Run (system scooperStart vibratorStart Event.InRange) history js) : js.Bounded := by
  have hreach : Reachable (system scooperStart vibratorStart Event.InRange) js := ⟨history, hrun⟩
  apply hreach.invariant Bounded
  · rintro _ rfl
    exact start_bounded scooperStart vibratorStart
  · intro before event after outputs hbounded hnext
    exact (step_bounded hbounded hnext.1 hnext.2).1

/-- The robot reads the five values `sent` out of the packet, whatever stands behind
    it in the receive buffer and in the struct it fills. -/
def Recovers (buffer : List UInt8) (sent : Drive) : Prop :=
  ∀ back, ∃ header payload,
    readPacketHeader (buffer ++ back) (UInt8.ofNat buffer.length) 0 none = .ok header ∧
    header.ret ≠ 0 ∧ header.opcode = DRIVE_OPCODE ∧
    (∀ old, parseDrivePayload header.payload old = .ok payload) ∧
    payload.left.toInt = sent.left.toInt ∧ payload.right.toInt = sent.right.toInt ∧
    payload.actuator.toInt = sent.actuator.toInt ∧
    payload.scooper.toInt = sent.scooper.toInt ∧
    payload.vibrator.toInt = sent.vibrator.toInt

theorem sbyte_of_between {low high : Int} {val : Int32} (h : Between low high val)
    (hlow : -128 ≤ low) (hhigh : high ≤ 127) : SByte val :=
  ⟨Int.le_trans hlow h.low_le, Int.le_trans h.le_high hhigh⟩

theorem recovers_of_bounded {sent : Drive} {buffer : List UInt8} (h : sent.Bounded)
    (hbuffer : PacketHandler.getDrivePacket sent = .ok buffer) : Recovers buffer sent := by
  have hleft := sbyte_of_between h.left (by decide) (by decide)
  have hright := sbyte_of_between h.right (by decide) (by decide)
  have hactuator := sbyte_of_between h.actuator (by decide) (by decide)
  have hscooper := sbyte_of_between h.scooper (by decide) (by decide)
  have hvibrator := sbyte_of_between h.vibrator (by decide) (by decide)
  intro back
  obtain rfl := Except.ok.inj ((getDrivePacket_eq sent).symm.trans hbuffer)
  have hend : (Message.drive (PacketHandler.drivePayload sent)).lacksEndByte = false := rfl
  obtain ⟨last, hread⟩ := Message.read_frame hend back 0 none
  rw [← Message.length_frame] at hread
  refine ⟨_, PacketHandler.drivePayload sent, hread, Nat.succ_ne_zero _, rfl, ?_,
    hleft.toInt_toInt8, hright.toInt_toInt8, hactuator.toInt_toInt8, hscooper.toInt_toInt8,
    hvibrator.toInt_toInt8⟩
  intro old
  exact Message.parseDrivePayload_bytes _ old _

/-- **The ranges of the joystick thread.**  In every run, with overrides between any two
    statements, the divisor stays between one and its maximum, nothing divides by zero,
    and every drive sent is in range and arrives at the robot unchanged. -/
theorem drives_in_range {scooperStart vibratorStart : Int} {history : List Record}
    (hrun : Run (system scooperStart vibratorStart Event.InRange) history js) :
    (1 ≤ js.speed_divisor.toInt ∧ js.speed_divisor.toInt ≤ MAX_SPEED_DIVISOR.toInt) ∧
    (∀ event, js.step event ≠ .error .divideByZero) ∧
    ∀ record ∈ history, ∀ buffer, .send buffer ∈ record.outputs →
      record.before.speeds.Bounded ∧
      PacketHandler.getDrivePacket record.before.speeds = .ok buffer ∧
      Recovers buffer record.before.speeds := by
  have hdivisor := (bounded_of_run hrun).inRange.speed_divisor
  refine ⟨⟨hdivisor.low_le, hdivisor.le_high⟩, step_divides hdivisor.low_le, ?_⟩
  intro record hmem buffer hsend
  obtain ⟨earlier, later, rfl⟩ := List.append_of_mem hmem
  obtain ⟨hbefore, henabled, hstep⟩ := hrun.split
  have hbounded := bounded_of_run hbefore
  have hbuffer := (step_bounded hbounded henabled hstep).2 buffer hsend
  have hspeeds := hbounded.inRange.speeds
  exact ⟨hspeeds, hbuffer, recovers_of_bounded hspeeds hbuffer⟩

/-- The same readings for every statement of two iterations: the left stick and button A,
    300 ms after the start. -/
def pressedA : Inputs where
  windowClosing := false
  ids := [7]
  stick := some 80
  trigger := none
  button := some true
  dpad := none
  now := 3000000
  isConnected := true
  currentDriveMode := .remote

/-- An override to 95 and 100 comes between the vibrator's test and its increment. -/
def overriddenEvents : List Event :=
  List.replicate 33 (.statement pressedA) ++
    .overrideSpeeds 95 100 :: List.replicate 20 (.statement pressedA)

theorem overriddenEvents_inRange : ∀ event ∈ overriddenEvents, event.InRange := by
  intro event hmem
  have hstatement : (Event.statement pressedA).InRange := by
    constructor
    · rintro val ⟨⟩
      exact ⟨by decide, by decide⟩
    · rintro val ⟨⟩
  rcases List.mem_append.mp hmem with hmem | hmem
  · rw [List.eq_of_mem_replicate hmem]
    exact hstatement
  · rcases List.mem_cons.mp hmem with rfl | hmem
    · exact ⟨⟨by decide, by decide⟩, by decide, by decide⟩
    · rw [List.eq_of_mem_replicate hmem]
      exact hstatement

theorem drives_in_range_run : ∃ (history : List Record) (js : JoystickLoop),
    Run (system 0 0 Event.InRange) history js ∧ ∃ record ∈ history, ∃ buffer,
      .send buffer ∈ record.outputs ∧ record.before.speeds = ⟨40, 40, 0, 95, 0⟩ ∧
      Recovers buffer ⟨40, 40, 0, 95, 0⟩ := by
  obtain ⟨history, js, hrun, hview⟩ := exists_started_run 0 0 overriddenEvents
    (fun (history : List Record) _ =>
      (history.getLast?).map fun record => (record.before.speeds, record.outputs))
    (some (⟨40, 40, 0, 95, 0⟩,
      [.send (Message.drive (PacketHandler.drivePayload ⟨40, 40, 0, 95, 0⟩)).frame]))
    overriddenEvents_inRange (by decide +kernel)
  obtain ⟨record, hlast, hrecord⟩ := Option.map_eq_some_iff.mp hview
  obtain ⟨hspeeds, houtputs⟩ := Prod.mk.inj hrecord
  have hmem := List.mem_of_getLast? hlast
  have hsend : .send (Message.drive (PacketHandler.drivePayload ⟨40, 40, 0, 95, 0⟩)).frame ∈
      record.outputs := by
    rw [houtputs]
    exact List.mem_singleton_self _
  obtain ⟨-, -, hdrives⟩ := drives_in_range hrun
  have hrecovers := (hdrives record hmem _ hsend).2.2
  rw [hspeeds] at hrecovers
  exact ⟨history, js, hrun, record, hmem, _, hsend, hspeeds, hrecovers⟩

end JoystickLoop

end Lame
