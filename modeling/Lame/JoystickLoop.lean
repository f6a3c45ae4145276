/-
  Lame/JoystickLoop.lean
  ======================
  **The joystick thread of the base station: `ReadJoystickValues`.**

  The locals of the method and its next statement are the state, and a step runs one
  statement.  The two callbacks that the loop queues on the GUI thread share the
  captured locals: one overrides the scooper and vibrator speeds from the sliders,
  the other shows the values.  A callback is a step of its own, and it may run
  between any two statements, however many iterations after it was queued.  The speed
  of the actuator is a local of one iteration, so every callback that shows the values
  has its own.

  What a statement reads from outside comes with its step: the joystick library,
  the clock, the fields of the window that other threads write.
-/
import Lame.LabelledRuns
import Lame.Robot
import Lame.PacketHandler

namespace Lame

open ByteMemory PacketHandler

/-! ## 1. State -/

def JS_DEADZONE : Int32 := 15
def SCOOPER_INC : Int32 := 10
def SCOOPER_MIN : Int32 := 10
def SCOOPER_MAX : Int32 := 15
def VIB_INC : Int32 := 10
def VIB_MAX : Int32 := 30
def DEFAULT_SPEED_DIVISOR : Int32 := 2
def MAX_SPEED_DIVISOR : Int32 := 5

/-- The directions of the D-pad, as far as the loop tells them apart. -/
inductive POV where
  | POV_NONE
  | POV_NORTH
  | POV_SOUTH
  | other
deriving DecidableEq, Repr

namespace JoystickLoop

inductive LoopStatement where
  | whileNotClosing
  | sleep
  | ifEnumerate
  -- no joystick chosen yet
  | getIDs
  | ifNoIDs
  | clearEnumerate
  | takeFirstID
  | showID
  -- the chosen joystick is gone
  | ifDisconnected
  | setEnumerate
  | showNone
deriving DecidableEq, Repr

inductive ReadStatement where
  | declareA
  | declareX
  | declarePov
  | declareActuator
  | getLeftY
  | getRightY
  | getLeftTrigger
  | getRightTrigger
  | getButtonA
  | getButtonX
  | getDpad
deriving DecidableEq, Repr

inductive DeadzoneStatement where
  | ifLeft
  | clearLeft
  | ifRight
  | clearRight
deriving DecidableEq, Repr

inductive ActuatorStatement where
  | ifBoth
  | stop
  | ifLeft
  | lower
  | ifRight
  | raise
deriving DecidableEq, Repr

inductive ScooperStatement where
  | ifPressed
  | ifZero
  | setMin
  | increment
  | ifAboveMax
  | wrap
  | toggled
deriving DecidableEq, Repr

inductive VibratorStatement where
  | ifPressed
  | increment
  | ifAboveMax
  | wrap
  | toggled
deriving DecidableEq, Repr

inductive ScaleStatement where
  | ifNorth
  | slower
  | ifSouth
  | faster
  | divideRight
  | divideLeft
  | invokeOverride
  | invokeShow
deriving DecidableEq, Repr

inductive SendStatement where
  | ifNotRemote
  | newDrive
  | setLeft
  | setRight
  | setActuator
  | setScooper
  | setVibrator
  | setLastPacket
  | getDrivePacket
  | send
deriving DecidableEq, Repr

inductive Statement where
  | loop (statement : LoopStatement)
  | read (statement : ReadStatement)
  | deadzone (statement : DeadzoneStatement)
  | actuator (statement : ActuatorStatement)
  | scooper (statement : ScooperStatement)
  | vibrator (statement : VibratorStatement)
  | scale (statement : ScaleStatement)
  | sending (statement : SendStatement)
  | ended
deriving DecidableEq, Repr

/-- `while (!windowClosing)`, where every iteration begins and ends. -/
def Statement.loopHead : Statement := .loop .whileNotClosing

/-- What a statement may throw. -/
inductive Exception where
  | divideByZero
  | overflow
  | argumentOutOfRange
  | packet (fault : Fault)
deriving DecidableEq, Repr

/-- What the loop reads from outside, one field for each kind of reading; a getter of
    the joystick library that fails stores nothing. -/
structure Inputs where
  windowClosing : Bool
  ids : List Int32
  stick : Option Int32
  trigger : Option Int32
  button : Option Bool
  dpad : Option POV
  /-- `DateTime.Now`, in ticks of 100 ns. -/
  now : Int
  isConnected : Bool
  currentDriveMode : DriveMode
deriving DecidableEq, Repr

/-- The texts of the last callback. -/
structure Shown where
  leftY : Int32
  rightY : Int32
  bin : Int32
  scooper : Int32
  vibrator : Int32
  speedScale : Int32
deriving DecidableEq, Repr

inductive Output where
  | jsId (jsID : Option Int32)
  | shown (texts : Shown)
  | send (buffer : List UInt8)
deriving DecidableEq, Repr

end JoystickLoop

open JoystickLoop in
structure JoystickLoop where
  next : Statement
  jsID : Int32
  leftY : Int32
  rightY : Int32
  leftTrigger : Int32
  rightTrigger : Int32
  enumerate_js : Bool
  scooper_speed : Int32
  vibrator_speed : Int32
  speed_divisor : Int32
  lastScooperToggle : Int
  lastVibratorToggle : Int
  lastPacket : Drive
  ids : List Int32
  a_pressed : Bool
  x_pressed : Bool
  xbox_pov : POV
  actuator_speed : Int32
  speeds : Drive
  buffer : List UInt8
  /-- The actuator speeds that the second callbacks in the queue have captured; nothing
      writes to them once they are queued. -/
  captured : List Int32
deriving DecidableEq, Repr

namespace JoystickLoop

def NEW_DRIVE : Drive := ⟨0, 0, 0, 0, 0⟩

/-- The locals at the loop; the two times are when the toggles were initialised. -/
def start (scooperStart vibratorStart : Int) : JoystickLoop where
  next := .loopHead
  jsID := -1
  leftY := 0
  rightY := 0
  leftTrigger := 0
  rightTrigger := 0
  enumerate_js := true
  scooper_speed := 0
  vibrator_speed := 0
  speed_divisor := DEFAULT_SPEED_DIVISOR
  lastScooperToggle := scooperStart
  lastVibratorToggle := vibratorStart
  lastPacket := NEW_DRIVE
  ids := []
  a_pressed := false
  x_pressed := false
  xbox_pov := .POV_NONE
  actuator_speed := 0
  speeds := NEW_DRIVE
  buffer := []
  captured := []

/-! ## 2. Arithmetic of the runtime -/

/-- `x / y` on `int`. -/
def divide (x y : Int32) : Except Exception Int32 :=
  if y = 0 then .error .divideByZero
  else if x = Int32.minValue ∧ y = -1 then .error .overflow
  else .ok (x / y)

/-- `Math.Abs`. -/
def abs (x : Int32) : Except Exception Int32 :=
  if x = Int32.minValue then .error .overflow
  else .ok (if x < 0 then -x else x)

/-- `Util.Clamp`. -/
def clamp (val min max : Int32) : Int32 :=
  if val < min then min else if max < val then max else val

def TICKS_PER_MILLISECOND : Int := 10000

/-- `TimeSpan.Milliseconds`: the milliseconds component of a span, below 1000. -/
def milliseconds (span : Int) : Int :=
  (span.tdiv TICKS_PER_MILLISECOND).tmod 1000

/-- A cast of a `double` to `int`. -/
def truncate (value : Rat) : Int32 :=
  Int32.ofInt (value.num.tdiv value.den)

/-! ## 3. The statements -/

def runLoop (js : JoystickLoop) (inputs : Inputs) :
    LoopStatement → Except Exception (JoystickLoop × List Output)
  | .whileNotClosing =>
      if !inputs.windowClosing then return ({ js with next := .loop .sleep }, [])
      else return ({ js with next := .ended }, [])
  | .sleep => return ({ js with next := .loop .ifEnumerate }, [])
  | .ifEnumerate =>
      if js.enumerate_js then return ({ js with next := .loop .getIDs }, [])
      else return ({ js with next := .read .declareA }, [])
  | .getIDs => return ({ js with ids := inputs.ids, next := .loop .ifNoIDs }, [])
  | .ifNoIDs =>
      if js.ids.length < 1 then return ({ js with next := .loopHead }, [])
      else return ({ js with next := .loop .clearEnumerate }, [])
  | .clearEnumerate =>
      return ({ js with enumerate_js := false, next := .loop .takeFirstID }, [])
  | .takeFirstID =>
      match js.ids with
      | [] => throw .argumentOutOfRange
      | jsID :: _ => return ({ js with jsID := jsID, next := .loop .showID }, [])
  | .showID => return ({ js with next := .loopHead }, [.jsId (some js.jsID)])
  | .ifDisconnected =>
      if !inputs.ids.contains js.jsID then
        return ({ js with next := .loop .setEnumerate }, [])
      else return ({ js with next := .read .getLeftY }, [])
  | .setEnumerate => return ({ js with enumerate_js := true, next := .loop .showNone }, [])
  | .showNone => return ({ js with next := .loopHead }, [.jsId none])

def runRead (js : JoystickLoop) (inputs : Inputs) : ReadStatement → JoystickLoop
  | .declareA => { js with a_pressed := false, next := .read .declareX }
  | .declareX => { js with x_pressed := false, next := .read .declarePov }
  | .declarePov => { js with xbox_pov := .POV_NONE, next := .read .declareActuator }
  | .declareActuator => { js with actuator_speed := 0, next := .loop .ifDisconnected }
  | .getLeftY => { js with leftY := inputs.stick.getD js.leftY, next := .read .getRightY }
  | .getRightY =>
      { js with rightY := inputs.stick.getD js.rightY, next := .read .getLeftTrigger }
  | .getLeftTrigger =>
      { js with
        leftTrigger := inputs.trigger.getD js.leftTrigger
        next := .read .getRightTrigger }
  | .getRightTrigger =>
      { js with
        rightTrigger := inputs.trigger.getD js.rightTrigger
        next := .read .getButtonA }
  | .getButtonA =>
      { js with a_pressed := inputs.button.getD js.a_pressed, next := .read .getButtonX }
  | .getButtonX =>
      { js with x_pressed := inputs.button.getD js.x_pressed, next := .read .getDpad }
  | .getDpad => { js with xbox_pov := inputs.dpad.getD js.xbox_pov, next := .deadzone .ifLeft }

def runDeadzone (js : JoystickLoop) : DeadzoneStatement → Except Exception JoystickLoop
  | .ifLeft => do
      let magnitude ← abs js.leftY
      if magnitude < JS_DEADZONE then return { js with next := .deadzone .clearLeft }
      else return { js with next := .deadzone .ifRight }
  | .clearLeft => return { js with leftY := 0, next := .deadzone .ifRight }
  | .ifRight => do
      let magnitude ← abs js.rightY
      if magnitude < JS_DEADZONE then return { js with next := .deadzone .clearRight }
      else return { js with next := .actuator .ifBoth }
  | .clearRight => return { js with rightY := 0, next := .actuator .ifBoth }

def runActuator (js : JoystickLoop) : ActuatorStatement → JoystickLoop
  | .ifBoth =>
      if js.leftTrigger ≠ 0 ∧ js.rightTrigger ≠ 0 then { js with next := .actuator .stop }
      else { js with next := .actuator .ifLeft }
  | .stop => { js with actuator_speed := 0, next := .scooper .ifPressed }
  | .ifLeft =>
      if js.leftTrigger ≠ 0 then { js with next := .actuator .lower }
      else { js with next := .actuator .ifRight }
  | .lower => { js with actuator_speed := -js.leftTrigger, next := .scooper .ifPressed }
  | .ifRight =>
      if js.rightTrigger ≠ 0 then { js with next := .actuator .raise }
      else { js with next := .scooper .ifPressed }
  | .raise => { js with actuator_speed := js.rightTrigger, next := .scooper .ifPressed }

def runScooper (js : JoystickLoop) (inputs : Inputs) : ScooperStatement → JoystickLoop
  | .ifPressed =>
      if js.a_pressed ∧ milliseconds (inputs.now - js.lastScooperToggle) > 200 then
        { js with next := .scooper .ifZero }
      else { js with next := .vibrator .ifPressed }
  | .ifZero =>
      if js.scooper_speed = 0 then { js with next := .scooper .setMin }
      else { js with next := .scooper .increment }
  | .setMin => { js with scooper_speed := SCOOPER_MIN, next := .scooper .toggled }
  | .increment =>
      { js with scooper_speed := js.scooper_speed + SCOOPER_INC, next := .scooper .ifAboveMax }
  | .ifAboveMax =>
      if SCOOPER_MAX < js.scooper_speed then { js with next := .scooper .wrap }
      else { js with next := .scooper .toggled }
  | .wrap => { js with scooper_speed := 0, next := .scooper .toggled }
  | .toggled => { js with lastScooperToggle := inputs.now, next := .vibrator .ifPressed }

def runVibrator (js : JoystickLoop) (inputs : Inputs) : VibratorStatement → JoystickLoop
  | .ifPressed =>
      if js.x_pressed ∧ milliseconds (inputs.now - js.lastVibratorToggle) > 200 then
        { js with next := .vibrator .increment }
      else { js with next := .scale .ifNorth }
  | .increment =>
      { js with vibrator_speed := js.vibrator_speed + VIB_INC, next := .vibrator .ifAboveMax }
  | .ifAboveMax =>
      if VIB_MAX < js.vibrator_speed then { js with next := .vibrator .wrap }
      else { js with next := .vibrator .toggled }
  | .wrap => { js with vibrator_speed := 0, next := .vibrator .toggled }
  | .toggled => { js with lastVibratorToggle := inputs.now, next := .scale .ifNorth }

def runScale (js : JoystickLoop) : ScaleStatement → Except Exception JoystickLoop
  | .ifNorth =>
      if js.xbox_pov = .POV_NORTH then return { js with next := .scale .slower }
      else return { js with next := .scale .ifSouth }
  | .slower =>
      return { js with
        speed_divisor := clamp (js.speed_divisor + 1) 1 MAX_SPEED_DIVISOR
        next := .scale .divideRight }
  | .ifSouth =>
      if js.xbox_pov = .POV_SOUTH then return { js with next := .scale .faster }
      else return { js with next := .scale .divideRight }
  | .faster =>
      return { js with
        speed_divisor := clamp (js.speed_divisor - 1) 1 MAX_SPEED_DIVISOR
        next := .scale .divideRight }
  | .divideRight => do
      let rightY ← divide js.rightY js.speed_divisor
      return { js with rightY := rightY, next := .scale .divideLeft }
  | .divideLeft => do
      let leftY ← divide js.leftY js.speed_divisor
      return { js with leftY := leftY, next := .scale .invokeOverride }
  | .invokeOverride => return { js with next := .scale .invokeShow }
  | .invokeShow =>
      return { js with
        captured := js.captured ++ [js.actuator_speed]
        next := .sending .ifNotRemote }

def runSend (js : JoystickLoop) (inputs : Inputs) :
    SendStatement → Except Exception (JoystickLoop × List Output)
  | .ifNotRemote =>
      if !inputs.isConnected ∨ inputs.currentDriveMode ≠ .remote then
        return ({ js with next := .loopHead }, [])
      else return ({ js with next := .sending .newDrive }, [])
  | .newDrive => return ({ js with speeds := NEW_DRIVE, next := .sending .setLeft }, [])
  | .setLeft =>
      return ({ js with
        speeds := { js.speeds with left := js.leftY }
        next := .sending .setRight }, [])
  | .setRight =>
      return ({ js with
        speeds := { js.speeds with right := js.rightY }
        next := .sending .setActuator }, [])
  | .setActuator =>
      return ({ js with
        speeds := { js.speeds with actuator := js.actuator_speed }
        next := .sending .setScooper }, [])
  | .setScooper =>
      return ({ js with
        speeds := { js.speeds with scooper := js.scooper_speed }
        next := .sending .setVibrator }, [])
  | .setVibrator =>
      return ({ js with
        speeds := { js.speeds with vibrator := js.vibrator_speed }
        next := .sending .setLastPacket }, [])
  | .setLastPacket =>
      return ({ js with lastPacket := js.speeds, next := .sending .getDrivePacket }, [])
  | .getDrivePacket => do
      let buffer ← (PacketHandler.getDrivePacket js.speeds).mapError .packet
      return ({ js with buffer := buffer, next := .sending .send }, [])
  | .send => return ({ js with next := .loopHead }, [.send js.buffer])

/-- The next statement of the thread. -/
def runStatement (js : JoystickLoop) (inputs : Inputs) :
    Except Exception (JoystickLoop × List Output) :=
  match js.next with
  | .loop statement => js.runLoop inputs statement
  | .read statement => return (js.runRead inputs statement, [])
  | .deadzone statement => do return (← js.runDeadzone statement, [])
  | .actuator statement => return (js.runActuator statement, [])
  | .scooper statement => return (js.runScooper inputs statement, [])
  | .vibrator statement => return (js.runVibrator inputs statement, [])
  | .scale statement => do return (← js.runScale statement, [])
  | .sending statement => js.runSend inputs statement
  | .ended => return (js, [])

/-! ## 4. The callbacks and the system -/

/-- The first callback; a slider below zero overrides nothing. -/
def overrideSpeeds (js : JoystickLoop) (dispSlider vibSlider : Rat) : JoystickLoop :=
  let disp_override := truncate dispSlider
  let vib_override := truncate vibSlider
  let js := if 0 ≤ disp_override then { js with scooper_speed := disp_override } else js
  if 0 ≤ vib_override then { js with vibrator_speed := vib_override } else js

/-- The oldest of the second callbacks in the queue, if there is one. -/
def showValues (js : JoystickLoop) : Except Exception (JoystickLoop × List Output) :=
  match js.captured with
  | [] => return (js, [])
  | actuator_speed :: captured => do
      let speedScale ← divide 100 js.speed_divisor
      return ({ js with captured := captured }, [.shown ⟨js.leftY, js.rightY, actuator_speed,
        js.scooper_speed, js.vibrator_speed, speedScale⟩])

inductive Event where
  | statement (inputs : Inputs)
  | overrideSpeeds (dispSlider vibSlider : Rat)
  | showValues
deriving DecidableEq, Repr

def step (js : JoystickLoop) : Event → Except Exception (JoystickLoop × List Output)
  | .statement inputs => js.runStatement inputs
  | .overrideSpeeds dispSlider vibSlider => return (js.overrideSpeeds dispSlider vibSlider, [])
  | .showValues => js.showValues

abbrev Record := LabelledRuns.Entry JoystickLoop Event Output

/-- The thread with the callbacks, any of the allowed events at any time; the two times
    are when the toggles were initialised. -/
def system (scooperStart vibratorStart : Int) (allowed : Event → Prop) :
    LabelledRuns.System JoystickLoop Event Output :=
  LabelledRuns.System.ofStep (· = start scooperStart vibratorStart) allowed step

/-- A concrete run, known by what `view` shows of it. -/
theorem exists_started_run {View : Type} {allowed : Event → Prop}
    (scooperStart vibratorStart : Int) (events : List Event)
    (view : List Record → JoystickLoop → View) (value : View)
    (hallowed : ∀ event ∈ events, allowed event)
    (hreplay : (LabelledRuns.replay step (start scooperStart vibratorStart)
      events).toOption.map (fun result => view result.1 result.2) = some value) :
    ∃ history js, LabelledRuns.Run (system scooperStart vibratorStart allowed) history js ∧
      view history js = value :=
  LabelledRuns.exists_run_of_replay step events view value rfl hallowed hreplay

/-! ## 5. Frames -/

/-- Outside the bodies of the two presets. -/
def Statement.settled : Statement → Bool
  | .scooper .ifPressed | .vibrator .ifPressed => true
  | .scooper _ | .vibrator _ => false
  | _ => true

/-- Settled, and no packet waits to be sent. -/
def Statement.calm (statement : Statement) : Bool :=
  statement.settled && statement != .sending .send

/-- A step that leaves the presets alone. -/
structure Keeps (js after : JoystickLoop) : Prop where
  scooper_speed : after.scooper_speed = js.scooper_speed
  vibrator_speed : after.vibrator_speed = js.vibrator_speed
  lastScooperToggle : after.lastScooperToggle = js.lastScooperToggle
  lastVibratorToggle : after.lastVibratorToggle = js.lastVibratorToggle
  settled : after.next.settled = true

/-- A step that passes by the presets and prepares no packet. -/
structure Passes (js after : JoystickLoop) : Prop extends js.Keeps after where
  ne_send : after.next ≠ .sending .send

theorem settled_of_calm {statement : Statement} (h : statement.calm = true) :
    statement.settled = true :=
  (Bool.and_eq_true_iff.mp h).1

theorem ne_send_of_calm {statement : Statement} (h : statement.calm = true) :
    statement ≠ .sending .send := by
  rintro rfl
  cases h

variable {js after : JoystickLoop} {inputs : Inputs} {outputs : List Output}

/-- The head of the loop touches the choice of the joystick only, and sends nothing. -/
theorem runLoop_frame {statement : LoopStatement}
    (h : js.runLoop inputs statement = .ok (after, outputs)) :
    ∃ next jsID enumerate_js ids,
      after = { js with
        next := next, jsID := jsID, enumerate_js := enumerate_js, ids := ids } ∧
      next.calm = true ∧ ∀ buffer, .send buffer ∉ outputs := by
  cases statement with
  | whileNotClosing | ifEnumerate | ifNoIDs | ifDisconnected =>
      rw [runLoop] at h
      split at h
      · cases h
        exact ⟨_, _, _, _, rfl, rfl, by simp⟩
      · cases h
        exact ⟨_, _, _, _, rfl, rfl, by simp⟩
  | takeFirstID =>
      rw [runLoop] at h
      split at h
      · cases h
      · cases h
        exact ⟨_, _, _, _, rfl, rfl, by simp⟩
  | sleep | getIDs | clearEnumerate | showID | setEnumerate | showNone =>
      cases h
      exact ⟨_, _, _, _, rfl, rfl, by simp⟩

theorem runLoop_passes {statement : LoopStatement}
    (h : js.runLoop inputs statement = .ok (after, outputs)) : js.Passes after := by
  obtain ⟨next, jsID, enumerate_js, ids, rfl, hcalm, -⟩ := runLoop_frame h
  exact ⟨⟨rfl, rfl, rfl, rfl, settled_of_calm hcalm⟩, ne_send_of_calm hcalm⟩

theorem runLoop_silent {statement : LoopStatement}
    (h : js.runLoop inputs statement = .ok (after, outputs)) (buffer : List UInt8) :
    .send buffer ∉ outputs := by
  obtain ⟨next, jsID, enumerate_js, ids, -, -, hsilent⟩ := runLoop_frame h
  exact hsilent buffer

theorem runRead_passes (statement : ReadStatement) :
    js.Passes (js.runRead inputs statement) := by
  cases statement <;> exact ⟨⟨rfl, rfl, rfl, rfl, rfl⟩, nofun⟩

theorem runDeadzone_frame {statement : DeadzoneStatement}
    (h : js.runDeadzone statement = .ok after) :
    ∃ next leftY rightY, after = { js with next := next, leftY := leftY, rightY := rightY } ∧
      next.calm = true ∧ (leftY = js.leftY ∨ leftY = 0) ∧ (rightY = js.rightY ∨ rightY = 0) := by
  cases statement with
  | ifLeft | ifRight =>
      obtain ⟨magnitude, -, h⟩ := bind_eq_ok.mp h
      split at h
      · cases h
        exact ⟨_, _, _, rfl, rfl, .inl rfl, .inl rfl⟩
      · cases h
        exact ⟨_, _, _, rfl, rfl, .inl rfl, .inl rfl⟩
  | clearLeft =>
      cases h
      exact ⟨_, _, _, rfl, rfl, .inr rfl, .inl rfl⟩
  | clearRight =>
      cases h
      exact ⟨_, _, _, rfl, rfl, .inl rfl, .inr rfl⟩

theorem runDeadzone_passes {statement : DeadzoneStatement}
    (h : js.runDeadzone statement = .ok after) : js.Passes after := by
  obtain ⟨next, leftY, rightY, rfl, hcalm, -, -⟩ := runDeadzone_frame h
  exact ⟨⟨rfl, rfl, rfl, rfl, settled_of_calm hcalm⟩, ne_send_of_calm hcalm⟩

theorem runActuator_passes (statement : ActuatorStatement) :
    js.Passes (js.runActuator statement) := by
  cases statement with
  | ifBoth | ifLeft | ifRight =>
      rw [runActuator]
      split
      · exact ⟨⟨rfl, rfl, rfl, rfl, rfl⟩, nofun⟩
      · exact ⟨⟨rfl, rfl, rfl, rfl, rfl⟩, nofun⟩
  | stop | lower | raise => exact ⟨⟨rfl, rfl, rfl, rfl, rfl⟩, nofun⟩

theorem runScooper_ne_send (statement : ScooperStatement) :
    (js.runScooper inputs statement).next ≠ .sending .send := by
  cases statement with
  | ifPressed | ifZero | ifAboveMax =>
      rw [runScooper]
      split
      · nofun
      · nofun
  | setMin | increment | wrap | toggled => nofun

theorem runVibrator_ne_send (statement : VibratorStatement) :
    (js.runVibrator inputs statement).next ≠ .sending .send := by
  cases statement with
  | ifPressed | ifAboveMax =>
      rw [runVibrator]
      split
      · nofun
      · nofun
  | increment | wrap | toggled => nofun

/-- What the scaling block writes: the divisor, then the two quotients by it.  It also
    queues the callbacks. -/
inductive Scaled (js : JoystickLoop) : JoystickLoop → Prop where
  | moved {next : Statement} {captured : List Int32} (hcalm : next.calm = true) :
      Scaled js { js with captured := captured, next := next }
  | divisor {next : Statement} {changed : Int32} (hcalm : next.calm = true)
      (hchanged : changed = js.speed_divisor + 1 ∨ changed = js.speed_divisor - 1) :
      Scaled js { js with speed_divisor := clamp changed 1 MAX_SPEED_DIVISOR, next := next }
  | right {next : Statement} {rightY : Int32} (hcalm : next.calm = true)
      (hquotient : divide js.rightY js.speed_divisor = .ok rightY) :
      Scaled js { js with rightY := rightY, next := next }
  | left {next : Statement} {leftY : Int32} (hcalm : next.calm = true)
      (hquotient : divide js.leftY js.speed_divisor = .ok leftY) :
      Scaled js { js with leftY := leftY, next := next }

theorem runScale_scaled {statement : ScaleStatement} (h : js.runScale statement = .ok after) :
    js.Scaled after := by
  cases statement with
  | ifNorth | ifSouth =>
      rw [runScale] at h
      split at h
      · cases h
        exact .moved rfl
      · cases h
        exact .moved rfl
  | slower =>
      cases h
      exact .divisor rfl (.inl rfl)
  | faster =>
      cases h
      exact .divisor rfl (.inr rfl)
  | divideRight =>
      obtain ⟨rightY, hquotient, h⟩ := bind_eq_ok.mp h
      cases h
      exact .right rfl hquotient
  | divideLeft =>
      obtain ⟨leftY, hquotient, h⟩ := bind_eq_ok.mp h
      cases h
      exact .left rfl hquotient
  | invokeOverride | invokeShow =>
      cases h
      exact .moved rfl

theorem runScale_passes {statement : ScaleStatement} (h : js.runScale statement = .ok after) :
    js.Passes after := by
  cases runScale_scaled h with
  | moved hcalm | divisor hcalm | right hcalm | left hcalm =>
      exact ⟨⟨rfl, rfl, rfl, rfl, settled_of_calm hcalm⟩, ne_send_of_calm hcalm⟩

theorem mapError_eq_ok {first : Exec (List UInt8)} {buffer : List UInt8} :
    first.mapError Exception.packet = .ok buffer ↔ first = .ok buffer := by
  cases first with
  | error fault => simp [Except.mapError]
  | ok bytes => simp [Except.mapError]

/-- What the sending block writes: one more field of the drive, or the packet of the
    finished drive. -/
inductive Prepared (js : JoystickLoop) : JoystickLoop → Prop where
  | filled {next : Statement} {speeds lastPacket : Drive} (hcalm : next.calm = true)
      (hspeeds : speeds = js.speeds ∨ speeds = NEW_DRIVE ∨
        speeds = { js.speeds with left := js.leftY } ∨
        speeds = { js.speeds with right := js.rightY } ∨
        speeds = { js.speeds with actuator := js.actuator_speed } ∨
        speeds = { js.speeds with scooper := js.scooper_speed } ∨
        speeds = { js.speeds with vibrator := js.vibrator_speed }) :
      Prepared js { js with speeds := speeds, lastPacket := lastPacket, next := next }
  | packet {buffer : List UInt8}
      (hbuffer : PacketHandler.getDrivePacket js.speeds = .ok buffer) :
      Prepared js { js with buffer := buffer, next := .sending .send }

/-- The bytes of a step of the sending block are the packet that was built for them. -/
theorem runSend_prepared {statement : SendStatement}
    (h : js.runSend inputs statement = .ok (after, outputs)) :
    js.Prepared after ∧
      ∀ buffer, .send buffer ∈ outputs → statement = .send ∧ buffer = js.buffer := by
  cases statement with
  | ifNotRemote =>
      rw [runSend] at h
      split at h
      · cases h
        exact ⟨.filled rfl (.inl rfl), by simp⟩
      · cases h
        exact ⟨.filled rfl (.inl rfl), by simp⟩
  | newDrive =>
      cases h
      exact ⟨.filled rfl (.inr (.inl rfl)), by simp⟩
  | setLeft =>
      cases h
      exact ⟨.filled rfl (.inr (.inr (.inl rfl))), by simp⟩
  | setRight =>
      cases h
      exact ⟨.filled rfl (.inr (.inr (.inr (.inl rfl)))), by simp⟩
  | setActuator =>
      cases h
      exact ⟨.filled rfl (.inr (.inr (.inr (.inr (.inl rfl))))), by simp⟩
  | setScooper =>
      cases h
      exact ⟨.filled rfl (.inr (.inr (.inr (.inr (.inr (.inl rfl)))))), by simp⟩
  | setVibrator =>
      cases h
      exact ⟨.filled rfl (.inr (.inr (.inr (.inr (.inr (.inr rfl)))))), by simp⟩
  | setLastPacket =>
      cases h
      exact ⟨.filled rfl (.inl rfl), by simp⟩
  | getDrivePacket =>
      obtain ⟨buffer, hbuffer, h⟩ := bind_eq_ok.mp h
      cases h
      exact ⟨.packet (mapError_eq_ok.mp hbuffer), by simp⟩
  | send =>
      cases h
      exact ⟨.filled rfl (.inl rfl), by simp⟩

/-- Showing the values takes a callback from the queue, and sends nothing. -/
theorem showValues_frame (h : js.showValues = .ok (after, outputs)) :
    ∃ captured, after = { js with captured := captured } ∧
      ∀ buffer, .send buffer ∉ outputs := by
  rw [showValues] at h
  split at h
  · cases h
    exact ⟨_, rfl, by simp⟩
  · obtain ⟨speedScale, -, h⟩ := bind_eq_ok.mp h
    cases h
    exact ⟨_, rfl, by simp⟩

theorem Prepared.keeps (h : js.Prepared after) : js.Keeps after := by
  cases h with
  | filled hcalm => exact ⟨rfl, rfl, rfl, rfl, settled_of_calm hcalm⟩
  | packet => exact ⟨rfl, rfl, rfl, rfl, rfl⟩

end JoystickLoop

end Lame
