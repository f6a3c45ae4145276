/-
  Lame/JoystickPresets.lean
  =========================
  **The debounced presets of the joystick thread.**

  Button A steps the scooper and button X the vibrator through a cycle of presets.
  An effective press of a button is a look at it, pressed, more than 200 ms after the
  previous effective press.  The loop compares the milliseconds component of the
  elapsed time, which starts again at every full second, so it loses some of the
  presses that come late.  `presets_of_run` is the law of the presets for the runs in
  which no press is lost that way; `presets_not_always` is a run in which one is.
-/
import Lame.JoystickLoop

namespace Lame.JoystickLoop

open ByteMemory LabelledRuns

/-! ## 1. Effective presses -/

inductive Button where
  | A
  | X
deriving DecidableEq, Repr

/-- The statement that looks at the button and at the clock. -/
def Button.tested : Button → Statement
  | .A => .scooper .ifPressed
  | .X => .vibrator .ifPressed

/-- The statement that records the time of the press. -/
def Button.toggled : Button → Statement
  | .A => .scooper .toggled
  | .X => .vibrator .toggled

def Button.pressed : Button → JoystickLoop → Bool
  | .A, js => js.a_pressed
  | .X, js => js.x_pressed

/-- What happens to a button at one step, with the time that the clock shows. -/
inductive Moment where
  | tested (down : Bool) (now : Int)
  | toggled (now : Int)
deriving DecidableEq, Repr

def moment (button : Button) (record : Record) : Option Moment :=
  match record.event with
  | .statement inputs =>
      if record.before.next = button.tested then
        some (.tested (button.pressed record.before) inputs.now)
      else if record.before.next = button.toggled then some (.toggled inputs.now)
      else none
  | _ => none

def DEBOUNCE : Int := 200 * TICKS_PER_MILLISECOND

/-- The effective presses of a button so far, and the time of the last one. -/
structure Presses where
  count : Nat
  last : Int
deriving DecidableEq, Repr

/-- More than 200 ms have passed since the last effective press. -/
def Presses.due (presses : Presses) (now : Int) : Prop :=
  now - presses.last > DEBOUNCE

instance (presses : Presses) (now : Int) : Decidable (presses.due now) :=
  inferInstanceAs (Decidable (_ > _))

/-- The time of a press is the one that the loop records for it, if it records one. -/
def Presses.observe (presses : Presses) : Moment → Presses
  | .tested down now =>
      if down ∧ presses.due now then ⟨presses.count + 1, now⟩ else presses
  | .toggled now => { presses with last := now }

def moments (button : Button) (history : List Record) : List Moment :=
  history.filterMap (moment button)

/-- The effective presses of a run that starts at the given time. -/
def pressesOf (button : Button) (startTime : Int) (history : List Record) : Presses :=
  (moments button history).foldl Presses.observe ⟨0, startTime⟩

/-- When the button is pressed and an effective press is due, the milliseconds
    component of the elapsed time says so. -/
def Presses.Legible (presses : Presses) : Moment → Prop
  | .tested down now => down → presses.due now → milliseconds (now - presses.last) > 200
  | .toggled _ => True

/-- Every moment of the list is legible after those before it. -/
def Presses.AllLegible : Presses → List Moment → Prop
  | _, [] => True
  | presses, moment :: moments =>
      presses.Legible moment ∧ (presses.observe moment).AllLegible moments

/-- A callback that reads the sliders finds both of them below zero. -/
def NoOverride : Event → Prop
  | .overrideSpeeds dispSlider vibSlider => truncate dispSlider < 0 ∧ truncate vibSlider < 0
  | .statement _ | .showValues => True

/-! ## 2. Histories that grow -/

theorem Presses.allLegible_snoc {presses : Presses} {moments : List Moment} {last : Moment} :
    presses.AllLegible (moments ++ [last]) ↔
      presses.AllLegible moments ∧ (moments.foldl observe presses).Legible last := by
  induction moments generalizing presses with
  | nil => simp [AllLegible]
  | cons first moments ih =>
      rw [List.cons_append, AllLegible, AllLegible, ih, List.foldl_cons, and_assoc]

/-- The presses after a step that may have looked at the button. -/
def Presses.after (presses : Presses) : Option Moment → Presses
  | none => presses
  | some seen => presses.observe seen

variable {button : Button} {startTime : Int} {history : List Record} {record : Record}

theorem pressesOf_snoc :
    pressesOf button startTime (history ++ [record]) =
      (pressesOf button startTime history).after (moment button record) := by
  unfold pressesOf moments
  rw [List.filterMap_append, List.foldl_append]
  cases hseen : moment button record with
  | none => simp [hseen, Presses.after]
  | some seen => simp [hseen, Presses.after]

theorem allLegible_moments_snoc :
    Presses.AllLegible ⟨0, startTime⟩ (moments button (history ++ [record])) ↔
      Presses.AllLegible ⟨0, startTime⟩ (moments button history) ∧
        ∀ seen, moment button record = some seen →
          (pressesOf button startTime history).Legible seen := by
  unfold pressesOf moments
  rw [List.filterMap_append]
  cases hseen : moment button record with
  | none => simp [hseen]
  | some seen => simp [hseen, Presses.allLegible_snoc]

theorem milliseconds_of_nonneg {span : Int} (h : 0 ≤ span) :
    milliseconds span = span / TICKS_PER_MILLISECOND % 1000 := by
  have hquotient : 0 ≤ span / TICKS_PER_MILLISECOND := Int.ediv_nonneg h (by decide)
  rw [milliseconds, Int.tdiv_eq_ediv_of_nonneg h, Int.tmod_eq_emod_of_nonneg hquotient]

theorem milliseconds_of_neg {span : Int} (h : span < 0) : milliseconds span ≤ 0 := by
  have hflip : milliseconds (-span) = -milliseconds span := by
    rw [milliseconds, Int.neg_tdiv, Int.neg_tmod, milliseconds]
  have hnonneg : 0 ≤ milliseconds (-span) := by
    rw [milliseconds_of_nonneg (by omega)]
    exact Int.emod_nonneg _ (by decide)
  omega

/-- The milliseconds component never exceeds the elapsed milliseconds. -/
theorem due_of_milliseconds {presses : Presses} {now : Int}
    (h : milliseconds (now - presses.last) > 200) : presses.due now := by
  by_cases hneg : now - presses.last < 0
  · have hnonpos := milliseconds_of_neg hneg
    omega
  · rw [milliseconds_of_nonneg (Int.not_lt.mp hneg), TICKS_PER_MILLISECOND] at h
    unfold Presses.due DEBOUNCE TICKS_PER_MILLISECOND
    omega

/-- A legible look takes the press exactly when it is effective, and counts it then. -/
theorem observe_tested {presses : Presses} {down : Bool} {now : Int}
    (h : presses.Legible (.tested down now)) :
    presses.observe (.tested down now) =
      if down = true ∧ milliseconds (now - presses.last) > 200 then ⟨presses.count + 1, now⟩
      else presses := by
  rw [Presses.observe]
  by_cases hdue : down = true ∧ presses.due now
  · rw [if_pos hdue, if_pos ⟨hdue.1, h hdue.1 hdue.2⟩]
  · have hnot : ¬ (down = true ∧ milliseconds (now - presses.last) > 200) := by
      rintro ⟨hdown, hlate⟩
      exact hdue ⟨hdown, due_of_milliseconds hlate⟩
    rw [if_neg hdue, if_neg hnot]

/-! ## 3. The cycles -/

/-- The preset after so many effective presses. -/
def scooperPreset (count : Nat) : Int32 := Int32.ofNat (10 * (count % 2))

def vibratorPreset (count : Nat) : Int32 := Int32.ofNat (10 * (count % 4))

/-- The scooper in front of every statement.  Inside the preset the press is counted
    already and the speed is on its way. -/
def ScooperFollows (js : JoystickLoop) (presses : Presses) : Prop :=
  match js.next with
  | .scooper .ifZero =>
      ∃ before, presses.count = before + 1 ∧ js.scooper_speed = scooperPreset before
  | .scooper .setMin => presses.count % 2 = 1
  | .scooper .increment => presses.count % 2 = 0 ∧ js.scooper_speed = 10
  | .scooper .ifAboveMax => presses.count % 2 = 0 ∧ js.scooper_speed = 20
  | .scooper .wrap => presses.count % 2 = 0
  | .scooper .toggled => js.scooper_speed = scooperPreset presses.count
  | _ => js.scooper_speed = scooperPreset presses.count ∧ js.lastScooperToggle = presses.last

def VibratorFollows (js : JoystickLoop) (presses : Presses) : Prop :=
  match js.next with
  | .vibrator .increment =>
      ∃ before, presses.count = before + 1 ∧ js.vibrator_speed = vibratorPreset before
  | .vibrator .ifAboveMax =>
      ∃ before, presses.count = before + 1 ∧ js.vibrator_speed = vibratorPreset before + VIB_INC
  | .vibrator .wrap => presses.count % 4 = 0
  | .vibrator .toggled => js.vibrator_speed = vibratorPreset presses.count
  | _ => js.vibrator_speed = vibratorPreset presses.count ∧
      js.lastVibratorToggle = presses.last

variable {js after : JoystickLoop} {inputs : Inputs} {presses : Presses}

theorem scooperFollows_iff (hsettled : ∀ statement, js.next = .scooper statement →
    statement = .ifPressed) :
    js.ScooperFollows presses ↔
      js.scooper_speed = scooperPreset presses.count ∧ js.lastScooperToggle = presses.last := by
  unfold ScooperFollows
  split
  · next hnext => exact absurd (hsettled _ hnext) (by decide)
  · next hnext => exact absurd (hsettled _ hnext) (by decide)
  · next hnext => exact absurd (hsettled _ hnext) (by decide)
  · next hnext => exact absurd (hsettled _ hnext) (by decide)
  · next hnext => exact absurd (hsettled _ hnext) (by decide)
  · next hnext => exact absurd (hsettled _ hnext) (by decide)
  · exact Iff.rfl

theorem vibratorFollows_iff (hsettled : ∀ statement, js.next = .vibrator statement →
    statement = .ifPressed) :
    js.VibratorFollows presses ↔
      js.vibrator_speed = vibratorPreset presses.count ∧
        js.lastVibratorToggle = presses.last := by
  unfold VibratorFollows
  split
  · next hnext => exact absurd (hsettled _ hnext) (by decide)
  · next hnext => exact absurd (hsettled _ hnext) (by decide)
  · next hnext => exact absurd (hsettled _ hnext) (by decide)
  · next hnext => exact absurd (hsettled _ hnext) (by decide)
  · exact Iff.rfl

theorem scooperPreset_odd {count : Nat} (h : count % 2 = 1) : scooperPreset count = 10 := by
  rw [scooperPreset, h]
  rfl

theorem scooperPreset_even {count : Nat} (h : count % 2 = 0) : scooperPreset count = 0 := by
  rw [scooperPreset, h]
  rfl

def ScooperStatement.moment (pressed : Bool) (now : Int) : ScooperStatement → Option Moment
  | .ifPressed => some (.tested pressed now)
  | .toggled => some (.toggled now)
  | _ => none

def VibratorStatement.moment (pressed : Bool) (now : Int) : VibratorStatement → Option Moment
  | .ifPressed => some (.tested pressed now)
  | .toggled => some (.toggled now)
  | _ => none

/-- **One statement of the scooper's preset** follows the presses. -/
theorem runScooper_follows {statement : ScooperStatement} (hnext : js.next = .scooper statement)
    (h : js.ScooperFollows presses)
    (hlegible : ∀ seen, statement.moment js.a_pressed inputs.now = some seen →
      presses.Legible seen) :
    (js.runScooper inputs statement).ScooperFollows
      (presses.after (statement.moment js.a_pressed inputs.now)) := by
  unfold ScooperFollows at h
  rw [hnext] at h
  cases statement with
  | ifPressed =>
      obtain ⟨hspeed, hlast⟩ := h
      rw [runScooper, ScooperStatement.moment, Presses.after, observe_tested (hlegible _ rfl),
        ← hlast]
      split
      · exact ⟨presses.count, rfl, hspeed⟩
      · exact ⟨hspeed, hlast⟩
  | ifZero =>
      obtain ⟨before, hcount, hspeed⟩ := h
      rw [runScooper]
      rcases Nat.mod_two_eq_zero_or_one before with heven | hodd
      · rw [scooperPreset_even heven] at hspeed
        rw [if_pos hspeed]
        show presses.count % 2 = 1
        omega
      · rw [scooperPreset_odd hodd] at hspeed
        rw [if_neg (by rw [hspeed]; decide)]
        have heven : presses.count % 2 = 0 := by omega
        exact ⟨heven, hspeed⟩
  | setMin => exact (scooperPreset_odd h).symm
  | increment =>
      obtain ⟨heven, hspeed⟩ := h
      constructor
      · exact heven
      · show js.scooper_speed + SCOOPER_INC = 20
        rw [hspeed]
        rfl
  | ifAboveMax =>
      obtain ⟨heven, hspeed⟩ := h
      rw [runScooper, if_pos (by rw [hspeed]; decide)]
      exact heven
  | wrap => exact (scooperPreset_even h).symm
  | toggled => exact ⟨h, rfl⟩

/-- The step of the vibrator's cycle, and its wrap behind the fourth preset. -/
theorem vibratorPreset_succ (before : Nat) :
    (VIB_MAX < vibratorPreset before + VIB_INC ∧ (before + 1) % 4 = 0) ∨
      (¬ VIB_MAX < vibratorPreset before + VIB_INC ∧
        vibratorPreset before + VIB_INC = vibratorPreset (before + 1)) := by
  have hsucc : (before + 1) % 4 = (before % 4 + 1) % 4 := (Nat.mod_add_mod before 4 1).symm
  have hbound : before % 4 < 4 := Nat.mod_lt _ (by decide)
  unfold vibratorPreset
  rw [hsucc]
  generalize before % 4 = phase at hbound
  revert phase
  decide

theorem runVibrator_follows {statement : VibratorStatement}
    (hnext : js.next = .vibrator statement) (h : js.VibratorFollows presses)
    (hlegible : ∀ seen, statement.moment js.x_pressed inputs.now = some seen →
      presses.Legible seen) :
    (js.runVibrator inputs statement).VibratorFollows
      (presses.after (statement.moment js.x_pressed inputs.now)) := by
  unfold VibratorFollows at h
  rw [hnext] at h
  cases statement with
  | ifPressed =>
      obtain ⟨hspeed, hlast⟩ := h
      rw [runVibrator, VibratorStatement.moment, Presses.after, observe_tested (hlegible _ rfl),
        ← hlast]
      split
      · exact ⟨presses.count, rfl, hspeed⟩
      · exact ⟨hspeed, hlast⟩
  | increment =>
      obtain ⟨before, hcount, hspeed⟩ := h
      refine ⟨before, hcount, ?_⟩
      show js.vibrator_speed + VIB_INC = _
      rw [hspeed]
  | ifAboveMax =>
      obtain ⟨before, hcount, hspeed⟩ := h
      rw [runVibrator, hspeed]
      rcases vibratorPreset_succ before with ⟨habove, hwrap⟩ | ⟨hbelow, hpreset⟩
      · rw [if_pos habove]
        show presses.count % 4 = 0
        rw [hcount, hwrap]
      · rw [if_neg hbelow]
        show vibratorPreset before + VIB_INC = vibratorPreset presses.count
        rw [hcount, hpreset]
  | wrap =>
      have hphase : presses.count % 4 = 0 := h
      show 0 = vibratorPreset presses.count
      rw [vibratorPreset, hphase]
      rfl
  | toggled => exact ⟨h, rfl⟩

/-! ## 4. One step and whole runs -/

theorem settled_spec {statement : Statement} (h : statement.settled = true) :
    (∀ block, statement = .scooper block → block = .ifPressed) ∧
      ∀ block, statement = .vibrator block → block = .ifPressed := by
  constructor
  · rintro block rfl
    cases block with
    | ifPressed => rfl
    | ifZero | setMin | increment | ifAboveMax | wrap | toggled => cases h
  · rintro block rfl
    cases block with
    | ifPressed => rfl
    | increment | ifAboveMax | wrap | toggled => cases h

/-- Both presets follow their presses. -/
structure Follows (js : JoystickLoop) (pressesA pressesX : Presses) : Prop where
  scooper : js.ScooperFollows pressesA
  vibrator : js.VibratorFollows pressesX

variable {outputs : List Output} {pressesA pressesX : Presses}

/-- Statements outside the presets. -/
theorem Follows.of_keeps (h : js.Follows pressesA pressesX)
    (hscooper : ∀ block, js.next ≠ .scooper block) (hvibrator : ∀ block, js.next ≠ .vibrator block)
    (hkeeps : js.Keeps after) : after.Follows pressesA pressesX := by
  obtain ⟨hsettledA, hsettledX⟩ := settled_spec hkeeps.settled
  have hA := (scooperFollows_iff fun block hnext => absurd hnext (hscooper block)).mp h.scooper
  have hX := (vibratorFollows_iff fun block hnext => absurd hnext (hvibrator block)).mp h.vibrator
  constructor
  · rw [scooperFollows_iff hsettledA, hkeeps.scooper_speed, hkeeps.lastScooperToggle]
    exact hA
  · rw [vibratorFollows_iff hsettledX, hkeeps.vibrator_speed, hkeeps.lastVibratorToggle]
    exact hX

theorem moment_of_plain (button : Button) (hscooper : ∀ block, js.next ≠ .scooper block)
    (hvibrator : ∀ block, js.next ≠ .vibrator block) :
    moment button ⟨js, .statement inputs, outputs, after⟩ = none := by
  cases button with
  | A => simp [moment, Button.tested, Button.toggled, hscooper]
  | X => simp [moment, Button.tested, Button.toggled, hvibrator]

theorem moment_of_scooper {statement : ScooperStatement} (hnext : js.next = .scooper statement) :
    moment .A ⟨js, .statement inputs, outputs, after⟩ =
        statement.moment js.a_pressed inputs.now ∧
      moment .X ⟨js, .statement inputs, outputs, after⟩ = none := by
  constructor
  · cases statement <;> simp [moment, Button.tested, Button.toggled, Button.pressed, hnext,
      ScooperStatement.moment]
  · simp [moment, Button.tested, Button.toggled, hnext]

theorem moment_of_vibrator {statement : VibratorStatement}
    (hnext : js.next = .vibrator statement) :
    moment .X ⟨js, .statement inputs, outputs, after⟩ =
        statement.moment js.x_pressed inputs.now ∧
      moment .A ⟨js, .statement inputs, outputs, after⟩ = none := by
  constructor
  · cases statement <;> simp [moment, Button.tested, Button.toggled, Button.pressed, hnext,
      VibratorStatement.moment]
  · simp [moment, Button.tested, Button.toggled, hnext]

/-- The frame of the scooper's preset on the vibrator. -/
theorem runScooper_vibrator {statement : ScooperStatement} (hnext : js.next = .scooper statement)
    (h : js.VibratorFollows presses) :
    (js.runScooper inputs statement).VibratorFollows presses := by
  have hvalues := (vibratorFollows_iff fun block hblock => by
    rw [hnext] at hblock
    cases hblock).mp h
  cases statement with
  | ifPressed | ifZero | ifAboveMax =>
      rw [runScooper]
      split
      · exact hvalues
      · exact hvalues
  | setMin | increment | wrap | toggled => exact hvalues

theorem runVibrator_scooper {statement : VibratorStatement}
    (hnext : js.next = .vibrator statement) (h : js.ScooperFollows presses) :
    (js.runVibrator inputs statement).ScooperFollows presses := by
  have hvalues := (scooperFollows_iff fun block hblock => by
    rw [hnext] at hblock
    cases hblock).mp h
  cases statement with
  | ifPressed | ifAboveMax =>
      rw [runVibrator]
      split
      · exact hvalues
      · exact hvalues
  | increment | wrap | toggled => exact hvalues

/-- **One statement**, when what it sees of the buttons is legible. -/
theorem runStatement_follows (h : js.Follows pressesA pressesX)
    (hlegibleA : ∀ seen, moment .A ⟨js, .statement inputs, outputs, after⟩ = some seen →
      pressesA.Legible seen)
    (hlegibleX : ∀ seen, moment .X ⟨js, .statement inputs, outputs, after⟩ = some seen →
      pressesX.Legible seen)
    (hrun : js.runStatement inputs = .ok (after, outputs)) :
    after.Follows (pressesA.after (moment .A ⟨js, .statement inputs, outputs, after⟩))
      (pressesX.after (moment .X ⟨js, .statement inputs, outputs, after⟩)) := by
  -- a statement outside the presets sees no button
  have hplain : (∀ block, js.next ≠ .scooper block) → (∀ block, js.next ≠ .vibrator block) →
      js.Keeps after →
      after.Follows (pressesA.after (moment .A ⟨js, .statement inputs, outputs, after⟩))
        (pressesX.after (moment .X ⟨js, .statement inputs, outputs, after⟩)) := by
    intro hscooper hvibrator hkeeps
    rw [moment_of_plain .A hscooper hvibrator, moment_of_plain .X hscooper hvibrator]
    exact h.of_keeps hscooper hvibrator hkeeps
  rw [runStatement] at hrun
  split at hrun
  · next statement hnext =>
    exact hplain (by simp [hnext]) (by simp [hnext]) (runLoop_passes hrun).toKeeps
  · next statement hnext =>
    cases hrun
    exact hplain (by simp [hnext]) (by simp [hnext]) (runRead_passes statement).toKeeps
  · next statement hnext =>
    obtain ⟨reached, hreached, hrun⟩ := bind_eq_ok.mp hrun
    cases hrun
    exact hplain (by simp [hnext]) (by simp [hnext]) (runDeadzone_passes hreached).toKeeps
  · next statement hnext =>
    cases hrun
    exact hplain (by simp [hnext]) (by simp [hnext]) (runActuator_passes statement).toKeeps
  · next statement hnext =>
    cases hrun
    obtain ⟨hmomentA, hmomentX⟩ := moment_of_scooper hnext
    rw [hmomentA] at hlegibleA ⊢
    rw [hmomentX]
    exact ⟨runScooper_follows hnext h.scooper hlegibleA, runScooper_vibrator hnext h.vibrator⟩
  · next statement hnext =>
    cases hrun
    obtain ⟨hmomentX, hmomentA⟩ := moment_of_vibrator hnext
    rw [hmomentX] at hlegibleX ⊢
    rw [hmomentA]
    exact ⟨runVibrator_scooper hnext h.scooper, runVibrator_follows hnext h.vibrator hlegibleX⟩
  · next statement hnext =>
    obtain ⟨reached, hreached, hrun⟩ := bind_eq_ok.mp hrun
    cases hrun
    exact hplain (by simp [hnext]) (by simp [hnext]) (runScale_passes hreached).toKeeps
  · next statement hnext =>
    exact hplain (by simp [hnext]) (by simp [hnext]) (runSend_prepared hrun).1.keeps
  · next hnext =>
    cases hrun
    apply hplain
    · simp [hnext]
    · simp [hnext]
    · exact ⟨rfl, rfl, rfl, rfl, by rw [hnext]; rfl⟩

variable {scooperStart vibratorStart : Int}

theorem overrideSpeeds_eq {dispSlider vibSlider : Rat}
    (h : NoOverride (.overrideSpeeds dispSlider vibSlider)) :
    js.overrideSpeeds dispSlider vibSlider = js := by
  obtain ⟨hdisp, hvib⟩ := h
  rw [overrideSpeeds, if_neg (Int32.not_le.mpr hdisp), if_neg (Int32.not_le.mpr hvib)]

/-- The presets follow the presses through a run without overrides. -/
theorem follows_of_run (hrun : Run (system scooperStart vibratorStart NoOverride) history js) :
    Presses.AllLegible ⟨0, scooperStart⟩ (moments .A history) →
    Presses.AllLegible ⟨0, vibratorStart⟩ (moments .X history) →
    js.Follows (pressesOf .A scooperStart history) (pressesOf .X vibratorStart history) := by
  refine hrun.induction (fun history js =>
    Presses.AllLegible ⟨0, scooperStart⟩ (moments .A history) →
    Presses.AllLegible ⟨0, vibratorStart⟩ (moments .X history) →
    js.Follows (pressesOf .A scooperStart history) (pressesOf .X vibratorStart history)) ?_ ?_
  · rintro _ rfl _ _
    exact ⟨⟨rfl, rfl⟩, ⟨rfl, rfl⟩⟩
  · intro history before event after outputs _ ih hnext hlegibleA hlegibleX
    obtain ⟨hallowed, hstep⟩ := hnext
    obtain ⟨hearlierA, hlastA⟩ := allLegible_moments_snoc.mp hlegibleA
    obtain ⟨hearlierX, hlastX⟩ := allLegible_moments_snoc.mp hlegibleX
    have hfollows := ih hearlierA hearlierX
    rw [pressesOf_snoc, pressesOf_snoc]
    cases event with
    | statement inputs => exact runStatement_follows hfollows hlastA hlastX hstep
    | overrideSpeeds dispSlider vibSlider =>
        cases hstep
        rw [overrideSpeeds_eq hallowed]
        exact hfollows
    | showValues =>
        obtain ⟨captured, rfl, -⟩ := showValues_frame hstep
        exact ⟨hfollows.scooper, hfollows.vibrator⟩

/-- The presets of a cycle are ten apart. -/
theorem toInt_preset (count : Nat) {cycle : Nat} (hpos : 0 < cycle) (hcycle : cycle ≤ 4) :
    (Int32.ofNat (10 * (count % cycle))).toInt = 10 * ((count : Int) % cycle) := by
  have hbound : count % cycle < cycle := Nat.mod_lt _ hpos
  rw [Int32.toInt_ofNat_of_lt (by omega)]
  rfl

/-- **The law of the presets.**  In a run without overrides in which every look at a
    button is legible, the speeds at the head of the loop are the presets after the
    effective presses. -/
theorem presets_of_run (hrun : Run (system scooperStart vibratorStart NoOverride) history js)
    (hlegibleA : Presses.AllLegible ⟨0, scooperStart⟩ (moments .A history))
    (hlegibleX : Presses.AllLegible ⟨0, vibratorStart⟩ (moments .X history))
    (hhead : js.next = .loopHead) :
    js.scooper_speed.toInt = 10 * ((pressesOf .A scooperStart history).count % 2) ∧
      js.vibrator_speed.toInt = 10 * ((pressesOf .X vibratorStart history).count % 4) := by
  obtain ⟨hscooper, hvibrator⟩ := follows_of_run hrun hlegibleA hlegibleX
  obtain ⟨hsettledA, hsettledX⟩ := @settled_spec js.next (by rw [hhead]; rfl)
  obtain ⟨hscooper_speed, -⟩ := (scooperFollows_iff hsettledA).mp hscooper
  obtain ⟨hvibrator_speed, -⟩ := (vibratorFollows_iff hsettledX).mp hvibrator
  rw [hscooper_speed, hvibrator_speed]
  exact ⟨toInt_preset _ (by decide) (by decide), toInt_preset _ (by decide) (by decide)⟩

/-- Both buttons held while the clock shows `now`. -/
def heldAt (now : Int) : Inputs where
  windowClosing := false
  ids := [7]
  stick := none
  trigger := none
  button := some true
  dpad := none
  now := now
  isConnected := false
  currentDriveMode := .remote

def heldEvents (count : Nat) (now : Int) : List Event :=
  List.replicate count (.statement (heldAt now))

theorem heldEvents_noOverride (count : Nat) (now : Int) :
    ∀ event ∈ heldEvents count now, NoOverride event := by
  intro event hmem
  rw [List.eq_of_mem_replicate hmem]
  trivial

instance (presses : Presses) (seen : Moment) : Decidable (presses.Legible seen) :=
  match seen with
  | .tested down now => inferInstanceAs (Decidable (down = true → presses.due now → _))
  | .toggled _ => isTrue trivial

instance decidableAllLegible : (presses : Presses) → (moments : List Moment) →
    Decidable (presses.AllLegible moments)
  | _, [] => isTrue trivial
  | presses, moment :: moments =>
      have := decidableAllLegible (presses.observe moment) moments
      inferInstanceAs (Decidable (presses.Legible moment ∧ _))

/-- The choice of the joystick and one iteration, 300 ms after the start. -/
theorem presets_of_run_example : ∃ (history : List Record) (js : JoystickLoop),
    Run (system 0 0 NoOverride) history js ∧ js.next = .loopHead ∧
      js.scooper_speed.toInt = 10 * ((pressesOf .A 0 history).count % 2) ∧
      js.vibrator_speed.toInt = 10 * ((pressesOf .X 0 history).count % 4) ∧
      (pressesOf .A 0 history).count = 1 ∧ (pressesOf .X 0 history).count = 1 := by
  obtain ⟨history, js, hrun, hview⟩ := exists_started_run 0 0 (heldEvents 45 3000000)
    (fun (history : List Record) js => (js.next, moments .A history, moments .X history))
    (.loopHead, [.tested true 3000000, .toggled 3000000],
      [.tested true 3000000, .toggled 3000000])
    (heldEvents_noOverride 45 3000000) (by decide +kernel)
  obtain ⟨hhead, hview⟩ := Prod.mk.inj hview
  obtain ⟨hmomentsA, hmomentsX⟩ := Prod.mk.inj hview
  obtain ⟨hscooper, hvibrator⟩ := presets_of_run hrun (by rw [hmomentsA]; decide)
    (by rw [hmomentsX]; decide) hhead
  refine ⟨history, js, hrun, hhead, hscooper, hvibrator, ?_, ?_⟩
  · rw [pressesOf, hmomentsA]
    decide
  · rw [pressesOf, hmomentsX]
    decide

/-- Pressed 1.1 seconds after the start, the buttons do nothing: the milliseconds
    component of the elapsed time is 100. -/
theorem presets_not_always : ¬ ∀ (scooperStart vibratorStart : Int) (history : List Record)
    (js : JoystickLoop), Run (system scooperStart vibratorStart NoOverride) history js →
      js.next = .loopHead →
      js.scooper_speed.toInt = 10 * ((pressesOf .A scooperStart history).count % 2) ∧
        js.vibrator_speed.toInt = 10 * ((pressesOf .X vibratorStart history).count % 4) := by
  intro hlaw
  obtain ⟨history, js, hrun, hview⟩ := exists_started_run 0 0 (heldEvents 39 11000000)
    (fun (history : List Record) js =>
      (js.next, js.scooper_speed, (pressesOf .A 0 history).count))
    (.loopHead, 0, 1) (heldEvents_noOverride 39 11000000) (by decide +kernel)
  obtain ⟨hhead, hview⟩ := Prod.mk.inj hview
  obtain ⟨hspeed, hcount⟩ := Prod.mk.inj hview
  obtain ⟨hscooper, -⟩ := hlaw 0 0 history js hrun hhead
  rw [hspeed, hcount] at hscooper
  exact absurd hscooper (by decide)

end Lame.JoystickLoop
