/-
  Lame/World.lean
  ===============
  **Base station, robot, and the network between them.**

  The network never forgets: `sent` lists every datagram in the order in which it
  was sent, and a delivery names one of them by its position.  A datagram may be
  delivered late, out of order, several times, or never.  The two parties are the
  window of `MainWindow.lean` and the robot of `Robot.lean`; the robot's own loops
  are those that `Run` starts.
-/
import Lame.MainWindow
import Lame.RobotSteps

namespace Lame

open ByteMemory LabelledRuns PacketHandler

/-! ## 1. States and events -/

/-- The addresses the two sockets are bound to. -/
structure Endpoints where
  base : SockAddr
  robot : SockAddr
  distinct : base ≠ robot

structure Datagram where
  source : SockAddr
  dest : SockAddr
  bytes : List UInt8
deriving DecidableEq, Repr

structure World where
  window : MainWindow
  robot : Robot
  sent : List Datagram
deriving DecidableEq, Repr

inductive WorldEvent where
  | go (selectedIndex : Int) (addr : Option IPAddress)
  | windowClosing
  | worker
  | command (command : MainWindow.Command)
  | receiveFailed
  /-- The `i`-th datagram arrives where it was sent to, at the base station's time
      `now`. -/
  | deliver (i : Nat) (now : Int) (leftovers : Leftovers) (link : ImageLink)
  | robot (event : Event)
deriving DecidableEq, Repr

namespace World

/-! ## 2. Steps -/

variable (imencode : Mat → Nat → Option (List UInt8)) (endpoints : Endpoints)

def fromBase (send : Send) : Datagram := ⟨endpoints.base, send.endpoint, send.buffer⟩

/-- Serial and image traffic does not use this network. -/
def fromRobot : Output → Option Datagram
  | .udp bytes (some dest) => some ⟨endpoints.robot, dest, bytes⟩
  | _ => none

def windowStep (world : World) (result : WindowStep) : World × List Log :=
  ({ world with
      window := result.window
      sent := world.sent ++ result.sends.map (fromBase endpoints) }, result.logs)

def robotStep (world : World) (event : Event) : Exec (World × List Log) := do
  let (robot, outputs) ← world.robot.step imencode event
  return ({ world with
      robot := robot
      sent := world.sent ++ outputs.filterMap (fromRobot endpoints) }, [])

def step (world : World) : WorldEvent → Exec (World × List Log)
  | .go selectedIndex addr =>
      return windowStep endpoints world (world.window.goButtonClicked selectedIndex addr)
  | .windowClosing => return ({ world with window := world.window.windowClosing }, [])
  | .worker =>
      match world.window.connectionThread with
      | none => return (world, [])
      | some worker => do
          return windowStep endpoints world (← world.window.connectingWorker worker)
  | .command command => do
      return windowStep endpoints world (← world.window.sendCommand command)
  | .receiveFailed =>
      if world.window.receiving then
        return windowStep endpoints world world.window.receiveFailed
      else return (world, [])
  | .deliver i now leftovers link =>
      match world.sent[i]? with
      | none => return (world, [])
      | some datagram =>
          if datagram.dest = endpoints.robot then
            robotStep imencode endpoints world
              (.datagram datagram.bytes datagram.source leftovers link)
          else if datagram.dest = endpoints.base ∧ world.window.receiving = true then do
            return windowStep endpoints world
              (← world.window.packetReceiveCallback datagram.bytes now)
          else return (world, [])
  | .robot event => robotStep imencode endpoints world event

def Initial (world : World) : Prop :=
  world.window = MainWindow.create ∧ world.robot.Started ∧ world.sent = []

/-- The robot's own steps: its started loops and its clock. -/
def Enabled : WorldEvent → Prop
  | .robot event => (∀ thread ∈ event.thread, thread ∈ Robot.startedThreads) ∧
      ∀ bytes sender leftovers link, event ≠ .datagram bytes sender leftovers link
  | _ => True

def system : System World WorldEvent Log :=
  System.ofStep Initial Enabled (step imencode endpoints)

abbrev Record := Entry World WorldEvent Log

/-! ## 3. What one step does -/

def arriving (world : World) : WorldEvent → Option Datagram
  | .deliver i _ _ _ => world.sent[i]?
  | _ => none

theorem arriving_eq_some {world : World} {event : WorldEvent} {datagram : Datagram}
    (h : arriving world event = some datagram) :
    ∃ i now leftovers link, event = .deliver i now leftovers link ∧
      world.sent[i]? = some datagram := by
  cases event with
  | deliver i now leftovers link => exact ⟨i, now, leftovers, link, rfl, h⟩
  | _ => cases h

/-- The callback takes these bytes for an acknowledgement. -/
def IsAck (bytes : List UInt8) : Prop :=
  getPacketOpcode bytes (Int32.ofNat bytes.length) = .ok SWITCH_MODE_ACK_OPCODE

/-- Where a datagram comes from: the base station built it, or the robot answers with
    it to what arrives. -/
def Origin (endpoints : Endpoints) (world : World) (event : WorldEvent)
    (datagram : Datagram) : Prop :=
  MainWindow.Built datagram.bytes ∨
    ∃ request, arriving world event = some request ∧ request.dest = endpoints.robot ∧
      Robot.Answers request.bytes datagram.bytes

/-- What may set the flag of the window in a step. -/
def AckArrives (endpoints : Endpoints) (world : World) (event : WorldEvent) : Prop :=
  ∃ datagram, arriving world event = some datagram ∧ datagram.dest = endpoints.base ∧
    world.window.receiving = true ∧ IsAck datagram.bytes

variable {imencode endpoints}

theorem origin_of_sends {world : World} {event : WorldEvent} {sends : List Send}
    (hbuilt : ∀ send ∈ sends, MainWindow.Built send.buffer) :
    ∀ datagram ∈ sends.map (fromBase endpoints), Origin endpoints world event datagram := by
  intro datagram hmem
  obtain ⟨send, hsend, rfl⟩ := List.mem_map.mp hmem
  exact .inl (hbuilt send hsend)

theorem udp_of_mem_fromRobot {outputs : List Output} {datagram : Datagram}
    (h : datagram ∈ outputs.filterMap (fromRobot endpoints)) :
    ∃ dest, .udp datagram.bytes dest ∈ outputs := by
  obtain ⟨output, hmem, hfrom⟩ := List.mem_filterMap.mp h
  cases output with
  | udp bytes dest =>
      cases dest with
      | none => cases hfrom
      | some dest =>
          cases hfrom
          exact ⟨some dest, hmem⟩
  | serial => cases hfrom
  | image => cases hfrom

/-- The robot's own loops send no datagrams. -/
theorem fromRobot_eq_none_of_effect {robot next : Robot} {event : Event}
    {outputs : List Output} (h : Robot.Effect imencode robot event next outputs)
    (hquiet : ∀ bytes sender leftovers link, event ≠ .datagram bytes sender leftovers link)
    (hthread : event.thread ≠ some .aiHeartbeat) :
    outputs.filterMap (fromRobot endpoints) = [] := by
  cases h with
  | datagram => exact absurd rfl (hquiet _ _ _ _)
  | aiHeartbeatIdle | aiHeartbeatQuery | aiHeartbeatTimeout => exact absurd rfl hthread
  | cameraSend link =>
      rcases Robot.sendCameraImage_cases imencode robot 1 link with hnone | ⟨dest, data, hone⟩
      · rw [hnone]
        rfl
      · rw [hone]
        rfl
  | _ => rfl

/-- A step of the robot inside the world. -/
structure RobotMoves (imencode : Mat → Nat → Option (List UInt8)) (endpoints : Endpoints)
    (world after : World) (event : Event) : Prop where
  window : after.window = world.window
  running : after.robot.Running
  effect : ∃ next outputs, Robot.Effect imencode world.robot event next outputs ∧
    after.sent = world.sent ++ outputs.filterMap (fromRobot endpoints)

theorem robotStep_spec {world after : World} {event : Event} {logs : List Log}
    (hrunning : world.robot.Running)
    (h : robotStep imencode endpoints world event = .ok (after, logs)) :
    logs = [] ∧ RobotMoves imencode endpoints world after event := by
  obtain ⟨⟨robot, outputs⟩, hstep, h⟩ := bind_eq_ok.mp h
  obtain ⟨rfl, rfl⟩ := Prod.mk.inj (Except.ok.inj h)
  obtain ⟨next, cells, hnext, -, heffect⟩ := Robot.step_cases imencode hrunning hstep
  exact ⟨rfl, rfl, hrunning.step hstep, next, outputs, heffect, rfl⟩

/-- **One step of the two parties**: what it adds to the network, how it moves the
    connection thread, and when it declares success. -/
structure Spec (endpoints : Endpoints) (world after : World) (event : WorldEvent)
    (logs : List Log) : Prop where
  running : after.robot.Running
  sent : ∃ new, after.sent = world.sent ++ new ∧
    ∀ datagram ∈ new, Origin endpoints world event datagram
  moves : MainWindow.Moves (AckArrives endpoints world event) world.window after.window
  declares : .modeSwitched ∈ logs → world.window.connectionThread = some .requested ∧
    world.window.receivedDriveModeAck = true ∧ after.window.isConnected = true ∧
    after.window.currentDriveMode = world.window.currentDriveMode

theorem Spec.refl (world : World) (hrunning : world.robot.Running) (event : WorldEvent) :
    Spec endpoints world world event [] :=
  ⟨hrunning, ⟨[], by simp, by simp⟩, .refl _ _, by simp⟩

theorem Spec.of_windowStep {world : World} (hrunning : world.robot.Running)
    {event : WorldEvent} {result : WindowStep}
    (hbuilt : ∀ send ∈ result.sends, MainWindow.Built send.buffer)
    (hmoves : MainWindow.Moves (AckArrives endpoints world event) world.window result.window)
    (hdeclares : .modeSwitched ∈ result.logs →
      world.window.connectionThread = some .requested ∧
        world.window.receivedDriveModeAck = true ∧ result.window.isConnected = true ∧
        result.window.currentDriveMode = world.window.currentDriveMode) :
    Spec endpoints world (windowStep endpoints world result).1 event
      (windowStep endpoints world result).2 :=
  ⟨hrunning, ⟨_, rfl, origin_of_sends hbuilt⟩, hmoves, hdeclares⟩

theorem Spec.of_robotMoves {world after : World} {event : WorldEvent} {robotEvent : Event}
    (h : RobotMoves imencode endpoints world after robotEvent)
    (horigin : ∀ next outputs, Robot.Effect imencode world.robot robotEvent next outputs →
      ∀ datagram ∈ outputs.filterMap (fromRobot endpoints),
        Origin endpoints world event datagram) :
    Spec endpoints world after event [] := by
  obtain ⟨next, outputs, heffect, hsent⟩ := h.effect
  refine ⟨h.running, ⟨_, hsent, horigin next outputs heffect⟩, ?_, by simp⟩
  rw [h.window]
  exact .refl _ _

theorem step_spec {world after : World} (hrunning : world.robot.Running)
    {event : WorldEvent} {logs : List Log} (henabled : Enabled event)
    (h : step imencode endpoints world event = .ok (after, logs)) :
    Spec endpoints world after event logs := by
  cases event with
  | go selectedIndex addr =>
      obtain ⟨hsends, hlogs, hmoves⟩ :=
        MainWindow.goButtonClicked_spec world.window selectedIndex addr
      obtain ⟨rfl, rfl⟩ := Prod.mk.inj (Except.ok.inj h)
      exact .of_windowStep hrunning (by rw [hsends]; simp)
        (hmoves.mono False.elim) fun hmem => absurd hmem hlogs
  | windowClosing =>
      obtain ⟨rfl, rfl⟩ := Prod.mk.inj (Except.ok.inj h)
      exact ⟨hrunning, ⟨[], by simp, by simp⟩, .ended rfl, by simp⟩
  | worker =>
      rw [step] at h
      split at h
      · obtain ⟨rfl, rfl⟩ := Prod.mk.inj (Except.ok.inj h)
        exact .refl _ hrunning _
      · next worker hthread =>
        obtain ⟨result, hresult, h⟩ := bind_eq_ok.mp h
        obtain ⟨rfl, rfl⟩ := Prod.mk.inj (Except.ok.inj h)
        obtain ⟨hbuilt, hdeclares, -, hmoves⟩ :=
          MainWindow.connectingWorker_spec hthread hresult
        refine .of_windowStep hrunning hbuilt (hmoves.mono False.elim) fun hmem => ?_
        obtain ⟨rfl, hflag, hconnected, hmode⟩ := hdeclares hmem
        exact ⟨hthread, hflag, hconnected, hmode⟩
  | command command =>
      obtain ⟨result, hresult, h⟩ := bind_eq_ok.mp h
      obtain ⟨rfl, rfl⟩ := Prod.mk.inj (Except.ok.inj h)
      obtain ⟨hbuilt, hlogs, hsame⟩ := MainWindow.sendCommand_spec hresult
      exact .of_windowStep hrunning hbuilt (by rw [hsame]; exact .refl _ _)
        (by rw [hlogs]; simp)
  | receiveFailed =>
      rw [step] at h
      split at h
      · obtain ⟨rfl, rfl⟩ := Prod.mk.inj (Except.ok.inj h)
        exact .of_windowStep hrunning (by simp [MainWindow.receiveFailed]) (.ended rfl)
          (by simp [MainWindow.receiveFailed])
      · obtain ⟨rfl, rfl⟩ := Prod.mk.inj (Except.ok.inj h)
        exact .refl _ hrunning _
  | deliver i now leftovers link =>
      rw [step] at h
      split at h
      · obtain ⟨rfl, rfl⟩ := Prod.mk.inj (Except.ok.inj h)
        exact .refl _ hrunning _
      · next datagram hdatagram =>
        split at h
        · next hdest =>
          obtain ⟨rfl, hmoves⟩ := robotStep_spec hrunning h
          refine .of_robotMoves hmoves fun next outputs heffect answer hmem => ?_
          obtain ⟨dest, hsent⟩ := udp_of_mem_fromRobot hmem
          cases heffect with
          | datagram hhandles => exact .inr ⟨datagram, hdatagram, hdest, hhandles.udp hsent⟩
        · split at h
          · next hdest =>
            obtain ⟨result, hresult, h⟩ := bind_eq_ok.mp h
            obtain ⟨rfl, rfl⟩ := Prod.mk.inj (Except.ok.inj h)
            obtain ⟨hsends, hlogs, -, hmoves⟩ := MainWindow.packetReceiveCallback_spec hresult
            exact .of_windowStep hrunning (by rw [hsends]; simp)
              (hmoves.mono fun hack => ⟨datagram, hdatagram, hdest.1, hdest.2, hack⟩)
              fun hmem => absurd hmem hlogs
          · obtain ⟨rfl, rfl⟩ := Prod.mk.inj (Except.ok.inj h)
            exact .refl _ hrunning _
  | robot event =>
      obtain ⟨rfl, hmoves⟩ := robotStep_spec hrunning h
      refine .of_robotMoves hmoves fun next outputs heffect datagram hmem => ?_
      rw [fromRobot_eq_none_of_effect heffect henabled.2
        fun hthread => absurd (henabled.1 _ hthread) (by decide)] at hmem
      cases hmem

end World

end Lame
