/-
  Lame/Connection.lean
  ====================
  **When no session can be established.**

  Without a press for Remote mode there is none: AI_INIT is not acknowledged.  A window
  whose receive loop has ended gets none either, since no acknowledgement reaches it.
-/
import Lame.OperatorControl
import Lame.Session

namespace Lame

open ByteMemory LabelledRuns PacketHandler MainWindow

namespace World

variable {imencode : Mat → Nat → Option (List UInt8)} {endpoints : Endpoints}

/-! ## 1. Without Remote mode -/

/-- The datagrams of the network are empty or frames. -/
theorem exists_message_of_sent {history : List Record} {world : World}
    (hrun : Run (system imencode endpoints) history world) {i : Nat} {datagram : Datagram}
    (hi : world.sent[i]? = some datagram) :
    datagram.bytes = [] ∨ ∃ message : Message, message.lacksEndByte = false ∧
      datagram.bytes = message.frame := by
  obtain ⟨record, -, -, horigin⟩ := exists_sender hrun i datagram hi
  rcases horigin with (hempty | ⟨request, hrequest⟩) | ⟨request, -, -, hreply | hreply | hreply⟩
  · exact .inl hempty
  · exact .inr ⟨_, request.lacksEndByte_message, hrequest⟩
  · exact .inr ⟨_, rfl, hreply⟩
  · exact .inr ⟨_, rfl, hreply⟩
  · exact .inr ⟨_, rfl, hreply.1⟩

/-- What the base station takes for a request is one. -/
theorem requestedOpcode_of_getPacketOpcode {history : List Record} {world : World}
    (hrun : Run (system imencode endpoints) history world) {i : Nat} {datagram : Datagram}
    (hi : world.sent[i]? = some datagram) {opcode : UInt8}
    (hop : getPacketOpcode datagram.bytes (Int32.ofNat datagram.bytes.length) = .ok opcode) :
    requestedOpcode datagram.bytes = some opcode := by
  rcases exists_message_of_sent hrun hi with hempty | ⟨message, hend, hframe⟩
  · rw [hempty] at hop
    cases hop
  · rw [hframe] at hop ⊢
    rw [getPacketOpcode_frame hend] at hop
    rw [Message.requestedOpcode_frame hend, Except.ok.inj hop]

/-- Remote Drive is never the selected item when Go is pressed. -/
def NeverRemote (history : List Record) : Prop :=
  ∀ record ∈ history, ∀ selectedIndex addr, record.event = .go selectedIndex addr →
    selectedIndex ≠ 0

theorem getDriveMode_ne_remote {selectedIndex : Int} {mode : DriveMode}
    (hindex : selectedIndex ≠ 0) (hmode : mode ≠ .remote) :
    (getDriveMode selectedIndex mode).2 ≠ .remote := by
  rw [getDriveMode]
  split
  · exact hmode
  · next hrange =>
    have hone : selectedIndex = 1 := by
      simp only [ROBOT_MODE_ITEMS, List.length_cons, List.length_nil] at hrange
      omega
    subst hone
    exact DriveMode.noConfusion

/-- The window outside every session. -/
structure Aloof (window : MainWindow) : Prop where
  mode : window.currentDriveMode ≠ .remote
  idle : window.isConnected = false
  flag : window.receivedDriveModeAck = false

theorem Aloof.pressed {window after : MainWindow} {selectedIndex : Int} {addr : Option IPAddress}
    (h : Aloof window) (hindex : selectedIndex ≠ 0)
    (hpressed : Pressed window selectedIndex addr after) : Aloof after := by
  have hmode := getDriveMode_ne_remote hindex h.mode
  have hidle {P : Prop} (hconnected : window.isConnected = true) : P :=
    absurd (h.idle.symm.trans hconnected) (by decide)
  cases hpressed with
  | noMode hconnected | updateRefused hconnected | updateStarts hconnected =>
      exact hidle hconnected
  | noAddress | noModeIdle => exact ⟨h.mode, h.idle, h.flag⟩
  | connectRefused | connectStarts => exact ⟨hmode, h.idle, h.flag⟩

theorem Aloof.connectingWorker {window : MainWindow} (h : Aloof window) {worker : Worker}
    {result : WindowStep} (hresult : window.connectingWorker worker = .ok result) :
    Aloof result.window := by
  cases worker with
  | starting =>
      cases hresult
      exact ⟨h.mode, h.idle, rfl⟩
  | looping queryHeartbeatState setDriveModeState =>
      cases queryHeartbeatState with
      | true =>
          rw [MainWindow.connectingWorker, if_pos rfl] at hresult
          split at hresult
          · cases hresult
            exact ⟨h.mode, h.idle, h.flag⟩
          · obtain ⟨buffer, -, hresult⟩ := bind_eq_ok.mp hresult
            obtain ⟨send, -, hresult⟩ := bind_eq_ok.mp hresult
            cases hresult
            exact h
      | false =>
          cases setDriveModeState with
          | true =>
              obtain ⟨buffer, -, hresult⟩ := bind_eq_ok.mp hresult
              obtain ⟨send, -, hresult⟩ := bind_eq_ok.mp hresult
              cases hresult
              exact ⟨h.mode, h.idle, h.flag⟩
          | false =>
              cases hresult
              exact ⟨h.mode, h.idle, h.flag⟩
  | requested =>
      rw [MainWindow.connectingWorker, if_neg (by rw [h.flag]; decide)] at hresult
      cases hresult
      exact ⟨h.mode, h.idle, h.flag⟩
  | done =>
      cases hresult
      exact ⟨h.mode, h.idle, h.flag⟩

/-- A datagram that asks for nothing concerning Remote mode leaves the window alone. -/
theorem Aloof.packetReceiveCallback {window : MainWindow} (h : Aloof window)
    {buffer : List UInt8} {now : Int} {result : WindowStep}
    (hresult : window.packetReceiveCallback buffer now = .ok result)
    (hswitch : getPacketOpcode buffer (Int32.ofNat buffer.length) ≠ .ok REMOTE_SWITCH_OPCODE)
    (hack : getPacketOpcode buffer (Int32.ofNat buffer.length) ≠ .ok SWITCH_MODE_ACK_OPCODE) :
    Aloof result.window := by
  rw [MainWindow.packetReceiveCallback] at hresult
  obtain ⟨opcode, hopcode, hresult⟩ := bind_eq_ok.mp hresult
  split at hresult
  · cases hresult
    exact ⟨h.mode, h.idle, h.flag⟩
  · split at hresult
    · next heq => exact absurd (heq ▸ hopcode) hswitch
    · split at hresult
      · next heq => exact absurd (heq ▸ hopcode) hack
      · cases hresult
        exact h

theorem Aloof.step {history : List Record} {world after : World} {event : WorldEvent}
    {logs : List Log} (hrun : Run (system imencode endpoints) history world)
    (h : Aloof world.window) (hquiet : ∀ record ∈ history, ¬ RequestsRemote record)
    (hindex : ∀ selectedIndex addr, event = .go selectedIndex addr → selectedIndex ≠ 0)
    (hstep : step imencode endpoints world event = .ok (after, logs)) :
    Aloof after.window := by
  cases event with
  | go selectedIndex addr =>
      obtain ⟨rfl, -⟩ := Prod.mk.inj (Except.ok.inj hstep)
      exact h.pressed (hindex selectedIndex addr rfl)
        (goButtonClicked_pressed world.window selectedIndex addr)
  | windowClosing =>
      obtain ⟨rfl, -⟩ := Prod.mk.inj (Except.ok.inj hstep)
      exact ⟨h.mode, h.idle, h.flag⟩
  | worker =>
      rw [World.step] at hstep
      split at hstep
      · obtain ⟨rfl, -⟩ := Prod.mk.inj (Except.ok.inj hstep)
        exact h
      · obtain ⟨result, hresult, hstep⟩ := bind_eq_ok.mp hstep
        obtain ⟨rfl, -⟩ := Prod.mk.inj (Except.ok.inj hstep)
        exact h.connectingWorker hresult
  | command command =>
      obtain ⟨result, hresult, hstep⟩ := bind_eq_ok.mp hstep
      obtain ⟨rfl, -⟩ := Prod.mk.inj (Except.ok.inj hstep)
      obtain ⟨-, -, hsame⟩ := sendCommand_spec hresult
      change Aloof result.window
      rw [hsame]
      exact h
  | receiveFailed =>
      rw [World.step] at hstep
      split at hstep
      · obtain ⟨rfl, -⟩ := Prod.mk.inj (Except.ok.inj hstep)
        exact ⟨h.mode, h.idle, h.flag⟩
      · obtain ⟨rfl, -⟩ := Prod.mk.inj (Except.ok.inj hstep)
        exact h
  | deliver i now leftovers link =>
      rw [World.step] at hstep
      split at hstep
      · obtain ⟨rfl, -⟩ := Prod.mk.inj (Except.ok.inj hstep)
        exact h
      · next datagram hi =>
        split at hstep
        · obtain ⟨-, hmoves⟩ := robotStep_spec (running_of_run hrun) hstep
          rw [hmoves.window]
          exact h
        · split at hstep
          · obtain ⟨result, hresult, hstep⟩ := bind_eq_ok.mp hstep
            obtain ⟨rfl, -⟩ := Prod.mk.inj (Except.ok.inj hstep)
            refine h.packetReceiveCallback hresult (fun hswitch => ?_) fun hack => ?_
            · obtain ⟨record, hmem, -, hrequest⟩ := (controlled_of_run hrun).switches i datagram
                hi (requestedOpcode_of_getPacketOpcode hrun hi hswitch)
              exact hquiet record hmem hrequest
            · -- behind an acknowledgement stands a switch request that reached the robot
              obtain ⟨handling, hmem, -, hhandles⟩ := exists_handling_of_isAck hrun hi hack
              obtain ⟨earlier, later, rfl⟩ := List.append_of_mem hmem
              obtain ⟨request, hrequest, hop⟩ := Option.bind_eq_some_iff.mp hhandles
              obtain ⟨j, -, -, -, -, hj⟩ := arriving_eq_some hrequest
              split at hop
              · obtain ⟨record, hrecord, -, hremote⟩ :=
                  (controlled_of_run hrun.split.1).switches j request hj hop
                exact hquiet record (List.mem_append_left _ hrecord) hremote
              · cases hop
          · obtain ⟨rfl, -⟩ := Prod.mk.inj (Except.ok.inj hstep)
            exact h
  | robot event =>
      obtain ⟨-, hmoves⟩ := robotStep_spec (running_of_run hrun) hstep
      rw [hmoves.window]
      exact h

theorem aloof_of_run {history : List Record} {world : World}
    (hrun : Run (system imencode endpoints) history world) : NeverRemote history →
      Aloof world.window ∧ ∀ record ∈ history, Aloof record.before.window := by
  refine hrun.induction (fun history world => NeverRemote history →
    Aloof world.window ∧ ∀ record ∈ history, Aloof record.before.window) ?_ ?_
  · rintro world ⟨hwindow, -, -⟩ -
    rw [hwindow]
    exact ⟨⟨by decide, rfl, rfl⟩, by simp⟩
  · intro history before event after outputs hbefore ih ⟨_, hstep⟩ hnever
    obtain ⟨haloof, hall⟩ := ih fun record hmem => hnever record (List.mem_append_left _ hmem)
    have hlast := hnever _ (List.mem_append_right _ (List.mem_singleton_self _))
    refine ⟨haloof.step hbefore (fun record hmem hrequest => ?_) hlast hstep, ?_⟩
    · exact (hall record hmem).mode hrequest.2.1
    · intro record hmem
      rcases List.mem_append.mp hmem with hmem | hmem
      · exact hall record hmem
      · rw [List.mem_singleton.mp hmem]
        exact haloof

/-- **Without Remote mode there is no session**: as long as Remote Drive is not selected,
    whatever is delivered and however often, the window stays unconnected, nothing is declared,
    no drive is sent and the robot stays in Direct mode. -/
theorem never_connected {history : List Record} {world : World}
    (hrun : Run (system imencode endpoints) history world) (hnever : NeverRemote history) :
    world.window.isConnected = false ∧ world.robot.currentMode = .direct ∧
      (∀ record ∈ history, ¬ DeclaresSuccess record) ∧
      ∀ datagram ∈ world.sent, requestedOpcode datagram.bytes ≠ some DRIVE_OPCODE := by
  obtain ⟨haloof, hall⟩ := aloof_of_run hrun hnever
  have hcontrolled := controlled_of_run hrun
  refine ⟨haloof.idle, ?_, fun record hmem hdeclares => ?_, fun datagram hmem hop => ?_⟩
  · rcases hcontrolled.mode with hdirect | ⟨-, record, hmem, hrequest, -⟩
    · exact hdirect
    · exact absurd hrequest.2.1 (hall record hmem).mode
  · obtain ⟨earlier, later, rfl⟩ := List.append_of_mem hmem
    obtain ⟨-, hflag, -⟩ := (spec_of_run hrun).declares hdeclares
    exact absurd ((hall record hmem).flag.symm.trans hflag) (by decide)
  · obtain ⟨i, hi⟩ := List.getElem?_of_mem hmem
    obtain ⟨record, hrecord, -, sent, ⟨speeds, -, hconnected, -⟩, -⟩ :=
      hcontrolled.drives i datagram hi hop
    exact absurd ((hall record hrecord).idle.symm.trans hconnected) (by decide)

/-- A press for AI mode, with everything delivered that is sent. -/
def pressForAi : List WorldEvent :=
  [.go 1 (some (.v4 0xC0A80003)), .worker, .worker, .deliver 0 0 ⟨ZERO_DRIVE, ⟨0⟩⟩ ⟨true, true⟩,
    .deliver 1 0 ⟨ZERO_DRIVE, ⟨0⟩⟩ ⟨true, true⟩, .worker, .worker,
    .deliver 2 0 ⟨ZERO_DRIVE, ⟨0⟩⟩ ⟨true, true⟩, .worker, .worker]

theorem never_connected_pressForAi : ∃ (history : List Record) (world : World),
    Run (system (fun _ _ => none) HOSTS) history world ∧ NeverRemote history ∧
      history.length = 10 ∧ world.window.isConnected = false := by
  have henabled : ∀ event ∈ pressForAi, Enabled event := by
    simp [pressForAi, Enabled]
  obtain ⟨history, world, hrun, hview⟩ := exists_started_run pressForAi
    (fun (history : List Record) _ => history.map Entry.event)
    pressForAi henabled (by decide +kernel)
  have hnever : NeverRemote history := by
    intro record hmem selectedIndex addr hevent
    have hmem := List.mem_map_of_mem (f := Entry.event) hmem
    rw [hview, hevent] at hmem
    simp [pressForAi] at hmem
    omega
  exact ⟨history, world, hrun, hnever,
    by rw [← List.length_map (f := Entry.event), hview]; rfl, (never_connected hrun hnever).1⟩

/-! ## 2. Without the receive loop -/

/-- The connection thread of a window that no longer receives. -/
def Stuck (window : MainWindow) : Prop :=
  window.connectionThread = none ∨
    window.connectionThread = some .starting ∧ window.isConnected = false ∨
    window.connectionThread = some (.looping true false) ∧ window.lastHeartbeatReceived = none

/-- A step of a window that does not receive: it stays that way, declares nothing, and
    gains no session. -/
structure StaysDeaf (before after : World) (logs : List Log) : Prop where
  receiving : after.window.receiving = false
  stuck : Stuck after.window
  silent : .modeSwitched ∉ logs
  gained : after.window.isConnected = true → before.window.isConnected = true

theorem StaysDeaf.of_window {before after : World} {logs : List Log}
    (hdeaf : before.window.receiving = false) (hstuck : Stuck before.window)
    (hsilent : .modeSwitched ∉ logs) (hsame : after.window = before.window) :
    StaysDeaf before after logs :=
  ⟨by rw [hsame]; exact hdeaf, by rw [hsame]; exact hstuck, hsilent, by rw [hsame]; exact id⟩

theorem StaysDeaf.of_pressed {before after : World} {selectedIndex : Int}
    {addr : Option IPAddress} {logs : List Log} (hdeaf : before.window.receiving = false)
    (hstuck : Stuck before.window) (hsilent : .modeSwitched ∉ logs)
    (h : Pressed before.window selectedIndex addr after.window) :
    StaysDeaf before after logs := by
  refine ⟨h.receiving.trans hdeaf, ?_, hsilent, ?_⟩
  · generalize after.window = window at h
    cases h with
    | noMode | noAddress | noModeIdle => exact hstuck
    | updateRefused =>
        rcases hstuck with hnone | ⟨hthread, -⟩ | ⟨hthread, hnever⟩
        · exact .inl hnone
        · exact .inr (.inl ⟨hthread, rfl⟩)
        · exact .inr (.inr ⟨hthread, hnever⟩)
    | updateStarts => exact .inr (.inl ⟨rfl, rfl⟩)
    | connectRefused => exact hstuck
    | connectStarts hidle => exact .inr (.inl ⟨rfl, hidle⟩)
  · generalize after.window = window at h
    intro hafter
    cases h with
    | noMode | noAddress | noModeIdle | connectRefused | connectStarts => exact hafter
    | updateRefused | updateStarts => cases hafter

theorem StaysDeaf.of_worker {before : World} {worker : Worker} {result : WindowStep}
    (hdeaf : before.window.receiving = false) (hstuck : Stuck before.window)
    (hthread : before.window.connectionThread = some worker)
    (h : before.window.connectingWorker worker = .ok result) :
    StaysDeaf before (windowStep endpoints before result).1 result.logs := by
  rcases hstuck with hnone | ⟨hstarting, hidle⟩ | ⟨hlooping, hnever⟩
  · cases hnone.symm.trans hthread
  · obtain rfl := Option.some.inj (hstarting.symm.trans hthread)
    cases h
    refine ⟨hdeaf, .inr (.inr ⟨?_, rfl⟩), by simp, id⟩
    simp [windowStep, hidle]
  · obtain rfl := Option.some.inj (hlooping.symm.trans hthread)
    rw [connectingWorker, if_pos rfl, if_neg (not_not_intro hnever)] at h
    obtain ⟨buffer, -, h⟩ := bind_eq_ok.mp h
    obtain ⟨send, -, h⟩ := bind_eq_ok.mp h
    cases h
    exact .of_window hdeaf (.inr (.inr ⟨hlooping, hnever⟩)) (by simp) rfl

theorem staysDeaf_of_step {before after : World} (hrunning : before.robot.Running)
    (hdeaf : before.window.receiving = false) (hstuck : Stuck before.window)
    {event : WorldEvent} {logs : List Log}
    (h : step imencode endpoints before event = .ok (after, logs)) :
    StaysDeaf before after logs := by
  cases event with
  | go selectedIndex addr =>
      obtain ⟨-, hlogs, -⟩ := goButtonClicked_spec before.window selectedIndex addr
      obtain ⟨rfl, rfl⟩ := Prod.mk.inj (Except.ok.inj h)
      exact .of_pressed hdeaf hstuck hlogs
        (goButtonClicked_pressed before.window selectedIndex addr)
  | windowClosing =>
      obtain ⟨rfl, rfl⟩ := Prod.mk.inj (Except.ok.inj h)
      exact ⟨hdeaf, .inl rfl, by simp, id⟩
  | worker =>
      rw [step] at h
      split at h
      · obtain ⟨rfl, rfl⟩ := Prod.mk.inj (Except.ok.inj h)
        exact .of_window hdeaf hstuck (by simp) rfl
      · next worker hthread =>
        obtain ⟨result, hresult, h⟩ := bind_eq_ok.mp h
        obtain ⟨rfl, rfl⟩ := Prod.mk.inj (Except.ok.inj h)
        exact .of_worker hdeaf hstuck hthread hresult
  | command command =>
      obtain ⟨result, hresult, h⟩ := bind_eq_ok.mp h
      obtain ⟨rfl, rfl⟩ := Prod.mk.inj (Except.ok.inj h)
      obtain ⟨-, hlogs, hsame⟩ := sendCommand_spec hresult
      exact .of_window hdeaf hstuck (by simp [hlogs]) hsame
  | receiveFailed =>
      rw [step, if_neg (by rw [hdeaf]; decide)] at h
      obtain ⟨rfl, rfl⟩ := Prod.mk.inj (Except.ok.inj h)
      exact .of_window hdeaf hstuck (by simp) rfl
  | deliver i now leftovers link =>
      rw [step] at h
      split at h
      · obtain ⟨rfl, rfl⟩ := Prod.mk.inj (Except.ok.inj h)
        exact .of_window hdeaf hstuck (by simp) rfl
      · split at h
        · obtain ⟨rfl, hmoves⟩ := robotStep_spec hrunning h
          exact .of_window hdeaf hstuck (by simp) hmoves.window
        · split at h
          · next hreceiving => cases hdeaf.symm.trans hreceiving.2
          · obtain ⟨rfl, rfl⟩ := Prod.mk.inj (Except.ok.inj h)
            exact .of_window hdeaf hstuck (by simp) rfl
  | robot event =>
      obtain ⟨rfl, hmoves⟩ := robotStep_spec hrunning h
      exact .of_window hdeaf hstuck (by simp) hmoves.window

/-- The receive loop ends together with the connection thread. -/
theorem thread_of_step {before after : World} (hrunning : before.robot.Running)
    (hhears : before.window.receiving ≠ false) {event : WorldEvent} {logs : List Log}
    (h : step imencode endpoints before event = .ok (after, logs))
    (hdeaf : after.window.receiving = false) : after.window.connectionThread = none := by
  have hsame (heq : after.window.receiving = before.window.receiving) :
      after.window.connectionThread = none := absurd (heq.symm.trans hdeaf) hhears
  cases event with
  | go selectedIndex addr =>
      obtain ⟨rfl, rfl⟩ := Prod.mk.inj (Except.ok.inj h)
      exact hsame (goButtonClicked_pressed before.window selectedIndex addr).receiving
  | windowClosing =>
      obtain ⟨rfl, rfl⟩ := Prod.mk.inj (Except.ok.inj h)
      rfl
  | worker =>
      rw [step] at h
      split at h
      · obtain ⟨rfl, rfl⟩ := Prod.mk.inj (Except.ok.inj h)
        exact hsame rfl
      · next worker hthread =>
        obtain ⟨result, hresult, h⟩ := bind_eq_ok.mp h
        obtain ⟨rfl, rfl⟩ := Prod.mk.inj (Except.ok.inj h)
        obtain ⟨-, -, hkept, -⟩ := connectingWorker_spec hthread hresult
        exact hsame hkept
  | command command =>
      obtain ⟨result, hresult, h⟩ := bind_eq_ok.mp h
      obtain ⟨rfl, rfl⟩ := Prod.mk.inj (Except.ok.inj h)
      obtain ⟨-, -, hwindow⟩ := sendCommand_spec hresult
      exact hsame (congrArg MainWindow.receiving hwindow)
  | receiveFailed =>
      rw [step] at h
      split at h
      · obtain ⟨rfl, rfl⟩ := Prod.mk.inj (Except.ok.inj h)
        rfl
      · obtain ⟨rfl, rfl⟩ := Prod.mk.inj (Except.ok.inj h)
        exact hsame rfl
  | deliver i now leftovers link =>
      rw [step] at h
      split at h
      · obtain ⟨rfl, rfl⟩ := Prod.mk.inj (Except.ok.inj h)
        exact hsame rfl
      · split at h
        · obtain ⟨-, hmoves⟩ := robotStep_spec hrunning h
          exact hsame (congrArg MainWindow.receiving hmoves.window)
        · split at h
          · obtain ⟨result, hresult, h⟩ := bind_eq_ok.mp h
            obtain ⟨rfl, rfl⟩ := Prod.mk.inj (Except.ok.inj h)
            obtain ⟨-, -, hkept, -⟩ := packetReceiveCallback_spec hresult
            exact hsame hkept
          · obtain ⟨rfl, rfl⟩ := Prod.mk.inj (Except.ok.inj h)
            exact hsame rfl
  | robot event =>
      obtain ⟨-, hmoves⟩ := robotStep_spec hrunning h
      exact hsame (congrArg MainWindow.receiving hmoves.window)

theorem stuck_of_run {history : List Record} {world : World}
    (hrun : Run (system imencode endpoints) history world) :
    world.window.receiving = false → Stuck world.window := by
  refine hrun.induction (fun _ world => world.window.receiving = false →
    Stuck world.window) ?_ ?_
  · rintro world ⟨hwindow, -, -⟩ hdeaf
    rw [hwindow] at hdeaf
    cases hdeaf
  · rintro history before event after outputs hbefore ih ⟨henabled, hstep⟩ hafter
    have hrunning := running_of_run hbefore
    by_cases hdeaf : before.window.receiving = false
    · exact (staysDeaf_of_step hrunning hdeaf (ih hdeaf) hstep).stuck
    · exact .inl (thread_of_step hrunning hdeaf hstep hafter)

/-- What a deaf window has not got by then it does not get. -/
structure DeafSince (since : List Record) (first last : World) : Prop where
  receiving : last.window.receiving = false
  silent : ∀ record ∈ since, ¬ DeclaresSuccess record
  gained : last.window.isConnected = true → first.window.isConnected = true

/-- **A window that does not receive stays without a session**: from then on no success is
    declared, and a session that is given up does not come back. -/
theorem deaf_is_final {history : List Record} {world : World}
    (hrun : Run (system imencode endpoints) history world) :
    ∀ earlier record later, history = earlier ++ record :: later →
      record.before.window.receiving = false →
      DeafSince (record :: later) record.before world := by
  refine hrun.induction (fun history world => ∀ earlier record later,
    history = earlier ++ record :: later → record.before.window.receiving = false →
    DeafSince (record :: later) record.before world) ?_ ?_
  · intro world _ earlier record later hsplit
    exact absurd hsplit (by simp)
  · intro history before event after outputs hbefore ih ⟨_, hstep⟩ earlier record later hsplit
      hdeaf
    have hrunning := running_of_run hbefore
    rcases split_snoc hsplit with ⟨-, rfl, rfl⟩ | ⟨middle, rfl, rfl⟩
    · have hstays := staysDeaf_of_step hrunning hdeaf (stuck_of_run hbefore hdeaf) hstep
      refine ⟨hstays.receiving, fun other hmem => ?_, hstays.gained⟩
      rw [List.mem_singleton.mp hmem]
      exact hstays.silent
    · obtain ⟨hreceiving, hsilent, hgained⟩ := ih earlier record middle rfl hdeaf
      have hstays :=
        staysDeaf_of_step hrunning hreceiving (stuck_of_run hbefore hreceiving) hstep
      refine ⟨hstays.receiving, fun other hmem => ?_, fun h => hgained (hstays.gained h)⟩
      rw [← List.cons_append] at hmem
      rcases List.mem_append.mp hmem with hmem | hmem
      · exact hsilent other hmem
      · rw [List.mem_singleton.mp hmem]
        exact hstays.silent

/-- The receive loop ends during a session; then two more presses. -/
def deafPresses : List WorldEvent :=
  firstPress ++ [.receiveFailed, .go 0 (some (.v4 0xC0A80003)), .worker, .worker,
    .deliver 3 0 ⟨ZERO_DRIVE, ⟨0⟩⟩ ⟨true, true⟩, .worker]

theorem deaf_is_final_deafPresses : ∃ (earlier later : List Record) (record : Record)
    (world : World), Run (system (fun _ _ => none) HOSTS) (earlier ++ record :: later) world ∧
      record.before.window.receiving = false ∧ (record :: later).length = 5 ∧
      DeafSince (record :: later) record.before world := by
  have henabled : ∀ event ∈ deafPresses, Enabled event := by
    simp [deafPresses, firstPress, Enabled]
  obtain ⟨history, world, hrun, hview⟩ := exists_started_run deafPresses
    (fun (history : List Record) _ =>
      (history.map fun record => record.before.window.receiving).drop 12)
    [false, false, false, false, false] henabled (by decide +kernel)
  rw [← List.map_drop] at hview
  have hlength : (history.drop 12).length = 5 := by
    rw [← List.length_map (f := fun record : Record => record.before.window.receiving), hview]
    rfl
  obtain ⟨record, later, hdrop, hdeaf, -⟩ := List.map_eq_cons_iff.mp hview
  rw [hdrop] at hlength
  have hhistory : history = history.take 12 ++ record :: later := by
    rw [← hdrop, List.take_append_drop]
  rw [hhistory] at hrun
  exact ⟨history.take 12, later, record, world, hrun, hdeaf, hlength,
    deaf_is_final hrun _ record later rfl hdeaf⟩

end World

end Lame
