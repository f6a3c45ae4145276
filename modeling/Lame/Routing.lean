/-
  Lame/Routing.lean
  =================
  **Where the robot's packets go.**

  A reply goes to the sender of the datagram it answers, a heartbeat query to
  `aiAddr`, and what is meant for the base station to `baseStationAddr`.  The
  constructor does not initialise that field; the UDP loop assigns it on the first
  datagram that is not the AI's.  Two uses go astray.  The AI_INIT that begins the
  mining cycle is sent to whoever asked for AI mode, and nothing waits for the first
  assignment: the camera loop starts together with the UDP loop, and a switch to
  Remote mode is acknowledged to the base station even when the AI asked for it.
  `routed_iff` says that these are the only ways a run can go wrong.
-/
import Lame.RobotSteps

namespace Lame

open ByteMemory LabelledRuns

namespace Robot

variable {imencode : Mat → Nat → Option (List UInt8)} {threads : List Thread}

/-! ## 1. The two addresses over a run -/

theorem aiAddr_of_run {history : List Record} {robot : Robot}
    (hrun : Run (system imencode threads) history robot) :
    robot.aiAddr.sin_family = AF_INET ∧ robot.aiAddr.s_addr = INADDR_LOOPBACK := by
  refine induction_of_effect (fun _ robot => robot.aiAddr.sin_family = AF_INET ∧
    robot.aiAddr.s_addr = INADDR_LOOPBACK) ?_ (fun _ _ _ h => h) ?_ hrun
  · rintro robot ⟨ai_port, now, threads, hstarted⟩
    obtain ⟨-, rfl, -⟩ := run_eq_some_iff.mp hstarted
    exact ⟨rfl, rfl⟩
  · intro history before event after outputs _ hbefore heffect _
    rw [heffect.aiAddr_eq]
    exact hbefore

/-- The three comparisons of the UDP loop single out one address. -/
theorem isFromAi_iff_of_run {history : List Record} {robot : Robot}
    (hrun : Run (system imencode threads) history robot) (addr : SockAddr) :
    robot.isFromAi addr = true ↔ addr = robot.aiAddr := by
  obtain ⟨hfamily, hloopback⟩ := aiAddr_of_run hrun
  constructor
  · intro hai
    simp only [isFromAi, Bool.and_eq_true, beq_iff_eq] at hai
    obtain ⟨⟨hfrom, haddr⟩, hport⟩ := hai
    calc addr = ⟨addr.sin_family, addr.s_addr, addr.sin_port⟩ := rfl
      _ = ⟨robot.aiAddr.sin_family, robot.aiAddr.s_addr, robot.aiAddr.sin_port⟩ := by
        rw [hfrom, haddr, hport, hfamily, hloopback]
      _ = robot.aiAddr := rfl
  · rintro rfl
    simp [isFromAi, hfamily, hloopback]

/-- A datagram from elsewhere than the AI's address. -/
def FromOther (record : Record) : Prop :=
  ∃ bytes sender leftovers link, record.event = .datagram bytes sender leftovers link ∧
    sender ≠ record.before.aiAddr

theorem fromOther_snoc {history : List Record} {latest : Record} :
    (∃ record ∈ history ++ [latest], FromOther record) ↔
      (∃ record ∈ history, FromOther record) ∨ FromOther latest := by
  simp only [List.mem_append, List.mem_singleton, or_and_right, exists_or, exists_eq_left]

theorem heardFrom_of_ai {robot : Robot} {addr : SockAddr} (hai : robot.isFromAi addr = true) :
    robot.heardFrom addr = robot := if_pos hai

theorem heardFrom_of_other {robot : Robot} {addr : SockAddr}
    (hai : robot.isFromAi addr ≠ true) :
    (robot.heardFrom addr).baseStationAddr = some addr := by
  rw [heardFrom, if_neg hai]

/-- The address of the base station is assigned by the first datagram that is not the
    AI's, and by nothing before it. -/
theorem baseStationAddr_ne_none_iff_of_run {history : List Record} {robot : Robot}
    (hrun : Run (system imencode threads) history robot) :
    robot.baseStationAddr ≠ none ↔ ∃ record ∈ history, FromOther record := by
  refine induction_of_effect (fun history robot => robot.baseStationAddr ≠ none ↔
    ∃ record ∈ history, FromOther record) ?_ (fun _ _ _ h => h) ?_ hrun
  · rintro robot ⟨ai_port, now, threads, hstarted⟩
    obtain ⟨-, rfl, -⟩ := run_eq_some_iff.mp hstarted
    simp [create]
  · intro history before event after outputs hbefore ih heffect cells
    rw [fromOther_snoc, ← ih]
    cases heffect with
    | @datagram bytes sender leftovers link _ _ hhandles =>
        have hsender := isFromAi_iff_of_run hbefore sender
        rw [hhandles.baseStationAddr_eq]
        by_cases hai : before.isFromAi sender = true
        · rw [heardFrom_of_ai hai]
          constructor
          · intro hassigned
            exact .inl hassigned
          · rintro (hassigned | ⟨_, _, _, _, hevent, hother⟩)
            · exact hassigned
            · cases hevent
              exact absurd (hsender.mp hai) hother
        · rw [heardFrom_of_other hai]
          constructor
          · intro _
            refine .inr ⟨_, _, _, _, rfl, ?_⟩
            intro heq
            exact hai (hsender.mpr heq)
          · intro _
            exact Option.some_ne_none sender
    | _ =>
        -- the other loops and the clock leave the address alone and hear nobody
        constructor
        · intro hassigned
          exact .inl hassigned
        · rintro (hassigned | ⟨_, _, _, _, hevent, -⟩)
          · exact hassigned
          · cases hevent

/-! ## 2. Uses of the base station's address -/

variable (imencode)

/-- `SendCameraImage` up to the call of `Connect`: the address it is called with and
    the compressed image, `none` when the function returns before. -/
def imageConnect (robot : Robot) (id : Nat) (link : ImageLink) :
    Option (Option SockAddr × List UInt8) :=
  let img := if id = 0 then robot.latestCameraFrame else robot.latestCamera1Frame
  if img = [] then none
  else match imencode img robot.quality with
    | none => none
    | some raw_compressed_data =>
        if !link.opened then none
        else
          let img_addr := robot.baseStationAddr.map fun addr =>
            { addr with sin_port := BASE_IMAGE_PORT }
          some (img_addr, raw_compressed_data)

/-- The image goes to the address that was connected to. -/
theorem sendCameraImage_eq (robot : Robot) (id : Nat) (link : ImageLink) :
    sendCameraImage imencode robot id link =
      match imageConnect imencode robot id link with
      | none => []
      | some (img_addr, data) =>
          if !link.connected then []
          else [.image img_addr (imageHeader data.length id) data] := by
  rw [sendCameraImage, imageConnect]
  dsimp only
  generalize (if id = 0 then robot.latestCameraFrame else robot.latestCamera1Frame) = img
  by_cases himg : img = []
  · rw [if_pos himg, if_pos himg]
  · rw [if_neg himg, if_neg himg]
    cases imencode img robot.quality with
    | none => rfl
    | some data => cases link.opened <;> rfl

/-- There is a frame, the encoder takes it and a socket can be opened for it. -/
def ImageReady (robot : Robot) (id : Nat) (link : ImageLink) : Prop :=
  (if id = 0 then robot.latestCameraFrame else robot.latestCamera1Frame) ≠ [] ∧
    (imencode (if id = 0 then robot.latestCameraFrame else robot.latestCamera1Frame)
      robot.quality).isSome ∧ link.opened = true

theorem isSome_imageConnect_iff (robot : Robot) (id : Nat) (link : ImageLink) :
    (imageConnect imencode robot id link).isSome ↔ ImageReady imencode robot id link := by
  rw [imageConnect, ImageReady]
  generalize (if id = 0 then robot.latestCameraFrame else robot.latestCamera1Frame) = img
  by_cases himg : img = []
  · simp [himg]
  · rw [if_neg himg]
    cases imencode img robot.quality with
    | none => simp
    | some data => cases link.opened <;> simp [himg]

/-- The iteration takes `base`, the contents of `baseStationAddr`, for a destination. -/
inductive UsesBaseStation (robot : Robot) : Event → Option SockAddr → Prop where
  | remoteSwitch {bytes : List UInt8} {sender : SockAddr} {leftovers : Leftovers}
      {link : ImageLink} (hop : requestedOpcode bytes = some REMOTE_SWITCH_OPCODE) :
      UsesBaseStation robot (.datagram bytes sender leftovers link)
        (robot.heardFrom sender).baseStationAddr
  | queryCameraImage {bytes : List UInt8} {sender : SockAddr} {leftovers : Leftovers}
      {link : ImageLink} {id : Nat}
      (hop : id = 0 ∧ requestedOpcode bytes = some QUERY_CAMERA_IMAGE_OPCODE ∨
        id = 1 ∧ requestedOpcode bytes = some QUERY_CAMERA1_IMAGE_OPCODE)
      (hconnect : (imageConnect imencode (robot.heardFrom sender) id link).isSome) :
      UsesBaseStation robot (.datagram bytes sender leftovers link)
        (robot.heardFrom sender).baseStationAddr
  | cameraSend {link : ImageLink} (hconnect : (imageConnect imencode robot 1 link).isSome) :
      UsesBaseStation robot (.cameraSend link) robot.baseStationAddr
  | aiTimeout (hmode : robot.currentMode = .ai)
      (hdead : robot.now - robot.lastAIHeartbeatReceivedTime > AI_TIMEOUT_INTERVAL) :
      UsesBaseStation robot .aiHeartbeat robot.baseStationAddr

variable {imencode}

/-- The address of an image is that of the base station, with the image port. -/
theorem dest_of_image {robot : Robot} {id : Nat} {link : ImageLink}
    {dest : Option SockAddr} {header data : List UInt8}
    (hmem : .image dest header data ∈ sendCameraImage imencode robot id link) :
    (imageConnect imencode robot id link).isSome ∧
      dest = robot.baseStationAddr.map fun addr =>
        { addr with sin_port := BASE_IMAGE_PORT } := by
  have hready := isSome_imageConnect_iff imencode robot id link
  rw [sendCameraImage_eq] at hmem
  cases hconnect : imageConnect imencode robot id link with
  | none =>
      rw [hconnect] at hmem
      cases hmem
  | some connection =>
      refine ⟨rfl, ?_⟩
      rw [hconnect] at hmem hready
      obtain ⟨himg, hencoded, hopened⟩ := hready.mp rfl
      obtain ⟨raw, hraw⟩ := Option.isSome_iff_exists.mp hencoded
      rw [imageConnect, if_neg himg, hraw, hopened] at hconnect
      cases hlink : link.connected with
      | false =>
          rw [hlink] at hmem
          cases hmem
      | true =>
          rw [hlink] at hmem
          obtain ⟨rfl, -, -⟩ := Output.image.inj (List.mem_singleton.mp hmem)
          exact (congrArg Prod.fst (Option.some.inj hconnect)).symm

/-! ## 3. What an iteration sends, and where -/

variable (imencode) in
/-- The outputs of an iteration by destination.  AI_INIT is told apart from the other
    packets. -/
inductive Sends (robot : Robot) : Event → Output → Prop where
  | reply {bytes sent : List UInt8} {sender : SockAddr} {leftovers : Leftovers}
      {link : ImageLink} (hsent : sent ≠ Message.aiInit.frame) :
      Sends robot (.datagram bytes sender leftovers link) (.udp sent (some sender))
  | aiInit {bytes : List UInt8} {sender : SockAddr} {leftovers : Leftovers}
      {link : ImageLink} (hop : requestedOpcode bytes = some AI_SWITCH_OPCODE)
      (hconnected : robot.aiConnected = true) :
      Sends robot (.datagram bytes sender leftovers link)
        (.udp Message.aiInit.frame (some sender))
  | toAi {event : Event} {sent : List UInt8} (hsent : sent ≠ Message.aiInit.frame) :
      Sends robot event (.udp sent (some robot.aiAddr))
  | toBaseStation {event : Event} {sent : List UInt8} {base : Option SockAddr}
      (hsent : sent ≠ Message.aiInit.frame)
      (huses : UsesBaseStation imencode robot event base) : Sends robot event (.udp sent base)
  | image {event : Event} {base : Option SockAddr} {header data : List UInt8}
      (huses : UsesBaseStation imencode robot event base) :
      Sends robot event
        (.image (base.map fun addr => { addr with sin_port := BASE_IMAGE_PORT }) header data)
  | serial {event : Event} {bytes : List UInt8} : Sends robot event (.serial bytes)

theorem Sends.of_aiInit {robot : Robot} {event : Event} {dest : Option SockAddr}
    (h : Sends imencode robot event (.udp Message.aiInit.frame dest)) :
    ∃ bytes sender leftovers link, event = .datagram bytes sender leftovers link ∧
      requestedOpcode bytes = some AI_SWITCH_OPCODE ∧ robot.aiConnected = true ∧
      dest = some sender := by
  generalize houtput : Output.udp Message.aiInit.frame dest = output at h
  cases h with
  | aiInit hop hconnected =>
      exact ⟨_, _, _, _, rfl, hop, hconnected, (Output.udp.inj houtput).2⟩
  | reply hsent | toAi hsent | toBaseStation hsent =>
      exact absurd (Output.udp.inj houtput).1.symm hsent
  | image | serial => cases houtput

theorem sends_of_sendCameraImage {robot after : Robot} {event : Event} {id : Nat}
    {link : ImageLink} {output : Output}
    (huses : (imageConnect imencode after id link).isSome →
      UsesBaseStation imencode robot event after.baseStationAddr)
    (hmem : output ∈ sendCameraImage imencode after id link) :
    Sends imencode robot event output := by
  rcases sendCameraImage_cases imencode after id link with hnone | ⟨dest, data, hone⟩
  · rw [hnone] at hmem
    cases hmem
  · rw [hone] at hmem
    obtain rfl := List.mem_singleton.mp hmem
    obtain ⟨hconnect, rfl⟩ := dest_of_image (by rw [hone]; exact List.mem_singleton_self _)
    exact .image (huses hconnect)

theorem Handles.sends {robot next : Robot} {bytes : List UInt8} {sender : SockAddr}
    {link : ImageLink} {outputs : List Output}
    (h : Handles imencode robot bytes sender link next outputs) (leftovers : Leftovers) :
    ∀ output ∈ outputs, Sends imencode robot (.datagram bytes sender leftovers link) output := by
  have hack : Message.switchModeAck.frame ≠ Message.aiInit.frame := by decide
  intro output hmem
  cases h with
  | queryHeartbeat | queryHeartbeatAi =>
      obtain rfl := List.mem_singleton.mp hmem
      exact .reply (by decide)
  | aiSwitch hop =>
      rcases List.mem_cons.mp hmem with rfl | hmem
      · exact .reply hack
      · split at hmem
        · next hconnected =>
          obtain rfl := List.mem_singleton.mp hmem
          exact .aiInit hop (by rwa [heardFrom_aiConnected] at hconnected)
        · cases hmem
  | remoteSwitch hop =>
      obtain rfl := List.mem_singleton.mp hmem
      exact .toBaseStation hack (.remoteSwitch hop)
  | queryCameraImage id hop =>
      apply sends_of_sendCameraImage _ hmem
      intro hconnect
      exact .queryCameraImage hop hconnect
  | encoder =>
      obtain rfl := List.mem_singleton.mp hmem
      exact .serial
  | ignored | directSwitch | setCameraQuality | drive => cases hmem

section Effect

variable {robot next : Robot} {event : Event} {outputs : List Output}

theorem Effect.sends (h : Effect imencode robot event next outputs) :
    ∀ output ∈ outputs, Sends imencode robot event output := by
  intro output hmem
  cases h with
  | datagram hhandles => exact hhandles.sends _ output hmem
  | executeDirect | executeRemote =>
      obtain rfl := List.mem_singleton.mp hmem
      exact .serial
  | cameraSend =>
      apply sends_of_sendCameraImage _ hmem
      intro hconnect
      exact .cameraSend hconnect
  | aiHeartbeatQuery =>
      obtain rfl := List.mem_singleton.mp hmem
      exact .toAi (by decide)
  | aiHeartbeatTimeout hmode hdead =>
      rcases List.mem_cons.mp hmem with rfl | hmem
      · exact .toBaseStation (by decide) (.aiTimeout hmode hdead)
      · obtain rfl := List.mem_singleton.mp hmem
        exact .toAi (by decide)
  | tick | udpReadFailed | serialRead | executeIdle | cameraRead | aiHeartbeatIdle => cases hmem

/-- A request for AI mode is answered with AI_INIT while the AI is connected. -/
theorem Effect.aiInit_mem (h : Effect imencode robot event next outputs) {bytes : List UInt8}
    {sender : SockAddr} {leftovers : Leftovers} {link : ImageLink}
    (hevent : event = .datagram bytes sender leftovers link)
    (hop : requestedOpcode bytes = some AI_SWITCH_OPCODE) (hconnected : robot.aiConnected = true) :
    .udp Message.aiInit.frame (some sender) ∈ outputs := by
  cases h with
  | datagram hhandles =>
      cases hevent
      rw [hhandles.of_aiSwitch hop, if_pos (by rw [heardFrom_aiConnected]; exact hconnected)]
      exact List.mem_cons_of_mem _ (List.mem_singleton_self _)
  | _ => cases hevent

end Effect

/-! ## 4. Routing -/

/-- AI_INIT goes to the AI, and goes out whenever AI mode is requested while the AI is
    connected. -/
def RoutesAiInit (record : Record) : Prop :=
  (∀ dest, .udp Message.aiInit.frame dest ∈ record.outputs → dest = some record.before.aiAddr) ∧
  (record.event.requested = some AI_SWITCH_OPCODE → record.before.aiConnected = true →
    ∃ dest, .udp Message.aiInit.frame dest ∈ record.outputs)

variable (imencode)

/-- The address of the base station is used after a datagram from elsewhere than the AI
    only, and is assigned by then. -/
def RoutesBaseStation (earlier : List Record) (record : Record) : Prop :=
  ∀ base, UsesBaseStation imencode record.before record.event base →
    (∃ heard ∈ earlier ++ [record], FromOther heard) ∧ base ≠ none

def Routed (history : List Record) : Prop :=
  ∀ earlier record later, history = earlier ++ record :: later →
    RoutesAiInit record ∧ RoutesBaseStation imencode earlier record

/-- What needs the address of the base station without bringing it along. -/
inductive NeedsBaseStation (robot : Robot) : Event → Prop where
  | remoteSwitch {bytes : List UInt8} {leftovers : Leftovers} {link : ImageLink}
      (hop : requestedOpcode bytes = some REMOTE_SWITCH_OPCODE) :
      NeedsBaseStation robot (.datagram bytes robot.aiAddr leftovers link)
  | queryCameraImage {bytes : List UInt8} {leftovers : Leftovers} {link : ImageLink} {id : Nat}
      (hop : id = 0 ∧ requestedOpcode bytes = some QUERY_CAMERA_IMAGE_OPCODE ∨
        id = 1 ∧ requestedOpcode bytes = some QUERY_CAMERA1_IMAGE_OPCODE)
      (hready : ImageReady imencode robot id link) :
      NeedsBaseStation robot (.datagram bytes robot.aiAddr leftovers link)
  | cameraSend {link : ImageLink} (hready : ImageReady imencode robot 1 link) :
      NeedsBaseStation robot (.cameraSend link)
  | aiTimeout (hmode : robot.currentMode = .ai)
      (hdead : robot.now - robot.lastAIHeartbeatReceivedTime > AI_TIMEOUT_INTERVAL) :
      NeedsBaseStation robot .aiHeartbeat

/-- AI mode is requested from a robot with a connected AI by the AI alone, and what needs
    an address for the base station finds one. -/
structure StaysClear (robot : Robot) (event : Event) : Prop where
  aiSwitch : ∀ bytes sender leftovers link, event = .datagram bytes sender leftovers link →
    requestedOpcode bytes = some AI_SWITCH_OPCODE → robot.aiConnected = true →
    sender = robot.aiAddr
  baseStation : NeedsBaseStation imencode robot event → robot.baseStationAddr ≠ none

variable {imencode}

theorem NeedsBaseStation.uses {robot : Robot} {event : Event}
    (hai : robot.isFromAi robot.aiAddr = true) (h : NeedsBaseStation imencode robot event) :
    UsesBaseStation imencode robot event robot.baseStationAddr := by
  have hheard := heardFrom_of_ai hai
  cases h with
  | @remoteSwitch bytes leftovers link hop =>
      have huses := @UsesBaseStation.remoteSwitch imencode robot bytes robot.aiAddr leftovers
        link hop
      rwa [hheard] at huses
  | @queryCameraImage bytes leftovers link id hop hready =>
      have hconnect := (isSome_imageConnect_iff imencode robot id link).mpr hready
      have huses := @UsesBaseStation.queryCameraImage imencode robot bytes robot.aiAddr leftovers
        link id hop (by rwa [hheard])
      rwa [hheard] at huses
  | cameraSend hready => exact .cameraSend ((isSome_imageConnect_iff _ _ _ _).mpr hready)
  | aiTimeout hmode hdead => exact .aiTimeout hmode hdead

/-- A use of the base station's address is either served by the datagram at hand or
    needs an earlier one. -/
theorem UsesBaseStation.cases_heard {record : Record} {base : Option SockAddr}
    (hai : ∀ addr, record.before.isFromAi addr = true ↔ addr = record.before.aiAddr)
    (h : UsesBaseStation imencode record.before record.event base) :
    FromOther record ∧ base ≠ none ∨
      NeedsBaseStation imencode record.before record.event ∧
        base = record.before.baseStationAddr := by
  obtain ⟨robot, event, outputs, after⟩ := record
  dsimp only at hai h ⊢
  have hother {bytes : List UInt8} {sender : SockAddr} {leftovers : Leftovers}
      {link : ImageLink} (hsender : robot.isFromAi sender ≠ true) :
      FromOther ⟨robot, .datagram bytes sender leftovers link, outputs, after⟩ ∧
        (robot.heardFrom sender).baseStationAddr ≠ none := by
    constructor
    · refine ⟨_, _, _, _, rfl, ?_⟩
      intro heq
      exact hsender ((hai sender).mpr heq)
    · rw [heardFrom_of_other hsender]
      exact Option.some_ne_none sender
  cases h with
  | @remoteSwitch bytes sender leftovers link hop =>
      by_cases hsender : robot.isFromAi sender = true
      · obtain rfl := (hai sender).mp hsender
        exact .inr ⟨.remoteSwitch hop, by rw [heardFrom_of_ai hsender]⟩
      · exact .inl (hother hsender)
  | @queryCameraImage bytes sender leftovers link id hop hconnect =>
      by_cases hsender : robot.isFromAi sender = true
      · obtain rfl := (hai sender).mp hsender
        rw [heardFrom_of_ai hsender] at hconnect ⊢
        exact .inr ⟨.queryCameraImage hop ((isSome_imageConnect_iff _ _ _ _).mp hconnect), rfl⟩
      · exact .inl (hother hsender)
  | cameraSend hconnect =>
      exact .inr ⟨.cameraSend ((isSome_imageConnect_iff _ _ _ _).mp hconnect), rfl⟩
  | aiTimeout hmode hdead => exact .inr ⟨.aiTimeout hmode hdead, rfl⟩

/-- **Routing.**  Every packet of a run goes where it should exactly when each step
    stays clear of the two defects. -/
theorem routed_iff {history : List Record} {robot : Robot}
    (hrun : Run (system imencode threads) history robot) :
    Routed imencode history ↔
      ∀ record ∈ history, StaysClear imencode record.before record.event := by
  constructor
  · intro hrouted record hmem
    obtain ⟨earlier, later, rfl⟩ := List.append_of_mem hmem
    obtain ⟨⟨hdest, -⟩, hbase⟩ := hrouted earlier record later rfl
    obtain ⟨next, heffect⟩ := effect_of_run hrun
    have hai := (isFromAi_iff_of_run hrun.split.1 record.before.aiAddr).mpr rfl
    constructor
    · -- the AI_INIT goes to the sender, and in a routed run to the AI
      intro bytes sender leftovers link hevent hop hconnected
      exact Option.some.inj (hdest _ (heffect.aiInit_mem hevent hop hconnected))
    · intro hneeds
      exact (hbase _ (hneeds.uses hai)).2
  · rintro hclear earlier record later rfl
    obtain ⟨haiSwitch, hbase⟩ := hclear record (by simp)
    obtain ⟨next, heffect⟩ := effect_of_run hrun
    have hbefore := hrun.split.1
    refine ⟨⟨?_, ?_⟩, ?_⟩
    · intro dest hmem
      obtain ⟨bytes, sender, leftovers, link, hevent, hop, hconnected, rfl⟩ :=
        (heffect.sends _ hmem).of_aiInit
      rw [haiSwitch bytes sender leftovers link hevent hop hconnected]
    · intro hop hconnected
      obtain ⟨bytes, sender, leftovers, link, hevent, hop⟩ := Event.exists_datagram hop
      exact ⟨_, heffect.aiInit_mem hevent hop hconnected⟩
    · intro base huses
      rcases huses.cases_heard (isFromAi_iff_of_run hbefore) with
        ⟨hother, hassigned⟩ | ⟨hneeds, rfl⟩
      · exact ⟨⟨record, by simp, hother⟩, hassigned⟩
      · -- an assigned address has been brought by an earlier datagram
        have hassigned := hbase hneeds
        obtain ⟨heard, hmem, hother⟩ :=
          (baseStationAddr_ne_none_iff_of_run hbefore).mp hassigned
        exact ⟨⟨heard, List.mem_append_left _ hmem, hother⟩, hassigned⟩

/-- The address a packet is sent to, none on the serial line. -/
def destination : Output → Option (Option SockAddr)
  | .udp _ dest => some dest
  | .image dest _ _ => some dest
  | .serial _ => none

theorem Sends.assigned {robot : Robot} {event : Event} {output : Output}
    (h : Sends imencode robot event output)
    (hbase : ∀ base, UsesBaseStation imencode robot event base → base ≠ none) :
    destination output ≠ some none := by
  cases h with
  | reply | aiInit | toAi | serial => simp [destination]
  | toBaseStation _ huses | image huses => simpa [destination] using hbase _ huses

/-- Nothing leaves a routed run for an address that was never assigned. -/
theorem destination_of_routed {history : List Record} {robot : Robot}
    (hrun : Run (system imencode threads) history robot) (hrouted : Routed imencode history) :
    ∀ record ∈ history, ∀ output ∈ record.outputs, destination output ≠ some none := by
  intro record hmem output houtput
  obtain ⟨earlier, later, rfl⟩ := List.append_of_mem hmem
  obtain ⟨next, heffect⟩ := effect_of_run hrun
  obtain ⟨-, hbase⟩ := hrouted earlier record later rfl
  exact (heffect.sends output houtput).assigned fun base huses => (hbase base huses).2

/-- A camera that delivers a frame before anything has been heard. -/
def earlyCamera : List Event := [.cameraRead [] [7], .cameraSend ⟨true, true⟩]

theorem routed_iff_earlyCamera : ∃ (history : List Record) (robot : Robot),
    Run (system (fun img _ => some img) startedThreads) history robot ∧
      ¬ Routed (fun img _ => some img) history := by
  obtain ⟨history, robot, hrun, hviews⟩ := exists_started_run (fun img _ => some img)
    earlyCamera (fun (history : List Record) _ => history.map fun record =>
      (record.event, record.before.baseStationAddr, record.before.latestCamera1Frame))
    [(.cameraRead [] [7], none, []), (.cameraSend ⟨true, true⟩, none, [7])]
    (by decide) (by decide)
  refine ⟨history, robot, hrun, fun hrouted => ?_⟩
  obtain ⟨read, history, rfl, -, hviews⟩ := List.map_eq_cons_iff.mp hviews
  obtain ⟨send, history, rfl, hsend, -⟩ := List.map_eq_cons_iff.mp hviews
  simp only [Prod.mk.injEq] at hsend
  obtain ⟨hevent, hbase, hframe⟩ := hsend
  refine ((routed_iff hrun).mp hrouted send (by simp)).baseStation ?_ hbase
  rw [hevent]
  exact .cameraSend ⟨by simp [hframe], rfl, rfl⟩

/-- The AI reports, then the base station asks for AI mode. -/
def aiTakesOver : List Event :=
  [datagramOf .queryHeartbeat ⟨AF_INET, INADDR_LOOPBACK, 6000⟩,
    datagramOf (.noPayload AI_SWITCH_OPCODE) BASE_STATION]

/-- The AI_INIT goes to the base station. -/
theorem not_routed_aiTakesOver : ¬ ∀ (imencode : Mat → Nat → Option (List UInt8))
    (history : List Record) (robot : Robot),
    Run (system imencode startedThreads) history robot → Routed imencode history := by
  intro hclaim
  obtain ⟨history, robot, hrun, hviews⟩ := exists_started_run (fun _ _ => none) aiTakesOver
    (fun (history : List Record) _ => history.map fun (record : Record) =>
      (record.before.aiAddr,
        decide (Output.udp Message.aiInit.frame (some BASE_STATION) ∈ record.outputs)))
    [(⟨AF_INET, INADDR_LOOPBACK, 6000⟩, false), (⟨AF_INET, INADDR_LOOPBACK, 6000⟩, true)]
    (by decide) (by decide)
  have hrouted := hclaim _ history robot hrun
  obtain ⟨heartbeat, history, rfl, -, hviews⟩ := List.map_eq_cons_iff.mp hviews
  obtain ⟨switch, history, rfl, hswitch, -⟩ := List.map_eq_cons_iff.mp hviews
  simp only [Prod.mk.injEq, decide_eq_true_eq] at hswitch
  obtain ⟨haddr, hmem⟩ := hswitch
  obtain ⟨⟨hdest, -⟩, -⟩ := hrouted [heartbeat] switch history rfl
  have hsame := Option.some.inj (hdest _ hmem)
  rw [haddr] at hsame
  exact absurd hsame (by decide)

end Robot

end Lame
