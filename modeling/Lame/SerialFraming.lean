/-
  Lame/SerialFraming.lean
  =======================
  **What reaches the microcontroller.**

  Two loops write to the serial line.  `Execute` builds a drive packet and writes
  the frame.  The UDP loop forwards ENABLE_ENCODER and DISABLE_ENCODER, but from
  the buffer that `ReadPacketHeader` has decoded in place, so what it forwards is
  a packet without its framing.  With requests from `PacketHandler`, the line
  carries complete frames exactly as long as neither is requested.
-/
import Lame.PacketHandler
import Lame.RobotSteps

namespace Lame

open ByteMemory LabelledRuns SectionStuffing PacketHandler

/-! ## 1. Complete frames -/

/-- One complete COBS frame of a packet in the documented format. -/
structure CompleteFrame (bytes : List UInt8) : Prop where
  /-- Non-empty, with a single zero, at the end. -/
  delimited : ∃ body, bytes = body ++ [0] ∧ 0 ∉ body
  decodes : ∃ (packet : Packet) (cells : List UInt8),
    decodeCOBS bytes (UInt8.ofNat bytes.length) =
      .ok (cells, UInt8.ofNat packet.bytes.length) ∧
    cells.take packet.bytes.length = packet.bytes

theorem Packet.completeFrame (packet : Packet) : CompleteFrame packet.frame := by
  have hsize := packet.size_le
  refine ⟨⟨stuff packet.bytes, rfl, zero_not_mem_stuff ?_⟩, packet,
    decodedCells packet.frame, ?_, ?_⟩
  · rw [packet.length_bytes]
    omega
  · have hdecode := decodeCOBS_decoded packet.frame []
      (by rw [packet.length_frame]; omega) (by rw [packet.length_frame]; omega)
    rwa [List.append_nil, List.append_nil, packet.decoded_frame] at hdecode
  · obtain ⟨last, hcells⟩ := packet.decodedCells_frame
    rw [hcells, List.take_left]

theorem Message.completeFrame {message : Message} (hend : message.lacksEndByte = false) :
    CompleteFrame message.frame := by
  have hsize := message.payloadSize_le
  let packet : Packet := ⟨message.opcode, message.payloadBytes, by
    change message.payloadSize ≤ 249
    omega⟩
  have hframe : message.frame = packet.frame := by
    rw [Message.frame, Message.body, Message.endByte, hend]
    rfl
  rw [hframe]
  exact packet.completeFrame

/-- A decoded message without payload is no frame: its size byte is a zero. -/
theorem Message.not_completeFrame_decodedCells {message : Message}
    (hnone : message.payloadSize = 0) : ¬ CompleteFrame (decodedCells message.frame) := by
  rintro ⟨⟨body, hbody, hzero⟩, -⟩
  obtain ⟨last, hcells⟩ := message.decodedCells_frame
  have hsplit : message.body ++ [last, 0] = (message.body ++ [last]) ++ [0] := by simp
  rw [hcells, hsplit] at hbody
  obtain ⟨rfl, -⟩ := List.append_inj' hbody rfl
  refine hzero (List.mem_append_left _ ?_)
  rw [Message.body, hnone]
  simp

namespace Robot

variable {imencode : Mat → Nat → Option (List UInt8)} {threads : List Thread}

/-! ## 2. The writers of the serial line -/

/-- A request that the UDP loop forwards to the microcontroller. -/
def Forwards (opcode : Option UInt8) : Prop :=
  opcode = some ENABLE_ENCODER_OPCODE ∨ opcode = some DISABLE_ENCODER_OPCODE

theorem Forwards.exists_datagram {event : Event} (h : Forwards event.requested) :
    ∃ bytes sender leftovers link, event = .datagram bytes sender leftovers link := by
  have hrequested : ∃ opcode, event.requested = some opcode := by
    rcases h with hop | hop
    · exact ⟨_, hop⟩
    · exact ⟨_, hop⟩
  obtain ⟨opcode, hop⟩ := hrequested
  obtain ⟨bytes, sender, leftovers, link, hevent, -⟩ := Event.exists_datagram hop
  exact ⟨bytes, sender, leftovers, link, hevent⟩

theorem serial_not_mem_sendCameraImage (robot : Robot) (id : Nat) (link : ImageLink)
    (bytes : List UInt8) : .serial bytes ∉ sendCameraImage imencode robot id link := by
  rcases sendCameraImage_cases imencode robot id link with hnone | ⟨dest, data, hone⟩
  · rw [hnone]
    exact List.not_mem_nil
  · rw [hone]
    simp

theorem Handles.serial {robot next : Robot} {datagram bytes : List UInt8} {addr : SockAddr}
    {link : ImageLink} {outputs : List Output}
    (h : Handles imencode robot datagram addr link next outputs)
    (hmem : .serial bytes ∈ outputs) : Forwards (requestedOpcode datagram) := by
  cases h with
  | encoder hop => exact hop
  | queryCameraImage id hop =>
      exact absurd hmem (serial_not_mem_sendCameraImage _ _ _ _)
  | aiSwitch hop =>
      rcases List.mem_cons.mp hmem with hmem | hmem
      · cases hmem
      · split at hmem
        · simp at hmem
        · exact absurd hmem List.not_mem_nil
  | _ => simp at hmem

theorem Handles.outputs_of_forwards {robot next : Robot} {datagram : List UInt8}
    {addr : SockAddr} {link : ImageLink} {outputs : List Output}
    (h : Handles imencode robot datagram addr link next outputs)
    (hforwards : Forwards (requestedOpcode datagram)) :
    outputs = [.serial (decodedCells (delivered datagram))] := by
  cases h with
  | encoder => rfl
  | ignored hop =>
      rcases hforwards with hforwards | hforwards <;>
        exact absurd (by decide) (hop _ hforwards)
  | queryCameraImage id hop =>
      rcases hop with ⟨-, hop⟩ | ⟨-, hop⟩ <;> rw [hop] at hforwards <;>
        rcases hforwards with hforwards | hforwards <;>
        exact absurd (Option.some.inj hforwards) (by decide)
  | queryHeartbeat hop | queryHeartbeatAi hop | aiSwitch hop | remoteSwitch hop
  | directSwitch hop | setCameraQuality _ _ hop | drive _ hop =>
      rw [hop] at hforwards
      rcases hforwards with hforwards | hforwards <;>
        exact absurd (Option.some.inj hforwards) (by decide)

theorem Effect.outputs_of_forwards {robot next : Robot} {datagram : List UInt8}
    {sender : SockAddr} {leftovers : Leftovers} {link : ImageLink} {outputs : List Output}
    (h : Effect imencode robot (.datagram datagram sender leftovers link) next outputs)
    (hforwards : Forwards (requestedOpcode datagram)) :
    outputs = [.serial (decodedCells (delivered datagram))] := by
  cases h with
  | datagram hhandles => exact hhandles.outputs_of_forwards hforwards

/-- Everything else on the line is a drive frame. -/
theorem Effect.serial {robot next : Robot} {event : Event} {outputs : List Output}
    (h : Effect imencode robot event next outputs) {bytes : List UInt8}
    (hmem : .serial bytes ∈ outputs) :
    Forwards event.requested ∨ ∃ payload, bytes = (Message.drive payload).frame := by
  cases h with
  | datagram hhandles => exact .inl (hhandles.serial hmem)
  | executeDirect js leftovers =>
      exact .inr ⟨_, Output.serial.inj (List.mem_singleton.mp hmem)⟩
  | executeRemote js leftovers =>
      exact .inr ⟨_, Output.serial.inj (List.mem_singleton.mp hmem)⟩
  | cameraSend link => exact absurd hmem (serial_not_mem_sendCameraImage _ _ _ _)
  | _ => simp at hmem

/-! ## 3. Runs with the base station's requests -/

/-- Every datagram that arrives was built by `PacketHandler`. -/
def BuiltByHandler (history : List Record) : Prop :=
  ∀ record ∈ history, ∀ bytes sender leftovers link,
    record.event = .datagram bytes sender leftovers link →
    ∃ request : Request, request.packet = .ok bytes

def SerialFramed (history : List Record) : Prop :=
  ∀ record ∈ history, ∀ bytes, .serial bytes ∈ record.outputs → CompleteFrame bytes

theorem not_completeFrame_of_forwards (request : Request)
    (h : Forwards (some request.message.opcode)) :
    ¬ CompleteFrame (decodedCells request.message.frame) := by
  refine Message.not_completeFrame_decodedCells ?_
  cases request with
  | drive sent => rcases h with h | h <;> cases h
  | setCameraQuality cq => rcases h with h | h <;> cases h
  | setCameraLocation cl => rcases h with h | h <;> cases h
  | _ => rfl

/-- **Serial framing**: with requests built by `PacketHandler`, everything on the
    serial line is a complete frame exactly when no request to enable or disable
    the encoders is handled. -/
theorem serialFramed_iff {history : List Record} {robot : Robot}
    (hrun : Run (system imencode threads) history robot) (hbuilt : BuiltByHandler history) :
    SerialFramed history ↔ ∀ record ∈ history, ¬ Forwards record.event.requested := by
  constructor
  · intro hframed record hmem hforwards
    obtain ⟨earlier, later, rfl⟩ := List.append_of_mem hmem
    obtain ⟨next, heffect⟩ := effect_of_run hrun
    obtain ⟨bytes, sender, leftovers, link, hevent⟩ := hforwards.exists_datagram
    obtain ⟨request, hrequest⟩ := hbuilt record hmem bytes sender leftovers link hevent
    rw [request.packet_eq] at hrequest
    obtain rfl := Except.ok.inj hrequest
    rw [hevent] at hforwards heffect
    have hwritten : Output.serial (decodedCells request.message.frame) ∈ record.outputs := by
      rw [heffect.outputs_of_forwards hforwards, request.message.delivered_frame]
      exact List.mem_singleton_self _
    refine not_completeFrame_of_forwards request ?_ (hframed record hmem _ hwritten)
    rwa [← Message.requestedOpcode_frame request.lacksEndByte_message]
  · intro hnone record hmem bytes hbytes
    obtain ⟨earlier, later, rfl⟩ := List.append_of_mem hmem
    obtain ⟨next, heffect⟩ := effect_of_run hrun
    rcases heffect.serial hbytes with hforwards | ⟨payload, rfl⟩
    · exact absurd hforwards (hnone record hmem)
    · exact Message.completeFrame rfl

theorem exists_encoder_run : ∃ (history : List Record) (robot : Robot),
    Run (system (fun _ _ => none) startedThreads) history robot ∧ BuiltByHandler history ∧
      ∃ record ∈ history, Forwards record.event.requested ∧
        .serial [0xAB, 0x4A, 0, 0x7F, 0x7F, 0] ∈ record.outputs := by
  obtain ⟨history, robot, hrun, hview⟩ := exists_started_run (fun _ _ => none)
    [datagramOf .enableEncoder BASE_STATION]
    (fun (history : List Record) _ => history.map fun record => (record.event, record.outputs))
    [(datagramOf .enableEncoder BASE_STATION, [.serial [0xAB, 0x4A, 0, 0x7F, 0x7F, 0]])]
    (by decide) (by decide)
  obtain ⟨record, history, rfl, hrecord, hview⟩ := List.map_eq_cons_iff.mp hview
  obtain rfl := List.map_eq_nil_iff.mp hview
  obtain ⟨hevent, houtputs⟩ := Prod.mk.inj hrecord
  refine ⟨_, robot, hrun, ?_, record, List.mem_singleton_self _, ?_, ?_⟩
  · intro record' hmem bytes sender leftovers link hdatagram
    rw [List.mem_singleton.mp hmem, hevent] at hdatagram
    exact ⟨.enableEncoder, by rw [Request.packet_eq, (Event.datagram.inj hdatagram).1.symm]; rfl⟩
  · rw [hevent]
    exact .inl (by decide)
  · rw [houtputs]
    exact List.mem_singleton_self _

theorem serialFramed_iff_encoder_run : ∃ (history : List Record) (robot : Robot),
    Run (system (fun _ _ => none) startedThreads) history robot ∧ BuiltByHandler history ∧
      ¬ SerialFramed history := by
  obtain ⟨history, robot, hrun, hbuilt, record, hmem, hforwards, -⟩ := exists_encoder_run
  exact ⟨history, robot, hrun, hbuilt,
    fun hframed => (serialFramed_iff hrun hbuilt).mp hframed record hmem hforwards⟩

/-- The request reaches the line as `AB 4A 00 7F 7F 00`. -/
theorem not_serialFramed_of_run : ¬ ∀ (imencode : Mat → Nat → Option (List UInt8))
    (history : List Record) (robot : Robot),
    Run (system imencode startedThreads) history robot → BuiltByHandler history →
    SerialFramed history := by
  intro hclaim
  obtain ⟨history, robot, hrun, hbuilt, record, hmem, -, hwritten⟩ := exists_encoder_run
  have hcomplete := hclaim _ history robot hrun hbuilt record hmem _ hwritten
  have hcells : decodedCells Request.enableEncoder.message.frame =
      [0xAB, 0x4A, 0, 0x7F, 0x7F, 0] := by decide
  rw [← hcells] at hcomplete
  exact not_completeFrame_of_forwards .enableEncoder (.inl rfl) hcomplete

end Robot

end Lame
