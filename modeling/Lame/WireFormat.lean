/-
  Lame/WireFormat.lean
  ====================
  **Which messages a receiver can tell apart.**

  Stuffing is injective, so a frame determines the opcode and the payload bytes,
  and every payload layout parses back.  What remains is whether the opcodes tell
  the builders apart.  They do, with two exceptions: `QUERY_LOCATION_OPCODE` and
  `REPORT_HEARTBEAT_OPCODE` are the same number, and `CreateSetLocationPacket`
  hands its payload to `CreateReportLocationPacket`, although the header reserves
  a third number for it.
-/
import Lame.Messages

namespace Lame

open SectionStuffing

namespace Message

/-! ## 1. Meanings and frames -/

def clampHeading (payload : LocationPayload) : LocationPayload :=
  { payload with heading := clamp payload.heading 180 (-180) }

/-- A message as its receiver is meant to see it: the heading is clamped. -/
def meaning : Message → Message
  | .reportLocation payload => .reportLocation (clampHeading payload)
  | .setLocation payload => .setLocation (clampHeading payload)
  | message => message

/-- `CreateNoPayloadPacket` stands for no kind of its own: called with the opcode of
    a message without payload it is that message's builder. -/
def SameMeaning (first second : Message) : Prop :=
  first.meaning = second.meaning ∨
    (first.payloadSize = 0 ∧ second = .noPayload first.opcode) ∨
    (second.payloadSize = 0 ∧ first = .noPayload second.opcode)

/-- The builder returns this frame from some zeroed buffer of sufficient size. -/
def Produces (message : Message) (frame : List UInt8) : Prop :=
  ∃ (n : Nat) (length : UInt8), message.frameLength ≤ length.toNat ∧ length.toNat ≤ n ∧
    ∃ buffer ret, message.create (List.replicate n 0) length = .ok (buffer, ret) ∧
      buffer.take ret = frame

theorem produces_iff (message : Message) (frame : List UInt8) :
    message.Produces frame ↔ frame = message.frame := by
  constructor
  · rintro ⟨n, length, hlength, hn, buffer, ret, hcreate, rfl⟩
    obtain ⟨pkt, hpkt, htake⟩ := message.create_sent n length hlength hn
    obtain ⟨rfl, rfl⟩ := Prod.mk.inj (Except.ok.inj (hcreate.symm.trans hpkt))
    exact htake
  · rintro rfl
    obtain ⟨-, hsize⟩ := message.frameLength_bounds
    have hlength : message.frameLength ≤ (18 : UInt8).toNat := hsize
    obtain ⟨pkt, hpkt, htake⟩ := message.create_sent 18 18 hlength (Nat.le_refl _)
    exact ⟨18, 18, hlength, Nat.le_refl _, pkt, _, hpkt, htake⟩

/-- A frame determines what was written into it. -/
theorem opcode_payloadBytes_of_frame {first second : Message}
    (h : first.frame = second.frame) :
    first.opcode = second.opcode ∧ first.payloadBytes = second.payloadBytes := by
  have hsize (message : Message) : message.body.length ≤ 253 := by
    have hle := message.payloadSize_le
    rw [length_body]
    omega
  have hbody : first.body = second.body :=
    stuff_injective (hsize first) (hsize second) (List.append_cancel_right h)
  rw [body, body] at hbody
  obtain ⟨-, hbody⟩ := List.cons.inj hbody
  obtain ⟨hop, hbody⟩ := List.cons.inj hbody
  obtain ⟨-, hbody⟩ := List.cons.inj hbody
  exact ⟨hop, (List.append_inj' hbody rfl).1⟩

/-! ## 2. Which messages share their bytes -/

/-- The builders of messages without payload. -/
def WRAPPERS : List Message :=
  [.queryHeartbeat, .reportHeartbeat, .switchModeAck, .remoteSwitch, .aiInit, .queryLocation,
    .queryEncoder, .enableEncoder, .disableEncoder, .queryCameraImage, .queryCamera1Image]

/-- Two messages that mean different things and look the same. -/
def Clashes : Message → Message → Prop
  | .queryLocation, .reportHeartbeat | .reportHeartbeat, .queryLocation => True
  | .reportLocation first, .setLocation second | .setLocation first, .reportLocation second =>
      clampHeading first = clampHeading second
  | _, _ => False

theorem opcode_wrappers : ∀ first ∈ WRAPPERS, ∀ second ∈ WRAPPERS,
    first.opcode = second.opcode → first = second ∨
      (first = .queryLocation ∧ second = .reportHeartbeat) ∨
      (first = .reportHeartbeat ∧ second = .queryLocation) := by
  decide

theorem noPayload_or_wrapper {message : Message} (h : message.payloadSize = 0) :
    (∃ opcode, message = .noPayload opcode) ∨ message ∈ WRAPPERS := by
  cases message with
  | noPayload opcode => exact .inl ⟨opcode, rfl⟩
  | drive | setQualityCamera | setCameraLocation | reportLocation | setLocation
  | reportEncoder => cases h
  | _ => exact .inr (by decide)

theorem sameMeaning_or_clashes_of_payloadSize_zero {first second : Message}
    (hfirst : first.payloadSize = 0) (hsecond : second.payloadSize = 0)
    (hop : first.opcode = second.opcode) : first.SameMeaning second ∨ first.Clashes second := by
  rcases noPayload_or_wrapper hfirst with ⟨opcode, rfl⟩ | hwrapper
  · exact .inl (.inr (.inr ⟨hsecond, by rw [← hop]; rfl⟩))
  rcases noPayload_or_wrapper hsecond with ⟨opcode, rfl⟩ | hwrapper'
  · exact .inl (.inr (.inl ⟨hfirst, by rw [hop]; rfl⟩))
  rcases opcode_wrappers first hwrapper second hwrapper' hop with
    rfl | ⟨rfl, rfl⟩ | ⟨rfl, rfl⟩
  · exact .inl (.inl rfl)
  · exact .inr trivial
  · exact .inr trivial

theorem eq_of_parse {β : Type} (parse : Option (List UInt8) → β → ByteMemory.Exec β)
    {payload : Option (List UInt8)} {sent sent' : β}
    (hsent : ∀ old, parse payload old = .ok sent)
    (hsent' : ∀ old, parse payload old = .ok sent') : sent = sent' :=
  Except.ok.inj ((hsent sent).symm.trans (hsent' sent))

/-- Payloads of one builder are recovered by its `Parse…` function, and payloads of
    different builders have different sizes. -/
theorem sameMeaning_or_clashes {first second : Message} (hop : first.opcode = second.opcode)
    (hbytes : first.payloadBytes = second.payloadBytes) :
    first.SameMeaning second ∨ first.Clashes second := by
  have hsize : first.payloadSize = second.payloadSize := congrArg List.length hbytes
  have hfirst := first.recovers_payloadBytes []
  have hsecond := second.recovers_payloadBytes []
  rw [← hbytes] at hsecond
  cases first with
  | drive sent =>
      cases second with
      | drive sent' =>
          exact .inl (.inl (congrArg Message.drive
            (eq_of_parse parseDrivePayload hfirst hsecond)))
      | _ => simp [payloadSize, payloadBytes, locationBytes] at hsize
  | setQualityCamera sent =>
      cases second with
      | setQualityCamera sent' =>
          exact .inl (.inl (congrArg Message.setQualityCamera
            (eq_of_parse parseQualityPayload hfirst hsecond)))
      | _ => simp [payloadSize, payloadBytes, locationBytes] at hsize
  | setCameraLocation sent =>
      cases second with
      | setCameraLocation sent' =>
          exact .inl (.inl (congrArg Message.setCameraLocation
            (eq_of_parse parseCameraLocationPayload hfirst hsecond)))
      | _ => simp [payloadSize, payloadBytes, locationBytes] at hsize
  | reportLocation sent =>
      cases second with
      | reportLocation sent' =>
          exact .inl (.inl (congrArg Message.reportLocation
            (eq_of_parse parseLocationPayload hfirst hsecond)))
      | setLocation sent' =>
          exact .inr (eq_of_parse parseLocationPayload hfirst hsecond)
      | _ => simp [payloadSize, payloadBytes, locationBytes] at hsize
  | setLocation sent =>
      cases second with
      | reportLocation sent' =>
          exact .inr (eq_of_parse parseLocationPayload hfirst hsecond)
      | setLocation sent' =>
          exact .inl (.inl (congrArg Message.setLocation
            (eq_of_parse parseLocationPayload hfirst hsecond)))
      | _ => simp [payloadSize, payloadBytes, locationBytes] at hsize
  | reportEncoder sent =>
      cases second with
      | reportEncoder sent' =>
          exact .inl (.inl (congrArg Message.reportEncoder
            (eq_of_parse parseEncoderPayload hfirst hsecond)))
      | _ => simp [payloadSize, payloadBytes, locationBytes] at hsize
  | _ => exact sameMeaning_or_clashes_of_payloadSize_zero rfl hsize.symm hop

/-! ## 3. The wire format -/

theorem frame_of_clashes {first second : Message} (h : first.Clashes second) :
    first.frame = second.frame := by
  have hlocation {sent sent' : LocationPayload}
      (hclamp : clampHeading sent = clampHeading sent') :
      (Message.reportLocation sent).frame = (Message.setLocation sent').frame := by
    obtain ⟨hx, hy, hheading⟩ := LocationPayload.mk.inj hclamp
    have hbytes : locationBytes sent = locationBytes sent' := by
      rw [locationBytes, locationBytes, hx, hy, hheading]
    rw [frame, frame, body, body, payloadBytes, payloadBytes, payloadSize, payloadSize,
      payloadBytes, payloadBytes, hbytes]
    rfl
  unfold Clashes at h
  split at h
  · rfl
  · rfl
  · exact hlocation h
  · exact (hlocation h.symm).symm
  · cases h

theorem not_sameMeaning_of_clashes {first second : Message} (h : first.Clashes second) :
    ¬ first.SameMeaning second := by
  unfold Clashes at h
  split at h
  · simp [SameMeaning, meaning]
  · simp [SameMeaning, meaning]
  · simp [SameMeaning, meaning]
  · simp [SameMeaning, meaning]
  · cases h

/-- **The wire format is unambiguous but for two pairs of builders.**  Two messages
    that share a frame mean the same exactly when they are not a location query
    and a heartbeat report, nor a report and a target of the same location. -/
theorem unambiguous_iff (first second : Message) :
    (∀ frame, first.Produces frame → second.Produces frame → first.SameMeaning second) ↔
      ¬ first.Clashes second := by
  constructor
  · intro hsame hclash
    refine not_sameMeaning_of_clashes hclash (hsame first.frame ?_ ?_)
    · exact (first.produces_iff _).mpr rfl
    · exact (second.produces_iff _).mpr (frame_of_clashes hclash)
  · intro hclash frame hfirst hsecond
    have hframes : first.frame = second.frame :=
      ((first.produces_iff frame).mp hfirst).symm.trans ((second.produces_iff frame).mp hsecond)
    obtain ⟨hop, hbytes⟩ := opcode_payloadBytes_of_frame hframes
    exact (sameMeaning_or_clashes hop hbytes).resolve_right hclash

/-- The frame of a heartbeat report is that of a location query. -/
theorem ambiguous_heartbeat :
    ¬ ∀ (first second : Message) (frame : List UInt8), first.Produces frame →
      second.Produces frame → first.SameMeaning second := by
  intro hclaim
  have hclash : Message.reportHeartbeat.Clashes .queryLocation := trivial
  refine not_sameMeaning_of_clashes hclash (hclaim _ _ [3, 0xAB, 0x44, 2, 0x7F, 0] ?_ ?_)
  · exact (produces_iff _ _).mpr (by decide)
  · exact (produces_iff _ _).mpr (by decide)

end Message

end Lame
