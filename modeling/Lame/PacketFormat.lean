/-
  Lame/PacketFormat.lean
  ======================
  **The documented packet format and what `ReadPacketHeader` accepts.**

  The README fixes the layout `header, opcode, payload size, payload, 0x7F`;
  `Packet` is that layout with a payload short enough for a `uint8_t` frame
  length, and `Packet.frame` is its COBS frame with the delimiter.

  `ReadPacketHeader` calls its check "simplistic".  `readPacketHeader_eq` says
  exactly what it is: on the bytes `decodeCOBS` produces it compares the first
  with the header byte and the last with the end byte, and nothing else.  The
  size byte, the delimiter and the end of the code chain are never looked at.
-/
import Lame.Packet

namespace Lame

open ByteMemory SectionStuffing

/-! ## 1. The documented format -/

/-- A packet whose frame length fits a `uint8_t`. -/
structure Packet where
  opcode : UInt8
  payload : List UInt8
  size_le : payload.length ≤ 249

/-- `[0xAB, opcode, |payload|, payload…, 0x7F]`. -/
def Packet.bytes (packet : Packet) : List UInt8 :=
  PKT_HEADER_BYTE :: packet.opcode :: UInt8.ofNat packet.payload.length ::
    (packet.payload ++ [PKT_END_BYTE])

def Packet.frame (packet : Packet) : List UInt8 := stuff packet.bytes ++ [0]

@[simp] theorem Packet.length_bytes (packet : Packet) :
    packet.bytes.length = packet.payload.length + 4 := by
  simp [Packet.bytes]

/-! ## 2. What the decoder makes of a buffer -/

/-- The bytes `decodeCOBS` produces from a buffer, read at its full length: it
    starts on the first byte and never reads the last one. -/
def decoded : List UInt8 → List UInt8
  | [] => []
  | code :: rest => unstuff 0 code rest.dropLast

def decodedCells : List UInt8 → List UInt8
  | [] => []
  | code :: rest =>
      unstuff 0 code rest.dropLast ++ residue code rest.dropLast ++ rest.getLast?.toList

@[simp] theorem decoded_split (code last : UInt8) (todo : List UInt8) :
    decoded (code :: (todo ++ [last])) = unstuff 0 code todo := by
  simp [decoded]

@[simp] theorem decodedCells_split (code last : UInt8) (todo : List UInt8) :
    decodedCells (code :: (todo ++ [last])) =
      unstuff 0 code todo ++ residue code todo ++ [last] := by
  simp [decodedCells]

theorem decoded_prefix (buffer : List UInt8) : decoded buffer <+: decodedCells buffer := by
  cases buffer with
  | nil => exact List.prefix_refl _
  | cons code rest => exact ⟨_, (List.append_assoc _ _ _).symm⟩

@[simp] theorem length_decodedCells (buffer : List UInt8) :
    (decodedCells buffer).length = buffer.length := by
  cases buffer with
  | nil => rfl
  | cons code rest =>
      rcases List.eq_nil_or_concat rest with rfl | ⟨todo, last, rfl⟩
      · rfl
      · have hsum := length_unstuff_add_residue 0 code code todo
        simp [decodedCells]
        omega

/-- The decoder never produces the last two cells. -/
theorem length_decoded_le (buffer : List UInt8) :
    (decoded buffer).length ≤ buffer.length - 2 := by
  cases buffer with
  | nil => simp [decoded]
  | cons code rest =>
      have h := length_unstuff_le 0 code rest.dropLast
      simp only [decoded, List.length_cons]
      simp only [List.length_dropLast] at h
      omega

theorem exists_split_of_two_le {buffer : List UInt8} (h : 2 ≤ buffer.length) :
    ∃ code todo last, buffer = code :: (todo ++ [last]) := by
  cases buffer with
  | nil => simp at h
  | cons code rest =>
      rcases List.eq_nil_or_concat rest with rfl | ⟨todo, last, rfl⟩
      · simp at h
      · exact ⟨code, todo, last, by simp⟩

theorem decodeCOBS_decoded (buffer back : List UInt8)
    (hlow : 2 ≤ buffer.length) (hhigh : buffer.length ≤ 255) :
    decodeCOBS (buffer ++ back) (UInt8.ofNat buffer.length) =
      .ok (decodedCells buffer ++ back, UInt8.ofNat (decoded buffer).length) := by
  obtain ⟨code, todo, last, rfl⟩ := exists_split_of_two_le hlow
  have hval : (UInt8.ofNat (code :: (todo ++ [last])).length).toNat =
      (code :: (todo ++ [last])).length :=
    UInt8.toNat_ofNat_of_lt' (by simp only [UInt8.size]; omega)
  have hcount : todo.length + 2 = max (UInt8.ofNat (code :: (todo ++ [last])).length).toNat 2 := by
    rw [hval]
    simp
  have h := decodeCOBS_eq code todo (last :: back) hcount
  rw [decoded_split, decodedCells_split]
  simpa using h

/-! ## 3. `ReadPacketHeader` on any buffer -/

/-- The whole check: the decoded bytes begin with the header byte and end with
    the end byte. -/
def Accepted (buffer : List UInt8) : Prop :=
  (decoded buffer).head? = some PKT_HEADER_BYTE ∧
    (decoded buffer).getLast? = some PKT_END_BYTE

instance (buffer : List UInt8) : Decidable (Accepted buffer) := by
  unfold Accepted
  infer_instance

def decodedOpcode (buffer : List UInt8) : UInt8 := ((decoded buffer)[1]?).getD 0

/-- The header byte differs from the end byte, so an accepted buffer decodes to
    two bytes or more. -/
theorem Accepted.exists_bytes {buffer : List UInt8} (h : Accepted buffer) :
    ∃ middle, decoded buffer = PKT_HEADER_BYTE :: (middle ++ [PKT_END_BYTE]) := by
  obtain ⟨hhead, hlast⟩ := h
  obtain ⟨rest, hrest⟩ := List.head?_eq_some_iff.mp hhead
  rw [hrest] at hlast ⊢
  rcases List.eq_nil_or_concat rest with rfl | ⟨middle, last, rfl⟩
  · exact absurd hlast (by decide)
  · refine ⟨middle, ?_⟩
    rw [List.concat_eq_append] at hlast ⊢
    rw [List.getLast?_cons, List.getLast?_concat] at hlast
    simp only [Option.getD_some, Option.some.injEq] at hlast
    rw [hlast]

theorem Accepted.two_le {buffer : List UInt8} (h : Accepted buffer) :
    2 ≤ (decoded buffer).length := by
  obtain ⟨middle, hbytes⟩ := h.exists_bytes
  simp [hbytes]

/-- A decoder that stops on its first byte leaves a zero in the first cell. -/
theorem head_decodedCells_of_decoded_nil {buffer : List UInt8} (hlow : 3 ≤ buffer.length)
    (hnil : decoded buffer = []) : ∃ rest, decodedCells buffer = 0 :: rest := by
  obtain ⟨code, todo, last, rfl⟩ := exists_split_of_two_le (by omega : 2 ≤ buffer.length)
  cases todo with
  | nil => simp at hlow
  | cons b todo =>
      rw [decoded_split] at hnil
      have hb : b = 0 := by
        by_contra hb
        simp only [unstuff, if_neg hb] at hnil
        split at hnil <;> cases hnil
      subst hb
      exact ⟨0 :: (todo ++ [last]), by rw [decodedCells_split]; simp [unstuff, residue]⟩

/-- **What `ReadPacketHeader` does**, for every content of the first `length`
    cells and of the rest of the array. -/
theorem readPacketHeader_eq (buffer back : List UInt8)
    (hlow : PKT_MIN_SIZE ≤ buffer.length) (hhigh : buffer.length ≤ 255) (opcode : UInt8)
    (payload : Option (List UInt8)) :
    readPacketHeader (buffer ++ back) (UInt8.ofNat buffer.length) opcode payload =
      .ok (if Accepted buffer then
          { buffer := decodedCells buffer ++ back
            ret := (decoded buffer).length
            opcode := decodedOpcode buffer
            payload :=
              if (decoded buffer).length = PKT_MIN_SIZE then none
              else some ((decodedCells buffer ++ back).drop PKT_PAYLOAD_START_INDEX) }
        else ⟨decodedCells buffer ++ back, 0, opcode, payload⟩) := by
  simp only [PKT_MIN_SIZE] at hlow
  have hval : (UInt8.ofNat buffer.length).toNat = buffer.length :=
    UInt8.toNat_ofNat_of_lt' (by simp only [UInt8.size]; omega)
  have hsize := length_decoded_le buffer
  have hlen : (UInt8.ofNat (decoded buffer).length).toNat = (decoded buffer).length :=
    UInt8.toNat_ofNat_of_lt' (by simp only [UInt8.size]; omega)
  rw [readPacketHeader, if_neg (by simp only [hval, PKT_MIN_SIZE]; omega),
    decodeCOBS_decoded buffer back (by omega) hhigh, ok_bind]
  dsimp only
  obtain ⟨tail, hcells⟩ := decoded_prefix buffer
  rcases hout : decoded buffer with _ | ⟨first, out⟩
  · -- nothing decoded: the first cell is zero, so `buffer[length - 1]` is never reached
    obtain ⟨rest, hzero⟩ := head_decodedCells_of_decoded_nil (by omega) hout
    have hrej : ¬ Accepted buffer := fun h => by
      have := h.two_le
      simp [hout] at this
    rw [if_neg hrej, hzero]
    rfl
  · rw [hout] at hlen hcells
    have hload : load (decodedCells buffer ++ back) PKT_HDR_INDEX = .ok first := by
      rw [← hcells]
      rfl
    rw [hload, ok_bind]
    by_cases hfirst : first = PKT_HEADER_BYTE
    · rw [if_neg (not_not_intro hfirst)]
      obtain ⟨front, last, hsplit⟩ : ∃ front last, first :: out = front ++ [last] := by
        rcases List.eq_nil_or_concat (first :: out) with hnil | ⟨front, last, hsplit⟩
        · exact absurd hnil (List.cons_ne_nil _ _)
        · exact ⟨front, last, by simpa using hsplit⟩
      have hlast : loadInt (decodedCells buffer ++ back)
          ((UInt8.ofNat (first :: out).length).toNat - 1 : Int) = .ok last := by
        have hload := load_split front (tail ++ back) last rfl
        have hindex : ((first :: out).length : Int) - 1 = (front.length : Int) := by
          rw [hsplit]
          simp
        rw [hlen, loadInt, hindex, if_neg (by omega), Int.toNat_natCast, ← hcells, hsplit]
        simpa using hload
      rw [hlast, ok_bind]
      have hend : (decoded buffer).getLast? = some last := by
        rw [hout, hsplit, List.getLast?_concat]
      by_cases hmatch : last = PKT_END_BYTE
      · have hacc : Accepted buffer :=
          ⟨by rw [hout, hfirst]; rfl, by rw [hend, hmatch]⟩
        obtain ⟨second, rest, hrest⟩ : ∃ second rest, out = second :: rest := by
          have htwo := hacc.two_le
          rw [hout] at htwo
          cases out with
          | nil => simp at htwo
          | cons second rest => exact ⟨second, rest, rfl⟩
        have hop : load (decodedCells buffer ++ back) PKT_OP_INDEX =
            .ok (decodedOpcode buffer) := by
          rw [decodedOpcode, hout, ← hcells, hrest]
          rfl
        rw [if_neg (not_not_intro hmatch), hop, ok_bind, if_pos hacc, hlen]
        rfl
      · have hrej : ¬ Accepted buffer := fun h => hmatch (by
          have := h.2
          rw [hend] at this
          exact Option.some.inj this)
        rw [if_pos hmatch, if_neg hrej]
        rfl
    · have hrej : ¬ Accepted buffer := fun h => hfirst (by
        have := h.1
        rw [hout] at this
        exact Option.some.inj this)
      rw [if_pos hfirst, if_neg hrej]
      rfl

/-- A length below the minimum is rejected before anything is read. -/
theorem readPacketHeader_short {buffer : List UInt8} {length : UInt8}
    (h : length.toNat < PKT_MIN_SIZE) (opcode : UInt8) (payload : Option (List UInt8)) :
    readPacketHeader buffer length opcode payload = .ok ⟨buffer, 0, opcode, payload⟩ := by
  rw [readPacketHeader, if_pos h]
  rfl

/-! ## 4. Complete frames -/

theorem decoded_stuff {data : List UInt8} (hsize : data.length ≤ 253) :
    decoded (stuff data ++ [0]) = data := by
  obtain ⟨code, todo, hstuff, hunstuff⟩ := unstuff_stuff data (by omega)
  simp [decoded, hstuff, hunstuff]

/-- The cells after decoding a complete frame: the data, the frame's last code
    region byte, the delimiter. -/
theorem decodedCells_stuff {data : List UInt8} (hsize : data.length ≤ 253) :
    ∃ last, decodedCells (stuff data ++ [0]) = data ++ [last, 0] := by
  have hlen := length_stuff data
  have hval : (UInt8.ofNat (stuff data ++ [0]).length) = UInt8.ofNat (data.length + 2) := by
    rw [List.length_append, hlen, List.length_singleton]
  have h := decodeCOBS_decoded (stuff data ++ [0]) [] (by simp [hlen])
    (by simp [hlen]; omega)
  obtain ⟨last, hdecode⟩ := decodeCOBS_stuff data [] hsize
  rw [hval, List.append_nil, hdecode] at h
  refine ⟨last, ?_⟩
  simpa using (congrArg Prod.fst (Except.ok.inj h)).symm

theorem Packet.decoded_frame (packet : Packet) : decoded packet.frame = packet.bytes :=
  decoded_stuff (by have := packet.size_le; simp; omega)

theorem Packet.accepted_frame (packet : Packet) : Accepted packet.frame := by
  rw [Accepted, packet.decoded_frame]
  have hbytes : packet.bytes = (PKT_HEADER_BYTE :: packet.opcode ::
      UInt8.ofNat packet.payload.length :: packet.payload) ++ [PKT_END_BYTE] := rfl
  exact ⟨rfl, by rw [hbytes, List.getLast?_concat]⟩

theorem Packet.length_frame (packet : Packet) :
    packet.frame.length = packet.payload.length + 6 := by
  simp [Packet.frame, length_stuff]

/-- Stuffing is injective, so a frame determines its packet bytes. -/
theorem stuff_injective {first second : List UInt8} (hfirst : first.length ≤ 253)
    (hsecond : second.length ≤ 253) (h : stuff first = stuff second) : first = second := by
  rw [← decoded_stuff hfirst, h, decoded_stuff hsecond]

theorem Packet.decodedCells_frame (packet : Packet) :
    ∃ last, decodedCells packet.frame = packet.bytes ++ [last, 0] :=
  decodedCells_stuff (by have := packet.size_le; simp; omega)

/-- A complete frame whose decoded size byte is right and that passes the check is
    a frame of the documented format. -/
theorem Accepted.exists_packet {body : List UInt8} (hbody : body.length ≤ 254)
    (hzero : 0 ∉ body) (hlands : Lands body 0) (hfour : 4 ≤ (decoded (body ++ [0])).length)
    (hsize : (decoded (body ++ [0]))[2]? =
      some (UInt8.ofNat ((decoded (body ++ [0])).length - 4)))
    (h : Accepted (body ++ [0])) : ∃ packet : Packet, body ++ [0] = packet.frame := by
  have hne : body ≠ [] := by
    rintro rfl
    simp [decoded, unstuff] at hfour
  obtain ⟨data, hstuff, hlen⟩ := stuff_surjective hne hzero hlands
  have hdecoded : decoded (body ++ [0]) = data := by
    rw [← hstuff]
    exact decoded_stuff (by omega)
  obtain ⟨middle, hbytes⟩ := h.exists_bytes
  rw [hbytes] at hfour hsize
  rcases middle with _ | ⟨op, _ | ⟨size, payload⟩⟩
  · simp at hfour
  · simp at hfour
  · -- the third decoded byte is the size byte of the documented packet
    have hpayload : size = UInt8.ofNat payload.length := by
      simpa using hsize
    have hdata : data = PKT_HEADER_BYTE :: op :: size :: (payload ++ [PKT_END_BYTE]) := by
      rw [← hdecoded, hbytes]
      rfl
    have hle : payload.length ≤ 249 := by
      have hcount := congrArg List.length hdata
      simp at hcount
      omega
    refine ⟨⟨op, payload, hle⟩, ?_⟩
    rw [← hstuff, Packet.frame, Packet.bytes, hdata, hpayload]

/-! ## 5. Acceptance -/

/-- The header of a frame is that of its packet. -/
theorem Packet.readPacketHeader_frame (packet : Packet) (hlength : packet.frame.length ≤ 255)
    (opcode : UInt8) (payload : Option (List UInt8)) :
    ∃ rest, readPacketHeader packet.frame (UInt8.ofNat packet.frame.length) opcode payload =
      .ok { buffer := packet.bytes ++ rest
            ret := packet.payload.length + 4
            opcode := packet.opcode
            payload :=
              if packet.payload = [] then none
              else some (packet.payload ++ PKT_END_BYTE :: rest) } := by
  obtain ⟨last, hcells⟩ := packet.decodedCells_frame
  have hframe := packet.length_frame
  have hread := readPacketHeader_eq packet.frame []
    (by simp only [PKT_MIN_SIZE]; omega) hlength opcode payload
  rw [if_pos packet.accepted_frame, hcells, packet.decoded_frame, packet.length_bytes,
    List.append_nil, List.append_nil] at hread
  refine ⟨[last, 0], hread.trans ?_⟩
  have hop : decodedOpcode packet.frame = packet.opcode := by
    rw [decodedOpcode, packet.decoded_frame]
    rfl
  rw [hop]
  cases hpayload : packet.payload with
  | nil => simp [PKT_MIN_SIZE]
  | cons b bs => simp [PKT_MIN_SIZE, PKT_PAYLOAD_START_INDEX, Packet.bytes, hpayload]

/-- A nonzero result stands for the decoded bytes, and only accepted ones get it. -/
theorem readPacketHeader_verdict (buffer : List UInt8) (hlength : buffer.length ≤ 255)
    (opcode : UInt8) (payload : Option (List UInt8)) :
    ∃ header,
      readPacketHeader buffer (UInt8.ofNat buffer.length) opcode payload = .ok header ∧
      (header.ret ≠ 0 ↔ PKT_MIN_SIZE ≤ buffer.length ∧ Accepted buffer) ∧
      (header.ret ≠ 0 →
        header.ret = (decoded buffer).length ∧ 2 ≤ header.ret ∧
        header.ret ≤ buffer.length - 2 ∧ decoded buffer = header.buffer.take header.ret ∧
        (decoded buffer)[1]? = some header.opcode ∧
        header.payload =
          if header.ret = 4 then none else some (header.buffer.drop 3)) := by
  by_cases hshort : buffer.length < PKT_MIN_SIZE
  · have hval : (UInt8.ofNat buffer.length).toNat = buffer.length :=
      UInt8.toNat_ofNat_of_lt' (by simp only [UInt8.size]; omega)
    refine ⟨_, readPacketHeader_short (by rwa [hval]) opcode payload, ?_, ?_⟩
    · simp only [ne_eq, not_true_eq_false, false_iff, not_and]
      intro hlow
      exact absurd hlow (Nat.not_le.mpr hshort)
    · simp
  · have hlow : PKT_MIN_SIZE ≤ buffer.length := Nat.not_lt.mp hshort
    have hread := readPacketHeader_eq buffer [] hlow hlength opcode payload
    rw [List.append_nil] at hread
    refine ⟨_, hread, ?_⟩
    by_cases hacc : Accepted buffer
    · have htwo := hacc.two_le
      have hbound := length_decoded_le buffer
      obtain ⟨tail, hcells⟩ := decoded_prefix buffer
      rw [if_pos hacc]
      refine ⟨⟨fun _ => ⟨hlow, hacc⟩, fun _ => by dsimp only; omega⟩, fun _ => ?_⟩
      refine ⟨rfl, htwo, hbound, ?_, ?_, rfl⟩
      · simp [← hcells]
      · rw [decodedOpcode, List.getElem?_eq_getElem (by omega), Option.getD_some]
    · rw [if_neg hacc]
      exact ⟨⟨fun h => absurd rfl h, fun h => absurd h.2 hacc⟩, fun h => absurd rfl h⟩

/-- **What `ReadPacketHeader` accepts.**  Every frame of the documented format is
    read back.  In general the function returns, and a buffer with at least the four fixed
    bytes behind its encoding passes when header and end byte are there; on complete
    frames with a right size byte this is the documented format. -/
theorem readPacketHeader_accepts (buffer : List UInt8) (hlength : buffer.length ≤ 255)
    (opcode : UInt8) (payload : Option (List UInt8)) :
    (∀ packet : Packet, buffer = packet.frame →
      ∃ rest, readPacketHeader buffer (UInt8.ofNat buffer.length) opcode payload =
        .ok { buffer := packet.bytes ++ rest
              ret := packet.payload.length + 4
              opcode := packet.opcode
              payload :=
                if packet.payload = [] then none
                else some (packet.payload ++ PKT_END_BYTE :: rest) }) ∧
    (∃ header,
      readPacketHeader buffer (UInt8.ofNat buffer.length) opcode payload = .ok header ∧
      (4 ≤ (decoded buffer).length →
        (header.ret ≠ 0 ↔ Accepted buffer) ∧
        (header.ret ≠ 0 →
          header.ret = (decoded buffer).length ∧ header.ret ≤ buffer.length - 2 ∧
          decoded buffer = header.buffer.take header.ret ∧
          (decoded buffer)[1]? = some header.opcode ∧
          header.payload =
            if header.ret = 4 then none else some (header.buffer.drop 3)))) ∧
    (∀ body, buffer = body ++ [0] → 0 ∉ body → Lands body 0 →
      4 ≤ (decoded buffer).length →
      (decoded buffer)[2]? = some (UInt8.ofNat ((decoded buffer).length - 4)) →
      (Accepted buffer ↔ ∃ packet : Packet, buffer = packet.frame)) := by
  refine ⟨?_, ?_, ?_⟩
  · rintro packet rfl
    exact packet.readPacketHeader_frame hlength opcode payload
  · obtain ⟨header, hread, hverdict, hdelivers⟩ :=
      readPacketHeader_verdict buffer hlength opcode payload
    refine ⟨header, hread, fun hfour => ⟨?_, fun hret => ?_⟩⟩
    · have hbound := length_decoded_le buffer
      have hlow : PKT_MIN_SIZE ≤ buffer.length := by
        simp only [PKT_MIN_SIZE]
        omega
      rw [hverdict, and_iff_right hlow]
    · obtain ⟨hlen, -, hdelivered⟩ := hdelivers hret
      exact ⟨hlen, hdelivered⟩
  · rintro body rfl hzero hlands hfour hsize
    constructor
    · exact Accepted.exists_packet (by simp at hlength; omega) hzero hlands hfour hsize
    · rintro ⟨packet, hpacket⟩
      rw [hpacket]
      exact packet.accepted_frame

theorem readPacketHeader_accepts_six :
    4 ≤ (decoded [3, 0xAB, 0x4A, 2, 0x7F, 0]).length ∧
    ∃ header, readPacketHeader [3, 0xAB, 0x4A, 2, 0x7F, 0] 6 0 none = .ok header ∧
      header.ret = 4 ∧ header.opcode = 0x4A := by
  obtain ⟨header, hread, -⟩ :=
    (readPacketHeader_accepts [3, 0xAB, 0x4A, 2, 0x7F, 0] (by decide) 0 none).2.1
  have hvalue : readPacketHeader [3, 0xAB, 0x4A, 2, 0x7F, 0] 6 0 none =
      .ok ⟨[0xAB, 0x4A, 0, 0x7F, 0x7F, 0], 4, 0x4A, none⟩ := by decide
  exact ⟨by decide, header, hread, by rw [Except.ok.inj (hread.symm.trans hvalue)],
    by rw [Except.ok.inj (hread.symm.trans hvalue)]⟩

/-- The size byte is never compared: `[0xAB, 0x99, 9, 0x7F]` is accepted although
    it has no payload. -/
theorem readPacketHeader_accepts_wrong_size :
    ¬ ∀ buffer : List UInt8, buffer.length ≤ 255 → ∀ header,
      readPacketHeader buffer (UInt8.ofNat buffer.length) 0 none = .ok header →
      (header.ret ≠ 0 ↔ ∃ packet : Packet, buffer = packet.frame) := by
  intro hclaim
  have hread : readPacketHeader [5, 0xAB, 0x99, 9, 0x7F, 0] 6 0 none =
      .ok ⟨[0xAB, 0x99, 9, 0x7F, 0x7F, 0], 4, 0x99, none⟩ := by decide
  obtain ⟨packet, hpacket⟩ :=
    (hclaim [5, 0xAB, 0x99, 9, 0x7F, 0] (by decide) _ hread).mp (by decide)
  have hbytes : packet.bytes = [0xAB, 0x99, 9, 0x7F] := by
    rw [← packet.decoded_frame, ← hpacket]
    decide
  have hlen := congrArg List.length hbytes
  rw [packet.length_bytes] at hlen
  have hnil : packet.payload = [] := List.length_eq_zero_iff.mp (by simpa using hlen)
  rw [Packet.bytes, hnil] at hbytes
  simp at hbytes

end Lame
