/-
  Lame/ReceivedLengths.lean
  =========================
  **`GetPacketOpcode` on datagrams of every length.**

  `PacketReceiveCallback` hands over whatever UDP delivers.  The wrapper pins the first
  byte of the array, which an empty one does not have, and its 32-bit length reaches
  the parser as a byte, so that a long datagram is read as its first `n % 256` bytes.
  `getPacketOpcode_eq` is the result for every datagram; `opcode_faithful_iff` tells
  the datagrams that are answered as they should be.
-/
import Lame.PacketHandler

namespace Lame.PacketHandler

open ByteMemory

/-- What the parser sees of a datagram. -/
def shown (buffer : List UInt8) : List UInt8 := buffer.take (buffer.length % 256)

/-- The bytes are a packet by themselves, of a nonzero opcode. -/
def IsPacket (bytes : List UInt8) : Prop :=
  PKT_MIN_SIZE ≤ bytes.length ∧ Accepted bytes ∧ decodedOpcode bytes ≠ 0

/-- The opcode of a packet, and 0 for anything else. -/
def opcodeOf (bytes : List UInt8) : UInt8 :=
  if PKT_MIN_SIZE ≤ bytes.length ∧ Accepted bytes then decodedOpcode bytes else 0

/-- What is expected for a received array: some answer, the reported opcode when its
    length fits a byte, and 0 when it is longer than any frame. -/
def OpcodeFaithful (buffer : List UInt8) : Prop :=
  ∃ opcode, getPacketOpcode buffer (Int32.ofNat buffer.length) = .ok opcode ∧
    (1 ≤ buffer.length → buffer.length ≤ 255 → ∃ header,
      readPacketHeader buffer (UInt8.ofNat buffer.length) 0 none = .ok header ∧
        opcode = if header.ret = 0 then 0 else header.opcode) ∧
    (255 < buffer.length → opcode = 0)

theorem opcodeOf_eq_zero_iff (bytes : List UInt8) : opcodeOf bytes = 0 ↔ ¬ IsPacket bytes := by
  unfold opcodeOf IsPacket
  split
  · next h =>
    constructor
    · intro hzero hpacket
      exact hpacket.2.2 hzero
    · intro hnot
      by_contra hzero
      exact hnot ⟨h.1, h.2, hzero⟩
  · next h =>
    apply iff_of_true rfl
    intro hpacket
    exact h ⟨hpacket.1, hpacket.2.1⟩

/-- A header read from the first bytes of an array, and whether it was accepted. -/
theorem readPacketHeader_opcodeOf (front back : List UInt8) (hlength : front.length ≤ 255) :
    ∃ header, readPacketHeader (front ++ back) (UInt8.ofNat front.length) 0 none = .ok header ∧
      header.opcode = opcodeOf front ∧
      opcodeOf front = if header.ret = 0 then 0 else header.opcode := by
  by_cases hmin : PKT_MIN_SIZE ≤ front.length
  · refine ⟨_, readPacketHeader_eq front back hmin hlength 0 none, ?_⟩
    by_cases haccepted : Accepted front
    · have hret : (decoded front).length ≠ 0 := by
        obtain ⟨middle, hmiddle⟩ := haccepted.exists_bytes
        rw [hmiddle]
        exact Nat.succ_ne_zero _
      have hopcode : opcodeOf front = decodedOpcode front := if_pos ⟨hmin, haccepted⟩
      rw [if_pos haccepted]
      refine ⟨hopcode.symm, ?_⟩
      show opcodeOf front = if (decoded front).length = 0 then 0 else decodedOpcode front
      rw [if_neg hret, hopcode]
    · have hopcode : opcodeOf front = 0 := if_neg fun h => haccepted h.2
      rw [if_neg haccepted]
      exact ⟨hopcode.symm, hopcode⟩
  · have hshort : (UInt8.ofNat front.length).toNat < PKT_MIN_SIZE := by
      rw [UInt8.toNat_ofNat_of_lt' (Nat.lt_of_le_of_lt hlength (by decide))]
      exact Nat.lt_of_not_le hmin
    refine ⟨_, readPacketHeader_short hshort 0 none, ?_⟩
    have hopcode : opcodeOf front = 0 := if_neg fun h => hmin h.1
    exact ⟨hopcode.symm, hopcode⟩

/-- **The answer for every array that is not empty**: the opcode of its first
    `n % 256` bytes. -/
theorem getPacketOpcode_eq {buffer : List UInt8} (hne : buffer ≠ []) :
    getPacketOpcode buffer (Int32.ofNat buffer.length) = .ok (opcodeOf (shown buffer)) := by
  have hsize : (shown buffer).length = buffer.length % 256 := by
    rw [shown, List.length_take]
    exact Nat.min_eq_left (Nat.mod_le _ _)
  have hbyte : UInt8.ofNat buffer.length = UInt8.ofNat (shown buffer).length := by
    rw [hsize]
    exact (UInt8.ofNat_mod_size).symm
  obtain ⟨header, hread, hopcode, -⟩ := readPacketHeader_opcodeOf (shown buffer)
    (buffer.drop (buffer.length % 256)) (by rw [hsize]; omega)
  rw [shown, List.take_append_drop, ← shown, ← hbyte] at hread
  rw [getPacketOpcode, readHeader, if_neg hne, toByte_ofNat, hread, ok_bind]
  exact congrArg Except.ok hopcode

theorem not_faithful_nil : ¬ OpcodeFaithful [] := by
  rintro ⟨opcode, hopcode, -⟩
  cases hopcode

/-- A long datagram that begins with a packet is taken for it. -/
theorem not_faithful_of_packet {buffer : List UInt8} (hlength : 255 < buffer.length)
    (hpacket : IsPacket (shown buffer)) : ¬ OpcodeFaithful buffer := by
  rintro ⟨opcode, hopcode, -, hlong⟩
  have hne : buffer ≠ [] := List.ne_nil_of_length_pos (Nat.lt_trans (by decide) hlength)
  rw [getPacketOpcode_eq hne] at hopcode
  apply (opcodeOf_eq_zero_iff _).mp ?_ hpacket
  exact (Except.ok.inj hopcode).trans (hlong hlength)

/-- **Datagrams that are answered as they should be**: those that are not empty and,
    if they do not fit a byte length, do not begin with a packet of `n % 256` bytes. -/
theorem opcode_faithful_iff (buffer : List UInt8) :
    OpcodeFaithful buffer ↔
      buffer ≠ [] ∧ (255 < buffer.length → ¬ IsPacket (shown buffer)) := by
  constructor
  · intro hfaithful
    constructor
    · rintro rfl
      exact not_faithful_nil hfaithful
    · intro hlength hpacket
      exact not_faithful_of_packet hlength hpacket hfaithful
  · rintro ⟨hne, hlong⟩
    refine ⟨_, getPacketOpcode_eq hne, ?_, ?_⟩
    · intro _ hfits
      have hshown : shown buffer = buffer := by
        rw [shown, Nat.mod_eq_of_lt (Nat.lt_of_le_of_lt hfits (by decide)), List.take_length]
      obtain ⟨header, hread, -, hopcode⟩ := readPacketHeader_opcodeOf buffer [] hfits
      rw [List.append_nil] at hread
      rw [hshown]
      exact ⟨header, hread, hopcode⟩
    · intro hlength
      exact (opcodeOf_eq_zero_iff _).mpr (hlong hlength)

/-- 256 more bytes change nothing. -/
theorem shown_append {front back : List UInt8} (hfront : front.length < 256)
    (hback : back.length = 256) : shown (front ++ back) = front := by
  have hlength : (front ++ back).length % 256 = front.length := by
    rw [List.length_append, hback, Nat.add_mod_right, Nat.mod_eq_of_lt hfront]
  rw [shown, hlength, List.take_left]

/-- An empty datagram, and a heartbeat followed by 256 zero bytes. -/
theorem opcode_not_always_faithful : ¬ OpcodeFaithful [] ∧
    ¬ OpcodeFaithful (Message.reportHeartbeat.frame ++ List.replicate 256 0) := by
  refine ⟨not_faithful_nil, not_faithful_of_packet ?_ ?_⟩
  · rw [List.length_append, List.length_replicate]
    omega
  · rw [shown_append (by decide) List.length_replicate]
    exact ⟨by decide, by decide, by decide⟩

end Lame.PacketHandler
