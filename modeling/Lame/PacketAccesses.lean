/-
  Lame/PacketAccesses.lean
  ========================
  **Which cells `ReadPacketHeader` reads and writes.**

  `decodeCOBS` follows code bytes chosen by the sender with a section end that may
  be zero or wrap.  The functions below are `decodeCOBS` and `ReadPacketHeader`
  once more, with every access logged; the `result_…` lemmas say that they compute
  the same.  The bounds are proved on the log: whatever the code bytes are, a
  write of the decoder stays two cells away from the end, and the access
  `buffer[length - 1]` behind the decoder is reached with a positive length only.
-/
import Lame.ByteAccesses
import Lame.PacketFormat

namespace Lame

open ByteMemory ByteAccesses SectionStuffing

/-! ## 1. The source functions with their accesses -/

def decodeLoopLogged (length : UInt8) :
    Nat → List UInt8 → UInt8 → UInt8 → Logged (List UInt8 × UInt8)
  | 0, _, _, _ => .fail .outOfFuel
  | fuel + 1, buffer, i, sec_end =>
      if i.toNat + 2 < length.toNat then
        if i.toNat + 1 < sec_end.toNat then do
          let next ← .load buffer (i.toNat + 1)
          let buffer ← .store buffer i.toNat next
          let current ← .load buffer i.toNat
          if current = 0x00 then return (buffer, i)
          else decodeLoopLogged length fuel buffer (i + 1) sec_end
        else do
          let buffer ← .store buffer i.toNat 0x00
          let next ← .load buffer (i.toNat + 1)
          if next ≠ 0x00 then decodeLoopLogged length fuel buffer (i + 1) (sec_end + next)
          else return (buffer, i)
      else return (buffer, i)

def decodeCOBSLogged (buffer : List UInt8) (length : UInt8) : Logged (List UInt8 × UInt8) := do
  let sec_end ← .load buffer 0
  decodeLoopLogged length COUNTER_VALUES buffer 0 sec_end

def readPacketHeaderLogged (buffer : List UInt8) (length : UInt8) (opcode : UInt8)
    (payload : Option (List UInt8)) : Logged HeaderResult :=
  if length.toNat < PKT_MIN_SIZE then return ⟨buffer, 0, opcode, payload⟩
  else do
    let (buffer, length) ← decodeCOBSLogged buffer length
    let header ← .load buffer PKT_HDR_INDEX
    if header ≠ PKT_HEADER_BYTE then return ⟨buffer, 0, opcode, payload⟩
    else
      let last ← .loadInt buffer (length.toNat - 1 : Int)
      if last ≠ PKT_END_BYTE then return ⟨buffer, 0, opcode, payload⟩
      else
        let opcode ← .load buffer PKT_OP_INDEX
        return ⟨buffer, length.toNat, opcode,
          if length.toNat = PKT_MIN_SIZE then none
          else some (buffer.drop PKT_PAYLOAD_START_INDEX)⟩

/-! ## 2. The log changes nothing -/

theorem result_decodeLoopLogged (length : UInt8) (fuel : Nat) (buffer : List UInt8)
    (i sec_end : UInt8) :
    (decodeLoopLogged length fuel buffer i sec_end).result =
      decodeLoop length fuel buffer i sec_end := by
  induction fuel generalizing buffer i sec_end with
  | zero => rfl
  | succ fuel ih =>
      rw [decodeLoopLogged, decodeLoop]
      by_cases hgo : i.toNat + 2 < length.toNat
      · rw [if_pos hgo, if_pos hgo]
        by_cases hsec : i.toNat + 1 < sec_end.toNat
        · rw [if_pos hsec, if_pos hsec]
          simp only [Logged.result_bind, Logged.result_load, Logged.result_store]
          congr 1; funext next
          congr 1; funext buffer
          congr 1; funext current
          by_cases hzero : current = 0
          · rw [if_pos hzero, if_pos hzero]
            rfl
          · rw [if_neg hzero, if_neg hzero, ih]
        · rw [if_neg hsec, if_neg hsec]
          simp only [Logged.result_bind, Logged.result_load, Logged.result_store]
          congr 1; funext buffer
          congr 1; funext next
          by_cases hzero : next ≠ 0
          · rw [if_pos hzero, if_pos hzero, ih]
          · rw [if_neg hzero, if_neg hzero]
            rfl
      · rw [if_neg hgo, if_neg hgo]
        rfl

theorem result_decodeCOBSLogged (buffer : List UInt8) (length : UInt8) :
    (decodeCOBSLogged buffer length).result = decodeCOBS buffer length := by
  rw [decodeCOBSLogged, Logged.result_bind, Logged.result_load, decodeCOBS]
  congr 1
  funext sec_end
  exact result_decodeLoopLogged length COUNTER_VALUES buffer 0 sec_end

theorem result_readPacketHeaderLogged (buffer : List UInt8) (length opcode : UInt8)
    (payload : Option (List UInt8)) :
    (readPacketHeaderLogged buffer length opcode payload).result =
      readPacketHeader buffer length opcode payload := by
  rw [readPacketHeaderLogged, readPacketHeader]
  by_cases hshort : length.toNat < PKT_MIN_SIZE
  · rw [if_pos hshort, if_pos hshort]
    rfl
  · rw [if_neg hshort, if_neg hshort, Logged.result_bind, result_decodeCOBSLogged]
    congr 1
    funext decoded
    obtain ⟨buffer, length⟩ := decoded
    dsimp only
    rw [Logged.result_bind, Logged.result_load]
    congr 1
    funext header
    by_cases hheader : header ≠ PKT_HEADER_BYTE
    · rw [if_pos hheader, if_pos hheader]
      rfl
    · rw [if_neg hheader, if_neg hheader, Logged.result_bind, Logged.result_loadInt]
      congr 1
      funext last
      by_cases hlast : last ≠ PKT_END_BYTE
      · rw [if_pos hlast, if_pos hlast]
        rfl
      · rw [if_neg hlast, if_neg hlast, Logged.result_bind, Logged.result_load]
        rfl

/-! ## 3. The cells the decoder touches

Whatever the code bytes say, the loop reads at most one cell ahead of its counter
and stops two cells before the end. -/

theorem accesses_decodeLoopLogged (length : UInt8) (fuel : Nat) (buffer : List UInt8)
    (i sec_end : UInt8) :
    (decodeLoopLogged length fuel buffer i sec_end).Accesses
      (Access.Inside (length.toNat - 1) (length.toNat - 2)) := by
  induction fuel generalizing buffer i sec_end with
  | zero => exact Logged.accesses_fail _
  | succ fuel ih =>
      rw [decodeLoopLogged]
      by_cases hgo : i.toNat + 2 < length.toNat
      · have hahead : (Access.read (i.toNat + 1 : Nat)).Inside (length.toNat - 1)
            (length.toNat - 2) := ⟨by omega, by omega⟩
        have hread : (Access.read i.toNat).Inside (length.toNat - 1) (length.toNat - 2) :=
          ⟨by omega, by omega⟩
        have hwrite : (Access.write i.toNat).Inside (length.toNat - 1) (length.toNat - 2) :=
          ⟨by omega, by omega⟩
        rw [if_pos hgo]
        by_cases hsec : i.toNat + 1 < sec_end.toNat
        · rw [if_pos hsec]
          refine (Logged.accesses_load hahead).bind fun next _ => ?_
          refine (Logged.accesses_store hwrite).bind fun buffer _ => ?_
          refine (Logged.accesses_load hread).bind fun current _ => ?_
          split
          · exact Logged.accesses_pure _
          · exact ih _ _ _
        · rw [if_neg hsec]
          refine (Logged.accesses_store hwrite).bind fun buffer _ => ?_
          refine (Logged.accesses_load hahead).bind fun next _ => ?_
          split
          · exact ih _ _ _
          · exact Logged.accesses_pure _
      · rw [if_neg hgo]
        exact Logged.accesses_pure _

/-- The decoder reads its first cell before it looks at the length. -/
theorem accesses_decodeCOBSLogged (buffer : List UInt8) {length : UInt8}
    (hlength : 1 ≤ length.toNat) :
    (decodeCOBSLogged buffer length).Accesses
      (Access.Inside length.toNat (length.toNat - 2)) := by
  rw [decodeCOBSLogged]
  refine (Logged.accesses_load ⟨Int.le_refl _, by omega⟩).bind fun sec_end _ => ?_
  refine (accesses_decodeLoopLogged length COUNTER_VALUES buffer 0 sec_end).mono fun _ h => ?_
  exact h.mono (by omega) (Int.le_refl _)

theorem drop_store {cells after : List UInt8} {i keep : Nat} {cell : UInt8}
    (hstore : store cells i cell = .ok after) (hi : i < keep) :
    after.drop keep = cells.drop keep := by
  obtain ⟨-, rfl⟩ := store_eq_ok.mp hstore
  exact List.drop_set_of_lt hi

/-- The decoder leaves the last two cells of its block alone. -/
theorem drop_decodeLoop {length : UInt8} {fuel : Nat} {buffer after : List UInt8}
    {i sec_end ret : UInt8}
    (hdecode : decodeLoop length fuel buffer i sec_end = .ok (after, ret)) :
    after.drop (length.toNat - 2) = buffer.drop (length.toNat - 2) := by
  induction fuel generalizing buffer i sec_end with
  | zero => cases hdecode
  | succ fuel ih =>
      rw [decodeLoop] at hdecode
      by_cases hgo : i.toNat + 2 < length.toNat
      · have hi : i.toNat < length.toNat - 2 := by omega
        rw [if_pos hgo] at hdecode
        by_cases hsec : i.toNat + 1 < sec_end.toNat
        · rw [if_pos hsec] at hdecode
          obtain ⟨next, -, hdecode⟩ := bind_eq_ok.mp hdecode
          obtain ⟨middle, hstore, hdecode⟩ := bind_eq_ok.mp hdecode
          obtain ⟨current, -, hdecode⟩ := bind_eq_ok.mp hdecode
          rw [← drop_store hstore hi]
          split at hdecode
          · rw [(Prod.mk.inj (Except.ok.inj hdecode)).1]
          · exact ih hdecode
        · rw [if_neg hsec] at hdecode
          obtain ⟨middle, hstore, hdecode⟩ := bind_eq_ok.mp hdecode
          obtain ⟨next, -, hdecode⟩ := bind_eq_ok.mp hdecode
          rw [← drop_store hstore hi]
          split at hdecode
          · exact ih hdecode
          · rw [(Prod.mk.inj (Except.ok.inj hdecode)).1]
      · rw [if_neg hgo] at hdecode
        rw [(Prod.mk.inj (Except.ok.inj hdecode)).1]

theorem drop_decodeCOBS {buffer after : List UInt8} {length ret : UInt8}
    (hdecode : decodeCOBS buffer length = .ok (after, ret)) :
    after.drop (length.toNat - 2) = buffer.drop (length.toNat - 2) := by
  rw [decodeCOBS] at hdecode
  obtain ⟨sec_end, -, hdecode⟩ := bind_eq_ok.mp hdecode
  exact drop_decodeLoop hdecode

/-! ## 4. The cells `ReadPacketHeader` touches -/

/-- When `decodeCOBS` returns 0, its first step has put a zero into the first cell. -/
theorem head_of_decodeCOBS_zero {buffer after : List UInt8} (hlow : 3 ≤ buffer.length)
    (hhigh : buffer.length ≤ 255)
    (hdecode : decodeCOBS buffer (UInt8.ofNat buffer.length) = .ok (after, 0)) :
    after[0]? = some 0 := by
  have hdecoded := decodeCOBS_decoded buffer [] (by omega) hhigh
  rw [List.append_nil, List.append_nil, hdecode] at hdecoded
  obtain ⟨rfl, hret⟩ := Prod.mk.inj (Except.ok.inj hdecoded)
  have hsize := length_decoded_le buffer
  have hlen : (decoded buffer).length = 0 := by
    have hval := congrArg UInt8.toNat hret
    rw [UInt8.toNat_ofNat_of_lt' (by simp only [UInt8.size]; omega)] at hval
    exact hval.symm
  obtain ⟨rest, hrest⟩ :=
    head_decodedCells_of_decoded_nil hlow (List.length_eq_zero_iff.mp hlen)
  rw [hrest]
  rfl

theorem accesses_readPacketHeaderLogged (buffer : List UInt8) (hhigh : buffer.length ≤ 255)
    (opcode : UInt8) (payload : Option (List UInt8)) :
    (readPacketHeaderLogged buffer (UInt8.ofNat buffer.length) opcode payload).Accesses
      (Access.Inside buffer.length (buffer.length - 2)) := by
  have hlength : (UInt8.ofNat buffer.length).toNat = buffer.length :=
    UInt8.toNat_ofNat_of_lt' (by simp only [UInt8.size]; omega)
  rw [readPacketHeaderLogged, hlength]
  by_cases hshort : buffer.length < PKT_MIN_SIZE
  · rw [if_pos hshort]
    exact Logged.accesses_pure _
  · simp only [PKT_MIN_SIZE] at hshort
    have hpos : 1 ≤ (UInt8.ofNat buffer.length).toNat := by omega
    have hdecoder := accesses_decodeCOBSLogged buffer hpos
    rw [hlength] at hdecoder
    rw [if_neg (by simpa only [PKT_MIN_SIZE] using hshort)]
    refine hdecoder.bind ?_
    rintro ⟨cells, ret⟩ hdecode
    rw [result_decodeCOBSLogged] at hdecode
    -- the decoded length stays below the buffer's, and is positive behind the header byte
    have hret : ret.toNat + 2 ≤ buffer.length := by
      have hdecoded := decodeCOBS_decoded buffer [] (by omega) hhigh
      rw [List.append_nil, List.append_nil, hdecode] at hdecoded
      rw [(Prod.mk.inj (Except.ok.inj hdecoded)).2]
      have hsize := length_decoded_le buffer
      rw [UInt8.toNat_ofNat_of_lt' (by simp only [UInt8.size]; omega)]
      omega
    dsimp only
    refine (Logged.accesses_load ⟨Int.le_refl _, by simp only [PKT_HDR_INDEX]; omega⟩).bind ?_
    intro header hheader
    rw [Logged.result_load] at hheader
    split
    · exact Logged.accesses_pure _
    · next hmatch =>
      have hpos : ret.toNat ≠ 0 := by
        intro hzero
        obtain rfl : ret = 0 := UInt8.toNat_inj.mp hzero
        have hhead := head_of_decodeCOBS_zero (by omega) hhigh hdecode
        rw [load, PKT_HDR_INDEX, hhead] at hheader
        rw [← Except.ok.inj hheader] at hmatch
        exact hmatch (by decide)
      refine (Logged.accesses_loadInt ⟨by omega, by omega⟩).bind fun last _ => ?_
      split
      · exact Logged.accesses_pure _
      · refine (Logged.accesses_load ⟨by simp only [PKT_OP_INDEX]; omega,
          by simp only [PKT_OP_INDEX]; omega⟩).bind fun _ _ => ?_
        exact Logged.accesses_pure _

theorem exists_readPacketHeader (buffer : List UInt8) (hhigh : buffer.length ≤ 255)
    (opcode : UInt8) (payload : Option (List UInt8)) :
    ∃ header,
      readPacketHeader buffer (UInt8.ofNat buffer.length) opcode payload = .ok header ∧
      header.buffer.length = buffer.length ∧
      header.buffer.drop (buffer.length - 2) = buffer.drop (buffer.length - 2) ∧
      (header.ret ≠ 0 → 2 ≤ header.ret ∧ header.ret + 2 ≤ buffer.length) := by
  have hlength : (UInt8.ofNat buffer.length).toNat = buffer.length :=
    UInt8.toNat_ofNat_of_lt' (by simp only [UInt8.size]; omega)
  by_cases hshort : buffer.length < PKT_MIN_SIZE
  · refine ⟨_, readPacketHeader_short (by rwa [hlength]) opcode payload, rfl, rfl, ?_⟩
    intro hret
    exact absurd rfl hret
  · have hlow : PKT_MIN_SIZE ≤ buffer.length := Nat.not_lt.mp hshort
    have htwo : 2 ≤ buffer.length := Nat.le_trans (by decide) hlow
    have hkeeps := drop_decodeCOBS (decodeCOBS_decoded buffer [] htwo hhigh)
    rw [hlength, List.append_nil, List.append_nil] at hkeeps
    have hread := readPacketHeader_eq buffer [] hlow hhigh opcode payload
    simp only [List.append_nil] at hread
    refine ⟨_, hread, ?_⟩
    by_cases haccepted : Accepted buffer
    · rw [if_pos haccepted]
      refine ⟨length_decodedCells buffer, hkeeps, fun _ => ⟨haccepted.two_le, ?_⟩⟩
      have hsize := length_decoded_le buffer
      dsimp only
      omega
    · rw [if_neg haccepted]
      exact ⟨length_decodedCells buffer, hkeeps, fun hret => absurd rfl hret⟩

/-- **Reading a packet is memory safe and terminates**, on every buffer of at most
    255 bytes: all accesses stay inside it, the last two bytes are never written,
    `buffer[length - 1]` is never `buffer[-1]`, and a non-zero return value leaves
    the last two bytes out. -/
theorem readPacketHeader_memorySafe (buffer : List UInt8) (hhigh : buffer.length ≤ 255)
    (opcode : UInt8) (payload : Option (List UInt8)) :
    (∃ header,
      readPacketHeader buffer (UInt8.ofNat buffer.length) opcode payload = .ok header ∧
      header.buffer.length = buffer.length ∧
      header.buffer.drop (buffer.length - 2) = buffer.drop (buffer.length - 2) ∧
      (header.ret ≠ 0 → 2 ≤ header.ret ∧ header.ret + 2 ≤ buffer.length)) ∧
    (∃ log : Logged HeaderResult,
      log = readPacketHeaderLogged buffer (UInt8.ofNat buffer.length) opcode payload ∧
      log.result = readPacketHeader buffer (UInt8.ofNat buffer.length) opcode payload ∧
      (∀ index : Int, .read index ∈ log.accesses → 0 ≤ index ∧ index < buffer.length) ∧
      (∀ index : Int, .write index ∈ log.accesses → 0 ≤ index ∧ index + 2 < buffer.length) ∧
      .read (-1) ∉ log.accesses) ∧
    (1 ≤ buffer.length → ∃ log : Logged (List UInt8 × UInt8),
      log = decodeCOBSLogged buffer (UInt8.ofNat buffer.length) ∧
      log.result = decodeCOBS buffer (UInt8.ofNat buffer.length) ∧
      (∀ index : Int, .write index ∈ log.accesses → 0 ≤ index ∧ index + 2 < buffer.length) ∧
      ∀ after ret, log.result = .ok (after, ret) →
        after.drop (buffer.length - 2) = buffer.drop (buffer.length - 2)) ∧
    (PKT_MIN_SIZE ≤ buffer.length →
      ∀ after, decodeCOBS buffer (UInt8.ofNat buffer.length) = .ok (after, 0) →
        after[0]? = some 0) := by
  have hlength : (UInt8.ofNat buffer.length).toNat = buffer.length :=
    UInt8.toNat_ofNat_of_lt' (by simp only [UInt8.size]; omega)
  refine ⟨exists_readPacketHeader buffer hhigh opcode payload, ⟨_, rfl, ?_, ?_, ?_, ?_⟩, ?_, ?_⟩
  · exact result_readPacketHeaderLogged _ _ _ _
  · intro index hmem
    exact accesses_readPacketHeaderLogged buffer hhigh opcode payload _ hmem
  · intro index hmem
    have hinside := accesses_readPacketHeaderLogged buffer hhigh opcode payload _ hmem
    exact ⟨hinside.1, by have := hinside.2; omega⟩
  · intro hmem
    have hinside := accesses_readPacketHeaderLogged buffer hhigh opcode payload _ hmem
    exact absurd hinside.1 (by decide)
  · intro hpos
    refine ⟨_, rfl, result_decodeCOBSLogged _ _, ?_, ?_⟩
    · intro index hmem
      have hinside := accesses_decodeCOBSLogged buffer (by omega) _ hmem
      rw [hlength] at hinside
      exact ⟨hinside.1, by have := hinside.2; omega⟩
    · intro after ret hdecode
      rw [result_decodeCOBSLogged] at hdecode
      have hkeeps := drop_decodeCOBS hdecode
      rwa [hlength] at hkeeps
  · intro hlow after hdecode
    exact head_of_decodeCOBS_zero (Nat.le_trans (by decide) hlow) hhigh hdecode

/-- A code byte of 255 followed by a zero: the decoder gives up on its first byte. -/
theorem readPacketHeader_memorySafe_four : ∃ header,
    readPacketHeader [0xFF, 0, 0x7F, 0xAB] 4 0 none = .ok header ∧
    header.buffer.drop 2 = [0x7F, 0xAB] := by
  obtain ⟨header, hread, -, hkept, -⟩ :=
    (readPacketHeader_memorySafe [0xFF, 0, 0x7F, 0xAB] (by decide) 0 none).1
  exact ⟨header, hread, hkept⟩

end Lame
