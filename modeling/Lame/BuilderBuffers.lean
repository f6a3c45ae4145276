/-
  Lame/BuilderBuffers.lean
  ========================
  **The builders on arbitrary buffers: how far they write, what they let through.**

  `create_zeroed` describes a builder on a zeroed buffer that is long enough.
  Here the buffer holds anything.  A builder assigns `raw` and hands the first
  `payloadSize + 5` cells to `encodeCOBS`, one more than the raw packet and, for
  the builders without end byte, two more than it assigns.  `create_any` gives
  the result for every buffer with room for the frame; on a shorter one the call
  leaves the buffer.

    * `bounded_iff` — a builder keeps to its buffer exactly when the length is
      below its guard or has room for the frame: three guards forget the two bytes
      that the encoding adds;
    * `frame_depends_on_leftovers` — what stands in the cells that are encoded but
      not assigned reaches the frame, for every builder, unless it imitates a code
      byte.
-/
import Lame.Messages

namespace Lame

open ByteMemory SectionStuffing

/-! ## 1. `encodeCOBS` needs two cells more than its data -/

theorem length_shiftSection {buffer after : List UInt8} {sec_hd j : Nat}
    (hshift : shiftSection buffer sec_hd j = .ok after) : after.length = buffer.length := by
  induction j generalizing buffer with
  | zero => rw [Except.ok.inj hshift]
  | succ j ih =>
      rw [shiftSection] at hshift
      split at hshift
      · obtain ⟨previous, -, hshift⟩ := bind_eq_ok.mp hshift
        obtain ⟨middle, hstore, hshift⟩ := bind_eq_ok.mp hshift
        obtain ⟨-, rfl⟩ := store_eq_ok.mp hstore
        rw [ih hshift, List.length_set]
      · rw [Except.ok.inj hshift]

theorem length_encodeLoop {length : UInt8} {fuel : Nat} {buffer after : List UInt8}
    {i sec_hd : UInt8} (hloop : encodeLoop length fuel buffer i sec_hd = .ok after) :
    after.length = buffer.length := by
  induction fuel generalizing buffer i sec_hd with
  | zero => cases hloop
  | succ fuel ih =>
      rw [encodeLoop] at hloop
      split at hloop
      · obtain ⟨current, -, hloop⟩ := bind_eq_ok.mp hloop
        split at hloop
        · obtain ⟨shifted, hshift, hloop⟩ := bind_eq_ok.mp hloop
          obtain ⟨middle, hstore, hloop⟩ := bind_eq_ok.mp hloop
          obtain ⟨-, rfl⟩ := store_eq_ok.mp hstore
          rw [ih hloop, List.length_set, length_shiftSection hshift]
        · exact ih hloop
      · rw [Except.ok.inj hloop]

/-- The delimiter behind the frame is written last, so a call that returns had
    room for it. -/
theorem encodeCOBS_fits {buffer after : List UInt8} {length : UInt8} {ret : Nat}
    (hencode : encodeCOBS buffer length = .ok (after, ret)) :
    length.toNat + 2 ≤ buffer.length := by
  rw [encodeCOBS] at hencode
  obtain ⟨middle, hloop, hencode⟩ := bind_eq_ok.mp hencode
  obtain ⟨last, hstore, -⟩ := bind_eq_ok.mp hencode
  obtain ⟨hroom, -⟩ := store_eq_ok.mp hstore
  rwa [length_encodeLoop hloop] at hroom

theorem createPacket_fits {guard encoded ret : Nat} {raw buffer after : List UInt8}
    {length : UInt8} (hguard : guard ≤ length.toNat) (hencoded : encoded ≤ 253)
    (hcreate : createPacket guard raw encoded buffer length = .ok (after, ret)) :
    encoded + 2 ≤ buffer.length := by
  rw [createPacket, if_neg (Nat.not_lt.mpr hguard)] at hcreate
  obtain ⟨middle, hstore, hencode⟩ := bind_eq_ok.mp hcreate
  have hroom := encodeCOBS_fits hencode
  rwa [length_storeAll hstore,
    UInt8.toNat_ofNat_of_lt' (by simp only [UInt8.size]; omega)] at hroom

/-! ## 2. What a builder makes of any buffer -/

namespace Message

/-- The cells the builder encodes without having assigned them. -/
def leftovers (message : Message) (buffer : List UInt8) : List UInt8 :=
  (buffer.drop message.raw.length).take (message.payloadSize + 5 - message.raw.length)

theorem length_leftovers (message : Message) {buffer : List UInt8}
    (hroom : message.frameLength ≤ buffer.length) :
    message.raw.length + (message.leftovers buffer).length = message.payloadSize + 5 := by
  have hraw := message.length_raw_le
  rw [frameLength] at hroom
  simp only [leftovers, List.length_take, List.length_drop]
  omega

/-- **What a builder produces** in any buffer with room for the frame: the single
    pass over its bytes and the leftover cells behind them. -/
theorem create_any (message : Message) {buffer : List UInt8} {length : UInt8}
    (hguard : message.guard ≤ length.toNat) (hroom : message.frameLength ≤ buffer.length) :
    message.create buffer length =
      .ok (stuffFrom [] (message.raw ++ message.leftovers buffer) ++
        0 :: buffer.drop message.frameLength, message.frameLength) := by
  have hsize := message.payloadSize_le
  have hraw := message.length_raw_le
  have hfilled := message.length_leftovers hroom
  have hframe : message.frameLength = message.payloadSize + 6 := rfl
  obtain ⟨cell, hcells⟩ : ∃ cell, buffer.drop message.raw.length =
      message.leftovers buffer ++ cell :: buffer.drop message.frameLength := by
    refine ⟨buffer[message.payloadSize + 5], ?_⟩
    have hnext : buffer.drop (message.payloadSize + 5) =
        buffer[message.payloadSize + 5] :: buffer.drop message.frameLength :=
      List.drop_eq_getElem_cons (by omega)
    have hsum : message.raw.length + (message.payloadSize + 5 - message.raw.length) =
        message.payloadSize + 5 := by omega
    rw [leftovers, ← hnext, ← hsum, ← List.drop_drop, hsum, List.take_append_drop]
  have hstored : storeAll buffer PKT_HDR_INDEX message.raw =
      .ok (message.raw ++ buffer.drop message.raw.length) := by
    have hblock : storeAll ([] ++ buffer.take message.raw.length ++
        buffer.drop message.raw.length) PKT_HDR_INDEX message.raw =
          .ok ([] ++ message.raw ++ buffer.drop message.raw.length) :=
      storeAll_split [] _ _ message.raw rfl (by rw [List.length_take]; omega)
    rwa [List.nil_append, List.take_append_drop, List.nil_append] at hblock
  have hval : (UInt8.ofNat (message.payloadSize + 4)).toNat = message.payloadSize + 4 :=
    UInt8.toNat_ofNat_of_lt' (by simp only [UInt8.size]; omega)
  have hfits : (UInt8.ofNat (message.payloadSize + 4)).toNat ≤ 254 := by omega
  have hencode := encodeCOBS_eq hfits (message.raw ++ message.leftovers buffer)
    (buffer.drop message.frameLength) cell (by rw [List.length_append]; omega)
  rw [message.create_eq, createPacket, if_neg (Nat.not_lt.mpr hguard), hstored, ok_bind, hcells,
    ← List.append_assoc, hencode, hval, hframe]

/-! ## 3. Buffers of exactly the given length -/

/-- The builder returns 0 and leaves the buffer as it is, or stays inside it and
    returns the length of a frame that fits. -/
def Bounded (message : Message) (buffer : List UInt8) : Prop :=
  message.create buffer (UInt8.ofNat buffer.length) = .ok (buffer, 0) ∨
    ∃ after ret, message.create buffer (UInt8.ofNat buffer.length) = .ok (after, ret) ∧
      after.length = buffer.length ∧ 0 < ret ∧ ret ≤ buffer.length

/-- The lengths that pass a builder's guard although the frame does not fit. -/
def Overruns : Message → Nat → Prop
  | .drive _, n => n = 9 ∨ n = 10
  | .setQualityCamera _, n => n = 5 ∨ n = 6
  | .setCameraLocation _, n => n = 6 ∨ n = 7
  | _, _ => False

theorem overruns_iff (message : Message) (n : Nat) :
    message.Overruns n ↔ message.guard ≤ n ∧ n < message.frameLength := by
  cases message <;>
    simp only [Overruns, guard, frameLength, payloadSize, payloadBytes, locationBytes,
      PKT_MIN_SIZE, List.length_cons, List.length_nil, false_iff] <;> omega

/-- **Buffer bounds of the builders**: kept exactly when the length is none of those
    the guards of `CreateDrivePacket`, `CreateSetQualityCameraPacket` and
    `CreateSetCameraLocationPacket` let through without the two bytes of the
    encoding. -/
theorem bounded_iff (message : Message) (buffer : List UInt8) (hhigh : buffer.length ≤ 255) :
    message.Bounded buffer ↔ ¬ message.Overruns buffer.length := by
  have hlength : (UInt8.ofNat buffer.length).toNat = buffer.length :=
    UInt8.toNat_ofNat_of_lt' (by simp only [UInt8.size]; omega)
  have hsize := message.payloadSize_le
  have hframe : message.frameLength = message.payloadSize + 4 + 2 := rfl
  rw [overruns_iff]
  constructor
  · rintro (hzero | ⟨after, ret, hcreate, -⟩) ⟨hguard, hshort⟩
    · rw [message.create_eq] at hzero
      have hroom := createPacket_fits (by omega) (by omega) hzero
      omega
    · rw [message.create_eq] at hcreate
      have hroom := createPacket_fits (by omega) (by omega) hcreate
      omega
  · intro hfits
    by_cases hguard : message.guard ≤ buffer.length
    · have hroom : message.frameLength ≤ buffer.length := by
        by_contra hshort
        exact hfits ⟨hguard, Nat.lt_of_not_le hshort⟩
      have hfilled := message.length_leftovers hroom
      refine .inr ⟨_, _, message.create_any (by omega) hroom, ?_, by omega, hroom⟩
      simp only [List.length_append, length_stuffFrom, List.length_nil, List.length_cons,
        List.length_drop]
      omega
    · refine .inl ?_
      rw [message.create_eq, createPacket, if_pos (by omega)]
      rfl

theorem bounded_iff_drive :
    (Message.drive ⟨100, -100, 0, 0, 0⟩).Bounded (List.replicate 11 0xFF) :=
  (bounded_iff (.drive ⟨100, -100, 0, 0, 0⟩) (List.replicate 11 0xFF) (by decide)).mpr
    (by simp [Overruns])

/-- A drive packet for a buffer of nine bytes is written over its end. -/
theorem not_bounded_drive :
    ¬ ∀ (message : Message) (buffer : List UInt8), buffer.length ≤ 255 →
      message.Bounded buffer := by
  intro hclaim
  rcases hclaim (.drive ⟨0, 0, 0, 0, 0⟩) (List.replicate 9 0) (by decide) with
    hzero | ⟨after, ret, hcreate, -⟩
  · exact absurd hzero (by decide)
  · have hfault : (Message.drive ⟨0, 0, 0, 0, 0⟩).create (List.replicate 9 0)
        (UInt8.ofNat (List.replicate 9 (0 : UInt8)).length) = .error .outOfBounds := by decide
    rw [hfault] at hcreate
    cases hcreate

/-! ## 4. Two initial contents -/

/-- Built in two buffers the message comes out as the same frame. -/
def SameFrame (message : Message) (length : UInt8) (first second : List UInt8) : Prop :=
  ∃ firstCells secondCells ret,
    message.create first length = .ok (firstCells, ret) ∧
    message.create second length = .ok (secondCells, ret) ∧
    firstCells.take ret = secondCells.take ret

theorem sameFrame_iff_pass (message : Message) {length : UInt8} {first second : List UInt8}
    (hlength : message.frameLength ≤ length.toNat) (hfirst : length.toNat ≤ first.length)
    (hsecond : length.toNat ≤ second.length) :
    message.SameFrame length first second ↔
      stuffFrom [] (message.raw ++ message.leftovers first) =
        stuffFrom [] (message.raw ++ message.leftovers second) := by
  have hguard := Nat.le_trans message.guard_le_frameLength hlength
  have htake {buffer : List UInt8} (hroom : length.toNat ≤ buffer.length) :
      (stuffFrom [] (message.raw ++ message.leftovers buffer) ++
        0 :: buffer.drop message.frameLength).take message.frameLength =
      stuffFrom [] (message.raw ++ message.leftovers buffer) ++ [0] := by
    have hfilled := message.length_leftovers (Nat.le_trans hlength hroom)
    have hlen : (stuffFrom [] (message.raw ++ message.leftovers buffer)).length + 1 =
        message.frameLength := by
      simp only [length_stuffFrom, List.length_nil, List.length_append, frameLength]
      omega
    rw [← hlen, List.take_length_add_append]
    rfl
  have hcreateFirst := message.create_any hguard (Nat.le_trans hlength hfirst)
  have hcreateSecond := message.create_any hguard (Nat.le_trans hlength hsecond)
  constructor
  · rintro ⟨firstCells, secondCells, ret, hone, htwo, hsame⟩
    obtain ⟨rfl, rfl⟩ := Prod.mk.inj (Except.ok.inj (hone.symm.trans hcreateFirst))
    obtain ⟨rfl, -⟩ := Prod.mk.inj (Except.ok.inj (htwo.symm.trans hcreateSecond))
    rw [htake hfirst, htake hsecond] at hsame
    exact List.append_cancel_right hsame
  · intro hpass
    refine ⟨_, _, _, hcreateFirst, hcreateSecond, ?_⟩
    rw [htake hfirst, htake hsecond, hpass]

/-- Zero-free leftovers are copied into the frame, so no builder is indifferent to the
    contents of its buffer. -/
theorem not_sameFrame_replicate (message : Message) {length : UInt8} {n : Nat}
    (hlength : message.frameLength ≤ length.toNat) (hn : length.toNat ≤ n) :
    ¬ message.SameFrame length (List.replicate n 1) (List.replicate n 2) := by
  have hraw := message.length_raw_le
  have hleft (cell : UInt8) : message.leftovers (List.replicate n cell) =
      List.replicate (message.payloadSize + 5 - message.raw.length) cell := by
    rw [leftovers, List.drop_replicate, List.take_replicate]
    congr 1
    rw [frameLength] at hlength
    omega
  obtain ⟨front, hopen⟩ := exists_stuffFrom_append [] message.raw
  intro hsame
  rw [message.sameFrame_iff_pass hlength (by simpa using hn) (by simpa using hn), hleft, hleft,
    hopen, hopen, stuffFrom_of_zeroFree (by simp [List.mem_replicate]),
    stuffFrom_of_zeroFree (by simp [List.mem_replicate]), List.append_cancel_left_eq,
    List.append_cancel_left_eq, List.replicate_right_inj (by omega)] at hsame
  exact absurd hsame (by decide)

/-- A builder that writes the end byte lets exactly one cell through. -/
theorem leftovers_eq_of_sameFrame {message : Message} (hend : message.lacksEndByte = false)
    {length : UInt8} {first second : List UInt8}
    (hlength : message.frameLength ≤ length.toNat) (hfirst : length.toNat ≤ first.length)
    (hsecond : length.toNat ≤ second.length)
    (hsame : message.SameFrame length first second) :
    message.leftovers first = message.leftovers second := by
  have hsize := message.payloadSize_le
  obtain ⟨data, hraw⟩ : ∃ data, message.raw = data ++ [PKT_END_BYTE] :=
    ⟨PKT_HEADER_BYTE :: message.opcode :: UInt8.ofNat message.payloadSize ::
      message.payloadBytes, by rw [raw, hend]; rfl⟩
  have hrawLength : message.raw.length = message.payloadSize + 4 := by
    simp [raw, hend, payloadSize]
  have hone {buffer : List UInt8} (hroom : length.toNat ≤ buffer.length) :
      ∃ cell, message.leftovers buffer = [cell] := by
    have hfilled := message.length_leftovers (Nat.le_trans hlength hroom)
    exact List.length_eq_one_iff.mp (by omega)
  obtain ⟨cell, hcell⟩ := hone hfirst
  obtain ⟨cell', hcell'⟩ := hone hsecond
  rw [message.sameFrame_iff_pass hlength hfirst hsecond, hcell, hcell', hraw, List.append_assoc,
    List.append_assoc] at hsame
  have hmark : data.length + 2 < PKT_END_BYTE.toNat := by
    have hsum := congrArg List.length hraw
    rw [hrawLength, List.length_append, List.length_singleton] at hsum
    rw [show PKT_END_BYTE.toNat = 127 from rfl]
    omega
  rw [hcell, hcell', stuffFrom_last_injective hmark hsame]

/-- The bytes behind the last zero that the builder assigns. -/
def lastRun (message : Message) : List UInt8 := openRun [] message.raw

/-- Contents a builder turns into the same frame: they agree on the cells that are
    encoded without being assigned.  The builders without end byte leave two such cells,
    and there one pair may also hold what the encoding makes of the other. -/
def Interchangeable (message : Message) (first second : List UInt8) : Prop :=
  message.leftovers first = message.leftovers second ∨
    message.lacksEndByte = true ∧
      (Imitates message.lastRun (message.leftovers first) (message.leftovers second) ∨
        Imitates message.lastRun (message.leftovers second) (message.leftovers first))

/-- A builder without end byte lets two cells through. -/
theorem exists_leftovers_of_lacksEndByte {message : Message}
    (hlacks : message.lacksEndByte = true) {buffer : List UInt8}
    (hroom : message.frameLength ≤ buffer.length) :
    ∃ a b, message.leftovers buffer = [a, b] := by
  have hfilled := message.length_leftovers hroom
  have hraw : message.raw.length = message.payloadSize + 3 := by
    simp [raw, hlacks, payloadSize]
  exact List.length_eq_two.mp (by omega)

/-- **A frame depends on what the buffer held before.**  Two initial contents give the
    same frame exactly when they are interchangeable. -/
theorem frame_depends_on_leftovers (message : Message) (length : UInt8)
    (first second : List UInt8) (hlength : message.frameLength ≤ length.toNat)
    (hfirst : length.toNat ≤ first.length) (hsecond : length.toNat ≤ second.length) :
    message.SameFrame length first second ↔ message.Interchangeable first second := by
  cases hlacks : message.lacksEndByte with
  | false =>
      constructor
      · intro hsame
        exact .inl (leftovers_eq_of_sameFrame hlacks hlength hfirst hsecond hsame)
      · rintro (hleft | ⟨hlacks', -⟩)
        · rw [message.sameFrame_iff_pass hlength hfirst hsecond, hleft]
        · rw [hlacks] at hlacks'
          cases hlacks'
  | true =>
      have hraw := message.length_raw_le
      have hsize := message.payloadSize_le
      have hrun := length_openRun_le [] message.raw
      rw [List.length_nil, Nat.zero_add] at hrun
      obtain ⟨front, hpass⟩ := exists_stuffFrom_append [] message.raw
      obtain ⟨a, b, hcells⟩ :=
        exists_leftovers_of_lacksEndByte hlacks (Nat.le_trans hlength hfirst)
      obtain ⟨a', b', hcells'⟩ :=
        exists_leftovers_of_lacksEndByte hlacks (Nat.le_trans hlength hsecond)
      rw [message.sameFrame_iff_pass hlength hfirst hsecond, Interchangeable, hcells, hcells',
        hpass, hpass, List.append_cancel_left_eq, stuffFrom_pair_eq_iff (by omega), lastRun,
        hlacks]
      simp only [true_and]

theorem frame_depends_on_leftovers_heartbeat :
    Message.queryHeartbeat.SameFrame 16 (List.replicate 16 0) (0xFF :: List.replicate 15 0) :=
  (frame_depends_on_leftovers .queryHeartbeat 16 (List.replicate 16 0)
    (0xFF :: List.replicate 15 0) (by decide) (by decide) (by decide)).mpr (.inl (by decide))

/-- A buffer of ones and a zeroed one: `03 AB 14 7F 01 00` and `03 AB 14 02 7F 00`. -/
theorem not_sameFrame_heartbeat :
    ¬ ∀ (message : Message) (length : UInt8) (first second : List UInt8),
      message.frameLength ≤ length.toNat → first.length = length.toNat →
      second.length = length.toNat → message.SameFrame length first second := by
  intro hclaim
  obtain ⟨firstCells, secondCells, ret, hfirst, hsecond, hsame⟩ :=
    hclaim .queryHeartbeat 16 (List.replicate 16 0) (List.replicate 16 1) (by decide) rfl rfl
  have hzeroed : Message.queryHeartbeat.create (List.replicate 16 0) 16 =
      .ok ([3, 0xAB, 0x14, 2, 0x7F] ++ List.replicate 11 0, 6) := by decide
  have hones : Message.queryHeartbeat.create (List.replicate 16 1) 16 =
      .ok ([3, 0xAB, 0x14, 0x7F, 1] ++ 0 :: List.replicate 10 1, 6) := by decide
  obtain ⟨rfl, rfl⟩ := Prod.mk.inj (Except.ok.inj (hfirst.symm.trans hzeroed))
  obtain ⟨rfl, -⟩ := Prod.mk.inj (Except.ok.inj (hsecond.symm.trans hones))
  exact absurd hsame (by decide)

end Message

end Lame
