/-
  Lame/HighLowBytes.lean
  ======================
  **Splitting a signed 16-bit value into two bytes and joining it again.**

  C promotes both `int16_t` and `uint8_t` to a 32-bit `int` before a shift or a
  bitwise operation and truncates on assignment.  The three definitions below
  follow these promotions; `joinBytes_high_low` says that nothing is lost, for
  negative values as well.
-/
import Mathlib.Data.Nat.Notation

namespace Lame.HighLowBytes

/-- `uint8_t b = x >> 8;` -/
def highByte (x : Int16) : UInt8 := (x.toInt32 >>> 8).toInt8.toUInt8

/-- `uint8_t b = x & 0xFF;` -/
def lowByte (x : Int16) : UInt8 := (x.toInt32 &&& 0xFF).toInt8.toUInt8

/-- `int16_t x = (hi << 8) | lo;` -/
def joinBytes (hi lo : UInt8) : Int16 :=
  ((hi.toUInt32.toInt32 <<< 8) ||| lo.toUInt32.toInt32).toInt16

theorem highByte_bit (x : Int16) {k : Nat} (hk : k < 8) :
    (highByte x).toBitVec.getLsbD k = x.toBitVec.getLsbD (8 + k) := by
  have hbits : (highByte x).toBitVec =
      BitVec.signExtend 8 ((BitVec.signExtend 32 x.toBitVec).sshiftRight 8) := rfl
  have h32 : ¬ 32 ≤ k := by omega
  have h24 : 8 + k < 32 := by omega
  rw [hbits, BitVec.getLsbD_signExtend, if_pos (by omega), BitVec.getLsbD_sshiftRight,
    if_pos h24, BitVec.getLsbD_signExtend, if_pos (by omega)]
  simp only [hk, h32, h24, decide_true, decide_false, Bool.not_false, Bool.true_and]

theorem lowByte_bit (x : Int16) {k : Nat} (hk : k < 8) :
    (lowByte x).toBitVec.getLsbD k = x.toBitVec.getLsbD k := by
  have hbits : (lowByte x).toBitVec =
      BitVec.signExtend 8 (BitVec.signExtend 32 x.toBitVec &&& 255#32) := rfl
  have hmask : ∀ j, j < 8 → (255#32).getLsbD j = true := by decide
  have h32 : k < 32 := by omega
  rw [hbits, BitVec.getLsbD_signExtend, if_pos h32, BitVec.getLsbD_and, hmask k hk,
    BitVec.getLsbD_signExtend, if_pos (by omega)]
  simp only [hk, h32, decide_true, Bool.true_and, Bool.and_true]

theorem joinBytes_bit (hi lo : UInt8) {k : Nat} (hk : k < 16) :
    (joinBytes hi lo).toBitVec.getLsbD k =
      if k < 8 then lo.toBitVec.getLsbD k else hi.toBitVec.getLsbD (k - 8) := by
  have hbits : (joinBytes hi lo).toBitVec =
      BitVec.signExtend 16 ((hi.toBitVec.setWidth 32 <<< 8) ||| lo.toBitVec.setWidth 32) := rfl
  have h32 : k < 32 := by omega
  have h8 : k - 8 < 32 := by omega
  rw [hbits, BitVec.getLsbD_signExtend, if_pos h32, BitVec.getLsbD_or,
    BitVec.getLsbD_shiftLeft, BitVec.getLsbD_setWidth, BitVec.getLsbD_setWidth]
  split
  · next hlow =>
    simp only [hk, h32, hlow, decide_true, Bool.not_true, Bool.true_and, Bool.and_false,
      Bool.false_and, Bool.false_or]
  · next hlow =>
    rw [BitVec.getLsbD_of_ge lo.toBitVec k (by omega)]
    simp only [hk, h32, hlow, h8, decide_true, decide_false, Bool.not_false, Bool.true_and,
      Bool.and_false, Bool.or_false]

/-- **Nothing is lost between the two halves.** -/
@[simp] theorem joinBytes_high_low (x : Int16) : joinBytes (highByte x) (lowByte x) = x := by
  apply Int16.toBitVec.inj
  apply BitVec.eq_of_getLsbD_eq
  intro k hk
  rw [joinBytes_bit _ _ hk]
  split
  · next hlow => exact lowByte_bit x hlow
  · next hlow =>
    rw [highByte_bit x (by omega)]
    congr 1
    omega

/-- `int x = (b3 << 24) | (b2 << 16) | (b1 << 8) | b0;` -/
def joinInt32 (b3 b2 b1 b0 : UInt8) : Int32 :=
  (b3.toUInt32.toInt32 <<< 24) ||| (b2.toUInt32.toInt32 <<< 16) |||
    (b1.toUInt32.toInt32 <<< 8) ||| b0.toUInt32.toInt32

/-- The four low bytes of a number make up its 32-bit value. -/
theorem joinInt32_shiftRight (n : Nat) :
    joinInt32 (UInt8.ofNat (n >>> 24)) (UInt8.ofNat (n >>> 16)) (UInt8.ofNat (n >>> 8))
      (UInt8.ofNat n) = Int32.ofNat n := by
  apply Int32.toBitVec.inj
  have hbits : (joinInt32 (UInt8.ofNat (n >>> 24)) (UInt8.ofNat (n >>> 16))
      (UInt8.ofNat (n >>> 8)) (UInt8.ofNat n)).toBitVec =
      ((BitVec.ofNat 8 (n >>> 24)).setWidth 32 <<< 24) |||
        ((BitVec.ofNat 8 (n >>> 16)).setWidth 32 <<< 16) |||
        ((BitVec.ofNat 8 (n >>> 8)).setWidth 32 <<< 8) ||| (BitVec.ofNat 8 n).setWidth 32 := rfl
  rw [hbits]
  apply BitVec.eq_of_getLsbD_eq
  intro k hk
  simp only [BitVec.getLsbD_or, BitVec.getLsbD_shiftLeft, BitVec.getLsbD_setWidth,
    BitVec.getLsbD_ofNat, Nat.testBit_shiftRight, Int32.toBitVec_ofNat']
  -- bit `k` comes from byte `k / 8`, the other three contribute nothing
  rcases (by omega : k < 8 ∨ (8 ≤ k ∧ k < 16) ∨ (16 ≤ k ∧ k < 24) ∨ 24 ≤ k) with h | h | h | h
  · simp [hk, h, show k < 16 by omega, show k < 24 by omega]
  · simp [hk, h, show ¬ k < 8 by omega, show k < 24 by omega, show k - 8 < 8 by omega,
      show k - 8 < 32 by omega, show 8 + (k - 8) = k by omega]
  · simp [hk, h, show ¬ k < 8 by omega, show ¬ k < 16 by omega, show ¬ k - 8 < 8 by omega,
      show k - 16 < 8 by omega, show k - 16 < 32 by omega, show 16 + (k - 16) = k by omega]
  · simp [hk, show ¬ k < 8 by omega, show ¬ k < 16 by omega, show ¬ k < 24 by omega,
      show ¬ k - 8 < 8 by omega, show ¬ k - 16 < 8 by omega, show k - 24 < 8 by omega,
      show k - 24 < 32 by omega, show 24 + (k - 24) = k by omega]

end Lame.HighLowBytes
