/-
  Lame/TagFamily.lean
  ===================
  **Tags in any orientation, with wrong bits.**

  A quarter turn moves the bits of a word of `d` by `d` bits about, so it keeps distances,
  and four of them are none.  In a family whose codes stay apart in all orientations,
  a tag that is seen turned and with a few wrong bits is therefore decoded as itself, and
  with more wrong bits not as another one.  The codes of `tag36h11.c` do stay apart by the
  11 bits in their name: the distances of all pairs are counted in the lanes of a few
  numbers.
-/
import Lame.BitLanes
import Lame.QuickDecode

namespace Lame

open BitWords

/-! ## 1. Quarter turns -/

/-- Where a bit is before a quarter turn. -/
def turnBit (d k : Nat) : Nat := (d - 1 - k % d) * d + k / d

section Turns

variable {d i j k : Nat} {w x y : BitVec 64}

theorem grid_lt (hi : i < d) (hj : j < d) : i * d + j < d * d := by
  have hle : (i + 1) * d ≤ d * d := Nat.mul_le_mul_right d hi
  rw [Nat.add_mul, Nat.one_mul] at hle
  omega

theorem exists_grid (hk : k < d * d) : ∃ i j, i < d ∧ j < d ∧ k = i * d + j := by
  have hd : 0 < d := Nat.pos_of_mul_pos_left (Nat.lt_of_le_of_lt (Nat.zero_le k) hk)
  exact ⟨k / d, k % d, Nat.div_lt_of_lt_mul hk, Nat.mod_lt k hd, (Nat.div_add_mod' k d).symm⟩

theorem turnBit_grid (hj : j < d) (i : Nat) : turnBit d (i * d + j) = (d - 1 - j) * d + i := by
  have hd : 0 < d := Nat.lt_of_le_of_lt (Nat.zero_le j) hj
  rw [turnBit, Nat.add_comm (i * d) j, Nat.add_mul_mod_self_right, Nat.mod_eq_of_lt hj,
    Nat.add_mul_div_right _ _ hd, Nat.div_eq_of_lt hj, Nat.zero_add]

theorem turnBit_lt (hk : k < d * d) : turnBit d k < d * d := by
  obtain ⟨i, j, hi, hj, rfl⟩ := exists_grid hk
  rw [turnBit_grid hj]
  exact grid_lt (by omega) hi

/-- Four quarter turns are none. -/
theorem turnBit_four (hk : k < d * d) :
    turnBit d (turnBit d (turnBit d (turnBit d k))) = k := by
  obtain ⟨i, j, hi, hj, rfl⟩ := exists_grid hk
  rw [turnBit_grid hj, turnBit_grid hi, turnBit_grid (by omega), turnBit_grid (by omega)]
  have hback (n : Nat) (hn : n < d) : d - 1 - (d - 1 - n) = n := by omega
  rw [hback i hi, hback j hj]

theorem getLsbD_turn (hd : d * d ≤ 64) (hk : k < d * d) :
    (rotate90 w d).getLsbD k = w.getLsbD (turnBit d k) := by
  obtain ⟨i, j, hi, hj, rfl⟩ := exists_grid hk
  rw [turnBit_grid hj, getLsbD_rotate90 hd hi hj]

theorem distance_rotate90 (hd : d * d ≤ 64) (hx : IsWord d x) (hy : IsWord d y) :
    distance (rotate90 x d) (rotate90 y d) = distance x y := by
  rw [← card_differing, ← card_differing]
  have hlow {b : Nat} (hb : b ∈ differing (rotate90 x d) (rotate90 y d)) : b < d * d :=
    (isWord_rotate90 x d).lt_of_mem_differing (isWord_rotate90 y d) hb
  apply Finset.card_nbij (turnBit d)
  · intro b hb
    have hlt := hlow hb
    have hne := (mem_differing.mp hb).2
    rw [getLsbD_turn hd hlt, getLsbD_turn hd hlt] at hne
    exact mem_differing.mpr ⟨Nat.lt_of_lt_of_le (turnBit_lt hlt) hd, hne⟩
  · intro a ha b hb hab
    have hfour := turnBit_four (hlow (Finset.mem_coe.mp ha))
    rw [hab, turnBit_four (hlow (Finset.mem_coe.mp hb))] at hfour
    exact hfour.symm
  · intro b hb
    have hlt := hx.lt_of_mem_differing hy (Finset.mem_coe.mp hb)
    have hthree : turnBit d (turnBit d (turnBit d b)) < d * d :=
      turnBit_lt (turnBit_lt (turnBit_lt hlt))
    refine ⟨turnBit d (turnBit d (turnBit d b)), Finset.mem_coe.mpr (mem_differing.mpr
      ⟨Nat.lt_of_lt_of_le hthree hd, ?_⟩), turnBit_four hlt⟩
    rw [getLsbD_turn hd hthree, getLsbD_turn hd hthree, turnBit_four hlt]
    exact (mem_differing.mp (Finset.mem_coe.mp hb)).2

theorem rotate90_four (hd : d * d ≤ 64) (hw : IsWord d w) :
    rotate90 (rotate90 (rotate90 (rotate90 w d) d) d) d = w := by
  apply BitVec.eq_of_getLsbD_eq
  intro b _
  by_cases hlt : b < d * d
  · rw [getLsbD_turn hd hlt, getLsbD_turn hd (turnBit_lt hlt),
      getLsbD_turn hd (turnBit_lt (turnBit_lt hlt)),
      getLsbD_turn hd (turnBit_lt (turnBit_lt (turnBit_lt hlt))), turnBit_four hlt]
  · rw [isWord_rotate90 _ d b (Nat.not_lt.mp hlt), hw b (Nat.not_lt.mp hlt)]

end Turns

namespace AprilTagFamily

variable {family : AprilTagFamily} {w x y : BitVec 64}

theorem turned_add (a b : Nat) (w : BitVec 64) :
    family.turned (a + b) w = family.turned a (family.turned b w) :=
  Function.iterate_add_apply _ a b w

theorem turned_four (hd : family.d * family.d ≤ 64) (hw : IsWord family.d w) :
    family.turned 4 w = w :=
  rotate90_four hd hw

theorem turned_mod_four (hd : family.d * family.d ≤ 64) (hw : IsWord family.d w) (k : Nat) :
    family.turned k w = family.turned (k % 4) w := by
  induction k using Nat.strong_induction_on with
  | _ k ih =>
      by_cases hk : k < 4
      · rw [Nat.mod_eq_of_lt hk]
      · obtain ⟨m, rfl⟩ := Nat.exists_eq_add_of_le' (Nat.not_lt.mp hk)
        rw [turned_add, turned_four hd hw, Nat.add_mod_right]
        exact ih m (by omega)

theorem distance_turned (hd : family.d * family.d ≤ 64) (hx : IsWord family.d x)
    (hy : IsWord family.d y) (k : Nat) :
    distance (family.turned k x) (family.turned k y) = distance x y := by
  induction k with
  | zero => rfl
  | succ k ih =>
      rw [Nat.add_comm, turned_add, turned_add, ← ih]
      exact distance_rotate90 hd (isWord_turned hx k) (isWord_turned hy k)

/-! ## 2. Families whose codes stay apart -/

/-- Codes differ in `h` bits at least from each other and from themselves turned. -/
def Separated (family : AprilTagFamily) : Prop :=
  ∀ i < family.ncodes, ∀ j < family.ncodes, ∀ r < 4, i ≠ j ∨ r ≠ 0 →
    family.h ≤ distance (family.code i) (family.turned r (family.code j))

variable {maxhamming : Int}

/-- A word with few wrong bits is near to its own code only, and not turned. -/
theorem Separated.near_turned_iff (hsep : family.Separated) (hfits : family.Fits maxhamming)
    {i : Nat} (hi : i < family.ncodes) (hw : IsWord family.d w)
    (hfew : distance (family.code i) w + QuickDecode.corrected maxhamming < family.h)
    {i' s : Nat} (hs : s < 4) :
    family.Near maxhamming (family.turned s w) i' ↔
      i' = i ∧ s = 0 ∧ distance (family.code i) w ≤ QuickDecode.corrected maxhamming := by
  have hd := Nat.le_of_lt hfits.nbits_lt
  constructor
  · intro hnear
    have hsame : i' = i ∧ s = 0 := by
      by_contra hother
      have hapart := hsep i' hnear.lt i hi s hs (by tauto)
      have htriangle := distance_triangle (family.code i') (family.turned s w)
        (family.turned s (family.code i))
      rw [distance_turned hd hw (hfits.isWord_code hi), distance_comm w] at htriangle
      have hle := hnear.distance_le
      omega
    obtain ⟨rfl, rfl⟩ := hsame
    exact ⟨rfl, rfl, hnear.distance_le⟩
  · rintro ⟨rfl, rfl, hle⟩
    exact ⟨hi, hle⟩

/-- What is decoded of a code with wrong bits, after `k` quarter turns. -/
theorem Separated.decodes_turned (hsep : family.Separated) (hfits : family.Fits maxhamming)
    {i : Nat} (hi : i < family.ncodes) (hw : IsWord family.d w)
    (hfew : distance (family.code i) w + QuickDecode.corrected maxhamming < family.h)
    {k : Nat} (hk : k < 4) {entry : QuickDecodeEntry}
    (h : family.Decodes maxhamming (family.turned k w) entry) :
    entry = if distance (family.code i) w ≤ QuickDecode.corrected maxhamming then
        ⟨w, .ofNat i, .ofNat (distance (family.code i) w), .ofNat ((4 - k) % 4)⟩
      else ⟨0, 65535, 255, 0⟩ := by
  have hd := Nat.le_of_lt hfits.nbits_lt
  have hturn (r : Nat) : family.turned r (family.turned k w) = family.turned ((r + k) % 4) w := by
    rw [← turned_add, turned_mod_four hd hw]
  have hnear (r i' : Nat) : family.Near maxhamming (family.turned r (family.turned k w)) i' ↔
      i' = i ∧ (r + k) % 4 = 0 ∧
        distance (family.code i) w ≤ QuickDecode.corrected maxhamming := by
    rw [hturn]
    exact hsep.near_turned_iff hfits hi hw hfew (Nat.mod_lt _ (by decide))
  cases h with
  | @found ridx i' ridx_lt first earlier =>
      obtain ⟨rfl, hzero, hle⟩ := (hnear _ _).mp first.1
      have hridx : (4 - k) % 4 = ridx := by omega
      rw [if_pos hle, hturn, hzero, hridx]
      rfl
  | rejected none =>
      rw [if_neg]
      intro hle
      exact none ((4 - k) % 4) (Nat.mod_lt _ (by decide)) i
        ((hnear _ _).mpr ⟨rfl, by omega, hle⟩)

end AprilTagFamily

/-! ## 3. The family tag36h11 -/

/-- `tf->codes` -/
def tag36h11Codes : List Nat := [
    0x0000000d5d628584, 0x0000000d97f18b49, 0x0000000dd280910e, 0x0000000e479e9c98, 0x0000000ebcbca822,
    0x0000000f31dab3ac, 0x0000000056a5d085, 0x000000010652e1d4, 0x000000022b1dfead, 0x0000000265ad0472,
    0x000000034fe91b86, 0x00000003ff962cd5, 0x000000043a25329a, 0x0000000474b4385f, 0x00000004e9d243e9,
    0x00000005246149ae, 0x00000005997f5538, 0x0000000683bb6c4c, 0x00000006be4a7211, 0x00000007e3158eea,
    0x000000081da494af, 0x0000000858339a74, 0x00000008cd51a5fe, 0x00000009f21cc2d7, 0x0000000a2cabc89c,
    0x0000000adc58d9eb, 0x0000000b16e7dfb0, 0x0000000b8c05eb3a, 0x0000000d25ef139d, 0x0000000d607e1962,
    0x0000000e4aba3076, 0x00000002dde6a3da, 0x000000043d40c678, 0x00000005620be351, 0x000000064c47fa65,
    0x0000000686d7002a, 0x00000006c16605ef, 0x00000006fbf50bb4, 0x00000008d06d39dc, 0x00000009f53856b5,
    0x0000000adf746dc9, 0x0000000bc9b084dd, 0x0000000d290aa77b, 0x0000000d9e28b305, 0x0000000e4dd5c454,
    0x0000000fad2fe6f2, 0x0000000181a8151a, 0x000000026be42c2e, 0x00000002e10237b8, 0x0000000405cd5491,
    0x00000007742eab1c, 0x000000085e6ac230, 0x00000008d388cdba, 0x00000009f853ea93, 0x0000000c41ea2445,
    0x0000000cf1973594, 0x000000014a34a333, 0x000000031eacd15b, 0x00000006c79d2dab, 0x000000073cbb3935,
    0x000000089c155bd3, 0x00000008d6a46198, 0x000000091133675d, 0x0000000a708d89fb, 0x0000000ae5ab9585,
    0x0000000b9558a6d4, 0x0000000b98743ab2, 0x0000000d6cec68da, 0x00000001506bcaef, 0x00000004becd217a,
    0x00000004f95c273f, 0x0000000658b649dd, 0x0000000a76c4b1b7, 0x0000000ecf621f56, 0x00000001c8a56a57,
    0x00000003628e92ba, 0x000000053706c0e2, 0x00000005e6b3d231, 0x00000007809cfa94, 0x0000000e97eead6f,
    0x00000005af40604a, 0x00000007492988ad, 0x0000000ed5994712, 0x00000005eceaf9ed, 0x00000007c1632815,
    0x0000000c1a0095b4, 0x0000000e9e25d52b, 0x00000003a6705419, 0x0000000a8333012f, 0x00000004ce5704d0,
    0x0000000508e60a95, 0x0000000877476120, 0x0000000a864e950d, 0x0000000ea45cfce7, 0x000000019da047e8,
    0x000000024d4d5937, 0x00000006e079cc9b, 0x000000099f2e11d7, 0x000000033aa50429, 0x0000000499ff26c7,
    0x000000050f1d3251, 0x000000066e7754ef, 0x000000096ad633ce, 0x00000009a5653993, 0x0000000aca30566c,
    0x0000000c298a790a, 0x00000008be44b65d, 0x0000000dc68f354b, 0x000000016f7f919b, 0x00000004dde0e826,
    0x0000000d548cbd9f, 0x0000000e0439ceee, 0x0000000fd8b1fd16, 0x000000076521bb7b, 0x0000000d92375742,
    0x0000000cab16d40c, 0x0000000730c9dd72, 0x0000000ad9ba39c2, 0x0000000b14493f87, 0x000000052b15651f,
    0x0000000185409cad, 0x000000077ae2c68d, 0x000000094f5af4b5, 0x00000000a13bad55, 0x000000061ea437cd,
    0x0000000a022399e2, 0x0000000203b163d1, 0x00000007bba8f40e, 0x000000095bc9442d, 0x000000041c0b5358,
    0x00000008e9c6cc81, 0x00000000eb549670, 0x00000009da3a0b51, 0x0000000d832a67a1, 0x0000000dcd4350bc,
    0x00000004aa05fdd2, 0x000000060c7bb44e, 0x00000004b358b96c, 0x0000000067299b45, 0x0000000b9c89b5fa,
    0x00000006975acaea, 0x000000062b8f7afa, 0x000000033567c3d7, 0x0000000bac139950, 0x0000000a5927c62a,
    0x00000005c916e6a4, 0x0000000260ecb7d5, 0x000000029b7bbd9a, 0x0000000903205f26, 0x0000000ae72270a4,
    0x00000003d2ec51a7, 0x000000082ea55324, 0x000000011a6f3427, 0x00000001ca1c4576, 0x0000000a40c81aef,
    0x0000000bddccd730, 0x00000000e617561e, 0x0000000969317b0f, 0x000000067f781364, 0x0000000610912f96,
    0x0000000b2549fdfc, 0x000000006e5aaa6b, 0x0000000b6c475339, 0x0000000c56836a4d, 0x0000000844e351eb,
    0x00000004647f83b4, 0x00000000908a04f5, 0x00000007f51034c9, 0x0000000aee537fca, 0x00000005e92494ba,
    0x0000000d445808f4, 0x000000028d68b563, 0x000000004d25374b, 0x00000002bc065f65, 0x000000096dc3ea0c,
    0x00000004b2ade817, 0x000000007c3fd502, 0x0000000e768b5caf, 0x000000017605cf6c, 0x0000000182741ee4,
    0x000000062846097c, 0x000000072b5ebf80, 0x0000000263da6e13, 0x0000000fa841bcb5, 0x00000007e45e8c69,
    0x0000000653c81fa0, 0x00000007443b5e70, 0x00000000a5234afd, 0x000000074756f24e, 0x0000000157ebf02a,
    0x000000082ef46939, 0x000000080d420264, 0x00000002aeed3e98, 0x0000000b0a1dd4f8, 0x0000000b5436be13,
    0x00000007b7b4b13b, 0x00000001ce80d6d3, 0x000000016c08427d, 0x0000000ee54462dd, 0x00000001f7644cce,
    0x00000009c7b5cc92, 0x0000000e369138f8, 0x00000005d5a66e91, 0x0000000485d62f49, 0x0000000e6e819e94,
    0x0000000b1f340eb5, 0x000000009d198ce2, 0x0000000d60717437, 0x00000000196b856c, 0x0000000f0a6173a5,
    0x000000012c0e1ec6, 0x000000062b82d5cf, 0x0000000ad154c067, 0x0000000ce3778832, 0x00000006b0a7b864,
    0x00000004c7686694, 0x00000005058ff3ec, 0x0000000d5e21ea23, 0x00000009ff4a76ee, 0x00000009dd981019,
    0x00000001bad4d30a, 0x0000000c601896d1, 0x0000000973439b48, 0x00000001ce7431a8, 0x000000057a8021d6,
    0x0000000f9dba96e6, 0x000000083a2e4e7c, 0x00000008ea585380, 0x0000000af6c0e744, 0x0000000875b73bab,
    0x0000000da34ca901, 0x00000002ab9727ef, 0x0000000d39f21b9a, 0x00000008a10b742f, 0x00000005f8952dba,
    0x0000000f8da71ab0, 0x0000000c25f9df96, 0x000000006f8a5d94, 0x0000000e42e63e1a, 0x0000000b78409d1b,
    0x0000000792229add, 0x00000005acf8c455, 0x00000002fc29a9b0, 0x0000000ea486237b, 0x0000000b0c9685a0,
    0x00000001ad748a47, 0x000000003b4712d5, 0x0000000f29216d30, 0x00000008dad65e49, 0x00000000a2cf09dd,
    0x00000000b5f174c6, 0x0000000e54f57743, 0x0000000b9cf54d78, 0x00000004a312a88a, 0x000000027babc962,
    0x0000000b86897111, 0x0000000f2ff6c116, 0x000000082274bd8a, 0x000000097023505e, 0x000000052d46edd1,
    0x0000000585c1f538, 0x0000000bddd00e43, 0x00000005590b74df, 0x0000000729404a1f, 0x000000065320855e,
    0x0000000d3d4b6956, 0x00000007ae374f14, 0x00000002d7a60e06, 0x0000000315cd9b5e, 0x0000000fd36b4eac,
    0x0000000f1df7642b, 0x000000055db27726, 0x00000008f15ebc19, 0x0000000992f8c531, 0x000000062dea2a40,
    0x0000000928275cab, 0x000000069c263cb9, 0x0000000a774cca9e, 0x0000000266b2110e, 0x00000001b14acbb8,
    0x0000000624b8a71b, 0x00000001c539406b, 0x00000003086d529b, 0x00000000111dd66e, 0x000000098cd630bf,
    0x00000008b9d1ffdc, 0x000000072b2f61e7, 0x00000009ed9d672b, 0x000000096cdd15f3, 0x00000006366c2504,
    0x00000006ca9df73a, 0x0000000a066d60f0, 0x0000000e7a4b8add, 0x00000008264647ef, 0x0000000aa195bf81,
    0x00000009a3db8244, 0x0000000014d2df6a, 0x00000000b63265b7, 0x00000002f010de73, 0x000000097e774986,
    0x0000000248affc29, 0x0000000fb57dcd11, 0x00000000b1a7e4d9, 0x00000004bfa2d07d, 0x000000054e5cdf96,
    0x00000004c15c1c86, 0x0000000cd9c61166, 0x0000000499380b2a, 0x0000000540308d09, 0x00000008b63fe66f,
    0x0000000c81aeb35e, 0x000000086fe0bd5c, 0x0000000ce2480c2a, 0x00000001ab29ee60, 0x00000008048daa15,
    0x0000000dbfeb2d39, 0x0000000567c9858c, 0x00000002b6edc5bc, 0x00000002078fca82, 0x0000000adacc22aa,
    0x0000000b92486f49, 0x000000051fac5964, 0x0000000691ee6420, 0x0000000f63b3e129, 0x000000039be7e572,
    0x0000000da2ce6c74, 0x000000020cf17a5c, 0x0000000ee55f9b6e, 0x0000000fb8572726, 0x0000000b2c2de548,
    0x0000000caa9bce92, 0x0000000ae9182db3, 0x000000074b6e5bd1, 0x0000000137b252af, 0x000000051f686881,
    0x0000000d672f6c02, 0x0000000654146ce4, 0x0000000f944bc825, 0x0000000e8327f809, 0x000000076a73fd59,
    0x0000000f79da4cb4, 0x0000000956f8099b, 0x00000007b5f2655c, 0x0000000d06b114a6, 0x0000000d0697ca50,
    0x000000027c390797, 0x0000000bc61ed9b2, 0x0000000cc12dd19b, 0x0000000eb7818d2c, 0x0000000092fcecda,
    0x000000089ded4ea1, 0x0000000256a0ba34, 0x0000000b6948e627, 0x00000001ef6b1054, 0x00000008639294a2,
    0x0000000eda3780a4, 0x000000039ee2af1d, 0x0000000cd257edc5, 0x00000002d9d6bc22, 0x0000000121d3b47d,
    0x000000037e23f8ad, 0x0000000119f31cf6, 0x00000002c97f4f09, 0x0000000d502abfe0, 0x000000010bc3ca77,
    0x000000053d7190ef, 0x000000090c3e62a6, 0x00000007e9ebf675, 0x0000000979ce23d1, 0x000000027f0c98e9,
    0x0000000eafb4ae59, 0x00000007ca7fe2bd, 0x00000001490ca8f6, 0x00000009123387ba, 0x0000000b3bc73888,
    0x00000003ea87e325, 0x00000004888964aa, 0x0000000a0188a6b9, 0x0000000cd383c666, 0x000000040029a3fd,
    0x0000000e1c00ac5c, 0x000000039e6f2b6e, 0x0000000de664f622, 0x0000000e979a75e8, 0x00000007c6b4c86c,
    0x0000000fd492e071, 0x00000008fbb35118, 0x000000040b4a09b7, 0x0000000af80bd6da, 0x000000070e0b2521,
    0x00000002f5c54d93, 0x00000003f4a118d5, 0x000000009c1897b9, 0x0000000079776eac, 0x0000000084b00b17,
    0x00000003a95ad90e, 0x000000028c544095, 0x000000039d457c05, 0x00000007a3791a78, 0x0000000bb770e22e,
    0x00000009a822bd6c, 0x000000068a4b1fed, 0x0000000a5fd27b3b, 0x00000000c3995b79, 0x0000000d1519dff1,
    0x00000008e7eee359, 0x0000000cd3ca50b1, 0x0000000b73b8b793, 0x000000057aca1c43, 0x0000000ec2655277,
    0x0000000785a2c1b3, 0x000000075a07985a, 0x0000000a4b01eb69, 0x0000000a18a11347, 0x0000000db1f28ca3,
    0x0000000877ec3e25, 0x000000031f6341b8, 0x00000001363a3a4c, 0x0000000075d8b9ba, 0x00000007ae0792a9,
    0x0000000a83a21651, 0x00000007f08f9fb5, 0x00000000d0cf73a9, 0x0000000b04dcc98e, 0x0000000f65c7b0f8,
    0x000000065ddaf69a, 0x00000002cf9b86b3, 0x000000014cb51e25, 0x0000000f48027b5b, 0x00000000ec26ea8b,
    0x000000044bafd45c, 0x0000000b12c7c0c4, 0x0000000959fd9d82, 0x0000000c77c9725a, 0x000000048a22d462,
    0x00000008398e8072, 0x0000000ec89b05ce, 0x0000000bb682d4c9, 0x0000000e5a86d2ff, 0x0000000358f01134,
    0x00000008556ddcf6, 0x000000067584b6e2, 0x000000011609439f, 0x000000008488816e, 0x0000000aaf1a2c46,
    0x0000000f879898cf, 0x00000008bbe5e2f7, 0x0000000101eee363, 0x0000000690f69377, 0x0000000f5bd93cd9,
    0x0000000cea4c2bf6, 0x00000009550be706, 0x00000002c5b38a60, 0x0000000e72033547, 0x00000004458b0629,
    0x0000000ee8d9ed41, 0x0000000d2f918d72, 0x000000078dc39fd3, 0x00000008212636f6, 0x00000007450a72a7,
    0x0000000c4f0cf4c6, 0x0000000367bcddcd, 0x0000000c1caf8cc6, 0x0000000a7f5b853d, 0x00000009d536818b,
    0x0000000535e021b0, 0x0000000a7eb8729e, 0x0000000422a67b49, 0x0000000929e928a6, 0x000000048e8aefcc,
    0x0000000a9897393c, 0x00000005eb81d37e, 0x00000001e80287b7, 0x000000034770d903, 0x00000002eef86728,
    0x000000059266ccb6, 0x00000000110bba61, 0x00000001dfd284ef, 0x0000000447439d1b, 0x0000000fece0e599,
    0x00000009309f3703, 0x000000080764d1dd, 0x0000000353f1e6a0, 0x00000002c1c12dcc, 0x0000000c1d21b9d7,
    0x0000000457ee453e, 0x0000000d66faf540, 0x000000044831e652, 0x0000000cfd49a848, 0x00000009312d4133,
    0x00000003f097d3ee, 0x00000008c9ebef7a, 0x0000000a99e29e88, 0x00000000e9fab22c, 0x00000004e748f4fb,
    0x0000000ecdee4288, 0x0000000abce5f1d0, 0x0000000c42f6876c, 0x00000007ed402ea0, 0x0000000e5c4242c3,
    0x0000000d5b2c31ae, 0x0000000286863be6, 0x0000000160444d94, 0x00000005f0f5808e, 0x0000000ae3d44b2a,
    0x00000009f5c5d109, 0x00000008ad9316d7, 0x00000003422ba064, 0x00000002fed11d56, 0x0000000bea6e3e04,
    0x000000004b029eec, 0x00000006deed7435, 0x00000003718ce17c, 0x000000055857f5e2, 0x00000002edac7b62,
    0x0000000085d6c512, 0x0000000d6ca88e0f, 0x00000002b7e1fc69, 0x0000000a699d5c1b, 0x0000000f05ad74de,
    0x00000004cf5fb56d, 0x00000005725e07e1, 0x000000072f18a2de, 0x00000001cec52609, 0x000000048534243c,
    0x00000002523a4d69, 0x000000035c1b80d1, 0x0000000a4d7338a7, 0x00000000db1af012, 0x0000000e61a9475d,
    0x000000005df03f91, 0x000000097ae260bb, 0x000000032d627fef, 0x0000000b640f73c2, 0x000000045a1ac9c6,
    0x00000006a2202de1, 0x000000057d3e25f2, 0x00000005aa9f986e, 0x00000000cc859d8a, 0x0000000e3ec6cca8,
    0x000000054e95e1ae, 0x0000000446887b06, 0x00000007516732be, 0x00000003817ac8f5, 0x00000003e26d938c,
    0x0000000aa81bc235, 0x0000000df387ca1b, 0x00000000f3a3b3f2, 0x0000000b4bf69677, 0x0000000ae21868ed,
    0x000000081e1d2d9d, 0x0000000a0a9ea14c, 0x00000008eee297a9, 0x00000004740c0559, 0x0000000e8b141837,
    0x0000000ac69e0a3d, 0x00000009ed83a1e1, 0x00000005edb55ecb, 0x000000007340fe81, 0x000000050dfbc6bf,
    0x00000004f583508a, 0x0000000cb1fb78bc, 0x00000004025ced2f, 0x000000039791ebec, 0x000000053ee388f1,
    0x00000007d6c0bd23, 0x000000093a995fbe, 0x00000008a41728de, 0x00000002fe70e053, 0x0000000ab3db443a,
    0x00000001364edb05, 0x000000047b6eeed6, 0x000000012e71af01, 0x000000052ff83587, 0x00000003a1575dd8,
    0x00000003feaa3564, 0x0000000eacf78ba7, 0x00000000872b94f8, 0x0000000da8ddf9a2, 0x00000009aa920d2b,
    0x00000001f350ed36, 0x000000018a5e861f, 0x00000002c35b89c3, 0x00000003347ac48a, 0x00000007f23e022e,
    0x00000002459068fb, 0x0000000e83be4b73]

/-- `tag36h11_create` -/
def tag36h11 : AprilTagFamily where
  codes := tag36h11Codes.map (BitVec.ofNat 64)
  blackBorder := 1
  d := 6
  h := 11

namespace Tag36h11

open BitLanes

/-- One bit of all codes in all orientations. -/
def turnedColumn (columns : List Nat) (b : Nat) : Nat :=
  concat 587 [columns.getD b 0, columns.getD (turnBit 6 b) 0,
    columns.getD (turnBit 6 (turnBit 6 b)) 0,
    columns.getD (turnBit 6 (turnBit 6 (turnBit 6 b))) 0]

def turnedColumns : List Nat :=
  let columns := (List.range 36).map (column tag36h11Codes)
  (List.range 36).map (turnedColumn columns)

def block (k : Nat) : List Nat := (tag36h11Codes.drop (16 * k)).take 16

/-- The codes of the block against themselves. -/
def themselves (k : Nat) : Nat :=
  concat 2348 ((List.range (block k).length).map fun i => 1 <<< (16 * k + i))

theorem allApart_blocks : ((List.range 37).all fun k =>
    allApart 2348 10 (themselves k) turnedColumns (block k)) = true := by
  decide +kernel

theorem length_codes : tag36h11Codes.length = 587 := by decide +kernel

theorem ncodes_eq : tag36h11.ncodes = 587 := by
  rw [AprilTagFamily.ncodes, tag36h11, List.length_map, length_codes]

theorem code_eq {j : Nat} (hj : j < 587) :
    tag36h11.code j = BitVec.ofNat 64 (tag36h11Codes.getD j 0) := by
  rw [← length_codes] at hj
  rw [AprilTagFamily.code, tag36h11, List.getD_eq_getElem?_getD, List.getElem?_map,
    List.getElem?_eq_getElem hj, Option.map_some, Option.getD_some, List.getD_eq_getElem?_getD,
    List.getElem?_eq_getElem hj, Option.getD_some]

theorem getLsbD_code {j b : Nat} (hj : j < 587) (hb : b < 36) :
    (tag36h11.code j).getLsbD b = (tag36h11Codes.getD j 0).testBit b := by
  rw [code_eq hj, BitVec.getLsbD_ofNat, decide_eq_true (by omega), Bool.true_and]

theorem column_lt_587 (b : Nat) : column tag36h11Codes b < 2 ^ 587 := by
  have hlt := column_lt tag36h11Codes b
  rwa [length_codes] at hlt

theorem getD_columns {b : Nat} (hb : b < 36) :
    ((List.range 36).map (column tag36h11Codes)).getD b 0 = column tag36h11Codes b := by
  rw [List.getD_eq_getElem?_getD, List.getElem?_map, List.getElem?_range hb, Option.map_some,
    Option.getD_some]

theorem getD_turnedColumns {b : Nat} (hb : b < 36) :
    turnedColumns.getD b 0 = concat 587 [column tag36h11Codes b,
      column tag36h11Codes (turnBit 6 b), column tag36h11Codes (turnBit 6 (turnBit 6 b)),
      column tag36h11Codes (turnBit 6 (turnBit 6 (turnBit 6 b)))] := by
  have hturn {k : Nat} (hk : k < 36) : turnBit 6 k < 36 := turnBit_lt hk
  rw [turnedColumns, List.getD_eq_getElem?_getD, List.getElem?_map, List.getElem?_range hb,
    Option.map_some, Option.getD_some, turnedColumn, getD_columns hb, getD_columns (hturn hb),
    getD_columns (hturn (hturn hb)), getD_columns (hturn (hturn (hturn hb)))]

theorem rows_lt (b : Nat) : ∀ row ∈ [column tag36h11Codes b,
    column tag36h11Codes (turnBit 6 b), column tag36h11Codes (turnBit 6 (turnBit 6 b)),
    column tag36h11Codes (turnBit 6 (turnBit 6 (turnBit 6 b)))], row < 2 ^ 587 := by
  simp only [List.forall_mem_cons]
  exact ⟨column_lt_587 _, column_lt_587 _, column_lt_587 _, column_lt_587 _, List.forall_mem_nil _⟩

/-- The lane `r * 587 + j` is that of the code at `j` after `r` quarter turns. -/
theorem testBit_turnedColumns {b r j : Nat} (hb : b < 36) (hr : r < 4) (hj : j < 587) :
    (turnedColumns.getD b 0).testBit (r * 587 + j) =
      (tag36h11.turned r (tag36h11.code j)).getLsbD b := by
  have hturn {k : Nat} (hk : k < 36) : turnBit 6 k < 36 := turnBit_lt hk
  have hcode {k : Nat} (hk : k < 36) :
      (column tag36h11Codes k).testBit j = (tag36h11.code j).getLsbD k := by
    rw [testBit_column (by rwa [length_codes]), getLsbD_code hj hk]
  have hbit {w : BitVec 64} {k : Nat} (hk : k < 36) :
      (rotate90 w 6).getLsbD k = w.getLsbD (turnBit 6 k) := getLsbD_turn (by decide) hk
  rw [getD_turnedColumns hb, testBit_concat (rows_lt b) hj]
  interval_cases r
  · exact hcode hb
  · exact (hcode (hturn hb)).trans (hbit hb).symm
  · refine (hcode (hturn (hturn hb))).trans ?_
    rw [← hbit (hturn hb)]
    exact (hbit hb).symm
  · refine (hcode (hturn (hturn (hturn hb)))).trans ?_
    rw [← hbit (hturn (hturn hb)), ← hbit (hturn hb)]
    exact (hbit hb).symm

theorem length_block {i : Nat} (hi : i < 587) : i % 16 < (block (i / 16)).length := by
  rw [block, List.length_take, List.length_drop, length_codes]
  omega

theorem getD_block (i : Nat) : (block (i / 16)).getD (i % 16) 0 = tag36h11Codes.getD i 0 := by
  rw [block, List.getD_eq_getElem?_getD, List.getElem?_take_of_lt (Nat.mod_lt i (by decide)),
    List.getElem?_drop, Nat.div_add_mod, List.getD_eq_getElem?_getD]

theorem testBit_themselves {i lane : Nat} (hi : i < 587) (hlane : lane < 2348) :
    (themselves (i / 16)).testBit (i % 16 * 2348 + lane) = decide (i = lane) := by
  have hblock := length_block hi
  rw [themselves, testBit_concat ?_ hlane, List.getD_eq_getElem?_getD, List.getElem?_map,
    List.getElem?_range hblock, Option.map_some, Option.getD_some, Nat.div_add_mod,
    Nat.one_shiftLeft, Nat.testBit_two_pow]
  intro row hrow
  obtain ⟨i', hi', rfl⟩ := List.mem_map.mp hrow
  rw [List.mem_range, block, List.length_take, List.length_drop, length_codes] at hi'
  have hlt : 16 * (i / 16) + i' < 2348 := by omega
  have hpow := Nat.pow_lt_pow_right Nat.one_lt_two hlt
  rwa [Nat.one_shiftLeft]

theorem length_turnedColumns : turnedColumns.length = 36 := by
  rw [turnedColumns, List.length_map, List.length_range]

theorem turnedColumns_lt : ∀ row ∈ turnedColumns, row < 2 ^ 2348 := by
  intro row hrow
  obtain ⟨b, hb, rfl⟩ := List.getElem_of_mem hrow
  rw [length_turnedColumns] at hb
  have hlt := concat_lt (n := 2348) (rows_lt b) (by simp)
  rw [← getD_turnedColumns hb, List.getD_eq_getElem?_getD,
    List.getElem?_eq_getElem (by rwa [length_turnedColumns])] at hlt
  exact hlt

end Tag36h11

/-- **The codes of tag36h11 stay apart by 11 bits**, in all orientations. -/
theorem separated_tag36h11 : tag36h11.Separated := by
  intro i hi j hj r hr hother
  rw [Tag36h11.ncodes_eq] at hi hj
  have hlane : r * 587 + j < 2348 := by omega
  have happart := List.all_eq_true.mp Tag36h11.allApart_blocks (i / 16)
    (List.mem_range.mpr (by omega))
  have hunmarked := Tag36h11.testBit_themselves hi hlane
  rw [decide_eq_false (by omega)] at hunmarked
  have hcount := BitLanes.lt_countP_of_allApart Tag36h11.turnedColumns_lt happart
    (Tag36h11.length_block hi) hlane hunmarked
  rw [Tag36h11.length_turnedColumns, Tag36h11.getD_block] at hcount
  rw [List.countP_eq_length_filter, ← List.toFinset_card_of_nodup
    (List.nodup_range.filter _)] at hcount
  refine Nat.le_trans (Nat.succ_le_of_lt hcount) ?_
  rw [← card_differing]
  apply Finset.card_le_card
  intro b hb
  rw [List.mem_toFinset, List.mem_filter, List.mem_range] at hb
  refine mem_differing.mpr ⟨by omega, ?_⟩
  rw [Tag36h11.getLsbD_code hi hb.1, ← Tag36h11.testBit_turnedColumns hb.1 hr hj]
  intro heq
  rw [heq, Bool.xor_self] at hb
  cases hb.2

theorem fits_tag36h11 : tag36h11.Fits 2 := by
  refine ⟨?_, ?_, ?_, by decide, ?_⟩
  · rw [Tag36h11.ncodes_eq]
    decide
  · rw [Tag36h11.ncodes_eq]
    decide
  · rw [QuickDecode.capacity, Tag36h11.ncodes_eq]
    decide
  · intro code hcode
    obtain ⟨word, hword, rfl⟩ := List.mem_map.mp hcode
    have hlt : tag36h11Codes.all (· < 2 ^ 36) = true := by decide +kernel
    have hword' := of_decide_eq_true (List.all_eq_true.mp hlt word hword)
    rw [BitVec.toNat_ofNat]
    exact Nat.lt_of_le_of_lt (Nat.mod_le _ _) hword'

end Lame
