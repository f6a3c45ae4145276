/-
  Lame/EncoderPasses.lean
  =======================
  **What `encodeCOBS` does on the way, for every value of its length parameter.**

  The functions below are the encoder once more, with a `uint8_t` counter in the inner
  loop too, every access logged, and the passes of the outer loop recorded with their
  section codes before these are narrowed; the `result_…` lemmas say that they compute
  the same.  Fuel bounds the passes, so a run that ends is one that needs finitely many.

  Up to length 254 the passes are those at `0 .. length`.  At 255 the condition of the
  outer loop holds of every counter, and `encodeLoop_never_stops` spends any fuel.
-/
import Lame.ByteAccesses
import Lame.Cobs
import Mathlib.Data.List.Nodup

namespace Lame

open ByteMemory ByteAccesses SectionStuffing

/-! ## 1. The source function with its passes and accesses -/

/-- One pass through the body of the outer loop. -/
structure Pass where
  i : UInt8
  /-- `i - sec_hd + 1` as an `int`, when the pass closes a section. -/
  code : Option Int
deriving DecidableEq, Repr

/-- `for (j = i; j > sec_hd; j--) buffer[j] = buffer[j - 1];` -/
def shiftSectionLogged (sec_hd : UInt8) : Nat → List UInt8 → UInt8 → Logged (List UInt8)
  | 0, _, _ => .fail .outOfFuel
  | fuel + 1, buffer, j =>
      if j > sec_hd then do
        let previous ← .loadInt buffer (j.toNat - 1 : Int)
        let buffer ← .store buffer j.toNat previous
        shiftSectionLogged sec_hd fuel buffer (j - 1)
      else return buffer

def encodeLoopLogged (length : UInt8) :
    Nat → List UInt8 → UInt8 → UInt8 → Logged (List UInt8 × List Pass)
  | 0, _, _, _ => .fail .outOfFuel
  | fuel + 1, buffer, i, sec_hd =>
      if i ≤ length then do
        let current ← .load buffer i.toNat
        if current = 0x00 then
          let buffer ← shiftSectionLogged sec_hd COUNTER_VALUES buffer i
          let code : Int := i.toNat - sec_hd.toNat + 1
          let buffer ← .store buffer sec_hd.toNat (UInt8.ofInt code)
          let rest ← encodeLoopLogged length fuel buffer (i + 1) (i + 1)
          return (rest.1, ⟨i, some code⟩ :: rest.2)
        else
          let rest ← encodeLoopLogged length fuel buffer (i + 1) sec_hd
          return (rest.1, ⟨i, none⟩ :: rest.2)
      else return (buffer, [])

structure Encoded where
  buffer : List UInt8
  ret : Nat
  passes : List Pass
deriving DecidableEq, Repr

def encodeCOBSLogged (fuel : Nat) (buffer : List UInt8) (length : UInt8) : Logged Encoded := do
  let coded ← encodeLoopLogged length fuel buffer 0 0
  let buffer ← .store coded.1 (length.toNat + 1) 0x00
  return ⟨buffer, length.toNat + 2, coded.2⟩

/-! ## 2. The log changes nothing -/

/-- A counter that is above another one can step down. -/
theorem toNat_pred_of_gt {sec_hd j : UInt8} (h : j > sec_hd) : (j - 1).toNat + 1 = j.toNat := by
  have hlt := UInt8.lt_iff_toNat_lt.mp h
  have hone : (1 : UInt8) ≤ j := by
    rw [UInt8.le_iff_toNat_le]
    simp only [UInt8.reduceToNat]
    omega
  rw [UInt8.toNat_sub_of_le _ _ hone]
  simp only [UInt8.reduceToNat]
  omega

theorem result_shiftSectionLogged {sec_hd j : UInt8} {fuel : Nat} (hfuel : j.toNat < fuel)
    (buffer : List UInt8) :
    (shiftSectionLogged sec_hd fuel buffer j).result =
      shiftSection buffer sec_hd.toNat j.toNat := by
  induction fuel generalizing buffer j with
  | zero => exact absurd hfuel (Nat.not_lt_zero _)
  | succ fuel ih =>
      rw [shiftSectionLogged]
      by_cases hgo : j > sec_hd
      · have hlt : sec_hd.toNat < j.toNat := UInt8.lt_iff_toNat_lt.mp hgo
        have hpred := toNat_pred_of_gt hgo
        have hload : loadInt buffer (j.toNat - 1 : Int) = load buffer (j - 1).toNat := by
          have hindex : (j.toNat - 1 : Int) = (j - 1).toNat := by omega
          rw [hindex, loadInt, if_neg (by omega), Int.toNat_natCast]
        rw [if_pos hgo, Logged.result_bind, Logged.result_loadInt, hload, ← hpred, shiftSection,
          if_pos (by omega)]
        congr 1
        funext previous
        rw [Logged.result_bind, Logged.result_store]
        congr 1
        funext buffer
        exact ih (by omega) buffer
      · have hle : ¬ j.toNat > sec_hd.toNat := fun h => hgo (UInt8.lt_iff_toNat_lt.mpr h)
        rw [if_neg hgo]
        cases hj : j.toNat with
        | zero => rfl
        | succ below =>
            rw [shiftSection, if_neg (by omega)]
            rfl

/-- The `int` that is narrowed is the difference in `uint8_t`, wrapped or not. -/
theorem ofInt_code (i sec_hd : UInt8) :
    UInt8.ofInt (i.toNat - sec_hd.toNat + 1) = i - sec_hd + 1 := by
  have hcast (x : UInt8) : UInt8.ofInt x.toNat = x := by
    apply UInt8.toNat_inj.mp
    have hx := x.toNat_lt
    rw [UInt8.ofInt, UInt8.toNat_ofNat']
    omega
  rw [Int.sub_eq_add_neg, UInt8.ofInt_add, UInt8.ofInt_add, UInt8.ofInt_neg, hcast, hcast,
    UInt8.ofInt_one, ← UInt8.sub_eq_add_neg]

theorem map_bind {β γ δ : Type} (first : Exec β) (next : β → Exec γ) (f : γ → δ) :
    (first >>= next).map f = first >>= fun value => (next value).map f := by
  cases first with
  | error fault => rfl
  | ok value => rfl

/-- A pass that is put in front of those of the rest leaves the buffer alone. -/
theorem map_fst_recorded (rest : Exec (List UInt8 × List Pass)) (pass : Pass) :
    (rest >>= fun rest => (.ok (rest.1, pass :: rest.2) : Exec _)).map Prod.fst =
      rest.map Prod.fst := by
  cases rest with
  | error fault => rfl
  | ok rest => rfl

theorem result_encodeLoopLogged (length : UInt8) (fuel : Nat) (buffer : List UInt8)
    (i sec_hd : UInt8) :
    (encodeLoopLogged length fuel buffer i sec_hd).result.map Prod.fst =
      encodeLoop length fuel buffer i sec_hd := by
  induction fuel generalizing buffer i sec_hd with
  | zero => rfl
  | succ fuel ih =>
      rw [encodeLoopLogged, encodeLoop]
      by_cases hgo : i ≤ length
      · rw [if_pos hgo, if_pos hgo, Logged.result_bind, Logged.result_load, map_bind]
        congr 1
        funext current
        by_cases hzero : current = 0
        · have hfuel : i.toNat < COUNTER_VALUES := i.toNat_lt
          rw [if_pos hzero, if_pos hzero, Logged.result_bind, map_bind,
            result_shiftSectionLogged hfuel]
          congr 1
          funext buffer
          rw [Logged.result_bind, Logged.result_store, map_bind, ofInt_code]
          congr 1
          funext buffer
          rw [Logged.result_bind, ← ih]
          exact map_fst_recorded _ _
        · rw [if_neg hzero, if_neg hzero, Logged.result_bind, ← ih]
          exact map_fst_recorded _ _
      · rw [if_neg hgo, if_neg hgo]
        rfl

theorem result_encodeCOBSLogged (buffer : List UInt8) (length : UInt8) :
    (encodeCOBSLogged COUNTER_VALUES buffer length).result.map
        (fun encoded => (encoded.buffer, encoded.ret)) =
      encodeCOBS buffer length := by
  rw [encodeCOBSLogged, encodeCOBS, ← result_encodeLoopLogged, Logged.result_bind]
  cases (encodeLoopLogged length COUNTER_VALUES buffer 0 0).result with
  | error fault => rfl
  | ok coded =>
      rw [ok_bind, Logged.result_bind, Logged.result_store, map_bind]
      rfl

/-! ## 3. The passes -/

/-- How a loop that ends goes through its next pass, if there is one. -/
inductive PassesOf (length : UInt8) (fuel : Nat) (i sec_hd : UInt8) (after : List UInt8) :
    List Pass → Prop where
  | done (hstop : ¬ i ≤ length) : PassesOf length fuel i sec_hd after []
  | inside {buffer : List UInt8} {rest : List Pass} (hgo : i ≤ length)
      (hrest : (encodeLoopLogged length fuel buffer (i + 1) sec_hd).result = .ok (after, rest)) :
      PassesOf length fuel i sec_hd after (⟨i, none⟩ :: rest)
  | closing {buffer : List UInt8} {rest : List Pass} (hgo : i ≤ length)
      (hrest : (encodeLoopLogged length fuel buffer (i + 1) (i + 1)).result =
        .ok (after, rest)) :
      PassesOf length fuel i sec_hd after (⟨i, some (i.toNat - sec_hd.toNat + 1)⟩ :: rest)

theorem encodeLoopLogged_cases {length : UInt8} {fuel : Nat} {buffer after : List UInt8}
    {i sec_hd : UInt8} {passes : List Pass}
    (h : (encodeLoopLogged length (fuel + 1) buffer i sec_hd).result = .ok (after, passes)) :
    PassesOf length fuel i sec_hd after passes := by
  rw [encodeLoopLogged] at h
  by_cases hgo : i ≤ length
  · rw [if_pos hgo, Logged.result_bind] at h
    obtain ⟨current, -, h⟩ := bind_eq_ok.mp h
    by_cases hzero : current = 0
    · rw [if_pos hzero, Logged.result_bind] at h
      obtain ⟨shifted, -, h⟩ := bind_eq_ok.mp h
      rw [Logged.result_bind] at h
      obtain ⟨stored, -, h⟩ := bind_eq_ok.mp h
      rw [Logged.result_bind] at h
      obtain ⟨rest, hrest, h⟩ := bind_eq_ok.mp h
      cases h
      exact .closing hgo hrest
    · rw [if_neg hzero, Logged.result_bind] at h
      obtain ⟨rest, hrest, h⟩ := bind_eq_ok.mp h
      cases h
      exact .inside hgo hrest
  · rw [if_neg hgo] at h
    cases h
    exact .done hgo

/-- Below 255 the counter does not wrap behind a pass. -/
theorem toNat_succ_of_le {length i : UInt8} (hlength : length.toNat ≤ 254) (hgo : i ≤ length) :
    (i + 1).toNat = i.toNat + 1 := by
  have hle := UInt8.le_iff_toNat_le.mp hgo
  rw [UInt8.toNat_add]
  simp only [UInt8.reduceToNat]
  omega

/-- The passes from `i` on are those at `i .. length`, one after the other. -/
theorem visits_encodeLoopLogged {length : UInt8} (hlength : length.toNat ≤ 254) {fuel : Nat}
    {buffer after : List UInt8} {i sec_hd : UInt8} {passes : List Pass}
    (hi : i.toNat ≤ length.toNat + 1)
    (hrun : (encodeLoopLogged length fuel buffer i sec_hd).result = .ok (after, passes)) :
    (passes.map fun pass => pass.i.toNat) =
      List.range' i.toNat (length.toNat + 1 - i.toNat) := by
  induction fuel generalizing buffer i sec_hd passes with
  | zero => cases hrun
  | succ fuel ih =>
      cases encodeLoopLogged_cases hrun with
      | done hstop =>
          rw [UInt8.le_iff_toNat_le] at hstop
          have hnone : length.toNat + 1 - i.toNat = 0 := by omega
          rw [hnone]
          rfl
      | inside hgo hrest | closing hgo hrest =>
          have hle := UInt8.le_iff_toNat_le.mp hgo
          have hsucc := toNat_succ_of_le hlength hgo
          have hvisits := ih (by omega) hrest
          have hcount : length.toNat + 1 - i.toNat = (length.toNat + 1 - (i + 1).toNat) + 1 := by
            omega
          rw [List.map_cons, hvisits, hcount, List.range'_succ, hsucc]

/-- A section is at most as long as the block, so that its code fits a `uint8_t`. -/
theorem codes_encodeLoopLogged {length : UInt8} (hlength : length.toNat ≤ 254) {fuel : Nat}
    {buffer after : List UInt8} {i sec_hd : UInt8} {passes : List Pass}
    (hhd : sec_hd.toNat ≤ i.toNat)
    (hrun : (encodeLoopLogged length fuel buffer i sec_hd).result = .ok (after, passes)) :
    ∀ pass ∈ passes, ∀ code ∈ pass.code, 1 ≤ code ∧ code ≤ 255 := by
  induction fuel generalizing buffer i sec_hd passes with
  | zero => cases hrun
  | succ fuel ih =>
      intro pass hmem code hcode
      cases encodeLoopLogged_cases hrun with
      | done => cases hmem
      | inside hgo hrest =>
          have hsucc := toNat_succ_of_le hlength hgo
          rcases List.mem_cons.mp hmem with rfl | hmem
          · cases hcode
          · exact ih (by omega) hrest pass hmem code hcode
      | closing hgo hrest =>
          have hle := UInt8.le_iff_toNat_le.mp hgo
          rcases List.mem_cons.mp hmem with rfl | hmem
          · obtain rfl := Option.some.inj hcode
            omega
          · exact ih (Nat.le_refl _) hrest pass hmem code hcode

/-! ## 4. The accesses -/

theorem accesses_shiftSectionLogged {bound : Int} {sec_hd j : UInt8} (hj : j.toNat < bound)
    (fuel : Nat) (buffer : List UInt8) :
    (shiftSectionLogged sec_hd fuel buffer j).Accesses (Access.Inside bound bound) := by
  induction fuel generalizing buffer j with
  | zero => exact Logged.accesses_fail _
  | succ fuel ih =>
      rw [shiftSectionLogged]
      split
      · next hgo =>
        have hpred := toNat_pred_of_gt hgo
        refine (Logged.accesses_loadInt ⟨by omega, by omega⟩).bind fun previous _ => ?_
        refine (Logged.accesses_store ⟨by omega, hj⟩).bind fun buffer _ => ?_
        exact ih (by omega) buffer
      · exact Logged.accesses_pure _

/-- The counters are bounded by the block, whatever the length and however long it runs. -/
theorem accesses_encodeLoopLogged {length sec_hd : UInt8} (hhd : sec_hd.toNat ≤ length.toNat + 1)
    (fuel : Nat) (buffer : List UInt8) (i : UInt8) :
    (encodeLoopLogged length fuel buffer i sec_hd).Accesses
      (Access.Inside (length.toNat + 2) (length.toNat + 2)) := by
  induction fuel generalizing buffer i sec_hd with
  | zero => exact Logged.accesses_fail _
  | succ fuel ih =>
      rw [encodeLoopLogged]
      split
      · next hgo =>
        have hle := UInt8.le_iff_toNat_le.mp hgo
        refine (Logged.accesses_load ⟨by omega, by omega⟩).bind fun current _ => ?_
        split
        · have hnext : (i + 1).toNat ≤ length.toNat + 1 := by
            rw [UInt8.toNat_add]
            simp only [UInt8.reduceToNat]
            omega
          refine (accesses_shiftSectionLogged (by omega) _ buffer).bind fun buffer _ => ?_
          refine (Logged.accesses_store ⟨by omega, by omega⟩).bind fun buffer _ => ?_
          exact (ih hnext buffer (i + 1)).bind fun rest _ => Logged.accesses_pure _
        · exact (ih hhd buffer (i + 1)).bind fun rest _ => Logged.accesses_pure _
      · exact Logged.accesses_pure _

theorem accesses_encodeCOBSLogged (fuel : Nat) (buffer : List UInt8) (length : UInt8) :
    (encodeCOBSLogged fuel buffer length).Accesses
      (Access.Inside (length.toNat + 2) (length.toNat + 2)) := by
  rw [encodeCOBSLogged]
  refine (accesses_encodeLoopLogged (Nat.zero_le _) fuel buffer 0).bind fun coded _ => ?_
  refine (Logged.accesses_store ⟨by omega, by omega⟩).bind fun _ _ => ?_
  exact Logged.accesses_pure _

/-! ## 5. Termination -/

/-- The inner loop ends for all counters, and the buffer keeps its length. -/
theorem exists_shiftSection {buffer : List UInt8} {j : Nat} (h : j < buffer.length)
    (sec_hd : Nat) :
    ∃ after, shiftSection buffer sec_hd j = .ok after ∧ after.length = buffer.length := by
  induction j generalizing buffer with
  | zero => exact ⟨buffer, rfl, rfl⟩
  | succ j ih =>
      rw [shiftSection]
      split
      · obtain ⟨previous, hload⟩ := exists_load (Nat.lt_of_succ_lt h)
        have hset : j < (buffer.set (j + 1) previous).length := by
          rw [List.length_set]
          exact Nat.lt_of_succ_lt h
        obtain ⟨after, hshift, hlength⟩ := ih hset
        rw [hload, ok_bind, store, if_pos h, ok_bind]
        exact ⟨after, hshift, hlength.trans List.length_set⟩
      · exact ⟨buffer, rfl, rfl⟩

/-- **At length 255** the outer loop never stops: no counter is above its bound. -/
theorem encodeLoop_never_stops {buffer : List UInt8} (hbuffer : 256 ≤ buffer.length)
    (fuel : Nat) (i sec_hd : UInt8) :
    encodeLoop 255 fuel buffer i sec_hd = .error .outOfFuel := by
  induction fuel generalizing buffer i sec_hd with
  | zero => rfl
  | succ fuel ih =>
      have hi : i.toNat < buffer.length := Nat.lt_of_lt_of_le i.toNat_lt hbuffer
      have hhd : sec_hd.toNat < buffer.length := Nat.lt_of_lt_of_le sec_hd.toNat_lt hbuffer
      have hgo : i ≤ 255 := UInt8.le_iff_toNat_le.mpr (Nat.le_of_lt_succ i.toNat_lt)
      obtain ⟨current, hload⟩ := exists_load hi
      rw [encodeLoop, if_pos hgo, hload, ok_bind]
      split
      · obtain ⟨shifted, hshift, hlength⟩ := exists_shiftSection hi sec_hd.toNat
        rw [hshift, ok_bind, store, if_pos (by omega), ok_bind]
        apply ih
        rw [List.length_set]
        omega
      · exact ih hbuffer _ _

/-- An execution that ends, with one pass for each index of the block, with all accesses
    inside of the block and the delimiter, and with section codes that are not zero. -/
structure Orderly (length : UInt8) (log : Logged Encoded) (encoded : Encoded) : Prop where
  ends : log.result = .ok encoded
  visited : ∀ index ≤ length, (encoded.passes.map Pass.i).count index = 1
  inside : ∀ access ∈ log.accesses, access.Inside (length.toNat + 2) (length.toNat + 2)
  codes : ∀ pass ∈ encoded.passes, ∀ code ∈ pass.code, UInt8.ofInt code ≠ 0

/-- With enough fuel the execution is orderly. -/
def EncodesOrderly (length : UInt8) (buffer : List UInt8) : Prop :=
  ∃ fuel encoded, Orderly length (encodeCOBSLogged fuel buffer length) encoded

/-- The passes of an execution that ends are those of its loop. -/
theorem loop_of_encoded {fuel : Nat} {buffer : List UInt8} {length : UInt8} {encoded : Encoded}
    (h : (encodeCOBSLogged fuel buffer length).result = .ok encoded) :
    ∃ coded, (encodeLoopLogged length fuel buffer 0 0).result = .ok (coded, encoded.passes) := by
  rw [encodeCOBSLogged, Logged.result_bind] at h
  obtain ⟨⟨coded, passes⟩, hcoded, h⟩ := bind_eq_ok.mp h
  rw [Logged.result_bind] at h
  obtain ⟨stored, -, h⟩ := bind_eq_ok.mp h
  cases h
  exact ⟨coded, hcoded⟩

theorem not_encodesOrderly {buffer : List UInt8} (hbuffer : 256 ≤ buffer.length) :
    ¬ EncodesOrderly 255 buffer := by
  rintro ⟨fuel, encoded, horderly⟩
  obtain ⟨coded, hcoded⟩ := loop_of_encoded horderly.ends
  have hloop := result_encodeLoopLogged 255 fuel buffer 0 0
  rw [hcoded, encodeLoop_never_stops hbuffer] at hloop
  cases hloop

/-- Passes at `0, 1, …` visit each index once. -/
theorem count_of_visits {passes : List Pass} {n : Nat}
    (h : (passes.map fun pass => pass.i.toNat) = List.range' 0 n) {index : UInt8}
    (hindex : index.toNat < n) : (passes.map Pass.i).count index = 1 := by
  have hmap : (passes.map Pass.i).map UInt8.toNat = List.range' 0 n := by
    rw [List.map_map]
    exact h
  apply List.count_eq_one_of_mem
  · apply List.Nodup.of_map UInt8.toNat
    rw [hmap]
    exact List.nodup_range'
  · have hmem : index.toNat ∈ (passes.map Pass.i).map UInt8.toNat := by
      rw [hmap, List.mem_range'_1]
      omega
    obtain ⟨visited, hvisited, hsame⟩ := List.mem_map.mp hmem
    rwa [← UInt8.toNat_inj.mp hsame]

theorem ofInt_ne_zero {code : Int} (hlow : 1 ≤ code) (hhigh : code ≤ 255) :
    UInt8.ofInt code ≠ 0 := by
  intro hzero
  have hval := congrArg UInt8.toNat hzero
  rw [UInt8.ofInt, UInt8.toNat_ofNat'] at hval
  simp only [UInt8.toNat_zero] at hval
  omega

/-- The encoder ends on every buffer when the counter can pass the length. -/
theorem exists_encoded {length : UInt8} (hlength : length.toNat ≤ 254) {buffer : List UInt8}
    (hsize : buffer.length = length.toNat + 2) :
    ∃ encoded, (encodeCOBSLogged COUNTER_VALUES buffer length).result = .ok encoded := by
  obtain ⟨block, cell, rfl⟩ : ∃ block cell, buffer = block ++ [cell] := by
    rcases List.eq_nil_or_concat buffer with rfl | ⟨block, cell, rfl⟩
    · cases hsize
    · exact ⟨block, cell, List.concat_eq_append⟩
  rw [List.length_append, List.length_singleton] at hsize
  have hencode := encodeCOBS_eq hlength block [] cell (by omega)
  rw [← result_encodeCOBSLogged] at hencode
  cases hresult : (encodeCOBSLogged COUNTER_VALUES (block ++ [cell]) length).result with
  | error fault =>
      rw [hresult] at hencode
      cases hencode
  | ok encoded => exact ⟨encoded, rfl⟩

/-- **`encodeCOBS` is total** on the lengths up to 254 and on no buffer at 255. -/
theorem encodesOrderly_iff (length : UInt8) (buffer : List UInt8)
    (hsize : buffer.length = length.toNat + 2) :
    EncodesOrderly length buffer ↔ length.toNat ≤ 254 := by
  constructor
  · intro horderly
    by_contra hlarge
    have hmax : length = 255 := by
      apply UInt8.toNat_inj.mp
      have hlt := length.toNat_lt
      simp only [UInt8.reduceToNat]
      omega
    subst hmax
    exact not_encodesOrderly (by rw [hsize]; decide) horderly
  · intro hlength
    obtain ⟨encoded, hends⟩ := exists_encoded hlength hsize
    obtain ⟨coded, hcoded⟩ := loop_of_encoded hends
    have hvisits := visits_encodeLoopLogged hlength (Nat.zero_le _) hcoded
    refine ⟨COUNTER_VALUES, encoded, hends, ?_, accesses_encodeCOBSLogged _ _ _, ?_⟩
    · intro index hindex
      have hle := UInt8.le_iff_toNat_le.mp hindex
      exact count_of_visits hvisits (Nat.lt_succ_of_le hle)
    · intro pass hmem code hcode
      obtain ⟨hlow, hhigh⟩ := codes_encodeLoopLogged hlength (Nat.le_refl _) hcoded pass hmem
        code hcode
      exact ofInt_ne_zero hlow hhigh

/-- Three bytes and a zero behind them. -/
theorem encodesOrderly_three : EncodesOrderly 3 [7, 0, 9, 0, 1] :=
  (encodesOrderly_iff 3 [7, 0, 9, 0, 1] rfl).mpr (by decide)

/-- A block of zeros with the largest length. -/
theorem not_always_encodesOrderly : ¬ ∀ (length : UInt8) (buffer : List UInt8),
    buffer.length = length.toNat + 2 → EncodesOrderly length buffer := by
  intro hall
  have hbuffer : 256 ≤ (List.replicate 257 (0 : UInt8)).length := by
    rw [List.length_replicate]
    decide
  exact not_encodesOrderly hbuffer (hall 255 (List.replicate 257 0) List.length_replicate)

end Lame
