/-
  Lame/Cobs.lean
  ==============
  **`encodeCOBS` and `decodeCOBS` of `Packet.h`, and what they compute.**

  Both functions rewrite their buffer in place with `uint8_t` counters.  The
  embedding keeps the loops, the counters and every access; comparisons that C
  promotes to `int` are comparisons of `toNat`, and `length - 2`, `sec_end - 1`
  are moved to the other side so that no subtraction is lost.

    * `encodeCOBS_eq`  — the encoder is the single pass `stuffFrom`, for every
      content of its buffer (also when the byte behind the data is not zero);
    * `decodeCOBS_eq`  — the decoder is `unstuff` on arbitrary input, with the
      exact bytes it leaves behind;
    * `encodeCOBS_refines` — on data behind which the buffer is zero this is the
      list-level encoding, cut at the zeros;
    * `cobs_roundTrip` — the two functions are inverse to one another between
      all byte strings and all chained zero-free frames that fit a `uint8_t`
      length.
-/
import Lame.ByteMemory
import Lame.SectionStuffing
import Mathlib.Data.List.Induction

namespace Lame

open ByteMemory SectionStuffing

/-! ## 1. The source functions -/

/-- The number of values of a `uint8_t`: a loop over such a counter that has not
    stopped after this many steps has come back to a value it already had. -/
def COUNTER_VALUES : Nat := 256

/-- `for (j = i; j > sec_hd; j--) buffer[j] = buffer[j - 1];`.  The counter only
    moves down to `sec_hd`, so it never wraps. -/
def shiftSection (buffer : List UInt8) (sec_hd : Nat) : Nat → Exec (List UInt8)
  | 0 => .ok buffer
  | j + 1 =>
      if j + 1 > sec_hd then do
        let previous ← load buffer j
        let buffer ← store buffer (j + 1) previous
        shiftSection buffer sec_hd j
      else .ok buffer

def encodeLoop (length : UInt8) : Nat → List UInt8 → UInt8 → UInt8 → Exec (List UInt8)
  | 0, _, _, _ => .error .outOfFuel
  | fuel + 1, buffer, i, sec_hd =>
      if i ≤ length then do
        let current ← load buffer i.toNat
        if current = 0x00 then
          let buffer ← shiftSection buffer sec_hd.toNat i.toNat
          let buffer ← store buffer sec_hd.toNat (i - sec_hd + 1)
          encodeLoop length fuel buffer (i + 1) (i + 1)
        else
          encodeLoop length fuel buffer (i + 1) sec_hd
      else .ok buffer

def encodeCOBS (buffer : List UInt8) (length : UInt8) : Exec (List UInt8 × Nat) := do
  let buffer ← encodeLoop length COUNTER_VALUES buffer 0 0
  let buffer ← store buffer (length.toNat + 1) 0x00
  return (buffer, length.toNat + 2)

/-- The loop of `decodeCOBS`; the `uint8_t` it returns is the counter. -/
def decodeLoop (length : UInt8) : Nat → List UInt8 → UInt8 → UInt8 → Exec (List UInt8 × UInt8)
  | 0, _, _, _ => .error .outOfFuel
  | fuel + 1, buffer, i, sec_end =>
      if i.toNat + 2 < length.toNat then
        if i.toNat + 1 < sec_end.toNat then do
          let next ← load buffer (i.toNat + 1)
          let buffer ← store buffer i.toNat next
          let current ← load buffer i.toNat
          if current = 0x00 then return (buffer, i)
          else decodeLoop length fuel buffer (i + 1) sec_end
        else do
          let buffer ← store buffer i.toNat 0x00
          let next ← load buffer (i.toNat + 1)
          if next ≠ 0x00 then decodeLoop length fuel buffer (i + 1) (sec_end + next)
          else return (buffer, i)
      else return (buffer, i)

def decodeCOBS (buffer : List UInt8) (length : UInt8) : Exec (List UInt8 × UInt8) := do
  let sec_end ← load buffer 0
  decodeLoop length COUNTER_VALUES buffer 0 sec_end

/-! ## 2. What the encoder computes

At the head of the outer loop the buffer is `done ++ run ++ todo ++ back`: the
finished sections up to `sec_hd`, the open run up to `i`, the bytes up to index
`length`, and the rest of the array. -/

/-- The inner loop moves the run up by one cell, over the zero that closed it. -/
theorem shiftSection_split (front run back : List UInt8) (cell : UInt8) :
    ∃ head, shiftSection (front ++ run ++ cell :: back) front.length
        (front.length + run.length) = .ok (front ++ head :: run ++ back) := by
  induction run using List.reverseRecOn generalizing cell back with
  | nil =>
      refine ⟨cell, ?_⟩
      cases front with
      | nil => rfl
      | cons b front => simp [shiftSection]
  | append_singleton run last ih =>
      obtain ⟨head, hshift⟩ := ih (last :: back) last
      refine ⟨head, ?_⟩
      have hload : load (front ++ run ++ last :: cell :: back) (front.length + run.length) =
          .ok last := load_split _ _ _ (by simp)
      have hstore : store (front ++ run ++ last :: cell :: back)
          (front.length + run.length + 1) last = .ok (front ++ run ++ last :: last :: back) := by
        have h := store_split (front ++ run ++ [last]) back cell last
          (i := front.length + run.length + 1) (by simp [Nat.add_assoc])
        simpa only [List.append_assoc, List.cons_append, List.nil_append] using h
      have hbuffer : front ++ (run ++ [last]) ++ cell :: back =
          front ++ run ++ last :: cell :: back := by simp
      rw [hbuffer, List.length_append, List.length_singleton, ← Nat.add_assoc, shiftSection,
        if_pos (by omega), hload, ok_bind, hstore, ok_bind, hshift]
      simp

theorem encodeLoop_split {length : UInt8} (hlength : length.toNat ≤ 254)
    (front run todo back : List UInt8) {fuel : Nat} {i sec_hd : UInt8}
    (hhd : sec_hd.toNat = front.length) (hi : i.toNat = front.length + run.length)
    (htodo : i.toNat + todo.length = length.toNat + 1) (hfuel : todo.length < fuel) :
    encodeLoop length fuel (front ++ run ++ todo ++ back) i sec_hd =
      .ok (front ++ stuffFrom run todo ++ back) := by
  induction todo generalizing fuel front run i sec_hd with
  | nil =>
      obtain ⟨fuel, rfl⟩ := Nat.exists_eq_succ_of_ne_zero (Nat.ne_of_gt hfuel)
      have hstop : ¬ i ≤ length := by
        rw [UInt8.le_iff_toNat_le]
        simp only [List.length_nil] at htodo
        omega
      simp [encodeLoop, hstop, stuffFrom]
  | cons b todo ih =>
      obtain ⟨fuel, rfl⟩ := Nat.exists_eq_succ_of_ne_zero (Nat.ne_zero_of_lt hfuel)
      simp only [List.length_cons] at htodo hfuel
      have hgo : i ≤ length := UInt8.le_iff_toNat_le.mpr (by omega)
      have hnext : (i + 1).toNat = i.toNat + 1 := by
        rw [UInt8.toNat_add]
        simp
        omega
      have hload : load (front ++ run ++ b :: todo ++ back) i.toNat = .ok b := by
        have h := load_split (front ++ run) (todo ++ back) b (i := i.toNat) (by simpa using hi)
        simpa only [List.append_assoc, List.cons_append] using h
      rw [encodeLoop, if_pos hgo, hload, ok_bind]
      by_cases hb : b = 0
      · -- the zero closes the section `front.length .. i`
        subst hb
        obtain ⟨head, hshift⟩ := shiftSection_split front run (todo ++ back) 0
        have hcode : i - sec_hd + 1 = codeOf run := by
          apply UInt8.toNat_inj.mp
          rw [codeOf, UInt8.toNat_add, UInt8.toNat_sub_of_le _ _
            (UInt8.le_iff_toNat_le.mpr (by omega))]
          simp
          omega
        have hsplit : front ++ run ++ 0 :: todo ++ back =
            front ++ run ++ 0 :: (todo ++ back) := by simp
        have hstore : store (front ++ head :: run ++ (todo ++ back)) sec_hd.toNat
            (codeOf run) = .ok (front ++ codeOf run :: run ++ (todo ++ back)) := by
          have h := store_split front (run ++ (todo ++ back)) head (codeOf run) hhd
          simpa only [List.append_assoc, List.cons_append] using h
        have hhd' : (i + 1).toNat = (front ++ sectionBytes run).length := by
          simp [hnext, hi]
          omega
        have hrest := ih (front ++ sectionBytes run) [] hhd' hhd' (by omega)
          (show todo.length < fuel by omega)
        rw [if_pos rfl, hsplit, hhd, hi, hshift, ok_bind, ← hhd, hcode, hstore, ok_bind]
        simpa [stuffFrom, sectionBytes] using hrest
      · have hi' : (i + 1).toNat = front.length + (run ++ [b]).length := by
          simp [hnext, hi]
          omega
        have hrest := ih front (run ++ [b]) hhd hi' (by omega)
          (show todo.length < fuel by omega)
        rw [if_neg hb]
        simpa [stuffFrom, hb] using hrest

/-- **The encoder, on any buffer.**  The first `length + 1` cells are replaced by
    their single-pass stuffing, the next one by the delimiter. -/
theorem encodeCOBS_eq {length : UInt8} (hlength : length.toNat ≤ 254)
    (block back : List UInt8) (cell : UInt8) (hblock : block.length = length.toNat + 1) :
    encodeCOBS (block ++ cell :: back) length =
      .ok (stuffFrom [] block ++ 0 :: back, length.toNat + 2) := by
  have hfuel : block.length < COUNTER_VALUES := by
    simp only [COUNTER_VALUES]
    omega
  have hloop : encodeLoop length COUNTER_VALUES ([] ++ [] ++ block ++ cell :: back) 0 0 =
      .ok ([] ++ stuffFrom [] block ++ cell :: back) :=
    encodeLoop_split hlength [] [] block (cell :: back) rfl rfl (by simp [hblock]) hfuel
  simp only [List.nil_append] at hloop
  have hstore : store (stuffFrom [] block ++ cell :: back) (length.toNat + 1) 0 =
      .ok (stuffFrom [] block ++ 0 :: back) := store_split _ _ _ _ (by simp [hblock])
  rw [encodeCOBS, hloop, ok_bind, hstore]
  rfl

/-- The callers' case: a zeroed cell behind the data closes the last section. -/
theorem encodeCOBS_stuff (data back : List UInt8) (cell : UInt8) (hsize : data.length ≤ 254) :
    encodeCOBS (data ++ 0 :: cell :: back) (UInt8.ofNat data.length) =
      .ok (stuff data ++ 0 :: back, data.length + 2) := by
  have hlen : (UInt8.ofNat data.length).toNat = data.length :=
    UInt8.toNat_ofNat_of_lt' (by simp [UInt8.size]; omega)
  have hlength : (UInt8.ofNat data.length).toNat ≤ 254 := by omega
  have h := encodeCOBS_eq hlength (data ++ [0]) back cell (by simp [hlen])
  rw [stuffFrom_closed (by simp), List.nil_append, hlen] at h
  simpa using h

theorem exists_split_at_zero {data buffer : List UInt8}
    (hlength : data.length + 2 ≤ buffer.length) (htaken : buffer.take data.length = data)
    (hzero : buffer[data.length]? = some 0) :
    ∃ cell, buffer = data ++ 0 :: cell :: buffer.drop (data.length + 2) := by
  obtain ⟨hindex, hcell⟩ := List.getElem?_eq_some_iff.mp hzero
  refine ⟨buffer[data.length + 1], ?_⟩
  calc
    buffer = buffer.take data.length ++ buffer.drop data.length :=
      (List.take_append_drop _ _).symm
    _ = data ++ 0 :: buffer.drop (data.length + 1) := by
      rw [htaken, List.drop_eq_getElem_cons hindex, hcell]
    _ = data ++ 0 :: buffer[data.length + 1] :: buffer.drop (data.length + 2) := by
      rw [List.drop_eq_getElem_cons (i := data.length + 1)]

/-- **The encoder refines list-level COBS.**  Each zero-separated run of the data
    is written behind its length plus one, nothing before the delimiter is zero,
    and the cells behind it keep their values. -/
theorem encodeCOBS_refines (data buffer : List UInt8) (hsize : data.length ≤ 253)
    (hlength : data.length + 2 ≤ buffer.length) (htaken : buffer.take data.length = data)
    (hzero : buffer[data.length]? = some 0) :
    ∃ encoded,
      encodeCOBS buffer (UInt8.ofNat data.length) = .ok (encoded, data.length + 2) ∧
      encoded.take (data.length + 1) =
        (data.splitOn 0).flatMap (fun run => UInt8.ofNat (run.length + 1) :: run) ∧
      (∀ run ∈ data.splitOn 0, (UInt8.ofNat (run.length + 1)).toNat = run.length + 1) ∧
      0 ∉ encoded.take (data.length + 1) ∧ encoded[data.length + 1]? = some 0 ∧
      encoded.length = buffer.length ∧
      encoded.drop (data.length + 2) = buffer.drop (data.length + 2) := by
  obtain ⟨cell, hsplit⟩ := exists_split_at_zero hlength htaken hzero
  generalize buffer.drop (data.length + 2) = back at hsplit ⊢
  subst hsplit
  have hstuffed : (stuff data ++ 0 :: back).take (data.length + 1) = stuff data := by
    rw [← length_stuff, List.take_left]
  refine ⟨_, encodeCOBS_stuff data back cell (by omega), ?_⟩
  rw [hstuffed]
  refine ⟨rfl, ?_, zero_not_mem_stuff (by omega), ?_, ?_, ?_⟩
  · intro run hmem
    exact toNat_codeOf (by have := length_le_of_mem_splitOn hmem; omega)
  · rw [← length_stuff, List.getElem?_append_right (Nat.le_refl _), Nat.sub_self]
    rfl
  · simp only [List.length_append, List.length_cons, length_stuff]
    omega
  · rw [← Nat.add_assoc data.length 1 1, ← length_stuff, ← List.drop_drop, List.drop_left]
    rfl

theorem encodeCOBS_refines_three : ∃ encoded,
    encodeCOBS [0, 0x11, 0, 0, 0x7F, 0x55] 3 = .ok (encoded, 5) ∧
    encoded.take 4 = [1, 2, 0x11, 1] ∧ encoded.drop 5 = [0x55] := by
  obtain ⟨encoded, hencode, htake, -, -, -, -, hdrop⟩ :=
    encodeCOBS_refines [0, 0x11, 0] [0, 0x11, 0, 0, 0x7F, 0x55] (by decide) (by decide) rfl rfl
  exact ⟨encoded, hencode, htake, hdrop⟩

/-! ## 3. What the decoder computes

At the head of the loop the buffer is `out ++ cell :: todo ++ back`: the decoded
bytes, the cell at `i`, the bytes up to index `length - 2`, and the rest. -/

theorem decodeLoop_split {length : UInt8} (out todo back : List UInt8) {fuel : Nat}
    (cell sec_end : UInt8) {i : UInt8} (hi : i.toNat = out.length)
    (htodo : i.toNat + todo.length + 2 = max length.toNat (i.toNat + 2))
    (hfuel : todo.length < fuel) :
    decodeLoop length fuel (out ++ cell :: todo ++ back) i sec_end =
      .ok (out ++ unstuff out.length sec_end todo ++ residue cell todo ++ back,
        i + UInt8.ofNat (unstuff out.length sec_end todo).length) := by
  induction todo generalizing fuel out cell i sec_end with
  | nil =>
      obtain ⟨fuel, rfl⟩ := Nat.exists_eq_succ_of_ne_zero (Nat.ne_of_gt hfuel)
      simp only [List.length_nil] at htodo
      have hstop : ¬ i.toNat + 2 < length.toNat := by omega
      simp [decodeLoop, hstop, unstuff, residue, pure, Except.pure]
  | cons b todo ih =>
      obtain ⟨fuel, rfl⟩ := Nat.exists_eq_succ_of_ne_zero (Nat.ne_zero_of_lt hfuel)
      simp only [List.length_cons] at htodo hfuel
      have hgo : i.toNat + 2 < length.toNat := by omega
      have hbound := length.toNat_lt
      have hnext : (i + 1).toNat = i.toNat + 1 := by
        rw [UInt8.toNat_add]
        simp
        omega
      have hcount : ∀ n : Nat, i + UInt8.ofNat (n + 1) = i + 1 + UInt8.ofNat n := by
        intro n
        rw [UInt8.ofNat_add, UInt8.add_assoc, UInt8.add_comm (UInt8.ofNat n)]
        rfl
      have hload (x : UInt8) :
          load (out ++ x :: b :: todo ++ back) (i.toNat + 1) = .ok b := by
        have h := load_split (out ++ [x]) (todo ++ back) b (i := i.toNat + 1)
          (by simp [hi])
        simpa only [List.append_assoc, List.cons_append, List.nil_append] using h
      have hstore (x : UInt8) : store (out ++ cell :: b :: todo ++ back) i.toNat x =
          .ok (out ++ x :: b :: todo ++ back) := by
        have h := store_split out (b :: todo ++ back) cell x hi
        simpa only [List.append_assoc, List.cons_append] using h
      have hrest (x : UInt8) (e : UInt8) :
          decodeLoop length fuel (out ++ x :: b :: todo ++ back) (i + 1) e =
            .ok (out ++ x :: unstuff (out.length + 1) e todo ++ residue b todo ++ back,
              i + UInt8.ofNat ((unstuff (out.length + 1) e todo).length + 1)) := by
        have h := ih (out ++ [x]) b e (show (i + 1).toNat = (out ++ [x]).length by
          simp [hnext, hi]) (by omega) (show todo.length < fuel by omega)
        rw [hcount]
        simpa using h
      rw [decodeLoop, if_pos hgo]
      by_cases hsec : i.toNat + 1 < sec_end.toNat
      · have hcurrent : load (out ++ b :: b :: todo ++ back) i.toNat = .ok b := by
          have h := load_split out (b :: todo ++ back) b hi
          simpa only [List.append_assoc, List.cons_append] using h
        rw [if_pos hsec, hload, ok_bind, hstore, ok_bind, hcurrent, ok_bind]
        by_cases hb : b = 0
        · subst hb
          simp [unstuff, residue, pure, Except.pure]
        · rw [if_neg hb, hrest]
          simp [unstuff, residue, hb, ← hi, hsec]
      · rw [if_neg hsec, hstore, ok_bind, hload, ok_bind]
        by_cases hb : b = 0
        · subst hb
          simp [unstuff, residue, pure, Except.pure]
        · rw [if_pos hb, hrest]
          simp [unstuff, residue, hb, ← hi, hsec]

/-- **The decoder, on any buffer.**  `todo` are the bytes at the indices
    `1 .. length - 2`, the only ones the loop reads; a `length` below 3 reads none. -/
theorem decodeCOBS_eq {length : UInt8} (code : UInt8) (todo back : List UInt8)
    (htodo : todo.length + 2 = max length.toNat 2) :
    decodeCOBS (code :: todo ++ back) length =
      .ok (unstuff 0 code todo ++ residue code todo ++ back,
        UInt8.ofNat (unstuff 0 code todo).length) := by
  have hbound := length.toNat_lt
  have hfuel : todo.length < COUNTER_VALUES := by
    simp only [COUNTER_VALUES]
    omega
  have hcount : (0 : UInt8).toNat + todo.length + 2 =
      max length.toNat ((0 : UInt8).toNat + 2) := by simpa using htodo
  have hloop := decodeLoop_split [] todo back code code rfl hcount hfuel
  have hhead : load (code :: todo ++ back) 0 = .ok code :=
    load_split [] (todo ++ back) code rfl
  rw [decodeCOBS, hhead, ok_bind]
  simpa using hloop

theorem decodeCOBS_stuff (data back : List UInt8) (hsize : data.length ≤ 253) :
    ∃ last, decodeCOBS (stuff data ++ 0 :: back) (UInt8.ofNat (data.length + 2)) =
      .ok (data ++ last :: 0 :: back, UInt8.ofNat data.length) := by
  obtain ⟨code, todo, hstuff, hunstuff⟩ := unstuff_stuff data (by omega)
  have hlen := length_stuff data
  have hzero : 0 ∉ stuff data := zero_not_mem_stuff (by omega)
  rw [hstuff] at hlen hzero
  have hfree : 0 ∉ todo := fun hmem => hzero (List.mem_cons_of_mem _ hmem)
  obtain ⟨last, hlast⟩ := List.length_eq_one_iff.mp (length_residue_of_zeroFree hfree code)
  have hval : (UInt8.ofNat (data.length + 2)).toNat = data.length + 2 :=
    UInt8.toNat_ofNat_of_lt' (by simp [UInt8.size]; omega)
  simp only [List.length_cons] at hlen
  refine ⟨last, ?_⟩
  rw [hstuff, decodeCOBS_eq code todo (0 :: back) (by rw [hval]; omega), hunstuff, hlast]
  simp

/-! ## 4. The round trip -/

/-- **COBS round trip.**  Encoding then decoding returns the data, and decoding
    then encoding returns the frame, for everything that fits a `uint8_t`
    length. -/
theorem cobs_roundTrip :
    (∀ (data back : List UInt8) (cell : UInt8), data.length ≤ 253 →
      ∃ frame decoded,
        encodeCOBS (data ++ 0 :: cell :: back) (UInt8.ofNat data.length) =
            .ok (frame, data.length + 2) ∧
        decodeCOBS frame (UInt8.ofNat (data.length + 2)) =
            .ok (decoded, UInt8.ofNat data.length) ∧
        decoded.take data.length = data) ∧
    (∀ bytes : List UInt8, 0 ∉ bytes → 1 ≤ bytes.length → bytes.length ≤ 254 →
      Lands bytes 0 →
      ∃ decoded,
        decodeCOBS (bytes ++ [0]) (UInt8.ofNat (bytes.length + 1)) =
            .ok (decoded, UInt8.ofNat (bytes.length - 1)) ∧
        ∀ n, encodeCOBS (decoded.take (bytes.length - 1) ++ List.replicate (n + 2) 0)
            (UInt8.ofNat (bytes.length - 1)) =
          .ok (bytes ++ [0] ++ List.replicate n 0, bytes.length + 1)) := by
  constructor
  · intro data back cell hsize
    obtain ⟨last, hdecode⟩ := decodeCOBS_stuff data back hsize
    exact ⟨_, _, encodeCOBS_stuff data back cell (by omega), hdecode, by simp⟩
  · intro bytes hzero hpos hsize hlands
    have hne : bytes ≠ [] := List.ne_nil_of_length_pos hpos
    obtain ⟨data, hstuff, hlen⟩ := stuff_surjective hne hzero hlands
    obtain ⟨last, hdecode⟩ := decodeCOBS_stuff data [] (by omega)
    have hdata : bytes.length - 1 = data.length := by omega
    have hframe : bytes.length + 1 = data.length + 2 := by omega
    refine ⟨data ++ [last, 0], ?_, ?_⟩
    · rw [hframe, hdata, ← hstuff]
      exact hdecode
    · intro n
      have hencode := encodeCOBS_stuff data (List.replicate n 0) 0 (by omega)
      rw [hdata, hframe, ← hstuff, List.take_left]
      simpa [List.replicate_succ] using hencode

theorem cobs_roundTrip_three :
    (∃ frame decoded,
      encodeCOBS [0x11, 0, 0x22, 0, 0] 3 = .ok (frame, 5) ∧
      decodeCOBS frame 5 = .ok (decoded, 3) ∧ decoded.take 3 = [0x11, 0, 0x22]) ∧
    ∃ decoded,
      decodeCOBS [2, 0x11, 2, 0x22, 0] 5 = .ok (decoded, 3) ∧
      ∀ n, encodeCOBS (decoded.take 3 ++ List.replicate (n + 2) 0) 3 =
        .ok ([2, 0x11, 2, 0x22, 0] ++ List.replicate n 0, 5) :=
  ⟨cobs_roundTrip.1 [0x11, 0, 0x22] [] 0 (by decide),
    cobs_roundTrip.2 [2, 0x11, 2, 0x22] (by decide) (by decide) (by decide)
      (.jump rfl (.jump rfl .finish))⟩

end Lame
