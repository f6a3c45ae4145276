/-
  Lame/QuickDecode.lean
  =====================
  **The decode table of a tag family: `apriltag.c`.**

  `quick_decode_init` puts every code of the family, and every code with up to
  `maxhamming` of its bits flipped, into a table with linear probing, and
  `quick_decode_codeword` looks there for the four rotations of the bits read.  The table
  is a look-up in the list of what was put in, and that list finds a code exactly if it is
  near enough: so the decoder answers what a search through all codes would, and both loops
  come to an end.

  The bits are flipped by `1L << j`; a `long` is taken to have 64 bits, as in LP64.
-/
import Lame.BitWords
import Lame.ByteMemory
import Lame.LinearProbing
import Mathlib.Algebra.Order.BigOperators.Group.List
import Mathlib.Data.Nat.Factorial.Basic
import Mathlib.Tactic.IntervalCases

namespace Lame

open ByteMemory BitWords LinearProbing

/-! ## 1. The code -/

def UINT64_MAX : BitVec 64 := BitVec.allOnes 64

structure QuickDecodeEntry where
  rcode : BitVec 64
  id : UInt16
  hamming : UInt8
  rotation : UInt8
deriving DecidableEq, Repr

structure QuickDecode where
  nentries : Nat
  entries : List QuickDecodeEntry
deriving DecidableEq, Repr

structure AprilTagFamily where
  codes : List (BitVec 64)
  blackBorder : Nat
  d : Nat
  h : Nat
deriving DecidableEq, Repr

def AprilTagFamily.ncodes (family : AprilTagFamily) : Nat := family.codes.length

def rotate90 (w : BitVec 64) (d : Nat) : BitVec 64 :=
  (List.range d).reverse.foldl (fun wr r =>
    (List.range d).foldl (fun wr c =>
      let b := r + d * c
      let wr := wr <<< 1
      if w &&& (1#64 <<< b) ≠ 0#64 then wr ||| 1#64 else wr) wr) 0#64

namespace QuickDecode

/-- `while (qd->entries[bucket].rcode != UINT64_MAX)` -/
def findEmpty (qd : QuickDecode) : Nat → Nat → Exec Nat
  | 0, _ => .error .outOfFuel
  | fuel + 1, bucket => do
      let entry ← load qd.entries bucket
      if entry.rcode ≠ UINT64_MAX then qd.findEmpty fuel ((bucket + 1) % qd.nentries)
      else return bucket

def quickDecodeAdd (qd : QuickDecode) (code : BitVec 64) (id hamming : Nat) :
    Exec QuickDecode := do
  let bucket ← qd.findEmpty (qd.nentries + 1) (code.toNat % qd.nentries)
  let entry ← load qd.entries bucket
  let entries ← store qd.entries bucket
    { entry with rcode := code, id := .ofNat id, hamming := .ofNat hamming }
  return { qd with entries := entries }

/-- The calls of `quick_decode_add` for the code at `i`; `1L` has 64 bits. -/
def additions (maxhamming : Int) (nbits : Nat) (code : BitVec 64) (i : Nat) :
    List (BitVec 64 × Nat × Nat) :=
  [(code, i, 0)] ++
  (if maxhamming ≥ 1 then
    (List.range nbits).map fun j => (code ^^^ (1#64 <<< j), i, 1)
  else []) ++
  (if maxhamming ≥ 2 then
    (List.range nbits).flatMap fun j => (List.range j).map fun k =>
      (code ^^^ (1#64 <<< j) ^^^ (1#64 <<< k), i, 2)
  else []) ++
  (if maxhamming ≥ 3 then
    (List.range nbits).flatMap fun j => (List.range j).flatMap fun k => (List.range k).map fun m =>
      (code ^^^ (1#64 <<< j) ^^^ (1#64 <<< k) ^^^ (1#64 <<< m), i, 3)
  else [])

def capacity (family : AprilTagFamily) (maxhamming : Int) : Nat :=
  let nbits := family.d * family.d
  family.ncodes +
  (if maxhamming ≥ 1 then family.ncodes * nbits else 0) +
  (if maxhamming ≥ 2 then family.ncodes * nbits * (nbits - 1) else 0) +
  (if maxhamming ≥ 3 then family.ncodes * nbits * (nbits - 1) * (nbits - 2) else 0)

def quickDecodeInit (family : AprilTagFamily) (maxhamming : Int) : Exec QuickDecode :=
  let nentries := capacity family maxhamming * 3
  (family.codes.zipIdx.flatMap fun p =>
    additions maxhamming (family.d * family.d) p.1 p.2).foldlM
    (fun qd call => qd.quickDecodeAdd call.1 call.2.1 call.2.2)
    ⟨nentries, List.replicate nentries ⟨UINT64_MAX, 0, 0, 0⟩⟩

/-- The loop over the buckets of one rotation. -/
def findCode (qd : QuickDecode) (rcode : BitVec 64) : Nat → Nat → Exec (Option QuickDecodeEntry)
  | 0, _ => .error .outOfFuel
  | fuel + 1, bucket => do
      let entry ← load qd.entries bucket
      if entry.rcode ≠ UINT64_MAX then
        if entry.rcode = rcode then return some entry
        else qd.findCode rcode fuel ((bucket + 1) % qd.nentries)
      else return none

def findRotated (qd : QuickDecode) (d : Nat) : List Nat → BitVec 64 → Exec QuickDecodeEntry
  | [], _ => return ⟨0, 65535, 255, 0⟩
  | ridx :: later, rcode => do
      match ← qd.findCode rcode (qd.nentries + 1) (rcode.toNat % qd.nentries) with
      | some entry => return { entry with rotation := .ofNat ridx }
      | none => qd.findRotated d later (rotate90 rcode d)

def quickDecodeCodeword (qd : QuickDecode) (d : Nat) (rcode : BitVec 64) :
    Exec QuickDecodeEntry :=
  qd.findRotated d (List.range 4) rcode

end QuickDecode

/-! ## 2. Quarter turns of a word -/

theorem and_bit_ne_zero_iff {w : BitVec 64} {b : Nat} :
    w &&& (1#64 <<< b) ≠ 0#64 ↔ w.getLsbD b = true := by
  constructor
  · intro hne
    by_contra hbit
    apply hne
    apply BitVec.eq_of_getLsbD_eq
    intro k hk
    rw [BitVec.getLsbD_and, BitVec.getLsbD_shiftLeft, BitVec.getLsbD_one]
    by_cases hkb : k = b
    · rw [hkb, Bool.eq_false_of_not_eq_true hbit, Bool.false_and, BitVec.getLsbD_zero]
    · have hfalse : (decide (k < 64) && !decide (k < b) &&
          (decide (0 < 64) && decide (k - b = 0))) = false := by
        by_cases hlt : k < b
        · simp [hlt]
        · rw [decide_eq_false (show ¬ k - b = 0 by omega), Bool.and_false, Bool.and_false]
      rw [hfalse, Bool.and_false, BitVec.getLsbD_zero]
  · intro hbit hzero
    have hlt : b < 64 := BitVec.lt_of_getLsbD hbit
    have hand := congrArg (fun word => word.getLsbD b) hzero
    simp only [BitVec.getLsbD_and, hbit, BitVec.getLsbD_shiftLeft, BitVec.getLsbD_one, hlt,
      BitVec.getLsbD_zero, Nat.lt_irrefl, Nat.sub_self, decide_true, decide_false, Bool.not_false,
      Bool.and_true, Nat.zero_lt_succ, Bool.true_eq_false] at hand

theorem flatMap_map_range {β : Type} (d : Nat) (f : Nat → Nat → β) (rows : List Nat) :
    (rows.flatMap fun r => (List.range d).map (f r)) =
      (List.range (rows.length * d)).map fun t => f (rows.getD (t / d) 0) (t % d) := by
  rcases Nat.eq_zero_or_pos d with rfl | hd
  · simp
  induction rows with
  | nil => simp
  | cons r rows ih =>
      rw [List.flatMap_cons, ih, List.length_cons, Nat.add_mul, Nat.one_mul, Nat.add_comm,
        List.range_add, List.map_append, List.map_map]
      apply congrArg₂
      · apply List.map_congr_left
        intro t ht
        have hlt := List.mem_range.mp ht
        rw [Nat.div_eq_of_lt hlt, List.getD_cons_zero, Nat.mod_eq_of_lt hlt]
      · apply List.map_congr_left
        intro t _
        rw [Function.comp_apply, Nat.add_div_left _ hd, List.getD_cons_succ, Nat.add_mod_left]

theorem rotate90_eq (w : BitVec 64) (d : Nat) :
    rotate90 w d = ((List.range (d * d)).map fun t =>
      w.getLsbD (d - 1 - t / d + d * (t % d))).foldl shiftIn 0#64 := by
  have hrows : (List.range d).reverse.flatMap
      (fun r => (List.range d).map fun c => w.getLsbD (r + d * c)) =
      (List.range (d * d)).map fun t => w.getLsbD (d - 1 - t / d + d * (t % d)) := by
    rw [flatMap_map_range d (fun r c => w.getLsbD (r + d * c)), List.length_reverse,
      List.length_range]
    apply List.map_congr_left
    intro t ht
    have hrow : t / d < d := Nat.div_lt_of_lt_mul (List.mem_range.mp ht)
    generalize t / d = row at hrow
    rw [List.getD_eq_getElem?_getD, List.getElem?_reverse (by rwa [List.length_range]),
      List.length_range, List.getElem?_range (by omega), Option.getD_some]
  rw [← hrows, List.foldl_flatMap, rotate90]
  simp only [List.foldl_map, shiftIn, and_bit_ne_zero_iff]

theorem square_eq {d i i' : Nat} (h : i + i' + 1 = d) : d * d = i * d + i' * d + d := by
  conv_lhs => rw [← h, Nat.add_mul, Nat.add_mul, Nat.one_mul, h]

/-- The bit in row `i` and column `j` was in row `d - 1 - j` and column `i`. -/
theorem getLsbD_rotate90 {w : BitVec 64} {d i j : Nat} (hd : d * d ≤ 64) (hi : i < d)
    (hj : j < d) : (rotate90 w d).getLsbD (i * d + j) = w.getLsbD ((d - 1 - j) * d + i) := by
  obtain ⟨i', hi'⟩ := Nat.exists_eq_add_of_lt hi
  obtain ⟨j', hj'⟩ := Nat.exists_eq_add_of_lt hj
  have hsquare := square_eq hi'.symm
  have hlt : i * d + j < d * d := by
    rw [hsquare]
    omega
  rw [rotate90_eq, getLsbD_foldl_shiftIn (Nat.lt_of_lt_of_le hlt hd), List.length_map,
    List.length_range, if_pos hlt, List.getD_eq_getElem?_getD, List.getElem?_map,
    List.getElem?_range (by omega), Option.map_some, Option.getD_some]
  have hindex : d * d - 1 - (i * d + j) = i' * d + j' := by
    rw [hsquare]
    omega
  have hj'd : j' < d := by omega
  have hdiv : (i' * d + j') / d = i' := by
    rw [Nat.add_comm, Nat.add_mul_div_right _ _ (Nat.lt_of_le_of_lt (Nat.zero_le j) hj),
      Nat.div_eq_of_lt hj'd, Nat.zero_add]
  have hmod : (i' * d + j') % d = j' := by
    rw [Nat.add_comm, Nat.add_mul_mod_self_right, Nat.mod_eq_of_lt hj'd]
  have hrow : d - 1 - i' = i := by omega
  have hcolumn : d - 1 - j = j' := by omega
  rw [hindex, hdiv, hmod, hrow, hcolumn, Nat.mul_comm, Nat.add_comm]

/-- The word has bits in the grid only. -/
def IsWord (d : Nat) (w : BitVec 64) : Prop := ∀ b, d * d ≤ b → w.getLsbD b = false

section IsWord

variable {d : Nat} {w x y : BitVec 64}

theorem isWord_rotate90 (w : BitVec 64) (d : Nat) : IsWord d (rotate90 w d) := by
  intro b hb
  by_cases hlt : b < 64
  · rw [rotate90_eq, getLsbD_foldl_shiftIn hlt, List.length_map, List.length_range,
      if_neg (Nat.not_lt.mpr hb), BitVec.getLsbD_zero]
  · exact BitVec.getLsbD_of_ge _ _ (Nat.not_lt.mp hlt)

theorem isWord_of_lt (h : w.toNat < 2 ^ (d * d)) : IsWord d w := fun _ hb =>
  Nat.testBit_lt_two_pow (Nat.lt_of_lt_of_le h (Nat.pow_le_pow_right (by decide) hb))

theorem IsWord.lt_of_mem_differing (hx : IsWord d x) (hy : IsWord d y) {b : Nat}
    (hb : b ∈ differing x y) : b < d * d := by
  by_contra hge
  apply (mem_differing.mp hb).2
  rw [hx b (Nat.not_lt.mp hge), hy b (Nat.not_lt.mp hge)]

end IsWord

/-! ## 3. The table -/

namespace QuickDecode

/-- The table as open addressing. -/
def scheme (nentries : Nat) : Scheme QuickDecodeEntry (BitVec 64) where
  size := nentries
  key := QuickDecodeEntry.rcode
  home := fun code => code.toNat % nentries

def slots (qd : QuickDecode) (bucket : Nat) : Option QuickDecodeEntry :=
  qd.entries[bucket]?.filter fun entry => entry.rcode ≠ UINT64_MAX

/-- These entries were put in. -/
structure Holds (qd : QuickDecode) (items : List QuickDecodeEntry) : Prop where
  length : qd.entries.length = qd.nentries
  rotation : ∀ entry ∈ qd.entries, entry.rotation = 0
  slots : (scheme qd.nentries).Holds items qd.slots

section Loops

variable {qd : QuickDecode} {items : List QuickDecodeEntry} {code rcode : BitVec 64}
  {bucket fuel i j : Nat}

theorem load_bucket (hlength : qd.entries.length = qd.nentries) (hbucket : bucket < qd.nentries) :
    ∃ entry, load qd.entries bucket = .ok entry ∧
      qd.slots bucket = if entry.rcode ≠ UINT64_MAX then some entry else none := by
  rw [← hlength] at hbucket
  refine ⟨qd.entries[bucket], ?_, ?_⟩
  · rw [load, List.getElem?_eq_getElem hbucket]
  · rw [slots, List.getElem?_eq_getElem hbucket, Option.filter_some]
    simp only [decide_eq_true_eq]

theorem probe_zero : (scheme qd.nentries).probe code 0 = code.toNat % qd.nentries := by
  rw [Scheme.probe, Nat.add_zero]
  exact Nat.mod_mod _ _

theorem probe_succ : ((scheme qd.nentries).probe code i + 1) % qd.nentries =
    (scheme qd.nentries).probe code (i + 1) :=
  Nat.mod_add_mod _ _ _

theorem findEmpty_eq (hlength : qd.entries.length = qd.nentries) (hj : j < qd.nentries)
    (hfree : qd.slots ((scheme qd.nentries).probe code j) = none)
    (hfull : ∀ i < j, qd.slots ((scheme qd.nentries).probe code i) ≠ none)
    (hi : i ≤ j) (hfuel : j < i + fuel) :
    qd.findEmpty fuel ((scheme qd.nentries).probe code i) =
      .ok ((scheme qd.nentries).probe code j) := by
  induction fuel generalizing i with
  | zero => omega
  | succ fuel ih =>
      have hpos : 0 < (scheme qd.nentries).size := Nat.lt_of_le_of_lt (Nat.zero_le j) hj
      obtain ⟨entry, hload, hslot⟩ := load_bucket hlength (Scheme.probe_lt hpos)
      rw [findEmpty, hload, ok_bind]
      rcases Nat.eq_or_lt_of_le hi with rfl | hlt
      · rw [hfree] at hslot
        rw [if_neg]
        · rfl
        · intro hne
          rw [if_pos hne] at hslot
          cases hslot
      · have hne : entry.rcode ≠ UINT64_MAX := by
          intro heq
          rw [if_neg (not_not_intro heq)] at hslot
          exact hfull i hlt hslot
        rw [if_pos hne, probe_succ]
        exact ih hlt (by omega)

theorem findCode_eq (hlength : qd.entries.length = qd.nentries) (hj : j < qd.nentries)
    (hpasses : (scheme qd.nentries).Passes qd.slots rcode j)
    (hstop : ∀ entry, qd.slots ((scheme qd.nentries).probe rcode j) = some entry →
      entry.rcode = rcode)
    (hi : i ≤ j) (hfuel : j < i + fuel) :
    qd.findCode rcode fuel ((scheme qd.nentries).probe rcode i) =
      .ok (qd.slots ((scheme qd.nentries).probe rcode j)) := by
  induction fuel generalizing i with
  | zero => omega
  | succ fuel ih =>
      have hpos : 0 < (scheme qd.nentries).size := Nat.lt_of_le_of_lt (Nat.zero_le j) hj
      obtain ⟨entry, hload, hslot⟩ := load_bucket hlength (Scheme.probe_lt hpos)
      rw [findCode, hload, ok_bind]
      rcases Nat.eq_or_lt_of_le hi with rfl | hlt
      · rw [hslot] at hstop ⊢
        by_cases hne : entry.rcode ≠ UINT64_MAX
        · rw [if_pos hne] at hstop ⊢
          rw [if_pos hne, if_pos (hstop entry rfl)]
          rfl
        · rw [if_neg hne, if_neg hne]
          rfl
      · obtain ⟨other, hother, hkey⟩ := hpasses i hlt
        rw [hslot] at hother
        split at hother
        · next hne =>
            obtain rfl := Option.some.inj hother
            rw [if_pos hne, if_neg (show ¬ entry.rcode = rcode from hkey), probe_succ]
            exact ih hlt (by omega)
        · cases hother

theorem Holds.findCode_eq (h : qd.Holds items) (hroom : items.length < qd.nentries) :
    qd.findCode rcode (qd.nentries + 1) (rcode.toNat % qd.nentries) =
      .ok ((scheme qd.nentries).firstWith items rcode) := by
  obtain ⟨j, hj, hpasses, hstop⟩ := h.slots.exists_stop hroom rcode
  rw [← probe_zero, ← hstop]
  refine QuickDecode.findCode_eq h.length hj hpasses ?_ (Nat.zero_le j)
    (by rw [Nat.zero_add]; exact Nat.lt_succ_of_lt hj)
  intro entry hentry
  rw [hstop] at hentry
  exact Scheme.key_of_firstWith hentry

/-- What one call puts in. -/
def entryOf (call : BitVec 64 × Nat × Nat) : QuickDecodeEntry :=
  ⟨call.1, .ofNat call.2.1, .ofNat call.2.2, 0⟩

theorem Holds.quickDecodeAdd (h : qd.Holds items) (hroom : items.length < qd.nentries)
    (call : BitVec 64 × Nat × Nat) (hcode : call.1 ≠ UINT64_MAX) :
    ∃ after, qd.quickDecodeAdd call.1 call.2.1 call.2.2 = .ok after ∧
      after.nentries = qd.nentries ∧ after.Holds (items ++ [entryOf call]) := by
  obtain ⟨j, hj, hfree, hfull⟩ := h.slots.exists_free hroom call.1
  have hbucket : (scheme qd.nentries).probe call.1 j < qd.nentries :=
    Scheme.probe_lt (Nat.lt_of_le_of_lt (Nat.zero_le j) hj)
  have hfind : qd.findEmpty (qd.nentries + 1) (call.1.toNat % qd.nentries) =
      .ok ((scheme qd.nentries).probe call.1 j) := by
    rw [← probe_zero]
    exact findEmpty_eq h.length hj hfree hfull (Nat.zero_le j)
      (by rw [Nat.zero_add]; exact Nat.lt_succ_of_lt hj)
  have hinsert : (scheme qd.nentries).Holds (items ++ [entryOf call]) (Function.update qd.slots
      ((scheme qd.nentries).probe call.1 j) (some (entryOf call))) :=
    h.slots.insert hj hfree hfull
  generalize (scheme qd.nentries).probe call.1 j = bucket at hbucket hfind hinsert
  rw [← h.length] at hbucket
  have hrotation := h.rotation _ (List.getElem_mem hbucket)
  have hentry : (⟨call.1, .ofNat call.2.1, .ofNat call.2.2, qd.entries[bucket].rotation⟩ :
      QuickDecodeEntry) = entryOf call := by
    rw [hrotation]
    rfl
  refine ⟨⟨qd.nentries, qd.entries.set bucket (entryOf call)⟩, ?_, rfl, ?_, ?_, ?_⟩
  · rw [QuickDecode.quickDecodeAdd, hfind, ok_bind, load, List.getElem?_eq_getElem hbucket]
    dsimp only
    rw [ok_bind, hentry, store, if_pos hbucket]
    rfl
  · rw [List.length_set]
    exact h.length
  · intro entry hmem
    rcases List.mem_or_eq_of_mem_set hmem with hmem | rfl
    · exact h.rotation entry hmem
    · rfl
  · have hslots : QuickDecode.slots ⟨qd.nentries, qd.entries.set bucket (entryOf call)⟩ =
        Function.update qd.slots bucket (some (entryOf call)) := by
      funext i
      by_cases hi : i = bucket
      · rw [hi, Function.update_self, QuickDecode.slots, List.getElem?_set_self hbucket,
          Option.filter_some, if_pos (show decide ((entryOf call).rcode ≠ UINT64_MAX) = true from
            decide_eq_true hcode)]
      · rw [Function.update_of_ne hi, QuickDecode.slots, List.getElem?_set_ne (Ne.symm hi),
          QuickDecode.slots]
    rw [hslots]
    exact hinsert

theorem Holds.addAll (h : qd.Holds items) {calls : List (BitVec 64 × Nat × Nat)}
    (hroom : items.length + calls.length ≤ qd.nentries)
    (hcodes : ∀ call ∈ calls, call.1 ≠ UINT64_MAX) :
    ∃ after, calls.foldlM (fun qd call => qd.quickDecodeAdd call.1 call.2.1 call.2.2) qd =
      .ok after ∧ after.nentries = qd.nentries ∧ after.Holds (items ++ calls.map entryOf) := by
  induction calls generalizing qd items with
  | nil => exact ⟨qd, rfl, rfl, by rwa [List.map_nil, List.append_nil]⟩
  | cons call calls ih =>
      rw [List.forall_mem_cons] at hcodes
      rw [List.length_cons] at hroom
      obtain ⟨middle, hadd, hsize, hmiddle⟩ := h.quickDecodeAdd (by omega) call hcodes.1
      obtain ⟨after, hrest, hsize', hafter⟩ := ih hmiddle
        (by rw [List.length_append, List.length_singleton, hsize]; omega) hcodes.2
      refine ⟨after, ?_, hsize'.trans hsize, ?_⟩
      · rw [List.foldlM_cons, hadd]
        exact hrest
      · rwa [List.map_cons, List.append_cons]

theorem holds_empty (nentries : Nat) :
    Holds ⟨nentries, List.replicate nentries ⟨UINT64_MAX, 0, 0, 0⟩⟩ [] := by
  refine ⟨List.length_replicate, ?_, ?_⟩
  · intro entry hmem
    rw [List.eq_of_mem_replicate hmem]
  · have hslots : slots ⟨nentries, List.replicate nentries ⟨UINT64_MAX, 0, 0, 0⟩⟩ =
        fun _ => none := by
      funext i
      rw [slots, List.getElem?_replicate]
      split
      · rw [Option.filter_some, if_neg (by simp)]
      · rfl
    rw [hslots]
    exact Scheme.holds_nil

end Loops

/-! ## 4. What was put in -/

/-- How many flipped bits the table covers. -/
def corrected (maxhamming : Int) : Nat := min maxhamming.toNat 3

/-- The calls for one number of flipped bits. -/
def flipped (nbits : Nat) (code : BitVec 64) (i e : Nat) : List (BitVec 64 × Nat × Nat) :=
  (descending e nbits).map fun positions => (flipBits code positions, i, e)

theorem additions_eq (maxhamming : Int) (nbits : Nat) (code : BitVec 64) (i : Nat) :
    additions maxhamming nbits code i = flipped nbits code i 0 ++
      (if maxhamming ≥ 1 then flipped nbits code i 1 else []) ++
      (if maxhamming ≥ 2 then flipped nbits code i 2 else []) ++
      (if maxhamming ≥ 3 then flipped nbits code i 3 else []) := by
  simp only [additions, flipped, descending, List.map_eq_flatMap, List.flatMap_assoc,
    List.flatMap_cons, List.flatMap_nil, List.append_nil, flipBits, List.foldl_cons,
    List.foldl_nil]

theorem mem_additions {maxhamming : Int} {nbits : Nat} {code : BitVec 64} {i : Nat}
    {call : BitVec 64 × Nat × Nat} :
    call ∈ additions maxhamming nbits code i ↔
      ∃ e ≤ corrected maxhamming, call ∈ flipped nbits code i e := by
  have hif (p : Prop) [Decidable p] (e : Nat) :
      call ∈ (if p then flipped nbits code i e else []) ↔ p ∧ call ∈ flipped nbits code i e := by
    split
    · next h => exact (and_iff_right h).symm
    · next h => simp [h]
  rw [additions_eq, List.mem_append, List.mem_append, List.mem_append, hif, hif, hif, corrected]
  constructor
  · rintro (((h | ⟨hm, h⟩) | ⟨hm, h⟩) | ⟨hm, h⟩)
    · exact ⟨0, by omega, h⟩
    · exact ⟨1, by omega, h⟩
    · exact ⟨2, by omega, h⟩
    · exact ⟨3, by omega, h⟩
  · rintro ⟨e, he, h⟩
    have hle : e ≤ 3 := by omega
    interval_cases e
    · exact .inl (.inl (.inl h))
    · exact .inl (.inl (.inr ⟨by omega, h⟩))
    · exact .inl (.inr ⟨by omega, h⟩)
    · exact .inr ⟨by omega, h⟩

theorem length_descending_le (e n : Nat) : (descending e n).length ≤ n.descFactorial e := by
  induction e generalizing n with
  | zero => exact Nat.le_refl 1
  | succ e ih =>
      rcases n with _ | n
      · simp [descending]
      · rw [descending, List.length_flatMap, Nat.succ_descFactorial_succ]
        refine Nat.le_trans (List.sum_le_card_nsmul _ (n.descFactorial e) ?_) ?_
        · intro length hmem
          obtain ⟨j, hj, rfl⟩ := List.mem_map.mp hmem
          rw [List.length_map]
          exact Nat.le_trans (ih j)
            (Nat.descFactorial_le e (Nat.le_of_lt_succ (List.mem_range.mp hj)))
        · rw [List.length_map, List.length_range, smul_eq_mul]

theorem length_flipped_le (nbits : Nat) (code : BitVec 64) (i e : Nat) :
    (flipped nbits code i e).length ≤ nbits.descFactorial e := by
  rw [flipped, List.length_map]
  exact length_descending_le e nbits

/-- The table has room for all calls. -/
theorem length_calls_le (family : AprilTagFamily) (maxhamming : Int) :
    (family.codes.zipIdx.flatMap fun p =>
      additions maxhamming (family.d * family.d) p.1 p.2).length ≤
    capacity family maxhamming := by
  generalize hnbits : family.d * family.d = nbits
  have hif (p : Prop) [Decidable p] (code : BitVec 64) (i e : Nat) :
      (if p then flipped nbits code i e else []).length ≤
        if p then nbits.descFactorial e else 0 := by
    split
    · exact length_flipped_le nbits code i e
    · exact Nat.le_refl 0
  have hcode : ∀ p ∈ family.codes.zipIdx, (additions maxhamming nbits p.1 p.2).length ≤
      1 + (if maxhamming ≥ 1 then nbits.descFactorial 1 else 0) +
        (if maxhamming ≥ 2 then nbits.descFactorial 2 else 0) +
        (if maxhamming ≥ 3 then nbits.descFactorial 3 else 0) := by
    intro p _
    rw [additions_eq, List.length_append, List.length_append, List.length_append]
    exact Nat.add_le_add (Nat.add_le_add (Nat.add_le_add (length_flipped_le nbits p.1 p.2 0)
      (hif _ p.1 p.2 1)) (hif _ p.1 p.2 2)) (hif _ p.1 p.2 3)
  have htwo : nbits.descFactorial 2 = nbits * (nbits - 1) := by
    simp [Nat.descFactorial, Nat.mul_comm]
  have hthree : nbits.descFactorial 3 = nbits * (nbits - 1) * (nbits - 2) := by
    simp [Nat.descFactorial, Nat.mul_comm]
  have hsum := List.sum_le_card_nsmul _ _ (List.forall_mem_map.mpr hcode)
  rw [List.length_flatMap]
  refine Nat.le_trans hsum ?_
  rw [List.length_map, List.length_zipIdx, smul_eq_mul, capacity, hnbits, htwo, hthree,
    Nat.descFactorial_one, AprilTagFamily.ncodes]
  simp only [Nat.mul_add, Nat.mul_one, mul_ite, Nat.mul_zero, Nat.mul_assoc]
  exact Nat.le_refl _

end QuickDecode

/-! ## 5. What the decoder answers -/

namespace AprilTagFamily

def code (family : AprilTagFamily) (i : Nat) : BitVec 64 := family.codes.getD i 0

/-- A family whose table can be built: the assertion holds, the sizes are `int`s, and no
    code is the mark of an empty entry. -/
structure Fits (family : AprilTagFamily) (maxhamming : Int) : Prop where
  ncodes_pos : 0 < family.ncodes
  ncodes_lt : family.ncodes < 65535
  nentries_lt : QuickDecode.capacity family maxhamming * 3 < 2147483648
  nbits_lt : family.d * family.d < 64
  code_lt : ∀ code ∈ family.codes, code.toNat < 2 ^ (family.d * family.d)

/-- The bits are those of the code at `i` but for a few, which can be corrected. -/
structure Near (family : AprilTagFamily) (maxhamming : Int) (rcode : BitVec 64) (i : Nat) :
    Prop where
  lt : i < family.ncodes
  distance_le : distance (family.code i) rcode ≤ QuickDecode.corrected maxhamming

/-- The first code that the bits are near to. -/
def FirstNear (family : AprilTagFamily) (maxhamming : Int) (rcode : BitVec 64) (i : Nat) :
    Prop :=
  family.Near maxhamming rcode i ∧ ∀ i' < i, ¬ family.Near maxhamming rcode i'

/-- The word after some quarter turns. -/
def turned (family : AprilTagFamily) (k : Nat) (w : BitVec 64) : BitVec 64 :=
  (fun w => rotate90 w family.d)^[k] w

theorem isWord_turned {family : AprilTagFamily} {w : BitVec 64} (hw : IsWord family.d w)
    (k : Nat) : IsWord family.d (family.turned k w) := by
  cases k with
  | zero => exact hw
  | succ k =>
      rw [turned, Function.iterate_succ_apply']
      exact isWord_rotate90 _ _

theorem Fits.isWord_code {family : AprilTagFamily} {maxhamming : Int}
    (hfits : family.Fits maxhamming) {i : Nat} (hi : i < family.ncodes) :
    IsWord family.d (family.code i) := by
  apply isWord_of_lt
  apply hfits.code_lt
  rw [code, List.getD_eq_getElem?_getD, List.getElem?_eq_getElem hi, Option.getD_some]
  exact List.getElem_mem hi

/-- The answer of a search through all rotations and codes. -/
inductive Decodes (family : AprilTagFamily) (maxhamming : Int) (rcode : BitVec 64) :
    QuickDecodeEntry → Prop
  | found {ridx i : Nat} (ridx_lt : ridx < 4)
      (first : family.FirstNear maxhamming (family.turned ridx rcode) i)
      (earlier : ∀ r < ridx, ∀ i', ¬ family.Near maxhamming (family.turned r rcode) i') :
      family.Decodes maxhamming rcode ⟨family.turned ridx rcode, .ofNat i,
        .ofNat (distance (family.code i) (family.turned ridx rcode)), .ofNat ridx⟩
  | rejected (none : ∀ r < 4, ∀ i, ¬ family.Near maxhamming (family.turned r rcode) i) :
      family.Decodes maxhamming rcode ⟨0, 65535, 255, 0⟩

end AprilTagFamily

namespace QuickDecode

variable {family : AprilTagFamily} {maxhamming : Int}

/-- The entries of the table, in the order in which they were put in. -/
def allEntries (family : AprilTagFamily) (maxhamming : Int) : List QuickDecodeEntry :=
  (family.codes.zipIdx.flatMap fun p =>
    additions maxhamming (family.d * family.d) p.1 p.2).map entryOf

theorem mem_flipped {nbits : Nat} {code rcode : BitVec 64} {i e id hamming : Nat}
    (hnbits : nbits ≤ 64) : (rcode, id, hamming) ∈ flipped nbits code i e ↔
      id = i ∧ hamming = e ∧ distance code rcode = e ∧ ∀ b ∈ differing code rcode, b < nbits := by
  rw [← exists_flipBits_iff hnbits, flipped, List.mem_map]
  constructor
  · rintro ⟨positions, hmem, heq⟩
    cases heq
    exact ⟨rfl, rfl, positions, hmem, rfl⟩
  · rintro ⟨rfl, rfl, positions, hmem, rfl⟩
    exact ⟨positions, hmem, rfl⟩

theorem ne_max_of_mem (hfits : family.Fits maxhamming) {call : BitVec 64 × Nat × Nat}
    (hmem : call ∈ family.codes.zipIdx.flatMap fun p =>
      additions maxhamming (family.d * family.d) p.1 p.2) : call.1 ≠ UINT64_MAX := by
  obtain ⟨⟨code, i⟩, hcode, hcall⟩ := List.mem_flatMap.mp hmem
  obtain ⟨e, -, hcall⟩ := mem_additions.mp hcall
  obtain ⟨rcode, id, hamming⟩ := call
  obtain ⟨-, -, -, hdiffering⟩ := (mem_flipped (Nat.le_of_lt hfits.nbits_lt)).mp hcall
  -- the highest bit is not set
  rintro rfl
  have hlow := isWord_of_lt (hfits.code_lt code (List.fst_mem_of_mem_zipIdx hcode)) 63
    (Nat.le_of_lt_succ hfits.nbits_lt)
  have hlt := hdiffering 63 (mem_differing.mpr ⟨by decide, by rw [hlow]; decide⟩)
  exact absurd hfits.nbits_lt (Nat.not_lt.mpr hlt)

/-- Building the table comes to an end, with all entries in it. -/
theorem quickDecodeInit_holds (hfits : family.Fits maxhamming) :
    ∃ qd, quickDecodeInit family maxhamming = .ok qd ∧
      qd.Holds (allEntries family maxhamming) ∧
      (allEntries family maxhamming).length < qd.nentries := by
  have hroom := length_calls_le family maxhamming
  have hpos : 0 < capacity family maxhamming := by
    have hncodes := hfits.ncodes_pos
    rw [capacity]
    omega
  obtain ⟨qd, hadds, hsize, hholds⟩ :=
    (holds_empty (capacity family maxhamming * 3)).addAll (by simp only [List.length_nil]; omega)
      (fun call hmem => ne_max_of_mem hfits hmem)
  refine ⟨qd, hadds, hholds, ?_⟩
  rw [hsize, allEntries, List.length_map]
  dsimp only
  omega

/-- The entry of the code at `i`. -/
def entryFor (family : AprilTagFamily) (rcode : BitVec 64) (i : Nat) : QuickDecodeEntry :=
  ⟨rcode, .ofNat i, .ofNat (distance (family.code i) rcode), 0⟩

theorem code_of_mem_zipIdx {code : BitVec 64} {i : Nat}
    (hmem : (code, i) ∈ family.codes.zipIdx) : i < family.ncodes ∧ family.code i = code := by
  have hget := List.mem_zipIdx_iff_getElem?.mp hmem
  exact ⟨(List.getElem?_eq_some_iff.mp hget).1, by
    rw [AprilTagFamily.code, List.getD_eq_getElem?_getD, hget, Option.getD_some]⟩

theorem mem_zipIdx_code {i : Nat} (hi : i < family.ncodes) :
    (family.code i, i) ∈ family.codes.zipIdx := by
  rw [List.mem_zipIdx_iff_getElem?, AprilTagFamily.code, List.getD_eq_getElem?_getD,
    List.getElem?_eq_getElem hi, Option.getD_some]

/-- The first entry among those of one code. -/
theorem firstWith_additions (hfits : family.Fits maxhamming) (nentries : Nat) {i : Nat}
    (hi : i < family.ncodes) {rcode : BitVec 64} (hword : IsWord family.d rcode) :
    (family.Near maxhamming rcode i ∧ (scheme nentries).firstWith
      ((additions maxhamming (family.d * family.d) (family.code i) i).map entryOf) rcode =
        some (entryFor family rcode i)) ∨
    (¬ family.Near maxhamming rcode i ∧ (scheme nentries).firstWith
      ((additions maxhamming (family.d * family.d) (family.code i) i).map entryOf) rcode =
        none) := by
  have hnbits := Nat.le_of_lt hfits.nbits_lt
  cases hfind : (scheme nentries).firstWith
      ((additions maxhamming (family.d * family.d) (family.code i) i).map entryOf) rcode with
  | none =>
      refine .inr ⟨fun hnear => ?_, rfl⟩
      have hcall : (rcode, i, distance (family.code i) rcode) ∈
          additions maxhamming (family.d * family.d) (family.code i) i :=
        mem_additions.mpr ⟨_, hnear.distance_le,
          (mem_flipped hnbits).mpr ⟨rfl, rfl, rfl, fun b hb =>
            (hfits.isWord_code hi).lt_of_mem_differing hword hb⟩⟩
      exact Scheme.key_ne_of_firstWith hfind (List.mem_map_of_mem hcall) rfl
  | some entry =>
      have hrcode : entry.rcode = rcode := Scheme.key_of_firstWith hfind
      obtain ⟨⟨other, id, hamming⟩, hcall, rfl⟩ :=
        List.mem_map.mp (List.mem_of_find?_eq_some hfind)
      obtain ⟨e, he, hcall⟩ := mem_additions.mp hcall
      obtain ⟨rfl, rfl, hdistance, -⟩ := (mem_flipped hnbits).mp hcall
      obtain rfl : other = rcode := hrcode
      rw [← hdistance] at he
      refine .inl ⟨⟨hi, he⟩, ?_⟩
      rw [entryFor, hdistance]
      rfl

/-- Looking in the entries is looking for the first near code. -/
theorem firstWith_allEntries (hfits : family.Fits maxhamming) (nentries : Nat)
    {rcode : BitVec 64} (hword : IsWord family.d rcode) :
    (∃ i, family.FirstNear maxhamming rcode i ∧
      (scheme nentries).firstWith (allEntries family maxhamming) rcode =
        some (entryFor family rcode i)) ∨
    ((∀ i, ¬ family.Near maxhamming rcode i) ∧
      (scheme nentries).firstWith (allEntries family maxhamming) rcode = none) := by
  have hfirst : (scheme nentries).firstWith (allEntries family maxhamming) rcode =
      family.codes.zipIdx.findSome? fun p => (scheme nentries).firstWith
        ((additions maxhamming (family.d * family.d) p.1 p.2).map entryOf) rcode := by
    rw [Scheme.firstWith, allEntries, List.map_flatMap, List.find?_flatMap]
    rfl
  -- what the search over the codes meets at a near one
  have hsome {i : Nat} (hnear : family.Near maxhamming rcode i) : (scheme nentries).firstWith
      ((additions maxhamming (family.d * family.d) (family.code i) i).map entryOf) rcode =
        some (entryFor family rcode i) := by
    rcases firstWith_additions hfits nentries hnear.lt hword with
      ⟨-, hsome⟩ | ⟨hfar, -⟩
    · exact hsome
    · exact absurd hnear hfar
  rw [hfirst]
  cases hfind : family.codes.zipIdx.findSome? fun p => (scheme nentries).firstWith
      ((additions maxhamming (family.d * family.d) p.1 p.2).map entryOf) rcode with
  | none =>
      refine .inr ⟨fun i hnear => ?_, rfl⟩
      have hnone := List.findSome?_eq_none_iff.mp hfind _ (mem_zipIdx_code hnear.lt)
      rw [hsome hnear] at hnone
      cases hnone
  | some entry =>
      obtain ⟨before, ⟨code, i⟩, after, hsplit, hentry, hbefore⟩ :=
        List.findSome?_eq_some_iff.mp hfind
      have hmem : (code, i) ∈ family.codes.zipIdx := by
        rw [hsplit]
        exact List.mem_append_right _ List.mem_cons_self
      obtain ⟨hi, rfl⟩ := code_of_mem_zipIdx hmem
      rcases firstWith_additions hfits nentries hi hword with
        ⟨hnear, hthis⟩ | ⟨-, hnone⟩
      · refine .inl ⟨i, ⟨hnear, fun i' hi' hnear' => ?_⟩, hentry.symm.trans hthis⟩
        have hmem' := mem_zipIdx_code hnear'.lt
        have hsorted : (family.codes.zipIdx.map Prod.snd).Pairwise (· < ·) := by
          rw [List.zipIdx_map_snd]
          exact List.pairwise_lt_range'
        rw [hsplit, List.map_append, List.map_cons, List.pairwise_append] at hsorted
        rw [hsplit, List.mem_append, List.mem_cons] at hmem'
        rcases hmem' with hmem' | hmem' | hmem'
        · have hnone := hbefore _ hmem'
          rw [hsome hnear'] at hnone
          cases hnone
        · exact absurd (congrArg Prod.snd hmem') (Nat.ne_of_lt hi')
        · have hlt := List.rel_of_pairwise_cons hsorted.2.1 (List.mem_map_of_mem hmem')
          exact Nat.lt_asymm hi' hlt
      · rw [hnone] at hentry
        cases hentry

/-- The decoder, from the rotation `start` on. -/
theorem Holds.findRotated_spec {qd : QuickDecode}
    (h : qd.Holds (allEntries family maxhamming))
    (hroom : (allEntries family maxhamming).length < qd.nentries)
    (hfits : family.Fits maxhamming) {rcode : BitVec 64} (hword : IsWord family.d rcode)
    {start n : Nat}
    (hstart : start + n = 4)
    (hearlier : ∀ r < start, ∀ i, ¬ family.Near maxhamming (family.turned r rcode) i) :
    ∃ entry, qd.findRotated family.d (List.range' start n) (family.turned start rcode) =
      .ok entry ∧ family.Decodes maxhamming rcode entry := by
  induction n generalizing start with
  | zero =>
      obtain rfl : start = 4 := hstart
      exact ⟨_, rfl, .rejected hearlier⟩
  | succ n ih =>
      rw [List.range'_succ, findRotated, h.findCode_eq hroom, ok_bind]
      rcases firstWith_allEntries hfits qd.nentries
        (AprilTagFamily.isWord_turned hword start) with ⟨i, hfirst, hfind⟩ | ⟨hnone, hfind⟩
      · rw [hfind]
        exact ⟨_, rfl, .found (by omega) hfirst hearlier⟩
      · rw [hfind]
        have hturn : rotate90 (family.turned start rcode) family.d =
            family.turned (start + 1) rcode :=
          (Function.iterate_succ_apply' (fun w => rotate90 w family.d) start rcode).symm
        dsimp only
        rw [hturn]
        refine ih (by omega) fun r hr i => ?_
        rcases Nat.lt_succ_iff_lt_or_eq.mp hr with hr | rfl
        · exact hearlier r hr i
        · exact hnone i

theorem Holds.quickDecodeCodeword {qd : QuickDecode}
    (h : qd.Holds (allEntries family maxhamming))
    (hroom : (allEntries family maxhamming).length < qd.nentries)
    (hfits : family.Fits maxhamming) {rcode : BitVec 64} (hword : IsWord family.d rcode) :
    ∃ entry, qd.quickDecodeCodeword family.d rcode = .ok entry ∧
      family.Decodes maxhamming rcode entry := by
  rw [QuickDecode.quickDecodeCodeword, List.range_eq_range']
  exact h.findRotated_spec hroom hfits hword (show 0 + 4 = 4 from rfl)
    fun r hr => absurd hr (Nat.not_lt_zero r)

/-- **The decode table is a search through the family**: it can be built, and for every word
    of the grid the look-up ends with the first rotation and the first code that are near
    enough. -/
theorem quickDecodeCodeword_decodes (family : AprilTagFamily) (maxhamming : Int)
    (hfits : family.Fits maxhamming) :
    ∃ qd, quickDecodeInit family maxhamming = .ok qd ∧ ∀ rcode, IsWord family.d rcode → ∃ entry,
      qd.quickDecodeCodeword family.d rcode = .ok entry ∧
      family.Decodes maxhamming rcode entry := by
  obtain ⟨qd, hinit, hholds, hroom⟩ := quickDecodeInit_holds hfits
  exact ⟨qd, hinit, fun rcode hword => hholds.quickDecodeCodeword hroom hfits hword⟩

/-- Two tags of six by six bits. -/
def twoTags : AprilTagFamily where
  codes := [0xd5d628584, 0xd97f18b49]
  blackBorder := 1
  d := 6
  h := 11

theorem quickDecodeCodeword_decodes_twoTags : twoTags.Fits 2 ∧ IsWord 6 0xd97f18b48 ∧
    ∃ qd, quickDecodeInit twoTags 2 = .ok qd ∧ ∃ entry,
      qd.quickDecodeCodeword 6 0xd97f18b48 = .ok entry ∧ twoTags.Decodes 2 0xd97f18b48 entry := by
  have hfits : twoTags.Fits 2 := ⟨by decide, by decide, by decide, by decide, by simp [twoTags]⟩
  have hword : IsWord 6 0xd97f18b48 := isWord_of_lt (by decide)
  obtain ⟨qd, hinit, hdecodes⟩ := quickDecodeCodeword_decodes twoTags 2 hfits
  exact ⟨hfits, hword, qd, hinit, hdecodes _ hword⟩

end QuickDecode

end Lame
