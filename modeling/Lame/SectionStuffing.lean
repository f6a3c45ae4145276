/-
  Lame/SectionStuffing.lean
  =========================
  **Zero-eliminating section stuffing, over lists of bytes.**

  Consistent-overhead stuffing cuts a byte string at its zeros and writes each
  zero-free run behind a code byte that holds the run's length plus one.  The
  code bytes form a chain: from index 0, jumping by the byte found there reaches
  exactly the end of the string.

    * `stuff`      — cut at the zeros (`List.splitOn`) and stuff every run;
    * `stuffFrom`  — the same string produced in one pass, with the open run as
      accumulator;
    * `unstuff`    — the one-pass decoder, on *arbitrary* input: it copies bytes
      up to the section end, turns a code byte back into a zero, moves the
      section end (modulo 256) and stops at the first zero it meets;
    * `Lands`      — the chain of code bytes as a relation on indices;
    * `Imitates`   — two cells behind an open run that look like the code byte the
      single pass writes for two others.

  `unstuff_stuff` and `stuff_surjective` say that stuffing is a bijection between
  the byte strings and the zero-free strings whose chain lands on their end, as
  long as the code bytes fit in eight bits.
-/
import Mathlib.Data.List.Basic

namespace Lame.SectionStuffing

/-- The code byte of a run: the distance from it to the next code byte. -/
def codeOf (run : List UInt8) : UInt8 := UInt8.ofNat (run.length + 1)

/-- One stuffed section: the code byte, then the run. -/
def sectionBytes (run : List UInt8) : List UInt8 := codeOf run :: run

/-- Stuff every zero-separated run of `data`. -/
def stuff (data : List UInt8) : List UInt8 :=
  (data.splitOn 0).flatMap sectionBytes

/-- One pass over `todo` with the open run as accumulator.  A zero closes the
    run; a run still open at the end stays unstuffed. -/
def stuffFrom : List UInt8 → List UInt8 → List UInt8
  | run, [] => run
  | run, b :: todo =>
      if b = 0 then sectionBytes run ++ stuffFrom [] todo
      else stuffFrom (run ++ [b]) todo

/-- The run the single pass holds open when it has read `data`. -/
def openRun : List UInt8 → List UInt8 → List UInt8
  | run, [] => run
  | run, b :: data => if b = 0 then openRun [] data else openRun (run ++ [b]) data

/-- One pass over the bytes after the current cell.  `i` counts the bytes
    produced so far and `secEnd` is the index of the next code byte, kept in
    eight bits. -/
def unstuff (i : Nat) (secEnd : UInt8) : List UInt8 → List UInt8
  | [] => []
  | b :: todo =>
      if b = 0 then []
      else if i + 1 < secEnd.toNat then b :: unstuff (i + 1) secEnd todo
      else 0 :: unstuff (i + 1) (secEnd + b) todo

/-- What an in-place `unstuff` leaves behind the bytes it produced: the cell it
    stopped on and the bytes it did not reach. -/
def residue (cell : UInt8) : List UInt8 → List UInt8
  | [] => [cell]
  | b :: todo => if b = 0 then 0 :: b :: todo else residue b todo

/-- The chain of code bytes of `bytes` reaches the end from index `i`. -/
inductive Lands (bytes : List UInt8) : Nat → Prop where
  | finish : Lands bytes bytes.length
  | jump {i : Nat} {code : UInt8} (hcode : bytes[i]? = some code)
      (hnext : Lands bytes (i + code.toNat)) : Lands bytes i

/-! ### Sizes -/

theorem toNat_codeOf {run : List UInt8} (hsize : run.length ≤ 254) :
    (codeOf run).toNat = run.length + 1 :=
  UInt8.toNat_ofNat_of_lt' (by simp [UInt8.size]; omega)

theorem codeOf_ne_zero {run : List UInt8} (hsize : run.length ≤ 254) : codeOf run ≠ 0 := by
  intro heq
  have hval := toNat_codeOf hsize
  rw [heq] at hval
  simp at hval

@[simp] theorem length_sectionBytes (run : List UInt8) :
    (sectionBytes run).length = run.length + 1 := rfl

@[simp] theorem length_stuffFrom (run todo : List UInt8) :
    (stuffFrom run todo).length = run.length + todo.length := by
  induction todo generalizing run with
  | nil => simp [stuffFrom]
  | cons b todo ih =>
      simp only [stuffFrom]
      split
      · simp [ih]; omega
      · simp [ih]; omega

theorem length_unstuff_le (i : Nat) (secEnd : UInt8) (todo : List UInt8) :
    (unstuff i secEnd todo).length ≤ todo.length := by
  induction todo generalizing i secEnd with
  | nil => simp [unstuff]
  | cons b todo ih =>
      simp only [unstuff]
      split
      · simp
      · split
        · simpa using ih (i + 1) secEnd
        · simpa using ih (i + 1) (secEnd + b)

theorem length_unstuff_add_residue (i : Nat) (secEnd cell : UInt8) (todo : List UInt8) :
    (unstuff i secEnd todo).length + (residue cell todo).length = todo.length + 1 := by
  induction todo generalizing i secEnd cell with
  | nil => simp [unstuff, residue]
  | cons b todo ih =>
      simp only [unstuff, residue]
      split
      · simp
      · split
        · have hnext := ih (i + 1) secEnd b
          simp only [List.length_cons]
          omega
        · have hnext := ih (i + 1) (secEnd + b) b
          simp only [List.length_cons]
          omega

/-! ### The one-pass encoder stuffs every run -/

theorem stuff_of_zeroFree {run : List UInt8} (hrun : 0 ∉ run) :
    stuff run = sectionBytes run := by
  simp [stuff, List.splitOn_eq_singleton hrun]

theorem stuff_append_zero {run : List UInt8} (hrun : 0 ∉ run) (data : List UInt8) :
    stuff (run ++ 0 :: data) = sectionBytes run ++ stuff data := by
  simp [stuff, List.splitOn_append_cons_self_of_not_mem hrun]

/-- A terminating zero closes the last run, so the single pass computes `stuff`. -/
theorem stuffFrom_closed {run : List UInt8} (hrun : 0 ∉ run) (data : List UInt8) :
    stuffFrom run (data ++ [0]) = stuff (run ++ data) := by
  induction data generalizing run with
  | nil => simp [stuffFrom, stuff_of_zeroFree hrun]
  | cons b data ih =>
      simp only [List.cons_append, stuffFrom]
      by_cases hb : b = 0
      · subst hb
        rw [if_pos rfl, ih (by simp), stuff_append_zero hrun, List.nil_append]
      · rw [if_neg hb, ih (by simp [hrun, Ne.symm hb])]
        simp

theorem length_stuff (data : List UInt8) : (stuff data).length = data.length + 1 := by
  have hclosed := stuffFrom_closed List.not_mem_nil data
  rw [List.nil_append] at hclosed
  simp [← hclosed]

theorem length_le_of_mem_splitOn {data run : List UInt8} (hmem : run ∈ data.splitOn 0) :
    run.length ≤ data.length := by
  have hsection : sectionBytes run ∈ (data.splitOn 0).map sectionBytes :=
    List.mem_map_of_mem hmem
  have hle : (sectionBytes run).length ≤ (stuff data).length := by
    rw [stuff, List.flatMap_def]
    exact (List.sublist_flatten_of_mem hsection).length_le
  rw [length_stuff, length_sectionBytes] at hle
  exact Nat.le_of_succ_le_succ hle

/-- Code bytes that fit in eight bits are not zero, so nothing the single pass
    writes is zero. -/
theorem zero_not_mem_stuffFrom {run todo : List UInt8} (hrun : 0 ∉ run)
    (hsize : run.length + todo.length ≤ 255) : 0 ∉ stuffFrom run todo := by
  induction todo generalizing run with
  | nil => simpa [stuffFrom] using hrun
  | cons b todo ih =>
      simp only [List.length_cons] at hsize
      simp only [stuffFrom]
      split
      · have hcode : 0 ≠ codeOf run := (codeOf_ne_zero (by omega)).symm
        have hrest : 0 ∉ stuffFrom [] todo := ih List.not_mem_nil (by simp; omega)
        simp [sectionBytes, hcode, hrun, hrest]
      · rename_i hb
        exact ih (by simp [hrun, Ne.symm hb]) (by simp; omega)

theorem zero_not_mem_stuff {data : List UInt8} (hsize : data.length ≤ 254) :
    0 ∉ stuff data := by
  have hclosed := stuffFrom_closed List.not_mem_nil data
  rw [List.nil_append] at hclosed
  rw [← hclosed]
  exact zero_not_mem_stuffFrom (by simp) (by simp; omega)

/-- After a part of its input the single pass has finished some sections and holds
    the open run; what follows decides about the run only. -/
theorem exists_stuffFrom_append (run data : List UInt8) :
    ∃ front, ∀ todo, stuffFrom run (data ++ todo) = front ++ stuffFrom (openRun run data) todo := by
  induction data generalizing run with
  | nil => exact ⟨[], fun _ => rfl⟩
  | cons b data ih =>
      by_cases hb : b = 0
      · obtain ⟨front, hpass⟩ := ih []
        refine ⟨sectionBytes run ++ front, fun todo => ?_⟩
        rw [List.cons_append, stuffFrom, openRun, if_pos hb, if_pos hb, hpass,
          List.append_assoc]
      · obtain ⟨front, hpass⟩ := ih (run ++ [b])
        refine ⟨front, fun todo => ?_⟩
        rw [List.cons_append, stuffFrom, openRun, if_neg hb, if_neg hb, hpass]

theorem length_openRun_le (run data : List UInt8) :
    (openRun run data).length ≤ run.length + data.length := by
  induction data generalizing run with
  | nil => exact Nat.le_refl _
  | cons b data ih =>
      rw [openRun, List.length_cons]
      split
      · have hrest := ih []
        rw [List.length_nil] at hrest
        omega
      · have hrest := ih (run ++ [b])
        rw [List.length_append, List.length_singleton] at hrest
        omega

theorem stuffFrom_of_zeroFree {todo : List UInt8} (htodo : 0 ∉ todo) (run : List UInt8) :
    stuffFrom run todo = run ++ todo := by
  induction todo generalizing run with
  | nil => simp [stuffFrom]
  | cons b todo ih =>
      simp only [List.mem_cons, not_or] at htodo
      rw [stuffFrom, if_neg (Ne.symm htodo.1), ih htodo.2, List.append_assoc,
        List.singleton_append]

/-- A string that is its own shift by one cell repeats one byte. -/
theorem append_singleton_eq_cons_iff {bytes : List UInt8} {first last : UInt8} :
    bytes ++ [last] = first :: bytes ↔ (∀ b ∈ bytes, b = first) ∧ last = first := by
  induction bytes generalizing first with
  | nil => simp
  | cons b bytes ih =>
      rw [List.cons_append, List.cons.injEq, ih]
      constructor
      · rintro ⟨rfl, hbytes, hlast⟩
        exact ⟨List.forall_mem_cons.mpr ⟨rfl, hbytes⟩, hlast⟩
      · rintro ⟨hbytes, hlast⟩
        obtain ⟨rfl, hbytes⟩ := List.forall_mem_cons.mp hbytes
        exact ⟨rfl, hbytes, hlast⟩

theorem codeOf_append_singleton (run : List UInt8) (b : UInt8) :
    codeOf (run ++ [b]) = codeOf run + 1 := by
  rw [codeOf, codeOf, List.length_append, List.length_singleton, UInt8.ofNat_add (run.length + 1)]
  rfl

/-! ### Cells behind the data

What stands behind the data shows in the pass, unless it happens to be the code
byte of a run. -/

theorem stuffFrom_single {run : List UInt8} (cell : UInt8) :
    stuffFrom run [cell] = if cell = 0 then sectionBytes run else run ++ [cell] := by
  rw [stuffFrom, stuffFrom, List.append_nil]
  rfl

/-- Two strings that differ in their last byte only, after a byte no run of this length
    has as code byte, are told apart. -/
theorem stuffFrom_last_injective {data : List UInt8} {mark first second : UInt8}
    (hmark : data.length + 2 < mark.toNat)
    (hpass : stuffFrom [] (data ++ [mark, first]) = stuffFrom [] (data ++ [mark, second])) :
    first = second := by
  obtain ⟨front, hopen⟩ := exists_stuffFrom_append [] data
  have hlen := length_openRun_le [] data
  generalize openRun [] data = last at hopen hlen
  rw [List.length_nil, Nat.zero_add] at hlen
  have hne : mark ≠ 0 := by
    rintro rfl
    exact absurd hmark (by simp)
  have hcell (cell : UInt8) : stuffFrom last [mark, cell] =
      if cell = 0 then sectionBytes (last ++ [mark]) else last ++ [mark] ++ [cell] := by
    rw [stuffFrom, if_neg hne, stuffFrom_single]
  -- a code byte in front of the run cannot come from the run shifted by one cell
  have hcode (cell : UInt8) : last ++ [mark] ++ [cell] ≠ sectionBytes (last ++ [mark]) := by
    intro hshift
    have hsame := (append_singleton_eq_cons_iff.mp hshift).1 mark (by simp)
    have hsum : (last ++ [mark]).length = last.length + 1 := List.length_append
    have hbound := mark.toNat_lt
    have hval := toNat_codeOf (show (last ++ [mark]).length ≤ 254 by omega)
    rw [← hsame] at hval
    omega
  rw [hopen, hopen, List.append_cancel_left_eq, hcell, hcell] at hpass
  by_cases hfirst : first = 0 <;> by_cases hsecond : second = 0
  · rw [hfirst, hsecond]
  · rw [if_pos hfirst, if_neg hsecond] at hpass
    exact absurd hpass.symm (hcode second)
  · rw [if_neg hfirst, if_pos hsecond] at hpass
    exact absurd hpass (hcode first)
  · rw [if_neg hfirst, if_neg hsecond] at hpass
    exact List.singleton_inj.mp (List.append_cancel_left_eq _ _ _ ▸ hpass)

/-- Behind an open run, the first two cells are the code byte that the pass writes for
    the second two. -/
inductive Imitates (run : List UInt8) : List UInt8 → List UInt8 → Prop where
  | emptyRun : Imitates run [0, 1] [0, 0]
  | run {cell : UInt8} (hcell : cell ≠ 0) (hrun : ∀ b ∈ run, b = codeOf run) :
      Imitates run [codeOf run, cell] [0, cell]
  | bothRuns (hrun : ∀ b ∈ run, b = codeOf run) : Imitates run [codeOf run, 1] [0, 0]
  | longerRun {cell : UInt8} (hcell : cell ≠ 0) (hrun : ∀ b ∈ run, b = codeOf run + 1) :
      Imitates run [codeOf run + 1, cell] [cell, 0]

theorem stuffFrom_pair (run : List UInt8) (a b : UInt8) :
    stuffFrom run [a, b] =
      if a = 0 then sectionBytes run ++ [if b = 0 then 1 else b]
      else if b = 0 then sectionBytes (run ++ [a])
      else run ++ [a] ++ [b] := by
  rw [stuffFrom, stuffFrom_single, stuffFrom_single]
  split
  · split <;> rfl
  · rfl

theorem stuffFrom_of_imitates {run first second : List UInt8} (hsize : run.length ≤ 253)
    (h : Imitates run first second) : stuffFrom run first = stuffFrom run second := by
  have hcode : codeOf run ≠ 0 := codeOf_ne_zero (Nat.le_succ_of_le hsize)
  cases h with
  | emptyRun => rfl
  | @run cell hcell hrun =>
      rw [stuffFrom_pair, stuffFrom_pair, if_neg hcode, if_neg hcell, if_pos rfl, if_neg hcell,
        append_singleton_eq_cons_iff.mpr ⟨hrun, rfl⟩, sectionBytes]
  | bothRuns hrun =>
      rw [stuffFrom_pair, stuffFrom_pair, if_neg hcode, if_neg (by decide), if_pos rfl,
        if_pos rfl, append_singleton_eq_cons_iff.mpr ⟨hrun, rfl⟩, sectionBytes]
  | @longerRun cell hcell hrun =>
      have hlonger : codeOf run + 1 ≠ 0 := by
        rw [← codeOf_append_singleton run 0]
        exact codeOf_ne_zero (by rw [List.length_append, List.length_singleton]; omega)
      rw [stuffFrom_pair, stuffFrom_pair, if_neg hlonger, if_neg hcell, if_neg hcell, if_pos rfl,
        append_singleton_eq_cons_iff.mpr ⟨hrun, rfl⟩, sectionBytes, codeOf_append_singleton]
      rfl

theorem imitates_of_closed {run : List UInt8} {a b cell : UInt8} (hb : b ≠ 0)
    (hpass : run ++ [a] ++ [b] = sectionBytes run ++ [if cell = 0 then 1 else cell]) :
    Imitates run [a, b] [0, cell] := by
  obtain ⟨hshift, hlast⟩ := List.append_inj' hpass rfl
  obtain ⟨hrun, rfl⟩ := append_singleton_eq_cons_iff.mp hshift
  obtain rfl := List.singleton_inj.mp hlast
  by_cases hcell : cell = 0
  · subst hcell
    exact .bothRuns hrun
  · rw [if_neg hcell]
    exact .run hcell hrun

theorem imitates_of_longer {run : List UInt8} {a b cell : UInt8} (hcell : cell ≠ 0)
    (hpass : run ++ [a] ++ [b] = sectionBytes (run ++ [cell])) :
    Imitates run [a, b] [cell, 0] := by
  rw [sectionBytes, codeOf_append_singleton, ← List.cons_append] at hpass
  obtain ⟨hshift, hlast⟩ := List.append_inj' hpass rfl
  obtain ⟨hrun, rfl⟩ := append_singleton_eq_cons_iff.mp hshift
  obtain rfl := List.singleton_inj.mp hlast
  exact .longerRun hcell hrun

theorem closed_ne_longer (run : List UInt8) (cell cell' : UInt8) :
    sectionBytes run ++ [cell] ≠ sectionBytes (run ++ [cell']) := by
  intro hpass
  have hcode := (List.cons.inj hpass).1
  rw [codeOf_append_singleton] at hcode
  simp at hcode

/-- **Two cells behind the data** show in the pass unless one pair imitates the other. -/
theorem stuffFrom_pair_eq_iff {run : List UInt8} (hsize : run.length ≤ 253)
    {a b a' b' : UInt8} :
    stuffFrom run [a, b] = stuffFrom run [a', b'] ↔
      [a, b] = [a', b'] ∨ Imitates run [a, b] [a', b'] ∨ Imitates run [a', b'] [a, b] := by
  constructor
  · rw [stuffFrom_pair, stuffFrom_pair]
    intro hpass
    by_cases ha : a = 0 <;> by_cases ha' : a' = 0
    · rw [if_pos ha, if_pos ha'] at hpass
      have hlast := List.singleton_inj.mp (List.append_inj' hpass rfl).2
      rw [ha, ha']
      by_cases hb : b = 0 <;> by_cases hb' : b' = 0
      · rw [hb, hb']
        exact .inl rfl
      · rw [if_pos hb, if_neg hb'] at hlast
        rw [hb, ← hlast]
        exact .inr (.inr .emptyRun)
      · rw [if_neg hb, if_pos hb'] at hlast
        rw [hb', hlast]
        exact .inr (.inl .emptyRun)
      · rw [if_neg hb, if_neg hb'] at hlast
        rw [hlast]
        exact .inl rfl
    · rw [if_pos ha, if_neg ha'] at hpass
      by_cases hb' : b' = 0
      · rw [if_pos hb'] at hpass
        exact absurd hpass (closed_ne_longer run _ _)
      · rw [if_neg hb'] at hpass
        rw [ha]
        exact .inr (.inr (imitates_of_closed hb' hpass.symm))
    · rw [if_neg ha, if_pos ha'] at hpass
      by_cases hb : b = 0
      · rw [if_pos hb] at hpass
        exact absurd hpass.symm (closed_ne_longer run _ _)
      · rw [if_neg hb] at hpass
        rw [ha']
        exact .inr (.inl (imitates_of_closed hb hpass))
    · rw [if_neg ha, if_neg ha'] at hpass
      by_cases hb : b = 0 <;> by_cases hb' : b' = 0
      · rw [if_pos hb, if_pos hb', sectionBytes, sectionBytes] at hpass
        have hlast := (List.append_inj' (List.cons.inj hpass).2 rfl).2
        rw [hb, hb', List.singleton_inj.mp hlast]
        exact .inl rfl
      · rw [if_pos hb, if_neg hb'] at hpass
        rw [hb]
        exact .inr (.inr (imitates_of_longer ha hpass.symm))
      · rw [if_neg hb, if_pos hb'] at hpass
        rw [hb']
        exact .inr (.inl (imitates_of_longer ha' hpass))
      · rw [if_neg hb, if_neg hb', List.append_assoc, List.append_assoc,
          List.append_cancel_left_eq] at hpass
        exact .inl hpass
  · rintro (hsame | himitates | himitates)
    · rw [hsame]
    · exact stuffFrom_of_imitates hsize himitates
    · exact (stuffFrom_of_imitates hsize himitates).symm

/-! ### Decoding a string of sections -/

theorem unstuff_append_run {run : List UInt8} (hrun : 0 ∉ run) {i : Nat} {secEnd : UInt8}
    (hend : i + run.length + 1 ≤ secEnd.toNat) (todo : List UInt8) :
    unstuff i secEnd (run ++ todo) = run ++ unstuff (i + run.length) secEnd todo := by
  induction run generalizing i with
  | nil => simp
  | cons b run ih =>
      simp only [List.mem_cons, not_or] at hrun
      simp only [List.length_cons] at hend
      have hb : b ≠ 0 := Ne.symm hrun.1
      rw [List.cons_append, unstuff, if_neg hb, if_pos (by omega), ih hrun.2 (by omega)]
      simp [Nat.add_assoc, Nat.add_comm 1]

/-- From inside a section, the decoder returns the rest of its run and then every
    later run behind a zero. -/
theorem unstuff_sections (runs : List (List UInt8)) {run : List UInt8} {i : Nat}
    {secEnd : UInt8} (hzero : ∀ r ∈ run :: runs, 0 ∉ r)
    (hend : secEnd.toNat = i + run.length + 1)
    (hsize : i + run.length + 1 + (runs.flatMap sectionBytes).length ≤ 255) :
    unstuff i secEnd (run ++ runs.flatMap sectionBytes) = [0].intercalate (run :: runs) := by
  induction runs generalizing run i secEnd with
  | nil =>
      have hrun : 0 ∉ run := hzero run (by simp)
      rw [unstuff_append_run hrun (by omega)]
      simp [unstuff]
  | cons next runs ih =>
      have hrun : 0 ∉ run := hzero run (by simp)
      have hnext : 0 ∉ next := hzero next (by simp)
      simp only [List.flatMap_cons, List.length_append, length_sectionBytes] at hsize
      have hcode : (codeOf next).toNat = next.length + 1 := toNat_codeOf (by omega)
      have hne : codeOf next ≠ 0 := codeOf_ne_zero (by omega)
      rw [unstuff_append_run hrun (by omega), List.flatMap_cons, sectionBytes,
        List.cons_append, unstuff, if_neg hne, if_neg (by omega)]
      rw [ih (fun r hr => hzero r (by simp only [List.mem_cons] at hr ⊢; tauto))
        (by rw [UInt8.toNat_add, hcode, hend]; omega) (by omega)]
      rw [List.intercalate_cons_cons]
      simp

/-- **Stuffing is undone.**  The decoder starts on the first code byte and gives
    back the stuffed string. -/
theorem unstuff_stuff (data : List UInt8) (hsize : data.length ≤ 254) :
    ∃ code todo, stuff data = code :: todo ∧ unstuff 0 code todo = data := by
  have hlen := length_stuff data
  obtain ⟨run, runs, hruns⟩ := List.exists_cons_of_ne_nil (List.splitOn_ne_nil 0 data)
  have hdata : [0].intercalate (run :: runs) = data := by
    rw [← hruns]
    exact List.intercalate_splitOn 0
  have hstuff : stuff data = codeOf run :: (run ++ runs.flatMap sectionBytes) := by
    simp [stuff, hruns, sectionBytes]
  have hzero : 0 ∉ stuff data := zero_not_mem_stuff hsize
  refine ⟨_, _, hstuff, ?_⟩
  rw [hstuff] at hlen hzero
  simp only [List.length_cons, List.length_append] at hlen
  refine (unstuff_sections runs ?_ ?_ ?_).trans hdata
  · intro r hr hmem
    -- a zero in a run is a zero in the stuffed string
    apply hzero
    rcases List.mem_cons.mp hr with rfl | hr
    · simp [hmem]
    · refine List.mem_cons_of_mem _ (List.mem_append_right _ ?_)
      exact List.mem_flatMap.mpr ⟨r, hr, List.mem_cons_of_mem _ hmem⟩
  · rw [toNat_codeOf (by omega), Nat.zero_add]
  · omega

/-- A decoder that meets no zero consumes all of its input and leaves the last
    byte in the cell it stopped on. -/
theorem length_unstuff_of_zeroFree {todo : List UInt8} (htodo : 0 ∉ todo) (i : Nat)
    (secEnd : UInt8) : (unstuff i secEnd todo).length = todo.length := by
  induction todo generalizing i secEnd with
  | nil => rfl
  | cons b todo ih =>
      simp only [List.mem_cons, not_or] at htodo
      have hb : b ≠ 0 := Ne.symm htodo.1
      simp only [unstuff, if_neg hb]
      split <;> simp [ih htodo.2]

theorem length_residue_of_zeroFree {todo : List UInt8} (htodo : 0 ∉ todo) (cell : UInt8) :
    (residue cell todo).length = 1 := by
  have hsum := length_unstuff_add_residue 0 0 cell todo
  rw [length_unstuff_of_zeroFree htodo] at hsum
  omega

/-! ### The chain of code bytes -/

theorem Lands.le_length {bytes : List UInt8} {i : Nat} (h : Lands bytes i) :
    i ≤ bytes.length := by
  induction h with
  | finish => exact Nat.le_refl _
  | jump hcode _ _ => exact Nat.le_of_lt (List.getElem?_eq_some_iff.mp hcode).1

/-- A zero-free string whose chain lands on its end is a string of sections. -/
theorem Lands.exists_runs {bytes : List UInt8} (hzero : 0 ∉ bytes) {i : Nat}
    (h : Lands bytes i) :
    ∃ runs : List (List UInt8), bytes.drop i = runs.flatMap sectionBytes ∧
      ∀ run ∈ runs, 0 ∉ run := by
  induction h with
  | finish => exact ⟨[], by simp, by simp⟩
  | @jump i code hcode hnext ih =>
      obtain ⟨runs, hruns, hfree⟩ := ih
      obtain ⟨hi, hget⟩ := List.getElem?_eq_some_iff.mp hcode
      have hend := hnext.le_length
      have hpos : 0 < code.toNat := by
        refine Nat.pos_of_ne_zero fun hval => hzero ?_
        have heq : code = 0 := UInt8.toNat_inj.mp hval
        rw [← heq, ← hget]
        exact List.getElem_mem hi
      let run := (bytes.drop (i + 1)).take (code.toNat - 1)
      have hlen : run.length = code.toNat - 1 := by
        simp only [run, List.length_take, List.length_drop]
        omega
      refine ⟨run :: runs, ?_, ?_⟩
      · have hsplit : bytes.drop (i + 1) = run ++ bytes.drop (i + code.toNat) := by
          have hdrop : (bytes.drop (i + 1)).drop (code.toNat - 1) =
              bytes.drop (i + code.toNat) := by
            rw [List.drop_drop]
            congr 1
            omega
          rw [← hdrop]
          exact (List.take_append_drop _ _).symm
        rw [List.drop_eq_getElem_cons hi, hget, hsplit, hruns]
        simp [sectionBytes, codeOf, hlen, Nat.sub_add_cancel hpos]
      · intro r hr hmem
        rcases List.mem_cons.mp hr with rfl | hr
        · exact hzero (List.mem_of_mem_drop (List.mem_of_mem_take hmem))
        · exact hfree r hr hmem

/-- **Every chained string is a stuffed string.** -/
theorem stuff_surjective {bytes : List UInt8} (hne : bytes ≠ []) (hzero : 0 ∉ bytes)
    (hlands : Lands bytes 0) :
    ∃ data : List UInt8, stuff data = bytes ∧ data.length + 1 = bytes.length := by
  obtain ⟨runs, hruns, hfree⟩ := hlands.exists_runs hzero
  rw [List.drop_zero] at hruns
  have hnil : runs ≠ [] := by
    rintro rfl
    exact hne (by simpa using hruns)
  have hstuff : stuff ([0].intercalate runs) = bytes := by
    rw [stuff, List.splitOn_intercalate 0 hfree hnil, ← hruns]
  exact ⟨[0].intercalate runs, hstuff, by rw [← hstuff, length_stuff]⟩

end Lame.SectionStuffing
