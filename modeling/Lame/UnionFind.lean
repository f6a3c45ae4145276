/-
  Lame/UnionFind.lean
  ===================
  **The union-find of the tag detector: `unionfind.h`.**

  The array of records is reached by index only, and the two loops of
  `unionfind_get_representative` take fuel.  `Models` relates the array to a sized forest;
  under it no access leaves the array, no loop spends its fuel, and every call acts on the
  forest as the library says.  So the representatives of two ids are equal exactly if the
  calls of `unionfind_connect` link them, in whatever order they come.

  Ids and sizes are natural numbers here; with fewer than 2^31 ids the counter of
  `unionfind_create` stays an `int` and everything stored is a `uint32_t` (`Models.fits`).
  The array is taken to be allocated, with a `size_t` of 64 bits.
-/
import Lame.ByteMemory
import Lame.DisjointSets
import Mathlib.Data.Set.Card

namespace Lame

open ByteMemory DisjointSets

/-! ## 1. The code -/

structure UfRec where
  parent : Nat
  size : Nat
deriving DecidableEq, Repr

structure UnionFind where
  maxid : Nat
  data : List UfRec
deriving DecidableEq, Repr

namespace UnionFind

def create (maxid : Nat) : UnionFind where
  maxid := maxid
  data := (List.range (maxid + 1)).map fun i => ⟨i, 1⟩

/-- `while (uf->data[root].parent != root)` -/
def chase (data : List UfRec) : Nat → Nat → Exec Nat
  | 0, _ => .error .outOfFuel
  | fuel + 1, root => do
      let record ← load data root
      if record.parent ≠ root then chase data fuel record.parent else return root

/-- `while (uf->data[id].parent != root)` -/
def collapse (root : Nat) : Nat → List UfRec → Nat → Exec (List UfRec)
  | 0, _, _ => .error .outOfFuel
  | fuel + 1, data, id => do
      let record ← load data id
      if record.parent ≠ root then
        let tmp := record.parent
        let data ← store data id { record with parent := root }
        collapse root fuel data tmp
      else return data

def getRepresentative (uf : UnionFind) (id : Nat) : Exec (UnionFind × Nat) := do
  let root ← chase uf.data (uf.data.length + 1) id
  let data ← collapse root (uf.data.length + 1) uf.data id
  return ({ uf with data := data }, root)

def getSetSize (uf : UnionFind) (id : Nat) : Exec (UnionFind × Nat) := do
  let (uf, repid) ← uf.getRepresentative id
  let record ← load uf.data repid
  return (uf, record.size)

def connect (uf : UnionFind) (aid bid : Nat) : Exec (UnionFind × Nat) := do
  let (uf, aroot) ← uf.getRepresentative aid
  let (uf, broot) ← uf.getRepresentative bid
  if aroot = broot then return (uf, aroot)
  else
    let a ← load uf.data aroot
    let b ← load uf.data broot
    if a.size > b.size then
      let data ← store uf.data broot { b with parent := aroot }
      let data ← store data aroot { a with size := a.size + b.size }
      return ({ uf with data := data }, aroot)
    else
      let data ← store uf.data aroot { a with parent := broot }
      let data ← store data broot { b with size := b.size + a.size }
      return ({ uf with data := data }, broot)

/-! ## 2. Arrays of records -/

section Arrays

variable {n : Nat} {α : Type} {cells : Fin n → α}

theorem load_ofFn (i : Fin n) : load (List.ofFn cells) i = .ok (cells i) := by
  rw [load, List.getElem?_ofFn, dif_pos i.isLt]

theorem store_ofFn (i : Fin n) (cell : α) :
    store (List.ofFn cells) i cell = .ok (List.ofFn (Function.update cells i cell)) := by
  rw [store, if_pos (by rw [List.length_ofFn]; exact i.isLt)]
  congr 1
  apply List.ext_getElem (by simp)
  intro j hj hj'
  rw [List.getElem_set, List.getElem_ofFn, List.getElem_ofFn]
  by_cases hij : i.val = j
  · subst hij
    rw [if_pos rfl, Function.update_self]
  · rw [if_neg hij, Function.update_of_ne fun h => hij (congrArg Fin.val h).symm]

end Arrays

/-- The record of every id. -/
def records {n : Nat} (forest : SizedForest (Fin n)) (i : Fin n) : UfRec :=
  ⟨forest.parent i, forest.weight i⟩

/-- The array holds this forest. -/
structure Models {n : Nat} (uf : UnionFind) (forest : SizedForest (Fin n)) : Prop where
  maxid : uf.maxid + 1 = n
  data : uf.data = List.ofFn (records forest)

theorem Models.length {n : Nat} {uf : UnionFind} {forest : SizedForest (Fin n)}
    (h : uf.Models forest) : uf.data.length = n := by
  rw [h.data, List.length_ofFn]

/-- Parents are ids, and no size exceeds the number of ids. -/
theorem Models.fits {n : Nat} {uf : UnionFind} {forest : SizedForest (Fin n)}
    (h : uf.Models forest) {record : UfRec} (hmem : record ∈ uf.data) :
    record.parent ≤ uf.maxid ∧ record.size ≤ uf.maxid + 1 := by
  rw [h.data, List.mem_ofFn] at hmem
  obtain ⟨i, rfl⟩ := hmem
  have hparent := (forest.parent i).isLt
  have hweight := forest.weight_le_card i
  rw [Fintype.card_fin] at hweight
  have hmaxid := h.maxid
  constructor
  · exact Nat.le_of_lt_succ (hparent.trans_eq hmaxid.symm)
  · exact hweight.trans_eq hmaxid.symm

theorem models_create (maxid : Nat) :
    (create maxid).Models (SizedForest.singletons (Fin (maxid + 1))) := by
  refine ⟨rfl, ?_⟩
  apply List.ext_getElem
  · simp [create]
  · intro i hi hi'
    rw [List.getElem_ofFn]
    simp [create, records, SizedForest.singletons]

theorem records_compress {n : Nat} (forest : SizedForest (Fin n)) (x : Fin n) :
    records (forest.compress x) =
      Function.update (records forest) x { records forest x with parent := forest.root x } := by
  funext i
  by_cases hi : i = x
  · subst hi
    rw [Function.update_self]
    simp [records, SizedForest.compress, Forest.compress]
  · rw [Function.update_of_ne hi]
    simp [records, SizedForest.compress, Forest.compress, Function.update_of_ne hi]

theorem records_link {n : Nat} (forest : SizedForest (Fin n)) {x y : Fin n}
    (hx : forest.parent x = x) (hy : forest.parent y = y) (hne : x ≠ y) :
    records (forest.link x y hx hy hne) =
      Function.update (Function.update (records forest) x { records forest x with parent := y })
        y { records forest y with size := forest.weight y + forest.weight x } := by
  funext i
  by_cases hiy : i = y
  · subst hiy
    rw [Function.update_self]
    simp [records, SizedForest.link, Forest.link, Function.update_of_ne hne.symm]
  · rw [Function.update_of_ne hiy]
    by_cases hix : i = x
    · subst hix
      rw [Function.update_self]
      simp [records, SizedForest.link, Forest.link, Function.update_of_ne hne]
    · rw [Function.update_of_ne hix]
      simp [records, SizedForest.link, Forest.link, Function.update_of_ne hix,
        Function.update_of_ne hiy]

/-! ## 3. The calls -/

variable {n : Nat}

theorem chase_spec (forest : SizedForest (Fin n)) (x : Fin n) {fuel : Nat}
    (hfuel : n - forest.weight x < fuel) :
    chase (List.ofFn (records forest)) fuel x = .ok (forest.root x).val := by
  induction x using forest.climb generalizing fuel with
  | hroot x h =>
      obtain ⟨fuel, rfl⟩ := Nat.exists_eq_succ_of_ne_zero (Nat.ne_zero_of_lt hfuel)
      have hstop : ¬ (records forest x).parent ≠ x.val :=
        not_not_intro (congrArg Fin.val h)
      rw [chase, load_ofFn, ok_bind, if_neg hstop, forest.root_of_parent_eq h]
      rfl
  | hup x h ih =>
      obtain ⟨fuel, rfl⟩ := Nat.exists_eq_succ_of_ne_zero (Nat.ne_zero_of_lt hfuel)
      have hgo : (records forest x).parent ≠ x.val := fun heq => h (Fin.ext heq)
      have hlt := forest.weight_lt x h
      have hle := forest.weight_le_card (forest.parent x)
      rw [Fintype.card_fin] at hle
      rw [chase, load_ofFn, ok_bind, if_pos hgo]
      have hnext := ih (show n - forest.weight (forest.parent x) < fuel by omega)
      rw [forest.root_parent] at hnext
      exact hnext

/-- The second loop compresses the way up. -/
theorem collapse_spec {fuel : Nat} : ∀ (forest : SizedForest (Fin n)) (x : Fin n),
    n - forest.weight x < fuel →
    ∃ next : SizedForest (Fin n),
      collapse (forest.root x) fuel (List.ofFn (records forest)) x =
        .ok (List.ofFn (records next)) ∧ ∀ y, next.root y = forest.root y := by
  induction fuel with
  | zero => exact fun _ _ hfuel => absurd hfuel (Nat.not_lt_zero _)
  | succ fuel ih =>
      intro forest x hfuel
      rw [collapse, load_ofFn, ok_bind]
      by_cases hdone : forest.parent x = forest.root x
      · have hstop : ¬ (records forest x).parent ≠ (forest.root x).val :=
          not_not_intro (congrArg Fin.val hdone)
        rw [if_neg hstop]
        exact ⟨forest, rfl, fun _ => rfl⟩
      · have hgo : (records forest x).parent ≠ (forest.root x).val :=
          fun heq => hdone (Fin.ext heq)
        have hup : forest.parent x ≠ x := by
          intro h
          rw [forest.root_of_parent_eq h] at hdone
          exact hdone h
        have hlt := forest.weight_lt x hup
        have hle := forest.weight_le_card (forest.parent x)
        rw [Fintype.card_fin] at hle
        obtain ⟨next, hnext, hroots⟩ := ih (forest.compress x) (forest.parent x)
          (show n - forest.weight (forest.parent x) < fuel by omega)
        rw [SizedForest.root_compress, forest.root_parent, records_compress] at hnext
        rw [if_pos hgo, store_ofFn, ok_bind]
        exact ⟨next, hnext, fun y => (hroots y).trans (forest.root_compress x y)⟩

theorem getRepresentative_spec {uf : UnionFind} {forest : SizedForest (Fin n)}
    (h : uf.Models forest) (x : Fin n) :
    ∃ (after : UnionFind) (next : SizedForest (Fin n)),
      uf.getRepresentative x = .ok (after, (forest.root x).val) ∧ after.Models next ∧
        ∀ y, next.root y = forest.root y := by
  have hfuel : n - forest.weight x < n + 1 := Nat.lt_succ_of_le (Nat.sub_le _ _)
  obtain ⟨next, hnext, hroots⟩ := collapse_spec forest x hfuel
  refine ⟨{ uf with data := List.ofFn (records next) }, next, ?_, ⟨h.maxid, rfl⟩, hroots⟩
  rw [getRepresentative, h.length, h.data, chase_spec forest x hfuel, ok_bind, hnext]
  rfl

theorem getSetSize_spec {uf : UnionFind} {forest : SizedForest (Fin n)}
    (h : uf.Models forest) (x : Fin n) :
    ∃ (after : UnionFind) (next : SizedForest (Fin n)),
      uf.getSetSize x =
        .ok (after, (Finset.univ.filter fun y => forest.root y = forest.root x).card) ∧
      after.Models next ∧ ∀ y, next.root y = forest.root y := by
  obtain ⟨after, next, hget, hnext, hroots⟩ := getRepresentative_spec h x
  refine ⟨after, next, ?_, hnext, hroots⟩
  have hroot : next.parent (forest.root x) = forest.root x := by
    rw [← hroots x]
    exact next.parent_root x
  have hsize := next.sized _ hroot
  simp only [hroots] at hsize
  rw [getSetSize, hget, ok_bind]
  dsimp only
  rw [hnext.data, load_ofFn, ok_bind, ← hsize]
  rfl

theorem connect_spec {uf : UnionFind} {forest : SizedForest (Fin n)} (h : uf.Models forest)
    (x y : Fin n) :
    ∃ (after : UnionFind) (next : SizedForest (Fin n)) (root : Fin n),
      uf.connect x y = .ok (after, root.val) ∧ after.Models next ∧
      (root = forest.root x ∨ root = forest.root y) ∧
      ∀ z, next.root z =
        if forest.root z = forest.root x ∨ forest.root z = forest.root y then root
        else forest.root z := by
  obtain ⟨first, compressed, hfirst, hcompressed, hroots⟩ := getRepresentative_spec h x
  obtain ⟨second, flat, hsecond, hflat, hroots'⟩ := getRepresentative_spec hcompressed y
  have hsame (z : Fin n) : flat.root z = forest.root z := (hroots' z).trans (hroots z)
  have hparent (z : Fin n) : flat.parent (forest.root z) = forest.root z := by
    rw [← hsame]
    exact flat.parent_root z
  rw [hroots] at hsecond
  unfold connect
  rw [hfirst, ok_bind]
  dsimp only
  rw [hsecond, ok_bind]
  dsimp only
  by_cases heq : forest.root x = forest.root y
  · rw [if_pos (congrArg Fin.val heq)]
    refine ⟨second, flat, forest.root x, rfl, hflat, .inl rfl, fun z => ?_⟩
    rw [hsame]
    split
    · next hz =>
      rcases hz with hz | hz
      · exact hz
      · exact hz.trans heq.symm
    · rfl
  · rw [if_neg fun hval => heq (Fin.ext hval), hflat.data, load_ofFn, ok_bind, load_ofFn, ok_bind]
    by_cases hsize : (records flat (forest.root x)).size > (records flat (forest.root y)).size
    · -- `y`'s tree is grafted onto `x`'s
      have hrecords := records_link flat (hparent y) (hparent x) (Ne.symm heq)
      rw [if_pos hsize, store_ofFn, ok_bind, store_ofFn, ok_bind]
      refine ⟨_, flat.link _ _ (hparent y) (hparent x) (Ne.symm heq), forest.root x, rfl,
        ⟨hflat.maxid, congrArg List.ofFn hrecords.symm⟩, .inl rfl, fun z => ?_⟩
      rw [flat.root_link, hsame]
      by_cases hzx : forest.root z = forest.root x
      · rw [hzx, if_neg heq, if_pos (.inl rfl)]
      · simp [hzx]
    · have hrecords := records_link flat (hparent x) (hparent y) heq
      rw [if_neg hsize, store_ofFn, ok_bind, store_ofFn, ok_bind]
      refine ⟨_, flat.link _ _ (hparent x) (hparent y) heq, forest.root y, rfl,
        ⟨hflat.maxid, congrArg List.ofFn hrecords.symm⟩, .inr rfl, fun z => ?_⟩
      rw [flat.root_link, hsame]
      by_cases hzy : forest.root z = forest.root y
      · rw [hzy, if_neg (Ne.symm heq), if_pos (.inr rfl)]
      · simp [hzy]

/-! ## 4. Sequences of calls -/

/-- A call with ids up to `maxid`. -/
inductive Call (n : Nat) where
  | getRepresentative (id : Fin n)
  | getSetSize (id : Fin n)
  | connect (aid bid : Fin n)
deriving DecidableEq, Repr

def perform (uf : UnionFind) : Call n → Exec (UnionFind × Nat)
  | .getRepresentative id => uf.getRepresentative id
  | .getSetSize id => uf.getSetSize id
  | .connect aid bid => uf.connect aid bid

def performAll (uf : UnionFind) : List (Call n) → Exec UnionFind
  | [] => return uf
  | call :: calls => do
      let (uf, _) ← uf.perform call
      uf.performAll calls

/-- The pairs of ids that the calls connect. -/
def joins (calls : List (Call n)) : List (Fin n × Fin n) :=
  calls.filterMap fun
    | .connect aid bid => some (aid, bid)
    | _ => none

/-- The array holds a forest whose classes are what the pairs link. -/
def Holds (uf : UnionFind) (pairs : List (Fin n × Fin n)) : Prop :=
  ∃ forest : SizedForest (Fin n), uf.Models forest ∧ Represents forest.root pairs

theorem holds_create (maxid : Nat) : (create maxid).Holds ([] : List (Fin (maxid + 1) × _)) := by
  refine ⟨_, models_create maxid, fun x y => ?_⟩
  rw [SizedForest.root_singletons, SizedForest.root_singletons, linked_nil_iff]

theorem Holds.connect {uf : UnionFind} {pairs : List (Fin n × Fin n)} (h : uf.Holds pairs)
    (x y : Fin n) :
    ∃ after root, uf.connect x y = .ok (after, root) ∧ after.Holds (pairs ++ [(x, y)]) := by
  obtain ⟨forest, hmodels, hrep⟩ := h
  obtain ⟨after, next, root, hconnect, hnext, hroot, hroots⟩ := connect_spec hmodels x y
  exact ⟨after, root, hconnect, next, hnext, hrep.merge hroot hroots⟩

/-- The other calls keep the partition. -/
theorem represents_of_root_eq {forest next : SizedForest (Fin n)}
    {pairs : List (Fin n × Fin n)} (h : Represents forest.root pairs)
    (hroots : ∀ y, next.root y = forest.root y) : Represents next.root pairs := by
  intro x y
  rw [hroots, hroots]
  exact h x y

theorem Holds.perform {uf : UnionFind} {pairs : List (Fin n × Fin n)} (h : uf.Holds pairs)
    (call : Call n) :
    ∃ after result, uf.perform call = .ok (after, result) ∧
      after.Holds (pairs ++ joins [call]) := by
  cases call with
  | connect aid bid => exact h.connect aid bid
  | getRepresentative id =>
      obtain ⟨forest, hmodels, hrep⟩ := h
      obtain ⟨after, next, hget, hnext, hroots⟩ := getRepresentative_spec hmodels id
      refine ⟨after, _, hget, next, hnext, ?_⟩
      rw [show joins [Call.getRepresentative id] = [] from rfl, List.append_nil]
      exact represents_of_root_eq hrep hroots
  | getSetSize id =>
      obtain ⟨forest, hmodels, hrep⟩ := h
      obtain ⟨after, next, hget, hnext, hroots⟩ := getSetSize_spec hmodels id
      refine ⟨after, _, hget, next, hnext, ?_⟩
      rw [show joins [Call.getSetSize id] = [] from rfl, List.append_nil]
      exact represents_of_root_eq hrep hroots

theorem Holds.performAll {uf : UnionFind} {pairs : List (Fin n × Fin n)} (h : uf.Holds pairs)
    (calls : List (Call n)) :
    ∃ after, uf.performAll calls = .ok after ∧ after.Holds (pairs ++ joins calls) := by
  induction calls generalizing uf pairs with
  | nil => exact ⟨uf, rfl, by rwa [show joins ([] : List (Call n)) = [] from rfl, List.append_nil]⟩
  | cons call calls ih =>
      obtain ⟨middle, result, hcall, hmiddle⟩ := h.perform call
      obtain ⟨after, hcalls, hafter⟩ := ih hmiddle
      refine ⟨after, ?_, ?_⟩
      · rw [UnionFind.performAll, hcall]
        exact hcalls
      · have hjoins : joins (call :: calls) = joins [call] ++ joins calls := by
          unfold joins
          rw [← List.filterMap_append, List.singleton_append]
        rwa [List.append_assoc, ← hjoins] at hafter

/-- What the calls answer when the pairs have been connected. -/
structure Answers (uf : UnionFind) (pairs : List (Fin n × Fin n)) : Prop where
  /-- Two ids have one representative exactly if they are linked. -/
  same : ∀ x y : Fin n, ∃ first second rep0 rep1, uf.getRepresentative x = .ok (first, rep0) ∧
    first.getRepresentative y = .ok (second, rep1) ∧ (rep0 = rep1 ↔ Linked pairs x y)
  /-- The representative of an id is linked to it. -/
  member : ∀ x : Fin n, ∃ (after : UnionFind) (rep : Fin n),
    uf.getRepresentative x = .ok (after, rep.val) ∧ Linked pairs x rep
  size : ∀ x : Fin n, ∃ after,
    uf.getSetSize x = .ok (after, {y : Fin n | Linked pairs x y}.ncard)

theorem Holds.answers {uf : UnionFind} {pairs : List (Fin n × Fin n)} (h : uf.Holds pairs) :
    uf.Answers pairs := by
  obtain ⟨forest, hmodels, hrep⟩ := h
  refine ⟨fun x y => ?_, fun x => ?_, fun x => ?_⟩
  · obtain ⟨first, next, hfirst, hnext, hroots⟩ := getRepresentative_spec hmodels x
    obtain ⟨second, last, hsecond, -, -⟩ := getRepresentative_spec hnext y
    refine ⟨first, second, _, _, hfirst, hsecond, ?_⟩
    rw [hroots, ← hrep x y]
    exact ⟨fun heq => Fin.ext heq, congrArg Fin.val⟩
  · obtain ⟨after, next, hget, -, -⟩ := getRepresentative_spec hmodels x
    exact ⟨after, _, hget, (hrep x _).mp (forest.root_root x).symm⟩
  · obtain ⟨after, next, hget, -, -⟩ := getSetSize_spec hmodels x
    have hclass : {y : Fin n | Linked pairs x y} =
        (Finset.univ.filter fun y => forest.root y = forest.root x : Finset (Fin n)) := by
      ext y
      rw [Finset.mem_coe, Finset.mem_filter]
      exact (hrep x y).symm.trans
        ⟨fun heq => ⟨Finset.mem_univ y, heq.symm⟩, fun heq => heq.2.symm⟩
    rw [hclass, Set.ncard_coe_finset]
    exact ⟨after, hget⟩

/-- Every record holds two `uint32_t`. -/
def Fits32 (uf : UnionFind) : Prop :=
  ∀ record ∈ uf.data, record.parent < 2 ^ 32 ∧ record.size < 2 ^ 32

theorem Holds.fits32 {uf : UnionFind} {pairs : List (Fin n × Fin n)} (h : uf.Holds pairs)
    (hn : n ≤ 2 ^ 31) : uf.Fits32 := by
  obtain ⟨forest, hmodels, -⟩ := h
  intro record hmem
  have hmaxid := hmodels.maxid
  obtain ⟨hparent, hsize⟩ := hmodels.fits hmem
  omega

/-- **The union-find is right**: no sequence of calls leaves the array, fails to return or
    stores a number that is no `uint32_t`, and after it representatives and sizes are those
    of the classes that its `unionfind_connect` calls generate. -/
theorem answers_of_calls (maxid : Nat) (hmaxid : maxid + 1 < 2 ^ 31)
    (calls : List (Call (maxid + 1))) :
    ∃ uf, (create maxid).performAll calls = .ok uf ∧ uf.Fits32 ∧ uf.Answers (joins calls) := by
  obtain ⟨uf, hcalls, hholds⟩ := (holds_create maxid).performAll calls
  exact ⟨uf, hcalls, hholds.fits32 hmaxid.le, hholds.answers⟩

/-- Three calls on five ids. -/
def threeCalls : List (Call 5) := [.connect 0 1, .connect 3 4, .connect 1 4]

theorem answers_of_calls_three : 4 + 1 < 2 ^ 31 ∧ ∃ uf, (create 4).performAll threeCalls = .ok uf ∧
    uf.Fits32 ∧ uf.Answers [((0 : Fin 5), (1 : Fin 5)), (3, 4), (1, 4)] :=
  ⟨by decide, answers_of_calls 4 (by decide) threeCalls⟩

example : ((create 4).performAll threeCalls).toOption.map UnionFind.data =
    some [⟨1, 1⟩, ⟨4, 2⟩, ⟨2, 1⟩, ⟨4, 1⟩, ⟨4, 4⟩] := by decide

end UnionFind

end Lame
