/-
  Lame/HashChains.lean
  ====================
  **Grouping by key in a table of chains.**

  A bucket of the table is a chain of entries, each with a key and the values that were
  added under it.  Adding a value goes to the entry of its key in the bucket that the key
  hashes to; a key that is not there yet gets a new entry in front.  Whatever the hash, the
  entries of all chains together are the groups of the values by key, each in the order in
  which the values came.
-/
import Lame.ByteMemory
import Mathlib.Data.List.Flatten
import Mathlib.Data.List.Nodup

namespace Lame.HashChains

open ByteMemory

variable {Key Value : Type} [DecidableEq Key]

abbrev Chain (Key Value : Type) := List (Key × List Value)

/-- The values that came with the key, in their order. -/
def valuesOf (items : List (Key × Value)) (key : Key) : List Value :=
  items.filterMap fun item => if item.1 = key then some item.2 else none

/-! ## 1. One chain -/

/-- Append to the entry of the key, if the chain has one. -/
def append (key : Key) (value : Value) : Chain Key Value → Option (Chain Key Value)
  | [] => none
  | (other, values) :: rest =>
      if other = key then some ((other, values ++ [value]) :: rest)
      else (append key value rest).map ((other, values) :: ·)

def addTo (key : Key) (value : Value) (chain : Chain Key Value) : Chain Key Value :=
  (append key value chain).getD ((key, [value]) :: chain)

/-- A chain with the groups of some keys. -/
structure Groups (items : List (Key × Value)) (Here : Key → Prop) (chain : Chain Key Value) :
    Prop where
  nodup : (chain.map Prod.fst).Nodup
  mem_iff : ∀ key values, (key, values) ∈ chain ↔
    Here key ∧ values = valuesOf items key ∧ values ≠ []

section Chain

variable {items : List (Key × Value)} {Here : Key → Prop} {chain after : Chain Key Value}
  {key : Key} {value : Value}

theorem valuesOf_append (items more : List (Key × Value)) (key : Key) :
    valuesOf (items ++ more) key = valuesOf items key ++ valuesOf more key :=
  List.filterMap_append

theorem valuesOf_snoc_self (items : List (Key × Value)) (key : Key) (value : Value) :
    valuesOf (items ++ [(key, value)]) key = valuesOf items key ++ [value] := by
  rw [valuesOf_append]
  simp [valuesOf]

theorem valuesOf_snoc_of_ne {other : Key} (h : other ≠ key) :
    valuesOf (items ++ [(key, value)]) other = valuesOf items other := by
  rw [valuesOf_append]
  simp [valuesOf, h.symm]

theorem valuesOf_ne_nil_iff : valuesOf items key ≠ [] ↔ ∃ item ∈ items, item.1 = key := by
  rw [Ne, valuesOf, List.filterMap_eq_nil_iff]
  simp

theorem append_eq_none_iff : append key value chain = none ↔ key ∉ chain.map Prod.fst := by
  induction chain with
  | nil => simp [append]
  | cons entry rest ih =>
      obtain ⟨other, values⟩ := entry
      rw [append]
      by_cases hkey : other = key
      · simp [hkey]
      · simp [hkey, ih, Ne.symm hkey]

theorem keys_append (h : append key value chain = some after) :
    after.map Prod.fst = chain.map Prod.fst := by
  induction chain generalizing after with
  | nil => cases h
  | cons entry rest ih =>
      obtain ⟨other, values⟩ := entry
      rw [append] at h
      split at h
      · cases h
        rfl
      · obtain ⟨tail, htail, rfl⟩ := Option.map_eq_some_iff.mp h
        rw [List.map_cons, List.map_cons, ih htail]

/-- The entry of the key gets the value, the others stay. -/
theorem mem_append (hnodup : (chain.map Prod.fst).Nodup)
    (h : append key value chain = some after) (other : Key) (values : List Value) :
    (other, values) ∈ after ↔
      (other ≠ key ∧ (other, values) ∈ chain) ∨
      (other = key ∧ ∃ old, (key, old) ∈ chain ∧ values = old ++ [value]) := by
  induction chain generalizing after with
  | nil => cases h
  | cons entry rest ih =>
      obtain ⟨first, old⟩ := entry
      rw [List.map_cons, List.nodup_cons] at hnodup
      rw [append] at h
      split at h
      · next hfirst =>
        subst hfirst
        cases h
        have hrest {values : List Value} : (first, values) ∉ rest := fun hmem =>
          hnodup.1 (List.mem_map.mpr ⟨(first, values), hmem, rfl⟩)
        by_cases hother : other = first
        · subst hother
          simp [hrest]
        · simp [hother]
      · next hfirst =>
        obtain ⟨tail, htail, rfl⟩ := Option.map_eq_some_iff.mp h
        rw [List.mem_cons, ih hnodup.2 htail, List.mem_cons]
        constructor
        · rintro (hhead | ⟨hne, hmem⟩ | ⟨rfl, old', hmem, rfl⟩)
          · obtain ⟨rfl, rfl⟩ := Prod.mk.inj hhead
            exact .inl ⟨hfirst, .inl rfl⟩
          · exact .inl ⟨hne, .inr hmem⟩
          · exact .inr ⟨rfl, old', List.mem_cons_of_mem _ hmem, rfl⟩
        · rintro (⟨hne, hmem | hmem⟩ | ⟨rfl, old', hmem, rfl⟩)
          · exact .inl hmem
          · exact .inr (.inl ⟨hne, hmem⟩)
          · rcases List.mem_cons.mp hmem with hhead | hmem
            · exact absurd (Prod.mk.inj hhead).1.symm hfirst
            · exact .inr (.inr ⟨rfl, old', hmem, rfl⟩)

/-- A value more for a key of the chain. -/
theorem Groups.addTo (h : Groups items Here chain) (hkey : Here key) :
    Groups (items ++ [(key, value)]) Here (addTo key value chain) := by
  have hvalues {other : Key} (hne : other ≠ key) :
      valuesOf (items ++ [(key, value)]) other = valuesOf items other := valuesOf_snoc_of_ne hne
  rw [HashChains.addTo]
  cases happend : append key value chain with
  | some after =>
      refine ⟨by rw [Option.getD_some, keys_append happend]; exact h.nodup, ?_⟩
      intro other values
      rw [Option.getD_some, mem_append h.nodup happend]
      constructor
      · rintro (⟨hne, hmem⟩ | ⟨rfl, old, hmem, rfl⟩)
        · rw [hvalues hne]
          exact (h.mem_iff _ _).mp hmem
        · obtain ⟨hhere, rfl, -⟩ := (h.mem_iff _ _).mp hmem
          refine ⟨hhere, (valuesOf_snoc_self items other value).symm, ?_⟩
          exact List.append_ne_nil_of_right_ne_nil _ (List.cons_ne_nil _ _)
      · rintro ⟨hhere, rfl, hne⟩
        by_cases hother : other = key
        · subst hother
          have hin : other ∈ chain.map Prod.fst := by
            by_contra hout
            rw [append_eq_none_iff.mpr hout] at happend
            cases happend
          obtain ⟨⟨first, old⟩, hmem, rfl⟩ := List.mem_map.mp hin
          have hold := ((h.mem_iff _ _).mp hmem).2.1
          exact .inr ⟨rfl, old, hmem, by rw [valuesOf_snoc_self, hold]⟩
        · rw [hvalues hother] at hne ⊢
          exact .inl ⟨hother, (h.mem_iff _ _).mpr ⟨hhere, rfl, hne⟩⟩
  | none =>
      have hout := append_eq_none_iff.mp happend
      have hempty : valuesOf items key = [] := by
        by_contra hne
        exact hout (List.mem_map_of_mem ((h.mem_iff _ _).mpr ⟨hkey, rfl, hne⟩))
      have hself : valuesOf (items ++ [(key, value)]) key = [value] := by
        rw [valuesOf_snoc_self, hempty, List.nil_append]
      rw [Option.getD_none]
      refine ⟨List.nodup_cons.mpr ⟨hout, h.nodup⟩, fun other values => ?_⟩
      rw [List.mem_cons]
      constructor
      · rintro (hhead | hmem)
        · obtain ⟨rfl, rfl⟩ := Prod.mk.inj hhead
          exact ⟨hkey, hself.symm, List.cons_ne_nil _ _⟩
        · have hne : other ≠ key := by
            rintro rfl
            exact hout (List.mem_map_of_mem hmem)
          rw [hvalues hne]
          exact (h.mem_iff _ _).mp hmem
      · rintro ⟨hhere, rfl, hne⟩
        by_cases hother : other = key
        · subst hother
          exact .inl (by rw [hself])
        · rw [hvalues hother] at hne ⊢
          exact .inr ((h.mem_iff _ _).mpr ⟨hhere, rfl, hne⟩)

/-- What comes for other keys is nothing to the chain. -/
theorem Groups.of_other (h : Groups items Here chain) (hkey : ¬ Here key) :
    Groups (items ++ [(key, value)]) Here chain := by
  refine ⟨h.nodup, fun other values => ?_⟩
  rw [h.mem_iff]
  apply and_congr_right
  intro hhere
  have hne : other ≠ key := by
    rintro rfl
    exact hkey hhere
  rw [valuesOf_snoc_of_ne hne]

end Chain

/-! ## 2. The table -/

/-- Add a value under its key. -/
def push (hash : Key → Nat) (table : List (Chain Key Value)) (item : Key × Value) :
    Exec (List (Chain Key Value)) := do
  let chain ← load table (hash item.1)
  store table (hash item.1) (addTo item.1 item.2 chain)

/-- Every bucket holds the groups of the keys that hash to it. -/
def Grouped (hash : Key → Nat) (items : List (Key × Value)) (table : List (Chain Key Value)) :
    Prop :=
  ∀ i (hi : i < table.length), Groups items (fun key => hash key = i) table[i]

section Table

variable {hash : Key → Nat} {items : List (Key × Value)} {table : List (Chain Key Value)}

theorem grouped_empty (hash : Key → Nat) (size : Nat) :
    Grouped hash [] (List.replicate size ([] : Chain Key Value)) := by
  intro i hi
  rw [List.getElem_replicate]
  exact ⟨List.nodup_nil, by simp [valuesOf]⟩

theorem Grouped.push (h : Grouped hash items table) (item : Key × Value)
    (hhash : hash item.1 < table.length) :
    ∃ after, push hash table item = .ok after ∧ after.length = table.length ∧
      Grouped hash (items ++ [item]) after := by
  have hload : load table (hash item.1) = .ok table[hash item.1] := by
    rw [load, List.getElem?_eq_getElem hhash]
  refine ⟨table.set (hash item.1) (addTo item.1 item.2 table[hash item.1]), ?_,
    List.length_set, ?_⟩
  · rw [HashChains.push, hload]
    exact store_eq_ok.mpr ⟨hhash, rfl⟩
  · intro i hi
    rw [List.length_set] at hi
    rw [List.getElem_set]
    by_cases hbucket : hash item.1 = i
    · subst hbucket
      rw [if_pos rfl]
      exact (h _ hhash).addTo rfl
    · rw [if_neg hbucket]
      exact (h i hi).of_other hbucket

/-- **The entries are the groups.** -/
theorem Grouped.flatten (h : Grouped hash items table)
    (hhash : ∀ key, hash key < table.length) :
    Groups items (fun _ => True) table.flatten := by
  refine ⟨?_, fun key values => ?_⟩
  · rw [List.map_flatten, List.nodup_flatten]
    constructor
    · intro keys hkeys
      obtain ⟨chain, hchain, rfl⟩ := List.mem_map.mp hkeys
      obtain ⟨i, hi, rfl⟩ := List.getElem_of_mem hchain
      exact (h i hi).nodup
    · rw [List.pairwise_iff_getElem]
      intro i j hi hj hij
      rw [List.length_map] at hi hj
      rw [List.getElem_map, List.getElem_map]
      intro key hkey hkey'
      obtain ⟨⟨_, values⟩, hmem, rfl⟩ := List.mem_map.mp hkey
      obtain ⟨⟨_, values'⟩, hmem', hsame⟩ := List.mem_map.mp hkey'
      have hfirst := (((h i hi).mem_iff _ _).mp hmem).1
      have hsecond := (((h j hj).mem_iff _ _).mp hmem').1
      dsimp only at hsame
      rw [hsame, hfirst] at hsecond
      omega
  · rw [List.mem_flatten]
    constructor
    · rintro ⟨chain, hchain, hmem⟩
      obtain ⟨i, hi, rfl⟩ := List.getElem_of_mem hchain
      exact ⟨trivial, (((h i hi).mem_iff _ _).mp hmem).2⟩
    · rintro ⟨-, hvalues⟩
      exact ⟨_, List.getElem_mem (hhash key),
        ((h _ (hhash key)).mem_iff _ _).mpr ⟨rfl, hvalues⟩⟩

end Table

end Lame.HashChains
