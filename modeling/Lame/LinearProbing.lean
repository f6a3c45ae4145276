/-
  Lame/LinearProbing.lean
  =======================
  **Open addressing with linear probing.**

  A value goes into the first free slot at or after the home slot of its key, round the end
  of the table; it is looked for from the home slot on, until its key or a free slot turns
  up.  Nothing is ever removed.  `Holds` relates the slots to the values that were put in:
  while a slot is free, a look-up stops, and at the first value that came with the key.
-/
import Mathlib.Data.Finset.Card
import Mathlib.Data.List.Basic
import Mathlib.Data.Nat.Find

namespace Lame.LinearProbing

/-- The number of slots, the key of a value and the home slot of a key. -/
structure Scheme (Value Key : Type) where
  size : Nat
  key : Value → Key
  home : Key → Nat

namespace Scheme

variable {Value Key : Type} {scheme : Scheme Value Key}
  {items : List Value} {slots : Nat → Option Value} {key : Key} {j : Nat}

/-- The slot that is tried after `j` others. -/
def probe (scheme : Scheme Value Key) (key : Key) (j : Nat) : Nat :=
  (scheme.home key + j) % scheme.size

/-- The first `j` slots that are tried have other keys. -/
def Passes (scheme : Scheme Value Key) (slots : Nat → Option Value) (key : Key) (j : Nat) :
    Prop :=
  ∀ i < j, ∃ value, slots (scheme.probe key i) = some value ∧ scheme.key value ≠ key

theorem probe_lt (hsize : 0 < scheme.size) : scheme.probe key j < scheme.size :=
  Nat.mod_lt _ hsize

/-- Probing comes to every slot. -/
theorem exists_probe {slot : Nat} (hslot : slot < scheme.size) (key : Key) :
    ∃ j < scheme.size, scheme.probe key j = slot := by
  have hsize : 0 < scheme.size := Nat.lt_of_le_of_lt (Nat.zero_le slot) hslot
  have hhome := Nat.mod_lt (scheme.home key) hsize
  refine ⟨(slot + scheme.size - scheme.home key % scheme.size) % scheme.size,
    Nat.mod_lt _ hsize, ?_⟩
  rw [probe, Nat.add_mod_mod, ← Nat.mod_add_mod]
  have hsum : scheme.home key % scheme.size +
      (slot + scheme.size - scheme.home key % scheme.size) = slot + scheme.size := by
    omega
  rw [hsum, Nat.add_mod_right, Nat.mod_eq_of_lt hslot]

theorem Passes.update {slot : Nat} {new : Value} (h : scheme.Passes slots key j)
    (hfree : slots slot = none) :
    scheme.Passes (Function.update slots slot (some new)) key j := by
  intro i hi
  obtain ⟨value, hvalue, hne⟩ := h i hi
  refine ⟨value, ?_, hne⟩
  rw [Function.update_of_ne, hvalue]
  intro heq
  rw [heq, hfree] at hvalue
  cases hvalue

variable [DecidableEq Key]

def firstWith (scheme : Scheme Value Key) (items : List Value) (key : Key) : Option Value :=
  items.find? fun value => scheme.key value = key

/-- The slots after these values were put in. -/
structure Holds (scheme : Scheme Value Key) (items : List Value) (slots : Nat → Option Value) :
    Prop where
  free : ((Finset.range scheme.size).filter fun i => (slots i).isNone).card + items.length =
    scheme.size
  mem : ∀ i value, slots i = some value → value ∈ items
  found : ∀ key value, scheme.firstWith items key = some value → ∃ j < scheme.size,
    scheme.Passes slots key j ∧ slots (scheme.probe key j) = some value

theorem holds_nil : scheme.Holds [] fun _ => none where
  free := by simp
  mem := by
    intro i value h
    cases h
  found := by
    intro key value h
    cases h

theorem key_of_firstWith {value : Value} (h : scheme.firstWith items key = some value) :
    scheme.key value = key :=
  of_decide_eq_true (List.find?_some (p := fun value => decide (scheme.key value = key)) h)

theorem key_ne_of_firstWith {value : Value} (h : scheme.firstWith items key = none)
    (hmem : value ∈ items) : scheme.key value ≠ key := by
  intro hkey
  exact List.find?_eq_none.mp h value hmem (decide_eq_true hkey)

/-- While there are fewer values than slots, probing comes to a free slot. -/
theorem Holds.exists_free (h : scheme.Holds items slots) (hroom : items.length < scheme.size)
    (key : Key) : ∃ j < scheme.size, slots (scheme.probe key j) = none ∧
      ∀ i < j, slots (scheme.probe key i) ≠ none := by
  have hcard := h.free
  have hpos : 0 < ((Finset.range scheme.size).filter fun i => (slots i).isNone).card := by
    omega
  obtain ⟨slot, hslot⟩ := Finset.card_pos.mp hpos
  rw [Finset.mem_filter, Finset.mem_range, Option.isNone_iff_eq_none] at hslot
  obtain ⟨j, hj, rfl⟩ := exists_probe hslot.1 key
  have hexists : ∃ j, slots (scheme.probe key j) = none := ⟨j, hslot.2⟩
  classical
  refine ⟨Nat.find hexists, ?_, Nat.find_spec hexists, ?_⟩
  · exact Nat.lt_of_le_of_lt (Nat.find_min' hexists hslot.2) hj
  · intro i hi
    exact Nat.find_min hexists hi

/-- A look-up stops, at the first value that came with the key, or else at a free slot. -/
theorem Holds.exists_stop (h : scheme.Holds items slots) (hroom : items.length < scheme.size)
    (key : Key) : ∃ j < scheme.size, scheme.Passes slots key j ∧
      slots (scheme.probe key j) = scheme.firstWith items key := by
  cases hfirst : scheme.firstWith items key with
  | some value => exact h.found key value hfirst
  | none =>
      obtain ⟨j, hj, hfree, hfull⟩ := h.exists_free hroom key
      refine ⟨j, hj, ?_, hfree⟩
      intro i hi
      obtain ⟨value, hvalue⟩ := Option.ne_none_iff_exists'.mp (hfull i hi)
      exact ⟨value, hvalue, key_ne_of_firstWith hfirst (h.mem _ _ hvalue)⟩

/-- Putting a value into the first free slot that probing for its key comes to. -/
theorem Holds.insert (h : scheme.Holds items slots) {new : Value} (hj : j < scheme.size)
    (hfree : slots (scheme.probe (scheme.key new) j) = none)
    (hfull : ∀ i < j, slots (scheme.probe (scheme.key new) i) ≠ none) :
    scheme.Holds (items ++ [new])
      (Function.update slots (scheme.probe (scheme.key new) j) (some new)) := by
  have hslot : scheme.probe (scheme.key new) j < scheme.size :=
    probe_lt (Nat.lt_of_le_of_lt (Nat.zero_le j) hj)
  generalize hprobe : scheme.probe (scheme.key new) j = slot at hfree hslot ⊢
  constructor
  · have herase : (Finset.range scheme.size).filter
        (fun i => (Function.update slots slot (some new) i).isNone) =
        ((Finset.range scheme.size).filter fun i => (slots i).isNone).erase slot := by
      ext i
      rw [Finset.mem_erase, Finset.mem_filter, Finset.mem_filter]
      by_cases hi : i = slot
      · subst hi
        simp
      · rw [Function.update_of_ne hi]
        simp [hi]
    have hmem : slot ∈ (Finset.range scheme.size).filter fun i => (slots i).isNone := by
      rw [Finset.mem_filter, Finset.mem_range, hfree]
      exact ⟨hslot, rfl⟩
    have hpos := Finset.card_pos.mpr ⟨slot, hmem⟩
    have hcard := h.free
    rw [herase, Finset.card_erase_of_mem hmem, List.length_append, List.length_singleton]
    omega
  · intro i value hvalue
    by_cases hi : i = slot
    · rw [hi, Function.update_self] at hvalue
      rw [← Option.some.inj hvalue]
      exact List.mem_append_right _ (List.mem_singleton_self _)
    · rw [Function.update_of_ne hi] at hvalue
      exact List.mem_append_left _ (h.mem i value hvalue)
  · intro key value hvalue
    rw [firstWith, List.find?_append] at hvalue
    rcases hfirst : scheme.firstWith items key with _ | first
    · -- the new value is the first with its key
      rw [firstWith] at hfirst
      rw [hfirst, Option.none_or, List.find?_singleton] at hvalue
      split at hvalue
      · next hkey =>
          obtain rfl := Option.some.inj hvalue
          obtain rfl := of_decide_eq_true hkey
          refine ⟨j, hj, ?_, by rw [hprobe, Function.update_self]⟩
          refine Passes.update (fun i hi => ?_) hfree
          obtain ⟨other, hother⟩ := Option.ne_none_iff_exists'.mp (hfull i hi)
          exact ⟨other, hother, key_ne_of_firstWith hfirst (h.mem _ _ hother)⟩
      · cases hvalue
    · obtain ⟨i, hi, hpasses, hcell⟩ := h.found key first hfirst
      rw [firstWith] at hfirst
      rw [hfirst, Option.some_or] at hvalue
      refine ⟨i, hi, hpasses.update hfree, ?_⟩
      rw [Function.update_of_ne, hcell, hvalue]
      intro heq
      rw [heq, hfree] at hcell
      cases hcell

end Scheme

end Lame.LinearProbing
