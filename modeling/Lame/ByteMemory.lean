/-
  Lame/ByteMemory.lean
  ====================
  **Bounds-checked cell memory for C buffers.**

  A C array is modelled as the list of its cells, and the code reaches a cell by
  index only.  `load` and `store` fail with `Fault.outOfBounds` where the C
  program would leave the array, so "the function stays inside its buffer" is
  the statement that it returns `Except.ok` on a buffer of exactly that size.
  A loop over a fixed-width counter takes fuel; `Fault.outOfFuel` marks a loop
  that has not stopped when its fuel is spent.

  Nothing here knows about a particular program.  The lemmas describe an access
  by the split `front ++ cell :: back` of the array around the index, which is
  the shape the loop invariants of in-place algorithms come in.
-/
import Mathlib.Data.List.Basic

namespace Lame.ByteMemory

/-- What can go wrong while a C loop runs over an array. -/
inductive Fault where
  | outOfBounds
  | outOfFuel
deriving DecidableEq, Repr

abbrev Exec (β : Type) := Except Fault β

variable {α β : Type}

@[simp] theorem ok_bind {γ : Type} (value : β) (next : β → Exec γ) :
    (Except.ok value >>= next) = next value := rfl

theorem bind_eq_ok {ε γ : Type} {first : Except ε β} {next : β → Except ε γ} {result : γ} :
    (first >>= next) = .ok result ↔ ∃ value, first = .ok value ∧ next value = .ok result := by
  cases first with
  | error fault => simp [bind, Except.bind]
  | ok value => simp [bind, Except.bind]

theorem ok_ne_error {ε α : Type} {a : α} {e : ε} : (.ok a : Except ε α) ≠ .error e := by
  intro h
  cases h

theorem bind_eq_error {ε γ : Type} {first : Except ε β} {next : β → Except ε γ} {fault : ε} :
    (first >>= next) = .error fault ↔
      first = .error fault ∨ ∃ value, first = .ok value ∧ next value = .error fault := by
  cases first with
  | error fault => simp [bind, Except.bind]
  | ok value => simp [bind, Except.bind]

/-- `cells[i]` as an rvalue. -/
def load (cells : List α) (i : Nat) : Exec α :=
  match cells[i]? with
  | some cell => .ok cell
  | none => .error .outOfBounds

def store (cells : List α) (i : Nat) (cell : α) : Exec (List α) :=
  if i < cells.length then .ok (cells.set i cell) else .error .outOfBounds

/-- `cells[i]` for an `int` index, which may be negative. -/
def loadInt (cells : List α) (i : Int) : Exec α :=
  if i < 0 then .error .outOfBounds else load cells i.toNat

/-- Consecutive assignments `cells[start] = v₀; cells[start + 1] = v₁; …`. -/
def storeAll (cells : List α) (start : Nat) : List α → Exec (List α)
  | [] => .ok cells
  | value :: values => do
      let cells ← store cells start value
      storeAll cells (start + 1) values

/-! ### Accesses that succeed -/

theorem exists_load {cells : List α} {i : Nat} (h : i < cells.length) :
    ∃ cell, load cells i = .ok cell := by
  refine ⟨cells[i], ?_⟩
  rw [load, List.getElem?_eq_getElem h]

theorem store_eq_ok {cells after : List α} {i : Nat} {cell : α} :
    store cells i cell = .ok after ↔ i < cells.length ∧ cells.set i cell = after := by
  unfold store
  split
  · next hi => simp [hi]
  · next hi => simp [hi]

theorem length_storeAll {cells after values : List α} {start : Nat}
    (hstore : storeAll cells start values = .ok after) : after.length = cells.length := by
  induction values generalizing cells start with
  | nil => rw [Except.ok.inj hstore]
  | cons value values ih =>
      rw [storeAll] at hstore
      obtain ⟨middle, hfirst, hrest⟩ := bind_eq_ok.mp hstore
      obtain ⟨-, rfl⟩ := store_eq_ok.mp hfirst
      rw [ih hrest, List.length_set]

/-! ### Accesses at a split -/

theorem load_split (front back : List α) (cell : α) {i : Nat} (hi : i = front.length) :
    load (front ++ cell :: back) i = .ok cell := by
  subst hi
  simp [load]

theorem store_split (front back : List α) (old cell : α) {i : Nat}
    (hi : i = front.length) :
    store (front ++ old :: back) i cell = .ok (front ++ cell :: back) := by
  subst hi
  simp [store]

/-- A block of assignments overwrites exactly the cells it names. -/
theorem storeAll_split (front old back values : List α) {start : Nat}
    (hstart : start = front.length) (hlen : old.length = values.length) :
    storeAll (front ++ old ++ back) start values = .ok (front ++ values ++ back) := by
  induction values generalizing front old start with
  | nil =>
      have hold : old = [] := List.length_eq_zero_iff.mp hlen
      simp [storeAll, hold]
  | cons value values ih =>
      cases old with
      | nil => simp at hlen
      | cons first old =>
          simp only [storeAll, List.append_assoc, List.cons_append]
          rw [store_split front (old ++ back) first value hstart]
          have hnext := ih (front ++ [value]) old
            (show start + 1 = (front ++ [value]).length by simp [hstart]) (by simpa using hlen)
          simpa only [ok_bind, List.append_assoc, List.cons_append, List.nil_append] using hnext

/-! ### Loops that run through -/

/-- A loop whose body succeeds on every value, and adds `more x` to what the state is about,
    succeeds and adds all of it. -/
theorem foldlM_collects {σ ι : Type} (Holds : List ι → σ → Prop) {step : σ → α → Exec σ}
    {more : α → List ι} {xs : List α}
    (hstep : ∀ x ∈ xs, ∀ items state, Holds items state →
      ∃ after, step state x = .ok after ∧ Holds (items ++ more x) after)
    {items : List ι} {state : σ} (h : Holds items state) :
    ∃ after, xs.foldlM step state = .ok after ∧ Holds (items ++ xs.flatMap more) after := by
  induction xs generalizing items state with
  | nil => exact ⟨state, rfl, by rwa [List.flatMap_nil, List.append_nil]⟩
  | cons x xs ih =>
      rw [List.forall_mem_cons] at hstep
      obtain ⟨middle, hfirst, hmiddle⟩ := hstep.1 items state h
      obtain ⟨after, hrest, hafter⟩ := ih hstep.2 hmiddle
      refine ⟨after, ?_, ?_⟩
      · rw [List.foldlM_cons, hfirst]
        exact hrest
      · rwa [List.flatMap_cons, ← List.append_assoc]

end Lame.ByteMemory
