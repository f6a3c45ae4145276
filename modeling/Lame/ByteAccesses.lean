/-
  Lame/ByteAccesses.lean
  ======================
  **Computations over C arrays that log the cells they touch.**

  `ByteMemory` says that a computation stays inside its array: it does not fault.
  It does not say which cells are read and which are written.  A `Logged`
  computation carries, next to its result, every access in program order, with
  the index the C expression evaluates to; an access that faults is logged too.

  The rules at the end derive "every access is allowed" along the structure of a
  program: one for each access, one for sequencing.
-/
import Lame.ByteMemory

namespace Lame.ByteAccesses

open ByteMemory

inductive Access where
  | read (index : Int)
  | write (index : Int)
deriving DecidableEq, Repr

/-- Reads in `[0, reads)`, writes in `[0, writes)`. -/
def Access.Inside (reads writes : Int) : Access → Prop
  | .read index => 0 ≤ index ∧ index < reads
  | .write index => 0 ≤ index ∧ index < writes

theorem Access.Inside.mono {reads reads' writes writes' : Int} (hreads : reads ≤ reads')
    (hwrites : writes ≤ writes') {access : Access} (h : access.Inside reads writes) :
    access.Inside reads' writes' := by
  cases access with
  | read index => exact ⟨h.1, Int.lt_of_lt_of_le h.2 hreads⟩
  | write index => exact ⟨h.1, Int.lt_of_lt_of_le h.2 hwrites⟩

/-- A result together with the accesses made on the way to it. -/
structure Logged (β : Type) where
  result : Exec β
  accesses : List Access

variable {α β γ : Type}

namespace Logged

def fail (fault : Fault) : Logged β := ⟨.error fault, []⟩

instance : Monad Logged where
  pure value := ⟨.ok value, []⟩
  bind first next :=
    match first.result with
    | .error fault => ⟨.error fault, first.accesses⟩
    | .ok value => ⟨(next value).result, first.accesses ++ (next value).accesses⟩

def load (cells : List α) (i : Nat) : Logged α := ⟨ByteMemory.load cells i, [.read i]⟩

def store (cells : List α) (i : Nat) (cell : α) : Logged (List α) :=
  ⟨ByteMemory.store cells i cell, [.write i]⟩

def loadInt (cells : List α) (i : Int) : Logged α := ⟨ByteMemory.loadInt cells i, [.read i]⟩

/-! ### Forgetting the log -/

@[simp] theorem result_bind (first : Logged β) (next : β → Logged γ) :
    (first >>= next).result = first.result >>= fun value => (next value).result := by
  obtain ⟨result, accesses⟩ := first
  cases result with
  | error fault => rfl
  | ok value => rfl

@[simp] theorem result_load (cells : List α) (i : Nat) :
    (load cells i).result = ByteMemory.load cells i := rfl

@[simp] theorem result_store (cells : List α) (i : Nat) (cell : α) :
    (store cells i cell).result = ByteMemory.store cells i cell := rfl

@[simp] theorem result_loadInt (cells : List α) (i : Int) :
    (loadInt cells i).result = ByteMemory.loadInt cells i := rfl

/-! ### Which accesses a computation makes -/

/-- Every access is allowed. -/
def Accesses (Allowed : Access → Prop) (computation : Logged β) : Prop :=
  ∀ access ∈ computation.accesses, Allowed access

variable {Allowed Weaker : Access → Prop}

theorem Accesses.mono {computation : Logged β} (h : computation.Accesses Allowed)
    (hweaker : ∀ access, Allowed access → Weaker access) : computation.Accesses Weaker :=
  fun access hmem => hweaker access (h access hmem)

theorem accesses_pure (value : β) : (pure value : Logged β).Accesses Allowed := by
  intro access hmem
  cases hmem

theorem accesses_fail (fault : Fault) : (fail fault : Logged β).Accesses Allowed := by
  intro access hmem
  cases hmem

theorem accesses_load {cells : List α} {i : Nat} (h : Allowed (.read i)) :
    (load cells i).Accesses Allowed := by
  intro access hmem
  obtain rfl := List.mem_singleton.mp hmem
  exact h

theorem accesses_store {cells : List α} {i : Nat} {cell : α} (h : Allowed (.write i)) :
    (store cells i cell).Accesses Allowed := by
  intro access hmem
  obtain rfl := List.mem_singleton.mp hmem
  exact h

theorem accesses_loadInt {cells : List α} {i : Int} (h : Allowed (.read i)) :
    (loadInt cells i).Accesses Allowed := by
  intro access hmem
  obtain rfl := List.mem_singleton.mp hmem
  exact h

/-- **Sequencing.**  The second computation has to be allowed on the values the
    first one can return only. -/
theorem Accesses.bind {first : Logged β} {next : β → Logged γ}
    (hfirst : first.Accesses Allowed)
    (hnext : ∀ value, first.result = .ok value → (next value).Accesses Allowed) :
    (first >>= next).Accesses Allowed := by
  obtain ⟨result, accesses⟩ := first
  cases result with
  | error fault => exact hfirst
  | ok value =>
      intro access hmem
      rcases List.mem_append.mp hmem with hmem | hmem
      · exact hfirst access hmem
      · exact hnext value rfl access hmem

end Logged

end Lame.ByteAccesses
