/-
  Lame/Sweeps.lean
  ================
  **Loops over the rows and columns of an array.**

  `sweep` runs a body over the columns of every row.  What it leaves behind is described by
  the cells that it has written: all of them hold the value that belongs to their place
  (`Written`), and every other cell is as before.  As the value depends on the place only, it
  does not matter how often a cell is written.
-/
import Lame.ByteMemory

namespace Lame.Sweeps

open ByteMemory

variable {α σ ι : Type}

/-- `for (y : ys) for (x : xs y)` -/
def sweep (ys : List Nat) (xs : Nat → List Nat) (body : σ → Nat → Nat → Exec σ) (state : σ) :
    Exec σ :=
  ys.foldlM (fun state y => (xs y).foldlM (fun state x => body state x y) state) state

/-- The items of all columns of all rows. -/
def swept (ys : List Nat) (xs : Nat → List Nat) (items : Nat → Nat → List ι) : List ι :=
  ys.flatMap fun y => (xs y).flatMap fun x => items x y

theorem mem_swept {ys : List Nat} {xs : Nat → List Nat} {items : Nat → Nat → List ι} {item : ι} :
    item ∈ swept ys xs items ↔ ∃ y ∈ ys, ∃ x ∈ xs y, item ∈ items x y := by
  simp only [swept, List.mem_flatMap]

theorem sweep_collects (Holds : List ι → σ → Prop) {ys : List Nat} {xs : Nat → List Nat}
    {body : σ → Nat → Nat → Exec σ} {more : Nat → Nat → List ι}
    (hstep : ∀ y ∈ ys, ∀ x ∈ xs y, ∀ items state, Holds items state →
      ∃ after, body state x y = .ok after ∧ Holds (items ++ more x y) after)
    {items : List ι} {state : σ} (h : Holds items state) :
    ∃ after, sweep ys xs body state = .ok after ∧ Holds (items ++ swept ys xs more) after := by
  apply foldlM_collects Holds
  · intro y hy items state hholds
    exact foldlM_collects Holds (hstep y hy) hholds
  · exact h

/-- A loop that ran through ran through every value. -/
theorem foldlM_ok_mem {step : σ → α → Exec σ} {xs : List α} {state last : σ}
    (h : xs.foldlM step state = .ok last) {x : α} (hx : x ∈ xs) :
    ∃ before after, step before x = .ok after := by
  induction xs generalizing state with
  | nil => exact absurd hx List.not_mem_nil
  | cons first xs ih =>
      rw [List.foldlM_cons] at h
      obtain ⟨middle, hfirst, hrest⟩ := bind_eq_ok.mp h
      rcases List.mem_cons.mp hx with rfl | hx
      · exact ⟨state, middle, hfirst⟩
      · exact ih hrest hx

theorem sweep_ok_mem {ys : List Nat} {xs : Nat → List Nat} {body : σ → Nat → Nat → Exec σ}
    {state last : σ} (h : sweep ys xs body state = .ok last) {x y : Nat} (hy : y ∈ ys)
    (hx : x ∈ xs y) : ∃ before after, body before x y = .ok after := by
  obtain ⟨before, after, hrow⟩ := foldlM_ok_mem h hy
  exact foldlM_ok_mem hrow hx

/-- What every round leaves as it is, the loops leave as it is. -/
theorem foldlM_keeps {κ : Type} (view : σ → κ) {step : σ → α → Exec σ}
    (hstep : ∀ before after x, step before x = .ok after → view after = view before)
    {xs : List α} {state last : σ} (h : xs.foldlM step state = .ok last) :
    view last = view state := by
  induction xs generalizing state with
  | nil => rw [Except.ok.inj h]
  | cons x xs ih =>
      rw [List.foldlM_cons] at h
      obtain ⟨middle, hfirst, hrest⟩ := bind_eq_ok.mp h
      exact (ih hrest).trans (hstep state middle x hfirst)

theorem sweep_keeps {κ : Type} (view : σ → κ) {ys : List Nat} {xs : Nat → List Nat}
    {body : σ → Nat → Nat → Exec σ}
    (hbody : ∀ before after x y, body before x y = .ok after → view after = view before)
    {state last : σ} (h : sweep ys xs body state = .ok last) : view last = view state := by
  refine foldlM_keeps view (fun before after y hrow => ?_) h
  exact foldlM_keeps view (fun before after x => hbody before after x y) hrow

/-- From the start. -/
theorem foldlM_collects_all (Holds : List ι → σ → Prop) {step : σ → α → Exec σ}
    {more : α → List ι} {xs : List α}
    (hstep : ∀ x ∈ xs, ∀ items state, Holds items state →
      ∃ after, step state x = .ok after ∧ Holds (items ++ more x) after)
    {state : σ} (h : Holds [] state) :
    ∃ after, xs.foldlM step state = .ok after ∧ Holds (xs.flatMap more) after := by
  obtain ⟨after, hfold, hafter⟩ := foldlM_collects Holds hstep h
  exact ⟨after, hfold, by rwa [List.nil_append] at hafter⟩

theorem sweep_collects_all (Holds : List ι → σ → Prop) {ys : List Nat} {xs : Nat → List Nat}
    {body : σ → Nat → Nat → Exec σ} {more : Nat → Nat → List ι}
    (hstep : ∀ y ∈ ys, ∀ x ∈ xs y, ∀ items state, Holds items state →
      ∃ after, body state x y = .ok after ∧ Holds (items ++ more x y) after)
    {state : σ} (h : Holds [] state) :
    ∃ after, sweep ys xs body state = .ok after ∧ Holds (swept ys xs more) after := by
  obtain ⟨after, hsweep, hafter⟩ := sweep_collects Holds hstep h
  exact ⟨after, hsweep, by rwa [List.nil_append] at hafter⟩

/-! ### Cells that are written -/

/-- The cells `ks` hold what `value` has for them, the others are as before. -/
structure Written (value : Nat → α) (before : List α) (ks : List Nat) (after : List α) : Prop where
  length : after.length = before.length
  mem : ∀ k ∈ ks, after[k]? = some (value k)
  rest : ∀ k, k ∉ ks → after[k]? = before[k]?

variable {value : Nat → α} {before after : List α} {ks : List Nat}

theorem written_nil (value : Nat → α) (before : List α) : Written value before [] before where
  length := rfl
  mem := fun _ hmem => absurd hmem List.not_mem_nil
  rest := fun _ _ => rfl

theorem Written.store (h : Written value before ks after) {k : Nat} (hk : k < before.length) :
    ∃ next, store after k (value k) = .ok next ∧ Written value before (ks ++ [k]) next := by
  have hlt : k < after.length := by
    rw [h.length]
    exact hk
  refine ⟨after.set k (value k), if_pos hlt, ?_, ?_, ?_⟩
  · rw [List.length_set, h.length]
  · intro j hj
    by_cases hjk : k = j
    · rw [← hjk, List.getElem?_set_self hlt]
    · rw [List.getElem?_set_ne hjk]
      rcases List.mem_append.mp hj with hmem | hmem
      · exact h.mem j hmem
      · exact absurd (List.mem_singleton.mp hmem).symm hjk
  · intro j hj
    rw [List.mem_append, not_or, List.mem_singleton] at hj
    rw [List.getElem?_set_ne (Ne.symm hj.2)]
    exact h.rest j hj.1

/-- Every column of every row writes one cell. -/
theorem Written.sweep (h : Written value before ks after) {ys : List Nat} {xs : Nat → List Nat}
    {body : List α → Nat → Nat → Exec (List α)} {index : Nat → Nat → Nat}
    (hbody : ∀ y ∈ ys, ∀ x ∈ xs y, index x y < before.length ∧
      ∀ cells, body cells x y = ByteMemory.store cells (index x y) (value (index x y))) :
    ∃ next, Sweeps.sweep ys xs body after = .ok next ∧
      Written value before (ks ++ swept ys xs fun x y => [index x y]) next := by
  apply sweep_collects (Written value before)
  · intro y hy x hx items cells hwritten
    obtain ⟨hlt, hstore⟩ := hbody y hy x hx
    rw [hstore cells]
    exact hwritten.store hlt
  · exact h

end Lame.Sweeps
