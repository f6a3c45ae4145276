/-
  Lame/HandleLedger.lean
  ======================
  **Handles that are obtained and closed.**

  A trace of obtained and closed handles is settled against the handles owned so far.
  Closing a handle that is not owned fails for good, so a trace settles to nothing
  owned exactly when every obtained handle was closed once and nothing else was.  A
  number that comes back after its close is a new handle.
-/
import Mathlib.Data.List.Basic

namespace Lame.HandleLedger

inductive Action (H : Type) where
  | obtained (handle : H)
  | closed (handle : H)
deriving DecidableEq, Repr

variable {H : Type} [DecidableEq H]

/-- The handles owned behind a trace, `none` once a handle was closed that was not owned. -/
def settle : List H → List (Action H) → Option (List H)
  | owned, [] => some owned
  | owned, .obtained handle :: rest => settle (handle :: owned) rest
  | owned, .closed handle :: rest =>
      if handle ∈ owned then settle (owned.erase handle) rest else none

def EachClosedOnce (actions : List (Action H)) : Prop :=
  settle [] actions = some []

theorem settle_append (owned : List H) (first second : List (Action H)) :
    settle owned (first ++ second) =
      (settle owned first).bind fun owned => settle owned second := by
  induction first generalizing owned with
  | nil => rfl
  | cons action first ih =>
      cases action with
      | obtained handle => exact ih (handle :: owned)
      | closed handle =>
          rw [List.cons_append, settle, settle]
          split
          · exact ih (owned.erase handle)
          · rfl

/-- A trace that owns `owned`, continued by one that settles it. -/
theorem settle_append_of {owned : List H} {first second : List (Action H)}
    (h : settle [] first = some owned) :
    settle [] (first ++ second) = settle owned second := by
  rw [settle_append, h]
  rfl

theorem settle_obtained_closed (owned : List H) (handle : H) :
    settle owned [.obtained handle, .closed handle] = some owned := by
  rw [settle, settle, if_pos List.mem_cons_self, List.erase_cons_head, settle]

/-- The handles of an owner are closed one after the other, in any order. -/
theorem settle_closed {owned closing : List H} (h : closing.Perm owned) :
    settle owned (closing.map .closed) = some [] := by
  induction closing generalizing owned with
  | nil => rw [List.nil_perm.mp h, List.map_nil, settle]
  | cons handle closing ih =>
      have hmem : handle ∈ owned := h.subset List.mem_cons_self
      rw [List.map_cons, settle, if_pos hmem]
      exact ih (List.cons_perm_iff_perm_erase.mp h).2

end Lame.HandleLedger
