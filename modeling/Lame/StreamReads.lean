/-
  Lame/StreamReads.lean
  =====================
  **A byte stream whose reads may return short.**

  A read call on a connection delivers some of the next elements, at least one
  unless the request is empty or the stream has ended, and never more than were
  requested.  How many is not up to the caller.  A `Source` carries the elements
  still to come together with the lengths the coming calls would settle on; a
  statement for every `Source` is a statement for every segmentation.

  A loop over such a stream keeps "collected so far, followed by what is still to
  come" constant: that is `read_append`, and `read_eq_nil_iff` says when a call
  that delivers nothing means the end of the stream.
-/
import Mathlib.Data.List.Basic

namespace Lame.StreamReads

variable {α : Type}

/-- The elements still to come, and how many elements the `i`-th of the coming
    calls delivers when the request and the stream have that many. -/
structure Source (α : Type) where
  rest : List α
  chunks : Nat → Nat

namespace Source

/-- The number of elements that a call requesting `count` delivers. -/
def delivery (source : Source α) (count : Nat) : Nat :=
  min (max 1 (source.chunks 0)) (min count source.rest.length)

def read (source : Source α) (count : Nat) : List α × Source α :=
  (source.rest.take (source.delivery count),
    ⟨source.rest.drop (source.delivery count), fun i => source.chunks (i + 1)⟩)

/-- A read of a single element, `none` at the end of the stream. -/
def readOne (source : Source α) : Option α × Source α :=
  ((source.read 1).1.head?, (source.read 1).2)

theorem delivery_le_count (source : Source α) (count : Nat) :
    source.delivery count ≤ count := by
  simp only [delivery]
  omega

theorem delivery_le_length (source : Source α) (count : Nat) :
    source.delivery count ≤ source.rest.length := by
  simp only [delivery]
  omega

/-- **Nothing is lost or reordered by a read.** -/
theorem read_append (source : Source α) (count : Nat) :
    (source.read count).1 ++ (source.read count).2.rest = source.rest :=
  List.take_append_drop _ _

@[simp] theorem length_read (source : Source α) (count : Nat) :
    (source.read count).1.length = source.delivery count := by
  rw [read, List.length_take]
  exact Nat.min_eq_left (source.delivery_le_length count)

theorem length_read_rest (source : Source α) (count : Nat) :
    (source.read count).2.rest.length = source.rest.length - source.delivery count := by
  rw [read, List.length_drop]

/-- A read that was asked for something delivers nothing only at the end. -/
theorem delivery_eq_zero_iff (source : Source α) {count : Nat} (hcount : 0 < count) :
    source.delivery count = 0 ↔ source.rest = [] := by
  rw [← List.length_eq_zero_iff, delivery]
  omega

theorem readOne_nil (source : Source α) (hrest : source.rest = []) :
    source.readOne.1 = none := by
  simp [readOne, read, hrest]

theorem readOne_cons (source : Source α) {first : α} {rest : List α}
    (hrest : source.rest = first :: rest) :
    source.readOne.1 = some first ∧ source.readOne.2.rest = rest := by
  have hone : source.delivery 1 = 1 := by
    rw [delivery, hrest, List.length_cons]
    omega
  simp [readOne, read, hrest, hone]

end Source

end Lame.StreamReads
