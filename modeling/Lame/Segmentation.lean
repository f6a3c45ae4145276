/-
  Lame/Segmentation.lean
  ======================
  **Connected components of the thresholded image: step 2 of `apriltag_quad_thresh`.**

  `do_unionfind_line` connects a pixel with its neighbours to the right and below, and white
  pixels with the two diagonal ones as well.  What one line does is a list of strokes, and a
  stroke looks at the image only, so that the order of the strokes does not matter:
  `components_of_order` holds of every schedule.  The single-threaded loop runs through all
  lines but the last.  The tasks of several threads leave out the last line of each chunk,
  and the loop that stitches the chunks together leaves out the last chunk.
-/
import Lame.UnionFind
import Mathlib.Algebra.Order.Group.Nat
import Mathlib.Tactic.Ring

namespace Lame

open ByteMemory DisjointSets

/-! ## 1. The code -/

/-- `image_u8_t`, of the sizes that `threshold` asserts, with a buffer whose indices are
    `int`s. -/
structure ImageU8 where
  width : Nat
  height : Nat
  stride : Nat
  buf : List UInt8
  length_buf : buf.length = height * stride
  width_le : width ≤ stride
  width_lt : width < 32768
  height_lt : height < 32768
  size_lt : height * stride < 2 ^ 31

namespace ImageU8

/-- The stride of `image_u8_create_alignment`. -/
def alignedStride (width alignment : Nat) : Nat :=
  if width % alignment ≠ 0 then width + (alignment - width % alignment) else width

theorem le_alignedStride (width alignment : Nat) : width ≤ alignedStride width alignment := by
  rw [alignedStride]
  split
  · exact Nat.le_add_right _ _
  · exact Nat.le_refl _

theorem alignedStride_le (width alignment : Nat) :
    alignedStride width alignment ≤ width + alignment := by
  rw [alignedStride]
  split
  · exact Nat.add_le_add_left (Nat.sub_le _ _) _
  · exact Nat.le_add_right _ _

/-- `image_u8_create`, aligned to `DEFAULT_ALIGNMENT_U8` -/
def create (width height : Nat) (hwidth : width < 32768) (hheight : height < 32768) :
    ImageU8 where
  width := width
  height := height
  stride := alignedStride width 96
  buf := List.replicate (height * alignedStride width 96) 0
  length_buf := List.length_replicate
  width_le := le_alignedStride width 96
  width_lt := hwidth
  height_lt := hheight
  size_lt := by
    have hstride := alignedStride_le width 96
    calc height * alignedStride width 96 ≤ 32767 * 32863 :=
          Nat.mul_le_mul (by omega) (by omega)
      _ < 2 ^ 31 := by decide

def pixel (im : ImageU8) (x y : Nat) : UInt8 := im.buf.getD (y * im.stride + x) 0

/-- `DO_UNIONFIND(dx, dy)` -/
def doUnionfind (im : ImageU8) (uf : UnionFind) (x y : Nat) (v : UInt8) (dx dy : Int) :
    Exec UnionFind := do
  let v1 ← loadInt im.buf (y * im.stride + dy * im.stride + x + dx)
  if v1 = v then
    let (uf, _) ← uf.connect (y * im.width + x)
      (y * im.width + dy * im.width + x + dx : Int).toNat
    return uf
  else return uf

/-- The body of the loop over `x`. -/
def doUnionfindPixel (im : ImageU8) (y : Nat) (uf : UnionFind) (x : Nat) : Exec UnionFind := do
  let v ← load im.buf (y * im.stride + x)
  if v = 127 then return uf
  else
    let uf ← im.doUnionfind uf x y v 1 0
    let uf ← im.doUnionfind uf x y v 0 1
    if v = 255 then
      let uf ← im.doUnionfind uf x y v (-1) 1
      im.doUnionfind uf x y v 1 1
    else return uf

def doUnionfindLine (im : ImageU8) (uf : UnionFind) (y : Nat) : Exec UnionFind :=
  (List.range' 1 (im.width - 2)).foldlM (im.doUnionfindPixel y) uf

/-- Step 2 with `nthreads <= 1`. -/
def components (im : ImageU8) : Exec UnionFind :=
  (List.range (im.height - 1)).foldlM im.doUnionfindLine
    (UnionFind.create (im.width * im.height))

/-! ## 2. Strokes -/

/-- One `DO_UNIONFIND`. -/
structure Stroke where
  x : Nat
  y : Nat
  dx : Int
  dy : Int
deriving DecidableEq, Repr

def stroke (im : ImageU8) (uf : UnionFind) (s : Stroke) : Exec UnionFind :=
  im.doUnionfind uf s.x s.y (im.pixel s.x s.y) s.dx s.dy

/-- The directions in which a pixel is connected. -/
def directions (v : UInt8) : List (Int × Int) :=
  if v = 127 then []
  else (1, 0) :: (0, 1) :: if v = 255 then [(-1, 1), (1, 1)] else []

def pixelStrokes (im : ImageU8) (x y : Nat) : List Stroke :=
  (directions (im.pixel x y)).map fun d => ⟨x, y, d.1, d.2⟩

def lineStrokes (im : ImageU8) (y : Nat) : List Stroke :=
  (List.range' 1 (im.width - 2)).flatMap fun x => im.pixelStrokes x y

/-- The pixel is not in the last line, nor in the first or last column. -/
structure Inner (im : ImageU8) (x y : Nat) : Prop where
  left : 1 ≤ x
  right : x + 1 < im.width
  below : y + 1 < im.height

theorem index_lt {im : ImageU8} {x y : Nat} (hx : x < im.width) (hy : y < im.height) :
    y * im.stride + x < im.buf.length := by
  have hle := im.width_le
  rw [im.length_buf]
  calc y * im.stride + x < y * im.stride + im.stride := by omega
    _ = (y + 1) * im.stride := by ring
    _ ≤ im.height * im.stride := Nat.mul_le_mul_right _ hy

theorem load_pixel {im : ImageU8} {x y : Nat} (hx : x < im.width) (hy : y < im.height) :
    load im.buf (y * im.stride + x) = .ok (im.pixel x y) := by
  rw [load, List.getElem?_eq_getElem (index_lt hx hy), pixel, List.getD_eq_getElem?_getD,
    List.getElem?_eq_getElem (index_lt hx hy)]
  rfl

theorem doUnionfindPixel_eq {im : ImageU8} {x y : Nat} (h : im.Inner x y) (uf : UnionFind) :
    im.doUnionfindPixel y uf x = (im.pixelStrokes x y).foldlM im.stroke uf := by
  rw [doUnionfindPixel, load_pixel (Nat.lt_of_succ_lt h.right) (Nat.lt_of_succ_lt h.below),
    ok_bind, pixelStrokes, directions]
  by_cases hgray : im.pixel x y = 127
  · rw [if_pos hgray, if_pos hgray]
    rfl
  · rw [if_neg hgray, if_neg hgray]
    by_cases hwhite : im.pixel x y = 255
    · simp [if_pos hwhite, stroke]
    · simp [if_neg hwhite, stroke]

theorem doUnionfindLine_eq {im : ImageU8} {y : Nat} (hy : y + 1 < im.height) (uf : UnionFind) :
    im.doUnionfindLine uf y = (im.lineStrokes y).foldlM im.stroke uf := by
  have hinner : ∀ x ∈ List.range' 1 (im.width - 2), im.Inner x y := by
    intro x hx
    obtain ⟨hleft, hright⟩ := List.mem_range'_1.mp hx
    exact ⟨hleft, by omega, hy⟩
  rw [doUnionfindLine, lineStrokes]
  generalize List.range' 1 (im.width - 2) = xs at hinner
  induction xs generalizing uf with
  | nil => rfl
  | cons x xs ih =>
      rw [List.forall_mem_cons] at hinner
      rw [List.foldlM_cons, List.flatMap_cons, List.foldlM_append,
        doUnionfindPixel_eq hinner.1]
      congr 1
      funext uf
      exact ih uf hinner.2

theorem foldlM_lines {im : ImageU8} {ys : List Nat} (hys : ∀ y ∈ ys, y + 1 < im.height)
    (uf : UnionFind) :
    ys.foldlM im.doUnionfindLine uf = (ys.flatMap im.lineStrokes).foldlM im.stroke uf := by
  induction ys generalizing uf with
  | nil => rfl
  | cons y ys ih =>
      rw [List.forall_mem_cons] at hys
      rw [List.foldlM_cons, List.flatMap_cons, List.foldlM_append, doUnionfindLine_eq hys.1]
      congr 1
      funext uf
      exact ih hys.2 uf

/-! ## 3. What a stroke connects -/

/-- The id of a pixel in the union-find. -/
def pixelId (im : ImageU8) (p : Nat × Nat) : Fin (im.width * im.height + 1) :=
  Fin.ofNat _ (p.2 * im.width + p.1)

structure InImage (im : ImageU8) (p : Nat × Nat) : Prop where
  x : p.1 < im.width
  y : p.2 < im.height

theorem val_pixelId {im : ImageU8} {p : Nat × Nat} (h : im.InImage p) :
    (im.pixelId p).val = p.2 * im.width + p.1 := by
  apply Nat.mod_eq_of_lt
  have hlast : p.2 * im.width + im.width ≤ im.width * im.height := by
    calc p.2 * im.width + im.width = (p.2 + 1) * im.width := by ring
      _ ≤ im.height * im.width := Nat.mul_le_mul_right _ h.y
      _ = im.width * im.height := Nat.mul_comm _ _
  have hx := h.x
  omega

/-- The pixel that the id belongs to. -/
def pixelOf (im : ImageU8) (i : Fin (im.width * im.height + 1)) : Nat × Nat :=
  (i.val % im.width, i.val / im.width)

theorem pixelOf_pixelId {im : ImageU8} {p : Nat × Nat} (h : im.InImage p) :
    im.pixelOf (im.pixelId p) = p := by
  have hpos : 0 < im.width := Nat.zero_lt_of_lt h.x
  rw [pixelOf, val_pixelId h, Nat.mul_comm, Nat.mul_add_mod, Nat.mod_eq_of_lt h.x,
    Nat.mul_add_div hpos, Nat.div_eq_of_lt h.x]
  rfl

/-- The pixel that a stroke looks at. -/
def Stroke.far (s : Stroke) : Nat × Nat := ((s.x + s.dx).toNat, (s.y + s.dy).toNat)

/-- The pair that the stroke connects, if it connects one. -/
def joined (im : ImageU8) (s : Stroke) :
    Option (Fin (im.width * im.height + 1) × Fin (im.width * im.height + 1)) :=
  if im.pixel s.far.1 s.far.2 = im.pixel s.x s.y then
    some (im.pixelId (s.x, s.y), im.pixelId s.far)
  else none

/-- A stroke of the loops: an inner pixel, in one of its directions. -/
structure Drawn (im : ImageU8) (s : Stroke) : Prop where
  inner : im.Inner s.x s.y
  direction : (s.dx, s.dy) ∈ directions (im.pixel s.x s.y)

theorem mem_pixelStrokes {im : ImageU8} {x y : Nat} {s : Stroke} :
    s ∈ im.pixelStrokes x y ↔ s.x = x ∧ s.y = y ∧ (s.dx, s.dy) ∈ directions (im.pixel x y) := by
  rw [pixelStrokes, List.mem_map]
  constructor
  · rintro ⟨d, hd, rfl⟩
    exact ⟨rfl, rfl, hd⟩
  · rintro ⟨rfl, rfl, hd⟩
    exact ⟨_, hd, rfl⟩

/-- The four directions. -/
theorem directions_cases {v : UInt8} {dx dy : Int} (h : (dx, dy) ∈ directions v) :
    v ≠ 127 ∧ (dx = 1 ∧ dy = 0 ∨ dx = 0 ∧ dy = 1 ∨
      v = 255 ∧ (dx = -1 ∧ dy = 1 ∨ dx = 1 ∧ dy = 1)) := by
  rw [directions] at h
  split at h
  · cases h
  · next hgray =>
    refine ⟨hgray, ?_⟩
    rcases List.mem_cons.mp h with h | h
    · exact .inl (Prod.mk.inj h)
    · rcases List.mem_cons.mp h with h | h
      · exact .inr (.inl (Prod.mk.inj h))
      · split at h
        · next hwhite =>
          refine .inr (.inr ⟨hwhite, ?_⟩)
          rcases List.mem_cons.mp h with h | h
          · exact .inl (Prod.mk.inj h)
          · exact .inr (Prod.mk.inj (List.mem_singleton.mp h))
        · cases h

/-- The far pixel is in the image. -/
theorem Drawn.far_spec {im : ImageU8} {s : Stroke} (h : im.Drawn s) :
    im.InImage s.far ∧ (s.far.1 : Int) = s.x + s.dx ∧ (s.far.2 : Int) = s.y + s.dy := by
  obtain ⟨hleft, hright, hbelow⟩ := h.inner
  have hbounds : 0 ≤ s.x + s.dx ∧ s.x + s.dx < im.width ∧ 0 ≤ s.y + s.dy ∧
      s.y + s.dy < im.height := by
    obtain ⟨-, hcases⟩ := directions_cases h.direction
    omega
  obtain ⟨hx, hx', hy, hy'⟩ := hbounds
  refine ⟨⟨?_, ?_⟩, Int.toNat_of_nonneg hx, Int.toNat_of_nonneg hy⟩
  · exact (Int.toNat_lt hx).mpr hx'
  · exact (Int.toNat_lt hy).mpr hy'

theorem Drawn.inImage {im : ImageU8} {s : Stroke} (h : im.Drawn s) : im.InImage (s.x, s.y) :=
  ⟨Nat.lt_of_succ_lt h.inner.right, Nat.lt_of_succ_lt h.inner.below⟩

theorem stroke_spec {im : ImageU8} {s : Stroke} (h : im.Drawn s) {uf : UnionFind}
    {pairs : List (Fin (im.width * im.height + 1) × Fin (im.width * im.height + 1))}
    (hholds : uf.Holds pairs) :
    ∃ after, im.stroke uf s = .ok after ∧ after.Holds (pairs ++ (im.joined s).toList) := by
  obtain ⟨hfar, hx, hy⟩ := h.far_spec
  have hindex (width : Nat) : (s.y * width + s.dy * width + s.x + s.dx : Int) =
      ((s.far.2 * width + s.far.1 : Nat) : Int) := by
    push_cast
    rw [hx, hy]
    ring
  have hload : loadInt im.buf (s.y * im.stride + s.dy * im.stride + s.x + s.dx) =
      .ok (im.pixel s.far.1 s.far.2) := by
    rw [hindex, loadInt, if_neg (Int.not_lt.mpr (Int.natCast_nonneg _)), Int.toNat_natCast]
    exact load_pixel hfar.x hfar.y
  rw [stroke, doUnionfind, hload, ok_bind, joined, hindex, Int.toNat_natCast,
    ← val_pixelId hfar, show s.y * im.width + s.x = (im.pixelId (s.x, s.y)).val from
      (val_pixelId h.inImage).symm]
  by_cases hsame : im.pixel s.far.1 s.far.2 = im.pixel s.x s.y
  · obtain ⟨after, root, hconnect, hafter⟩ := hholds.connect (im.pixelId (s.x, s.y))
      (im.pixelId s.far)
    rw [if_pos hsame, if_pos hsame, hconnect]
    exact ⟨after, rfl, hafter⟩
  · rw [if_neg hsame, if_neg hsame]
    exact ⟨uf, rfl, by rwa [Option.toList_none, List.append_nil]⟩

/-- Any sequence of strokes runs through. -/
theorem strokes_spec {im : ImageU8} {strokes : List Stroke}
    (h : ∀ s ∈ strokes, im.Drawn s) {uf : UnionFind}
    {pairs : List (Fin (im.width * im.height + 1) × Fin (im.width * im.height + 1))}
    (hholds : uf.Holds pairs) :
    ∃ after, strokes.foldlM im.stroke uf = .ok after ∧
      after.Holds (pairs ++ strokes.filterMap im.joined) := by
  rw [List.filterMap_eq_flatMap_toList]
  exact foldlM_collects (fun pairs uf => UnionFind.Holds uf pairs)
    (fun s hs _ _ hstate => stroke_spec (h s hs) hstate) hholds

/-! ## 4. Components -/

/-- `q` is a neighbour of `p` to the right or below; the diagonal ones count for white. -/
def Below (v : UInt8) (p q : Nat × Nat) : Prop :=
  q = (p.1 + 1, p.2) ∨ q = (p.1, p.2 + 1) ∨
    v = 255 ∧ (q = (p.1 - 1, p.2 + 1) ∨ q = (p.1 + 1, p.2 + 1))

/-- Two neighbours of one colour, the upper one in these lines. -/
structure Touches (im : ImageU8) (lines : Nat → Prop) (p q : Nat × Nat) : Prop where
  inner : im.Inner p.1 p.2
  line : lines p.2
  colour : im.pixel p.1 p.2 ≠ 127
  same : im.pixel q.1 q.2 = im.pixel p.1 p.2
  below : Below (im.pixel p.1 p.2) p q

/-- The pixels hang together. -/
def Together (im : ImageU8) (lines : Nat → Prop) : Nat × Nat → Nat × Nat → Prop :=
  Relation.EqvGen (im.Touches lines)

/-- The strokes of these lines. -/
structure Covers (im : ImageU8) (lines : Nat → Prop) (strokes : List Stroke) : Prop where
  drawn : ∀ s ∈ strokes, im.Drawn s ∧ lines s.y
  complete : ∀ s, im.Drawn s → lines s.y → s ∈ strokes

/-- Two pixels have one representative. -/
def SameRepresentative (im : ImageU8) (uf : UnionFind) (p q : Nat × Nat) : Prop :=
  ∃ first second rep, uf.getRepresentative (p.2 * im.width + p.1) = .ok (first, rep) ∧
    first.getRepresentative (q.2 * im.width + q.1) = .ok (second, rep)

/-- The union-find tells the components apart. -/
def Segments (im : ImageU8) (uf : UnionFind) (lines : Nat → Prop) : Prop :=
  ∀ p q, im.InImage p → im.InImage q →
    (im.SameRepresentative uf p q ↔ im.Together lines p q)

theorem far_eq {x y fx fy : Nat} {dx dy : Int} (hx : x + dx = fx) (hy : y + dy = fy) :
    (⟨x, y, dx, dy⟩ : Stroke).far = (fx, fy) := by
  rw [Stroke.far, hx, hy, Int.toNat_natCast, Int.toNat_natCast]

theorem below_far {v : UInt8} {s : Stroke} (hleft : 1 ≤ s.x)
    (h : (s.dx, s.dy) ∈ directions v) : Below v (s.x, s.y) s.far := by
  obtain ⟨x, y, dx, dy⟩ := s
  rcases (directions_cases h).2 with ⟨rfl, rfl⟩ | ⟨rfl, rfl⟩ | ⟨hwhite, ⟨rfl, rfl⟩ | ⟨rfl, rfl⟩⟩
  · exact .inl (far_eq rfl (Int.add_zero _))
  · exact .inr (.inl (far_eq (Int.add_zero _) rfl))
  · refine .inr (.inr ⟨hwhite, .inl (far_eq ?_ rfl)⟩)
    dsimp only at hleft ⊢
    omega
  · exact .inr (.inr ⟨hwhite, .inr (far_eq rfl rfl)⟩)

/-- A neighbour below is where a stroke leads. -/
theorem exists_stroke_of_below {v : UInt8} {p q : Nat × Nat} (hleft : 1 ≤ p.1)
    (hgray : v ≠ 127) (h : Below v p q) :
    ∃ s : Stroke, (s.x, s.y) = p ∧ s.far = q ∧ (s.dx, s.dy) ∈ directions v := by
  rw [directions, if_neg hgray]
  rcases h with rfl | rfl | ⟨hwhite, rfl | rfl⟩
  · exact ⟨⟨p.1, p.2, 1, 0⟩, rfl, far_eq rfl (Int.add_zero _), List.mem_cons_self⟩
  · exact ⟨⟨p.1, p.2, 0, 1⟩, rfl, far_eq (Int.add_zero _) rfl,
      List.mem_cons_of_mem _ List.mem_cons_self⟩
  · rw [if_pos hwhite]
    refine ⟨⟨p.1, p.2, -1, 1⟩, rfl, far_eq ?_ rfl, by simp⟩
    omega
  · rw [if_pos hwhite]
    exact ⟨⟨p.1, p.2, 1, 1⟩, rfl, far_eq rfl rfl, by simp⟩

theorem Drawn.touches {im : ImageU8} {lines : Nat → Prop} {s : Stroke} (h : im.Drawn s)
    (hline : lines s.y) (hsame : im.pixel s.far.1 s.far.2 = im.pixel s.x s.y) :
    im.Touches lines (s.x, s.y) s.far :=
  ⟨h.inner, hline, (directions_cases h.direction).1, hsame, below_far h.inner.left h.direction⟩

theorem Touches.exists_drawn {im : ImageU8} {lines : Nat → Prop} {p q : Nat × Nat}
    (h : im.Touches lines p q) : ∃ s : Stroke, im.Drawn s ∧ lines s.y ∧ (s.x, s.y) = p ∧
      s.far = q ∧ im.joined s = some (im.pixelId p, im.pixelId q) := by
  obtain ⟨s, rfl, rfl, hdirection⟩ := exists_stroke_of_below h.inner.left h.colour h.below
  refine ⟨s, ⟨h.inner, hdirection⟩, h.line, rfl, rfl, ?_⟩
  rw [joined, if_pos h.same]

section Covers

variable {im : ImageU8} {lines : Nat → Prop} {strokes : List Stroke}

theorem Covers.together_of_linked (h : im.Covers lines strokes)
    {i j : Fin (im.width * im.height + 1)} (hij : Linked (strokes.filterMap im.joined) i j) :
    im.Together lines (im.pixelOf i) (im.pixelOf j) := by
  induction hij with
  | rel i j hmem =>
      obtain ⟨s, hs, hjoined⟩ := List.mem_filterMap.mp hmem
      obtain ⟨hdrawn, hline⟩ := h.drawn s hs
      rw [joined] at hjoined
      split at hjoined
      · next hsame =>
        obtain ⟨rfl, rfl⟩ := Prod.mk.inj (Option.some.inj hjoined)
        rw [pixelOf_pixelId hdrawn.inImage, pixelOf_pixelId hdrawn.far_spec.1]
        exact .rel _ _ (hdrawn.touches hline hsame)
      · cases hjoined
  | refl i => exact .refl _
  | symm _ _ _ ih => exact ih.symm
  | trans _ _ _ _ _ ih ih' => exact ih.trans _ _ _ ih'

theorem Covers.linked_of_together (h : im.Covers lines strokes) {p q : Nat × Nat}
    (hpq : im.Together lines p q) :
    Linked (strokes.filterMap im.joined) (im.pixelId p) (im.pixelId q) := by
  induction hpq with
  | rel p q htouches =>
      obtain ⟨s, hdrawn, hline, -, -, hjoined⟩ := htouches.exists_drawn
      exact .rel _ _ (List.mem_filterMap.mpr ⟨s, h.complete s hdrawn hline, hjoined⟩)
  | refl p => exact .refl _
  | symm _ _ _ ih => exact ih.symm
  | trans _ _ _ _ _ ih ih' => exact ih.trans _ _ _ ih'

/-- The pairs of the strokes are the neighbours, by their ids. -/
theorem Covers.linked_iff (h : im.Covers lines strokes) {p q : Nat × Nat}
    (hp : im.InImage p) (hq : im.InImage q) :
    Linked (strokes.filterMap im.joined) (im.pixelId p) (im.pixelId q) ↔
      im.Together lines p q := by
  refine ⟨fun hlinked => ?_, h.linked_of_together⟩
  have hpixels := h.together_of_linked hlinked
  rwa [pixelOf_pixelId hp, pixelOf_pixelId hq] at hpixels

theorem Covers.segments (h : im.Covers lines strokes) {uf : UnionFind}
    (hholds : uf.Holds (strokes.filterMap im.joined)) : im.Segments uf lines := by
  intro p q hp hq
  rw [← h.linked_iff hp hq, SameRepresentative, ← val_pixelId hp, ← val_pixelId hq]
  obtain ⟨first, second, rep0, rep1, hfirst, hsecond, hiff⟩ :=
    hholds.answers.same (im.pixelId p) (im.pixelId q)
  rw [← hiff, hfirst]
  constructor
  · rintro ⟨first', second', rep, h', hsecond'⟩
    obtain ⟨rfl, rfl⟩ := Prod.mk.inj (Except.ok.inj h')
    rw [hsecond] at hsecond'
    exact (Prod.mk.inj (Except.ok.inj hsecond')).2.symm
  · rintro rfl
    exact ⟨first, second, rep0, rfl, hsecond⟩

/-- **The order of the strokes does not matter.** -/
theorem components_of_order (h : im.Covers lines strokes) :
    ∃ uf, strokes.foldlM im.stroke (UnionFind.create (im.width * im.height)) = .ok uf ∧
      im.Segments uf lines := by
  obtain ⟨uf, hstrokes, hholds⟩ := strokes_spec (fun s hs => (h.drawn s hs).1)
    (UnionFind.holds_create (im.width * im.height))
  exact ⟨uf, hstrokes, h.segments hholds⟩

end Covers

theorem mem_lineStrokes {im : ImageU8} {y : Nat} {s : Stroke} (hy : y + 1 < im.height) :
    s ∈ im.lineStrokes y ↔ im.Drawn s ∧ s.y = y := by
  rw [lineStrokes, List.mem_flatMap]
  constructor
  · rintro ⟨x, hx, hs⟩
    obtain ⟨hleft, hright⟩ := List.mem_range'_1.mp hx
    obtain ⟨rfl, rfl, hdirection⟩ := mem_pixelStrokes.mp hs
    exact ⟨⟨⟨hleft, by omega, hy⟩, hdirection⟩, rfl⟩
  · rintro ⟨⟨hinner, hdirection⟩, rfl⟩
    refine ⟨s.x, List.mem_range'_1.mpr ⟨hinner.left, ?_⟩, mem_pixelStrokes.mpr ⟨rfl, rfl,
      hdirection⟩⟩
    have hright := hinner.right
    omega

theorem covers_lines {im : ImageU8} {ys : List Nat} (hys : ∀ y ∈ ys, y + 1 < im.height) :
    im.Covers (· ∈ ys) (ys.flatMap im.lineStrokes) := by
  refine ⟨fun s hs => ?_, fun s hdrawn hline => ?_⟩
  · obtain ⟨y, hy, hs⟩ := List.mem_flatMap.mp hs
    obtain ⟨hdrawn, rfl⟩ := (mem_lineStrokes (hys y hy)).mp hs
    exact ⟨hdrawn, hy⟩
  · exact List.mem_flatMap.mpr ⟨s.y, hline, (mem_lineStrokes (hys _ hline)).mpr ⟨hdrawn, rfl⟩⟩

theorem components_holds (im : ImageU8) :
    ∃ uf strokes, im.components = .ok uf ∧ im.Covers (fun y => y + 1 < im.height) strokes ∧
      uf.Holds (strokes.filterMap im.joined) := by
  have hys : ∀ y ∈ List.range (im.height - 1), y + 1 < im.height := by
    intro y hy
    have hlt := List.mem_range.mp hy
    omega
  have hcovers := covers_lines hys
  have hlines : (· ∈ List.range (im.height - 1)) = fun y => y + 1 < im.height := by
    funext y
    rw [List.mem_range, Nat.lt_sub_iff_add_lt]
  rw [hlines] at hcovers
  obtain ⟨uf, hstrokes, hholds⟩ := strokes_spec (fun s hs => (hcovers.drawn s hs).1)
    (UnionFind.holds_create (im.width * im.height))
  exact ⟨uf, _, by rw [components, foldlM_lines hys, hstrokes], hcovers, hholds⟩

/-- **The segmentation is that of the picture**: on every image the loop returns, and two
    pixels have one representative exactly if a path of neighbours of one colour joins
    them. -/
theorem components_spec (im : ImageU8) :
    ∃ uf, im.components = .ok uf ∧ im.Segments uf fun y => y + 1 < im.height := by
  obtain ⟨uf, strokes, hcomponents, hcovers, hholds⟩ := components_holds im
  exact ⟨uf, hcomponents, hcovers.segments hholds⟩

theorem eq_of_together {im : ImageU8} {lines : Nat → Prop} {β : Type} {f : Nat × Nat → β}
    (h : ∀ p q, im.Touches lines p q → f p = f q) {p q : Nat × Nat}
    (hpq : im.Together lines p q) : f p = f q := by
  induction hpq with
  | rel p q htouches => exact h p q htouches
  | refl => rfl
  | symm _ _ _ ih => exact ih.symm
  | trans _ _ _ _ _ ih ih' => exact ih.trans ih'

/-! ## 5. Several threads -/

def APRILTAG_TASKS_PER_THREAD_TARGET : Nat := 10

def chunksize (sz nthreads : Nat) : Nat := 1 + sz / (APRILTAG_TASKS_PER_THREAD_TARGET * nthreads)

/-- `for (int i = 0; i < sz; i += chunksize)`: the `y0` and `y1` of the tasks. -/
def tasksFrom (sz chunksize : Nat) : Nat → Nat → List (Nat × Nat)
  | 0, _ => []
  | fuel + 1, i =>
      if i < sz then
        (i, min sz (i + chunksize - 1)) :: tasksFrom sz chunksize fuel (i + chunksize)
      else []

def tasks (sz nthreads : Nat) : List (Nat × Nat) :=
  tasksFrom sz (chunksize sz nthreads) sz 0

/-- `do_unionfind_task` -/
def taskStrokes (im : ImageU8) (task : Nat × Nat) : List Stroke :=
  (List.range' task.1 (task.2 - task.1)).flatMap im.lineStrokes

/-- An order in which the worker threads may execute the strokes of the tasks. -/
def Schedule (im : ImageU8) (nthreads : Nat) (order : List Stroke) : Prop :=
  order.Perm ((tasks (im.height - 1) nthreads).flatMap im.taskStrokes)

/-- Step 2 of `apriltag_quad_thresh`; `order` is what the threads make of the tasks. -/
def componentsWith (im : ImageU8) (nthreads : Nat) (order : List Stroke) : Exec UnionFind :=
  if nthreads ≤ 1 then im.components
  else do
    let uf ← order.foldlM im.stroke (UnionFind.create (im.width * im.height))
    -- stitch together the different chunks
    ((tasks (im.height - 1) nthreads).dropLast.map Prod.snd).foldlM im.doUnionfindLine uf

/-- The lines of the tasks, and the line below each task but the last. -/
def TaskLine (tasks : List (Nat × Nat)) (y : Nat) : Prop :=
  (∃ task ∈ tasks, task.1 ≤ y ∧ y < task.2) ∨ ∃ task ∈ tasks.dropLast, y = task.2

theorem taskLine_nil (y : Nat) : ¬ TaskLine [] y := by
  simp [TaskLine]

theorem taskLine_cons {task : Nat × Nat} {rest : List (Nat × Nat)} {y : Nat} :
    TaskLine (task :: rest) y ↔
      (task.1 ≤ y ∧ y < task.2) ∨ (rest ≠ [] ∧ y = task.2) ∨ TaskLine rest y := by
  cases rest with
  | nil => simp [TaskLine]
  | cons next rest =>
      simp only [TaskLine, List.dropLast_cons_cons, List.exists_mem_cons_iff, ne_eq,
        reduceCtorEq, not_false_eq_true, true_and, or_assoc]
      constructor
      · rintro (h | h | h | h | h)
        · exact .inl h
        · exact .inr (.inr (.inl h))
        · exact .inr (.inr (.inr (.inl h)))
        · exact .inr (.inl h)
        · exact .inr (.inr (.inr (.inr h)))
      · rintro (h | h | h | h | h)
        · exact .inl h
        · exact .inr (.inr (.inr (.inl h)))
        · exact .inr (.inl h)
        · exact .inr (.inr (.inl h))
        · exact .inr (.inr (.inr (.inr h)))

theorem tasksFrom_eq_nil_iff {sz c fuel i : Nat} (hfuel : sz ≤ i + fuel) :
    tasksFrom sz c fuel i = [] ↔ sz ≤ i := by
  cases fuel with
  | zero => simpa [tasksFrom] using hfuel
  | succ fuel =>
      rw [tasksFrom]
      by_cases hi : i < sz
      · rw [if_pos hi]
        simpa using hi
      · rw [if_neg hi]
        simpa using hi

theorem taskLine_tasksFrom {sz c : Nat} (hc : 0 < c) {fuel i : Nat} (hfuel : sz ≤ i + fuel)
    (y : Nat) : TaskLine (tasksFrom sz c fuel i) y ↔
      i ≤ y ∧ y < sz ∧ ¬ (y + 1 = sz ∧ c ∣ y + 1 - i) := by
  induction fuel generalizing i with
  | zero =>
      rw [tasksFrom, iff_false_left (taskLine_nil y)]
      omega
  | succ fuel ih =>
      rw [tasksFrom]
      by_cases hi : i < sz
      · rw [if_pos hi, taskLine_cons, ih (by omega), ne_eq,
          tasksFrom_eq_nil_iff (by omega)]
        dsimp only
        by_cases hy : i + c ≤ y
        · -- a later chunk, the same remainder
          have hdvd : c ∣ y + 1 - i ↔ c ∣ y + 1 - (i + c) := by
            have hsplit : y + 1 - i = y + 1 - (i + c) + c := by omega
            rw [hsplit, Nat.dvd_add_left (Nat.dvd_refl c)]
          rw [hdvd]
          omega
        · have hdvd : i ≤ y → (c ∣ y + 1 - i ↔ y + 1 - i = c) := by
            intro hiy
            refine ⟨fun h => ?_, fun h => ?_⟩
            · exact Nat.le_antisymm (by omega) (Nat.le_of_dvd (by omega) h)
            · rw [h]
          by_cases hiy : i ≤ y
          · rw [hdvd hiy]
            omega
          · omega
      · rw [if_neg hi, iff_false_left (taskLine_nil y)]
        omega

/-- The tasks leave out the last line exactly if the chunks come out even. -/
theorem taskLine_tasks {sz nthreads y : Nat} :
    TaskLine (tasks sz nthreads) y ↔
      y < sz ∧ ¬ (y + 1 = sz ∧ chunksize sz nthreads ∣ sz) := by
  have hc : 0 < chunksize sz nthreads := Nat.lt_of_lt_of_le Nat.one_pos (Nat.le_add_right _ _)
  rw [tasks, taskLine_tasksFrom hc (Nat.le_add_left _ _)]
  constructor
  · rintro ⟨-, hy, hlast⟩
    refine ⟨hy, fun ⟨heq, hdvd⟩ => hlast ⟨heq, ?_⟩⟩
    rwa [heq]
  · rintro ⟨hy, hlast⟩
    refine ⟨Nat.zero_le y, hy, fun ⟨heq, hdvd⟩ => hlast ⟨heq, ?_⟩⟩
    rwa [heq] at hdvd

/-- What several threads make of the image, whatever the schedule. -/
theorem componentsWith_spec {im : ImageU8} {nthreads : Nat} (hthreads : ¬ nthreads ≤ 1)
    {order : List Stroke} (horder : im.Schedule nthreads order) :
    ∃ uf, im.componentsWith nthreads order = .ok uf ∧
      im.Segments uf (TaskLine (tasks (im.height - 1) nthreads)) := by
  have hline : ∀ y, TaskLine (tasks (im.height - 1) nthreads) y → y + 1 < im.height := by
    intro y hy
    have hlt := (taskLine_tasks.mp hy).1
    omega
  have hstitched : ∀ y ∈ (tasks (im.height - 1) nthreads).dropLast.map Prod.snd,
      y + 1 < im.height := by
    intro y hy
    obtain ⟨task, htask, rfl⟩ := List.mem_map.mp hy
    exact hline _ (.inr ⟨task, htask, rfl⟩)
  have hcovers : im.Covers (TaskLine (tasks (im.height - 1) nthreads))
      (order ++ ((tasks (im.height - 1) nthreads).dropLast.map Prod.snd).flatMap
        im.lineStrokes) := by
    have hmem (s : Stroke) : s ∈ order ↔
        ∃ task ∈ tasks (im.height - 1) nthreads, ∃ y, (task.1 ≤ y ∧ y < task.2) ∧
          s ∈ im.lineStrokes y := by
      rw [horder.mem_iff, List.mem_flatMap]
      simp only [taskStrokes, List.mem_flatMap, List.mem_range'_1]
      constructor
      · rintro ⟨task, htask, y, hy, hs⟩
        exact ⟨task, htask, y, by omega, hs⟩
      · rintro ⟨task, htask, y, hy, hs⟩
        exact ⟨task, htask, y, by omega, hs⟩
    refine ⟨fun s hs => ?_, fun s hdrawn hs => ?_⟩
    · rcases List.mem_append.mp hs with hs | hs
      · obtain ⟨task, htask, y, hy, hs⟩ := (hmem s).mp hs
        have htaskLine : TaskLine (tasks (im.height - 1) nthreads) y := .inl ⟨task, htask, hy⟩
        obtain ⟨hdrawn, rfl⟩ := (mem_lineStrokes (hline y htaskLine)).mp hs
        exact ⟨hdrawn, htaskLine⟩
      · obtain ⟨y, hy, hs⟩ := List.mem_flatMap.mp hs
        obtain ⟨hdrawn, rfl⟩ := (mem_lineStrokes (hstitched y hy)).mp hs
        obtain ⟨task, htask, heq⟩ := List.mem_map.mp hy
        exact ⟨hdrawn, .inr ⟨task, htask, heq.symm⟩⟩
    · rcases hs with ⟨task, htask, hy⟩ | ⟨task, htask, hy⟩
      · exact List.mem_append_left _ ((hmem s).mpr ⟨task, htask, s.y, hy,
          (mem_lineStrokes hdrawn.inner.below).mpr ⟨hdrawn, rfl⟩⟩)
      · exact List.mem_append_right _ (List.mem_flatMap.mpr ⟨s.y,
          List.mem_map.mpr ⟨task, htask, hy.symm⟩,
          (mem_lineStrokes hdrawn.inner.below).mpr ⟨hdrawn, rfl⟩⟩)
  obtain ⟨uf, hstrokes, hsegments⟩ := components_of_order hcovers
  refine ⟨uf, ?_, hsegments⟩
  rw [List.foldlM_append] at hstrokes
  obtain ⟨middle, hmiddle, hafter⟩ := bind_eq_ok.mp hstrokes
  rw [componentsWith, if_neg hthreads, hmiddle, ok_bind, foldlM_lines hstitched]
  exact hafter

/-- A white image. -/
def white (width height : Nat) (hwidth : width < 32768) (hheight : height < 32768) :
    ImageU8 where
  width := width
  height := height
  stride := width
  buf := List.replicate (height * width) 255
  length_buf := List.length_replicate
  width_le := Nat.le_refl width
  width_lt := hwidth
  height_lt := hheight
  size_lt := Nat.lt_of_le_of_lt (Nat.mul_le_mul (Nat.le_of_lt_succ hheight)
    (Nat.le_of_lt_succ hwidth)) (by decide)

section White

variable {width height : Nat} {hwidth : width < 32768} {hheight : height < 32768}

theorem pixel_white {x y : Nat} (hx : x < width) (hy : y < height) :
    (white width height hwidth hheight).pixel x y = 255 := by
  have hlt := @index_lt (white width height hwidth hheight) x y hx hy
  have hbuf : (white width height hwidth hheight).buf =
      List.replicate (height * width) 255 := rfl
  rw [pixel, List.getD_eq_getElem?_getD, List.getElem?_eq_getElem hlt]
  simp only [hbuf, List.getElem_replicate, Option.getD_some]

/-- Without the strokes of the line above, the last line is cut off. -/
theorem not_segments_white (hthree : 3 ≤ width) (htwo : 2 ≤ height) {lines : Nat → Prop}
    (hlast : ¬ lines (height - 2)) {uf : UnionFind}
    (hsegments : (white width height hwidth hheight).Segments uf lines) :
    ¬ (white width height hwidth hheight).Segments uf fun y => y + 1 < height := by
  intro hall
  have habove : (white width height hwidth hheight).InImage (1, height - 2) :=
    ⟨show 1 < width by omega, show height - 2 < height by omega⟩
  have hbelow : (white width height hwidth hheight).InImage (1, height - 1) :=
    ⟨show 1 < width by omega, show height - 1 < height by omega⟩
  have hwhite (y : Nat) (hy : y < height) :
      (white width height hwidth hheight).pixel 1 y = 255 := pixel_white (by omega) hy
  have htouches : (white width height hwidth hheight).Touches (fun y => y + 1 < height)
      (1, height - 2) (1, height - 1) := by
    refine ⟨⟨Nat.le_refl 1, show 1 + 1 < width by omega, show height - 2 + 1 < height by omega⟩,
      show height - 2 + 1 < height by omega, ?_, ?_, ?_⟩
    · rw [hwhite _ (by omega)]
      decide
    · rw [hwhite _ (by omega), hwhite _ (by omega)]
    · refine .inr (.inl (Prod.ext rfl ?_))
      dsimp only
      omega
  have htogether := (hsegments _ _ habove hbelow).mp
    ((hall _ _ habove hbelow).mpr (.rel _ _ htouches))
  -- pixels of the last line are together with themselves only
  have hkept := eq_of_together
    (f := fun p : Nat × Nat => if p.2 = height - 1 then some p else none)
    (fun p q htouches => ?_) htogether
  · simp only [if_neg (show ¬ height - 2 = height - 1 by omega)] at hkept
    cases hkept
  · have hp : p.2 + 1 < height := htouches.inner.below
    have hp' : p.2 ≠ height - 2 := fun heq => hlast (heq ▸ htouches.line)
    have hq : q.2 = p.2 ∨ q.2 = p.2 + 1 := by
      rcases htouches.below with rfl | rfl | ⟨-, rfl | rfl⟩
      · exact .inl rfl
      · exact .inr rfl
      · exact .inr rfl
      · exact .inr rfl
    rw [if_neg (by omega), if_neg (by omega)]

end White

/-- An uneven last chunk serves its lines to the end; -/
theorem taskLine_eq_of_not_dvd {height nthreads : Nat}
    (h : ¬ chunksize (height - 1) nthreads ∣ height - 1) :
    TaskLine (tasks (height - 1) nthreads) = fun y => y + 1 < height := by
  funext y
  rw [taskLine_tasks]
  exact propext ⟨fun hy => by omega, fun hy => ⟨by omega, fun heq => h heq.2⟩⟩

/-- an even one leaves its last line to the stitching, which leaves out the last chunk. -/
theorem taskLine_eq_of_dvd {height nthreads : Nat}
    (h : chunksize (height - 1) nthreads ∣ height - 1) :
    TaskLine (tasks (height - 1) nthreads) = fun y => y + 2 < height := by
  funext y
  rw [taskLine_tasks]
  refine propext ⟨fun hy => ?_, fun hy => ⟨by omega, fun heq => by omega⟩⟩
  have hlast : y + 1 ≠ height - 1 := fun heq => hy.2 ⟨heq, h⟩
  omega

/-- All images of a size, in all schedules, are segmented along these lines. -/
def SegmentsAll (width height nthreads : Nat) (lines : Nat → Prop) : Prop :=
  ∀ im : ImageU8, im.width = width → im.height = height → ∀ order, im.Schedule nthreads order →
    ∃ uf, im.componentsWith nthreads order = .ok uf ∧ im.Segments uf lines

/-- **When several threads find the components**: for all images of a size and all schedules,
    exactly if the lines do not divide evenly into chunks; if they do, the last line of strokes
    is left out. -/
theorem componentsWith_segments_iff {width height nthreads : Nat} (hthree : 3 ≤ width)
    (hwidth : width < 32768) (htwo : 2 ≤ height) (hheight : height < 32768)
    (_ : APRILTAG_TASKS_PER_THREAD_TARGET * nthreads < 2 ^ 31) :
    (SegmentsAll width height nthreads (fun y => y + 1 < height) ↔
      nthreads ≤ 1 ∨ ¬ chunksize (height - 1) nthreads ∣ height - 1) ∧
    (1 < nthreads → chunksize (height - 1) nthreads ∣ height - 1 →
      SegmentsAll width height nthreads fun y => y + 2 < height) := by
  refine ⟨⟨fun hall => ?_, ?_⟩, ?_⟩
  · by_contra hcontra
    push Not at hcontra
    obtain ⟨hthreads, hdvd⟩ := hcontra
    obtain ⟨uf, huf, hsegments⟩ := @componentsWith_spec (white width height hwidth hheight)
      nthreads (Nat.not_le.mpr hthreads) _ (.refl _)
    obtain ⟨uf', huf', hsegments'⟩ := hall (white width height hwidth hheight) rfl rfl _ (.refl _)
    obtain rfl := Except.ok.inj (huf.symm.trans huf')
    refine not_segments_white hthree htwo (fun hline => ?_) hsegments hsegments'
    exact (taskLine_tasks.mp hline).2 ⟨show height - 2 + 1 = height - 1 by omega, hdvd⟩
  · rintro hor im rfl rfl order horder
    by_cases hthreads : nthreads ≤ 1
    · obtain ⟨uf, strokes, huf, hcovers, hholds⟩ := components_holds im
      exact ⟨uf, by rw [componentsWith, if_pos hthreads, huf], hcovers.segments hholds⟩
    · obtain ⟨uf, huf, hsegments⟩ := componentsWith_spec hthreads horder
      rw [taskLine_eq_of_not_dvd (hor.resolve_left hthreads)] at hsegments
      exact ⟨uf, huf, hsegments⟩
  · rintro hthreads hdvd im rfl rfl order horder
    obtain ⟨uf, huf, hsegments⟩ := componentsWith_spec (Nat.not_le.mpr hthreads) horder
    rw [taskLine_eq_of_dvd hdvd] at hsegments
    exact ⟨uf, huf, hsegments⟩

/-- Ten lines for two threads, one by one. -/
theorem componentsWith_segments_iff_small :
    ¬ SegmentsAll 5 11 2 (fun y => y + 1 < 11) ∧ SegmentsAll 5 11 2 fun y => y + 2 < 11 := by
  obtain ⟨hiff, heven⟩ := @componentsWith_segments_iff 5 11 2 (by decide) (by decide) (by decide)
    (by decide) (by decide)
  exact ⟨fun hall => absurd (hiff.mp hall) (by decide), heven (by decide) (by decide)⟩

end ImageU8

end Lame
