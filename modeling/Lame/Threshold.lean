/-
  Lame/Threshold.lean
  ===================
  **Black, white and flat: step 1 of `apriltag_quad_thresh`.**

  `threshold` collects the extremes of every tile of 4 by 4 pixels, spreads them to the tiles
  around, and turns a pixel black or white by the middle between the extremes of its tile, or
  to 127 where these are too close.  Pixels behind the last full tile take the tile before them
  and are never 127.  An image with fewer than four columns or rows has no tile to take.

  The deglitching passes write a second image, which has the default alignment, at the places
  of the first.
-/
import Lame.Segmentation
import Lame.Sweeps
import Mathlib.Order.Bounds.Defs

namespace Lame

open ByteMemory Sweeps

/-! ## 1. The code -/

def tilesz : Nat := 4

/-- `im_max` and `im_min` -/
structure Tiles where
  max : List UInt8
  min : List UInt8

/-- `if (v < min) min = v; if (v > max) max = v;` -/
def extend (extremes : UInt8 × UInt8) (v w : UInt8) : UInt8 × UInt8 :=
  (if v > extremes.1 then v else extremes.1, if w < extremes.2 then w else extremes.2)

/-- The loops that fill both arrays, one tile after the other. -/
def fillTiles (tw th : Nat) (extremes : Nat → Nat → Exec (UInt8 × UInt8)) : Exec Tiles :=
  sweep (List.range th) (fun _ => List.range tw) (fun tiles tx ty => do
      let (max, min) ← extremes tx ty
      let im_max ← store tiles.max (ty * tw + tx) max
      let im_min ← store tiles.min (ty * tw + tx) min
      return ⟨im_max, im_min⟩)
    ⟨List.replicate (tw * th) 0, List.replicate (tw * th) 0⟩

/-- `min + (max - min) / 2` -/
def thresh (max min : UInt8) : Int := min.toNat + ((max.toNat : Int) - min.toNat).tdiv 2

/-- `dy` and `dx` from -1 to 1. -/
def around : List Int := [-1, 0, 1]

/-- The extremes in the tile and the tiles around it. -/
def blurTile (tiles : Tiles) (tw th tx ty : Nat) : Exec (UInt8 × UInt8) :=
  around.foldlM (fun extremes (dy : Int) =>
    if ty + dy < 0 ∨ ty + dy ≥ th then return extremes
    else around.foldlM (fun extremes (dx : Int) =>
      if tx + dx < 0 ∨ tx + dx ≥ tw then return extremes
      else do
        let max ← loadInt tiles.max ((ty + dy) * tw + tx + dx)
        let min ← loadInt tiles.min ((ty + dy) * tw + tx + dx)
        return extend extremes max min) extremes) (0, 255)

/-- The greatest or least value of the 3 by 3 pixels around one. -/
def pickAround (pick : UInt8 → UInt8 → Bool) (init : UInt8) (buf : List UInt8) (s x y : Nat) :
    Exec UInt8 :=
  around.foldlM (fun best (dy : Int) => around.foldlM (fun best (dx : Int) => do
    let v ← loadInt buf ((y + dy) * s + x + dx)
    return if pick v best then v else best) best) init

namespace ImageU8

def tw (im : ImageU8) : Nat := im.width / tilesz

def th (im : ImageU8) : Nat := im.height / tilesz

def collectTile (im : ImageU8) (tx ty : Nat) : Exec (UInt8 × UInt8) :=
  sweep (List.range tilesz) (fun _ => List.range tilesz) (fun extremes dx dy => do
    let v ← load im.buf ((ty * tilesz + dy) * im.stride + tx * tilesz + dx)
    return extend extremes v v) (0, 255)

/-- What becomes of one full tile. -/
def thresholdTile (im : ImageU8) (minWhiteBlackDiff : Int) (tiles : Tiles) (buf : List UInt8)
    (tx ty : Nat) : Exec (List UInt8) := do
  let min ← load tiles.min (ty * im.tw + tx)
  let max ← load tiles.max (ty * im.tw + tx)
  if (max.toNat : Int) - min.toNat < minWhiteBlackDiff then
    sweep (List.range tilesz) (fun _ => List.range tilesz) (fun buf dx dy =>
      store buf ((ty * tilesz + dy) * im.stride + (tx * tilesz + dx)) 127) buf
  else
    let level : UInt8 := .ofInt (thresh max min)
    sweep (List.range tilesz) (fun _ => List.range tilesz) (fun buf dx dy => do
      let v ← load im.buf ((ty * tilesz + dy) * im.stride + (tx * tilesz + dx))
      store buf ((ty * tilesz + dy) * im.stride + (tx * tilesz + dx))
        (if v > level then 255 else 0)) buf

/-- One of the pixels behind the last full tile. -/
def thresholdEdge (im : ImageU8) (tiles : Tiles) (buf : List UInt8) (x y : Nat) :
    Exec (List UInt8) := do
  let ty : Int := if y / tilesz ≥ im.th then im.th - 1 else (y / tilesz : Nat)
  let tx : Int := if x / tilesz ≥ im.tw then im.tw - 1 else (x / tilesz : Nat)
  let max ← loadInt tiles.max (ty * im.tw + tx)
  let min ← loadInt tiles.min (ty * im.tw + tx)
  let v ← load im.buf (y * im.stride + x)
  store buf (y * im.stride + x) (if (v.toNat : Int) > thresh max min then 255 else 0)

/-- The first column that is left over in this row. -/
def edgeStart (im : ImageU8) (y : Nat) : Nat := if y ≥ im.th * tilesz then 0 else im.tw * tilesz

/-- `threshold` up to the deglitching, the new image's `buf`. -/
def thresholdTiles (im : ImageU8) (minWhiteBlackDiff : Int) : Exec (List UInt8) := do
  let tiles ← fillTiles im.tw im.th im.collectTile
  let tiles ← fillTiles im.tw im.th (blurTile tiles im.tw im.th)
  let buf ← sweep (List.range im.th) (fun _ => List.range im.tw)
    (im.thresholdTile minWhiteBlackDiff tiles) (List.replicate (im.height * im.stride) 0)
  sweep (List.range im.height)
    (fun y => List.range' (im.edgeStart y) (im.width - im.edgeStart y))
    (im.thresholdEdge tiles) buf

/-- The loops of one of the two deglitching passes; the edge of the image is left out. -/
def passInner (im : ImageU8) (pick : UInt8 → UInt8 → Bool) (init : UInt8) (src dst : List UInt8) :
    Exec (List UInt8) :=
  sweep (List.range' 1 (im.height - 2)) (fun _ => List.range' 1 (im.width - 2)) (fun dst x y => do
    let v ← pickAround pick init src im.stride x y
    store dst (y * im.stride + x) v) dst

/-- `if (0 || td->qtp.deglitch)` -/
def deglitch (im : ImageU8) (threshim : List UInt8) : Exec (List UInt8) := do
  let tmp ← im.passInner (fun v max => v > max) 0 threshim
    (create im.width im.height im.width_lt im.height_lt).buf
  im.passInner (fun v min => v < min) 255 tmp threshim

def threshold (im : ImageU8) (minWhiteBlackDiff : Int) (deglitching : Bool) :
    Exec (List UInt8) := do
  let buf ← im.thresholdTiles minWhiteBlackDiff
  if deglitching then im.deglitch buf else return buf

end ImageU8

/-! ## 2. Extremes -/

/-- The greatest and the least of the values seen, from the start values on. -/
structure Extremes (vs : List UInt8) (extremes : UInt8 × UInt8) : Prop where
  start : vs = [] → extremes = (0, 255)
  max_mem : vs ≠ [] → extremes.1 ∈ vs
  min_mem : vs ≠ [] → extremes.2 ∈ vs
  bounds : ∀ v ∈ vs, v ≤ extremes.1 ∧ extremes.2 ≤ v

theorem extremes_nil : Extremes [] (0, 255) where
  start := fun _ => rfl
  max_mem := fun h => absurd rfl h
  min_mem := fun h => absurd rfl h
  bounds := fun _ hmem => absurd hmem List.not_mem_nil

theorem extremes_singleton (v : UInt8) : Extremes [v] (v, v) where
  start := fun h => absurd h (List.cons_ne_nil v [])
  max_mem := fun _ => List.mem_singleton_self v
  min_mem := fun _ => List.mem_singleton_self v
  bounds := by
    intro w hw
    rw [List.mem_singleton.mp hw]
    exact ⟨UInt8.le_refl v, UInt8.le_refl v⟩

theorem Extremes.extend {vs ws : List UInt8} {extremes other : UInt8 × UInt8}
    (h : Extremes vs extremes) (hother : Extremes ws other) (hne : ws ≠ []) :
    Extremes (vs ++ ws) (extend extremes other.1 other.2) where
  start := fun hnil => absurd (List.append_eq_nil_iff.mp hnil).2 hne
  max_mem := by
    intro _
    unfold Lame.extend
    dsimp only
    split
    · exact List.mem_append_right vs (hother.max_mem hne)
    · next hle =>
      by_cases hvs : vs = []
      · -- nothing exceeds the start value
        have hzero := hother.max_mem hne
        rw [h.start hvs] at hle ⊢
        have heq : other.1 = 0 := by
          apply UInt8.toNat_inj.mp
          have hnot := UInt8.lt_iff_toNat_lt.not.mp hle
          simpa using hnot
        rw [← heq]
        exact List.mem_append_right vs hzero
      · exact List.mem_append_left ws (h.max_mem hvs)
  min_mem := by
    intro _
    unfold Lame.extend
    dsimp only
    split
    · exact List.mem_append_right vs (hother.min_mem hne)
    · next hle =>
      by_cases hvs : vs = []
      · have hmem := hother.min_mem hne
        rw [h.start hvs] at hle ⊢
        have heq : other.2 = 255 := by
          apply UInt8.toNat_inj.mp
          have hnot := UInt8.lt_iff_toNat_lt.not.mp hle
          have hlt := other.2.toNat_lt
          simp at hnot ⊢
          omega
        rw [← heq]
        exact List.mem_append_right vs hmem
      · exact List.mem_append_left ws (h.min_mem hvs)
  bounds := by
    intro v hv
    have hbounds : (v ≤ extremes.1 ∧ extremes.2 ≤ v) ∨ (v ≤ other.1 ∧ other.2 ≤ v) := by
      rcases List.mem_append.mp hv with hv | hv
      · exact .inl (h.bounds v hv)
      · exact .inr (hother.bounds v hv)
    unfold Lame.extend
    constructor
    · dsimp only
      split
      · grind
      · grind
    · dsimp only
      split
      · grind
      · grind

theorem Extremes.min_le_max {vs : List UInt8} {extremes : UInt8 × UInt8}
    (h : Extremes vs extremes) (hne : vs ≠ []) : extremes.2 ≤ extremes.1 :=
  (h.bounds _ (h.min_mem hne)).1

/-! ## 3. Tiles -/

/-- The arrays have, for every tile, extremes that are right. -/
structure Filled (tw th : Nat) (Right : Nat → Nat → UInt8 × UInt8 → Prop) (tiles : Tiles) :
    Prop where
  length_max : tiles.max.length = tw * th
  length_min : tiles.min.length = tw * th
  right : ∀ tx ty, tx < tw → ty < th → ∃ extremes, Right tx ty extremes ∧
    tiles.max[ty * tw + tx]? = some extremes.1 ∧ tiles.min[ty * tw + tx]? = some extremes.2

theorem tile_lt {tw th tx ty : Nat} (htx : tx < tw) (hty : ty < th) : ty * tw + tx < tw * th := by
  calc ty * tw + tx < ty * tw + tw := by omega
    _ = tw * (ty + 1) := by ring
    _ ≤ tw * th := Nat.mul_le_mul_left tw hty

/-- The tiles of the list have been filled. -/
structure FilledUpTo (tw th : Nat) (value : Nat → UInt8 × UInt8) (ks : List Nat) (tiles : Tiles) :
    Prop where
  max : Written (fun k => (value k).1) (List.replicate (tw * th) 0) ks tiles.max
  min : Written (fun k => (value k).2) (List.replicate (tw * th) 0) ks tiles.min

theorem fillTiles_spec {tw th : Nat} {extremes : Nat → Nat → Exec (UInt8 × UInt8)}
    {Right : Nat → Nat → UInt8 × UInt8 → Prop}
    (h : ∀ tx ty, tx < tw → ty < th → ∃ e, extremes tx ty = .ok e ∧ Right tx ty e) :
    ∃ tiles, fillTiles tw th extremes = .ok tiles ∧ Filled tw th Right tiles := by
  -- what belongs to a place of the arrays
  let value (k : Nat) : UInt8 × UInt8 := (extremes (k % tw) (k / tw)).toOption.getD (0, 255)
  have hvalue : ∀ tx ty, tx < tw → ty < th → extremes tx ty = .ok (value (ty * tw + tx)) := by
    intro tx ty htx hty
    obtain ⟨e, he, -⟩ := h tx ty htx hty
    have hmod : (ty * tw + tx) % tw = tx := by
      rw [Nat.mul_comm, Nat.mul_add_mod, Nat.mod_eq_of_lt htx]
    have hdiv : (ty * tw + tx) / tw = ty := by
      rw [Nat.mul_comm, Nat.mul_add_div (Nat.zero_lt_of_lt htx), Nat.div_eq_of_lt htx,
        Nat.add_zero]
    simp only [value, hmod, hdiv, he, Except.toOption, Option.getD_some]
  obtain ⟨tiles, hfill, hwritten⟩ : ∃ tiles, fillTiles tw th extremes = .ok tiles ∧
      FilledUpTo tw th value (swept (List.range th) (fun _ => List.range tw)
        fun tx ty => [ty * tw + tx]) tiles := by
    unfold fillTiles
    apply sweep_collects_all (FilledUpTo tw th value)
    · intro ty hty tx htx ks tiles hfilled
      rw [List.mem_range] at hty htx
      have hlt : ty * tw + tx < (List.replicate (tw * th) (0 : UInt8)).length := by
        rw [List.length_replicate]
        exact tile_lt htx hty
      obtain ⟨im_max, hstore_max, hmax⟩ := hfilled.max.store hlt
      obtain ⟨im_min, hstore_min, hmin⟩ := hfilled.min.store hlt
      rw [hvalue tx ty htx hty, ok_bind]
      dsimp only
      rw [hstore_max, ok_bind, hstore_min]
      exact ⟨_, rfl, hmax, hmin⟩
    · exact ⟨written_nil _ _, written_nil _ _⟩
  refine ⟨tiles, hfill, ?_, ?_, ?_⟩
  · rw [hwritten.max.length, List.length_replicate]
  · rw [hwritten.min.length, List.length_replicate]
  · intro tx ty htx hty
    have hmem : ty * tw + tx ∈ swept (List.range th) (fun _ => List.range tw)
        fun tx ty => [ty * tw + tx] := by
      rw [mem_swept]
      exact ⟨ty, List.mem_range.mpr hty, tx, List.mem_range.mpr htx, List.mem_singleton_self _⟩
    obtain ⟨e, he, hright⟩ := h tx ty htx hty
    have heq : value (ty * tw + tx) = e := Except.ok.inj ((hvalue tx ty htx hty).symm.trans he)
    refine ⟨e, hright, ?_, ?_⟩
    · rw [hwritten.max.mem _ hmem, heq]
    · rw [hwritten.min.mem _ hmem, heq]

namespace ImageU8

/-- The pixels of a tile. -/
def tilePixels (im : ImageU8) (tx ty : Nat) : List UInt8 :=
  swept (List.range tilesz) (fun _ => List.range tilesz) fun dx dy =>
    [im.pixel (tx * tilesz + dx) (ty * tilesz + dy)]

theorem tile_in {im : ImageU8} {tx ty dx dy : Nat} (htx : tx < im.tw) (hty : ty < im.th)
    (hdx : dx < tilesz) (hdy : dy < tilesz) :
    tx * tilesz + dx < im.width ∧ ty * tilesz + dy < im.height := by
  simp only [tw, th, tilesz] at *
  omega

theorem collectTile_spec {im : ImageU8} {tx ty : Nat} (htx : tx < im.tw) (hty : ty < im.th) :
    ∃ extremes, im.collectTile tx ty = .ok extremes ∧ Extremes (im.tilePixels tx ty) extremes := by
  unfold collectTile tilePixels
  apply sweep_collects_all Extremes
  · intro dy hdy dx hdx vs extremes hextremes
    obtain ⟨hx, hy⟩ := tile_in htx hty (List.mem_range.mp hdx) (List.mem_range.mp hdy)
    rw [Nat.add_assoc, load_pixel hx hy, ok_bind]
    refine ⟨_, rfl, ?_⟩
    exact hextremes.extend (extremes_singleton _) (List.cons_ne_nil _ _)
  · exact extremes_nil

/-- The tiles around a tile, those on the outside left out. -/
def aroundPixels (im : ImageU8) (tx ty : Nat) : List UInt8 :=
  around.flatMap fun dy => if (ty : Int) + dy < 0 ∨ (ty : Int) + dy ≥ im.th then []
    else around.flatMap fun dx => if (tx : Int) + dx < 0 ∨ (tx : Int) + dx ≥ im.tw then []
      else im.tilePixels ((tx : Int) + dx).toNat ((ty : Int) + dy).toNat

theorem tilePixels_ne_nil (im : ImageU8) (tx ty : Nat) : im.tilePixels tx ty ≠ [] := by
  intro hnil
  have hmem : im.pixel (tx * tilesz + 0) (ty * tilesz + 0) ∈ im.tilePixels tx ty :=
    mem_swept.mpr ⟨0, by decide, 0, by decide, List.mem_singleton_self _⟩
  rw [hnil] at hmem
  exact List.not_mem_nil hmem

theorem blurTile_spec {im : ImageU8} {tiles : Tiles}
    (h : Filled im.tw im.th (fun tx ty => Extremes (im.tilePixels tx ty)) tiles) (tx ty : Nat) :
    ∃ extremes, blurTile tiles im.tw im.th tx ty = .ok extremes ∧
      Extremes (im.aroundPixels tx ty) extremes := by
  unfold blurTile aroundPixels
  apply foldlM_collects_all Extremes
  · intro dy _ vs extremes hextremes
    by_cases hrow : (ty : Int) + dy < 0 ∨ (ty : Int) + dy ≥ im.th
    · rw [if_pos hrow, if_pos hrow, List.append_nil]
      exact ⟨extremes, rfl, hextremes⟩
    · rw [if_neg hrow, if_neg hrow]
      apply foldlM_collects Extremes
      · intro dx _ vs extremes hextremes
        by_cases hcol : (tx : Int) + dx < 0 ∨ (tx : Int) + dx ≥ im.tw
        · rw [if_pos hcol, if_pos hcol, List.append_nil]
          exact ⟨extremes, rfl, hextremes⟩
        · rw [if_neg hcol, if_neg hcol]
          push Not at hrow hcol
          obtain ⟨row, hrownat⟩ := Int.eq_ofNat_of_zero_le hrow.1
          obtain ⟨col, hcolnat⟩ := Int.eq_ofNat_of_zero_le hcol.1
          obtain ⟨e, hright, hmax, hmin⟩ := h.right col row (by omega) (by omega)
          have hindex : ((ty : Int) + dy) * im.tw + tx + dx = (row * im.tw + col : Nat) := by
            rw [Int.add_assoc, hrownat, hcolnat]
            push_cast
            rfl
          have hload {cells : List UInt8} {v : UInt8} (hv : cells[row * im.tw + col]? = some v) :
              loadInt cells (((ty : Int) + dy) * im.tw + tx + dx) = .ok v := by
            rw [hindex, loadInt, if_neg (by omega), Int.toNat_natCast, load, hv]
          rw [hload hmax, ok_bind, hload hmin, ok_bind]
          refine ⟨_, rfl, ?_⟩
          rw [hrownat, hcolnat]
          exact hextremes.extend hright (im.tilePixels_ne_nil _ _)
      · exact hextremes
  · exact extremes_nil

end ImageU8

/-! ## 4. The new image -/

theorem thresh_bounds {max min : UInt8} (h : min ≤ max) :
    0 ≤ thresh max min ∧ thresh max min < 256 := by
  have hle := UInt8.le_iff_toNat_le.mp h
  have hlt := max.toNat_lt
  rw [thresh, Int.tdiv_eq_ediv_of_nonneg (by omega)]
  omega

theorem gt_ofInt_iff {max min v : UInt8} (h : min ≤ max) :
    v > .ofInt (thresh max min) ↔ (v.toNat : Int) > thresh max min := by
  obtain ⟨hnonneg, hlt⟩ := thresh_bounds h
  have hlevel : (UInt8.ofInt (thresh max min)).toNat = (thresh max min).toNat := by
    rw [UInt8.ofInt, Int.emod_eq_of_lt hnonneg (show thresh max min < 2 ^ 8 from hlt)]
    exact UInt8.toNat_ofNat_of_lt' (show (thresh max min).toNat < 256 by omega)
  rw [gt_iff_lt, UInt8.lt_iff_toNat_lt, hlevel]
  omega

namespace ImageU8

/-- Where the arrays have the tile of a pixel, or the last one before it. -/
def tilePlace (im : ImageU8) (x y : Nat) : Nat :=
  min (y / tilesz) (im.th - 1) * im.tw + min (x / tilesz) (im.tw - 1)

def outPixel (im : ImageU8) (minWhiteBlackDiff : Int) (tiles : Tiles) (x y : Nat) : UInt8 :=
  let max := tiles.max.getD (im.tilePlace x y) 0
  let min := tiles.min.getD (im.tilePlace x y) 0
  if (x / tilesz < im.tw ∧ y / tilesz < im.th) ∧
      (max.toNat : Int) - min.toNat < minWhiteBlackDiff then 127
  else if ((im.pixel x y).toNat : Int) > thresh max min then 255
  else 0

/-- What belongs to a place of the new image. -/
def outValue (im : ImageU8) (minWhiteBlackDiff : Int) (tiles : Tiles) (k : Nat) : UInt8 :=
  im.outPixel minWhiteBlackDiff tiles (k % im.stride) (k / im.stride)

theorem outValue_index {im : ImageU8} {x y : Nat} (hx : x < im.width) (minWhiteBlackDiff : Int)
    (tiles : Tiles) : im.outValue minWhiteBlackDiff tiles (y * im.stride + x) =
      im.outPixel minWhiteBlackDiff tiles x y := by
  have hstride : x < im.stride := Nat.lt_of_lt_of_le hx im.width_le
  rw [outValue, Nat.mul_comm, Nat.mul_add_mod, Nat.mod_eq_of_lt hstride,
    Nat.mul_add_div (Nat.zero_lt_of_lt hstride), Nat.div_eq_of_lt hstride, Nat.add_zero]

section Loops

variable {im : ImageU8} {minWhiteBlackDiff : Int} {tiles : Tiles} {ks : List Nat}
  {buf : List UInt8}

/-- The cells written so far have what belongs there. -/
def Colored (im : ImageU8) (minWhiteBlackDiff : Int) (tiles : Tiles) (ks : List Nat)
    (buf : List UInt8) : Prop :=
  Written (im.outValue minWhiteBlackDiff tiles) (List.replicate (im.height * im.stride) 0) ks buf

theorem index_lt_replicate {x y : Nat} (hx : x < im.width) (hy : y < im.height) :
    y * im.stride + x < (List.replicate (im.height * im.stride) (0 : UInt8)).length := by
  rw [List.length_replicate, ← im.length_buf]
  exact index_lt hx hy

theorem thresholdTile_spec
    (hfilled : Filled im.tw im.th (fun tx ty => Extremes (im.aroundPixels tx ty)) tiles)
    {tx ty : Nat} (htx : tx < im.tw) (hty : ty < im.th)
    (hmin_le : ∀ extremes, Extremes (im.aroundPixels tx ty) extremes → extremes.2 ≤ extremes.1)
    (h : im.Colored minWhiteBlackDiff tiles ks buf) :
    ∃ next, im.thresholdTile minWhiteBlackDiff tiles buf tx ty = .ok next ∧
      im.Colored minWhiteBlackDiff tiles
        (ks ++ swept (List.range tilesz) (fun _ => List.range tilesz)
        fun dx dy => [(ty * tilesz + dy) * im.stride + (tx * tilesz + dx)]) next := by
  obtain ⟨extremes, hextremes, hmax, hmin⟩ := hfilled.right tx ty htx hty
  have hload {cells : List UInt8} {v : UInt8} (hv : cells[ty * im.tw + tx]? = some v) :
      load cells (ty * im.tw + tx) = .ok v := by
    rw [load, hv]
  have hplace {dx dy : Nat} (hdx : dx < tilesz) (hdy : dy < tilesz) :
      im.tilePlace (tx * tilesz + dx) (ty * tilesz + dy) = ty * im.tw + tx := by
    simp only [tilePlace, tilesz] at *
    rw [show (ty * 4 + dy) / 4 = ty by omega, show (tx * 4 + dx) / 4 = tx by omega,
      Nat.min_eq_left (by omega), Nat.min_eq_left (by omega)]
  have hpixel {dx dy : Nat} (hdx : dx < tilesz) (hdy : dy < tilesz) :
      im.outValue minWhiteBlackDiff tiles
        ((ty * tilesz + dy) * im.stride + (tx * tilesz + dx)) =
      if (extremes.1.toNat : Int) - extremes.2.toNat < minWhiteBlackDiff then 127
      else if ((im.pixel (tx * tilesz + dx) (ty * tilesz + dy)).toNat : Int) >
        thresh extremes.1 extremes.2 then 255 else 0 := by
    have hfull : (tx * tilesz + dx) / tilesz < im.tw ∧ (ty * tilesz + dy) / tilesz < im.th := by
      simp only [tilesz] at *
      omega
    rw [outValue_index (tile_in htx hty hdx hdy).1, outPixel, hplace hdx hdy,
      List.getD_eq_getElem?_getD, List.getD_eq_getElem?_getD, hmax, hmin]
    simp only [hfull, true_and, and_self, Option.getD_some]
  rw [thresholdTile, hload hmin, ok_bind, hload hmax, ok_bind]
  by_cases hflat : (extremes.1.toNat : Int) - extremes.2.toNat < minWhiteBlackDiff
  · rw [if_pos hflat]
    refine Written.sweep h fun dy hdy dx hdx => ?_
    rw [List.mem_range] at hdy hdx
    obtain ⟨hx, hy⟩ := tile_in htx hty hdx hdy
    refine ⟨index_lt_replicate hx hy, fun cells => ?_⟩
    rw [hpixel hdx hdy, if_pos hflat]
  · rw [if_neg hflat]
    refine Written.sweep h fun dy hdy dx hdx => ?_
    rw [List.mem_range] at hdy hdx
    obtain ⟨hx, hy⟩ := tile_in htx hty hdx hdy
    refine ⟨index_lt_replicate hx hy, fun cells => ?_⟩
    rw [hpixel hdx hdy, if_neg hflat, load_pixel hx hy, ok_bind]
    simp only [gt_ofInt_iff (hmin_le extremes hextremes)]

/-- A pixel that is no pixel of a full tile takes the last tile before it. -/
theorem thresholdEdge_spec
    (hfilled : Filled im.tw im.th (fun tx ty => Extremes (im.aroundPixels tx ty)) tiles)
    (hwidth : 4 ≤ im.width) (hheight : 4 ≤ im.height) {x y : Nat} (hx : x < im.width)
    (hy : y < im.height) (hedge : im.edgeStart y ≤ x) (cells : List UInt8) :
    im.thresholdEdge tiles cells x y = store cells (y * im.stride + x)
      (im.outValue minWhiteBlackDiff tiles (y * im.stride + x)) := by
  have htw : 0 < im.tw := by
    simp only [tw, tilesz]
    omega
  have hth : 0 < im.th := by
    simp only [th, tilesz]
    omega
  have hrow : (if (y / tilesz) ≥ im.th then (im.th : Int) - 1 else (y / tilesz : Nat)) =
      (min (y / tilesz) (im.th - 1) : Nat) := by
    split
    · omega
    · omega
  have hcol : (if (x / tilesz) ≥ im.tw then (im.tw : Int) - 1 else (x / tilesz : Nat)) =
      (min (x / tilesz) (im.tw - 1) : Nat) := by
    split
    · omega
    · omega
  obtain ⟨extremes, -, hmax, hmin⟩ := hfilled.right (min (x / tilesz) (im.tw - 1))
    (min (y / tilesz) (im.th - 1)) (by omega) (by omega)
  have hload {cells : List UInt8} {v : UInt8} (hv : cells[im.tilePlace x y]? = some v) :
      loadInt cells ((min (y / tilesz) (im.th - 1) : Nat) * (im.tw : Int) +
        (min (x / tilesz) (im.tw - 1) : Nat)) = .ok v := by
    have hindex : ((min (y / tilesz) (im.th - 1) : Nat) * (im.tw : Int) +
        (min (x / tilesz) (im.tw - 1) : Nat)) = (im.tilePlace x y : Nat) := by
      rw [tilePlace]
      push_cast
      rfl
    rw [hindex, loadInt, if_neg (by omega), Int.toNat_natCast, load, hv]
  have hedge' : ¬ (x / tilesz < im.tw ∧ y / tilesz < im.th) := by
    rintro ⟨hcol, hrow⟩
    have hbelow : ¬ y ≥ im.th * tilesz := by
      simp only [tilesz] at *
      omega
    rw [edgeStart, if_neg hbelow] at hedge
    simp only [tilesz] at *
    omega
  rw [thresholdEdge, hrow, hcol, hload hmax, ok_bind, hload hmin, ok_bind, load_pixel hx hy,
    ok_bind, outValue_index hx, outPixel, List.getD_eq_getElem?_getD, List.getD_eq_getElem?_getD]
  rw [tilePlace, hmax, hmin]
  simp only [hedge', false_and, if_false, Option.getD_some]

end Loops

/-! ## 5. What the new image shows -/

theorem mem_around {d : Int} : d ∈ around ↔ -1 ≤ d ∧ d ≤ 1 := by
  simp only [around, List.mem_cons, List.not_mem_nil, or_false]
  omega

/-- The pixel is in a full tile, and that is the tile (tx, ty) or next to it. -/
structure Window (im : ImageU8) (tx ty x y : Nat) : Prop where
  full_x : x / tilesz < im.tw
  full_y : y / tilesz < im.th
  near_x : x / tilesz ≤ tx + 1 ∧ tx ≤ x / tilesz + 1
  near_y : y / tilesz ≤ ty + 1 ∧ ty ≤ y / tilesz + 1

theorem mem_tilePixels {im : ImageU8} {tx ty : Nat} {v : UInt8} :
    v ∈ im.tilePixels tx ty ↔
      ∃ x y, x / tilesz = tx ∧ y / tilesz = ty ∧ im.pixel x y = v := by
  simp only [tilePixels, mem_swept, List.mem_range, List.mem_singleton]
  constructor
  · rintro ⟨dy, hdy, dx, hdx, rfl⟩
    refine ⟨_, _, ?_, ?_, rfl⟩
    · simp only [tilesz] at *
      omega
    · simp only [tilesz] at *
      omega
  · rintro ⟨x, y, rfl, rfl, rfl⟩
    refine ⟨y % tilesz, Nat.mod_lt y (by decide), x % tilesz, Nat.mod_lt x (by decide), ?_⟩
    rw [Nat.div_add_mod', Nat.div_add_mod']

theorem mem_aroundPixels {im : ImageU8} {tx ty : Nat} {v : UInt8} :
    v ∈ im.aroundPixels tx ty ↔ ∃ x y, im.Window tx ty x y ∧ im.pixel x y = v := by
  constructor
  · intro hv
    obtain ⟨dy, hdy, hv⟩ := List.mem_flatMap.mp hv
    split at hv
    · exact absurd hv List.not_mem_nil
    · next hrow =>
      obtain ⟨dx, hdx, hv⟩ := List.mem_flatMap.mp hv
      split at hv
      · exact absurd hv List.not_mem_nil
      · next hcol =>
        obtain ⟨x, y, hx, hy, hpixel⟩ := mem_tilePixels.mp hv
        rw [mem_around] at hdy hdx
        refine ⟨x, y, ⟨?_, ?_, ?_, ?_⟩, hpixel⟩
        · omega
        · omega
        · omega
        · omega
  · rintro ⟨x, y, hwindow, hpixel⟩
    obtain ⟨hx, hy, hnear_x, hnear_y⟩ := hwindow
    generalize hcol : x / tilesz = col at hx hnear_x
    generalize hrow : y / tilesz = row at hy hnear_y
    refine List.mem_flatMap.mpr ⟨(row : Int) - ty, mem_around.mpr (by omega), ?_⟩
    rw [if_neg (by omega)]
    refine List.mem_flatMap.mpr ⟨(col : Int) - tx, mem_around.mpr (by omega), ?_⟩
    rw [if_neg (by omega)]
    refine mem_tilePixels.mpr ⟨x, y, ?_, ?_, hpixel⟩
    · omega
    · omega

/-- The values in the window of a tile. -/
def windowValues (im : ImageU8) (tx ty : Nat) : Set UInt8 :=
  {v | ∃ x y, im.Window tx ty x y ∧ im.pixel x y = v}

theorem aroundPixels_ne_nil {im : ImageU8} {tx ty : Nat} (htx : tx < im.tw) (hty : ty < im.th) :
    im.aroundPixels tx ty ≠ [] := by
  intro hnil
  have hmem : im.pixel (tx * tilesz) (ty * tilesz) ∈ im.aroundPixels tx ty := by
    refine mem_aroundPixels.mpr ⟨_, _, ⟨?_, ?_, ?_, ?_⟩, rfl⟩
    · rwa [Nat.mul_div_cancel tx (by decide)]
    · rwa [Nat.mul_div_cancel ty (by decide)]
    · rw [Nat.mul_div_cancel tx (by decide)]
      exact ⟨Nat.le_succ tx, Nat.le_succ tx⟩
    · rw [Nat.mul_div_cancel ty (by decide)]
      exact ⟨Nat.le_succ ty, Nat.le_succ ty⟩
  rw [hnil] at hmem
  exact List.not_mem_nil hmem

theorem isGreatest_of_extremes {im : ImageU8} {tx ty : Nat} (htx : tx < im.tw)
    (hty : ty < im.th) {extremes : UInt8 × UInt8}
    (h : Extremes (im.aroundPixels tx ty) extremes) :
    IsGreatest (im.windowValues tx ty) extremes.1 ∧
      IsLeast (im.windowValues tx ty) extremes.2 := by
  have hne := aroundPixels_ne_nil htx hty
  refine ⟨⟨mem_aroundPixels.mp (h.max_mem hne), ?_⟩, ⟨mem_aroundPixels.mp (h.min_mem hne), ?_⟩⟩
  · intro v hv
    exact (h.bounds v (mem_aroundPixels.mpr hv)).1
  · intro v hv
    exact (h.bounds v (mem_aroundPixels.mpr hv)).2

/-- `out` is the picture in black, white and flat. -/
structure Thresholded (im out : ImageU8) (minWhiteBlackDiff : Int) : Prop where
  width : out.width = im.width
  height : out.height = im.height
  stride : out.stride = im.stride
  /-- By the extremes in the tiles around the pixel's tile, or around the last one before it. -/
  pixel : ∀ x y, x < im.width → y < im.height → ∃ max min : UInt8,
    IsGreatest (im.windowValues (Nat.min (x / tilesz) (im.tw - 1))
      (Nat.min (y / tilesz) (im.th - 1))) max ∧
    IsLeast (im.windowValues (Nat.min (x / tilesz) (im.tw - 1))
      (Nat.min (y / tilesz) (im.th - 1))) min ∧
    out.pixel x y =
      if (x / tilesz < im.tw ∧ y / tilesz < im.th) ∧
        (max.toNat : Int) - min.toNat < minWhiteBlackDiff then 127
      else if (im.pixel x y).toNat > min.toNat + (max.toNat - min.toNat) / 2 then 255
      else 0

/-- The cells of the full tiles. -/
def fullCells (im : ImageU8) : List Nat :=
  swept (List.range im.th) (fun _ => List.range im.tw) fun tx ty =>
    swept (List.range tilesz) (fun _ => List.range tilesz) fun dx dy =>
      [(ty * tilesz + dy) * im.stride + (tx * tilesz + dx)]

/-- The cells behind them. -/
def edgeCells (im : ImageU8) : List Nat :=
  swept (List.range im.height)
    (fun y => List.range' (im.edgeStart y) (im.width - im.edgeStart y))
    fun x y => [y * im.stride + x]

/-- Every pixel is in a full tile or behind them. -/
theorem mem_cells {im : ImageU8} {x y : Nat} (hx : x < im.width) (hy : y < im.height) :
    y * im.stride + x ∈ im.fullCells ++ im.edgeCells := by
  rw [List.mem_append, fullCells, edgeCells, mem_swept, mem_swept]
  by_cases hfull : x / tilesz < im.tw ∧ y / tilesz < im.th
  · refine .inl ⟨y / tilesz, List.mem_range.mpr hfull.2, x / tilesz,
      List.mem_range.mpr hfull.1, ?_⟩
    rw [mem_swept]
    refine ⟨y % tilesz, List.mem_range.mpr (Nat.mod_lt y (by decide)), x % tilesz,
      List.mem_range.mpr (Nat.mod_lt x (by decide)), ?_⟩
    rw [Nat.div_add_mod', Nat.div_add_mod']
    exact List.mem_singleton_self _
  · refine .inr ⟨y, List.mem_range.mpr hy, x, ?_, List.mem_singleton_self _⟩
    rw [List.mem_range'_1]
    have hstart : im.edgeStart y ≤ x := by
      rw [edgeStart]
      by_cases hrow : y ≥ im.th * tilesz
      · rw [if_pos hrow]
        exact Nat.zero_le x
      · rw [if_neg hrow]
        simp only [tilesz] at *
        omega
    omega

theorem thresholdTiles_colored {im : ImageU8} (hwidth : 4 ≤ im.width) (hheight : 4 ≤ im.height)
    (minWhiteBlackDiff : Int) : ∃ tiles buf, im.thresholdTiles minWhiteBlackDiff = .ok buf ∧
      Filled im.tw im.th (fun tx ty => Extremes (im.aroundPixels tx ty)) tiles ∧
      im.Colored minWhiteBlackDiff tiles (im.fullCells ++ im.edgeCells) buf := by
  obtain ⟨collected, hcollect, hcollected⟩ := fillTiles_spec
    (fun tx ty htx hty => @collectTile_spec im tx ty htx hty)
  obtain ⟨tiles, hblur, hfilled⟩ := fillTiles_spec
    (fun tx ty (_ : tx < im.tw) (_ : ty < im.th) => blurTile_spec hcollected tx ty)
  have htiles : ∃ middle, sweep (List.range im.th) (fun _ => List.range im.tw)
      (im.thresholdTile minWhiteBlackDiff tiles) (List.replicate (im.height * im.stride) 0) =
        .ok middle ∧
      im.Colored minWhiteBlackDiff tiles im.fullCells middle := by
    apply sweep_collects_all (im.Colored minWhiteBlackDiff tiles)
    · intro ty hty tx htx ks buf h
      rw [List.mem_range] at hty htx
      have hmin_le : ∀ extremes, Extremes (im.aroundPixels tx ty) extremes →
          extremes.2 ≤ extremes.1 := fun extremes hextremes =>
        hextremes.min_le_max (aroundPixels_ne_nil htx hty)
      exact thresholdTile_spec hfilled htx hty hmin_le h
    · exact written_nil _ _
  obtain ⟨middle, htiles, hmiddle⟩ := htiles
  have hedges : ∃ buf, sweep (List.range im.height)
      (fun y => List.range' (im.edgeStart y) (im.width - im.edgeStart y))
      (im.thresholdEdge tiles) middle = .ok buf ∧
      im.Colored minWhiteBlackDiff tiles (im.fullCells ++ im.edgeCells) buf := by
    apply Written.sweep hmiddle
    intro y hy x hx
    rw [List.mem_range] at hy
    rw [List.mem_range'_1] at hx
    have hlt : x < im.width := by omega
    exact ⟨index_lt_replicate hlt hy, thresholdEdge_spec hfilled hwidth hheight hlt hy hx.1⟩
  obtain ⟨buf, hedges, hbuf⟩ := hedges
  refine ⟨tiles, buf, ?_, hfilled, hbuf⟩
  rw [thresholdTiles, hcollect, ok_bind, hblur, ok_bind, htiles, ok_bind, hedges]

/-- An image of the same size. -/
def withBuf (im : ImageU8) (buf : List UInt8) (h : buf.length = im.height * im.stride) :
    ImageU8 :=
  { im with buf := buf, length_buf := h }

theorem pixel_of_getElem? {im : ImageU8} {x y : Nat} {v : UInt8}
    (h : im.buf[y * im.stride + x]? = some v) : im.pixel x y = v := by
  rw [pixel, List.getD_eq_getElem?_getD, h]
  rfl

theorem gt_thresh_iff {max min v : UInt8} (h : min ≤ max) :
    (v.toNat : Int) > thresh max min ↔ v.toNat > min.toNat + (max.toNat - min.toNat) / 2 := by
  have hle := UInt8.le_iff_toNat_le.mp h
  rw [thresh, Int.tdiv_eq_ediv_of_nonneg (by omega)]
  omega

theorem thresholdTiles_spec {im : ImageU8} (hwidth : 4 ≤ im.width) (hheight : 4 ≤ im.height)
    (minWhiteBlackDiff : Int) : ∃ out, im.thresholdTiles minWhiteBlackDiff = .ok out.buf ∧
      im.Thresholded out minWhiteBlackDiff := by
  obtain ⟨tiles, buf, hthreshold, hfilled, hcolored⟩ :=
    thresholdTiles_colored hwidth hheight minWhiteBlackDiff
  have hlength : buf.length = im.height * im.stride := by
    rw [hcolored.length, List.length_replicate]
  refine ⟨im.withBuf buf hlength, hthreshold, rfl, rfl, rfl, fun x y hx hy => ?_⟩
  have htw : Nat.min (x / tilesz) (im.tw - 1) < im.tw := by
    have hpos : 0 < im.tw := Nat.div_pos hwidth (by decide)
    exact Nat.lt_of_le_of_lt (Nat.min_le_right _ _) (by omega)
  have hth : Nat.min (y / tilesz) (im.th - 1) < im.th := by
    have hpos : 0 < im.th := Nat.div_pos hheight (by decide)
    exact Nat.lt_of_le_of_lt (Nat.min_le_right _ _) (by omega)
  obtain ⟨extremes, hextremes, hmax, hmin⟩ := hfilled.right _ _ htw hth
  obtain ⟨hgreatest, hleast⟩ := isGreatest_of_extremes htw hth hextremes
  refine ⟨extremes.1, extremes.2, hgreatest, hleast, ?_⟩
  have hpixel : (im.withBuf buf hlength).pixel x y =
      im.outPixel minWhiteBlackDiff tiles x y := by
    apply pixel_of_getElem?
    rw [← outValue_index hx]
    exact hcolored.mem _ (mem_cells hx hy)
  have hplace {cells : List UInt8} {v : UInt8}
      (hv : cells[Nat.min (y / tilesz) (im.th - 1) * im.tw +
        Nat.min (x / tilesz) (im.tw - 1)]? = some v) :
      cells.getD (im.tilePlace x y) 0 = v := by
    rw [List.getD_eq_getElem?_getD]
    exact congrArg (·.getD 0) hv
  rw [hpixel, outPixel, hplace hmax, hplace hmin]
  simp only [gt_thresh_iff (hleast.2 hgreatest.1)]

/-! ## 6. Deglitching -/

/-- A pixel that the deglitching passes write. -/
structure Inside (im : ImageU8) (x y : Nat) : Prop where
  left : 1 ≤ x
  right : x + 1 < im.width
  above : 1 ≤ y
  below : y + 1 < im.height

/-- The pixel itself and the eight around it. -/
structure Near (x y x' y' : Nat) : Prop where
  col : x' ≤ x + 1 ∧ x ≤ x' + 1
  row : y' ≤ y + 1 ∧ y ≤ y' + 1

end ImageU8

/-- The best of the values so far. -/
structure Picked (pick : UInt8 → UInt8 → Bool) (init : UInt8) (vs : List UInt8) (best : UInt8) :
    Prop where
  start : vs = [] → best = init
  mem : vs ≠ [] → best ∈ vs
  best : ∀ v ∈ vs, pick v best = false

/-- A comparison with which the worst value is the one to start from. -/
structure Picking (pick : UInt8 → UInt8 → Bool) (init : UInt8) : Prop where
  irrefl : ∀ v, pick v v = false
  trans : ∀ u v w, pick u v = false → pick w v = true → pick u w = false
  worst : ∀ v, pick v init = false → v = init

theorem picking_max : Picking (fun v max => v > max) 0 where
  irrefl := by
    intro v
    simp
  trans := by
    intro u v w huv hwv
    simp only [decide_eq_false_iff_not, decide_eq_true_eq] at *
    grind
  worst := by
    intro v hv
    simp only [decide_eq_false_iff_not, gt_iff_lt, UInt8.lt_iff_toNat_lt] at hv
    apply UInt8.toNat_inj.mp
    simpa using hv

theorem picking_min : Picking (fun v min => v < min) 255 where
  irrefl := by
    intro v
    simp
  trans := by
    intro u v w huv hwv
    simp only [decide_eq_false_iff_not, decide_eq_true_eq] at *
    grind
  worst := by
    intro v hv
    simp only [decide_eq_false_iff_not, UInt8.lt_iff_toNat_lt] at hv
    have hlt := v.toNat_lt
    apply UInt8.toNat_inj.mp
    simp at hv ⊢
    omega

theorem Picked.snoc {pick : UInt8 → UInt8 → Bool} {init best : UInt8} {vs : List UInt8}
    (h : Picked pick init vs best) (hpick : Picking pick init) (v : UInt8) :
    Picked pick init (vs ++ [v]) (if pick v best then v else best) where
  start := fun hnil => absurd (List.append_eq_nil_iff.mp hnil).2 (List.cons_ne_nil v [])
  mem := by
    intro _
    by_cases hv : pick v best = true
    · rw [if_pos hv]
      exact List.mem_append_right vs (List.mem_singleton_self v)
    · rw [if_neg hv]
      by_cases hvs : vs = []
      · rw [h.start hvs] at hv ⊢
        rw [hpick.worst v (Bool.eq_false_iff.mpr hv)]
        exact List.mem_append_right vs (List.mem_singleton_self init)
      · exact List.mem_append_left [v] (h.mem hvs)
  best := by
    intro w hw
    by_cases hv : pick v best = true
    · rw [if_pos hv]
      rcases List.mem_append.mp hw with hw | hw
      · exact hpick.trans w best v (h.best w hw) hv
      · rw [List.mem_singleton.mp hw]
        exact hpick.irrefl v
    · rw [if_neg hv]
      rcases List.mem_append.mp hw with hw | hw
      · exact h.best w hw
      · rw [List.mem_singleton.mp hw]
        exact Bool.eq_false_iff.mpr hv

namespace ImageU8

/-- The values of the pixel and the eight around it. -/
def nearValues (value : Nat → Nat → UInt8) (x y : Nat) : List UInt8 :=
  around.flatMap fun dy => around.flatMap fun dx =>
    [value ((x : Int) + dx).toNat ((y : Int) + dy).toNat]

theorem mem_nearValues {value : Nat → Nat → UInt8} {x y : Nat} (hx : 1 ≤ x) (hy : 1 ≤ y)
    {v : UInt8} :
    v ∈ nearValues value x y ↔ ∃ x' y', Near x y x' y' ∧ value x' y' = v := by
  simp only [nearValues, List.mem_flatMap, mem_around, List.mem_singleton]
  constructor
  · rintro ⟨dy, hdy, dx, hdx, rfl⟩
    refine ⟨_, _, ⟨?_, ?_⟩, rfl⟩
    · omega
    · omega
  · rintro ⟨x', y', ⟨hcol, hrow⟩, rfl⟩
    refine ⟨(y' : Int) - y, by omega, (x' : Int) - x, by omega, ?_⟩
    rw [show (x : Int) + (x' - x) = x' by omega, show (y : Int) + (y' - y) = y' by omega,
      Int.toNat_natCast, Int.toNat_natCast]

theorem near_self (x y : Nat) : Near x y x y :=
  ⟨⟨Nat.le_succ x, Nat.le_succ x⟩, ⟨Nat.le_succ y, Nat.le_succ y⟩⟩

theorem nearValues_ne_nil {value : Nat → Nat → UInt8} {x y : Nat} (hx : 1 ≤ x) (hy : 1 ≤ y) :
    nearValues value x y ≠ [] := by
  intro hnil
  have hmem : value x y ∈ nearValues value x y :=
    (mem_nearValues hx hy).mpr ⟨x, y, near_self x y, rfl⟩
  rw [hnil] at hmem
  exact List.not_mem_nil hmem

theorem pickAround_spec {pick : UInt8 → UInt8 → Bool} {init : UInt8} (hpick : Picking pick init)
    {buf : List UInt8} {s x y : Nat} {value : Nat → Nat → UInt8} (hx : 1 ≤ x) (hy : 1 ≤ y)
    (hload : ∀ x' y', Near x y x' y' → load buf (y' * s + x') = .ok (value x' y')) :
    ∃ best, pickAround pick init buf s x y = .ok best ∧
      Picked pick init (nearValues value x y) best := by
  have hstart : Picked pick init [] init :=
    ⟨fun _ => rfl, fun h => absurd rfl h, fun _ hmem => absurd hmem List.not_mem_nil⟩
  unfold pickAround nearValues
  apply foldlM_collects_all (Picked pick init)
  · intro dy hdy vs best hpicked
    apply foldlM_collects (Picked pick init)
    · intro dx hdx vs best hpicked
      rw [mem_around] at hdy hdx
      have hnear : Near x y ((x : Int) + dx).toNat ((y : Int) + dy).toNat :=
        ⟨by omega, by omega⟩
      have hindex : ((y : Int) + dy) * s + x + dx =
          (((y : Int) + dy).toNat * s + ((x : Int) + dx).toNat : Nat) := by
        rw [Int.add_assoc]
        push_cast
        rw [Int.toNat_of_nonneg (by omega), Int.toNat_of_nonneg (by omega)]
      rw [hindex, loadInt, if_neg (by omega), Int.toNat_natCast, hload _ _ hnear, ok_bind]
      exact ⟨_, rfl, hpicked.snoc hpick _⟩
    · exact hpicked
  · exact hstart

/-- The cells that a pass writes. -/
def insideCells (im : ImageU8) : List Nat :=
  swept (List.range' 1 (im.height - 2)) (fun _ => List.range' 1 (im.width - 2))
    fun x y => [y * im.stride + x]

theorem mem_insideCells {im : ImageU8} {x y : Nat} (hx : x < im.width) :
    y * im.stride + x ∈ im.insideCells ↔ im.Inside x y := by
  have hstride := im.width_le
  rw [insideCells, mem_swept]
  constructor
  · rintro ⟨y', hy', x', hx', hmem⟩
    rw [List.mem_range'_1] at hy' hx'
    have heq := List.mem_singleton.mp hmem
    have hcol : x = x' := by
      have hmod := congrArg (· % im.stride) heq
      simp only [Nat.mul_comm _ im.stride, Nat.mul_add_mod] at hmod
      rwa [Nat.mod_eq_of_lt (by omega), Nat.mod_eq_of_lt (by omega)] at hmod
    rw [hcol, Nat.add_right_cancel_iff] at heq
    have hrow : y = y' := Nat.eq_of_mul_eq_mul_right (by omega) heq
    rw [hcol, hrow]
    exact ⟨by omega, by omega, by omega, by omega⟩
  · rintro ⟨hleft, hright, habove, hbelow⟩
    refine ⟨y, List.mem_range'_1.mpr (by omega), x, List.mem_range'_1.mpr (by omega), ?_⟩
    exact List.mem_singleton_self _

/-- One pass: the pixels inside get the best of what is around them. -/
theorem passInner_spec {im : ImageU8} {pick : UInt8 → UInt8 → Bool} {init : UInt8}
    (hpick : Picking pick init) {src dst : List UInt8} {value : Nat → Nat → UInt8}
    (hload : ∀ x y, x < im.width → y < im.height →
      load src (y * im.stride + x) = .ok (value x y))
    (hlength : ∀ x y, im.Inside x y → y * im.stride + x < dst.length) :
    ∃ after best, im.passInner pick init src dst = .ok after ∧
      Written best dst im.insideCells after ∧ ∀ x y, im.Inside x y →
        Picked pick init (nearValues value x y) (best (y * im.stride + x)) := by
  have hbest : ∀ x y, im.Inside x y → ∃ best,
      pickAround pick init src im.stride x y = .ok best ∧
        Picked pick init (nearValues value x y) best := by
    rintro x y ⟨hleft, hright, habove, hbelow⟩
    apply pickAround_spec hpick hleft habove
    rintro x' y' ⟨hcol, hrow⟩
    exact hload x' y' (by omega) (by omega)
  let best (k : Nat) : UInt8 :=
    (pickAround pick init src im.stride (k % im.stride) (k / im.stride)).toOption.getD 0
  have hvalue : ∀ x y, im.Inside x y →
      pickAround pick init src im.stride x y = .ok (best (y * im.stride + x)) := by
    intro x y hinside
    obtain ⟨v, hv, -⟩ := hbest x y hinside
    have hstride : x < im.stride :=
      Nat.lt_of_lt_of_le (Nat.lt_of_succ_lt hinside.right) im.width_le
    simp only [best]
    rw [Nat.mul_comm y, Nat.mul_add_mod, Nat.mod_eq_of_lt hstride,
      Nat.mul_add_div (Nat.zero_lt_of_lt hstride), Nat.div_eq_of_lt hstride, Nat.add_zero, hv]
    rfl
  have hpass : ∃ after, im.passInner pick init src dst = .ok after ∧
      Written best dst ([] ++ im.insideCells) after := by
    apply Written.sweep (written_nil best dst)
    intro y hy x hx
    rw [List.mem_range'_1] at hy hx
    have hinside : im.Inside x y := ⟨by omega, by omega, by omega, by omega⟩
    refine ⟨hlength x y hinside, fun cells => ?_⟩
    rw [hvalue x y hinside, ok_bind]
  obtain ⟨after, hpass, hwritten⟩ := hpass
  refine ⟨after, best, hpass, hwritten, fun x y hinside => ?_⟩
  obtain ⟨v, hv, hpicked⟩ := hbest x y hinside
  rwa [Except.ok.inj (hv.symm.trans (hvalue x y hinside))] at hpicked

/-- The values in the 3 by 3 pixels around one. -/
def nearSet (value : Nat → Nat → UInt8) (x y : Nat) : Set UInt8 :=
  {v | ∃ x' y', Near x y x' y' ∧ value x' y' = v}

theorem isGreatest_of_picked {value : Nat → Nat → UInt8} {x y : Nat} {best : UInt8}
    (hx : 1 ≤ x) (hy : 1 ≤ y)
    (h : Picked (fun v max => v > max) 0 (nearValues value x y) best) :
    IsGreatest (nearSet value x y) best := by
  refine ⟨(mem_nearValues hx hy).mp (h.mem (nearValues_ne_nil hx hy)), fun v hv => ?_⟩
  have hnot := h.best v ((mem_nearValues hx hy).mpr hv)
  simp only [decide_eq_false_iff_not] at hnot
  grind

theorem isLeast_of_picked {value : Nat → Nat → UInt8} {x y : Nat} {best : UInt8}
    (hx : 1 ≤ x) (hy : 1 ≤ y)
    (h : Picked (fun v min => v < min) 255 (nearValues value x y) best) :
    IsLeast (nearSet value x y) best := by
  refine ⟨(mem_nearValues hx hy).mp (h.mem (nearValues_ne_nil hx hy)), fun v hv => ?_⟩
  have hnot := h.best v ((mem_nearValues hx hy).mpr hv)
  simp only [decide_eq_false_iff_not] at hnot
  grind

/-- `out` is the image widened and then narrowed; what is widened is nothing at the edge. -/
structure Deglitched (im out : ImageU8) : Prop where
  width : out.width = im.width
  height : out.height = im.height
  stride : out.stride = im.stride
  edge : ∀ x y, x < im.width → y < im.height → ¬ im.Inside x y → out.pixel x y = im.pixel x y
  inside : ∃ tmp : Nat → Nat → UInt8,
    (∀ x y, im.Inside x y → IsGreatest (nearSet im.pixel x y) (tmp x y)) ∧
    (∀ x y, x < im.width → y < im.height → ¬ im.Inside x y → tmp x y = 0) ∧
    ∀ x y, im.Inside x y → IsLeast (nearSet tmp x y) (out.pixel x y)

/-- The places of the image, in the memory of the second one. -/
def FitsTmp (im : ImageU8) : Prop :=
  (im.height - 1) * im.stride + (im.width - 1) < im.height * alignedStride im.width 96

theorem FitsTmp.index_lt {im : ImageU8} (h : im.FitsTmp) {x y : Nat} (hx : x < im.width)
    (hy : y < im.height) :
    y * im.stride + x < (create im.width im.height im.width_lt im.height_lt).buf.length := by
  have hrow : y * im.stride ≤ (im.height - 1) * im.stride := Nat.mul_le_mul_right _ (by omega)
  have hlength : (create im.width im.height im.width_lt im.height_lt).buf.length =
      im.height * alignedStride im.width 96 := List.length_replicate
  unfold FitsTmp at h
  omega

theorem deglitch_spec {im : ImageU8} (hfits : im.FitsTmp) :
    ∃ out, im.deglitch im.buf = .ok out.buf ∧ im.Deglitched out := by
  have hload : ∀ x y, x < im.width → y < im.height →
      load im.buf (y * im.stride + x) = .ok (im.pixel x y) := fun x y hx hy => load_pixel hx hy
  have hinside {x y : Nat} (h : im.Inside x y) : x < im.width ∧ y < im.height :=
    ⟨Nat.lt_of_succ_lt h.right, Nat.lt_of_succ_lt h.below⟩
  obtain ⟨tmp, best, hdilate, hwritten, hpicked⟩ := @passInner_spec im _ _ picking_max _ _ _
    hload fun x y h => hfits.index_lt (hinside h).1 (hinside h).2
  -- the second image, where it has been written and where not
  have htmp : ∀ x y, x < im.width → y < im.height →
      load tmp (y * im.stride + x) = .ok (tmp.getD (y * im.stride + x) 0) := by
    intro x y hx hy
    have hlt : y * im.stride + x < tmp.length := by
      rw [hwritten.length]
      exact hfits.index_lt hx hy
    rw [load, List.getD_eq_getElem?_getD, List.getElem?_eq_getElem hlt]
    rfl
  have hnew : ∀ x y, im.Inside x y →
      tmp.getD (y * im.stride + x) 0 = best (y * im.stride + x) := by
    intro x y h
    rw [List.getD_eq_getElem?_getD,
      hwritten.mem _ ((mem_insideCells (hinside h).1).mpr h)]
    rfl
  have hold : ∀ x y, x < im.width → y < im.height → ¬ im.Inside x y →
      tmp.getD (y * im.stride + x) 0 = 0 := by
    intro x y hx hy h
    rw [List.getD_eq_getElem?_getD,
      hwritten.rest _ ((mem_insideCells hx).not.mpr h), create, List.getElem?_replicate]
    split
    · rfl
    · rfl
  obtain ⟨after, least, herode, hwritten', hpicked'⟩ := @passInner_spec im _ _ picking_min _ _ _
    htmp fun x y h => index_lt (hinside h).1 (hinside h).2
  have hlength : after.length = im.height * im.stride := by
    rw [hwritten'.length, im.length_buf]
  have hpixel : ∀ x y, im.Inside x y →
      (im.withBuf after hlength).pixel x y = least (y * im.stride + x) := by
    intro x y h
    apply pixel_of_getElem?
    exact hwritten'.mem _ ((mem_insideCells (hinside h).1).mpr h)
  refine ⟨im.withBuf after hlength, ?_, rfl, rfl, rfl, fun x y hx hy h => ?_,
    fun x y => tmp.getD (y * im.stride + x) 0, fun x y h => ?_, hold, fun x y h => ?_⟩
  · rw [deglitch, hdilate, ok_bind, herode]
    rfl
  · have hsame : after[y * im.stride + x]? = im.buf[y * im.stride + x]? :=
      hwritten'.rest _ ((mem_insideCells hx).not.mpr h)
    show after.getD (y * im.stride + x) 0 = im.buf.getD (y * im.stride + x) 0
    rw [List.getD_eq_getElem?_getD, List.getD_eq_getElem?_getD, hsame]
  · dsimp only
    rw [hnew x y h]
    exact isGreatest_of_picked h.left h.above (hpicked x y h)
  · rw [hpixel x y h]
    exact isLeast_of_picked h.left h.above (hpicked' x y h)

/-- Deglitching blackens the pixels next to the edge. -/
theorem Deglitched.rim {im out : ImageU8} (h : im.Deglitched out) {x y : Nat}
    (hinside : im.Inside x y)
    (hrim : x = 1 ∨ y = 1 ∨ x + 2 = im.width ∨ y + 2 = im.height) : out.pixel x y = 0 := by
  obtain ⟨tmp, -, hedge, hleast⟩ := h.inside
  obtain ⟨hleft, hright, habove, hbelow⟩ := hinside
  have hzero : (0 : UInt8) ∈ nearSet tmp x y := by
    have hat : ∃ x' y', Near x y x' y' ∧ x' < im.width ∧ y' < im.height ∧
        ¬ im.Inside x' y' := by
      rcases hrim with hx | hy | hx | hy
      · exact ⟨x - 1, y, ⟨by omega, by omega⟩, by omega, by omega,
          fun h => absurd h.left (by omega)⟩
      · exact ⟨x, y - 1, ⟨by omega, by omega⟩, by omega, by omega,
          fun h => absurd h.above (by omega)⟩
      · exact ⟨x + 1, y, ⟨by omega, by omega⟩, by omega, by omega,
          fun h => absurd h.right (by omega)⟩
      · exact ⟨x, y + 1, ⟨by omega, by omega⟩, by omega, by omega,
          fun h => absurd h.below (by omega)⟩
    obtain ⟨x', y', hnear, hx', hy', hout⟩ := hat
    exact ⟨x', y', hnear, hedge x' y' hx' hy' hout⟩
  have hle := (hleast x y ⟨hleft, hright, habove, hbelow⟩).2 hzero
  apply UInt8.toNat_inj.mp
  exact Nat.le_zero.mp (UInt8.le_iff_toNat_le.mp hle)

/-! ## 7. When it stays within its memory -/

/-- Without a full tile the first pixel has no tile to take. -/
theorem thresholdTiles_small {im : ImageU8} (hwidth : 0 < im.width) (hheight : 0 < im.height)
    (hsmall : ¬ (4 ≤ im.width ∧ 4 ≤ im.height)) (minWhiteBlackDiff : Int) (buf : List UInt8) :
    im.thresholdTiles minWhiteBlackDiff ≠ .ok buf := by
  intro hok
  have htiles : im.tw = 0 ∨ im.th = 0 := by
    rw [tw, th, Nat.div_eq_zero_iff, Nat.div_eq_zero_iff]
    simp only [tilesz]
    omega
  have hfirst (tiles : Tiles) (cells : List UInt8) :
      im.thresholdEdge tiles cells 0 0 = .error .outOfBounds := by
    have hneg : (if 0 / tilesz ≥ im.th then (im.th : Int) - 1 else (0 / tilesz : Nat)) * im.tw +
        (if 0 / tilesz ≥ im.tw then (im.tw : Int) - 1 else (0 / tilesz : Nat)) < 0 := by
      rcases htiles with hzero | hzero
      · rw [hzero]
        simp only [Nat.zero_div]
        split
        · omega
        · split
          · omega
          · omega
      · rw [hzero]
        simp only [Nat.zero_div]
        split
        · omega
        · split
          · omega
          · omega
    rw [thresholdEdge, loadInt, if_pos hneg]
    rfl
  have hstart : im.edgeStart 0 = 0 := by
    unfold edgeStart
    rcases htiles with hzero | hzero
    · rw [hzero]
      simp
    · rw [hzero]
      simp
  rw [thresholdTiles] at hok
  obtain ⟨collected, -, hok⟩ := bind_eq_ok.mp hok
  obtain ⟨tiles, -, hok⟩ := bind_eq_ok.mp hok
  obtain ⟨middle, -, hok⟩ := bind_eq_ok.mp hok
  obtain ⟨rows, hrows⟩ : ∃ rows, List.range im.height = 0 :: rows := by
    rw [List.range_eq_range', ← Nat.succ_pred_eq_of_pos hheight, List.range'_succ]
    exact ⟨_, rfl⟩
  obtain ⟨cols, hcols⟩ : ∃ cols, List.range' 0 im.width = 0 :: cols := by
    rw [← Nat.succ_pred_eq_of_pos hwidth, List.range'_succ]
    exact ⟨_, rfl⟩
  rw [sweep, hrows, List.foldlM_cons, hstart, Nat.sub_zero, hcols, List.foldlM_cons, hfirst] at hok
  cases hok

/-- A pass reads up to the last pixel. -/
theorem passInner_reads {im : ImageU8} {pick : UInt8 → UInt8 → Bool} {init : UInt8}
    {src dst after : List UInt8} (hwidth : 3 ≤ im.width) (hheight : 3 ≤ im.height)
    (hok : im.passInner pick init src dst = .ok after) :
    (im.height - 1) * im.stride + (im.width - 1) < src.length := by
  have hy : im.height - 2 ∈ List.range' 1 (im.height - 2) := List.mem_range'_1.mpr (by omega)
  have hx : im.width - 2 ∈ List.range' 1 (im.width - 2) := List.mem_range'_1.mpr (by omega)
  obtain ⟨before, after, hbody⟩ := sweep_ok_mem hok hy hx
  obtain ⟨v, hpick, -⟩ := bind_eq_ok.mp hbody
  have hone : (1 : Int) ∈ around := by decide
  obtain ⟨before, after, hrow⟩ := foldlM_ok_mem hpick hone
  obtain ⟨before, after, hcell⟩ := foldlM_ok_mem hrow hone
  obtain ⟨v, hload, -⟩ := bind_eq_ok.mp hcell
  have hindex : ((im.height - 2 : Nat) + 1 : Int) * im.stride + (im.width - 2 : Nat) + 1 =
      ((im.height - 1) * im.stride + (im.width - 1) : Nat) := by
    rw [Int.add_assoc, show ((im.height - 2 : Nat) + 1 : Int) = (im.height - 1 : Nat) by omega,
      show ((im.width - 2 : Nat) + 1 : Int) = (im.width - 1 : Nat) by omega]
    push_cast
    rfl
  rw [hindex, loadInt, if_neg (by omega), Int.toNat_natCast, load] at hload
  by_contra hlt
  rw [List.getElem?_eq_none (Nat.not_lt.mp hlt)] at hload
  cases hload

theorem length_passInner {im : ImageU8} {pick : UInt8 → UInt8 → Bool} {init : UInt8}
    {src dst after : List UInt8} (h : im.passInner pick init src dst = .ok after) :
    after.length = dst.length := by
  have hstep : ∀ cells cells' x y, (do
      let v ← pickAround pick init src im.stride x y
      store cells (y * im.stride + x) v) = .ok cells' → cells'.length = cells.length := by
    intro cells cells' x y hbody
    obtain ⟨v, -, hstore⟩ := bind_eq_ok.mp hbody
    obtain ⟨-, rfl⟩ := store_eq_ok.mp hstore
    exact List.length_set
  exact sweep_keeps List.length hstep h

section SameSize

variable {im out : ImageU8} {minWhiteBlackDiff : Int}

theorem Thresholded.deglitch (h : im.Thresholded out minWhiteBlackDiff) :
    im.deglitch = out.deglitch := by
  funext buf
  simp only [ImageU8.deglitch, passInner, create, h.width, h.height, h.stride]

theorem Thresholded.fitsTmp (h : im.Thresholded out minWhiteBlackDiff) :
    out.FitsTmp ↔ im.FitsTmp := by
  rw [FitsTmp, FitsTmp, h.width, h.height, h.stride]

end SameSize

/-- What `threshold` makes of an image. -/
def ThresholdsTo (im : ImageU8) (minWhiteBlackDiff : Int) (deglitching : Bool) (out : ImageU8) :
    Prop :=
  ∃ flat, im.Thresholded flat minWhiteBlackDiff ∧
    if deglitching then flat.Deglitched out else out = flat

/-- **What `threshold` computes, and when**: it stays within its memory exactly if there is a
    full tile and, for the deglitching, the image fits into one of the default alignment; and
    then every pixel is turned black, white or 127 by the extremes in the tiles around it. -/
theorem threshold_spec (im : ImageU8) (hwidth : 0 < im.width) (hheight : 0 < im.height)
    (minWhiteBlackDiff : Int) (deglitching : Bool) :
    ((∃ buf, im.threshold minWhiteBlackDiff deglitching = .ok buf) ↔
      (4 ≤ im.width ∧ 4 ≤ im.height) ∧ (deglitching = true → im.FitsTmp)) ∧
    ∀ buf, im.threshold minWhiteBlackDiff deglitching = .ok buf →
      ∃ out, out.buf = buf ∧ im.ThresholdsTo minWhiteBlackDiff deglitching out := by
  by_cases hsmall : 4 ≤ im.width ∧ 4 ≤ im.height
  · obtain ⟨flat, hflat, hthresholded⟩ :=
      thresholdTiles_spec hsmall.1 hsmall.2 minWhiteBlackDiff
    have hthreshold : im.threshold minWhiteBlackDiff deglitching =
        if deglitching then flat.deglitch flat.buf else .ok flat.buf := by
      rw [threshold, hflat, ok_bind, hthresholded.deglitch]
      rfl
    cases deglitching with
    | false =>
        refine ⟨⟨fun _ => ⟨hsmall, by simp⟩, fun _ => ⟨_, hthreshold⟩⟩, fun buf hbuf => ?_⟩
        exact ⟨flat, Except.ok.inj (hthreshold.symm.trans hbuf), flat, hthresholded, rfl⟩
    | true =>
        have hfits : ∀ buf, im.threshold minWhiteBlackDiff true = .ok buf → im.FitsTmp := by
          intro buf hbuf
          rw [threshold, hflat, ok_bind, if_pos rfl] at hbuf
          obtain ⟨tmp, hdilate, herode⟩ := bind_eq_ok.mp hbuf
          have hread := passInner_reads (by omega) (by omega) herode
          rwa [length_passInner hdilate, create, List.length_replicate] at hread
        have hspec : im.FitsTmp → ∃ out, im.threshold minWhiteBlackDiff true = .ok out.buf ∧
            flat.Deglitched out := by
          intro hfits
          rw [hthreshold]
          exact deglitch_spec (hthresholded.fitsTmp.mpr hfits)
        refine ⟨⟨?_, ?_⟩, fun buf hbuf => ?_⟩
        · rintro ⟨buf, hbuf⟩
          exact ⟨hsmall, fun _ => hfits buf hbuf⟩
        · rintro ⟨-, hfits⟩
          obtain ⟨out, hout, -⟩ := hspec (hfits rfl)
          exact ⟨out.buf, hout⟩
        · obtain ⟨out, hout, hdeglitched⟩ := hspec (hfits buf hbuf)
          exact ⟨out, Except.ok.inj (hout.symm.trans hbuf), flat, hthresholded, hdeglitched⟩
  · have hfails : ∀ buf, im.threshold minWhiteBlackDiff deglitching ≠ .ok buf := by
      intro buf hbuf
      rw [threshold] at hbuf
      obtain ⟨tiles, htiles, -⟩ := bind_eq_ok.mp hbuf
      exact thresholdTiles_small hwidth hheight hsmall minWhiteBlackDiff tiles htiles
    refine ⟨⟨?_, fun h => absurd h.1 hsmall⟩, fun buf hbuf => absurd hbuf (hfails buf)⟩
    rintro ⟨buf, hbuf⟩
    exact absurd hbuf (hfails buf)

/-- Five columns by four rows, all black. -/
theorem threshold_spec_deglitched : ∃ im out : ImageU8, (im.width = 5 ∧ im.height = 4) ∧
    im.threshold 5 true = .ok out.buf ∧ im.ThresholdsTo 5 true out := by
  have hfits : (create 5 4 (by decide) (by decide)).FitsTmp := by
    unfold FitsTmp
    decide
  obtain ⟨hiff, hspec⟩ :=
    threshold_spec (create 5 4 (by decide) (by decide)) (by decide) (by decide) 5 true
  obtain ⟨buf, hbuf⟩ := hiff.mpr ⟨by decide, fun _ => hfits⟩
  obtain ⟨out, rfl, hout⟩ := hspec buf hbuf
  exact ⟨_, out, ⟨rfl, rfl⟩, hbuf, hout⟩

end ImageU8

end Lame
