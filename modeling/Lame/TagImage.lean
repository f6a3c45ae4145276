/-
  Lame/TagImage.lean
  ==================
  **From the printed tag to the detected one.**

  `apriltag_to_image` draws a tag, and `quad_decode` reads the bits of a tag off a photo:
  where the centre of a cell falls and whether the pixel there counts as white comes from
  floating-point fits and is a parameter.  Whatever the photo, a tag of tag36h11 of which
  at most two cells are read wrongly is decoded as itself, with the number of wrong cells
  and the orientation, and with up to eight wrong cells it is never decoded as another.
-/
import Lame.Segmentation
import Lame.TagFamily

namespace Lame

open ByteMemory BitWords

namespace ImageU8

/-! ## 1. The code -/

/-- `im->buf[i] = v` -/
def write (im : ImageU8) (i : Nat) (v : UInt8) : Exec ImageU8 :=
  if i < im.buf.length then .ok { im with
    buf := im.buf.set i v
    length_buf := by rw [List.length_set, im.length_buf] }
  else .error .outOfBounds

/-- The body of the loop that draws the white border. -/
def drawBorder (dim : Nat) (im : ImageU8) (i : Nat) : Exec ImageU8 := do
  let im ← im.write i 255
  let im ← im.write ((dim - 1) * im.stride + i) 255
  let im ← im.write (i * im.stride) 255
  im.write (i * im.stride + (dim - 1)) 255

/-- The body of the loops over the bits. -/
def drawBit (code : BitVec 64) (d border y : Nat) (im : ImageU8) (x : Nat) : Exec ImageU8 :=
  let pos := (d - 1 - y) * d + (d - 1 - x)
  if (code >>> pos) &&& 1#64 ≠ 0#64 then im.write ((y + border) * im.stride + x + border) 255
  else return im

/-- `apriltag_to_image`, of a tag that is not larger than an image can be. -/
def apriltagToImage (fam : AprilTagFamily) (hdim : fam.d + 2 * (fam.blackBorder + 1) < 32768)
    (idx : Nat) : Exec ImageU8 := do
  let code ← load fam.codes idx
  let border := fam.blackBorder + 1
  let dim := fam.d + 2 * border
  let im ← (List.range dim).foldlM (drawBorder dim) (create dim dim hdim hdim)
  (List.range fam.d).foldlM (fun im y =>
    (List.range fam.d).foldlM (drawBit code fam.d border y) im) im

/-- What the fits of `quad_decode` say: the pixel that the centre of a cell falls on, and
    whether a value there is over the threshold. -/
structure Sampling where
  project : Nat → Nat → Int × Int
  white : Nat → Nat → UInt8 → Bool

/-- The body of the loop of `quad_decode` over the bits. -/
def readBit (im : ImageU8) (sampling : Sampling) (d : Nat) (rcode : BitVec 64) (bitidx : Nat) :
    Exec (BitVec 64) := do
  let bitx := bitidx % d
  let bity := bitidx / d
  let (ix, iy) := sampling.project bitx bity
  let rcode := rcode <<< 1
  if ix < 0 ∨ iy < 0 ∨ ix ≥ im.width ∨ iy ≥ im.height then return rcode
  else
    let v ← loadInt im.buf (iy * im.stride + ix)
    if sampling.white bitx bity v then return rcode ||| 1#64 else return rcode

def readBits (im : ImageU8) (sampling : Sampling) (d : Nat) : Exec (BitVec 64) :=
  (List.range (d * d)).foldlM (im.readBit sampling d) 0#64

/-! ## 2. Drawing -/

/-- The image with these pixels drawn in white. -/
structure Drawing (dim : Nat) (items : List Nat) (im : ImageU8) : Prop where
  width : im.width = dim
  height : im.height = dim
  stride : im.stride = alignedStride dim 96
  buf : ∀ k, im.buf.getD k 0 = if k ∈ items then 255 else 0

section Drawing

variable {dim k : Nat} {items : List Nat} {im : ImageU8}

theorem drawing_create (hdim : dim < 32768) : Drawing dim [] (create dim dim hdim hdim) := by
  refine ⟨rfl, rfl, rfl, fun k => ?_⟩
  rw [if_neg List.not_mem_nil, List.getD_eq_getElem?_getD, create, List.getElem?_replicate]
  split
  · rfl
  · rfl

theorem Drawing.write (h : Drawing dim items im) (hk : k < im.buf.length) :
    ∃ after, im.write k 255 = .ok after ∧ Drawing dim (items ++ [k]) after := by
  rw [ImageU8.write, if_pos hk]
  refine ⟨_, rfl, h.width, h.height, h.stride, fun i => ?_⟩
  dsimp only
  rw [List.getD_eq_getElem?_getD]
  by_cases hi : i = k
  · subst hi
    rw [List.getElem?_set_self hk, if_pos (List.mem_append_right _ (List.mem_singleton_self i))]
    rfl
  · have hiff : i ∈ items ++ [k] ↔ i ∈ items := by
      rw [List.mem_append, List.mem_singleton, or_iff_left hi]
    rw [List.getElem?_set_ne (Ne.symm hi), ← List.getD_eq_getElem?_getD, h.buf i]
    simp only [hiff]

/-- A pixel of the image, by its index. -/
theorem Drawing.index_lt (h : Drawing dim items im) {x y : Nat} (hx : x < dim) (hy : y < dim) :
    y * im.stride + x < im.buf.length :=
  ImageU8.index_lt (by rwa [h.width]) (by rwa [h.height])

theorem Drawing.drawBorder (h : Drawing dim items im) {i : Nat} (hi : i < dim) :
    ∃ after, ImageU8.drawBorder dim im i = .ok after ∧
      Drawing dim (items ++ [i, (dim - 1) * alignedStride dim 96 + i,
        i * alignedStride dim 96, i * alignedStride dim 96 + (dim - 1)]) after := by
  have hlast : dim - 1 < dim := by omega
  have hzero : 0 < dim := by omega
  have hfirst := h.index_lt hi hzero
  rw [Nat.zero_mul, Nat.zero_add] at hfirst
  obtain ⟨im₁, hwrite₁, h₁⟩ := h.write hfirst
  obtain ⟨im₂, hwrite₂, h₂⟩ := h₁.write (h₁.index_lt hi hlast)
  obtain ⟨im₃, hwrite₃, h₃⟩ := h₂.write (h₂.index_lt hzero hi)
  obtain ⟨im₄, hwrite₄, h₄⟩ := h₃.write (h₃.index_lt hlast hi)
  rw [Nat.add_zero] at hwrite₃ h₃ h₄
  refine ⟨im₄, ?_, ?_⟩
  · rw [ImageU8.drawBorder, hwrite₁, ok_bind, hwrite₂, ok_bind, hwrite₃, ok_bind, hwrite₄]
  · rw [h₁.stride, h₂.stride, h₃.stride] at h₄
    simpa only [List.append_assoc, List.cons_append, List.nil_append] using h₄

theorem shiftRight_and_one_ne_zero_iff {code : BitVec 64} {pos : Nat} :
    (code >>> pos) &&& 1#64 ≠ 0#64 ↔ code.getLsbD pos = true := by
  rw [show (1#64) = 1#64 <<< 0 by simp, and_bit_ne_zero_iff, BitVec.getLsbD_ushiftRight,
    Nat.add_zero]

/-- The index of a cell, if it is white. -/
def cellItems (code : BitVec 64) (d border stride y x : Nat) : List Nat :=
  if code.getLsbD ((d - 1 - y) * d + (d - 1 - x)) then [(y + border) * stride + (x + border)]
  else []

theorem Drawing.drawBit (h : Drawing dim items im) {code : BitVec 64} {d border x y : Nat}
    (hx : x < d) (hy : y < d) (hdim : d + 2 * border = dim) :
    ∃ after, ImageU8.drawBit code d border y im x = .ok after ∧
      Drawing dim (items ++ cellItems code d border (alignedStride dim 96) y x) after := by
  simp only [ImageU8.drawBit, shiftRight_and_one_ne_zero_iff]
  rw [cellItems]
  by_cases hbit : code.getLsbD ((d - 1 - y) * d + (d - 1 - x)) = true
  · rw [if_pos hbit, if_pos hbit, ← h.stride, Nat.add_assoc]
    exact h.write (h.index_lt (by omega) (by omega))
  · rw [if_neg hbit, if_neg hbit, List.append_nil]
    exact ⟨im, rfl, h⟩

end Drawing

/-- What is white of a tag. -/
def tagItems (fam : AprilTagFamily) (code : BitVec 64) : List Nat :=
  let border := fam.blackBorder + 1
  let dim := fam.d + 2 * border
  ((List.range dim).flatMap fun i => [i, (dim - 1) * alignedStride dim 96 + i,
    i * alignedStride dim 96, i * alignedStride dim 96 + (dim - 1)]) ++
  (List.range fam.d).flatMap fun y => (List.range fam.d).flatMap fun x =>
    cellItems code fam.d border (alignedStride dim 96) y x

theorem apriltagToImage_drawing {fam : AprilTagFamily}
    (hdim : fam.d + 2 * (fam.blackBorder + 1) < 32768) {idx : Nat} (hidx : idx < fam.ncodes) :
    ∃ im, apriltagToImage fam hdim idx = .ok im ∧
      Drawing (fam.d + 2 * (fam.blackBorder + 1)) (tagItems fam (fam.code idx)) im := by
  have hload : load fam.codes idx = .ok (fam.code idx) := by
    rw [load, List.getElem?_eq_getElem hidx, AprilTagFamily.code, List.getD_eq_getElem?_getD,
      List.getElem?_eq_getElem hidx]
    rfl
  have hborder : ∀ i ∈ List.range (fam.d + 2 * (fam.blackBorder + 1)), ∀ items im,
      Drawing (fam.d + 2 * (fam.blackBorder + 1)) items im → _ :=
    fun i hi items im h => h.drawBorder (List.mem_range.mp hi)
  have hbit (y : Nat) (hy : y < fam.d) : ∀ x ∈ List.range fam.d, ∀ items im,
      Drawing (fam.d + 2 * (fam.blackBorder + 1)) items im →
      ∃ after, drawBit (fam.code idx) fam.d (fam.blackBorder + 1) y im x = .ok after ∧ _ :=
    fun x hx items im h => h.drawBit (List.mem_range.mp hx) hy rfl
  obtain ⟨framed, hframed, hdrawing⟩ :=
    foldlM_collects (Drawing _) hborder (drawing_create hdim)
  have hline : ∀ y ∈ List.range fam.d, ∀ items im,
      Drawing (fam.d + 2 * (fam.blackBorder + 1)) items im → _ :=
    fun y hy items im h => foldlM_collects (Drawing _) (hbit y (List.mem_range.mp hy)) h
  obtain ⟨im, him, hdrawn⟩ := foldlM_collects (Drawing _) hline hdrawing
  refine ⟨im, ?_, ?_⟩
  · rw [apriltagToImage, hload, ok_bind]
    dsimp only
    rw [hframed, ok_bind]
    exact him
  · exact hdrawn

theorem index_inj {stride row col row' col' : Nat} (hcol : col < stride) (hcol' : col' < stride) :
    row * stride + col = row' * stride + col' ↔ row = row' ∧ col = col' := by
  constructor
  · intro heq
    have hpos : 0 < stride := Nat.lt_of_le_of_lt (Nat.zero_le col) hcol
    have hdiv := congrArg (· / stride) heq
    have hmod := congrArg (· % stride) heq
    simp only [Nat.add_comm _ col, Nat.add_comm _ col', Nat.add_mul_div_right _ _ hpos,
      Nat.add_mul_mod_self_right, Nat.div_eq_of_lt hcol, Nat.div_eq_of_lt hcol',
      Nat.mod_eq_of_lt hcol, Nat.mod_eq_of_lt hcol', Nat.zero_add] at hdiv hmod
    exact ⟨hdiv, hmod⟩
  · rintro ⟨rfl, rfl⟩
    rfl

/-- The cell is white exactly if its bit is set. -/
theorem mem_tagItems {fam : AprilTagFamily} {code : BitVec 64} {x y : Nat} (hx : x < fam.d)
    (hy : y < fam.d) :
    (y + (fam.blackBorder + 1)) * alignedStride (fam.d + 2 * (fam.blackBorder + 1)) 96 +
      (x + (fam.blackBorder + 1)) ∈ tagItems fam code ↔
    code.getLsbD ((fam.d - 1 - y) * fam.d + (fam.d - 1 - x)) = true := by
  generalize hborder : fam.blackBorder + 1 = border
  have hpos : 0 < border := by omega
  have hstride : fam.d + 2 * border ≤ alignedStride (fam.d + 2 * border) 96 :=
    le_alignedStride (fam.d + 2 * border) 96
  generalize hs : alignedStride (fam.d + 2 * border) 96 = stride at hstride
  have hrow {r c : Nat} (hc : c < stride) :
      (y + border) * stride + (x + border) = r * stride + c ↔
        y + border = r ∧ x + border = c := index_inj (by omega) hc
  rw [tagItems, hborder, hs, List.mem_append]
  constructor
  · rintro (hedge | hcell)
    · -- the border is around the cells
      obtain ⟨i, hi, hedge⟩ := List.mem_flatMap.mp hedge
      have hi' := List.mem_range.mp hi
      have hzero := hrow (r := 0) (show i < stride by omega)
      have hfirst := hrow (r := i) (show 0 < stride by omega)
      rw [Nat.zero_mul, Nat.zero_add] at hzero
      rw [Nat.add_zero] at hfirst
      simp only [List.mem_cons, List.not_mem_nil, or_false, hzero, hfirst,
        hrow (show i < stride by omega), hrow (show fam.d + 2 * border - 1 < stride by omega)]
        at hedge
      omega
    · obtain ⟨y', hy', hline⟩ := List.mem_flatMap.mp hcell
      obtain ⟨x', hx', hmem⟩ := List.mem_flatMap.mp hline
      rw [List.mem_range] at hx' hy'
      rw [cellItems] at hmem
      split at hmem
      · next hbit =>
          rw [List.mem_singleton, hrow (by omega)] at hmem
          obtain ⟨hyy, hxx⟩ := hmem
          obtain rfl : y = y' := by omega
          obtain rfl : x = x' := by omega
          exact hbit
      · cases hmem
  · intro hbit
    refine .inr (List.mem_flatMap.mpr ⟨y, List.mem_range.mpr hy, List.mem_flatMap.mpr
      ⟨x, List.mem_range.mpr hx, ?_⟩⟩)
    rw [cellItems, if_pos hbit]
    exact List.mem_singleton_self _

/-! ## 3. Reading -/

/-- The cell of a printed tag is white. -/
def cell (im : ImageU8) (fam : AprilTagFamily) (c : Nat × Nat) : Bool :=
  im.pixel (c.1 + (fam.blackBorder + 1)) (c.2 + (fam.blackBorder + 1)) = 255

/-- The bit of a cell. -/
def cellBit (d : Nat) (c : Nat × Nat) : Nat := (d - 1 - c.2) * d + (d - 1 - c.1)

theorem cell_eq {fam : AprilTagFamily} {code : BitVec 64} {im : ImageU8}
    (h : Drawing (fam.d + 2 * (fam.blackBorder + 1)) (tagItems fam code) im) {c : Nat × Nat}
    (hx : c.1 < fam.d) (hy : c.2 < fam.d) :
    im.cell fam c = code.getLsbD (cellBit fam.d c) := by
  rw [cell, pixel, h.buf, h.stride, cellBit]
  by_cases hbit : code.getLsbD ((fam.d - 1 - c.2) * fam.d + (fam.d - 1 - c.1)) = true
  · rw [if_pos ((mem_tagItems hx hy).mpr hbit), hbit]
    rfl
  · rw [if_neg fun hmem => hbit ((mem_tagItems hx hy).mp hmem), Bool.eq_false_of_not_eq_true hbit]
    rfl

/-- What is read of a cell; off the photo it counts as black. -/
def bitRead (im : ImageU8) (sampling : Sampling) (x y : Nat) : Bool :=
  let (ix, iy) := sampling.project x y
  if ix < 0 ∨ iy < 0 ∨ ix ≥ im.width ∨ iy ≥ im.height then false
  else sampling.white x y (im.pixel ix.toNat iy.toNat)

theorem readBit_eq (im : ImageU8) (sampling : Sampling) (d : Nat) (rcode : BitVec 64)
    (bitidx : Nat) : im.readBit sampling d rcode bitidx =
      .ok (shiftIn rcode (im.bitRead sampling (bitidx % d) (bitidx / d))) := by
  rw [readBit, bitRead]
  rcases sampling.project (bitidx % d) (bitidx / d) with ⟨ix, iy⟩
  dsimp only
  by_cases hout : ix < 0 ∨ iy < 0 ∨ ix ≥ im.width ∨ iy ≥ im.height
  · rw [if_pos hout, if_pos hout]
    rfl
  · rw [if_neg hout, if_neg hout]
    obtain ⟨x, rfl⟩ := Int.eq_ofNat_of_zero_le (show 0 ≤ ix by omega)
    obtain ⟨y, rfl⟩ := Int.eq_ofNat_of_zero_le (show 0 ≤ iy by omega)
    have hload : loadInt im.buf ((y : Int) * im.stride + x) = .ok (im.pixel x y) := by
      rw [loadInt, if_neg (Int.not_lt.mpr (by positivity))]
      exact load_pixel (by omega) (by omega)
    rw [hload, ok_bind, Int.toNat_natCast, Int.toNat_natCast, shiftIn]
    split
    · rfl
    · rfl

theorem readBits_eq (im : ImageU8) (sampling : Sampling) (d : Nat) :
    im.readBits sampling d = .ok (((List.range (d * d)).map fun t =>
      im.bitRead sampling (t % d) (t / d)).foldl shiftIn 0#64) := by
  rw [readBits]
  generalize List.range (d * d) = ts
  generalize 0#64 = rcode
  induction ts generalizing rcode with
  | nil => rfl
  | cons t ts ih =>
      rw [List.foldlM_cons, readBit_eq, ok_bind, List.map_cons, List.foldl_cons, ← ih]

/-- The word that is read. -/
def wordRead (im : ImageU8) (sampling : Sampling) (d : Nat) : BitVec 64 :=
  ((List.range (d * d)).map fun t => im.bitRead sampling (t % d) (t / d)).foldl shiftIn 0#64

theorem isWord_wordRead (im : ImageU8) (sampling : Sampling) (d : Nat) :
    IsWord d (im.wordRead sampling d) := by
  intro b hb
  by_cases hlt : b < 64
  · rw [wordRead, getLsbD_foldl_shiftIn hlt, List.length_map, List.length_range,
      if_neg (Nat.not_lt.mpr hb), BitVec.getLsbD_zero]
  · exact BitVec.getLsbD_of_ge _ _ (Nat.not_lt.mp hlt)

section Cells

variable {d : Nat} {c : Nat × Nat}

theorem cellBit_lt (hx : c.1 < d) (hy : c.2 < d) : cellBit d c < d * d :=
  grid_lt (by omega) (by omega)

theorem getLsbD_wordRead (hd : d * d ≤ 64) (im : ImageU8) (sampling : Sampling) (hx : c.1 < d)
    (hy : c.2 < d) :
    (im.wordRead sampling d).getLsbD (cellBit d c) = im.bitRead sampling c.1 c.2 := by
  have hlt := cellBit_lt hx hy
  have hindex : d * d - 1 - cellBit d c = c.2 * d + c.1 := by
    have hsquare := square_eq (show c.2 + (d - 1 - c.2) + 1 = d by omega)
    rw [hsquare, cellBit]
    omega
  have hpos : 0 < d := Nat.lt_of_le_of_lt (Nat.zero_le _) hx
  rw [wordRead, getLsbD_foldl_shiftIn (Nat.lt_of_lt_of_le hlt hd), List.length_map,
    List.length_range, if_pos hlt, List.getD_eq_getElem?_getD, List.getElem?_map,
    List.getElem?_range (by omega), Option.map_some, Option.getD_some, hindex, Nat.add_comm,
    Nat.add_mul_mod_self_right, Nat.mod_eq_of_lt hx, Nat.add_mul_div_right _ _ hpos,
    Nat.div_eq_of_lt hx, Nat.zero_add]

/-- Which cell of the printed tag is seen in a cell after a quarter turn. -/
def turnCell (d : Nat) (c : Nat × Nat) : Nat × Nat := (c.2, d - 1 - c.1)

theorem turnBit_cellBit (hx : c.1 < d) :
    turnBit d (cellBit d c) = cellBit d (turnCell d c) := by
  rw [cellBit, turnBit_grid (by omega), cellBit, turnCell]

theorem turnCell_lt (hx : c.1 < d) (hy : c.2 < d) (k : Nat) :
    ((turnCell d)^[k] c).1 < d ∧ ((turnCell d)^[k] c).2 < d := by
  induction k with
  | zero => exact ⟨hx, hy⟩
  | succ k ih =>
      rw [Function.iterate_succ_apply']
      exact ⟨ih.2, show d - 1 - _ < d by omega⟩

theorem getLsbD_turned {family : AprilTagFamily} (hd : family.d * family.d ≤ 64)
    {w : BitVec 64} (hx : c.1 < family.d) (hy : c.2 < family.d) (k : Nat) :
    (family.turned k w).getLsbD (cellBit family.d c) =
      w.getLsbD (cellBit family.d ((turnCell family.d)^[k] c)) := by
  induction k generalizing c with
  | zero => rfl
  | succ k ih =>
      have hturn : family.turned (k + 1) w = rotate90 (family.turned k w) family.d :=
        Function.iterate_succ_apply' (fun w => rotate90 w family.d) k w
      rw [hturn, getLsbD_turn hd (cellBit_lt hx hy), turnBit_cellBit hx,
        Function.iterate_succ_apply]
      exact ih hy (show family.d - 1 - c.1 < family.d by omega)

theorem cellBit_inj {c' : Nat × Nat} (hx : c.1 < d) (hy : c.2 < d) (hx' : c'.1 < d)
    (hy' : c'.2 < d) (h : cellBit d c = cellBit d c') : c = c' := by
  obtain ⟨hrow, hcol⟩ := (index_inj (by omega) (by omega)).mp h
  apply Prod.ext
  · omega
  · omega

theorem exists_cell {b : Nat} (hb : b < d * d) :
    ∃ c : Nat × Nat, (c.1 < d ∧ c.2 < d) ∧ cellBit d c = b := by
  obtain ⟨i, j, hi, hj, rfl⟩ := exists_grid hb
  refine ⟨(d - 1 - j, d - 1 - i), ⟨show d - 1 - j < d by omega, show d - 1 - i < d by omega⟩, ?_⟩
  have hback (n : Nat) (hn : n < d) : d - 1 - (d - 1 - n) = n := by omega
  rw [cellBit, hback i hi, hback j hj]

end Cells

/-- How many cells of the photo show something else than the printed tag, which is seen
    after `k` quarter turns. -/
def wrongCells (photo : ImageU8) (sampling : Sampling) (family : AprilTagFamily)
    (printed : ImageU8) (k : Nat) : Nat :=
  ((Finset.range family.d ×ˢ Finset.range family.d).filter fun c =>
    photo.bitRead sampling c.1 c.2 ≠ printed.cell family ((turnCell family.d)^[k] c)).card

theorem distance_wordRead {family : AprilTagFamily} (hd : family.d * family.d ≤ 64)
    {code : BitVec 64} (hcode : IsWord family.d code) {printed : ImageU8}
    (h : Drawing (family.d + 2 * (family.blackBorder + 1)) (tagItems family code) printed)
    (photo : ImageU8) (sampling : Sampling) (k : Nat) :
    distance (family.turned k code) (photo.wordRead sampling family.d) =
      photo.wrongCells sampling family printed k := by
  rw [← card_differing, wrongCells]
  symm
  have hseen {c : Nat × Nat} (hx : c.1 < family.d) (hy : c.2 < family.d) :
      printed.cell family ((turnCell family.d)^[k] c) =
        (family.turned k code).getLsbD (cellBit family.d c) := by
    obtain ⟨hx', hy'⟩ := turnCell_lt hx hy k
    rw [cell_eq h hx' hy', getLsbD_turned hd hx hy]
  apply Finset.card_nbij (cellBit family.d)
  · intro c hc
    rw [Finset.mem_coe, Finset.mem_filter, Finset.mem_product, Finset.mem_range,
      Finset.mem_range] at hc
    obtain ⟨⟨hx, hy⟩, hne⟩ := hc
    rw [hseen hx hy, ← getLsbD_wordRead hd photo sampling hx hy] at hne
    exact Finset.mem_coe.mpr (mem_differing.mpr
      ⟨Nat.lt_of_lt_of_le (cellBit_lt hx hy) hd, Ne.symm hne⟩)
  · intro c hc c' hc' heq
    rw [Finset.mem_coe, Finset.mem_filter, Finset.mem_product, Finset.mem_range,
      Finset.mem_range] at hc hc'
    exact cellBit_inj hc.1.1 hc.1.2 hc'.1.1 hc'.1.2 heq
  · intro b hb
    have hlt := (AprilTagFamily.isWord_turned hcode k).lt_of_mem_differing
      (isWord_wordRead photo sampling family.d) (Finset.mem_coe.mp hb)
    obtain ⟨c, ⟨hx, hy⟩, rfl⟩ := exists_cell hlt
    have hne := (mem_differing.mp (Finset.mem_coe.mp hb)).2
    rw [getLsbD_wordRead hd photo sampling hx hy, ← hseen hx hy] at hne
    refine ⟨c, Finset.mem_coe.mpr (Finset.mem_filter.mpr ⟨?_, Ne.symm hne⟩), rfl⟩
    exact Finset.mem_product.mpr ⟨Finset.mem_range.mpr hx, Finset.mem_range.mpr hy⟩

/-! ## 4. From the printed tag to the decoded one -/

/-- A photo of a tag of a family whose codes stay apart. -/
theorem decodes_photo {family : AprilTagFamily} {maxhamming : Int}
    (hfits : family.Fits maxhamming) (hsep : family.Separated) {idx : Nat}
    (hidx : idx < family.ncodes) {k : Nat} (hk : k < 4) {printed : ImageU8}
    (hprinted : Drawing (family.d + 2 * (family.blackBorder + 1))
      (tagItems family (family.code idx)) printed) (photo : ImageU8) (sampling : Sampling)
    (hfew : photo.wrongCells sampling family printed k + QuickDecode.corrected maxhamming <
      family.h) {entry : QuickDecodeEntry}
    (h : family.Decodes maxhamming (photo.wordRead sampling family.d) entry) :
    ∃ w, entry = if photo.wrongCells sampling family printed k ≤ QuickDecode.corrected maxhamming
      then ⟨w, .ofNat idx, .ofNat (photo.wrongCells sampling family printed k),
        .ofNat ((4 - k) % 4)⟩
      else ⟨0, 65535, 255, 0⟩ := by
  have hd := Nat.le_of_lt hfits.nbits_lt
  have hcode := hfits.isWord_code hidx
  have hread := isWord_wordRead photo sampling family.d
  -- the word as it would be read without the turns
  have hback : family.turned k (family.turned ((4 - k) % 4)
      (photo.wordRead sampling family.d)) = photo.wordRead sampling family.d := by
    rw [← AprilTagFamily.turned_add, AprilTagFamily.turned_mod_four hd hread,
      show (k + (4 - k) % 4) % 4 = 0 by omega]
    rfl
  have hdistance : distance (family.code idx) (family.turned ((4 - k) % 4)
      (photo.wordRead sampling family.d)) = photo.wrongCells sampling family printed k := by
    rw [← distance_wordRead hd hcode hprinted photo sampling k,
      ← AprilTagFamily.distance_turned hd hcode (AprilTagFamily.isWord_turned hread _) k, hback]
  rw [← hback] at h
  have hentry := hsep.decodes_turned hfits hidx (AprilTagFamily.isWord_turned hread _)
    (by rwa [hdistance]) hk h
  rw [hdistance] at hentry
  exact ⟨_, hentry⟩

/-- **Every tag of tag36h11 is read as itself**: on any photo of it, in any orientation, with
    at most two cells read wrongly; and with up to eight it is not read as another tag. -/
theorem tag36h11_read (idx : Nat) (hidx : idx < 587) :
    ∃ qd printed, QuickDecode.quickDecodeInit tag36h11 2 = .ok qd ∧
      apriltagToImage tag36h11 (by decide) idx = .ok printed ∧
      ∀ (photo : ImageU8) (sampling : Sampling), ∀ k < 4,
        photo.wrongCells sampling tag36h11 printed k ≤ 8 →
        ∃ rcode entry, photo.readBits sampling 6 = .ok rcode ∧
          qd.quickDecodeCodeword 6 rcode = .ok entry ∧
          if photo.wrongCells sampling tag36h11 printed k ≤ 2 then
            entry.id.toNat = idx ∧ entry.rotation.toNat = (4 - k) % 4 ∧
              entry.hamming.toNat = photo.wrongCells sampling tag36h11 printed k
          else entry.id = 65535 ∧ entry.hamming = 255 := by
  have hidx' : idx < tag36h11.ncodes := by rwa [Tag36h11.ncodes_eq]
  obtain ⟨qd, hinit, hholds, hroom⟩ := QuickDecode.quickDecodeInit_holds fits_tag36h11
  obtain ⟨printed, hprinted, hdrawing⟩ :=
    apriltagToImage_drawing (show tag36h11.d + _ < _ by decide) hidx'
  refine ⟨qd, printed, hinit, hprinted, fun photo sampling k hk hfew => ?_⟩
  obtain ⟨entry, hlookup, hdecodes⟩ :=
    hholds.quickDecodeCodeword hroom fits_tag36h11 (isWord_wordRead photo sampling 6)
  refine ⟨_, entry, readBits_eq photo sampling 6, hlookup, ?_⟩
  obtain ⟨w, rfl⟩ := decodes_photo fits_tag36h11 separated_tag36h11 hidx' hk hdrawing photo
    sampling (Nat.lt_of_le_of_lt (Nat.add_le_add_right hfew 2) (by decide)) hdecodes
  generalize photo.wrongCells sampling tag36h11 printed k = wrong at hfew
  by_cases hle : wrong ≤ 2
  · rw [if_pos hle, if_pos (show wrong ≤ QuickDecode.corrected 2 from hle)]
    refine ⟨?_, ?_, ?_⟩
    · exact UInt16.toNat_ofNat_of_lt' (Nat.lt_trans hidx (by decide))
    · exact UInt8.toNat_ofNat_of_lt' (Nat.lt_trans (Nat.mod_lt _ (by decide : 0 < 4)) (by decide))
    · exact UInt8.toNat_ofNat_of_lt' (Nat.lt_of_le_of_lt hle (by decide))
  · rw [if_neg hle, if_neg (show ¬ wrong ≤ QuickDecode.corrected 2 from hle)]
    exact ⟨rfl, rfl⟩

/-- The print itself as the photo. -/
def upright : Sampling where
  project := fun x y => (x + 2, y + 2)
  white := fun _ _ v => v = 255

theorem tag36h11_read_upright : ∃ qd printed rcode entry,
    apriltagToImage tag36h11 (by decide) 586 = .ok printed ∧
    printed.readBits upright 6 = .ok rcode ∧ QuickDecode.quickDecodeInit tag36h11 2 = .ok qd ∧
    qd.quickDecodeCodeword 6 rcode = .ok entry ∧ entry.id.toNat = 586 := by
  obtain ⟨qd, printed, hinit, hprinted, hread⟩ := tag36h11_read 586 (by decide)
  obtain ⟨drawn, hdrawn, hdrawing⟩ :=
    @apriltagToImage_drawing tag36h11 (by decide) 586 (by rw [Tag36h11.ncodes_eq]; decide)
  obtain rfl := Except.ok.inj (hprinted.symm.trans hdrawn)
  have hwidth : printed.width = 10 := hdrawing.width
  have hheight : printed.height = 10 := hdrawing.height
  have hnone : printed.wrongCells upright tag36h11 printed 0 = 0 := by
    refine Finset.card_eq_zero.mpr (Finset.filter_eq_empty_iff.mpr fun c hc hne => hne ?_)
    rw [Finset.mem_product, Finset.mem_range, Finset.mem_range] at hc
    have hx : c.1 < 6 := hc.1
    have hy : c.2 < 6 := hc.2
    rw [bitRead, upright]
    dsimp only
    rw [if_neg (by omega)]
    rfl
  obtain ⟨rcode, entry, hbits, hlookup, hanswer⟩ := hread printed upright 0 (by decide) (by omega)
  rw [hnone, if_pos (by decide)] at hanswer
  exact ⟨qd, printed, rcode, entry, hprinted, hbits, hinit, hlookup, hanswer.1⟩

end ImageU8

end Lame
