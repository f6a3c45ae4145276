/-
  Lame/AprilTagsLocator.lean
  ==========================
  **The geometry of the tags that the camera sees.**

  `GetSphericalFromMat` is embedded in exact arithmetic: rational numbers for `float`
  and `double`, and arbitrary functions for `tanf`, `atanf` and `sqrtf`.  The conversion
  of a pixel to gray and the detector are arguments, too.

  The image is widened to a multiple of 96 columns for the detector, and the optical
  centre is taken from the widened image.  The stride is above the width even for exact
  multiples, so that the centre is off for every camera: `unbiased_iff` names the
  detections whose ratios come out the same all the same.
-/
import Mathlib.Algebra.Order.Field.Rat
import Mathlib.Data.Fin.VecNotation
import Mathlib.Tactic.FieldSimp
import Mathlib.Tactic.Linarith
import Mathlib.Tactic.Ring

namespace Lame.AprilTagsLocator

/-! ## 1. Images -/

/-- `cv::Mat`, row by row. -/
structure Mat (Pixel : Type) where
  cols : Nat
  pixels : List (List Pixel)
  widths : ∀ row ∈ pixels, row.length = cols

namespace Mat

variable {Pixel Other : Type}

def rows (mat : Mat Pixel) : Nat := mat.pixels.length

def map (f : Pixel → Other) (mat : Mat Pixel) : Mat Other where
  cols := mat.cols
  pixels := mat.pixels.map (List.map f)
  widths := by
    intro row hrow
    obtain ⟨source, hsource, rfl⟩ := List.mem_map.mp hrow
    rw [List.length_map, mat.widths source hsource]

def constant (rows cols : Nat) (pixel : Pixel) : Mat Pixel where
  cols := cols
  pixels := List.replicate rows (List.replicate cols pixel)
  widths := by
    intro row hrow
    rw [List.eq_of_mem_replicate hrow, List.length_replicate]

/-- `cv::Mat::zeros` -/
def zeros (rows cols : Nat) : Mat UInt8 := constant rows cols 0

/-- `cv::hconcat` -/
def hconcat (left right : Mat Pixel) : Mat Pixel where
  cols := left.cols + right.cols
  pixels := List.zipWith (· ++ ·) left.pixels right.pixels
  widths := by
    intro row hrow
    obtain ⟨i, hi, rfl⟩ := List.getElem_of_mem hrow
    rw [List.getElem_zipWith, List.length_append, left.widths _ (List.getElem_mem _),
      right.widths _ (List.getElem_mem _)]

@[simp] theorem cols_map (f : Pixel → Other) (mat : Mat Pixel) : (mat.map f).cols = mat.cols := rfl

@[simp] theorem rows_map (f : Pixel → Other) (mat : Mat Pixel) : (mat.map f).rows = mat.rows :=
  List.length_map (List.map f)

@[simp] theorem rows_constant (rows cols : Nat) (pixel : Pixel) :
    (constant rows cols pixel).rows = rows :=
  List.length_replicate

theorem rows_hconcat {left right : Mat Pixel} (h : left.rows = right.rows) :
    (left.hconcat right).rows = left.rows := by
  unfold rows at h ⊢
  rw [hconcat, List.length_zipWith, ← h, Nat.min_self]

end Mat

/-- A pixel of the camera. -/
structure Bgr where
  blue : UInt8
  green : UInt8
  red : UInt8

def DEFAULT_ALIGNMENT : Nat := 96

def stride (cols : Nat) : Nat := cols + (DEFAULT_ALIGNMENT - cols % DEFAULT_ALIGNMENT)

/-- The image for the detector. -/
def adjusted_stride_image (gray : Bgr → UInt8) (mat : Mat Bgr) : Mat UInt8 :=
  let filtered := mat.map gray
  let compensate := Mat.zeros filtered.rows (stride mat.cols - filtered.cols)
  filtered.hconcat compensate

theorem lt_stride (cols : Nat) : cols < stride cols := by
  have hmod : cols % DEFAULT_ALIGNMENT < DEFAULT_ALIGNMENT := Nat.mod_lt _ (by decide)
  unfold stride
  omega

theorem stride_mod (cols : Nat) : stride cols % DEFAULT_ALIGNMENT = 0 := by
  unfold stride DEFAULT_ALIGNMENT
  omega

theorem adjusted_cols (gray : Bgr → UInt8) (mat : Mat Bgr) :
    (adjusted_stride_image gray mat).cols = stride mat.cols := by
  have hwidth : (adjusted_stride_image gray mat).cols =
      mat.cols + (stride mat.cols - mat.cols) := rfl
  rw [hwidth]
  exact Nat.add_sub_of_le (lt_stride mat.cols).le

theorem adjusted_rows (gray : Bgr → UInt8) (mat : Mat Bgr) :
    (adjusted_stride_image gray mat).rows = mat.rows := by
  rw [adjusted_stride_image, Mat.rows_hconcat (by simp [Mat.zeros]), Mat.rows_map]

/-! ## 2. Detections -/

/-- `tanf`, `atanf` and `sqrtf`. -/
structure Libm where
  tan : ℚ → ℚ
  atan : ℚ → ℚ
  sqrt : ℚ → ℚ

/-- `apriltag_detection_t` -/
structure Detection where
  id : Int
  c : ℚ × ℚ
  p : Fin 4 → ℚ × ℚ
  H : Fin 3 → Fin 3 → ℚ

structure TagDetection where
  azimuth : ℚ
  elevation : ℚ
  rotation : ℚ
  distance : ℚ
  id : Int
  center : ℚ × ℚ
  corners : List (ℚ × ℚ)
  homography : Fin 3 → Fin 3 → ℚ

structure Locator where
  hfov : ℚ
  tag_size : ℚ

/-- The square of the distance in pixels from the centre of a tag to a corner. -/
def Detection.squaredDistance (det : Detection) (corner : Fin 4) : ℚ :=
  ((det.p corner).1 - det.c.1) ^ 2 + ((det.p corner).2 - det.c.2) ^ 2

/-- The distances to two opposite corners, the shorter one first. -/
structure Halves where
  short_half : ℚ
  long_half : ℚ
  swapped : Bool

def Detection.halves (libm : Libm) (det : Detection) : Halves :=
  let short_half := libm.sqrt (det.squaredDistance 0)
  let long_half := libm.sqrt (det.squaredDistance 2)
  if short_half > long_half then ⟨long_half, short_half, true⟩
  else ⟨short_half, long_half, false⟩

/-- What azimuth, elevation and distance are computed from. -/
structure Ratios where
  horizontal : ℚ
  vertical : ℚ
  size : ℚ

def Detection.ratios (libm : Libm) (x_center y_center : ℚ) (det : Detection) : Ratios where
  horizontal := (det.c.1 - x_center) / x_center
  vertical := (y_center - det.c.2) / x_center
  size := (det.halves libm).long_half / x_center

/-- The ratios about the middle of an image. -/
def Mat.ratios {Pixel : Type} (libm : Libm) (image : Mat Pixel) (det : Detection) : Ratios :=
  let x_center : ℚ := image.cols / 2
  let y_center : ℚ := image.rows / 2
  det.ratios libm x_center y_center

/-- The body of the loop over the detections. -/
def tagDetection (locator : Locator) (libm : Libm) (ratios : Ratios) (det : Detection) :
    TagDetection :=
  let half_fov := locator.hfov / 2
  let halves := det.halves libm
  let long_angle := libm.atan (ratios.size * libm.tan half_fov)
  let pixel_distance := halves.long_half / libm.tan long_angle
  let a := pixel_distance *
    ((halves.long_half - halves.short_half) / (halves.long_half + halves.short_half))
  let b := halves.long_half / pixel_distance * (pixel_distance - a)
  let pixel_tag_size := libm.sqrt (a ^ 2 + b ^ 2)
  { azimuth := libm.atan (ratios.horizontal * libm.tan half_fov)
    elevation := libm.atan (ratios.vertical * libm.tan half_fov)
    rotation := if halves.swapped then -libm.atan (a / b) else libm.atan (a / b)
    distance := pixel_distance * (1 / 2) * (locator.tag_size / pixel_tag_size)
    id := det.id
    center := det.c
    corners := List.ofFn det.p
    homography := det.H }

/-- What the loop computes its reports from: the ratios about the middle of the image for
    the detector. -/
def loopRatios (libm : Libm) (gray : Bgr → UInt8) (mat : Mat Bgr) (det : Detection) : Ratios :=
  (adjusted_stride_image gray mat).ratios libm det

/-- The tags are appended to those given; without data or detections there are none. -/
def GetSphericalFromMat (locator : Locator) (libm : Libm) (gray : Bgr → UInt8)
    (detect : Mat UInt8 → List Detection) (mat : Option (Mat Bgr)) (tags : List TagDetection) :
    Bool × List TagDetection :=
  match mat with
  | none => (false, tags)
  | some mat =>
      let detections := detect (adjusted_stride_image gray mat)
      if detections.length = 0 then (false, tags)
      else
        (true, tags ++
          detections.map fun det => tagDetection locator libm (loopRatios libm gray mat det) det)

/-! ## 3. The optical centre -/

/-- The ratios of the loop are those about the middle of the camera's own image. -/
def Unbiased (libm : Libm) (gray : Bgr → UInt8) (mat : Mat Bgr)
    (detections : List Detection) : Prop :=
  ∀ det ∈ detections, loopRatios libm gray mat det = mat.ratios libm det

/-- A tag without extent, at half the height of the left edge of the image. -/
structure Degenerate (libm : Libm) (mat : Mat Bgr) (det : Detection) : Prop where
  left : det.c.1 = 0
  middle : det.c.2 = mat.rows / 2
  point : max (libm.sqrt (det.squaredDistance 0)) (libm.sqrt (det.squaredDistance 2)) = 0

/-- The widened image has the camera's height and the centre of its own width. -/
theorem loopRatios_eq (libm : Libm) (gray : Bgr → UInt8) (mat : Mat Bgr) (det : Detection) :
    loopRatios libm gray mat det = det.ratios libm (stride mat.cols / 2) (mat.rows / 2) := by
  rw [loopRatios, Mat.ratios, adjusted_cols, adjusted_rows]

/-- The centre is too far to the right, for multiples of the alignment as well. -/
theorem center_lt (cols : Nat) : (cols / 2 : ℚ) < stride cols / 2 := by
  have hcols : (cols : ℚ) < stride cols := Nat.cast_lt.mpr (lt_stride cols)
  linarith

theorem long_half_eq (libm : Libm) (det : Detection) :
    (det.halves libm).long_half =
      max (libm.sqrt (det.squaredDistance 0)) (libm.sqrt (det.squaredDistance 2)) := by
  rw [Detection.halves]
  split
  · next hlonger => exact (max_eq_left hlonger.le).symm
  · next hshorter => exact (max_eq_right (not_lt.mp hshorter)).symm

/-- A quotient that does not depend on which of two denominators is taken vanishes. -/
theorem div_eq_div_iff_eq_zero {a x y : ℚ} (h : x ≠ y) : a / x = a / y ↔ a = 0 := by
  rw [div_eq_mul_inv, div_eq_mul_inv, mul_eq_mul_left_iff, inv_inj, or_iff_right h]

/-- Two centres with the same height give a detection the same ratios. -/
theorem ratios_eq_iff {libm : Libm} {det : Detection} {x x' y : ℚ} (hx : x ≠ 0) (hx' : x' ≠ 0)
    (h : x ≠ x') :
    det.ratios libm x y = det.ratios libm x' y ↔
      det.c.1 = 0 ∧ det.c.2 = y ∧ (det.halves libm).long_half = 0 := by
  have hhorizontal : (det.c.1 - x) / x = (det.c.1 - x') / x' ↔ det.c.1 = 0 := by
    rw [sub_div, sub_div, div_self hx, div_self hx', sub_left_inj]
    exact div_eq_div_iff_eq_zero h
  have hvertical : (y - det.c.2) / x = (y - det.c.2) / x' ↔ det.c.2 = y := by
    rw [div_eq_div_iff_eq_zero h, sub_eq_zero, eq_comm]
  have hsize : (det.halves libm).long_half / x = (det.halves libm).long_half / x' ↔
      (det.halves libm).long_half = 0 := div_eq_div_iff_eq_zero h
  rw [Detection.ratios, Detection.ratios, Ratios.mk.injEq, hhorizontal, hvertical, hsize]

/-- One detection has the ratios of the camera's image only when it is degenerate. -/
theorem loopRatios_eq_iff (libm : Libm) (gray : Bgr → UInt8) {mat : Mat Bgr}
    (h : 1 ≤ mat.cols) (det : Detection) :
    loopRatios libm gray mat det = mat.ratios libm det ↔ Degenerate libm mat det := by
  have hcols : (0 : ℚ) < mat.cols := Nat.cast_pos.mpr h
  have hpos : (0 : ℚ) < mat.cols / 2 := by linarith
  have hlt := center_lt mat.cols
  rw [loopRatios_eq, Mat.ratios, ratios_eq_iff (hpos.trans hlt).ne' hpos.ne' hlt.ne',
    long_half_eq]
  constructor
  · rintro ⟨hleft, hmiddle, hpoint⟩
    exact ⟨hleft, hmiddle, hpoint⟩
  · intro hdegenerate
    exact ⟨hdegenerate.left, hdegenerate.middle, hdegenerate.point⟩

/-- Unbiased ratios make the reports those about the camera's own image. -/
theorem getSphericalFromMat_of_unbiased (locator : Locator) {libm : Libm} {gray : Bgr → UInt8}
    {detect : Mat UInt8 → List Detection} {mat : Mat Bgr}
    (h : Unbiased libm gray mat (detect (adjusted_stride_image gray mat)))
    (tags : List TagDetection) :
    (GetSphericalFromMat locator libm gray detect (some mat) tags).2 =
      tags ++ (detect (adjusted_stride_image gray mat)).map
        fun det => tagDetection locator libm (mat.ratios libm det) det := by
  rw [GetSphericalFromMat]
  split
  · next hnone =>
    rw [List.eq_nil_of_length_eq_zero hnone, List.map_nil, List.append_nil]
  · have hreports := List.map_congr_left fun det hmem =>
      congrArg (fun ratios => tagDetection locator libm ratios det) (h det hmem)
    rw [hreports]

/-- **The ratios of all detections** are those of the camera's image exactly when every
    detection is degenerate; then what a call reports is about the camera's image. -/
theorem unbiased_iff (libm : Libm) (gray : Bgr → UInt8) {mat : Mat Bgr} (h : 1 ≤ mat.cols)
    (detections : List Detection) :
    (Unbiased libm gray mat detections ↔ ∀ det ∈ detections, Degenerate libm mat det) ∧
      (Unbiased libm gray mat detections → ∀ locator detect tags,
        detect (adjusted_stride_image gray mat) = detections →
          (GetSphericalFromMat locator libm gray detect (some mat) tags).2 =
            tags ++ detections.map
              fun det => tagDetection locator libm (mat.ratios libm det) det) := by
  constructor
  · apply forall_congr'
    intro det
    apply imp_congr_right
    intro _
    exact loopRatios_eq_iff libm gray h det
  · rintro hunbiased locator detect tags rfl
    exact getSphericalFromMat_of_unbiased locator hunbiased tags

/-- A tag in the middle of the camera's image is reported to the left of it, by the share
    of the columns appended. -/
theorem horizontal_of_centred (libm : Libm) (gray : Bgr → UInt8) {mat : Mat Bgr}
    {det : Detection} (hcentred : det.c.1 = mat.cols / 2) :
    (loopRatios libm gray mat det).horizontal =
      -((stride mat.cols - mat.cols : ℚ) / stride mat.cols) := by
  have hstride : (stride mat.cols : ℚ) ≠ 0 := by
    have hpos : 0 < stride mat.cols := (Nat.zero_le _).trans_lt (lt_stride mat.cols)
    exact Nat.cast_ne_zero.mpr hpos.ne'
  rw [loopRatios_eq]
  show (det.c.1 - _) / _ = _
  rw [hcentred]
  field_simp
  ring

/-- In an image of one pixel, a point on the left edge and a tag in the middle. -/
theorem unbiased_iff_example :
    Unbiased ⟨id, id, id⟩ Bgr.green (Mat.constant 1 1 ⟨0, 0, 0⟩)
        [⟨7, (0, 1 / 2), fun _ => (0, 1 / 2), fun _ _ => 0⟩] ∧
      ¬ Unbiased ⟨id, id, id⟩ Bgr.green (Mat.constant 1 1 ⟨0, 0, 0⟩)
        [⟨7, (1 / 2, 1 / 2), fun _ => (1 / 2, 1 / 2), fun _ _ => 0⟩] := by
  constructor
  · refine (unbiased_iff _ _ (Nat.le_refl 1) _).1.mpr ?_
    intro det hmem
    rw [List.mem_singleton.mp hmem]
    refine ⟨rfl, ?_, ?_⟩
    · simp [Mat.rows, Mat.constant]
    · simp [Detection.squaredDistance]
  · intro hunbiased
    have hdegenerate := (unbiased_iff _ _ (Nat.le_refl 1) _).1.mp hunbiased _
      (List.mem_singleton_self _)
    have hleft := hdegenerate.left
    norm_num at hleft

/-- A tag in the middle of an image of 640 columns, which is widened to 672. -/
theorem not_always_unbiased :
    ¬ ∃ libm : Libm, Unbiased libm Bgr.green (Mat.constant 480 640 ⟨0, 0, 0⟩)
      [⟨7, (320, 240), ![(310, 250), (330, 250), (330, 230), (310, 230)], fun _ _ => 0⟩] := by
  rintro ⟨libm, hunbiased⟩
  have hratios := hunbiased _ (List.mem_singleton_self _)
  have hhorizontal := congrArg Ratios.horizontal hratios
  rw [horizontal_of_centred] at hhorizontal
  · have hstride : stride (Mat.constant 480 640 (⟨0, 0, 0⟩ : Bgr)).cols = 672 := rfl
    rw [hstride] at hhorizontal
    norm_num [Mat.ratios, Detection.ratios, Mat.constant] at hhorizontal
  · norm_num [Mat.constant]

end Lame.AprilTagsLocator
